import HeaderBridge.Proofs.Scan.Spelling
import HeaderBridge.Proofs.Session.Run

namespace HeaderBridge

namespace Check

theorem isIdentifier_eq : isIdentifier = Text.isIdentifier := by
  funext t
  cases t <;> rfl

theorem slash_not_mem_of_isExtension {t : Text} (h : isExtension t = true) : ('/' : UInt8) ∉ t := by
  cases t with
  | nil => simp
  | cons a tail =>
    simp only [isExtension, Bool.and_eq_true, List.all_eq_true, beq_iff_eq] at h
    intro hslash
    rcases List.mem_cons.1 hslash with heq | hslash
    · rw [← heq] at h
      exact absurd h.1.1 (by decide)
    · exact absurd (h.2 _ hslash) (by decide)

end Check

open Batch

variable {d : Disk} {c : Config} {recipe : Recipe} {hs : List Header} {r : Result}
    {path content : Text}

namespace Batch

theorem spelled_not_mem_places (wf : d.WellFormed) {rs : List Result}
    (h : ∀ r ∈ rs, Path.absolute d.workPath path ∉ files c d r) :
    d.spelled path ∉ rs.flatMap (places c d) := by
  intro hplace
  obtain ⟨r, hr, hplace⟩ := List.mem_flatMap.1 hplace
  apply h r hr
  rw [files_eq wf, Disk.absolute_workPath wf.named]
  exact List.mem_map_of_mem hplace

/-- The files of a bridge are named like generated files: with one of the endings behind
something. -/
theorem named_of_made (wf : d.WellFormed) (hvalid : c.problem d = none)
    (hrecipe : c.recipe = .ok recipe) {h : Header} {g : Generated} {paths : List Text}
    (hmade : outcome recipe d h = .made g paths) :
    ∀ doc ∈ [g.declaration, g.definition],
      Path.IsName doc.name ∧ ∃ e ∈ c.endings, ∃ front, front ≠ [] ∧ doc.name = front ++ e := by
  obtain ⟨name, hname, hdeclaration, hdefinition⟩ := names_of_made wf hmade
  obtain ⟨front, hbridge, hnonempty, hfront⟩ := recipe.naming.exists_bridgeName hname
  obtain ⟨a, rest, hhead, ha⟩ := recipe.naming.head_bridgeName hname
  obtain ⟨hsuffix, hheader, hsource, -⟩ := Config.of_problem_eq_none hvalid
  obtain ⟨hheaderEnding, hsourceEnding⟩ := Config.endings_of_recipe hvalid hrecipe
  rw [Check.isIdentifier_eq] at hsuffix
  rw [(Config.recipe_eq hrecipe).1] at hbridge
  rw [hheaderEnding] at hdeclaration
  rw [hsourceEnding] at hdefinition
  -- the suffix and the ending have no slash, so they end the last part of a path
  have hown : ∀ ext : Text, ('/' : UInt8) ∉ ext → ∀ doc : Document,
      doc.name = recipe.naming.bridgeName name ++ ext →
      Path.IsName doc.name ∧ ∃ front, front ≠ [] ∧ doc.name = front ++ (c.suffix ++ ext) := by
    intro ext hext doc hdoc
    have hne : ∀ t : Text, t.head? = some ('.' : UInt8) ∨ t = [] → doc.name ≠ t := by
      rintro t ht rfl
      rw [hdoc, hhead] at ht
      simp [ha] at ht
    have hslash : ('/' : UInt8) ∉ doc.name := by
      rw [hdoc, hbridge, List.mem_append, List.mem_append]
      simp [hfront, Text.slash_not_mem_of_isIdentifier hsuffix, hext]
    refine ⟨⟨⟨hne _ (.inr rfl), hne _ (.inl (by decide)), hslash⟩, hne _ (.inl (by decide))⟩, front,
      hnonempty, ?_⟩
    rw [hdoc, hbridge, List.append_assoc]
  intro doc hdoc
  simp only [List.mem_cons, List.not_mem_nil, or_false] at hdoc
  rcases hdoc with rfl | rfl
  · obtain ⟨hisName, hend⟩ := hown _ (Check.slash_not_mem_of_isExtension hheader) _ hdeclaration
    exact ⟨hisName, _, by simp [Config.endings], hend⟩
  · obtain ⟨hisName, hend⟩ := hown _ (Check.slash_not_mem_of_isExtension hsource) _ hdefinition
    exact ⟨hisName, _, by simp [Config.endings], hend⟩

/-- The last part of a path to a file of a bridge is the name of that file. -/
theorem exists_document_of_mem_files (wf : d.WellFormed) (hvalid : c.problem d = none)
    (hrecipe : c.recipe = .ok recipe) (hr : r ∈ claimed c recipe d hs)
    (htail : Path.IsName (Path.tail path)) (hmem : Path.absolute d.workPath path ∈ files c d r) :
    ∃ e ∈ c.endings,
      e <:+ Path.tail path := by
  obtain ⟨h, outcome⟩ := r
  cases outcome with
  | broken f => cases hmem
  | skipped f => cases hmem
  | stopped g f => cases hmem
  | made g paths =>
    obtain ⟨name, hname, habsolute⟩ := List.mem_map.1 hmem
    change name ∈ [g.declaration, g.definition].map Document.name at hname
    obtain ⟨doc, hdoc, rfl⟩ := List.mem_map.1 hname
    obtain ⟨hisName, e, he, front, -, hend⟩ :=
      named_of_made wf hvalid hrecipe (outcome_of_claimed hr rfl).2 doc hdoc
    -- one place, spelled by the path and by the folder and the name: both end in the same part
    have hplace := Disk.spelled_of_absolute wf.named habsolute
    have htarget := Output.target_eq d (c.outputFolder_ne_nil h.path) doc
    rw [Path.parts_of_isPart hisName.toIsPart, List.foldl_cons, List.foldl_nil,
      Path.turn_name hisName] at htarget
    rw [Disk.spelled_tail htail] at hplace
    rw [(List.append_singleton_inj.1 (htarget.symm.trans hplace)).2] at hend
    exact ⟨e, he, front, hend.symm⟩

end Batch

namespace Session

variable {s : Session}

/-- A run changes no files but those that the bridges of its batch are written to. -/
theorem run_edited (hs : s.Ready) (cancelled : Bool) (inputs : List Text) :
    Disk.Edited ((claimed s.config s.recipe s.disk (s.found inputs).1).flatMap
      (places s.config s.disk)) s.disk (s.run cancelled inputs).2.disk := by
  obtain ⟨-, hsame | hstored⟩ := run_ready hs cancelled inputs
  · rw [hsame]
    exact .refl _ _
  · rw [hstored]
    exact (claimed_edited hs.wellFormed s.config s.recipe _).2

/-- A header that is not named like a generated file holds after a run what it held before. -/
theorem source_kept_of_name (hs : s.Ready) (hvalid : s.config.problem s.disk = none)
    (cancelled : Bool) (inputs : List Text) {h : Header} (hfound : h ∈ (s.found inputs).1)
    (hname : s.isGeneratedPath h.path = false) (hread : s.disk.read h.path = .ok content) :
    (s.run cancelled inputs).2.disk.read h.path = .ok content := by
  obtain ⟨stamp, hstat⟩ := Disk.read_eq_ok.1 hread
  have hclean := s.config.scanner.clean_of_scan inputs h hfound
  have htail := Disk.isName_tail hs.wellFormed hclean (by simp [(Disk.stat_eq_ok.1 hstat).2])
  apply (run_edited hs cancelled inputs).read hread
  apply spelled_not_mem_places hs.wellFormed
  intro r hr hmem
  obtain ⟨e, he, hend⟩ := exists_document_of_mem_files hs.wellFormed hvalid hs.recipe hr htail hmem
  rw [isGeneratedPath, Disk.base_of_isName htail, List.any_eq_false] at hname
  exact hname e he (List.isSuffixOf_iff_suffix.2 hend)

/-- A file that no bridge of a batch is written to, such as a header of the batch, holds after a run
what it held before. -/
theorem source_kept (hs : s.Ready) (cancelled : Bool) (inputs : List Text)
    (hfree : ∀ r ∈ claimed s.config s.recipe s.disk (s.found inputs).1,
      Path.absolute s.disk.workPath path ∉ files s.config s.disk r)
    (hread : s.disk.read path = .ok content) :
    (s.run cancelled inputs).2.disk.read path = .ok content :=
  (run_edited hs cancelled inputs).read hread (spelled_not_mem_places hs.wellFormed hfree)

def loneSource : Text := "class A \x7b virtual void f() = 0; \x7d;\n"

/-- A header next to a folder of bridges stays as it is. -/
theorem source_kept_lone : ∃ s, start { outputDir := "out" } {} lone = .ok s ∧ s.Ready ∧
    (∀ r ∈ claimed s.config s.recipe s.disk (s.found ["a.h"]).1,
      Path.absolute s.disk.workPath "a.h" ∉ files s.config s.disk r) ∧
    s.disk.read "a.h" = .ok loneSource ∧
    (s.run false ["a.h"]).2.disk.read "a.h" = .ok loneSource := by
  have wf : lone.WellFormed := by decide +kernel
  have hready : Ready _ :=
    ready_start wf (show start { outputDir := "out" } {} lone = .ok _ from rfl)
  refine ⟨_, rfl, hready, by decide +kernel, rfl, ?_⟩
  exact source_kept hready false _ (by decide +kernel) rfl

def shadowed : Disk :=
  Disk.empty.install "IShapeBridge.h" "class IShape \x7b virtual void f() = 0; \x7d;\n" 0

/-- The header is found, the settings make sense and the run goes well, but the bridge stands where
the header was. -/
theorem source_lost_shadowed : ∃ s, start {} {} shadowed = .ok s ∧ s.config.problem s.disk = none ∧
    (s.found ["IShapeBridge.h"]).1.map (·.path) = ["IShapeBridge.h"] ∧
    (s.run false ["IShapeBridge.h"]).1.isNone = true ∧
    (s.run false ["IShapeBridge.h"]).2.disk.read "IShapeBridge.h" ≠
      s.disk.read "IShapeBridge.h" := by
  have hvalid : Config.problem {} shadowed = none := Config.problem_default _ _
  exact ⟨_, rfl, hvalid, by decide +kernel⟩

end Session
end HeaderBridge
