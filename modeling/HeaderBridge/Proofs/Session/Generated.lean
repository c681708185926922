import HeaderBridge.Proofs.Bridge.Emission
import HeaderBridge.Proofs.Clean.Swept
import HeaderBridge.Proofs.Session.Rehearsal
import HeaderBridge.Proofs.Session.Sources

namespace HeaderBridge

open Batch

/-- Settings that make sense and have no templates of their own take a built-in pair. -/
theorem Config.exists_builtIn {c : Config} {d : Disk} {recipe : Recipe}
    (hvalid : c.problem d = none) (hrecipe : c.recipe = .ok recipe) (hdir : c.templateDir = []) :
    recipe.shelf = Template.Shelf.builtIn ∧ ∃ p ∈ Template.Pair.builtIn,
      recipe.pairName = p.name := by
  have hshelf : c.shelf = Template.Shelf.builtIn := by
    rw [shelf, hdir]
    rfl
  obtain ⟨naming, style, -, rfl⟩ := exists_of_recipe hrecipe
  have hfault : c.templateFault d = none := by
    have hnone : c.faults d = [] := Fault.gather_eq_none.1 hvalid
    simp only [faults, List.append_eq_nil_iff, Option.toList_eq_nil_iff] at hnone
    exact hnone.2
  obtain ⟨pairs, hpairs, -, hnames⟩ := Template.exists_pairs_builtIn d
  have hchosen : c.template ∈ pairs := by
    unfold templateFault at hfault
    rw [hshelf, hpairs] at hfault
    dsimp only at hfault
    split at hfault
    · rename_i hcontains
      exact List.contains_iff_mem.1 hcontains
    · cases hfault
  obtain ⟨p, hp, hname⟩ := hnames _ hchosen
  refine ⟨hshelf, p, hp, ?_⟩
  have hgiven : ∀ p ∈ Template.Pair.builtIn, p.name ≠ [] := by decide +kernel
  rw [Recipe.pairName, Text.orElse, if_neg (by simpa [← hname] using hgiven p hp), hname]

namespace Hallmark

variable {d : Disk} {path content : Text}

/-- A file marks its place if it starts with the marker and its name fits. -/
theorem marks_of_read {k : Hallmark} (hname : Path.IsName (Path.tail path))
    (hfits : k.fits (Path.base path) = true) (hread : d.read path = .ok content)
    (hmarker : k.marker <+: content) :
    k.Marks d (d.spelled path) := by
  obtain ⟨stamp, hstat⟩ := Disk.read_eq_ok.1 hread
  refine ⟨⟨content, stamp, (Disk.stat_eq_ok.1 hstat).2, hmarker⟩, Path.base path, ?_, hfits⟩
  rw [Disk.spelled_tail hname, List.getLast?_concat, Disk.base_of_isName hname]

theorem fits_iff {k : Hallmark} {name : Text} :
    k.fits name = true ↔ ∃ e ∈ k.endings, e <:+ name ∧ e.length < name.length := by
  simp [fits]

end Hallmark

namespace Session

variable {s : Session} {cancelled : Bool} {inputs : List Text} {path : Text}

theorem exists_document (hs : s.Ready) (hvalid : s.config.problem s.disk = none)
    (hdry : s.dryRun = false) (hpath : path ∈ (s.run cancelled inputs).2.summary.files) : ∃ h g doc,
      Batch.outcome s.recipe s.disk h = .made g [] ∧ doc ∈ [g.declaration, g.definition] ∧
      path = Path.join [s.config.outputFolder h.path, doc.name] ∧
      (s.run cancelled inputs).2.disk.read path = .ok doc.content := by
  cases cancelled with
  | true =>
    rw [summary_cancelled hs] at hpath
    cases hpath
  | false =>
    obtain ⟨hdisk, hcounts, -⟩ := run_spec hs hdry (Prod.eta (s.run false inputs)).symm
    obtain ⟨hstored, -, -⟩ :=
      claimed_stored hs.wellFormed s.config s.recipe (s.found inputs).1
        (Config.endings_ne hvalid hs.recipe)
    obtain ⟨hwf, -⟩ := claimed_edited hs.wellFormed s.config s.recipe (s.found inputs).1
    rw [hcounts.files] at hpath
    obtain ⟨⟨header, outcome⟩, hr, hwritten⟩ := List.mem_flatMap.1 hpath
    cases outcome with
    | broken f => cases hwritten
    | skipped f => cases hwritten
    | stopped g f => cases hwritten
    | made g paths =>
      obtain ⟨houtcome, declaration, definition, hpaths, hjoin, hjoin', hdeclaration,
          hdefinition⟩ :=
        madeOf_of_stored hs hwf hstored hr g paths rfl
      rw [hdisk]
      simp only [Outcome.written, hpaths, List.mem_cons, List.not_mem_nil, or_false] at hwritten
      rcases hwritten with rfl | rfl
      · exact ⟨header, g, g.declaration, houtcome, by simp, hjoin, hdeclaration⟩
      · exact ⟨header, g, g.definition, houtcome, by simp, hjoin', hdefinition⟩

/-- What a run writes has a clean path, a name that fits and the marker in front. -/
theorem marked_of_written (hs : s.Ready) (hvalid : s.config.problem s.disk = none)
    (hdir : s.config.templateDir = []) (hdry : s.dryRun = false)
    (hpath : path ∈ (s.run cancelled inputs).2.summary.files) :
    Path.clean path = path ∧ Path.IsName (Path.tail path) ∧
    s.config.hallmark.fits (Path.base path) = true ∧
      ∃ content, (s.run cancelled inputs).2.disk.read path = .ok content ∧
      Template.marker <+: content := by
  obtain ⟨h, g, doc, houtcome, hdoc, rfl, hread⟩ := exists_document hs hvalid hdry hpath
  obtain ⟨hname, e, he, front, hfront, hend⟩ :=
    named_of_made hs.wellFormed hvalid hs.recipe houtcome doc hdoc
  have hfolder := s.config.outputFolder_ne_nil h.path
  have htail := Path.tail_join hfolder hname
  refine ⟨Path.clean_join hfolder hname, by rwa [htail], ?_, doc.content, hread, ?_⟩
  · rw [Disk.base_of_isName (by rwa [htail]), htail, Hallmark.fits_iff]
    have hlength := List.length_pos_iff.2 hfront
    refine ⟨e, he, ⟨front, hend.symm⟩, ?_⟩
    rw [hend, List.length_append]
    omega
  · -- the content comes out of a built-in pair, whatever the interface is
    obtain ⟨-, source, i, r, -, -, hgenerate⟩ := exists_source_of_made hs.wellFormed houtcome
    obtain ⟨hshelf, p, hp, hpair⟩ := Config.exists_builtIn hvalid hs.recipe hdir
    obtain ⟨hdeclaration, hdefinition⟩ := Recipe.marker_of_generate hshelf hp hpair hgenerate
    simp only [List.mem_cons, List.not_mem_nil, or_false] at hdoc
    rcases hdoc with rfl | rfl
    · exact hdeclaration
    · exact hdefinition

/-- Every file that a run writes from a built-in pair is told for a generated one, by its name and
by its content. As long as it stays as it is, no scan under the same settings leads to it but one
that is given its path, and cleaning its folder removes it. -/
theorem files_recognised (hs : s.Ready) (hvalid : s.config.problem s.disk = none)
    (hdir : s.config.templateDir = []) (hdry : s.dryRun = false)
    (hpath : path ∈ (s.run cancelled inputs).2.summary.files)
    (hdots : Text.hasBlock ".." (Path.clean path) = false) :
    let d := (s.run cancelled inputs).2.disk
    (∃ e ∈ s.config.endings, e <:+ Path.base path ∧ e.length < (Path.base path).length) ∧
      (∃ content, d.read path = .ok content ∧ Template.marker <+: content) ∧
      (∀ r : Reader, r.Current d → (s.config.hallmark.bears r d path (Path.base path)).1 = true) ∧
      ∀ later : Disk, later.WellFormed → later.Named → later.read path = d.read path →
        (∀ (r : Reader) (given : List Text), r.Current later →
          (∀ t ∈ given, ∀ named, Input.ofText t = .path named →
            later.spelled named ≠ later.spelled path) →
          ∀ h ∈ (s.config.scanner.scan r later given).1.1,
            h.path ≠ path ∧ ¬ Scanner.LeadsTo later (later.spelled path) h) ∧
        path ∈ (Cleaning.ofInputs s.config.endings later [Path.dir path]).removed ∧
        (Cleaning.ofInputs s.config.endings later [Path.dir path]).disk.read path =
          .error .notFound := by
  intro d
  obtain ⟨hclean, hname, hfits, content, hread, hmarker⟩ :=
    marked_of_written hs hvalid hdir hdry hpath
  have hwf : d.WellFormed := (run_ready hs cancelled inputs).1.wellFormed
  rw [hclean] at hdots
  have htraversal : Reader.isTraversal path = false := by
    rw [Reader.isTraversal, hdots, Bool.false_and]
  have hne : path ≠ [] := by
    rintro rfl
    exact hname.ne_nil rfl
  have hmarks : ∀ later : Disk, later.read path = d.read path →
      s.config.hallmark.Marks later (later.spelled path) :=
    fun later hsame => Hallmark.marks_of_read hname hfits (hsame.trans hread) hmarker
  refine ⟨Hallmark.fits_iff.1 hfits, ⟨content, hread, hmarker⟩, fun r hr => ?_,
    fun later wf hnamed hsame => ⟨?_, ?_⟩⟩
  · have hlast : (d.spelled path).getLast? = some (Path.base path) := by
      rw [Disk.spelled_tail hname, List.getLast?_concat, Disk.base_of_isName hname]
    rw [(Hallmark.bears_of_current hwf hr _ path (Path.base path)).1]
    exact Hallmark.isBorne_of_marks hwf (hmarks d rfl) hne (by rwa [hclean]) hlast
  · intro r given hr hgiven h hh
    have hleads := Scanner.not_leadsTo_of_scan wf hr rfl (hmarks later hsame) hnamed hgiven h hh
    refine ⟨?_, hleads⟩
    rintro rfl
    exact hleads ⟨htraversal, rfl⟩
  · exact Cleaning.removed_of_marks wf hnamed hclean hname hdots (hmarks later hsame)

/-- The bridge of a single header is left alone when everything is scanned after the run, and goes
when its folder is cleaned. -/
theorem files_recognised_lone : ∃ s, start { outputDir := "out" } {} lone = .ok s ∧ s.Ready ∧
    s.config.problem s.disk = none ∧ s.config.templateDir = [] ∧ s.dryRun = false ∧
    ("out/ABridge.h" : Text) ∈ (s.run false ["a.h"]).2.summary.files ∧
    Text.hasBlock ".." (Path.clean "out/ABridge.h") = false ∧ (s.run false ["a.h"]).2.disk.Named ∧
    (∀ h ∈ (s.config.scanner.scan {} (s.run false ["a.h"]).2.disk ["./..."]).1.1,
      h.path ≠ "out/ABridge.h") ∧
    ("out/ABridge.h" : Text) ∈ (Cleaning.ofInputs s.config.endings (s.run false ["a.h"]).2.disk
      ["out"]).removed := by
  have wf : lone.WellFormed := by decide +kernel
  have hvalid : Config.problem { outputDir := "out" } lone = none := Config.problem_default _ _
  -- the run is evaluated once for both facts
  obtain ⟨s, hs, hpath, hnamed⟩ : ∃ s, start { outputDir := "out" } {} lone = .ok s ∧
      ("out/ABridge.h" : Text) ∈ (s.run false ["a.h"]).2.summary.files ∧
      (s.run false ["a.h"]).2.disk.Named := by
    refine ⟨_, rfl, ?_⟩
    decide +kernel
  have hready := ready_start wf hs
  obtain rfl : _ = s := Except.ok.inj hs
  have hdots : Text.hasBlock ".." (Path.clean "out/ABridge.h") = false := by decide
  obtain ⟨-, -, -, hlater⟩ := files_recognised hready hvalid rfl rfl hpath hdots
  obtain ⟨hscan, hremoved, -⟩ := hlater _ (run_ready hready false ["a.h"]).1.wellFormed hnamed rfl
  refine ⟨_, rfl, hready, hvalid, rfl, rfl, hpath, hdots, hnamed, fun h hh => ?_, hremoved⟩
  have htree : Input.ofText "./..." = .tree "." := by decide
  refine (hscan {} ["./..."] (Reader.current_empty _) ?_ h hh).1
  intro t ht named hnamed
  rw [List.mem_singleton.1 ht, htree] at hnamed
  cases hnamed

end Session
end HeaderBridge
