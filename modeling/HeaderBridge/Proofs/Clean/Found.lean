import HeaderBridge.Proofs.Clean.Swept

namespace HeaderBridge

variable {d d' : Disk} {r : Reader} {k : Hallmark} {b p : Text} {v : Disk.Visit}

theorem Disk.Shrunk.current (h : d.Shrunk d') (hr : r.Current d) : r.Current d' where
  value hitem hfile := hr.value hitem (h.entry (by rwa [Disk.spelled_congr h.work] at hfile))
  past hitem hn := h.clock ▸ hr.past hitem hn

namespace Hallmark

theorem isBorne_of_shrunk (h : d.Shrunk d') {path name : Text}
    (hborne : k.isBorne d' path name = true) : k.isBorne d path name = true := by
  obtain ⟨hfits, content, hplain, hmarker⟩ := isBorne_eq_true.1 hborne
  obtain ⟨hpath, htraversal, stamp, hstat⟩ := Reader.plain_eq_ok.1 hplain
  exact isBorne_eq_true.2 ⟨hfits, content,
    Reader.plain_eq_ok.2 ⟨hpath, htraversal, stamp, h.stat hstat⟩, hmarker⟩

/-- The marked files that are met from a path on, but not in hidden folders. -/
def found (k : Hallmark) (d : Disk) (b : Text) : List Disk.Visit :=
  match d.walk (Walk.isEntered b []) b with
  | .ok vs => (vs.filter (!·.isFolder)).filter fun v => k.isBorne d v.path v.name
  | .error _ => []

theorem mem_found : v ∈ k.found d b ↔ ∃ vs, d.walk (Walk.isEntered b []) b = .ok vs ∧ v ∈ vs ∧
    v.isFolder = false ∧ k.isBorne d v.path v.name = true := by
  rw [found]
  cases d.walk (Walk.isEntered b []) b with
  | error e => simp
  | ok vs => simp [and_comm]

theorem found_of_shrunk (h : d.Shrunk d') : k.found d' b ⊆ k.found d b := by
  intro v hv
  obtain ⟨vs, hwalk, hmem, hfile, hborne⟩ := mem_found.1 hv
  obtain ⟨vs', hwalk', hsub⟩ := h.walk hwalk
  exact mem_found.2 ⟨vs', hwalk', hsub hmem, hfile, isBorne_of_shrunk h hborne⟩

/-- A generated file at a path, and how it is reached from another: by no hidden folder. -/
structure Finds (k : Hallmark) (d : Disk) (b p : Text) : Prop where
  file : ∃ content stamp, d.stat p = .ok (.file content stamp) ∧ k.marker <+: content
  name : ∃ name, (d.spelled p).getLast? = some name ∧ k.fits name = true
  way : ∃ names, d.spelled p = d.spelled b ++ names ∧ ∀ n ∈ names.dropLast, Walk.isHidden n = false

/-- Only folders that are not hidden are entered below the one where a walk starts. -/
theorem not_isHidden_of_entered {front : List Text} {n name : Text} (hb : b ≠ [])
    (hnames : ∀ c ∈ front ++ [n], Path.IsName c)
    (h : Walk.isEntered b [] ⟨Disk.below b (front ++ [n]), (front ++ [n]).getLastD name, true⟩ =
      true) :
    Walk.isHidden n = false := by
  have hother : ¬ Path.clean (Disk.below b (front ++ [n])) = Path.clean b := by
    intro heq
    have hplace := congrArg Disk.empty.spelled heq
    rw [Disk.spelled_clean, Disk.spelled_clean, Disk.spelled_below hb hnames] at hplace
    simpa using congrArg List.length hplace
  simpa [Walk.isEntered, hother, Glob.anyMatches] using h

theorem finds_of_mem (wf : d.WellFormed) (hnamed : d.Named) (hv : v ∈ k.found d b) :
    k.Finds d b v.path := by
  obtain ⟨vs, hwalk, hmem, hfile, hborne⟩ := mem_found.1 hv
  obtain ⟨hfits, content, hplain, hmarker⟩ := isBorne_eq_true.1 hborne
  obtain ⟨hpath, -, stamp, hstat⟩ := Reader.plain_eq_ok.1 hplain
  obtain ⟨-, -, hname⟩ := Disk.file_of_walk wf hnamed hwalk hmem hfile
  obtain ⟨hresolved, hb, rfl⟩ := Disk.walk_eq_ok hwalk
  obtain ⟨names, hmet, hentered⟩ := Disk.exists_entered hnamed hb rfl hmem
  refine ⟨⟨content, stamp, ?_, hmarker⟩, ⟨v.name, hname, hfits⟩, names, hmet.place, fun n hn => ?_⟩
  · -- the path is the one where the walk started, or clean
    have hclean : v.path = b ∨ Path.clean v.path = v.path := by
      rcases List.eq_nil_or_concat names with rfl | ⟨front, n, rfl⟩
      · exact .inl hmet.path_eq
      · right
        rw [hmet.path_eq, List.concat_eq_append, Disk.below_concat]
        exact Path.clean_join (Disk.below_ne_nil hb fun c hc => hmet.named c (by simp [hc]))
          (hmet.named n (by simp))
    rcases hclean with hstart | hclean
    · have hentry := (Disk.stat_eq_ok.1 hstat).2
      rw [Disk.spelled_clean, hstart] at hentry
      rw [hstart]
      exact Disk.stat_eq_ok.2 ⟨hresolved, hentry⟩
    · rwa [hclean] at hstat
  · -- the folder of that name has been entered
    rcases List.eq_nil_or_concat names with rfl | ⟨most, last, rfl⟩
    · cases hn
    rw [List.concat_eq_append] at hmet hentered hn
    rw [List.dropLast_concat] at hn
    obtain ⟨front, back, rfl⟩ := List.append_of_mem hn
    have hfront : front ++ [n] <+: front ++ n :: back ++ [last] := ⟨back ++ [last], by simp⟩
    have hne : front ++ [n] ≠ front ++ n :: back ++ [last] := by
      intro heq
      have hlength := congrArg List.length heq
      simp at hlength
    exact not_isHidden_of_entered hb (fun c hc => hmet.named c (hfront.subset hc))
      (hentered _ hfront hne)

end Hallmark

namespace Cleaning

section Run

variable {bases : List Text} {c : Cleaning}

theorem candidates_cases (wf : d.WellFormed) (hr : r.Current d) (k : Hallmark) (b : Text) :
    (∃ f, candidates k r d b = (.error f, r) ∧ k.found d b = []) ∨
      ∃ paths r', candidates k r d b = (.ok paths, r') ∧ r'.Current d ∧
        ∀ p, p ∈ paths ↔ ∃ v ∈ k.found d b, v.path = p := by
  have hselect : ∀ vs, (k.select true d vs r).1 = vs.filter (fun v => k.isBorne d v.path v.name) ∧
      (k.select true d vs r).2.Current d := by
    intro vs
    have hkept := (k.transparent_select (Reader.Transparent.read wf) true vs).kept hr
    exact ⟨by simpa using Hallmark.select_of_current wf hr k true vs, hkept⟩
  rcases Disk.walk_cases d (Walk.isEntered b []) b with ⟨e, hstat, hwalk⟩ | ⟨e, hstat, hwalk⟩
  · left
    rw [candidates, hstat, Hallmark.found, hwalk]
    exact ⟨_, rfl, rfl⟩
  · right
    cases e with
    | file content stamp =>
      obtain ⟨hlisted, hcurrent⟩ := hselect [⟨b, Path.base b, false⟩]
      have hfound : k.found d b = (k.select true d [⟨b, Path.base b, false⟩] r).1 := by
        rw [Hallmark.found, hwalk, Disk.visits, (Disk.stat_eq_ok.1 hstat).2, hlisted]
        rfl
      rw [candidates, hstat, hfound]
      exact ⟨_, _, rfl, hcurrent, fun p => List.mem_map⟩
    | folder =>
      obtain ⟨hlisted, hcurrent⟩ := hselect
        ((d.visits (Walk.isEntered b []) (d.entries.length + 2) b (Path.base b)
          (d.spelled b)).filter (!·.isFolder))
      rw [candidates, hstat, Hallmark.found, hwalk]
      dsimp only
      rw [Walk.files, hwalk, ← hlisted]
      exact ⟨_, _, rfl, hcurrent, fun p => Walk.mem_paths⟩

/-- A cleaning that began with a disk: it has removed what was found there, each file once, and all
else is there. -/
structure Swept (k : Hallmark) (d : Disk) (bases : List Text) (c : Cleaning) : Prop where
  shrunk : d.Shrunk c.disk
  current : c.reader.Current c.disk
  listed : ∀ p ∈ c.removed, ∃ b ∈ bases, ∃ v ∈ k.found d b, v.path = p
  once : (c.removed.map d.spelled).Nodup
  gone : ∀ q ∈ c.removed.map d.spelled, c.disk.find? q = none
  rest : ∀ q, q ∉ c.removed.map d.spelled → c.disk.find? q = d.find? q

namespace Swept

theorem start (hr : r.Current d) (k : Hallmark) (bases : List Text) :
    Swept k d bases { disk := d, reader := r } :=
  ⟨.refl d, hr, by simp, .nil, by simp, fun _ _ => rfl⟩

theorem congr {c' : Cleaning} (h : Swept k d bases c) (hdisk : c'.disk = c.disk)
    (hremoved : c'.removed = c.removed) (hr : c'.reader.Current c.disk) : Swept k d bases c' := by
  obtain ⟨disk, reader, removed, faults⟩ := c'
  cases hdisk
  cases hremoved
  exact ⟨h.shrunk, hr, h.listed, h.once, h.gone, h.rest⟩

theorem mem_removed_concat {q : Place} :
    q ∈ (c.removed ++ [p]).map d.spelled ↔ q ∈ c.removed.map d.spelled ∨ q = d.spelled p := by
  rw [List.map_append, List.mem_append, List.map_singleton, List.mem_singleton]

theorem take {content : Text} {stamp : Stamp} (h : Swept k d bases c)
    (hp : ∃ b ∈ bases, ∃ v ∈ k.found d b, v.path = p)
    (hthere : c.disk.resolve p = .ok (c.disk.spelled p))
    (hfile : c.disk.find? (c.disk.spelled p) = some (.file content stamp))
    (hmem : d.spelled p ∉ c.removed.map d.spelled) : Swept k d bases (c.remove p) := by
  have hne : d.spelled p ≠ [] := by
    intro hnil
    rw [Disk.spelled_congr h.shrunk.work, hnil] at hfile
    cases hfile
  have hdrop : c.disk.Shrunk (c.disk.drop (c.disk.spelled p)) := .drop (by rw [hfile]; simp)
  rw [remove_of_file hthere hfile]
  rw [Disk.spelled_congr h.shrunk.work] at hdrop ⊢
  refine ⟨h.shrunk.trans hdrop, hdrop.current (h.current.erase _), fun p' hp' => ?_, ?_,
    fun q hq => ?_, fun q hq => ?_⟩
  · rcases List.mem_append.1 hp' with hp' | hp'
    · exact h.listed p' hp'
    · rw [List.mem_singleton.1 hp']
      exact hp
  · rw [List.map_append, List.map_singleton, ← List.concat_eq_append, List.nodup_concat]
    exact ⟨hmem, h.once⟩
  · rw [Disk.find?_drop hne]
    split
    · rfl
    · rename_i hother
      exact h.gone q ((mem_removed_concat.1 hq).resolve_right hother)
  · rw [mem_removed_concat, not_or] at hq
    rw [Disk.find?_drop hne, if_neg hq.2]
    exact h.rest q hq.1

variable (wf : d.WellFormed) (hnamed : d.Named)

include wf hnamed

theorem remove (h : Swept k d bases c) (hp : ∃ b ∈ bases, ∃ v ∈ k.found d b, v.path = p) :
    Swept k d bases (c.remove p) ∧ c.disk.Shrunk (c.remove p).disk ∧
      (c.remove p).disk.find? (d.spelled p) = none := by
  obtain ⟨content, stamp, hstat, -⟩ : ∃ content stamp, d.stat p = .ok (.file content stamp) ∧
      k.marker <+: content := by
    obtain ⟨b, -, v, hv, rfl⟩ := hp
    exact (Hallmark.finds_of_mem wf hnamed hv).file
  obtain ⟨hresolved, hfile⟩ := Disk.stat_eq_ok.1 hstat
  have hspelled : c.disk.spelled p = d.spelled p := Disk.spelled_congr h.shrunk.work p
  have hthere : c.disk.resolve p = .ok (c.disk.spelled p) := hspelled ▸ h.shrunk.resolve hresolved
  by_cases hmem : d.spelled p ∈ c.removed.map d.spelled
  · -- it is gone, and that is told as a fault
    have hgone := h.gone _ hmem
    rw [remove_of_none hthere (hspelled ▸ hgone)]
    exact ⟨h.congr rfl rfl h.current, .refl _, hgone⟩
  · have hstill : c.disk.find? (c.disk.spelled p) =
        some (.file content stamp) := by rw [hspelled, h.rest _ hmem, hfile]
    have hswept := h.take hp hthere hstill hmem
    refine ⟨hswept, (remove_spec (by rw [hstill]; simp)).1, hswept.gone _ ?_⟩
    rw [remove_of_file hthere hstill]
    exact mem_removed_concat.2 (.inr rfl)

theorem foldl_remove {ps : List Text} (h : Swept k d bases c)
    (hps : ∀ p ∈ ps, ∃ b ∈ bases, ∃ v ∈ k.found d b, v.path = p) :
    Swept k d bases (ps.foldl Cleaning.remove c) ∧ c.disk.Shrunk (ps.foldl Cleaning.remove c).disk ∧
      ∀ p ∈ ps, (ps.foldl Cleaning.remove c).disk.find? (d.spelled p) = none := by
  induction ps generalizing c with
  | nil => exact ⟨h, .refl _, by simp⟩
  | cons p ps ih =>
    obtain ⟨hp, hps⟩ := List.forall_mem_cons.1 hps
    obtain ⟨hfirst, hshrunk, hgone⟩ := h.remove wf hnamed hp
    obtain ⟨hrest, hshrunk', hgone'⟩ := ih hfirst hps
    exact ⟨hrest, hshrunk.trans hshrunk', List.forall_mem_cons.2 ⟨hshrunk'.none hgone, hgone'⟩⟩

theorem sweep (h : Swept k d bases c) (hb : b ∈ bases) : Swept k d bases (sweep k c b) ∧
    c.disk.Shrunk (Cleaning.sweep k c b).disk ∧ k.found (Cleaning.sweep k c b).disk b = [] := by
  unfold Cleaning.sweep
  rcases candidates_cases (h.shrunk.wellFormed wf) h.current k b with
    ⟨f, hlisted, hnone⟩ | ⟨paths, r', hlisted, hcurrent, hpaths⟩
  · rw [hlisted]
    exact ⟨h.congr rfl rfl h.current, .refl _, hnone⟩
  · rw [hlisted]
    dsimp only
    have hread : Swept k d bases { c with reader := r' } := h.congr rfl rfl hcurrent
    have hfound : ∀ p ∈ paths, ∃ b ∈ bases, ∃ v ∈ k.found d b, v.path = p := by
      intro p hp
      obtain ⟨v, hv, hpath⟩ := (hpaths p).1 hp
      exact ⟨b, hb, v, Hallmark.found_of_shrunk h.shrunk hv, hpath⟩
    obtain ⟨hswept, hshrunk, hgone⟩ := hread.foldl_remove wf hnamed hfound
    refine ⟨hswept, hshrunk, List.eq_nil_iff_forall_not_mem.2 fun v hv => ?_⟩
    -- what is found now was found before, and so it is gone
    have hbefore := Hallmark.found_of_shrunk hshrunk hv
    have hgone := hgone v.path ((hpaths _).2 ⟨v, hbefore, rfl⟩)
    obtain ⟨content, stamp, hstat, -⟩ :=
      (Hallmark.finds_of_mem (hswept.shrunk.wellFormed wf) (hswept.shrunk.named hnamed) hv).file
    have hfile := (Disk.stat_eq_ok.1 hstat).2
    rw [Disk.spelled_congr hswept.shrunk.work, hgone] at hfile
    cases hfile

theorem foldl_sweep {bs : List Text} (h : Swept k d bases c) (hbs : bs ⊆ bases) :
    Swept k d bases (bs.foldl (Cleaning.sweep k) c) ∧
      c.disk.Shrunk (bs.foldl (Cleaning.sweep k) c).disk ∧
      ∀ b ∈ bs, k.found (bs.foldl (Cleaning.sweep k) c).disk b = [] := by
  induction bs generalizing c with
  | nil => exact ⟨h, .refl _, by simp⟩
  | cons b bs ih =>
    obtain ⟨hb, hbs⟩ := List.cons_subset.1 hbs
    obtain ⟨hfirst, hshrunk, hnone⟩ := h.sweep wf hnamed hb
    obtain ⟨hrest, hshrunk', hnone'⟩ := ih hfirst hbs
    refine ⟨hrest, hshrunk.trans hshrunk', List.forall_mem_cons.2 ⟨?_, hnone'⟩⟩
    exact List.eq_nil_of_subset_nil (hnone ▸ Hallmark.found_of_shrunk hshrunk')

end Swept

theorem foldl_sweep_of_found {bs : List Text} (wf : c.disk.WellFormed)
    (hr : c.reader.Current c.disk) (hnone : ∀ b ∈ bs, k.found c.disk b = []) :
    (bs.foldl (sweep k) c).disk = c.disk ∧ (bs.foldl (sweep k) c).removed = c.removed := by
  induction bs generalizing c with
  | nil => exact ⟨rfl, rfl⟩
  | cons b bs ih =>
    obtain ⟨hb, hbs⟩ := List.forall_mem_cons.1 hnone
    rw [List.foldl_cons, sweep]
    rcases candidates_cases wf hr k b with ⟨f, hlisted, -⟩ | ⟨paths, r', hlisted, hcurrent, hpaths⟩
    · rw [hlisted]
      exact ih wf hr hbs
    · have hnil : paths = [] := by
        rw [List.eq_nil_iff_forall_not_mem]
        intro p hp
        obtain ⟨v, hv, -⟩ := (hpaths p).1 hp
        rw [hb] at hv
        cases hv
      rw [hlisted, hnil]
      exact ih (c := { c with reader := r' }) wf hcurrent hbs

end Run

def bases (inputs : List Text) : List Text :=
  (if inputs.isEmpty then [Path.here] else inputs).map base

/-- Only generated files below the given paths are removed, each once, and all else stays; cleaning
again, with the same reader or a new one, removes nothing. -/
theorem ofInputs_generated (wf : d.WellFormed) (hnamed : d.Named) {endings inputs : List Text}
    {c : Cleaning} (h : ofInputs endings d inputs = c) :
    (∀ p ∈ c.removed, ∃ b ∈ bases inputs, ∃ content stamp names name, d.stat p =
      .ok (.file content stamp) ∧ Template.marker <+: content ∧ d.spelled p = d.spelled b ++ names ∧
      (∀ n ∈ names.dropLast, Walk.isHidden n = false) ∧ (d.spelled p).getLast? = some name ∧
      ∃ e ∈ endings, e <:+ name ∧ e.length < name.length) ∧
    (c.removed.map d.spelled).Nodup ∧
    (∀ q, q ∈ c.removed.map d.spelled ↔ d.find? q ≠ none ∧ c.disk.find? q = none) ∧
    (∀ q, q ∉ c.removed.map d.spelled → c.disk.find? q = d.find? q) ∧
    ∀ c', c' = ofInputs endings c.disk inputs ∨ c' = run ⟨Template.marker, endings⟩ c.reader c.disk
      (bases inputs) → c'.removed = [] ∧ c'.disk = c.disk := by
  have hrun : ∀ d, ofInputs endings d inputs = run ⟨Template.marker, endings⟩ {} d (bases inputs) :=
    fun _ => rfl
  have hstart := Swept.start (Reader.current_empty d) ⟨Template.marker, endings⟩ (bases inputs)
  obtain ⟨hswept, -, hnone⟩ := hstart.foldl_sweep wf hnamed (List.Subset.refl _)
  have hc : (bases inputs).foldl (sweep ⟨Template.marker, endings⟩) { disk := d, reader := {} } =
      c := h
  rw [hc] at hswept hnone
  have hfinds : ∀ p ∈ c.removed, ∃ b ∈ bases inputs,
      (⟨Template.marker, endings⟩ : Hallmark).Finds d b p := by
    intro p hp
    obtain ⟨b, hb, v, hv, rfl⟩ := hswept.listed p hp
    exact ⟨b, hb, Hallmark.finds_of_mem wf hnamed hv⟩
  refine ⟨fun p hp => ?_, hswept.once, fun q => ?_, hswept.rest, fun c' hc' => ?_⟩
  · obtain ⟨b, hb, ⟨content, stamp, hstat, hmarker⟩, ⟨name, hname, hfits⟩, names, hplace, hshown⟩ :=
      hfinds p hp
    refine ⟨b, hb, content, stamp, names, name, hstat, hmarker, hplace, hshown, hname, ?_⟩
    simpa [Hallmark.fits] using hfits
  · constructor
    · intro hq
      obtain ⟨p, hp, rfl⟩ := List.mem_map.1 hq
      obtain ⟨b, -, ⟨content, stamp, hstat, -⟩, -, -⟩ := hfinds p hp
      refine ⟨?_, hswept.gone _ hq⟩
      rw [(Disk.stat_eq_ok.1 hstat).2]
      simp
    · rintro ⟨hthere, hgone⟩
      by_contra hq
      rw [hswept.rest q hq] at hgone
      exact hthere hgone
  · have hagain : ∀ r : Reader, r.Current c.disk →
        (run ⟨Template.marker, endings⟩ r c.disk (bases inputs)).removed = [] ∧
          (run ⟨Template.marker, endings⟩ r c.disk (bases inputs)).disk = c.disk := by
      intro r hr
      have hidle :=
        foldl_sweep_of_found (c := { disk := c.disk, reader := r })
            (hswept.shrunk.wellFormed wf) hr hnone
      exact ⟨hidle.2, hidle.1⟩
    rcases hc' with rfl | rfl
    · exact hagain {} (Reader.current_empty _)
    · exact hagain c.reader hswept.current

/-- A generated file, one made by hand under such a name, and a generated one in a hidden folder. -/
def mixed : Disk :=
  ((Disk.empty.install "out/ABridge.h" "// Auto generated file\n" 0).install "out/BBridge.h"
    "// mine\n" 0).install "out/.old/CBridge.h" "// Auto generated file\n" 0

theorem ofInputs_generated_mixed : ∃ c, ofInputs ["Bridge.h"] mixed ["out"] = c ∧ mixed.WellFormed ∧
    mixed.Named ∧ c.disk.find? ["work", "out", "ABridge.h"] = none ∧
    c.disk.find? ["work", "out", "BBridge.h"] = some (.file "// mine\n" (.second 0)) ∧
    c.disk.find? ["work", "out", ".old", "CBridge.h"] =
      some (.file "// Auto generated file\n" (.second 0)) ∧
    (ofInputs ["Bridge.h"] c.disk ["out"]).disk = c.disk := by
  have wf : mixed.WellFormed := by decide +kernel
  have hnamed : mixed.Named := by decide +kernel
  have hcleaned : ofInputs ["Bridge.h"] mixed ["out"] = ofInputs ["Bridge.h"] mixed ["out"] := rfl
  obtain ⟨hunits, -, hgone, hrest, hagain⟩ := ofInputs_generated wf hnamed hcleaned
  refine ⟨_, rfl, wf, hnamed, ?_, ?_, ?_, (hagain _ (.inl rfl)).2⟩
  · -- the generated file is listed
    have hmarks : (⟨Template.marker, ["Bridge.h"]⟩ : Hallmark).Marks mixed
        (mixed.spelled "out/ABridge.h") :=
      ⟨⟨"// Auto generated file\n", .second 0, by decide +kernel, by decide⟩, "ABridge.h",
        by decide +kernel, by decide⟩
    have hremoved := removed_of_marks wf hnamed (by decide) (by decide) (by decide) hmarks
    exact ((hgone ["work", "out", "ABridge.h"]).1 (List.mem_map.2 ⟨"out/ABridge.h", hremoved.1,
      by decide +kernel⟩)).2
  · rw [hrest ["work", "out", "BBridge.h"]]
    · decide +kernel
    · intro hq
      obtain ⟨p, hp, hplace⟩ := List.mem_map.1 hq
      obtain ⟨b, -, content, stamp, names, name, hstat, hmarker, -⟩ := hunits p hp
      have hfile := (Disk.stat_eq_ok.1 hstat).2
      have hmine : mixed.find? ["work", "out", "BBridge.h"] =
          some (.file "// mine\n" (.second 0)) := by decide +kernel
      rw [hplace, hmine] at hfile
      cases hfile
      exact absurd hmarker (by decide)
  · rw [hrest ["work", "out", ".old", "CBridge.h"]]
    · decide +kernel
    · intro hq
      obtain ⟨p, hp, hplace⟩ := List.mem_map.1 hq
      obtain ⟨b, hb, content, stamp, names, name, -, -, hbelow, hshown, -⟩ := hunits p hp
      have hbases : bases ["out"] = [("out" : Text)] := by decide
      let out : Place := ["work", "out"]
      let hidden : Place := [".old", "CBridge.h"]
      have hout : mixed.spelled "out" = out := by decide +kernel
      rw [hbases, List.mem_singleton] at hb
      rw [hplace, hb, hout] at hbelow
      have hnames : hidden = names :=
        List.append_cancel_left (show out ++ hidden = out ++ names from hbelow)
      rw [← hnames] at hshown
      exact absurd (hshown ".old" (by decide)) (by decide)

end Cleaning
end HeaderBridge
