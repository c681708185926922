import HeaderBridge.Proofs.Batch.Build
import HeaderBridge.Proofs.Disk.Walk
import HeaderBridge.Proofs.Scan.Merge

namespace HeaderBridge

variable {d : Disk} {r : Reader} {path name : Text}

namespace Hallmark

/-- Whether the disk tells a file under a name for a generated one. -/
def isBorne (k : Hallmark) (d : Disk) (path name : Text) : Bool :=
  k.fits name && (Reader.plain d path).toOption.any k.marker.isPrefixOf

theorem isBorne_eq_true {k : Hallmark} : k.isBorne d path name = true ↔
    k.fits name = true ∧ ∃ content, Reader.plain d path = .ok content ∧ k.marker <+: content := by
  rw [isBorne, Bool.and_eq_true]
  cases Reader.plain d path <;> simp [Except.toOption]

theorem bears_of_current (wf : d.WellFormed) (hr : r.Current d) (k : Hallmark) (path name : Text) :
    (k.bears r d path name).1 = k.isBorne d path name ∧ (k.bears r d path name).2.Current d := by
  obtain ⟨hplain, hcurrent⟩ := Reader.read_of_current wf hr path
  unfold bears isBorne
  rw [← hplain]
  cases k.fits name with
  | false => exact ⟨rfl, hr⟩
  | true =>
    rw [if_pos rfl]
    generalize r.read d path = result at hcurrent
    obtain ⟨f | content, r'⟩ := result
    · exact ⟨rfl, hcurrent⟩
    · exact ⟨by simp [Except.toOption], hcurrent⟩

theorem select_of_current (wf : d.WellFormed) (hr : r.Current d) (k : Hallmark) (wanted : Bool)
    (vs : List Disk.Visit) :
    (k.select wanted d vs r).1 = vs.filter fun v => k.isBorne d v.path v.name == wanted := by
  rw [k.select_of_alike (.refl d r)]
  simp only [(bears_of_current wf hr k _ _).1]

/-- What stands at a place is a file that bears the mark. -/
structure Marks (k : Hallmark) (d : Disk) (place : Place) : Prop where
  content : ∃ content stamp, d.find? place = some (.file content stamp) ∧ k.marker <+: content
  name : ∃ name, place.getLast? = some name ∧ k.fits name = true

theorem isBorne_of_marks (wf : d.WellFormed) {k : Hallmark} (hmarks : k.Marks d (d.spelled path))
    (hpath : path ≠ []) (htraversal : Reader.isTraversal (Path.clean path) = false)
    (hname : (d.spelled path).getLast? = some name) : k.isBorne d path name = true := by
  obtain ⟨⟨content, stamp, hfile, hmarker⟩, own, hown, hfits⟩ := hmarks
  obtain rfl : name = own := Option.some.inj (hname.symm.trans hown)
  have hstat : d.stat (Path.clean path) = .ok (.file content stamp) := (Disk.stat_clean wf).2 hfile
  exact isBorne_eq_true.2 ⟨hfits, content, Reader.plain_eq_ok.2 ⟨hpath, htraversal, stamp, hstat⟩,
    hmarker⟩

end Hallmark

namespace Scanner

/-- A header that is spelled in a way that can be read, and stands at the place. -/
def LeadsTo (d : Disk) (place : Place) (h : Header) : Prop :=
  Reader.isTraversal h.path = false ∧ d.spelled h.path = place

variable {s : Scanner} {k : Hallmark} {place : Place}

section Current

variable (wf : d.WellFormed) (hr : r.Current d) (hs : s.hallmark = some k)
    (hmarks : k.Marks d place)

include wf hr hs hmarks

/-- What is left of files that were met under their own names does not lead to a marked one. -/
theorem not_leadsTo_of_ungenerated {vs : List Disk.Visit}
    (hvs : ∀ v ∈ vs, v.path ≠ [] ∧ (d.spelled v.path).getLast? = some v.name) :
    ∀ v ∈ (s.ungenerated d vs r).1, ¬ LeadsTo d place ⟨Path.clean v.path, false⟩ := by
  rintro v hv ⟨htraversal, hplace⟩
  simp only [ungenerated, hs] at hv
  rw [Hallmark.select_of_current wf hr, List.mem_filter, beq_iff_eq] at hv
  obtain ⟨hpath, hname⟩ := hvs v hv.1
  rw [Disk.spelled_clean] at hplace
  have hborne := Hallmark.isBorne_of_marks wf (hplace ▸ hmarks) hpath htraversal hname
  rw [hborne] at hv
  cases hv.2

theorem not_leadsTo_of_folder (hnamed : d.Named) {recursive : Bool} {root : Text} {hs : List Header}
    (h : (s.folder r d recursive root).1 = .ok hs) : ∀ header ∈ hs, ¬ LeadsTo d place header := by
  unfold folder at h
  dsimp only at h
  split at h
  · cases h
  · rename_i vs hfiles
    cases h
    intro header hheader
    obtain ⟨v, hv, rfl⟩ := List.mem_map.1 hheader
    refine not_leadsTo_of_ungenerated wf hr ‹_› hmarks (fun v hv => ?_) v hv
    unfold Walk.files at hfiles
    split at hfiles
    · rename_i met hwalk
      cases hfiles
      obtain ⟨hmet, hfile⟩ := List.mem_filter.1 (List.mem_filter.1 hv).1
      obtain ⟨hpath, -, hname⟩ := Disk.file_of_walk wf hnamed hwalk hmet (by simpa using hfile)
      exact ⟨hpath, hname⟩
    · cases hfiles

theorem not_leadsTo_of_pattern {p : Text} {hs : List Header} (h : (s.pattern r d p).1 = .ok hs) :
    ∀ header ∈ hs, ¬ LeadsTo d place header := by
  unfold pattern at h
  dsimp only at h
  split at h
  · cases h
  · cases h
    intro header hheader
    obtain ⟨v, hv, rfl⟩ := List.mem_map.1 hheader
    refine not_leadsTo_of_ungenerated wf hr ‹_› hmarks (fun v hv => ?_) v hv
    obtain ⟨path, hpath, rfl⟩ := List.mem_map.1 hv
    rw [List.mem_filter, Bool.and_eq_true] at hpath
    obtain ⟨-, hfile, -⟩ := hpath
    split at hfile
    · rename_i content stamp hstat
      obtain ⟨hresolved, hentry⟩ := Disk.stat_eq_ok.1 hstat
      refine ⟨?_, Disk.base_of_resolve wf hresolved (by rw [hentry]; simp)⟩
      rintro rfl
      cases hresolved
    · cases hfile

theorem not_leadsTo_of_resolve (hnamed : d.Named) {i : Input}
    (hi : ∀ path, i = .path path → d.spelled path ≠ place) {hs : List Header}
    (h : (s.resolve r d i).1 = .ok hs) :
    ∀ header ∈ hs, ¬ LeadsTo d place header := by
  cases i with
  | tree root => exact not_leadsTo_of_folder wf hr ‹_› hmarks hnamed h
  | pattern p => exact not_leadsTo_of_pattern wf hr ‹_› hmarks h
  | path path =>
    rcases hstat : d.stat path with e | ⟨content, stamp⟩ | _ <;> simp only [resolve, hstat] at h
    · split at h <;> cases h
    · -- a file that is named is taken whether it is generated or not
      cases h
      intro header hheader
      rw [List.mem_singleton.1 hheader]
      rintro ⟨-, hplace⟩
      rw [Disk.spelled_clean] at hplace
      exact hi path rfl hplace
    · exact not_leadsTo_of_folder wf hr ‹_› hmarks hnamed h

end Current

theorem not_leadsTo_of_gather (wf : d.WellFormed) (hr : r.Current d) (hs : s.hallmark = some k)
    (hmarks : k.Marks d place) (hnamed : d.Named) {inputs : List Input}
    (hi : ∀ i ∈ inputs, ∀ path, i = .path path → d.spelled path ≠ place) :
    ∀ header ∈ (s.gather d inputs r).1.1, ¬ LeadsTo d place header := by
  induction inputs generalizing r with
  | nil => simp [gather]
  | cons i is ih =>
    intro header hheader
    have hcurrent := (s.transparent_resolve (Reader.Transparent.read wf) i).kept hr
    have hrest : ∀ i ∈ is, ∀ path, i = .path path → d.spelled path ≠ place :=
      fun i hmem => hi i (List.mem_cons_of_mem _ hmem)
    rw [gather] at hheader
    split at hheader
    · -- what was read for one input does not mislead the next
      rename_i found r' hresolved
      rw [hresolved] at hcurrent
      rcases List.mem_append.1 hheader with hheader | hheader
      · have hfound : (s.resolve r d i).1 = .ok found := congrArg Prod.fst hresolved
        exact not_leadsTo_of_resolve wf hr hs hmarks hnamed (hi i List.mem_cons_self) hfound
          header hheader
      · exact ih hcurrent hrest header hheader
    · rename_i f r' hresolved
      rw [hresolved] at hcurrent
      exact ih hcurrent hrest header hheader

theorem not_leadsTo_of_scan (wf : d.WellFormed) (hr : r.Current d) (hs : s.hallmark = some k)
    (hmarks : k.Marks d place) (hnamed : d.Named) {inputs : List Text}
    (hi : ∀ t ∈ inputs, ∀ path, Input.ofText t = .path path → d.spelled path ≠ place) :
    ∀ header ∈ (s.scan r d inputs).1.1, ¬ LeadsTo d place header := by
  intro header hheader hleads
  obtain ⟨found, hfound, hpath⟩ := exists_mem_merge.1 ⟨header, hheader, rfl⟩
  rw [LeadsTo, ← hpath] at hleads
  refine not_leadsTo_of_gather wf hr hs hmarks hnamed (fun i hmem => ?_) found hfound hleads
  obtain ⟨t, ht, rfl⟩ := List.mem_map.1 hmem
  exact hi t ht

end Scanner
end HeaderBridge
