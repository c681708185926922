import HeaderBridge.Proofs.Disk.Walk
import HeaderBridge.Proofs.Reader.Current

namespace HeaderBridge

namespace Disk

variable {d d' d'' : Disk} {p : Place} {path : Text}

/-- A disk with fewer files, and nothing else changed. -/
structure Shrunk (d d' : Disk) : Prop where
  work : d'.work = d.work
  clock : d'.clock = d.clock
  length : d'.entries.length ≤ d.entries.length
  folder : ∀ {q}, d.find? q = some .folder → d'.find? q = some .folder
  entry : ∀ {q e}, d'.find? q = some e → d.find? q = some e

namespace Shrunk

theorem refl (d : Disk) : Shrunk d d := ⟨rfl, rfl, Nat.le_refl _, id, id⟩

theorem trans (h : Shrunk d d') (h' : Shrunk d' d'') : Shrunk d d'' :=
  ⟨h'.work.trans h.work, h'.clock.trans h.clock, Nat.le_trans h'.length h.length,
    fun hq => h'.folder (h.folder hq), fun hq => h.entry (h'.entry hq)⟩

theorem drop (hp : d.find? p ≠ some .folder) : Shrunk d (d.drop p) := by
  have hne : p ≠ [] := by
    rintro rfl
    exact hp rfl
  refine ⟨rfl, rfl, List.length_filter_le _ _, fun {q} hq => ?_, fun {q e} hq => ?_⟩
  · rw [find?_drop hne, if_neg]
    · exact hq
    · rintro rfl
      exact hp hq
  · rw [find?_drop hne] at hq
    split at hq
    · cases hq
    · exact hq

theorem none (h : Shrunk d d') (hp : d.find? p = Option.none) : d'.find? p = Option.none := by
  by_contra hsome
  obtain ⟨e, he⟩ := Option.ne_none_iff_exists'.1 hsome
  rw [h.entry he] at hp
  cases hp

theorem resolve (h : Shrunk d d') (hp : d.resolve path = .ok p) : d'.resolve path = .ok p :=
  resolve_mono h.work (fun _ => h.folder) hp

theorem wellFormed (h : Shrunk d d') (wf : d.WellFormed) : d'.WellFormed :=
  wf.change h.work (fun _ => h.folder) (fun _ _ hq => .inl (h.entry hq)) fun _ _ _ hq => h.clock ▸
    wf.past (h.entry hq)

theorem named (h : Shrunk d d') (hnamed : d.Named) : d'.Named := by
  intro e he
  obtain ⟨entry, hentry⟩ := exists_find?_of_mem he
  rcases exists_mem_of_find? (h.entry hentry) with hnil | ⟨entry', hmem⟩
  · simp [hnil]
  · exact hnamed (e.1, entry') hmem

theorem not_folder (h : Shrunk d d') (hp : d.find? (d.spelled path) ≠ some .folder) :
    d'.find? (d'.spelled path) ≠ some .folder := by
  rw [spelled_congr h.work]
  exact fun hfolder => hp (h.entry hfolder)

theorem stat (h : Shrunk d d') {e : Entry} (hstat : d'.stat path = .ok e) :
    d.stat path = .ok e := by
  obtain ⟨hresolved, hentry⟩ := stat_eq_ok.1 hstat
  rw [spelled_congr h.work] at hresolved hentry
  exact stat_eq_ok.2 ⟨resolve_mono h.work.symm (fun _ => h.entry) hresolved, h.entry hentry⟩

theorem visits_subset (h : Shrunk d d') {enter : Visit → Bool} {fuel fuel' : Nat}
    (hfuel : fuel' ≤ fuel) (path name : Text) (p : Place) :
    d'.visits enter fuel' path name p ⊆ d.visits enter fuel path name p := by
  induction fuel' generalizing fuel path name p with
  | zero => exact List.nil_subset _
  | succ fuel' ih =>
    obtain ⟨fuel, rfl⟩ := Nat.exists_eq_add_of_le' (Nat.le_trans (Nat.le_add_left 1 fuel') hfuel)
    rw [visits, visits]
    cases hp : d'.find? p with
    | none => exact List.nil_subset _
    | some e =>
      rw [h.entry hp]
      cases e with
      | file content stamp => exact List.Subset.refl _
      | folder =>
        dsimp only
        split
        · refine List.cons_subset_cons _ fun v hv => ?_
          obtain ⟨n, hn, hv⟩ := List.mem_flatMap.1 hv
          have hname : n ∈ d.names p := by
            obtain ⟨e, he⟩ := mem_names.1 hn
            obtain ⟨entry, hentry⟩ := exists_find?_of_mem he
            rcases exists_mem_of_find? (h.entry hentry) with hnil | hmem
            · simp at hnil
            · exact mem_names.2 hmem
          exact List.mem_flatMap.2 ⟨n, hname, ih (Nat.le_of_succ_le_succ hfuel) _ _ _ hv⟩
        · exact List.nil_subset _

theorem walk (h : Shrunk d d') {enter : Visit → Bool} {root : Text} {vs : List Visit}
    (hwalk : d'.walk enter root = .ok vs) : ∃ vs', d.walk enter root = .ok vs' ∧ vs ⊆ vs' := by
  rcases walk_cases d' enter root with ⟨e, -, hwalk'⟩ | ⟨e, hstat, hwalk'⟩
  · rw [hwalk'] at hwalk
    cases hwalk
  · rw [hwalk'] at hwalk
    cases hwalk
    rcases walk_cases d enter root with ⟨e', hstat', -⟩ | ⟨e', -, hwalk⟩
    · rw [h.stat hstat] at hstat'
      cases hstat'
    · rw [spelled_congr h.work]
      exact ⟨_, hwalk, h.visits_subset (Nat.add_le_add_right h.length 2) _ _ _⟩

end Shrunk
end Disk
end HeaderBridge
