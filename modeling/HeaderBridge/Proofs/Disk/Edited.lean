import HeaderBridge.Proofs.Disk.Grown

namespace HeaderBridge.Disk

variable {d d' d'' : Disk} {places places' : List Place}

/-- Files may have changed at the given places, and folders may have come up. -/
structure Edited (places : List Place) (d d' : Disk) : Prop where
  work : d'.work = d.work
  clock : d.clock ≤ d'.clock
  folder : ∀ q, d.find? q = some .folder → d'.find? q = some .folder
  rest : ∀ q, q ∉ places → d'.find? q = d.find? q ∨ d.find? q = none ∧ d'.find? q = some .folder
  late : ∀ q content stamp, d'.find? q = some (.file content stamp) →
    d.find? q = some (.file content stamp) ∨ ∃ n, stamp = .moment n ∧ d.clock ≤ n

namespace Edited

theorem refl (places : List Place) (d : Disk) : Edited places d d :=
  ⟨rfl, Nat.le_refl _, fun _ h => h, fun _ _ => .inl rfl, fun _ _ _ h => .inl h⟩

theorem mono (h : Edited places d d') (hsub : places ⊆ places') : Edited places' d d' :=
  ⟨h.work, h.clock, h.folder, fun q hq => h.rest q fun hmem => hq (hsub hmem), h.late⟩

theorem trans (h : Edited places d d') (h' : Edited places d' d'') : Edited places d d'' where
  work := h'.work.trans h.work
  clock := Nat.le_trans h.clock h'.clock
  folder q hq := h'.folder q (h.folder q hq)
  rest q hq := by
    rcases h'.rest q hq with heq | ⟨hnone, hfolder⟩
    · rw [heq]
      exact h.rest q hq
    · rcases h.rest q hq with heq | ⟨_, hfolder'⟩
      · exact .inr ⟨heq ▸ hnone, hfolder⟩
      · rw [hfolder'] at hnone
        cases hnone
  late q content stamp hq := by
    rcases h'.late q content stamp hq with hq | ⟨n, hn, hclock⟩
    · exact h.late q content stamp hq
    · exact .inr ⟨n, hn, Nat.le_trans h.clock hclock⟩

theorem file_iff (h : Edited places d d') {q : Place} (hq : q ∉ places) {content : Text}
    {stamp : Stamp} :
    d'.find? q = some (.file content stamp) ↔ d.find? q = some (.file content stamp) := by
  rcases h.rest q hq with heq | ⟨hnone, hfolder⟩
  · rw [heq]
  · simp [hnone, hfolder]

theorem read (h : Edited places d d') {path content : Text} (hread : d.read path = .ok content)
    (hout : d.spelled path ∉ places) : d'.read path = .ok content := by
  obtain ⟨stamp, hstat⟩ := read_eq_ok.1 hread
  obtain ⟨hresolved, hfile⟩ := stat_eq_ok.1 hstat
  have hresolved' := resolve_mono h.work h.folder hresolved
  rw [← spelled_congr h.work] at hresolved'
  refine read_eq_ok.2 ⟨stamp, stat_eq_ok.2 ⟨hresolved', ?_⟩⟩
  rw [spelled_congr h.work]
  exact (h.file_iff hout).2 hfile

theorem stat_folder (h : Edited places d d') {path : Text} (hstat : d.stat path = .ok .folder) :
    d'.stat path = .ok .folder := by
  obtain ⟨hresolved, hfolder⟩ := stat_eq_ok.1 hstat
  rw [stat_eq_ok, spelled_congr h.work]
  exact ⟨resolve_mono h.work h.folder hresolved, h.folder _ hfolder⟩

end Edited

theorem Grown.edited (h : Grown d d') (places : List Place) : Edited places d d' where
  work := h.work
  clock := Nat.le_of_eq h.clock.symm
  folder _ := h.folder
  rest q _ := h.find? q
  late _ _ _ hq := .inl (h.file_iff.1 hq)

end HeaderBridge.Disk
