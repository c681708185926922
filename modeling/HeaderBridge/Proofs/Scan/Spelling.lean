import HeaderBridge.Proofs.Disk.Enclosing
import HeaderBridge.Proofs.Scan.Merge

namespace HeaderBridge

namespace Scanner

variable {r : Reader} {d : Disk}

theorem clean_of_folder (s : Scanner) {recursive : Bool} {root : Text} {hs : List Header}
    (h : (s.folder r d recursive root).1 = .ok hs) :
    ∀ header ∈ hs, Path.clean header.path = header.path := by
  unfold folder at h
  dsimp only at h
  split at h
  · cases h
  · cases h
    intro header hheader
    obtain ⟨v, -, rfl⟩ := List.mem_map.1 hheader
    exact Path.clean_clean v.path

theorem clean_of_pattern (s : Scanner) {p : Text} {hs : List Header}
    (h : (s.pattern r d p).1 = .ok hs) : ∀ header ∈ hs, Path.clean header.path = header.path := by
  unfold pattern at h
  dsimp only at h
  split at h
  · cases h
  · cases h
    intro header hheader
    obtain ⟨v, -, rfl⟩ := List.mem_map.1 hheader
    exact Path.clean_clean v.path

theorem clean_of_resolve (s : Scanner) {i : Input} {hs : List Header}
    (h : (s.resolve r d i).1 = .ok hs) : ∀ header ∈ hs, Path.clean header.path = header.path := by
  cases i with
  | tree root => exact s.clean_of_folder h
  | pattern p => exact s.clean_of_pattern h
  | path path =>
    rcases hstat : d.stat path with e | ⟨content, stamp⟩ | _ <;> simp only [resolve, hstat] at h
    · split at h <;> cases h
    · cases h
      intro header hheader
      rw [List.mem_singleton.1 hheader]
      exact Path.clean_clean path
    · exact s.clean_of_folder h

theorem clean_of_gather (s : Scanner) (inputs : List Input) :
    ∀ header ∈ (s.gather d inputs r).1.1, Path.clean header.path = header.path := by
  induction inputs generalizing r with
  | nil => simp [gather]
  | cons i is ih =>
    intro header hheader
    rw [gather] at hheader
    split at hheader
    · rename_i hs r' hresolved
      rcases List.mem_append.1 hheader with hheader | hheader
      · exact s.clean_of_resolve (congrArg Prod.fst hresolved) header hheader
      · exact ih header hheader
    · exact ih header hheader

theorem clean_of_scan (s : Scanner) (inputs : List Text) :
    ∀ header ∈ (s.scan r d inputs).1.1, Path.clean header.path = header.path := by
  intro header hheader
  obtain ⟨found, hfound, hpath⟩ := exists_mem_merge.1 ⟨header, hheader, rfl⟩
  rw [← hpath]
  exact s.clean_of_gather _ found hfound

end Scanner

end HeaderBridge
