import HeaderBridge.Proofs.Disk.Follow

namespace HeaderBridge.Disk

variable {d d' d'' : Disk} {p q : Place}

/-- A disk with further folders, and nothing else changed. -/
structure Grown (d d' : Disk) : Prop where
  work : d'.work = d.work
  clock : d'.clock = d.clock
  find? : ∀ q, d'.find? q = d.find? q ∨ d.find? q = none ∧ d'.find? q = some .folder

namespace Grown

theorem refl (d : Disk) : Grown d d := ⟨rfl, rfl, fun _ => .inl rfl⟩

theorem trans (h : Grown d d') (h' : Grown d' d'') : Grown d d'' := by
  refine ⟨h'.work.trans h.work, h'.clock.trans h.clock, fun q => ?_⟩
  rcases h'.find? q with hq' | ⟨hnone, hq'⟩
  · rw [hq']
    exact h.find? q
  · rcases h.find? q with hq | ⟨_, hq⟩
    · exact .inr ⟨hq ▸ hnone, hq'⟩
    · rw [hq] at hnone
      cases hnone

theorem folder (h : Grown d d') (hq : d.find? q = some .folder) : d'.find? q = some .folder := by
  rcases h.find? q with h | h
  · rw [h, hq]
  · exact h.2

theorem file_iff (h : Grown d d') {content : Text} {stamp : Stamp} :
    d'.find? q = some (.file content stamp) ↔ d.find? q = some (.file content stamp) := by
  rcases h.find? q with h | ⟨hnone, hfolder⟩
  · rw [h]
  · simp [hnone, hfolder]

theorem resolve (h : Grown d d') {path : Text} (hp : d.resolve path = .ok p) :
    d'.resolve path = .ok p :=
  resolve_mono h.work (fun _ => h.folder) hp

theorem put (hp : d.find? p = none) : Grown d (d.put p .folder) := by
  refine ⟨rfl, rfl, fun q => ?_⟩
  rw [find?_put (ne_nil_of_find?_eq_none hp)]
  split
  · rename_i hq
    exact .inr ⟨hq ▸ hp, rfl⟩
  · exact .inl rfl

end Grown

theorem filter_splitAt_slashes (n : Nat) (t : Text) :
    (Text.splitAt '/' (t ++ List.replicate n ('/' : UInt8))).filter (!·.isEmpty) =
      (Text.splitAt '/' t).filter (!·.isEmpty) := by
  induction n with
  | zero => simp
  | succ n ih =>
    rw [List.replicate_succ', ← List.append_assoc, Text.splitAt_append, List.filter_append, ih]
    exact List.append_nil _

theorem steps_dropTrailing (path : Text) :
    steps path = steps ((Text.dropTrailing '/' path).orElse path) ∨
      steps path = steps ((Text.dropTrailing '/' path).orElse path) ++ [Path.here] := by
  unfold Text.orElse
  split
  · exact .inl rfl
  · rename_i hne
    obtain ⟨n, hn⟩ := Text.dropTrailing_append '/' path
    have hlast : (Text.dropTrailing '/' path).getLast? ≠ some ('/' : UInt8) := by
      intro h
      rw [Text.dropTrailing, List.getLast?_reverse] at h
      have hhead := List.head?_dropWhile_not (· == ('/' : UInt8)) path.reverse
      rw [h] at hhead
      simp at hhead
    have hcut : (Text.splitAt '/' path).filter (!·.isEmpty) =
        (Text.splitAt '/' (Text.dropTrailing '/' path)).filter (!·.isEmpty) := by
      have hslashes := filter_splitAt_slashes n (Text.dropTrailing '/' path)
      rwa [← hn] at hslashes
    have htrimmed : steps (Text.dropTrailing '/' path) =
        (Text.splitAt '/' (Text.dropTrailing '/' path)).filter (!·.isEmpty) := by
      unfold steps
      dsimp only
      rw [if_neg]
      simp [hlast]
    rw [htrimmed]
    unfold steps
    dsimp only
    rw [hcut]
    split
    · exact .inr rfl
    · exact .inl rfl

theorem resolve_of_dropTrailing {path : Text}
    (h : d.resolve ((Text.dropTrailing '/' path).orElse path) = .ok q)
    (hq : d.find? q = some .folder) : d.resolve path = .ok q := by
  unfold resolve at h ⊢
  rw [Path.isRooted_dropTrailing] at h
  split at h
  · cases h
  · rename_i hne
    have hpath : path.isEmpty = false := by
      cases path with
      | nil => exact absurd rfl hne
      | cons => rfl
    rw [if_neg (by simp [hpath])]
    rcases steps_dropTrailing path with hsteps | hsteps
    · rwa [hsteps]
    · rw [hsteps]
      exact follow_concat.2 ⟨q, h, fun _ => hq, by simp [advance]⟩

theorem makeFolder_ok (wf : d.WellFormed) {path : Text} (h : d.makeFolder path = .ok d') :
    d'.WellFormed ∧ Grown d d' ∧ d'.stat path = .ok .folder := by
  cases hr : d.resolve ((Text.dropTrailing '/' path).orElse path) with
  | error e => simp [makeFolder, hr, bind, Except.bind] at h
  | ok p =>
    cases hp : d.find? p with
    | some e => simp [makeFolder, hr, hp, bind, Except.bind] at h
    | none =>
      obtain rfl : d.put p .folder = d' := by simpa [makeFolder, hr, hp, bind, Except.bind] using h
      have hgrown := Grown.put hp
      have hfolder : (d.put p .folder).find? p = some .folder := by
        rw [find?_put (ne_nil_of_find?_eq_none hp), if_pos rfl]
      refine ⟨wf.put (by simp [hp]) (resolve_parent wf hr) (by simp), hgrown, ?_⟩
      have hplace := resolve_of_dropTrailing (hgrown.resolve hr) hfolder
      have heq := eq_spelled_of_resolve hplace
      exact stat_eq_ok.2 ⟨hplace.trans (congrArg _ heq), (congrArg _ heq.symm).trans hfolder⟩

theorem makeFolders_grown (wf : d.WellFormed) {fuel : Nat} {path : Text}
    {failure : Option (Text × DiskError)} (h : d.makeFolders fuel path = (failure, d')) :
    d'.WellFormed ∧ Grown d d' ∧ (failure = none → d'.stat path = .ok .folder) := by
  induction fuel generalizing path failure d' with
  | zero =>
    cases h
    exact ⟨wf, .refl d, by simp⟩
  | succ fuel ih =>
    rw [makeFolders] at h
    split at h
    · rename_i hfolder
      cases h
      exact ⟨wf, .refl d, fun _ => hfolder⟩
    · cases h
      exact ⟨wf, .refl d, by simp⟩
    · -- the folders above come first
      have habove : ∀ {above d''}, (if (parentText path).isEmpty then (none, d)
          else d.makeFolders fuel (parentText path)) = (above, d'') → d''.WellFormed ∧
              Grown d d'' := by
        intro above d'' habove
        split at habove
        · cases habove
          exact ⟨wf, .refl d⟩
        · exact (ih habove).imp_right And.left
      dsimp only at h
      split at h
      · rename_i habove'
        cases h
        obtain ⟨hwf, hgrown⟩ := habove habove'
        exact ⟨hwf, hgrown, by simp⟩
      · rename_i d'' habove'
        obtain ⟨hwf, hgrown⟩ := habove habove'
        split at h
        · rename_i hmade
          cases h
          obtain ⟨hwf', hgrown', hstat⟩ := makeFolder_ok hwf hmade
          exact ⟨hwf', hgrown.trans hgrown', fun _ => hstat⟩
        · rename_i e he
          cases h
          refine ⟨hwf, hgrown, fun hnone => ?_⟩
          have hisFolder : d'.isFolder path = true := by
            by_contra hfalse
            simp [hfalse] at hnone
          unfold isFolder at hisFolder
          split at hisFolder
          · rename_i entry hstat
            cases entry with
            | file content stamp => cases hisFolder
            | folder => exact hstat
          · cases hisFolder

theorem makeFolders_of_folder {path : Text} (h : d.stat path = .ok .folder) (fuel : Nat) :
    d.makeFolders (fuel + 1) path = (none, d) := by
  rw [makeFolders, h]

end HeaderBridge.Disk
