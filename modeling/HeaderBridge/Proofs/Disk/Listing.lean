import HeaderBridge.Proofs.Disk.Walk

namespace HeaderBridge

namespace Disk

variable {d : Disk} {path n : Text} {p : Place}

theorem list_eq_ok {ns : List Text} :
    d.list path = .ok ns ↔ d.stat path = .ok .folder ∧ ns = d.names (d.spelled path) := by
  cases hr : d.resolve path with
  | error failure => simp [list, stat, hr, bind, Except.bind]
  | ok q =>
    obtain rfl := eq_spelled_of_resolve hr
    rcases hf : d.find? (d.spelled path) with _ | ⟨content, stamp⟩ | _
    · simp [list, stat, hr, hf, bind, Except.bind]
    · simp [list, stat, hr, hf, bind, Except.bind]
    · simp [list, stat, hr, hf, bind, Except.bind, eq_comm]

theorem mem_names_iff : n ∈ d.names p ↔ ∃ e, d.find? (p ++ [n]) = some e := by
  rw [mem_names]
  constructor
  · rintro ⟨e, hmem⟩
    exact exists_find?_of_mem hmem
  · rintro ⟨e, he⟩
    rcases exists_mem_of_find? he with hnil | hmem
    · simp at hnil
    · exact hmem

theorem Named.isName (named : d.Named) (h : n ∈ d.names p) : Path.IsName n := by
  obtain ⟨e, hmem⟩ := mem_names.1 h
  exact named _ hmem n (by simp)

theorem spelled_append (hpath : path ≠ []) (hn : Path.IsName n) :
    d.spelled (path ++ ('/' : UInt8) :: n) = d.spelled path ++ [n] := by
  rw [← spelled_clean, ← Path.join_name hpath hn, spelled_join hpath hn]

theorem steps_append (path : Text) (hn : Path.IsName n) :
    steps (path ++ ('/' : UInt8) :: n) = (Text.splitAt '/' path).filter (!·.isEmpty) ++ [n] := by
  -- no slash stands at the end, so that no folder is asked for
  have hlast : (path ++ ('/' : UInt8) :: n).getLast? = n.getLast? := by
    rw [List.getLast?_append, List.getLast?_cons_of_ne_nil hn.ne_nil,
      List.getLast?_eq_some_getLast hn.ne_nil, Option.some_or]
  have hslash : n.getLast? ≠ some ('/' : UInt8) := fun h => hn.not_mem (List.mem_of_getLast? h)
  have hcut : (Text.splitAt '/' (path ++ ('/' : UInt8) :: n)).filter (!·.isEmpty) =
      (Text.splitAt '/' path).filter (!·.isEmpty) ++ [n] := by
    rw [Text.splitAt_append, Text.splitAt_of_not_mem hn.not_mem, List.filter_append]
    simp [hn.ne_nil]
  unfold steps
  dsimp only
  rw [hcut, hlast, if_neg]
  simp [hslash]

section Folder

variable (hfolder : d.stat path = .ok .folder)

include hfolder

theorem ne_nil_of_stat : path ≠ [] := by
  rintro rfl
  cases hfolder

theorem resolve_append (hn : Path.IsName n) :
    d.resolve (path ++ ('/' : UInt8) :: n) = .ok (d.spelled path ++ [n]) := by
  have hpath := ne_nil_of_stat hfolder
  obtain ⟨hresolve, hentry⟩ := stat_eq_ok.1 hfolder
  have hadvance : ∀ q : Place, advance q n = q ++ [n] :=
    fun q => by rw [advance_part hn.toIsPart, Path.turn_name hn]
  rw [resolve, if_neg (by simpa using hpath)] at hresolve
  rw [resolve, if_neg (by simp), Path.isRooted_append hpath, steps_append path hn, follow_concat]
  unfold steps at hresolve
  dsimp only at hresolve
  rw [apply_ite (d.follow _)] at hresolve
  split at hresolve
  · -- the slash at the end of the path asks for the folder once more
    obtain ⟨q, hfollow, -, hq⟩ := follow_concat.1 hresolve
    obtain rfl : d.spelled path = q := by simpa [advance] using hq
    exact ⟨_, hfollow, fun _ => hentry, (hadvance _).symm⟩
  · exact ⟨_, hresolve, fun _ => hentry, (hadvance _).symm⟩

theorem isFolder_append (hn : Path.IsName n) :
    d.isFolder (path ++ ('/' : UInt8) :: n) = true ↔
    d.find? (d.spelled path ++ [n]) = some .folder := by
  rw [isFolder, stat, resolve_append hfolder hn]
  simp only [bind, Except.bind]
  rcases d.find? (d.spelled path ++ [n]) with _ | ⟨content, stamp⟩ | _ <;> simp [Entry.isFolder]

theorem stat_join (wf : d.WellFormed) (hn : Path.IsName n) : d.stat (Path.join [path, n]) =
    match d.find? (d.spelled path ++ [n]) with
    | some e => .ok e
    | none => .error .notFound := by
  have hpath := ne_nil_of_stat hfolder
  have hresolve : d.resolve (Path.join [path, n]) = .ok (d.spelled path ++ [n]) := by
    rw [Path.join_name hpath hn, resolve_clean wf]
    · rw [spelled_append hpath hn]
    · rw [spelled_append hpath hn, List.dropLast_concat]
      exact (stat_eq_ok.1 hfolder).2
  rw [stat, hresolve]
  rfl

end Folder
end Disk
end HeaderBridge
