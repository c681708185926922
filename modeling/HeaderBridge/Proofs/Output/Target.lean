import HeaderBridge.Output
import HeaderBridge.Proofs.Disk.Grown
import Mathlib.Data.List.Nodup
import Mathlib.Data.List.Perm.Subperm

namespace HeaderBridge

theorem Text.ofString_injective : Function.Injective Text.ofString := by
  intro s t h
  have hbytes : s.toList.utf8Encode = t.toList.utf8Encode := congrArg List.toByteArray h
  have hdecoded := congrArg ByteArray.utf8Decode? hbytes
  rw [List.utf8Decode?_utf8Encode, List.utf8Decode?_utf8Encode] at hdecoded
  apply String.toList_injective
  simpa using hdecoded

theorem Text.ofNat_injective : Function.Injective Text.ofNat := by
  intro m n h
  have hstring := Text.ofString_injective h
  rw [Nat.toString_eq_ofList_toDigits, Nat.toString_eq_ofList_toDigits, String.ofList_inj]
    at hstring
  rw [← Nat.ofDigitChars_ten_toDigits (n := m), hstring, Nat.ofDigitChars_ten_toDigits]

namespace Output

variable {d : Disk} {dir : Text} {doc declaration definition : Document}

theorem stagingName_injective (name : Text) : Function.Injective (stagingName name) := by
  intro m n h
  unfold stagingName at h
  apply Text.ofNat_injective
  exact List.append_cancel_left (List.append_cancel_right h)

/-- What is known of a number that is drawn: its staging name is not in the folder yet, as the
staged file is a new one. -/
def Fresh (draw : Draw) : Prop :=
  ∀ (d : Disk) folder name, d.find? (folder ++ [stagingName name (draw d folder name)]) = none

theorem fresh_freshNumber : Fresh freshNumber := by
  intro d folder name
  let place (n : Nat) : Place := folder ++ [stagingName name n]
  let free (n : Nat) : Bool := (d.find? (place n)).isNone
  let numbers := (List.range (d.entries.length + 1)).map (firstNumber + ·)
  have hdistinct : (numbers.map place).Nodup := by
    have hplace : Function.Injective place := by
      intro m n h
      have hlast := List.append_cancel_left h
      exact stagingName_injective name (List.singleton_inj.1 hlast)
    have hnumbers : numbers.Nodup := List.nodup_range.map (fun _ _ h => Nat.add_left_cancel h)
    exact hnumbers.map hplace
  -- there are more numbers than entries that could take their names
  have hexists : ∃ n ∈ numbers, free n = true := by
    by_contra hall
    have htaken : numbers.map place ⊆ d.entries.map Prod.fst := by
      intro p hp
      obtain ⟨n, hn, rfl⟩ := List.mem_map.1 hp
      have hsome : (d.find? (place n)).isSome = true := by
        have hnot : ¬ free n = true := fun h => hall ⟨n, hn, h⟩
        rw [Option.isSome_iff_ne_none]
        simpa [free] using hnot
      rw [Disk.find?_of_ne_nil (by simp [place]), List.lookup_isSome_iff] at hsome
      obtain ⟨e, he, hkey⟩ := hsome
      exact List.mem_map.2 ⟨e, he, (beq_iff_eq.1 hkey).symm⟩
    have hlength := (hdistinct.subperm htaken).length_le
    rw [List.length_map, List.length_map, List.length_map, List.length_range] at hlength
    omega
  obtain ⟨m, hm⟩ := Option.isSome_iff_exists.1 (List.find?_isSome.2 hexists)
  have hfree : free m = true := List.find?_some hm
  have heq : freshNumber d folder name = m := by
    change (numbers.find? free).getD _ = m
    rw [hm, Option.getD_some]
  rw [heq]
  simpa [free, place] using hfree

def target (d : Disk) (dir : Text) (doc : Document) : Place := d.spelled (Path.join [dir, doc.name])

theorem join_eq (hdir : dir ≠ []) (name : Text) :
    Path.join [dir, name] =
      Path.clean (if name = [] then dir else dir ++ ('/' : UInt8) :: name) := by
  by_cases hname : name = []
  · simp [Path.join, hdir, hname, Text.join, List.intercalate]
  · simp [Path.join, hdir, hname, Text.join, List.intercalate, Path.slash_eq]

theorem target_eq (d : Disk) (hdir : dir ≠ []) (doc : Document) :
    target d dir doc = (Path.parts doc.name).foldl Path.turn (d.spelled dir) := by
  rw [target, join_eq hdir, Disk.spelled_clean]
  split
  · rename_i hname
    rw [hname]
    rfl
  · rw [Disk.spelled_eq, Path.parts_append, List.foldl_append, Path.isRooted_append hdir]
    rfl

/-- A name without a slash names an entry of the folder, or a folder that is there already. -/
theorem target_cases (d : Disk) (hdir : dir ≠ []) (hslash : ('/' : UInt8) ∉ doc.name) :
    target d dir doc = d.spelled dir ∨ target d dir doc = (d.spelled dir).dropLast ∨
      Path.IsName doc.name ∧ target d dir doc = d.spelled dir ++ [doc.name] := by
  rw [target_eq d hdir]
  by_cases hpart : Path.IsPart doc.name
  · rw [Path.parts_of_isPart hpart, List.foldl_cons, List.foldl_nil]
    by_cases hup : doc.name = Path.up
    · right; left
      simp [Path.turn, hup]
    · right; right
      exact ⟨⟨hpart, hup⟩, Path.turn_name ⟨hpart, hup⟩ _⟩
  · left
    have hnone : Path.parts doc.name = [] := by
      rw [Path.parts, Text.splitAt_of_not_mem hslash]
      by_cases hname : doc.name = []
      · simp [hname]
      · have hhere : doc.name = Path.here := by
          by_contra hhere
          exact hpart ⟨hname, hhere, hslash⟩
        simp [hhere]
    rw [hnone]
    rfl

section Folder

variable (wf : d.WellFormed) (hdir : dir ≠ []) (hfolder : d.find? (d.spelled dir) = some .folder)

include wf hdir hfolder

theorem target_parent (hslash : ('/' : UInt8) ∉ doc.name) :
    d.find? (target d dir doc).dropLast = some .folder := by
  rcases target_cases d hdir hslash with h | h | ⟨_, h⟩
  · rw [h]
    exact wf.parent hfolder
  · rw [h]
    exact wf.parent (wf.parent hfolder)
  · rw [h, List.dropLast_concat]
    exact hfolder

theorem target_of_not_folder (hslash : ('/' : UInt8) ∉ doc.name)
    (hfree : d.find? (target d dir doc) ≠ some .folder) :
    Path.IsName doc.name ∧ target d dir doc = d.spelled dir ++ [doc.name] := by
  rcases target_cases d hdir hslash with h | h | h
  · rw [h] at hfree
    exact absurd hfolder hfree
  · rw [h] at hfree
    exact absurd (wf.parent hfolder) hfree
  · exact h

theorem resolve_target (hslash : ('/' : UInt8) ∉ doc.name) :
    d.resolve (Path.join [dir, doc.name]) = .ok (target d dir doc) := by
  have hparent := target_parent wf hdir hfolder hslash
  rw [target, join_eq hdir, Disk.spelled_clean] at hparent ⊢
  exact Disk.resolve_clean wf hparent

end Folder

theorem target_congr {d' : Disk} (h : d'.work = d.work) : target d' dir doc = target d dir doc :=
  Disk.spelled_congr h _

end Output
end HeaderBridge
