import HeaderBridge.Scan
import Mathlib.Data.List.Sort

namespace HeaderBridge

theorem nodup_eraseDups {α : Type} [BEq α] [LawfulBEq α] (as : List α) : as.eraseDups.Nodup := by
  generalize hn : as.length = n
  induction n using Nat.strong_induction_on generalizing as with
  | _ n ih =>
    subst hn
    cases as with
    | nil => exact .nil
    | cons a as =>
      have hshorter := Nat.lt_succ_of_le (List.length_filter_le (fun b => !b == a) as)
      rw [List.eraseDups_cons, List.nodup_cons, List.mem_eraseDups]
      exact ⟨by simp, ih _ hshorter _ rfl⟩

namespace Text

/-- Texts that are all different stand in strict order when they are sorted. -/
theorem pairwise_sort {ts : List Text} (h : ts.Nodup) : (sort ts).Pairwise (· < ·) := by
  have hle : (sort ts).Pairwise fun a b => le a b = true := by
    apply List.pairwise_mergeSort
    · intro a b c hab hbc
      simp only [le, decide_eq_true_eq] at hab hbc ⊢
      exact List.le_trans hab hbc
    · intro a b
      simp only [le, Bool.or_eq_true, decide_eq_true_eq]
      exact List.le_total a b
  have hne : (sort ts).Nodup := (List.mergeSort_perm ts _).nodup_iff.2 h
  refine hle.imp₂ (fun a b hab hne => ?_) hne
  simp only [le, decide_eq_true_eq] at hab
  exact Std.lt_of_le_of_ne hab hne

end Text

namespace Scanner

variable {hs hs' : List Header} {h : Header} {path : Text}

theorem merge_nil : merge [] = [] := by simp [merge, Text.sort]

theorem mem_merge : h ∈ merge hs ↔
    (∃ h' ∈ hs, h'.path = h.path) ∧
    (h.explicit = true ↔ ∃ h' ∈ hs, h'.path = h.path ∧ h'.explicit = true) := by
  obtain ⟨p, explicit⟩ := h
  simp only [merge, List.mem_map, Text.mem_sort, List.mem_eraseDups, Header.mk.injEq]
  constructor
  · rintro ⟨_, hpath, rfl, rfl⟩
    exact ⟨hpath, by simp [List.any_eq_true]⟩
  · rintro ⟨hpath, hexplicit⟩
    refine ⟨p, hpath, rfl, Bool.eq_iff_iff.2 ?_⟩
    rw [hexplicit]
    simp [List.any_eq_true]

theorem exists_mem_merge : (∃ h ∈ merge hs, h.path = path) ↔ ∃ h ∈ hs, h.path = path := by
  constructor
  · rintro ⟨h, hmem, rfl⟩
    exact (mem_merge.1 hmem).1
  · rintro ⟨h, hmem, rfl⟩
    have hlisted : h.path ∈ Text.sort (hs.map (·.path)).eraseDups := by
      rw [Text.mem_sort, List.mem_eraseDups]
      exact List.mem_map_of_mem hmem
    exact ⟨_, List.mem_map_of_mem hlisted, rfl⟩

theorem pairwise_merge (hs : List Header) : ((merge hs).map (·.path)).Pairwise (· < ·) := by
  have hpaths : (merge hs).map (·.path) = Text.sort (hs.map (·.path)).eraseDups := by
    rw [merge, List.map_map]
    exact List.map_id _
  rw [hpaths]
  exact Text.pairwise_sort (nodup_eraseDups _)

theorem merge_of_pairwise (h : (hs.map (·.path)).Pairwise (· < ·)) : merge hs = hs := by
  have hsorted : Text.sort (hs.map (·.path)).eraseDups = hs.map (·.path) := by
    apply (Text.pairwise_sort (nodup_eraseDups _)).eq_of_mem_iff h
    intro p
    rw [Text.mem_sort, List.mem_eraseDups]
  rw [merge, hsorted, List.map_map]
  refine (List.map_congr_left fun header hmem => ?_).trans (List.map_id hs)
  obtain ⟨p, explicit⟩ := header
  -- a path has one header, so that one tells whether it was named
  have hone : ∀ other ∈ hs, other.path = p → other = ⟨p, explicit⟩ := fun other hother hpath =>
    List.inj_on_of_nodup_map h.nodup hother hmem hpath
  refine congrArg (Header.mk p) (Bool.eq_iff_iff.2 ?_)
  simp only [List.any_eq_true, Bool.and_eq_true, beq_iff_eq]
  constructor
  · rintro ⟨other, hother, hpath, hexplicit⟩
    rwa [hone other hother hpath] at hexplicit
  · exact fun hexplicit => ⟨_, hmem, rfl, hexplicit⟩

/-- What is merged does not depend on the order of the headers, nor on how often each comes. -/
theorem merge_congr (h : ∀ header, header ∈ hs' ↔ header ∈ hs) : merge hs' = merge hs := by
  have hpaths : Text.sort (hs'.map (·.path)).eraseDups = Text.sort (hs.map (·.path)).eraseDups := by
    apply (Text.pairwise_sort (nodup_eraseDups _)).eq_of_mem_iff
      (Text.pairwise_sort (nodup_eraseDups _))
    intro p
    simp only [Text.mem_sort, List.mem_eraseDups, List.mem_map, h]
  have hexplicit : ∀ p, (hs'.any fun h => h.path == p && h.explicit) =
      hs.any fun h => h.path == p && h.explicit := by
    intro p
    rw [Bool.eq_iff_iff]
    simp only [List.any_eq_true, h]
  simp only [merge, hpaths, hexplicit]

end Scanner
end HeaderBridge
