import HeaderBridge.Proofs.Interface.Views

namespace HeaderBridge

/-- What a reader by index comes to: nothing, if an index or a slice is out of range or a loop gets
nowhere. -/
abbrev Checked (α : Type) : Type := Option α

namespace Checked

variable {α : Type}

theorem some_bind {β : Type} (a : α) (f : α → Checked β) : ((some a : Checked α) >>= f) = f a := rfl

theorem mapM_eq_map {β : Type} {f : α → Checked β} {g : α → β} {xs : List α}
    (h : ∀ x ∈ xs, f x = some (g x)) : xs.mapM f = some (xs.map g) := by
  induction xs with
  | nil => rfl
  | cons x xs ih =>
    rw [List.mapM_cons, h x List.mem_cons_self, some_bind,
      ih fun y hy => h y (List.mem_cons_of_mem x hy), some_bind]
    rfl

def at? (xs : List α) (i : Int) : Checked α := if 0 ≤ i then xs[i.toNat]? else none

def before? (xs : List α) (i : Nat) : Checked (Option α) := do
  if 0 < i then
    let x ← at? xs ((i : Int) - 1)
    return some x
  else return none

/-- The elements from index `first` up to index `last`, the last one left out. -/
def slice? (xs : List α) (first last : Int) : Checked (List α) :=
  if 0 ≤ first ∧ first ≤ last ∧ last ≤ xs.length then
    some ((xs.drop first.toNat).take (last.toNat - first.toNat))
  else none

def set? (xs : List α) (i : Int) (x : α) : Checked (List α) :=
  if 0 ≤ i ∧ i < xs.length then some (xs.set i.toNat x) else none

/-- A loop that jumps goes on only if that brings it nearer to its end. -/
def nearer? (m n : Nat) : Checked (PLift (m < n)) := if h : m < n then some ⟨h⟩ else none

theorem nearer?_of_lt {m n : Nat} (h : m < n) : nearer? m n = some ⟨h⟩ := dif_pos h

theorem slice?_of_le {xs : List α} {first last : Nat} (h : first ≤ last)
    (hlast : last ≤ xs.length) :
    slice? xs first last = some ((xs.drop first).take (last - first)) := by
  rw [slice?, if_pos ⟨by omega, by omega, by omega⟩, Int.toNat_natCast, Int.toNat_natCast]

/-- An index stands between the elements it has passed and those that lie ahead. -/
structure Cursor (xs passed ahead : List α) (i : Nat) : Prop where
  split : xs = passed ++ ahead
  index : i = passed.length

namespace Cursor

variable {xs passed ahead : List α} {i : Nat}

theorem start (xs : List α) : Cursor xs [] xs 0 := ⟨rfl, rfl⟩

theorem ofIndex {xs : List α} {i : Nat} (hi : i ≤ xs.length) :
    Cursor xs (xs.take i) (xs.drop i) i := by
  refine ⟨(List.take_append_drop i xs).symm, ?_⟩
  rw [List.length_take, Nat.min_eq_left hi]

theorem ofSuffix {xs ahead : List α} (h : ahead <:+ xs) :
    ∃ passed, Cursor xs passed ahead (xs.length - ahead.length) := by
  obtain ⟨passed, rfl⟩ := h
  refine ⟨passed, rfl, ?_⟩
  rw [List.length_append, Nat.add_sub_cancel]

theorem at? {x : α} (h : Cursor xs passed (x :: ahead) i) : Checked.at? xs i = some x := by
  rw [h.split, h.index, Checked.at?, if_pos (Int.natCast_nonneg _), Int.toNat_natCast,
    List.getElem?_append_right (Nat.le_refl _), Nat.sub_self]
  rfl

theorem set? {x : α} (h : Cursor xs passed (x :: ahead) i) (y : α) :
    Checked.set? xs i y = some (passed ++ y :: ahead) := by
  rw [h.split, h.index, Checked.set?, if_pos, Int.toNat_natCast,
    List.set_append_right _ _ (Nat.le_refl _), Nat.sub_self]
  · rfl
  · rw [List.length_append, List.length_cons]
    omega

theorem lt {x : α} (h : Cursor xs passed (x :: ahead) i) : i < xs.length := by
  rw [h.split, h.index, List.length_append, List.length_cons]
  omega

theorem not_lt (h : Cursor xs passed [] i) : ¬ i < xs.length := by
  rw [h.split, h.index, List.append_nil]
  exact Nat.lt_irrefl _

theorem index_eq (h : Cursor xs passed ahead i) : xs.length - ahead.length = i := by
  rw [h.split, h.index, List.length_append, Nat.add_sub_cancel]

theorem skip {mid : List α} (h : Cursor xs passed (mid ++ ahead) i) :
    Cursor xs (passed ++ mid) ahead (i + mid.length) := by
  refine ⟨?_, ?_⟩
  · rw [h.split, List.append_assoc]
  · rw [h.index, List.length_append]

theorem next {x : α} (h : Cursor xs passed (x :: ahead) i) :
    Cursor xs (passed ++ [x]) ahead (i + 1) := by
  rw [← List.singleton_append] at h
  exact h.skip

theorem slice? {mid : List α} (h : Cursor xs passed (mid ++ ahead) i) {last : Int}
    (hlast : last = i + mid.length) : Checked.slice? xs i last = some mid := by
  have hlen : xs.length = i + (mid.length + ahead.length) := by
    rw [h.split, h.index, List.length_append, List.length_append]
  have hcast : last = ((i + mid.length : Nat) : Int) := by omega
  rw [hcast, slice?_of_le (Nat.le_add_right i mid.length) (by omega), Nat.add_sub_cancel_left,
    h.split, h.index, List.drop_left, List.take_left]

theorem passed_sublist (h : Cursor xs passed ahead i) : passed.Sublist xs := by
  rw [h.split]
  exact List.sublist_append_left passed ahead

theorem ahead_sublist (h : Cursor xs passed ahead i) : ahead.Sublist xs := by
  rw [h.split]
  exact List.sublist_append_right passed ahead

theorem sublist {mid : List α} (h : Cursor xs passed (mid ++ ahead) i) : mid.Sublist xs :=
  (List.sublist_append_left mid ahead).trans h.ahead_sublist

theorem back {x : α} (h : Cursor xs (passed ++ [x]) ahead i) :
    ∃ j, i = j + 1 ∧ Cursor xs passed (x :: ahead) j := by
  refine ⟨passed.length, ?_, ?_, rfl⟩
  · rw [h.index, List.length_append, List.length_singleton]
  · rw [h.split, List.append_assoc, List.singleton_append]

theorem before {x : α} (h : Cursor xs (passed ++ [x]) ahead i) :
    Checked.at? xs (i - 1) = some x := by
  obtain ⟨j, rfl, hj⟩ := h.back
  rw [Int.natCast_add, Int.natCast_one, Int.add_sub_cancel]
  exact hj.at?

theorem before?_eq (h : Cursor xs passed ahead i) : before? xs i = some passed.getLast? := by
  rcases List.eq_nil_or_concat passed with rfl | ⟨init, x, rfl⟩
  · rw [before?, if_neg (by rw [h.index]; exact Nat.lt_irrefl 0)]
    rfl
  · rw [List.concat_eq_append] at h ⊢
    have hi : 0 < i := by
      rw [h.index, List.length_append]
      exact Nat.succ_pos _
    rw [before?, if_pos hi, h.before, List.getLast?_concat]
    rfl

theorem passed_eq (h : Cursor xs passed ahead i) : Checked.slice? xs 0 i = some passed := by
  have hi : i ≤ xs.length := by
    rw [h.split, h.index, List.length_append]
    exact Nat.le_add_right _ _
  have hslice := slice?_of_le (Nat.zero_le i) hi
  rw [Nat.sub_zero, List.drop_zero, h.split, h.index, List.take_left, ← h.split, ← h.index]
    at hslice
  exact hslice

theorem ahead_eq (h : Cursor xs passed ahead i) : Checked.slice? xs i xs.length = some ahead := by
  have hi : i ≤ xs.length := by
    rw [h.split, h.index, List.length_append]
    exact Nat.le_add_right _ _
  rw [slice?_of_le hi (Nat.le_refl _), ← List.length_drop, List.take_length, h.split, h.index,
    List.drop_left]

end Cursor

section Last

variable {xs init : List α} {prev last : α}

theorem at?_last (h : xs = init ++ [last]) : at? xs ((xs.length : Int) - 1) = some last := by
  have hend : Cursor xs (init ++ [last]) [] xs.length := by
    refine ⟨?_, ?_⟩
    · rw [h, List.append_nil]
    · rw [h]
  exact hend.before

theorem slice?_init (h : xs = init ++ [last]) :
    slice? xs 0 ((xs.length : Int) - 1) = some init := by
  have hlast : Cursor xs init [last] init.length := ⟨h, rfl⟩
  have hlen : (xs.length : Int) - 1 = init.length := by
    rw [h, List.length_append, List.length_singleton]
    omega
  rw [hlen]
  exact hlast.passed_eq

theorem at?_prev (h : xs = init ++ [prev] ++ [last]) :
    at? xs ((xs.length : Int) - 2) = some prev := by
  have hlast : Cursor xs (init ++ [prev]) [last] (init ++ [prev]).length := ⟨h, rfl⟩
  have hlen : (xs.length : Int) - 2 = ((init ++ [prev]).length : Int) - 1 := by
    rw [h, List.length_append, List.length_singleton]
    omega
  rw [hlen]
  exact hlast.before

end Last
end Checked
end HeaderBridge
