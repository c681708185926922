import HeaderBridge.Proofs.Batch.Build
import Mathlib.Data.List.ReduceOption

namespace HeaderBridge.Batch

section Each

variable {α β σ : Type} (job : α → σ → β × σ) (items : List α)

/-- Runs the jobs of items one after the other, in a given order. -/
def each : List Nat → List (Option β) → σ → List (Option β) × σ
  | [], slots, s => (slots, s)
  | i :: order, slots, s =>
    match items[i]? with
    | none => each order slots s
    | some a => each order (slots.set i (some (job a s).1)) (job a s).2

/-- The results of all jobs, in order of the items, whatever the order of the jobs. -/
def scheduled (order : List Nat) (s : σ) : List β × σ :=
  let (slots, s) := each job items order (items.map fun _ => none) s
  (slots.reduceOption, s)

/-- The jobs one after the other, in order of the items. -/
def sequential : List α → σ → List β × σ
  | [], s => ([], s)
  | a :: as, s => ((job a s).1 :: (sequential as (job a s).2).1, (sequential as (job a s).2).2)

variable {job items}

theorem each_range' (front rest : List α) (slots : List (Option β))
    (hslots : slots.length = front.length) (s : σ) (hitems : items = front ++ rest) :
    each job items (List.range' front.length rest.length) (slots ++ rest.map fun _ => none) s =
      (slots ++ (sequential job rest s).1.map some, (sequential job rest s).2) := by
  induction rest generalizing front slots s with
  | nil => rfl
  | cons a rest ih =>
    have hitem : items[front.length]? = some a := by simp [hitems]
    have hset : (slots ++ (a :: rest).map fun _ => none).set front.length (some (job a s).1) =
        (slots ++ [some (job a s).1]) ++ rest.map fun _ => none := by
      rw [← hslots, List.set_append_right _ _ (Nat.le_refl _)]
      simp
    have hnext := ih (front ++ [a]) (slots ++ [some (job a s).1]) (by simp [hslots]) (job a s).2
      (by simp [hitems])
    rw [List.length_append, List.length_singleton] at hnext
    rw [List.length_cons, List.range'_succ, each, hitem]
    dsimp only
    rw [hset, hnext]
    simp [sequential]

theorem scheduled_range (s : σ) :
    scheduled job items (List.range items.length) s = sequential job items s := by
  have h := @each_range' _ _ _ job items [] items [] rfl s rfl
  rw [List.nil_append, List.nil_append, List.length_nil, ← List.range_eq_range'] at h
  rw [scheduled, h]
  dsimp only
  rw [List.reduceOption, List.filterMap_map]
  simp

def filled (f : α → β) (items : List α) (done : List Nat) : List (Option β) :=
  items.mapIdx fun i a => if i ∈ done then some (f a) else none

variable {f : α → β}

theorem filled_nil : filled f items [] = items.map fun _ => none := by
  simp [filled, List.mapIdx_eq_zipIdx_map]

theorem filled_set {i : Nat} {a : α} (h : items[i]? = some a) (done : List Nat) :
    (filled f items done).set i (some (f a)) = filled f items (i :: done) := by
  apply List.ext_getElem?
  intro j
  rw [List.getElem?_set, filled, filled, List.getElem?_mapIdx, List.getElem?_mapIdx,
    List.length_mapIdx]
  by_cases hij : i = j
  · obtain ⟨hbound, hitem⟩ := List.getElem?_eq_some_iff.1 h
    subst hij
    simp [hbound, hitem]
  · rw [if_neg hij]
    simp [Ne.symm hij]

theorem filled_all {done : List Nat} (h : ∀ i < items.length, i ∈ done) :
    filled f items done = (items.map f).map some := by
  apply List.ext_getElem?
  intro i
  rw [filled, List.getElem?_mapIdx, List.getElem?_map, List.getElem?_map]
  cases hitem : items[i]? with
  | none => rfl
  | some a => simp [h i (List.getElem?_eq_some_iff.1 hitem).1]

variable {Reached : List Nat → σ → Prop}
  (step : ∀ done i a s, Reached done s → i ∉ done → items[i]? = some a →
    (job a s).1 = f a ∧ Reached (i :: done) (job a s).2)

include step

/-- If what has been done decides what a job finds, and each job then yields what it should, all
jobs do. -/
theorem each_filled {order done : List Nat} {s : σ} (h : Reached done s) (hnodup : order.Nodup)
    (hdisjoint : order.Disjoint done) (hbound : ∀ i ∈ order, i < items.length) :
    ∃ s', each job items order (filled f items done) s =
      (filled f items (order.reverse ++ done), s') ∧ Reached (order.reverse ++ done) s' := by
  induction order generalizing done s with
  | nil => exact ⟨s, rfl, h⟩
  | cons i order ih =>
    obtain ⟨hi, hnodup⟩ := List.nodup_cons.1 hnodup
    obtain ⟨hout, hdisjoint⟩ := List.disjoint_cons_left.1 hdisjoint
    obtain ⟨a, hitem⟩ : ∃ a, items[i]? = some a :=
      ⟨_, List.getElem?_eq_getElem (hbound i List.mem_cons_self)⟩
    obtain ⟨hresult, hreached⟩ := step _ _ _ _ h hout hitem
    obtain ⟨s', heach, hreached'⟩ := ih hreached hnodup (List.disjoint_cons_right.2 ⟨hi, hdisjoint⟩)
      fun j hj => hbound j (List.mem_cons_of_mem i hj)
    refine ⟨s', ?_, by simpa using hreached'⟩
    -- the job fills the slot of its item, whatever was done before
    rw [each, hitem]
    dsimp only
    rw [hresult, filled_set hitem, heach]
    simp

theorem scheduled_spec {order : List Nat} {s : σ} (h : Reached [] s)
    (horder : order.Perm (List.range items.length)) :
    (scheduled job items order s).1 = items.map f ∧
    Reached order.reverse (scheduled job items order s).2 := by
  obtain ⟨s', heach, hreached⟩ := each_filled step h (horder.nodup_iff.2 List.nodup_range)
    (List.disjoint_nil_right order) fun i hi => List.mem_range.1 (horder.mem_iff.1 hi)
  rw [filled_nil, List.append_nil] at heach
  rw [filled_all fun i hi => List.mem_reverse.2 (horder.mem_iff.2 (List.mem_range.2 hi))] at heach
  rw [List.append_nil] at hreached
  rw [scheduled, heach]
  refine ⟨?_, hreached⟩
  dsimp only
  rw [List.reduceOption, List.filterMap_map]
  simp

end Each

variable {d : Disk}

/-- Builds the bridge of one header with what has been read so far. -/
def buildJob (recipe : Recipe) (d : Disk) (h : Header) (r : Reader) : Result × Reader :=
  (⟨h, (build recipe d h r).1⟩, (build recipe d h r).2)

theorem buildAll_eq (recipe : Recipe) (d : Disk) (hs : List Header) (r : Reader) :
    buildAll recipe d hs r = sequential (buildJob recipe d) hs r := by
  induction hs generalizing r with
  | nil => rfl
  | cons h hs ih =>
    rw [sequential, ← ih]
    rfl

/-- All bridges are built as if each header were the only one, in whatever order they are built. -/
theorem scheduled_build (wf : d.WellFormed) {r : Reader} (hr : r.Current d) (recipe : Recipe)
    {hs : List Header} {order : List Nat} (horder : order.Perm (List.range hs.length)) :
    (scheduled (buildJob recipe d) hs order r).1 = hs.map (fun h => ⟨h, outcome recipe d h⟩) ∧
      (scheduled (buildJob recipe d) hs order r).2.Current d := by
  -- the reader may have read anything, as long as it knows the disk
  let Reached (_ : List Nat) (r : Reader) : Prop := r.Current d
  have step : ∀ done i h r, Reached done r → i ∉ done → hs[i]? = some h →
      (buildJob recipe d h r).1 = ⟨h, outcome recipe d h⟩ ∧
      Reached (i :: done) (buildJob recipe d h r).2 := by
    intro _ _ h r hr _ _
    obtain ⟨houtcome, hcurrent⟩ := build_of_current wf hr recipe h
    exact ⟨congrArg (Result.mk h) houtcome, hcurrent⟩
  exact scheduled_spec step hr horder

end HeaderBridge.Batch
