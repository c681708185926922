import HeaderBridge.Disk
import HeaderBridge.Proofs.Path.Clean
import Mathlib.Data.List.Induction

namespace HeaderBridge

namespace Disk

theorem lookup_filter_ne {κ ν : Type} [BEq κ] [LawfulBEq κ] [DecidableEq κ] (entries : List (κ × ν))
    (p q : κ) :
    (entries.filter (·.1 != p)).lookup q = if q = p then none else entries.lookup q := by
  induction entries with
  | nil => simp
  | cons e entries ih =>
    obtain ⟨r, e⟩ := e
    by_cases hr : r = p
    · rw [List.filter_cons_of_neg (by simp [hr]), ih, List.lookup_cons]
      by_cases hq : q = p
      · simp [hq]
      · have hqr : (q == r) = false := by simp [hr, hq]
        rw [if_neg hq, if_neg hq, hqr]
    · rw [List.filter_cons_of_pos (by simp [hr]), List.lookup_cons, List.lookup_cons, ih]
      by_cases hq : q = p
      · have hqr : (q == r) = false := by simpa [hq] using Ne.symm hr
        rw [if_pos hq, if_pos hq, hqr]
      · rw [if_neg hq, if_neg hq]

variable {d : Disk} {p q : Place}

@[simp] theorem find?_nil (d : Disk) : d.find? [] = some .folder := rfl

theorem find?_of_ne_nil (h : p ≠ []) : d.find? p = d.entries.lookup p := by simp [find?, h]

theorem find?_put (hp : p ≠ []) (e : Entry) (q : Place) :
    (d.put p e).find? q = if q = p then some e else d.find? q := by
  by_cases hq : q = []
  · rw [hq, if_neg (Ne.symm hp), find?_nil, find?_nil]
  · rw [find?_of_ne_nil hq, find?_of_ne_nil hq, put, List.lookup_append, lookup_filter_ne,
      List.lookup_cons]
    by_cases hqp : q = p
    · simp [hqp]
    · have hne : (q == p) = false := by simpa using hqp
      rw [if_neg hqp, if_neg hqp, hne, List.lookup_nil, Option.or_none]

theorem find?_drop (hp : p ≠ []) (q : Place) :
    (d.drop p).find? q = if q = p then none else d.find? q := by
  by_cases hq : q = []
  · rw [hq, if_neg (Ne.symm hp), find?_nil, find?_nil]
  · rw [find?_of_ne_nil hq, find?_of_ne_nil hq, drop, lookup_filter_ne]

theorem find?_write (hp : p ≠ []) (content : Text) (q : Place) :
    (d.write p content).find? q =
      if q = p then some (.file content (.moment d.clock)) else d.find? q :=
  find?_put hp _ q

@[simp] theorem put_work (d : Disk) (p : Place) (e : Entry) : (d.put p e).work = d.work := rfl
@[simp] theorem drop_work (d : Disk) (p : Place) : (d.drop p).work = d.work := rfl
@[simp] theorem write_work (d : Disk) (p : Place) (t : Text) : (d.write p t).work = d.work := rfl
@[simp] theorem put_clock (d : Disk) (p : Place) (e : Entry) : (d.put p e).clock = d.clock := rfl
@[simp] theorem drop_clock (d : Disk) (p : Place) : (d.drop p).clock = d.clock := rfl
@[simp] theorem write_clock (d : Disk) (p : Place) (t : Text) : (d.write p t).clock = d.clock + 1 :=
  rfl

theorem ne_nil_of_find?_eq_none (h : d.find? p = none) : p ≠ [] := by
  rintro rfl
  cases h

/-- Everything stands in a folder, and no file was written later than now. -/
structure WellFormed (d : Disk) : Prop where
  parent : ∀ {p e}, d.find? p = some e → d.find? p.dropLast = some .folder
  work : d.find? d.work = some .folder
  named : ∀ c ∈ d.work, Path.IsName c
  past : ∀ {p content n}, d.find? p = some (.file content (.moment n)) → n < d.clock

instance : DecidablePred Path.IsName := fun c =>
  decidable_of_iff ((c ≠ [] ∧ c ≠ Path.here ∧ ('/' : UInt8) ∉ c) ∧ c ≠ Path.up)
    ⟨fun h => ⟨⟨h.1.1, h.1.2.1, h.1.2.2⟩, h.2⟩,
      fun h => ⟨⟨h.ne_nil, h.ne_here, h.not_mem⟩, h.ne_up⟩⟩

theorem exists_mem_of_find? {e : Entry} (h : d.find? p = some e) :
    p = [] ∨ ∃ e', (p, e') ∈ d.entries := by
  by_cases hp : p = []
  · exact .inl hp
  · rw [find?_of_ne_nil hp] at h
    have hsome : (d.entries.lookup p).isSome = true := by simp [h]
    obtain ⟨entry, hmem, hkey⟩ := List.lookup_isSome_iff.1 hsome
    obtain rfl := beq_iff_eq.1 hkey
    exact .inr ⟨entry.2, hmem⟩

theorem exists_find?_of_mem {e : Entry} (h : (p, e) ∈ d.entries) : ∃ e', d.find? p = some e' := by
  by_cases hp : p = []
  · exact ⟨.folder, by rw [hp]; rfl⟩
  · rw [find?_of_ne_nil hp, ← Option.isSome_iff_exists, List.lookup_isSome_iff]
    exact ⟨(p, e), h, by simp⟩

def isPast (d : Disk) : Option Entry → Bool
  | some (.file _ (.moment n)) => decide (n < d.clock)
  | _ => true

theorem wellFormed_iff : d.WellFormed ↔
    (∀ e ∈ d.entries, d.find? e.1.dropLast = some .folder ∧ d.isPast (d.find? e.1) = true) ∧
      d.find? d.work = some .folder ∧ ∀ c ∈ d.work, Path.IsName c := by
  constructor
  · intro wf
    refine ⟨fun e he => ?_, wf.work, wf.named⟩
    obtain ⟨entry, hentry⟩ := exists_find?_of_mem he
    refine ⟨wf.parent hentry, ?_⟩
    rw [hentry]
    unfold isPast
    split
    · rename_i hfile
      rw [hfile] at hentry
      exact decide_eq_true (wf.past hentry)
    · rfl
  · rintro ⟨hlisted, hwork, hnamed⟩
    refine ⟨fun {p e} he => ?_, hwork, hnamed, fun {p content n} he => ?_⟩
    · rcases exists_mem_of_find? he with rfl | ⟨e', hmem⟩
      · rfl
      · exact (hlisted _ hmem).1
    · rcases exists_mem_of_find? he with rfl | ⟨e', hmem⟩
      · cases he
      · have hpast := (hlisted _ hmem).2
        dsimp only at hpast
        rw [he] at hpast
        exact of_decide_eq_true hpast

instance : DecidablePred WellFormed := fun _ => decidable_of_iff _ wellFormed_iff.symm

namespace WellFormed

theorem change {d' : Disk} (wf : d.WellFormed) (hwork : d'.work = d.work)
    (hfolder : ∀ q, d.find? q = some .folder → d'.find? q = some .folder)
    (hentry : ∀ q e, d'.find? q = some e → d.find? q = some e ∨ d.find? q.dropLast = some .folder)
    (hpast : ∀ q content n, d'.find? q = some (.file content (.moment n)) → n < d'.clock) :
    d'.WellFormed where
  parent {q e} h := by
    apply hfolder
    rcases hentry q e h with h | h
    · exact wf.parent h
    · exact h
  work := hwork ▸ hfolder d.work wf.work
  named := hwork ▸ wf.named
  past {q content n} h := hpast q content n h

/-- An entry may be put into a folder, unless it is a file and takes the place of a folder. -/
theorem put (wf : d.WellFormed) {e : Entry} (hp : d.find? p ≠ some .folder)
    (hparent : d.find? p.dropLast = some .folder)
    (hstamp : ∀ content n, e = .file content (.moment n) → n < d.clock) :
    (d.put p e).WellFormed := by
  have hne : p ≠ [] := by
    rintro rfl
    exact hp rfl
  have hfind := find?_put hne e (d := d)
  apply wf.change (put_work d p e)
  · intro q hq
    rw [hfind, if_neg]
    · exact hq
    · rintro rfl
      exact hp hq
  · intro q e hq
    rw [hfind] at hq
    split at hq
    · rename_i hqp
      exact .inr (hqp ▸ hparent)
    · exact .inl hq
  · intro q content n hq
    rw [hfind] at hq
    split at hq
    · exact hstamp content n (Option.some.inj hq)
    · exact wf.past hq

theorem congr {d' : Disk} (wf : d.WellFormed) (hwork : d'.work = d.work)
    (hclock : d.clock ≤ d'.clock) (hfind : ∀ q, d'.find? q = d.find? q) : d'.WellFormed := by
  apply wf.change hwork
  · intro q hq
    rw [hfind, hq]
  · intro q e hq
    rw [hfind] at hq
    exact .inl hq
  · intro q content n hq
    rw [hfind] at hq
    exact Nat.lt_of_lt_of_le (wf.past hq) hclock

theorem tick (wf : d.WellFormed) : WellFormed { d with clock := d.clock + 1 } :=
  ⟨wf.parent, wf.work, wf.named, fun h => Nat.lt_succ_of_lt (wf.past h)⟩

/-- A file may be written into a folder, over a file or where there is nothing. -/
theorem write (wf : d.WellFormed) (hp : d.find? p ≠ some .folder)
    (hparent : d.find? p.dropLast = some .folder) (content : Text) :
    (d.write p content).WellFormed := by
  apply wf.tick.put hp hparent
  intro content n hn
  cases hn
  exact Nat.lt_succ_self _

theorem drop (wf : d.WellFormed) (hp : d.find? p ≠ some .folder) : (d.drop p).WellFormed := by
  have hne : p ≠ [] := by
    rintro rfl
    exact hp rfl
  have hfind := find?_drop hne (d := d)
  have hold : ∀ q e, (d.drop p).find? q = some e → d.find? q = some e := by
    intro q e hq
    rw [hfind] at hq
    split at hq
    · cases hq
    · exact hq
  apply wf.change (drop_work d p)
  · intro q hq
    rw [hfind, if_neg]
    · exact hq
    · rintro rfl
      exact hp hq
  · intro q e hq
    exact .inl (hold q e hq)
  · intro q content n hq
    exact wf.past (hold q _ hq)

theorem above (wf : d.WellFormed) {e : Entry} (hp : d.find? p = some e) (hq : q <+: p)
    (hne : q ≠ p) : d.find? q = some .folder := by
  obtain ⟨rest, rfl⟩ := hq
  induction rest using List.reverseRecOn generalizing e with
  | nil => simp at hne
  | append_singleton rest c ih =>
    have hparent := wf.parent hp
    rw [← List.append_assoc, List.dropLast_concat] at hparent
    by_cases hrest : rest = []
    · rwa [hrest, List.append_nil] at hparent
    · apply ih hparent
      simpa using hrest

theorem folder (wf : d.WellFormed) (hp : d.find? p = some .folder) (hq : q <+: p) :
    d.find? q = some .folder := by
  by_cases hne : q = p
  · rw [hne, hp]
  · exact wf.above hp hq hne

end WellFormed
end Disk
end HeaderBridge
