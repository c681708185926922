import HeaderBridge.Source.Delimited
import Mathlib.Data.Nat.Find
import Mathlib.Order.Bounds.Defs

namespace HeaderBridge

/-- The first `n` bytes close what they open and `depth + 1` scopes more. -/
structure Closes (opener closer : UInt8) (depth : Nat) (t : Text) (n : Nat) : Prop where
  le : n ≤ t.length
  count : (t.take n).count closer = (t.take n).count opener + (depth + 1)

/-- In every beginning no more is closed than has been opened, and in the whole text as much. -/
structure Nested (opener closer : UInt8) (t : Text) : Prop where
  total : t.count closer = t.count opener
  below : ∀ w, w <+: t → w.count closer ≤ w.count opener

/-- Openers and closers are equally many from `start` up to `stop`. -/
structure Balances (opener closer : UInt8) (text : Text) (start stop : Nat) : Prop where
  lt : start < stop
  le : stop ≤ text.length
  count : (Text.slice text start stop).count closer = (Text.slice text start stop).count opener

theorem isLeast_shift {p q : Nat → Prop} {k : Nat} (h : ∀ n, p n ↔ ∃ m, n = m + k ∧ q m) {n : Nat} :
    IsLeast {n | p n} n ↔ ∃ m, n = m + k ∧ IsLeast {m | q m} m := by
  constructor
  · rintro ⟨hn, hleast⟩
    obtain ⟨m, rfl, hm⟩ := (h n).1 hn
    refine ⟨m, rfl, hm, fun i hi => ?_⟩
    have := hleast ((h (i + k)).2 ⟨i, rfl, hi⟩)
    omega
  · rintro ⟨m, rfl, hm, hleast⟩
    refine ⟨(h (m + k)).2 ⟨m, rfl, hm⟩, fun j hj => ?_⟩
    obtain ⟨i, rfl, hi⟩ := (h j).1 hj
    have := hleast hi
    omega

section Count

variable {opener closer : UInt8} {depth n : Nat} {t u : Text}

theorem not_closes_zero : ¬ Closes opener closer depth t 0 := by
  intro h
  simpa using h.count

theorem closes_cons {a : UInt8} : Closes opener closer depth (a :: t) (n + 1) ↔ n ≤ t.length ∧
    (t.take n).count closer + (if a = closer then 1 else 0) =
      (t.take n).count opener + (if a = opener then 1 else 0) + (depth + 1) := by
  have hcount (b : UInt8) : ((a :: t).take (n + 1)).count b =
      (t.take n).count b + if a = b then 1 else 0 := by
    rw [List.take_succ_cons, List.count_cons]
    simp only [beq_iff_eq]
  constructor
  · rintro ⟨hle, h⟩
    rw [hcount, hcount] at h
    exact ⟨Nat.le_of_succ_le_succ hle, h⟩
  · rintro ⟨hle, h⟩
    refine ⟨Nat.succ_le_succ hle, ?_⟩
    rw [hcount, hcount]
    exact h

/-- The scopes that are open behind the first byte are closed by the bytes behind it. -/
theorem isLeast_closes_cons {a : UInt8} {depth' : Nat}
    (h : (if a = closer then 1 else 0) + depth' = (if a = opener then 1 else 0) + depth) :
    IsLeast {n | Closes opener closer depth (a :: t) n} n ↔
      ∃ m, n = m + 1 ∧ IsLeast {m | Closes opener closer depth' t m} m := by
  refine isLeast_shift fun n => ?_
  cases n with
  | zero => exact ⟨fun hn => absurd hn not_closes_zero, fun ⟨m, hm, _⟩ => absurd hm (by omega)⟩
  | succ n =>
    rw [closes_cons]
    constructor
    · rintro ⟨hle, hcount⟩
      exact ⟨n, rfl, hle, by omega⟩
    · rintro ⟨m, hm, hle, hcount⟩
      obtain rfl : m = n := by omega
      exact ⟨hle, by omega⟩

theorem map_succ_eq_some {x : Option Nat} :
    x.map (· + 1) = some n ↔ ∃ m, n = m + 1 ∧ x = some m := by
  rw [Option.map_eq_some_iff]
  constructor
  · rintro ⟨m, hx, rfl⟩
    exact ⟨m, rfl, hx⟩
  · rintro ⟨m, rfl, hx⟩
    exact ⟨m, hx, rfl⟩

theorem closerLength_eq_some_iff (hne : opener ≠ closer) :
    closerLength opener closer depth t = some n ↔
    IsLeast {n | Closes opener closer depth t n} n := by
  induction t generalizing depth n with
  | nil =>
    refine ⟨fun h => by simp [closerLength] at h, fun h => absurd h.1 fun hn => ?_⟩
    simpa using hn.count
  | cons a t ih =>
    have hstep (depth' : Nat)
        (h : (if a = closer then 1 else 0) + depth' = (if a = opener then 1 else 0) + depth) :
        (closerLength opener closer depth' t).map (· + 1) = some n ↔
          IsLeast {n | Closes opener closer depth (a :: t) n} n := by
      rw [map_succ_eq_some, isLeast_closes_cons h]
      simp only [ih]
    rw [closerLength.eq_def]
    dsimp only
    by_cases hopener : a = opener
    · rw [if_pos (beq_iff_eq.2 hopener)]
      exact hstep _ (by rw [if_pos hopener, if_neg (hopener ▸ hne)]; omega)
    · rw [if_neg (mt beq_iff_eq.1 hopener)]
      by_cases hcloser : a = closer
      · rw [if_pos (beq_iff_eq.2 hcloser)]
        cases depth with
        | succ depth => exact hstep _ (by rw [if_pos hcloser, if_neg hopener]; omega)
        | zero =>
          -- the first byte closes the only open scope
          have hone : IsLeast {n | Closes opener closer 0 (a :: t) n} 1 := by
            refine ⟨closes_cons.2 ⟨Nat.zero_le _, ?_⟩, fun m hm => ?_⟩
            · simp [hcloser, hne.symm]
            · exact Nat.pos_of_ne_zero fun hzero => not_closes_zero (hzero ▸ hm)
          refine ⟨fun h => Option.some.inj h ▸ hone, fun h => congrArg some ?_⟩
          exact Nat.le_antisymm (hone.2 h.1) (h.2 hone.1)
      · rw [if_neg (mt beq_iff_eq.1 hcloser)]
        exact hstep _ (by rw [if_neg hopener, if_neg hcloser])

theorem closerLength_eq_none_iff (hne : opener ≠ closer) :
    closerLength opener closer depth t = none ↔ ∀ n, ¬ Closes opener closer depth t n := by
  constructor
  · intro hnone n hn
    classical
    have hexists : ∃ n, Closes opener closer depth t n := ⟨n, hn⟩
    have hleast : IsLeast {n | Closes opener closer depth t n} (Nat.find hexists) :=
      ⟨Nat.find_spec hexists, fun m hm => Nat.find_min' hexists hm⟩
    rw [(closerLength_eq_some_iff hne).2 hleast] at hnone
    cases hnone
  · intro h
    cases hlen : closerLength opener closer depth t with
    | none => rfl
    | some n => exact absurd ((closerLength_eq_some_iff hne).1 hlen).1 (h n)

theorem count_byte_le (x : Option UInt8) (b : UInt8) : x.toList.count b ≤ 1 := by
  refine Nat.le_trans List.count_le_length ?_
  cases x <;> simp

/-- Up to a place before which nothing closes, at most `depth` scopes more are closed than opened:
each byte closes at most one. -/
theorem count_le_of_not_closes {m : Nat} (hm : m ≤ t.length)
    (h : ∀ k ≤ m, ¬ Closes opener closer depth t k) :
    (t.take m).count closer ≤ (t.take m).count opener + depth := by
  induction m with
  | zero => simp
  | succ m ih =>
    have hbefore := ih (Nat.le_of_succ_le hm) fun k hk => h k (Nat.le_succ_of_le hk)
    have hlast := count_byte_le t[m]? closer
    have hnot : ¬ (t.take (m + 1)).count closer = (t.take (m + 1)).count opener + (depth + 1) :=
      fun hcount => h (m + 1) (Nat.le_refl _) ⟨hm, hcount⟩
    rw [List.take_add_one, List.count_append, List.count_append] at hnot ⊢
    omega

theorem nested_take (h : IsLeast {n | Closes opener closer 0 t n} n) :
    Nested opener closer (t.take (n - 1)) := by
  have hle := h.1.le
  have hpos : 0 < n := Nat.pos_of_ne_zero fun hzero => not_closes_zero (hzero ▸ h.1)
  have hbelow (m : Nat)
      (hm : m ≤ n - 1) : (t.take m).count closer ≤ (t.take m).count opener + 0 := by
    refine count_le_of_not_closes (by omega) fun k hk hcloses => ?_
    have := h.2 hcloses
    omega
  refine ⟨?_, fun w hw => ?_⟩
  · have hcount := h.1.count
    have hlast := count_byte_le t[n - 1]? closer
    have hinner := hbelow (n - 1) (Nat.le_refl _)
    obtain ⟨m, rfl⟩ : ∃ m, n = m + 1 := ⟨n - 1, by omega⟩
    rw [List.take_add_one, List.count_append, List.count_append] at hcount
    rw [Nat.add_sub_cancel] at hlast hinner ⊢
    omega
  · have hlen := hw.length_le
    rw [List.length_take] at hlen
    have hw' : w = t.take w.length := List.prefix_iff_eq_take.1 (hw.trans (List.take_prefix _ _))
    rw [hw']
    exact hbelow w.length (by omega)

end Count

section Scan

variable {opener closer : UInt8} {text rest : Text} {start stop : Nat}

theorem slice_congr {t u : Text} {a b : Nat} (h : ∀ i, a ≤ i → i < b → t[i]? = u[i]?) :
    Text.slice t a b = Text.slice u a b := by
  apply List.ext_getElem?
  intro j
  rw [Text.slice, Text.slice, List.getElem?_take, List.getElem?_take, List.getElem?_drop,
    List.getElem?_drop]
  split
  · exact h (a + j) (Nat.le_add_right a j) (by omega)
  · rfl

theorem exists_drop_eq (h : text[start]? = some opener) :
    ∃ rest, text.drop start = opener :: rest := by
  obtain ⟨hlt, hget⟩ := List.getElem?_eq_some_iff.1 h
  exact ⟨text.drop (start + 1), hget ▸ List.drop_eq_getElem_cons hlt⟩

theorem scanDelimited_of_not_opener {index : Int}
    (h : index < 0 ∨ (text.length : Int) ≤ index ∨ text[index.toNat]? ≠ some opener) :
    scanDelimited opener closer text index =
      .error (.invalidStart index (if index < 0 then none else text[index.toNat]?)) := by
  cases index with
  | negSucc n => rw [if_pos (Int.negSucc_lt_zero n)]; rfl
  | ofNat start =>
    have hfirst : text[start]? = (text.drop start).head? := List.head?_drop.symm
    have hnot : (text.drop start).head? ≠ some opener := by
      rw [← hfirst]
      rcases h with hneg | hlen | hother
      · exact absurd hneg (Int.not_lt.2 (Int.natCast_nonneg start))
      · rw [List.getElem?_eq_none (Int.ofNat_le.1 hlen)]
        simp
      · exact hother
    have hnonneg : ¬ (Int.ofNat start) < 0 := Int.not_lt.2 (Int.natCast_nonneg start)
    have hfound : text[(Int.ofNat start).toNat]? = (text.drop start).head? := hfirst
    rw [if_neg hnonneg, hfound, scanDelimited, scanFrom]
    cases hdrop : text.drop start with
    | nil => rfl
    | cons a rest =>
      rw [hdrop] at hnot
      have ha : (a != opener) = true := bne_iff_ne.2 fun heq => hnot (congrArg some heq)
      dsimp only
      rw [if_pos ha]
      rfl

section Opener

variable (hdrop : text.drop start = opener :: rest)
include hdrop

theorem scanDelimited_of_opener : scanDelimited opener closer text start =
    match closerLength opener closer 0 rest with
      | none => .error (.unbalanced start (opener :: rest))
      | some n => .ok ⟨rest.take (n - 1), start + 1 + n⟩ := by
  change scanFrom opener closer text start = _
  rw [scanFrom, hdrop]
  refine (if_neg (by simp)).trans ?_
  cases closerLength opener closer 0 rest <;> rfl

theorem length_of_drop : text.length = rest.length + (start + 1) := by
  have hlen := congrArg List.length hdrop
  rw [List.length_drop, List.length_cons] at hlen
  omega

theorem slice_of_drop (n : Nat) :
    Text.slice text start (n + (start + 1)) = opener :: rest.take n := by
  have hlen : n + (start + 1) - start = n + 1 := by omega
  rw [Text.slice, hdrop, hlen, List.take_succ_cons]

/-- As many closers as openers have been met where the bytes behind the first opener close it. -/
theorem balances_iff (hne : opener ≠ closer) :
    Balances opener closer text start stop ↔ ∃ n, stop = n + (start + 1) ∧
    Closes opener closer 0 rest n := by
  have hlen := length_of_drop hdrop
  have hcount (n : Nat) : (opener :: rest.take n).count closer =
      (opener :: rest.take n).count opener ↔
      (rest.take n).count closer = (rest.take n).count opener + (0 + 1) := by
    rw [List.count_cons_of_ne hne, List.count_cons_self]
  constructor
  · rintro ⟨hlt, hle, h⟩
    obtain ⟨n, rfl⟩ : ∃ n, stop = n + (start + 1) := ⟨stop - (start + 1), by omega⟩
    rw [slice_of_drop hdrop] at h
    exact ⟨n, rfl, by omega, (hcount n).1 h⟩
  · rintro ⟨n, rfl, hle, h⟩
    refine ⟨by omega, by omega, ?_⟩
    rw [slice_of_drop hdrop]
    exact (hcount n).2 h

theorem scanDelimited_eq_ok_iff (hne : opener ≠ closer) {inner : Text} :
    scanDelimited opener closer text start = .ok ⟨inner, stop⟩ ↔
      IsLeast {n | Balances opener closer text start n} stop ∧
      inner = Text.slice text (start + 1) (stop - 1) := by
  have hinner (n : Nat) : Text.slice text (start + 1) (n + (start + 1) - 1) =
      rest.take (n - 1) := by
    have hlen : n + (start + 1) - 1 - (start + 1) = n - 1 := by omega
    rw [Text.slice, hlen, ← List.drop_drop, hdrop, List.drop_succ_cons, List.drop_zero]
  rw [scanDelimited_of_opener hdrop, isLeast_shift fun n => balances_iff hdrop hne]
  constructor
  · intro h
    cases hlen : closerLength opener closer 0 rest with
    | none => simp [hlen] at h
    | some n =>
      rw [hlen] at h
      obtain ⟨rfl, rfl⟩ := Scope.mk.inj (Except.ok.inj h)
      have hstop : start + 1 + n = n + (start + 1) := Nat.add_comm _ _
      exact ⟨⟨n, hstop, (closerLength_eq_some_iff hne).1 hlen⟩, by rw [hstop, hinner]⟩
  · rintro ⟨⟨n, rfl, hn⟩, rfl⟩
    rw [(closerLength_eq_some_iff hne).2 hn, hinner, Nat.add_comm n]

theorem scanDelimited_eq_unbalanced_iff (hne : opener ≠ closer) {offset : Nat} {region : Text} :
    scanDelimited opener closer text start = .error (.unbalanced offset region) ↔
      (∀ n, ¬ Balances opener closer text start n) ∧ offset = start ∧ region = text.drop start := by
  have hnone : closerLength opener closer 0 rest = none ↔
      ∀ n, ¬ Balances opener closer text start n := by
    rw [closerLength_eq_none_iff hne]
    constructor
    · intro h n hbalances
      obtain ⟨m, -, hm⟩ := (balances_iff hdrop hne).1 hbalances
      exact h m hm
    · exact fun h n hn => h _ ((balances_iff hdrop hne).2 ⟨n, rfl, hn⟩)
  rw [scanDelimited_of_opener hdrop, ← hnone, hdrop]
  cases closerLength opener closer 0 rest with
  | none => simp [eq_comm]
  | some n => simp

end Opener

theorem nested_of_scanDelimited (hne : opener ≠ closer) (h : text[start]? = some opener)
    {inner : Text} (hscan : scanDelimited opener closer text start = .ok ⟨inner, stop⟩) :
    Nested opener closer inner := by
  obtain ⟨rest, hdrop⟩ := exists_drop_eq h
  rw [scanDelimited_of_opener hdrop] at hscan
  cases hlen : closerLength opener closer 0 rest with
  | none => simp [hlen] at hscan
  | some n =>
    rw [hlen] at hscan
    obtain ⟨rfl, -⟩ := Scope.mk.inj (Except.ok.inj hscan)
    exact nested_take ((closerLength_eq_some_iff hne).1 hlen)

theorem scanDelimited_congr {text' : Text} (hne : opener ≠ closer) (h : text[start]? = some opener)
    {inner : Text} (hscan : scanDelimited opener closer text start = .ok ⟨inner, stop⟩)
    (hsame : ∀ i, start ≤ i → i < stop → text'[i]? = text[i]?) :
    scanDelimited opener closer text' start = .ok ⟨inner, stop⟩ := by
  obtain ⟨rest, hdrop⟩ := exists_drop_eq h
  obtain ⟨hleast, rfl⟩ := (scanDelimited_eq_ok_iff hdrop hne).1 hscan
  have hlt := hleast.1.lt
  have hslice {a b : Nat} (ha : start ≤ a) (hb : b ≤ stop) : Text.slice text' a b =
      Text.slice text a b :=
    slice_congr fun i hi hib => hsame i (Nat.le_trans ha hi) (Nat.lt_of_lt_of_le hib hb)
  have hlen : stop ≤ text'.length := by
    have hin : stop - 1 < text.length := Nat.lt_of_lt_of_le (by omega) hleast.1.le
    have hlast := hsame (stop - 1) (by omega) (by omega)
    rw [List.getElem?_eq_getElem hin] at hlast
    have := (List.getElem?_eq_some_iff.1 hlast).1
    omega
  obtain ⟨rest', hdrop'⟩ := exists_drop_eq ((hsame start (Nat.le_refl _) hlt).trans h)
  refine (scanDelimited_eq_ok_iff hdrop' hne).2 ⟨⟨⟨hlt, hlen, ?_⟩, fun n hn => ?_⟩, ?_⟩
  · rw [hslice (Nat.le_refl _) (Nat.le_refl _)]
    exact hleast.1.count
  · rcases Nat.le_total stop n with hle | hle
    · exact hle
    · have hcount := hn.count
      rw [hslice (Nat.le_refl _) hle] at hcount
      exact hleast.2 ⟨hn.lt, Nat.le_trans hle hleast.1.le, hcount⟩
  · exact (hslice (Nat.le_succ start) (Nat.sub_le _ _)).symm

/-- A scan refuses to start where no opener stands. Else it finds the first place up to which
openers and closers are equally many, which closes the opener it started from: what lies in between
is nested, and the bytes outside play no part. It fails only if there is no such place. -/
theorem scanDelimited_matching (hne : opener ≠ closer) (text : Text) (index : Int) :
    (∀ i found, scanDelimited opener closer text index = .error (.invalidStart i found) ↔
      (index < 0 ∨ (text.length : Int) ≤ index ∨ text[index.toNat]? ≠ some opener) ∧
        i = index ∧ found = if index < 0 then none else text[index.toNat]?) ∧
    ∀ start : Nat, index = start → text[start]? = some opener →
      (∀ inner stop, scanDelimited opener closer text index = .ok ⟨inner, stop⟩ ↔
        IsLeast {n | Balances opener closer text start n} stop ∧
        inner = Text.slice text (start + 1) (stop - 1)) ∧
      (∀ inner stop, scanDelimited opener closer text index = .ok ⟨inner, stop⟩ →
        Nested opener closer inner ∧
        ∀ text' : Text, (∀ i, start ≤ i → i < stop → text'[i]? = text[i]?) →
          scanDelimited opener closer text' index = scanDelimited opener closer text index) ∧
      ∀ offset region, scanDelimited opener closer text index = .error (.unbalanced offset region) ↔
        (∀ n, ¬ Balances opener closer text start n) ∧ offset = start ∧
        region = text.drop start := by
  refine ⟨fun i found => ⟨fun h => ?_, fun ⟨hnot, hi, hfound⟩ => ?_⟩, ?_⟩
  · by_cases hnot : index < 0 ∨ (text.length : Int) ≤ index ∨ text[index.toNat]? ≠ some opener
    · rw [scanDelimited_of_not_opener hnot] at h
      obtain ⟨rfl, rfl⟩ := ScanFailure.invalidStart.inj (Except.error.inj h)
      exact ⟨hnot, rfl, rfl⟩
    · simp only [not_or, not_not] at hnot
      obtain ⟨start, rfl⟩ := Int.eq_ofNat_of_zero_le (Int.not_lt.1 hnot.1)
      have hopener : text[start]? = some opener := hnot.2.2
      obtain ⟨rest, hdrop⟩ := exists_drop_eq hopener
      rw [scanDelimited_of_opener hdrop] at h
      cases hlen : closerLength opener closer 0 rest <;> simp [hlen] at h
  · rw [scanDelimited_of_not_opener hnot, hi, hfound]
  · rintro start rfl hopener
    obtain ⟨rest, hdrop⟩ := exists_drop_eq hopener
    refine ⟨fun _ _ => scanDelimited_eq_ok_iff hdrop hne, fun inner stop hscan => ?_,
      fun _ _ => scanDelimited_eq_unbalanced_iff hdrop hne⟩
    refine ⟨nested_of_scanDelimited hne hopener hscan, fun text' hsame => ?_⟩
    rw [hscan]
    exact scanDelimited_congr hne hopener hscan hsame

/-- The call in `f(a, (b, c)) + 1`: its list ends at the second of two closers. -/
theorem scanDelimited_matching_call : ('(' : UInt8) ≠ ')' ∧
    scanDelimited '(' ')' "f(a, (b, c)) + 1" 1 = .ok ⟨"a, (b, c)", 12⟩ ∧
    IsLeast {n | Balances '(' ')' "f(a, (b, c)) + 1" 1 n} 12 ∧ Nested '(' ')' "a, (b, c)" ∧
    scanDelimited '(' ')' "g(a, (b, c))))" 1 = .ok ⟨"a, (b, c)", 12⟩ := by
  have hne : ('(' : UInt8) ≠ ')' := by decide
  have hscan : scanDelimited '(' ')' "f(a, (b, c)) + 1" 1 = .ok ⟨"a, (b, c)", 12⟩ := by
    decide +kernel
  obtain ⟨-, h⟩ := scanDelimited_matching hne "f(a, (b, c)) + 1" 1
  obtain ⟨hok, hinner, -⟩ := h 1 rfl (by decide)
  obtain ⟨hnested, hcongr⟩ := hinner _ _ hscan
  have hsame : ∀ i, i < 12 → 1 ≤ i →
      ("g(a, (b, c))))" : Text)[i]? = ("f(a, (b, c)) + 1" : Text)[i]? := by
    decide +kernel
  refine ⟨hne, hscan, ((hok _ _).1 hscan).1, hnested, (hcongr _ ?_).trans hscan⟩
  exact fun i hi hlt => hsame i hlt hi

end Scan

end HeaderBridge
