import HeaderBridge.Proofs.Interface.Lookahead
import HeaderBridge.Proofs.Source.Brace

namespace HeaderBridge

theorem Token.isPunct_eq_sign? (t : Token) {c : Char} (hc : Char.ofNat c.toUInt8.toNat = c) :
    t.isPunct c = (t.sign? == some c) := by
  cases h : t.isPunct c with
  | true => simp [sign?_of_isPunct h hc]
  | false =>
    cases hs : t.sign? == some c with
    | false => rfl
    | true => simp [isPunct_of_sign? (beq_iff_eq.1 hs)] at h

namespace Nesting

def isClosed (n : Nesting) : Bool := n.paren == 0 && n.square == 0 && n.brace == 0 && n.angle == 0

def isSound (n : Nesting) : Bool := 0 ≤ n.paren && 0 ≤ n.square && 0 ≤ n.brace

/-- Whether the tokens close the brackets that are open and their own ones, and no token that
satisfies `bar` stands outside all brackets. -/
def covers (bar : Token → Bool) : Nesting → Option Token → List Token → Bool
  | n, _, [] => n.isClosed
  | n, prev, t :: ts =>
    !(bar t && n.isTop) && (n.step prev t).isSound && covers bar (n.step prev t) (some t) ts

theorem step_paren (n : Nesting) (prev : Option Token) (t : Token) :
    (n.step prev t).paren =
      if t.isPunct '(' then n.paren + 1 else if t.isPunct ')' then n.paren - 1 else n.paren := by
  rw [t.isPunct_eq_sign? (by decide), t.isPunct_eq_sign? (by decide)]
  unfold step
  split <;> simp_all
  · split <;> rfl
  · split <;> rfl

theorem step_brace (n : Nesting) (prev : Option Token) (t : Token) :
    (n.step prev t).brace =
      if t.isPunct '{' then n.brace + 1 else if t.isPunct '}' then n.brace - 1 else n.brace := by
  rw [t.isPunct_eq_sign? (by decide), t.isPunct_eq_sign? (by decide)]
  unfold step
  split <;> simp_all
  · split <;> rfl
  · split <;> rfl

/-- Defaults are not read literally, as in a first pass over a list. -/
def isFirst (n : Nesting) : Bool := !n.literal && !n.inDefault

theorem isFirst_step {n : Nesting} (h : n.isFirst = true) (prev : Option Token) (t : Token) :
    (n.step prev t).isFirst = true := by
  obtain ⟨p, s, b, a, l, d⟩ := n
  obtain ⟨rfl, rfl⟩ : l = false ∧ d = false := by simpa [isFirst] using h
  unfold step
  split <;> simp [isFirst]
  · split <;> exact ⟨rfl, rfl⟩
  · split <;> exact ⟨rfl, rfl⟩

theorem eq_of_isClosed {n : Nesting} (h : n.isClosed = true) (hf : n.isFirst = true) : n = {} := by
  obtain ⟨p, s, b, a, l, d⟩ := n
  simp only [isClosed, isFirst, Bool.and_eq_true, beq_iff_eq, Bool.not_eq_true'] at h hf
  simp [h, hf]

theorem step_congr {prev prev' : Option Token}
    (h : prev.any Token.isIdent = prev'.any Token.isIdent) (n : Nesting) (t : Token) :
    n.step prev t = n.step prev' t := by
  unfold step
  rw [h]

theorem covers_prev {prev prev' : Option Token}
    (h : prev.any Token.isIdent = prev'.any Token.isIdent) (bar : Token → Bool) (n : Nesting)
    (ts : List Token) :
    covers bar n prev ts = covers bar n prev' ts := by
  cases ts with
  | nil => rfl
  | cons t ts => rw [covers, covers, step_congr h]

theorem covers_map {g : Token → Token} (hg : Token.Moves g) {bar : Token → Bool}
    (hbar : ∀ t, bar (g t) = bar t) (n : Nesting) (prev : Option Token) (ts : List Token) :
    covers bar n (prev.map g) (ts.map g) = covers bar n prev ts := by
  induction ts generalizing n prev with
  | nil => rfl
  | cons t ts ih =>
    have := ih (n.step prev t) (some t)
    rw [Option.map_some] at this
    rw [List.map_cons, covers, covers, hbar, step_map hg, this]

theorem getLast?_or_cons {α : Type} (t : α) (ts : List α) (prev : Option α) :
    (t :: ts).getLast?.or prev = ts.getLast?.or (some t) := by
  rw [List.getLast?_cons]
  cases ts.getLast? <;> rfl

theorem covers_append {bar : Token → Bool} {n : Nesting} {prev : Option Token} {ts us : List Token}
    (hn : n.isFirst = true) (hts : covers bar n prev ts = true)
    (hus : covers bar {} (ts.getLast?.or prev) us = true) :
    covers bar n prev (ts ++ us) = true := by
  induction ts generalizing n prev with
  | nil =>
    obtain rfl := eq_of_isClosed hts hn
    exact hus
  | cons t ts ih =>
    rw [covers, Bool.and_eq_true] at hts
    rw [getLast?_or_cons] at hus
    rw [List.cons_append, covers, Bool.and_eq_true]
    exact ⟨hts.1, ih (isFirst_step hn prev t) hts.2 hus⟩

theorem covers_mono {bar bar' : Token → Bool} (h : ∀ t, bar' t = true → bar t = true) {n : Nesting}
    {prev : Option Token} {ts : List Token} (hts : covers bar n prev ts = true) :
    covers bar' n prev ts = true := by
  induction ts generalizing n prev with
  | nil => exact hts
  | cons t ts ih =>
    rw [covers, Bool.and_eq_true, Bool.and_eq_true] at hts ⊢
    refine ⟨⟨?_, hts.1.2⟩, ih hts.2⟩
    cases hb : bar' t with
    | false => rfl
    | true => simpa [h t hb] using hts.1.1

theorem covers_singleton {bar : Token → Bool} {t : Token} (hb : bar t = false)
    (hs : t.sign? = none ∨ t.sign? = some '=' ∨ t.sign? = some ',') (prev : Option Token) :
    covers bar {} prev [t] = true := by
  have hstep : step {} prev t = {} := by
    unfold step
    rcases hs with hs | hs | hs <;> rw [hs] <;> rfl
  rw [covers, hstep, hb]
  rfl

end Nesting

section Balanced

open Nesting

variable {bar : Token → Bool} {n : Nesting} {prev : Option Token} {ts : List Token}

theorem Token.closeParen_of_covers (h : covers bar n prev ts = true) {k : Nat} (hk : n.paren = k)
    (hsemi : ∀ t ∈ ts, t.isPunct ';' = false) (depth : Nat) (rest : List Token) :
    closeParen (depth + k) (ts ++ rest) = (closeParen depth rest).map fun r => (ts ++ r.1,
      r.2) := by
  induction ts generalizing n prev k with
  | nil =>
    rw [covers] at h
    simp only [isClosed, Bool.and_eq_true, beq_iff_eq] at h
    obtain rfl : k = 0 := by omega
    simp
  | cons t ts ih =>
    rw [covers, Bool.and_eq_true, Bool.and_eq_true] at h
    obtain ⟨⟨_, hs⟩, hc⟩ := h
    have hp := step_paren n prev t
    have hsound : 0 ≤ (n.step prev t).paren := by
      simp only [isSound, Bool.and_eq_true, decide_eq_true_eq] at hs
      exact hs.1.1
    have ih {j : Nat} (hj : (n.step prev t).paren = j) :=
      ih hc hj fun u hu => hsemi u (by simp [hu])
    rw [List.cons_append, closeParen.eq_def]
    dsimp only
    split
    · rw [if_pos ‹_›] at hp
      rw [Nat.add_assoc, ih (j := k + 1) (by omega)]
      simp [Function.comp_def]
    · rw [if_neg ‹_›] at hp
      split
      · rw [if_pos ‹_›] at hp
        obtain ⟨j, rfl⟩ : ∃ j, k = j + 1 := ⟨k - 1, by omega⟩
        rw [← Nat.add_assoc]
        dsimp only
        rw [ih (j := j) (by omega)]
        simp [Function.comp_def]
      · rw [if_neg ‹_›] at hp
        rw [hsemi t (by simp), ih (j := k) (by omega)]
        simp [Function.comp_def]

theorem Parameter.splitCommas_of_covers (hbar : ∀ t : Token, t.isPunct ',' = true → bar t = true)
    (h : covers bar n prev ts = true) (hn : n.isFirst = true) (rest : List Token) :
    splitCommas n prev (ts ++ rest) =
      ((splitCommas {} (ts.getLast?.or prev) rest).1.modifyHead (ts ++ ·),
        (splitCommas {} (ts.getLast?.or prev) rest).2) := by
  induction ts generalizing n prev with
  | nil =>
    obtain rfl := eq_of_isClosed h hn
    cases hr : splitCommas {} prev rest with
    | mk segments last => cases segments <;> simp [hr]
  | cons t ts ih =>
    rw [covers, Bool.and_eq_true, Bool.and_eq_true] at h
    obtain ⟨⟨hb, _⟩, hc⟩ := h
    have hcomma : (t.isPunct ',' && n.isTop) = false := by
      cases ht : t.isPunct ',' with
      | false => rfl
      | true => simpa [hbar t ht] using hb
    rw [List.cons_append, splitCommas, hcomma, getLast?_or_cons, ih hc (isFirst_step hn prev t)]
    cases hr : splitCommas {} (ts.getLast?.or (some t)) rest with
    | mk segments last => cases segments <;> simp

theorem Parameter.splitDefault_of_covers (hbar : ∀ t : Token, t.isPunct '=' = true → bar t = true)
    (h : covers bar n prev ts = true) (hn : n.isFirst = true) (rest : List Token) :
    splitDefault n prev (ts ++ rest) =
      (ts ++ (splitDefault {} (ts.getLast?.or prev) rest).1,
        (splitDefault {} (ts.getLast?.or prev) rest).2) := by
  induction ts generalizing n prev with
  | nil =>
    obtain rfl := eq_of_isClosed h hn
    rfl
  | cons t ts ih =>
    rw [covers, Bool.and_eq_true, Bool.and_eq_true] at h
    obtain ⟨⟨hb, _⟩, hc⟩ := h
    have hequals : (t.isPunct '=' && n.isTop) = false := by
      cases ht : t.isPunct '=' with
      | false => rfl
      | true => simpa [hbar t ht] using hb
    rw [List.cons_append, splitDefault, hequals, getLast?_or_cons, ih hc (isFirst_step hn prev t)]
    simp

theorem Token.nests_of_covers (h : covers bar n prev ts = true) {k : Nat} (hk : n.brace = k) :
    nests k ts = true := by
  induction ts generalizing n prev k with
  | nil =>
    rw [covers] at h
    simp only [isClosed, Bool.and_eq_true, beq_iff_eq] at h
    obtain rfl : k = 0 := by omega
    rfl
  | cons t ts ih =>
    rw [covers, Bool.and_eq_true, Bool.and_eq_true] at h
    obtain ⟨⟨_, hs⟩, hc⟩ := h
    have hb := step_brace n prev t
    have hsound : 0 ≤ (n.step prev t).brace := by
      simp only [isSound, Bool.and_eq_true, decide_eq_true_eq] at hs
      exact hs.2
    rw [nests]
    split
    · rw [if_pos ‹_›] at hb
      exact ih hc (by omega)
    · rw [if_neg ‹_›] at hb
      split
      · rw [if_pos ‹_›] at hb
        rw [Bool.and_eq_true, bne_iff_ne]
        exact ⟨by omega, ih hc (by omega)⟩
      · rw [if_neg ‹_›] at hb
        exact ih hc (by omega)

end Balanced
end HeaderBridge
