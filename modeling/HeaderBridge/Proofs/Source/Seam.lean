import HeaderBridge.Proofs.Source.Chain

namespace HeaderBridge
namespace Lexeme

theorem directiveRest_of_append {esc : Bool} {x y : Text}
    (h : directiveRest esc (x ++ y) = x.length) : directiveRest esc x = x.length := by
  induction x generalizing esc with
  | nil => rfl
  | cons a x ih =>
    simp only [directiveRest, List.cons_append] at h ⊢
    grind

theorem commentLength_eq_none_of_append {x y : Text} (h : commentLength (x ++ y) = none) :
    commentLength x = none := by
  cases hx : commentLength x with
  | none => rfl
  | some n => simp [commentLength_append hx] at h

theorem literalLength_eq_none_of_append {q : UInt8} {x y : Text}
    (h : literalLength q (x ++ y) = none) : literalLength q x = none := by
  rw [literalLength_eq] at h ⊢
  cases hx : literalRest q false x with
  | none => rfl
  | some n => simp [literalRest_append hx] at h

theorem SignStops.of_append {sign r y : Text} (h : SignStops sign (r ++ y)) : SignStops sign r := by
  constructor
  · intro e
    obtain ⟨h1, h2⟩ := h.slash e
    cases r with
    | nil => simp
    | cons b r => exact ⟨h1, fun hb => commentLength_eq_none_of_append (h2 hb)⟩
  · intro e
    have := h.colon e
    cases r with
    | nil => simp
    | cons b r => exact this
  · intro q e hq
    exact literalLength_eq_none_of_append (h.quote q e hq)
  · intro a tail e
    have hc := h.char a tail e
    rw [← List.append_assoc] at hc
    have : (Text.firstChar a (tail ++ r ++ y)).2 ≤ (tail ++ r).length + 1 := by
      rw [hc, List.length_append]
      omega
    rw [← Text.firstChar_append this, hc]

theorem head?_of_append {p : UInt8 → Prop} {r y : Text} (h : ∀ b ∈ (r ++ y).head?, p b) :
    ∀ b ∈ r.head?, p b := by
  cases r with
  | nil => simp
  | cons b r => exact h

theorem Stops.of_append {l : Lexeme} {r y : Text} (h : Stops l (r ++ y)) : Stops l r := by
  obtain ⟨k, text⟩ := l
  cases k with
  | blockComment | stringLiteral | charLiteral | scope => trivial
  | lineComment | ident | number | blank => exact head?_of_append h
  | directive =>
    simp only [Stops, directiveLength_eq] at h ⊢
    cases r with
    | nil => simpa using directiveRest_of_append h
    | cons b r => exact directiveRest_append (y := b :: r ++ y) rfl h
  | punct => exact SignStops.of_append h

theorem Fits.of_append {l : Lexeme} {r y : Text} (h : Fits l (r ++ y)) : Fits l r :=
  h.of_stops h.stops.of_append

theorem Chain.of_append {ls : List Lexeme} {r y : Text} (h : Chain ls (r ++ y)) : Chain ls r := by
  induction ls with
  | nil => trivial
  | cons l ls ih =>
    have h1 := h.1
    rw [← List.append_assoc] at h1
    exact ⟨h1.of_append, ih h.2⟩

theorem ofText_infix {t : Text} (as bs cs : List Lexeme) (h : ofText t = as ++ bs ++ cs) :
    ofText (spelling bs) = bs := by
  have hc := (ofText_eq_iff.1 h).2
  rw [List.append_assoc, chain_append, chain_append] at hc
  have hb : Chain bs ([] ++ (spelling cs ++ [])) := hc.2.1
  exact ofText_eq_iff.2 ⟨rfl, hb.of_append⟩

/-- More text may follow if the lexeme at the seam stops there, and if nothing is left open that the
new text could close. -/
theorem Stops.append {l : Lexeme} {r y : Text} (h : Stops l r) (hseam : r = [] → Stops l y)
    (hy : ∀ b ∈ y.head?, Text.isHigh b = false)
    (hslash : l.text = [('/' : UInt8)] → r.head? = some ('*' : UInt8) →
      commentLength (r ++ y).tail = none)
    (hquote : ∀ q : UInt8, l.text = [q] → q = '"' ∨ q = '\'' → literalLength q (r ++ y) = none) :
    Stops l (r ++ y) := by
  cases r with
  | nil => exact hseam rfl
  | cons b r =>
    obtain ⟨k, text⟩ := l
    cases k with
    | blockComment | stringLiteral | charLiteral | scope => trivial
    | lineComment | ident | number | blank => exact h
    | directive =>
      simp only [Stops, directiveLength_eq] at h ⊢
      exact directiveRest_append (y := b :: r) rfl h
    | punct =>
      have hs : SignStops text (b :: r) := h
      refine ⟨fun e => ⟨(hs.slash e).1, hslash e⟩, fun e => hs.colon e,
        hquote, fun a tail e => ?_⟩
      rw [← List.append_assoc, Text.firstChar_congr (Text.takeWhile_append_of_stop hy)]
      exact hs.char a tail e

def isSeparator (b : UInt8) : Bool := b == ' ' || b == '(' || b == ')' || b == ',' || b == '='

theorem isSeparator_facts : ∀ b, isSeparator b = true → Text.isNameByte b = false ∧
    isNumberByte b = false ∧ Text.isHigh b = false ∧ b ≠ '/' ∧ b ≠ '*' ∧ b ≠ ':' := by
  intro b hb
  simp only [isSeparator, Bool.or_eq_true, beq_iff_eq] at hb
  rcases hb with (((rfl | rfl) | rfl) | rfl) | rfl <;> decide

theorem stops_separator {l : Lexeme} (hf : Fits l []) (hl : l.kind.isSignificant = true) {y : Text}
    (hy : ∀ b ∈ y.head?, isSeparator b = true)
    (hquote : ∀ q : UInt8, l = ⟨.punct, [q]⟩ → q = '"' ∨ q = '\'' → literalLength q y = none) :
    Stops l y := by
  have hy := fun b hb => isSeparator_facts b (hy b hb)
  obtain ⟨k, text⟩ := l
  cases k with
  | blockComment | stringLiteral | charLiteral | scope => trivial
  | lineComment | directive | blank => simp [TokenKind.isSignificant, TokenKind.isComment] at hl
  | ident => exact fun b hb => (hy b hb).1
  | number => exact fun b hb => (hy b hb).2.1
  | punct =>
    have hs : SignStops text [] := hf.stops
    refine ⟨fun _ => ⟨fun h => ?_, fun h => ?_⟩, fun _ h => ?_, fun q e hq => ?_,
      fun a tail e => ?_⟩
    · exact (hy _ h).2.2.2.1 rfl
    · exact absurd rfl (hy _ h).2.2.2.2.1
    · exact (hy _ h).2.2.2.2.2 rfl
    · subst e
      exact hquote q rfl hq
    · rw [Text.firstChar_congr (Text.takeWhile_append_of_stop fun b hb => (hy b hb).2.2.1)]
      simpa using hs.char a tail e

def slash : Lexeme := ⟨.punct, ['/']⟩

def star : Lexeme := ⟨.punct, ['*']⟩

/-- Whether a comment is opened that never ends: its opener is then two signs side by side. -/
def leavesComment : List Lexeme → Bool
  | l :: m :: ls => (l == slash && m == star) || leavesComment (m :: ls)
  | _ => false

theorem eq_slash {l : Lexeme} {rest : Text} (h : Fits l rest) (ht : l.text = [('/' : UInt8)]) :
    l = slash := by
  obtain ⟨k, text⟩ := l
  obtain rfl : text = [('/' : UInt8)] := ht
  rcases fits_slash.1 h with ⟨_, t, ht, _⟩ | ⟨_, t, ht, _⟩ | ⟨rfl, _⟩
  · simp at ht
  · simp at ht
  · rfl

theorem eq_star {l : Lexeme} {rest t : Text} (h : Fits l rest) (ht : l.text = ('*' : UInt8) :: t) :
    l = star := by
  obtain ⟨k, text⟩ := l
  obtain rfl : text = ('*' : UInt8) :: t := ht
  obtain ⟨rfl, hc⟩ := (fits_plainSign (by decide)).1 h
  rw [Text.firstChar_snd_of_not_high (by decide)] at hc
  obtain rfl : t = [] := List.eq_nil_of_length_eq_zero (by omega)
  rfl

theorem Fits.quote_stops {l : Lexeme} {r : Text} {q : UInt8} (h : Fits l r) (ht : l.text = [q])
    (hq : q = '"' ∨ q = '\'') : l = ⟨.punct, [q]⟩ ∧ literalLength q r = none := by
  obtain ⟨k, text⟩ := l
  obtain rfl : text = [q] := ht
  rcases hq with rfl | rfl
  · rcases fits_doubleQuote.1 h with ⟨_, h⟩ | ⟨rfl, _, h⟩
    · simp [literalLength] at h
    · exact ⟨rfl, h⟩
  · rcases fits_quote.1 h with ⟨_, h⟩ | ⟨rfl, _, h⟩
    · simp [literalLength] at h
    · exact ⟨rfl, h⟩

/-- A cut stays the cut before `y` if it leaves no comment open, its last lexeme stops there, and no
quote without a partner finds one in `y`. -/
theorem Chain.seam {ls : List Lexeme} {y : Text} (hc : Chain ls [])
    (hopen : leavesComment ls = false)
    (hy : ∀ b ∈ y.head?, Text.isHigh b = false) (hlast : ∀ l ∈ ls.getLast?, Stops l y)
    (hquote : ∀ (q : UInt8) (r : Text), ⟨.punct, [q]⟩ ∈ ls → q = '"' ∨ q = '\'' →
      literalLength q r = none → literalLength q (r ++ y) = none) : Chain ls y := by
  induction ls with
  | nil => trivial
  | cons l ls ih =>
    obtain ⟨hf, hc⟩ := hc
    rw [List.append_nil] at hf
    have hopen' : leavesComment ls = false := by
      cases ls with
      | nil => rfl
      | cons m ms => exact (Bool.or_eq_false_iff.1 hopen).2
    have hlast' : ∀ m ∈ ls.getLast?, Stops m y := by
      intro m hm
      exact hlast m (by simp [List.getLast?_cons, Option.mem_def.1 hm])
    refine ⟨hf.of_stops (hf.stops.append ?_ hy ?_ ?_),
      ih hc hopen' hlast' fun q r hm => hquote q r (by simp [hm])⟩
    · intro hnil
      cases ls with
      | nil => exact hlast l rfl
      | cons m ms =>
        obtain ⟨a, t, ht, _⟩ := hc.1
        simp [ht] at hnil
    · intro ht hstar
      cases ls with
      | nil => simp at hstar
      | cons m ms =>
        obtain ⟨a, t, hm, _⟩ := id hc.1
        obtain rfl : a = '*' := by simpa [hm] using hstar
        rw [eq_slash hf ht, eq_star hc.1 hm] at hopen
        exact absurd (Bool.or_eq_false_iff.1 hopen).1 (by decide)
    · intro q ht hq
      obtain ⟨hl, hr⟩ := hf.quote_stops ht hq
      exact hquote q _ (by simp [hl]) hq hr

end Lexeme
end HeaderBridge
