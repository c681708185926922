import HeaderBridge.Proofs.Source.Cut

namespace HeaderBridge
namespace Lexeme

/-- `l` is what is cut off the front of its own text followed by `rest`. -/
def Fits (l : Lexeme) (rest : Text) : Prop :=
  ∃ a tail, l.text = a :: tail ∧ next a (tail ++ rest) = (l.kind, tail.length)

section FirstByte

variable {k : TokenKind} {a : UInt8} {tail rest : Text}

theorem fits_cons : Fits ⟨k, a :: tail⟩ rest ↔ next a (tail ++ rest) = (k, tail.length) := by
  constructor
  · rintro ⟨b, t, e, h⟩
    obtain ⟨rfl, rfl⟩ := List.cons.inj e
    exact h
  · exact fun h => ⟨a, tail, rfl, h⟩

theorem fits_slash : Fits ⟨k, '/' :: tail⟩ rest ↔
    (k = .blockComment ∧ ∃ t : Text, tail = ('*' : UInt8) :: t ∧ commentLength t = some t.length) ∨
    (k = .lineComment ∧ ∃ t : Text, tail = ('/' : UInt8) :: t ∧ (∀ b ∈ t, b ≠ newline) ∧
      ∀ b ∈ rest.head?, b = newline) ∨
    (k = .punct ∧ tail = [] ∧ rest.head? ≠ some ('/' : UInt8) ∧
      (rest.head? = some ('*' : UInt8) → commentLength rest.tail = none)) := by
  rw [fits_cons, next_slash]
  cases tail with
  | nil =>
    rw [List.nil_append, List.length_nil]
    split
    · rename_i hs
      cases hc : commentLength rest.tail <;> simp +decide [hs, eq_comm (b := k)]
    · rename_i hs
      split
      · rename_i hl
        have hp : runLength (· != newline) rest ≠ 0 := by
          cases rest with
          | nil => simp at hl
          | cons b r =>
            obtain rfl : b = '/' := by simpa using hl
            simp +decide [runLength]
        simp [hl, hp]
      · rename_i hl
        simp [hs, hl, eq_comm]
  | cons b t =>
    simp only [List.cons_append, List.head?_cons, List.tail_cons, List.length_cons,
      Option.some.injEq, List.cons.injEq, reduceCtorEq, false_and, and_false, or_false]
    by_cases hb : b = '*'
    · subst hb
      have hc : commentLength (t ++ rest) = some t.length ↔ commentLength t = some t.length :=
        ⟨commentLength_of_append, fun h => commentLength_append h rest⟩
      cases h : commentLength (t ++ rest) <;> rw [h] at hc <;>
        simp +decide [← hc, eq_comm (b := k)]
    · by_cases hb' : b = '/'
      · subst hb'
        have hr := runLength_append_eq (p := (· != newline)) (x := ('/' : UInt8) :: t) (y := rest)
        simp only [List.cons_append, List.length_cons] at hr
        simp +decide [hr, eq_comm (b := k)]
      · simp [hb, hb']

theorem fits_hash :
    Fits ⟨k, '#' :: tail⟩ rest ↔ k = .directive ∧ directiveLength (tail ++ rest) = tail.length := by
  rw [fits_cons, next_hash, Prod.mk.injEq, eq_comm (a := k)]

theorem fits_colon : Fits ⟨k, ':' :: tail⟩ rest ↔
    (k = .scope ∧ tail = [(':' : UInt8)]) ∨
    (k = .punct ∧ tail = [] ∧ rest.head? ≠ some (':' : UInt8)) := by
  rw [fits_cons, next_colon]
  cases tail with
  | nil => split <;> simp_all [eq_comm]
  | cons b t => split <;> simp_all [eq_comm]

theorem literal_rule {q : UInt8} {literal : TokenKind} :
    (match literalLength q (tail ++ rest) with
      | some n => (literal, n)
      | none => (.punct, 0)) = (k, tail.length) ↔
    (k = literal ∧ literalLength q tail = some tail.length) ∨
      (k = .punct ∧ tail = [] ∧ literalLength q rest = none) := by
  simp only [literalLength_eq]
  have hl : literalRest q false (tail ++ rest) = some tail.length ↔
      literalRest q false tail = some tail.length :=
    ⟨literalRest_of_append, fun h => literalRest_append h rest⟩
  cases h : literalRest q false (tail ++ rest) with
  | none =>
    rw [h] at hl
    cases tail with
    | nil => simp_all [eq_comm (b := k)]
    | cons b t =>
      simp only [List.length_cons, reduceCtorEq, false_iff] at hl
      simp [hl]
  | some n =>
    rw [h] at hl
    have : tail = [] → literalRest q false rest ≠ none := by rintro rfl; simp_all
    simp only [Prod.mk.injEq, ← hl, Option.some.injEq, eq_comm (b := k)]
    grind

theorem fits_doubleQuote : Fits ⟨k, '"' :: tail⟩ rest ↔
    (k = .stringLiteral ∧ literalLength '"' tail = some tail.length) ∨
    (k = .punct ∧ tail = [] ∧ literalLength '"' rest = none) := by
  rw [fits_cons, next_doubleQuote]
  exact literal_rule

theorem fits_quote : Fits ⟨k, '\'' :: tail⟩ rest ↔
    (k = .charLiteral ∧ literalLength '\'' tail = some tail.length) ∨
    (k = .punct ∧ tail = [] ∧ literalLength '\'' rest = none) := by
  rw [fits_cons, next_quote]
  exact literal_rule

theorem fits_nameStart (ha : Text.isNameStart a = true) : Fits ⟨k, a :: tail⟩ rest ↔
    k = .ident ∧ (∀ b ∈ tail, Text.isNameByte b = true) ∧
      ∀ b ∈ rest.head?, Text.isNameByte b = false := by
  rw [fits_cons, next_nameStart ha, Prod.mk.injEq, runLength_append_eq, eq_comm (a := k)]

theorem fits_digit (ha : Text.isDigitByte a = true) : Fits ⟨k, a :: tail⟩ rest ↔
    k = .number ∧ (∀ b ∈ tail, isNumberByte b = true) ∧
      ∀ b ∈ rest.head?, isNumberByte b = false := by
  rw [fits_cons, next_digit ha, Prod.mk.injEq, runLength_append_eq, eq_comm (a := k)]

theorem fits_blankByte (ha : isBlankByte a = true) : Fits ⟨k, a :: tail⟩ rest ↔
    k = .blank ∧ (∀ b ∈ tail, isBlankByte b = true) ∧
      ∀ b ∈ rest.head?, isBlankByte b = false := by
  rw [fits_cons, next_blankByte ha, Prod.mk.injEq, runLength_append_eq, eq_comm (a := k)]

theorem fits_plainSign (ha : isPlainSign a = true) : Fits ⟨k, a :: tail⟩ rest ↔
    k = .punct ∧ (Text.firstChar a (tail ++ rest)).2 = tail.length + 1 := by
  have := Text.firstChar_pos a (tail ++ rest)
  rw [fits_cons, next_plainSign ha, Prod.mk.injEq, eq_comm (a := k)]
  exact and_congr_right fun _ => by omega

/-- The sign with the given bytes ends where `rest` begins. -/
structure SignStops (sign rest : Text) : Prop where
  slash : sign = [('/' : UInt8)] → rest.head? ≠ some ('/' : UInt8) ∧
    (rest.head? = some ('*' : UInt8) → commentLength rest.tail = none)
  colon : sign = [(':' : UInt8)] → rest.head? ≠ some (':' : UInt8)
  quote : ∀ q : UInt8, sign = [q] → q = '"' ∨ q = '\'' → literalLength q rest = none
  char : ∀ a tail, sign = a :: tail → (Text.firstChar a (tail ++ rest)).2 = tail.length + 1

def Stops (l : Lexeme) (rest : Text) : Prop :=
  match l.kind with
  | .blockComment | .stringLiteral | .charLiteral | .scope => True
  | .lineComment => ∀ b ∈ rest.head?, b = newline
  | .directive => directiveLength (l.text.tail ++ rest) = l.text.tail.length
  | .ident => ∀ b ∈ rest.head?, Text.isNameByte b = false
  | .number => ∀ b ∈ rest.head?, isNumberByte b = false
  | .blank => ∀ b ∈ rest.head?, isBlankByte b = false
  | .punct => SignStops l.text rest

theorem signStops_ascii (ha : Text.isHigh a = false) : SignStops [a] rest ↔
    (a = '/' → rest.head? ≠ some ('/' : UInt8) ∧
      (rest.head? = some ('*' : UInt8) → commentLength rest.tail = none)) ∧
    (a = ':' → rest.head? ≠ some (':' : UInt8)) ∧
    (a = '"' ∨ a = '\'' → literalLength a rest = none) := by
  constructor
  · intro h
    exact ⟨fun e => h.slash (by rw [e]), fun e => h.colon (by rw [e]), h.quote a rfl⟩
  · rintro ⟨h1, h2, h3⟩
    refine ⟨fun e => h1 (List.cons.inj e).1, fun e => h2 (List.cons.inj e).1, ?_, ?_⟩
    · rintro q e
      obtain rfl := (List.cons.inj e).1
      exact h3
    · rintro b tail e
      obtain ⟨rfl, rfl⟩ := List.cons.inj e
      exact Text.firstChar_snd_of_not_high ha _

theorem signStops_plainSign (ha : isPlainSign a = true) :
    SignStops (a :: tail) rest ↔ (Text.firstChar a (tail ++ rest)).2 = tail.length + 1 := by
  have ne : ∀ {b : UInt8}, isPlainSign b = false → a ≠ b := by
    rintro b hb rfl
    simp [hb] at ha
  constructor
  · intro h
    exact h.char a tail rfl
  · refine fun h => ⟨fun e => ?_, fun e => ?_, fun q e hq => ?_, fun b t e => ?_⟩
    · exact absurd (List.cons.inj e).1 (ne (by decide))
    · exact absurd (List.cons.inj e).1 (ne (by decide))
    · obtain rfl := (List.cons.inj e).1
      rcases hq with rfl | rfl <;> exact absurd rfl (ne (by decide))
    · obtain ⟨rfl, rfl⟩ := List.cons.inj e
      exact h

end FirstByte

def SignShape : Text → Prop
  | [] => False
  | a :: t => isPlainSign a = true ∨ t = [] ∧ (a = '/' ∨ a = ':' ∨ a = '"' ∨ a = '\'')

/-- The bytes that a lexeme of each kind consists of. -/
def Shape (l : Lexeme) : Prop :=
  match l.kind with
  | .blockComment => ∃ t : Text, l.text = ('/' : UInt8) :: ('*' : UInt8) :: t ∧
      commentLength t = some t.length
  | .lineComment => ∃ t : Text, l.text = ('/' : UInt8) :: ('/' : UInt8) :: t ∧ ∀ b ∈ t, b ≠ newline
  | .directive => ∃ t : Text, l.text = ('#' : UInt8) :: t
  | .stringLiteral => ∃ t : Text, l.text = ('"' : UInt8) :: t ∧ literalLength '"' t = some t.length
  | .charLiteral => ∃ t : Text, l.text = ('\'' : UInt8) :: t ∧ literalLength '\'' t = some t.length
  | .ident => ∃ (a : UInt8) (t : Text), l.text = a :: t ∧ Text.isNameStart a = true ∧
      ∀ b ∈ t, Text.isNameByte b = true
  | .number => ∃ (a : UInt8) (t : Text), l.text = a :: t ∧ Text.isDigitByte a = true ∧
      ∀ b ∈ t, isNumberByte b = true
  | .scope => l.text = [(':' : UInt8), (':' : UInt8)]
  | .blank => l.text ≠ [] ∧ ∀ b ∈ l.text, isBlankByte b = true
  | .punct => SignShape l.text

theorem Fits.shape {l : Lexeme} {rest : Text} (h : Fits l rest) : Shape l := by
  obtain ⟨k, text⟩ := l
  obtain ⟨a, tail, rfl, _⟩ := id h
  rcases firstByte_cases a with rfl | rfl | rfl | rfl | rfl | ha | ha | ha | ha
  · rcases fits_slash.1 h with ⟨rfl, t, rfl, ht⟩ | ⟨rfl, t, rfl, hn, _⟩ | ⟨rfl, rfl, _⟩
    · exact ⟨t, rfl, ht⟩
    · exact ⟨t, rfl, hn⟩
    · exact .inr ⟨rfl, by simp⟩
  · obtain ⟨rfl, _⟩ := fits_hash.1 h
    exact ⟨tail, rfl⟩
  · rcases fits_doubleQuote.1 h with ⟨rfl, hl⟩ | ⟨rfl, rfl, _⟩
    · exact ⟨tail, rfl, hl⟩
    · exact .inr ⟨rfl, by simp⟩
  · rcases fits_quote.1 h with ⟨rfl, hl⟩ | ⟨rfl, rfl, _⟩
    · exact ⟨tail, rfl, hl⟩
    · exact .inr ⟨rfl, by simp⟩
  · rcases fits_colon.1 h with ⟨rfl, rfl⟩ | ⟨rfl, rfl, _⟩
    · exact rfl
    · exact .inr ⟨rfl, by simp⟩
  · obtain ⟨rfl, ht, _⟩ := (fits_nameStart ha).1 h
    exact ⟨a, tail, rfl, ha, ht⟩
  · obtain ⟨rfl, ht, _⟩ := (fits_digit ha).1 h
    exact ⟨a, tail, rfl, ha, ht⟩
  · obtain ⟨rfl, ht, _⟩ := (fits_blankByte ha).1 h
    exact ⟨by simp, by simpa [ha] using ht⟩
  · obtain ⟨rfl, _⟩ := (fits_plainSign ha).1 h
    exact .inl ha

theorem fits_punct_iff {text rest : Text} (h : SignShape text) :
    Fits ⟨.punct, text⟩ rest ↔ SignStops text rest := by
  cases text with
  | nil => exact h.elim
  | cons a tail =>
    rcases h with ha | ⟨rfl, rfl | rfl | rfl | rfl⟩
    · simp [fits_plainSign ha, signStops_plainSign ha]
    · simp +decide [fits_slash, signStops_ascii]
    · simp +decide [fits_colon, signStops_ascii]
    · simp +decide [fits_doubleQuote, signStops_ascii]
    · simp +decide [fits_quote, signStops_ascii]

/-- A lexeme is cut off before `rest` if its bytes have the right shape and it ends there: what
follows matters only through `Stops`. -/
theorem Shape.fits_iff {l : Lexeme} (h : Shape l) (rest : Text) : Fits l rest ↔ Stops l rest := by
  obtain ⟨k, text⟩ := l
  cases k with
  | blockComment =>
    obtain ⟨t, rfl, ht⟩ : ∃ t : Text, text = ('/' : UInt8) :: ('*' : UInt8) :: t ∧ _ := h
    simp [fits_slash, Stops, ht]
  | lineComment =>
    obtain ⟨t, rfl, ht⟩ : ∃ t : Text, text = ('/' : UInt8) :: ('/' : UInt8) :: t ∧ _ := h
    simpa [fits_slash, Stops] using fun _ => ht
  | directive =>
    obtain ⟨t, rfl⟩ : ∃ t : Text, text = ('#' : UInt8) :: t := h
    simp [fits_hash, Stops]
  | stringLiteral =>
    obtain ⟨t, rfl, ht⟩ : ∃ t : Text, text = ('"' : UInt8) :: t ∧ _ := h
    simp [fits_doubleQuote, Stops, ht]
  | charLiteral =>
    obtain ⟨t, rfl, ht⟩ : ∃ t : Text, text = ('\'' : UInt8) :: t ∧ _ := h
    simp [fits_quote, Stops, ht]
  | ident =>
    obtain ⟨a, t, rfl, ha, ht⟩ : ∃ (a : UInt8) (t : Text), text = a :: t ∧ _ := h
    simpa [fits_nameStart ha, Stops] using fun _ => ht
  | number =>
    obtain ⟨a, t, rfl, ha, ht⟩ : ∃ (a : UInt8) (t : Text), text = a :: t ∧ _ := h
    simpa [fits_digit ha, Stops] using fun _ => ht
  | scope =>
    obtain rfl : text = [(':' : UInt8), (':' : UInt8)] := h
    simp [fits_colon, Stops]
  | blank =>
    obtain ⟨hne, ht⟩ : text ≠ [] ∧ ∀ b ∈ text, isBlankByte b = true := h
    obtain ⟨a, t, rfl⟩ := List.exists_cons_of_ne_nil hne
    simpa [fits_blankByte (ht a (by simp)), Stops] using fun _ b hb => ht b (by simp [hb])
  | punct => exact fits_punct_iff h

theorem Fits.stops {l : Lexeme} {rest : Text} (h : Fits l rest) : Stops l rest :=
  (h.shape.fits_iff rest).1 h

theorem Fits.of_stops {l : Lexeme} {r rest : Text} (h : Fits l r) (hs : Stops l rest) :
    Fits l rest :=
  (h.shape.fits_iff rest).2 hs

def spelling (ls : List Lexeme) : Text := ls.flatMap Lexeme.text

@[simp] theorem spelling_nil : spelling [] = [] := rfl

@[simp] theorem spelling_cons (l : Lexeme) (ls : List Lexeme) :
    spelling (l :: ls) = l.text ++ spelling ls := rfl

@[simp] theorem spelling_append (ls ms : List Lexeme) :
    spelling (ls ++ ms) = spelling ls ++ spelling ms := List.flatMap_append

/-- Each lexeme ends where the next one begins, and the last where `rest` begins. -/
def Chain : List Lexeme → Text → Prop
  | [], _ => True
  | l :: ls, rest => Fits l (spelling ls ++ rest) ∧ Chain ls rest

theorem chain_append {ls ms : List Lexeme} {rest : Text} :
    Chain (ls ++ ms) rest ↔ Chain ls (spelling ms ++ rest) ∧ Chain ms rest := by
  induction ls with
  | nil => simp [Chain]
  | cons l ls ih => simp [Chain, ih, and_assoc]

theorem ofText_cons (a : UInt8) (rest : Text) :
    ofText (a :: rest) = ⟨(next a rest).1, a :: rest.take (next a rest).2⟩ ::
      ofText (rest.drop (next a rest).2) := by
  rw [ofText]

theorem ofText_of_fits {l : Lexeme} {rest : Text} (h : Fits l rest) :
    ofText (l.text ++ rest) = l :: ofText rest := by
  obtain ⟨a, tail, ht, hn⟩ := h
  rw [ht, List.cons_append, ofText_cons, hn, List.take_left, List.drop_left, ← ht]

theorem ofText_of_chain {ls : List Lexeme} {rest : Text} (h : Chain ls rest) :
    ofText (spelling ls ++ rest) = ls ++ ofText rest := by
  induction ls with
  | nil => rfl
  | cons l ls ih =>
    rw [spelling_cons, List.append_assoc, ofText_of_fits h.1, ih h.2, List.cons_append]

theorem spelling_ofText (t : Text) : spelling (ofText t) = t := by
  fun_induction ofText t with
  | case1 => rfl
  | case2 a rest step ih => simp [ih]

theorem chain_ofText (t : Text) : Chain (ofText t) [] := by
  fun_induction ofText t with
  | case1 => trivial
  | case2 a rest step ih =>
    refine ⟨⟨a, rest.take step.2, rfl, ?_⟩, ih⟩
    have hl : step.2 ≤ rest.length := next_le_length a rest
    rw [spelling_ofText, List.append_nil, List.take_append_drop, List.length_take_of_le hl]

theorem ofText_eq_iff {t : Text} {ls : List Lexeme} :
    ofText t = ls ↔ t = spelling ls ∧ Chain ls [] := by
  constructor
  · rintro rfl
    exact ⟨(spelling_ofText t).symm, chain_ofText t⟩
  · rintro ⟨rfl, h⟩
    simpa [ofText] using ofText_of_chain h

end Lexeme
end HeaderBridge
