import HeaderBridge.Proofs.Text.Cells
import HeaderBridge.Source.Token

namespace HeaderBridge
namespace Lexeme

theorem runLength_append_eq {p : UInt8 → Bool} {x y : Text} :
    runLength p (x ++ y) = x.length ↔ (∀ b ∈ x, p b = true) ∧ ∀ b ∈ y.head?, p b = false := by
  induction x with
  | nil => cases y <;> simp [runLength, List.takeWhile_cons]
  | cons a x ih =>
    cases ha : p a with
    | false => simp [runLength, ha]
    | true =>
      simp only [runLength] at ih
      simp [runLength, ha, ih]

theorem two_le_commentLength {x : Text} {n : Nat} (h : commentLength x = some n) : 2 ≤ n := by
  fun_induction commentLength x generalizing n with
  | case1 a b rest hab => simp at h; omega
  | case2 a b rest hab ih =>
    obtain ⟨m, hm, rfl⟩ := Option.map_eq_some_iff.1 h
    have := ih hm
    omega
  | case3 => simp at h

theorem commentLength_le_length {x : Text} {n : Nat} (h : commentLength x = some n) :
    n ≤ x.length := by
  fun_induction commentLength x generalizing n with
  | case1 a b rest hab => simp at h; simp; omega
  | case2 a b rest hab ih =>
    obtain ⟨m, hm, rfl⟩ := Option.map_eq_some_iff.1 h
    have := ih hm
    simp at this ⊢
    omega
  | case3 => simp at h

theorem commentLength_eq_length {x : Text} (h : commentLength x = some x.length) :
    ∃ u : Text, x = u ++ [('*' : UInt8), ('/' : UInt8)] := by
  fun_induction commentLength x with
  | case1 a b rest hab =>
    obtain rfl : rest = [] := by simpa using h
    obtain ⟨rfl, rfl⟩ : a = '*' ∧ b = '/' := by simpa using hab
    exact ⟨[], rfl⟩
  | case2 a b rest hab ih =>
    obtain ⟨u, hu⟩ := ih (by simpa using h)
    exact ⟨a :: u, by rw [hu, List.cons_append]⟩
  | case3 => simp at h

theorem commentLength_append {x : Text} {n : Nat} (h : commentLength x = some n) (y : Text) :
    commentLength (x ++ y) = some n := by
  fun_induction commentLength x generalizing n with
  | case1 a b rest hab => simpa [commentLength, hab] using h
  | case2 a b rest hab ih =>
    obtain ⟨m, hm, rfl⟩ := Option.map_eq_some_iff.1 h
    have := ih hm
    rw [List.cons_append] at this
    simp [commentLength, hab, this]
  | case3 => simp at h

theorem commentLength_of_append {x y : Text} (h : commentLength (x ++ y) = some x.length) :
    commentLength x = some x.length := by
  fun_induction commentLength x with
  | case1 a b rest hab => simpa [commentLength, hab] using h
  | case2 a b rest hab ih =>
    have h' : commentLength (b :: rest ++ y) = some (b :: rest).length := by
      simpa [commentLength, hab] using h
    simp [ih h']
  | case3 x hx =>
    have := two_le_commentLength h
    match x with
    | [] => simp at this
    | [a] => simp at this
    | a :: b :: rest => exact absurd rfl (hx a b rest)

/-- `literalLength` one byte at a time; the flag says whether an open backslash precedes. -/
def literalRest (q : UInt8) : Bool → Text → Option Nat
  | _, [] => none
  | esc, a :: rest =>
    if a == q && !esc then some 1
    else if a == newline then none
    else (literalRest q (a == '\\' && !esc) rest).map (· + 1)

theorem literalLength_eq (q : UInt8) (t : Text) : literalLength q t = literalRest q false t := by
  fun_induction literalLength q t with
  | case1 => rfl
  | case2 a rest haq => simp [literalRest, haq]
  | case3 a rest haq han => simp [literalRest, haq, han]
  | case4 a haq han hab => simp [literalRest, haq, han]
  | case5 a haq han hab b rest hb => simp [literalRest, haq, han, hab, hb]
  | case6 a haq han hab b rest hb ih => simp [literalRest, haq, han, hab, hb, ih, Function.comp_def]
  | case7 a rest haq han hab ih => simp [literalRest, haq, han, hab, ih]

theorem literalRest_cons_eq_none {q a : UInt8} {esc : Bool} {rest : Text} :
    literalRest q esc (a :: rest) = none ↔ ¬(a = q ∧ esc = false) ∧
      (a = newline ∨ literalRest q (a == '\\' && !esc) rest = none) := by
  simp only [literalRest]
  split
  · simp_all
  · split <;> simp_all

theorem literalRest_le_length {q : UInt8} {esc : Bool} {x : Text} {n : Nat}
    (h : literalRest q esc x = some n) : n ≤ x.length := by
  induction x generalizing esc n with
  | nil => simp [literalRest] at h
  | cons a x ih =>
    simp only [literalRest] at h
    grind [Option.map_eq_some_iff]

theorem literalRest_append {q : UInt8} {esc : Bool} {x : Text} {n : Nat}
    (h : literalRest q esc x = some n) (y : Text) : literalRest q esc (x ++ y) = some n := by
  induction x generalizing esc n with
  | nil => simp [literalRest] at h
  | cons a x ih =>
    simp only [literalRest, List.cons_append] at h ⊢
    grind [Option.map_eq_some_iff]

theorem literalRest_of_append {q : UInt8} {esc : Bool} {x y : Text}
    (h : literalRest q esc (x ++ y) = some x.length) : literalRest q esc x = some x.length := by
  induction x generalizing esc with
  | nil =>
    cases y with
    | nil => exact h
    | cons b y =>
      simp only [literalRest, List.nil_append] at h
      grind [Option.map_eq_some_iff]
  | cons a x ih =>
    simp only [literalRest, List.cons_append] at h ⊢
    grind [Option.map_eq_some_iff]

/-- `directiveLength` one byte at a time; the flag says whether a backslash precedes. -/
def directiveRest : Bool → Text → Nat
  | _, [] => 0
  | esc, a :: rest => if a == newline && !esc then 0 else directiveRest (a == '\\') rest + 1

theorem directiveLength_eq (t : Text) : directiveLength t = directiveRest false t := by
  fun_induction directiveLength t with
  | case1 => rfl
  | case2 a rest ha => simp [directiveRest, ha]
  | case3 a ha => simp [directiveRest, ha]
  | case4 a ha b rest hab ih =>
    obtain ⟨rfl, rfl⟩ : a = '\\' ∧ b = newline := by simpa using hab
    have hb : (newline == ('\\' : UInt8)) = false := by decide
    simp [directiveRest, ha, hb, ih]
  | case5 a ha b rest hab ih =>
    rw [directiveRest, ih]
    cases hb : a == ('\\' : UInt8) <;> simp_all [directiveRest]

theorem directiveRest_le_length (esc : Bool) (x : Text) : directiveRest esc x ≤ x.length := by
  fun_induction directiveRest esc x <;> simp_all

theorem directiveRest_append {esc : Bool} {x y z : Text} (hyz : y.head? = z.head?)
    (h : directiveRest esc (x ++ y) = x.length) : directiveRest esc (x ++ z) = x.length := by
  induction x generalizing esc with
  | nil =>
    cases z with
    | nil => rfl
    | cons b z =>
      cases y with
      | nil => simp at hyz
      | cons c y =>
        simp only [directiveRest, List.nil_append] at h ⊢
        grind
  | cons a x ih =>
    simp only [directiveRest, List.cons_append] at h ⊢
    grind

theorem directiveRest_stop {esc : Bool} {x y : Text} (h : directiveRest esc (x ++ y) = x.length) :
    ∀ b ∈ y.head?, b = newline := by
  induction x generalizing esc with
  | nil =>
    cases y with
    | nil => simp
    | cons b y =>
      simp only [directiveRest, List.nil_append] at h
      grind
  | cons a x ih =>
    simp only [directiveRest, List.cons_append] at h
    grind

section FirstByte

theorem next_slash (rest : Text) : next '/' rest =
    if rest.head? = some ('*' : UInt8) then
      match commentLength rest.tail with
      | some n => (.blockComment, n + 1)
      | none => (.punct, 0)
    else if rest.head? = some ('/' : UInt8) then (.lineComment, runLength (· != newline) rest)
    else (.punct, 0) := by
  have hf := Text.firstChar_snd_of_not_high (a := '/') (by decide) rest
  by_cases hs : rest.head? = some ('*' : UInt8)
  · cases hc : commentLength rest.tail <;> simp +decide [next, hs, hc, hf]
  · by_cases hl : rest.head? = some ('/' : UInt8)
    · simp +decide [next, hl]
    · simp +decide [next, hs, hl, hf]

theorem next_hash (rest : Text) : next '#' rest = (.directive, directiveLength rest) := by
  simp +decide [next]

theorem next_doubleQuote (rest : Text) : next '"' rest =
    match literalLength '"' rest with
    | some n => (.stringLiteral, n)
    | none => (.punct, 0) := by
  have hf := Text.firstChar_snd_of_not_high (a := '"') (by decide) rest
  cases hl : literalLength '"' rest <;> simp +decide [next, hl, hf]

theorem next_quote (rest : Text) : next '\'' rest =
    match literalLength '\'' rest with
    | some n => (.charLiteral, n)
    | none => (.punct, 0) := by
  have hf := Text.firstChar_snd_of_not_high (a := '\'') (by decide) rest
  cases hl : literalLength '\'' rest <;> simp +decide [next, hl, hf]

theorem next_colon (rest : Text) :
    next ':' rest = if rest.head? = some (':' : UInt8) then (.scope, 1) else (.punct, 0) := by
  have hf := Text.firstChar_snd_of_not_high (a := ':') (by decide) rest
  by_cases hc : rest.head? = some (':' : UInt8) <;> simp +decide [next, hc, hf]

def isPlainSign (a : UInt8) : Bool :=
  !(Text.isNameByte a || isBlankByte a || a == '/' || a == '#' || a == '"' || a == '\'' || a == ':')

theorem not_nameStart_of_digit :
    ∀ a, Text.isDigitByte a = true → Text.isNameStart a = false :=
  forall_byte (by decide +kernel)

theorem forall_blankByte {p : UInt8 → Prop} (h : p '\t' ∧ p newline ∧ p 0x0C ∧ p '\r' ∧ p ' ') :
    ∀ a, isBlankByte a = true → p a := by
  obtain ⟨h1, h2, h3, h4, h5⟩ := h
  intro a ha
  simp only [isBlankByte, Bool.or_eq_true, beq_iff_eq] at ha
  rcases ha with (((rfl | rfl) | rfl) | rfl) | rfl <;> assumption

theorem not_nameByte_of_blankByte : ∀ a, isBlankByte a = true → Text.isNameByte a = false :=
  forall_blankByte (by decide)

theorem next_nameStart {a : UInt8} (h : Text.isNameStart a = true) (rest : Text) :
    next a rest = (.ident, runLength Text.isNameByte rest) := by
  have h1 : a ≠ '/' := by rintro rfl; revert h; decide
  have h2 : a ≠ '#' := by rintro rfl; revert h; decide
  have h3 : a ≠ '"' := by rintro rfl; revert h; decide
  have h4 : a ≠ '\'' := by rintro rfl; revert h; decide
  simp [next, h, h1, h2, h3, h4]

theorem next_digit {a : UInt8} (h : Text.isDigitByte a = true) (rest : Text) :
    next a rest = (.number, runLength isNumberByte rest) := by
  have h1 : a ≠ '/' := by rintro rfl; revert h; decide
  have h2 : a ≠ '#' := by rintro rfl; revert h; decide
  have h3 : a ≠ '"' := by rintro rfl; revert h; decide
  have h4 : a ≠ '\'' := by rintro rfl; revert h; decide
  have h5 := not_nameStart_of_digit a h
  simp [next, h, h1, h2, h3, h4, h5]

theorem next_blankByte {a : UInt8} (h : isBlankByte a = true) (rest : Text) :
    next a rest = (.blank, runLength isBlankByte rest) := by
  have h1 : a ≠ '/' := by rintro rfl; revert h; decide
  have h2 : a ≠ '#' := by rintro rfl; revert h; decide
  have h3 : a ≠ '"' := by rintro rfl; revert h; decide
  have h4 : a ≠ '\'' := by rintro rfl; revert h; decide
  have h5 : a ≠ ':' := by rintro rfl; revert h; decide
  have h6 := not_nameByte_of_blankByte a h
  simp only [Text.isNameByte, Bool.or_eq_false_iff] at h6
  simp [next, h, h1, h2, h3, h4, h5, h6]

theorem next_plainSign {a : UInt8} (h : isPlainSign a = true) (rest : Text) :
    next a rest = (.punct, (Text.firstChar a rest).2 - 1) := by
  simp only [isPlainSign, Text.isNameByte, Bool.not_eq_true', Bool.or_eq_false_iff,
    beq_eq_false_iff_ne] at h
  obtain ⟨⟨⟨⟨⟨⟨⟨h1, h2⟩, h3⟩, h4⟩, h5⟩, h6⟩, h7⟩, h8⟩ := h
  simp [next, h1, h2, h3, h4, h5, h6, h7, h8]

theorem firstByte_cases (a : UInt8) :
    a = '/' ∨ a = '#' ∨ a = '"' ∨ a = '\'' ∨ a = ':' ∨ Text.isNameStart a = true ∨
      Text.isDigitByte a = true ∨ isBlankByte a = true ∨ isPlainSign a = true := by
  cases h : isPlainSign a with
  | true => simp
  | false =>
    simp only [isPlainSign, Text.isNameByte, Bool.not_eq_false', Bool.or_eq_true, beq_iff_eq] at h
    grind

theorem next_le_length (a : UInt8) (rest : Text) : (next a rest).2 ≤ rest.length := by
  have hrun (p : UInt8 → Bool) : runLength p rest ≤ rest.length :=
    (List.takeWhile_prefix p).length_le
  have hliteral (q : UInt8) (k : TokenKind) : (match literalLength q rest with
      | some n => (k, n)
      | none => (.punct, 0)).2 ≤ rest.length := by
    split
    · rename_i n h
      exact literalRest_le_length (literalLength_eq q rest ▸ h)
    · exact Nat.zero_le _
  rcases firstByte_cases a with rfl | rfl | rfl | rfl | rfl | ha | ha | ha | ha
  · rw [next_slash]
    split
    · rename_i hs
      split
      · rename_i n hn
        have := commentLength_le_length hn
        cases rest with
        | nil => simp at hs
        | cons b r => simpa using this
      · exact Nat.zero_le _
    · split
      · exact hrun _
      · exact Nat.zero_le _
  · rw [next_hash, directiveLength_eq]
    exact directiveRest_le_length false rest
  · rw [next_doubleQuote]
    exact hliteral _ _
  · rw [next_quote]
    exact hliteral _ _
  · rw [next_colon]
    split
    · cases rest <;> simp_all
    · exact Nat.zero_le _
  · rw [next_nameStart ha]
    exact hrun _
  · rw [next_digit ha]
    exact hrun _
  · rw [next_blankByte ha]
    exact hrun _
  · rw [next_plainSign ha]
    have := Text.firstChar_le_length a rest
    dsimp only
    omega

end FirstByte

end Lexeme
end HeaderBridge
