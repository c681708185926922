import HeaderBridge.Proofs.Source.Columns
import HeaderBridge.Proofs.Source.Matcher
import Mathlib.Algebra.GroupWithZero.Nat

namespace HeaderBridge

namespace Matcher

def rule : TokenKind → Matcher
  | .blockComment => seq (word "/*") (seq (few (char fun _ => true)) (word "*/"))
  | .lineComment => seq (word "//") (many (char inLine))
  | .directive => seq (word "#") (many (alt (word "\\\n") (char inLine)))
  | .stringLiteral => literal '"'
  | .charLiteral => literal '\''
  | .ident => seq (char nameStart) (many (char Regex.word))
  | .number => seq (char Regex.digit) (many (char inNumber))
  | .scope => word "::"
  | .punct => char fun n => !(space n || Regex.word n)
  | .blank => seq (char space) (many (char space))

end Matcher

namespace Lexeme

def kinds : List TokenKind :=
  [.blockComment, .lineComment, .directive, .stringLiteral, .charLiteral, .ident, .number, .scope,
    .punct, .blank]

/-- The kind whose rule is the first that matches, and what its match leaves. -/
def cut? (t : Text) : Option (TokenKind × Text) :=
  kinds.findSome? fun k => (Matcher.rule k t).head?.map (k, ·)

end Lexeme

namespace Token

/-- Cuts a text that stands at `p` by the rules. There is no result where no rule matches, or where
one matches without taking a byte. -/
def read? (p : Pos) (t : Text) : Option (List Token) :=
  if t = [] then some []
  else match Lexeme.cut? t with
    | none => none
    | some (k, left) =>
      if left.length < t.length then
        let text := t.take (t.length - left.length)
        (read? (p.advance text) left).map (⟨k, text, p⟩ :: ·)
      else none
termination_by t.length

end Token

namespace Matcher

section Rules

variable (a : UInt8) (rest : Text)

@[simp] theorem rule_blockComment : (rule .blockComment (a :: rest)).head? =
    if a = '/' ∧ rest.head? = some ('*' : UInt8) then
      (Lexeme.commentLength rest.tail).map (rest.tail.drop ·)
    else none := by
  change (seq (word [('/' : UInt8), '*']) _ (a :: rest)).head? = _
  rw [seq_word_pair, ← head?_few]
  split <;> rfl

@[simp] theorem rule_lineComment : (rule .lineComment (a :: rest)).head? =
    if a = '/' ∧ rest.head? = some ('/' : UInt8) then some (rest.dropWhile (· != newline))
    else none := by
  change (seq (word [('/' : UInt8), '/']) _ (a :: rest)).head? = _
  rw [seq_word_pair]
  split
  · rename_i h
    cases rest with
    | nil => cases h.2
    | cons b rest =>
      obtain rfl := Option.some.inj h.2
      exact head?_many_char decides_inLine rest
  · rfl

@[simp] theorem rule_directive : (rule .directive (a :: rest)).head? =
    if a = '#' then some (rest.drop (Lexeme.directiveLength rest)) else none := by
  change (seq (word [('#' : UInt8)]) _ (a :: rest)).head? = _
  rw [seq_word_single, ← head?_directive]
  split <;> rfl

@[simp] theorem rule_stringLiteral : (rule .stringLiteral (a :: rest)).head? =
    if a = '"' then (Lexeme.literalLength '"' rest).map (rest.drop ·) else none := by
  by_cases ha : a = '"'
  · rw [if_pos ha, ha]
    exact head?_literal (by decide) (by decide) (by decide) rest
  · rw [if_neg ha, rule, literal, seq_word_single, if_neg ha]
    rfl

@[simp] theorem rule_charLiteral : (rule .charLiteral (a :: rest)).head? =
    if a = '\'' then (Lexeme.literalLength '\'' rest).map (rest.drop ·) else none := by
  by_cases ha : a = '\''
  · rw [if_pos ha, ha]
    exact head?_literal (by decide) (by decide) (by decide) rest
  · rw [if_neg ha, rule, literal, seq_word_single, if_neg ha]
    rfl

@[simp] theorem rule_scope : (rule .scope (a :: rest)).head? =
    if a = ':' ∧ rest.head? = some (':' : UInt8) then some rest.tail else none := by
  change (word [(':' : UInt8), ':'] (a :: rest)).head? = _
  rw [word_pair]
  split <;> rfl

@[simp] theorem rule_punct : (rule .punct (a :: rest)).head? =
    if Lexeme.isBlankByte a || Text.isNameByte a then none
    else some (rest.drop ((Text.firstChar a rest).2 - 1)) := by
  rw [rule, char_cons decides_sign]
  cases Lexeme.isBlankByte a || Text.isNameByte a <;> rfl

/-- A run that starts with a character of one ASCII class and goes on with another. -/
theorem head?_run {c d : Regex.Class} {p q : UInt8 → Bool} (hc : Decides c p) (hd : Decides d q)
    (hascii : c 0x80 = false) :
    (seq (char c) (many (char d)) (a :: rest)).head? =
      if p a then some (rest.dropWhile q) else none := by
  rw [seq, char_cons hc]
  cases ha : p a with
  | false => rfl
  | true =>
    have hlow : Text.isHigh a = false := by
      cases hhigh : Text.isHigh a with
      | false => rfl
      | true =>
        rw [← hc.high a hhigh 0x80 (Nat.le_refl _), hascii] at ha
        cases ha
    rw [Text.firstChar_snd_of_not_high hlow, if_pos rfl, if_pos rfl, List.flatMap_singleton]
    exact head?_many_char hd rest

@[simp] theorem rule_ident : (rule .ident (a :: rest)).head? =
    if Text.isNameStart a then some (rest.dropWhile Text.isNameByte) else none :=
  head?_run a rest decides_nameStart decides_word rfl

@[simp] theorem rule_number : (rule .number (a :: rest)).head? =
    if Text.isDigitByte a then some (rest.dropWhile Lexeme.isNumberByte) else none :=
  head?_run a rest decides_digit decides_inNumber rfl

@[simp] theorem rule_blank : (rule .blank (a :: rest)).head? =
    if Lexeme.isBlankByte a then some (rest.dropWhile Lexeme.isBlankByte) else none :=
  head?_run a rest decides_space decides_space rfl

end Rules

end Matcher

namespace Lexeme

theorem drop_runLength (p : UInt8 → Bool) (t : Text) : t.drop (runLength p t) = t.dropWhile p := by
  have h :=
    congrArg (List.drop (runLength p t)) (List.takeWhile_append_dropWhile (p := p) (l := t)).symm
  rwa [runLength, List.drop_left] at h

/-- The bytes that start a lexeme of a single kind are not those that may start one of two. -/
theorem ne_of_single {a : UInt8}
    (h : (Text.isNameStart a || Text.isDigitByte a || isBlankByte a || isPlainSign a) = true) :
    a ≠ '/' ∧ a ≠ '#' ∧ a ≠ '"' ∧ a ≠ '\'' ∧ a ≠ ':' := by
  have hne (b : UInt8)
      (hb : (Text.isNameStart b || Text.isDigitByte b || isBlankByte b || isPlainSign b) = false) :
      a ≠ b := by
    rintro rfl
    rw [h] at hb
    cases hb
  exact ⟨hne _ rfl, hne _ rfl, hne _ rfl, hne _ rfl, hne _ rfl⟩

theorem not_name_of_plainSign {a : UInt8} (h : isPlainSign a = true) :
    Text.isNameByte a = false ∧ isBlankByte a = false := by
  simp only [isPlainSign, Bool.not_eq_true', Bool.or_eq_false_iff] at h
  exact ⟨h.1.1.1.1.1.1, h.1.1.1.1.1.2⟩

section Cut

variable {a : UInt8} (rest : Text)

theorem cut?_of_single
    (h : (Text.isNameStart a || Text.isDigitByte a || isBlankByte a || isPlainSign a) = true) :
    cut? (a :: rest) =
      if Text.isNameStart a then some (.ident, rest.dropWhile Text.isNameByte)
      else if Text.isDigitByte a then some (.number, rest.dropWhile isNumberByte)
      else if isBlankByte a then some (.blank, rest.dropWhile isBlankByte)
      else some (.punct, rest.drop ((Text.firstChar a rest).2 - 1)) := by
  obtain ⟨h1, h2, h3, h4, h5⟩ := ne_of_single h
  simp only [cut?, kinds, List.findSome?, Matcher.rule_blockComment, Matcher.rule_lineComment,
    Matcher.rule_directive, Matcher.rule_stringLiteral, Matcher.rule_charLiteral,
    Matcher.rule_ident, Matcher.rule_number, Matcher.rule_scope, Matcher.rule_punct,
    Matcher.rule_blank, h1, h2, h3, h4, h5, false_and, if_false, Option.map_none]
  cases hname : Text.isNameStart a with
  | true => rfl
  | false =>
    cases hdigit : Text.isDigitByte a with
    | true => rfl
    | false =>
      have hbyte : Text.isNameByte a = false := by rw [Text.isNameByte, hname, hdigit]; rfl
      cases hblank : isBlankByte a <;> simp [hbyte]

theorem cut?_cons (a : UInt8) :
    cut? (a :: rest) = some ((next a rest).1, rest.drop (next a rest).2) := by
  have hone (c : UInt8) (hc : Text.isHigh c = false) : rest.drop ((Text.firstChar c rest).2 - 1) =
      rest := by
    rw [Text.firstChar_snd_of_not_high hc]
    rfl
  rcases firstByte_cases a with rfl | rfl | rfl | rfl | rfl | ha | ha | ha | ha
  · have hself := hone '/' (by decide)
    rw [next_slash]
    by_cases hs : rest.head? = some ('*' : UInt8)
    · cases hc : commentLength rest.tail <;> simp +decide [cut?, kinds, hs, hc, hself]
    · by_cases hl : rest.head? = some ('/' : UInt8) <;> simp +decide [cut?, kinds, hs, hl, hself,
        drop_runLength]
  · rw [next_hash]
    simp +decide [cut?, kinds]
  · have hself := hone '"' (by decide)
    rw [next_doubleQuote]
    cases hl : literalLength '"' rest <;> simp +decide [cut?, kinds, hl, hself]
  · have hself := hone '\'' (by decide)
    rw [next_quote]
    cases hl : literalLength '\'' rest <;> simp +decide [cut?, kinds, hl, hself]
  · have hself := hone ':' (by decide)
    rw [next_colon]
    by_cases hc : rest.head? = some (':' : UInt8) <;> simp +decide [cut?, kinds, hc, hself]
  · rw [next_nameStart ha, cut?_of_single rest (by simp [ha]), if_pos ha, drop_runLength]
  · rw [next_digit ha, cut?_of_single rest (by simp [ha]), not_nameStart_of_digit a ha, if_pos ha,
      drop_runLength]
    rfl
  · obtain ⟨hname, hdigit⟩ := Bool.or_eq_false_iff.1 (not_nameByte_of_blankByte a ha)
    rw [next_blankByte ha, cut?_of_single rest (by simp [ha]), hname, hdigit, if_pos ha,
      drop_runLength]
    rfl
  · obtain ⟨hbyte, hblank⟩ := not_name_of_plainSign ha
    obtain ⟨hname, hdigit⟩ := Bool.or_eq_false_iff.1 hbyte
    rw [next_plainSign ha, cut?_of_single rest (by simp [ha]), hname, hdigit, hblank]
    rfl

end Cut

end Lexeme

namespace Token

/-- Some rule matches at every place and takes a byte, so the rules cut every text, and just as
`ofText` does. -/
theorem read?_eq (p : Pos) (t : Text) : read? p t = some (place p (Lexeme.ofText t)) := by
  fun_induction Lexeme.ofText t generalizing p with
  | case1 => rw [read?]; rfl
  | case2 a rest step ih =>
    have hle : step.2 ≤ rest.length := Lexeme.next_le_length a rest
    have hcut : Lexeme.cut? (a :: rest) = some (step.1, rest.drop step.2) := Lexeme.cut?_cons rest a
    have hless : (rest.drop step.2).length < (a :: rest).length := by
      rw [List.length_drop, List.length_cons]
      omega
    have htake : (a :: rest).take ((a :: rest).length - (rest.drop step.2).length) =
        a :: rest.take step.2 := by
      have hlen : (a :: rest).length - (rest.drop step.2).length = step.2 + 1 := by
        rw [List.length_drop, List.length_cons]
        omega
      rw [hlen, List.take_succ_cons]
    rw [read?, if_neg (List.cons_ne_nil a rest), hcut]
    dsimp only
    rw [if_pos hless, htake, ih, place_cons]
    rfl

end Token

def Text.IsSeam (t : Text) (n : Nat) : Prop := ∃ cs ds, Text.cells t = cs ++ ds ∧
    (Text.ofCells cs).length = n

namespace Lexeme

theorem isSeam_of_ofText {s : Text} {ks ms : List Lexeme} (h : ofText s = ks ++ ms) :
    s.IsSeam (spelling ks).length := by
  have hchain := chain_ofText s
  rw [h, chain_append, List.append_nil] at hchain
  refine ⟨Text.cells (spelling ks), Text.cells (spelling ms), ?_, ?_⟩
  · rw [← hchain.1.cells_append, ← spelling_append, ← h, spelling_ofText]
  · rw [Text.ofCells_cells]

end Lexeme

namespace Token

theorem exists_of_getElem? {p : Pos} {ls : List Lexeme} {i : Nat} {t : Token}
    (h : (place p ls)[i]? = some t) :
    ∃ ks ms, ls = ks ++ ⟨t.kind, t.text⟩ :: ms ∧ t.pos = after p ks ∧
    (place p ls).take i = place p ks := by
  induction ls generalizing p i with
  | nil => simp [place] at h
  | cons l ls ih =>
    cases i with
    | zero =>
      obtain rfl := Option.some.inj h
      exact ⟨[], ls, rfl, rfl, rfl⟩
    | succ i =>
      obtain ⟨ks, ms, rfl, hpos, htake⟩ := ih h
      refine ⟨l :: ks, ms, rfl, hpos, ?_⟩
      rw [place_cons, List.take_succ_cons, htake, place_cons]

theorem flatMap_text_place (p : Pos) (ls : List Lexeme) :
    (place p ls).flatMap Token.text = Lexeme.spelling ls := by
  induction ls generalizing p with
  | nil => rfl
  | cons l ls ih => rw [place_cons, List.flatMap_cons, ih, Lexeme.spelling_cons]

/-- The rules cut every text, and the tokens cover it. Each token has its place by the text before
it, and none starts or ends inside a character. -/
theorem ofText_covers (s : Text) :
    read? Pos.start s = some (ofText s) ∧ (ofText s).flatMap Token.text = s ∧
    ∀ i t, (ofText s)[i]? = some t → t.text ≠ [] ∧
      t.pos.offset = (((ofText s).take i).map (·.text.length)).sum ∧
      t.pos.line = 1 + (s.take t.pos.offset).count newline ∧
      t.pos.column = 1 + Text.charCount (Pos.lastLine (s.take t.pos.offset)) ∧
      s.IsSeam t.pos.offset ∧ s.IsSeam t.stop := by
  refine ⟨read?_eq Pos.start s, (flatMap_text_place Pos.start _).trans (Lexeme.spelling_ofText s),
    fun i t ht => ?_⟩
  have hpos := pos_eq (List.mem_of_getElem? ht)
  obtain ⟨ks, ms, hls, hafter, htake⟩ := exists_of_getElem? ht
  have hoffset : t.pos.offset = (Lexeme.spelling ks).length := by
    rw [hafter, Interface.offset_after_start]
  have hstop : t.stop = (Lexeme.spelling (ks ++ [⟨t.kind, t.text⟩])).length := by
    rw [stop, hoffset, Lexeme.spelling_append, List.length_append, Lexeme.spelling_cons,
      Lexeme.spelling_nil, List.append_nil]
  have hfits := Lexeme.chain_ofText s
  rw [hls, Lexeme.chain_append] at hfits
  obtain ⟨a, tail, htext, _⟩ := hfits.2.1
  refine ⟨?_, ?_, congrArg Pos.line hpos, ?_, ?_, ?_⟩
  · intro hnil
    cases htext.symm.trans hnil
  · rw [ofText, htake, ← List.length_flatMap, flatMap_text_place, hoffset]
  · have hcolumn := congrArg Pos.column hpos
    rwa [Pos.advance, Pos.start, ite_self] at hcolumn
  · exact hoffset ▸ Lexeme.isSeam_of_ofText hls
  · rw [List.append_cons] at hls
    exact hstop ▸ Lexeme.isSeam_of_ofText hls

end Token

end HeaderBridge
