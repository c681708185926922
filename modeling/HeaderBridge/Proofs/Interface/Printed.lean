import HeaderBridge.Proofs.Interface.WellFormed
import HeaderBridge.Proofs.Source.Brace
import HeaderBridge.Proofs.Source.Span

namespace HeaderBridge
namespace Lexeme

def space : Lexeme := ⟨.blank, [' ']⟩

def lineEnd : Lexeme := ⟨.blank, [newline]⟩

def word (w : Text) : Lexeme := ⟨.ident, w⟩

def sign (c : Char) : Lexeme := ⟨.punct, [(c : UInt8)]⟩

theorem fits_word {w : Text} (hw : Text.isIdentifier w = true) {y : Text}
    (hy : ∀ b ∈ y.head?, Text.isNameByte b = false) : Fits (word w) y := by
  cases w with
  | nil => simp [Text.isIdentifier] at hw
  | cons a t =>
    simp only [Text.isIdentifier, Bool.and_eq_true, List.all_eq_true] at hw
    exact (fits_nameStart hw.1).2 ⟨rfl, hw.2, hy⟩

theorem fits_sign {c : Char} (hc : isPlainSign c = true) (hlow : Text.isHigh c = false) (y : Text) :
    Fits (sign c) y :=
  (fits_plainSign hc).2 ⟨rfl, Text.firstChar_snd_of_not_high hlow _⟩

theorem fits_blank {b : UInt8} (hb : isBlankByte b = true) {y : Text}
    (hy : ∀ c ∈ y.head?, isBlankByte c = false) : Fits ⟨.blank, [b]⟩ y :=
  (fits_blankByte hb).2 ⟨rfl, by simp, hy⟩

section Fields

variable {u : Text} (h : IsField u)
include h

theorem field_head? : ∀ b ∈ u.head?, isBlankByte b = false := by
  have := Text.head?_collapse u
  rwa [h.folded] at this

theorem field_significant {l : Lexeme} (hl : l ∈ ofText u) (hb : l.kind ≠ .blank) :
    l.kind.isSignificant = true := by
  have hp := List.all_eq_true.1 h.plain l hl
  simp only [isPlain, Bool.and_eq_true, Bool.not_eq_true'] at hp
  simp [TokenKind.isSignificant, hp.1.1.1, hb]

theorem field_first : ∀ l ∈ (ofText u).head?, l.kind ≠ .blank := by
  intro l hl hk
  obtain ⟨ls, hls⟩ := List.head?_eq_some_iff.1 hl
  have hc := chain_ofText u
  rw [hls] at hc
  have hs := hc.1.shape
  simp only [Shape, hk] at hs
  obtain ⟨b, t, ht⟩ := List.exists_cons_of_ne_nil hs.1
  have hu : u = b :: (t ++ spelling ls) := by
    have := spelling_ofText u
    rw [hls, spelling_cons, ht] at this
    exact this.symm
  have := field_head? h b (by simp [hu])
  rw [hs.2 b (by simp [ht])] at this
  exact absurd this (by decide)

theorem field_last : ∀ l ∈ (ofText u).getLast?, l.kind ≠ .blank := by
  intro l hl hk
  obtain ⟨ls, hls⟩ := List.getLast?_eq_some_iff.1 hl
  have hc := chain_ofText u
  rw [hls, chain_append] at hc
  have hs := hc.2.1.shape
  simp only [Shape, hk] at hs
  have hu : u = spelling ls ++ l.text := by
    have := spelling_ofText u
    rw [hls, spelling_append, spelling_cons, spelling_nil, List.append_nil] at this
    exact this.symm
  obtain ⟨b, hb⟩ := Option.isSome_iff_exists.1 (List.getLast?_isSome.2 hs.1)
  have hlast := Text.getLast?_collapse u
  rw [h.folded] at hlast
  have := hlast b (by rw [hu, List.getLast?_append, hb]; rfl)
  rw [hs.2 b (List.mem_of_getLast? hb)] at this
  exact absurd this (by decide)

theorem chain_field {y : Text} (hy : ∀ b ∈ y.head?, isSeparator b = true) : Chain (ofText u) y := by
  apply (chain_ofText u).seam h.closed
  · exact fun b hb => (isSeparator_facts b (hy b hb)).2.2.1
  · intro l hl
    have hmem := List.mem_of_getLast? hl
    obtain ⟨ls, hls⟩ := List.getLast?_eq_some_iff.1 hl
    have hc := chain_ofText u
    rw [hls, chain_append] at hc
    refine stops_separator hc.2.1 (field_significant h hmem (field_last h l hl)) hy
      fun q hq hquote => ?_
    have hplain := List.all_eq_true.1 h.plain l hmem
    subst hq
    rcases hquote with rfl | rfl <;> exact absurd hplain (by decide)
  · intro q r hmem hq
    have := List.all_eq_true.1 h.plain _ hmem
    rcases hq with rfl | rfl <;> exact absurd this (by decide)

end Fields
theorem chain_cons {l : Lexeme} {ls : List Lexeme} {y : Text} (hl : Fits l (spelling ls ++ y))
    (hls : Chain ls y) : Chain (l :: ls) y := ⟨hl, hls⟩

theorem isSeparator_space (ls : List Lexeme) (y : Text) :
    ∀ b ∈ (spelling (space :: ls) ++ y).head?, isSeparator b = true := by
  intro b hb
  obtain rfl := Option.some.inj hb
  decide

theorem not_isBlankByte_word {w : Text} (hw : Text.isIdentifier w = true) (ls : List Lexeme)
    (y : Text) : ∀ b ∈ (spelling (word w :: ls) ++ y).head?, isBlankByte b = false := by
  cases w with
  | nil => simp [Text.isIdentifier] at hw
  | cons a t =>
    simp only [Text.isIdentifier, Bool.and_eq_true] at hw
    intro b hb
    obtain rfl := Option.some.inj hb
    cases hbb : isBlankByte a with
    | false => rfl
    | true =>
      have := not_nameByte_of_blankByte a hbb
      simp [Text.isNameByte, hw.1] at this

theorem chain_spaced {w : Text} (hw : Text.isIdentifier w = true) {y : Text}
    (hy : ∀ b ∈ y.head?, isSeparator b = true) : Chain [space, word w] y :=
  chain_cons (fits_blank (by decide) (not_isBlankByte_word hw [] y))
    (chain_cons (fits_word hw fun b hb => (isSeparator_facts b (hy b hb)).1) trivial)

end Lexeme

open Lexeme

namespace Parameter

def lexemes (p : Parameter) : List Lexeme :=
  ofText p.type ++ ((if p.name = [] then [] else [space, word p.name]) ++
    if p.default = [] then [] else space :: sign '=' :: space :: ofText p.default)

def listLexemes : List Parameter → List Lexeme
  | [] => []
  | [p] => p.lexemes
  | p :: q :: ps => p.lexemes ++ sign ',' :: space :: listLexemes (q :: ps)

theorem spelling_lexemes {p : Parameter} (h : p.declarator = []) :
    spelling p.lexemes = p.render true := by
  have hequals : (" = " : Text) = [(' ' : UInt8), ('=' : UInt8), (' ' : UInt8)] := by decide
  have hspace : (" " : Text) = [(' ' : UInt8)] := by decide
  rw [lexemes, spelling_append, spelling_append, spelling_ofText, render, declaration, h]
  by_cases hn : p.name = [] <;> by_cases hd : p.default = [] <;>
    simp [hn, hd, hequals, hspace, space, word, sign, spelling_ofText]

theorem spelling_listLexemes {ps : List Parameter} (h : ∀ p ∈ ps, p.declarator = []) :
    spelling (listLexemes ps) = Text.join ", " (ps.map (render true)) := by
  have hcomma : (", " : Text) = [(',' : UInt8), (' ' : UInt8)] := by decide
  fun_induction listLexemes ps with
  | case1 => rfl
  | case2 p => simp [spelling_lexemes (h p (by simp)), Text.join, List.intercalate]
  | case3 p q ps ih =>
    have ih := ih fun r hr => h r (by simp [hr])
    rw [spelling_append, spelling_lexemes (h p (by simp)), spelling_cons, spelling_cons, ih]
    simp [Text.join, Text.intercalate_cons, hcomma, sign, space]

/-- What follows a parameter: the next one, or the end of the list. -/
def EndsParameter (y : Text) : Prop := ∃ b ∈ y.head?, b = ')' ∨ b = ','

theorem chain_lexemes {p : Parameter} (h : p.WellFormed) {y : Text} (hy : EndsParameter y) :
    Chain p.lexemes y := by
  have hsep : ∀ b ∈ y.head?, isSeparator b = true := by
    obtain ⟨b, hb, hb'⟩ := hy
    intro c hc
    obtain rfl := Option.some.inj (hb.symm.trans hc)
    rcases hb' with rfl | rfl <;> decide
  have hdefault :
      Chain (if p.default = [] then [] else space :: sign '=' :: space :: ofText p.default) y := by
    split
    · trivial
    · rename_i hd
      have hhead : ∀ b ∈ (spelling (ofText p.default) ++ y).head?, isBlankByte b = false := by
        rw [spelling_ofText]
        obtain ⟨a, t, ht⟩ := List.exists_cons_of_ne_nil hd
        have := field_head? h.default
        rw [ht] at this ⊢
        exact this
      apply chain_cons (fits_blank (by decide) ?_)
      · exact chain_cons (fits_sign (by decide) (by decide) _)
          (chain_cons (fits_blank (by decide) hhead) (chain_field h.default hsep))
      · intro b hb
        obtain rfl := Option.some.inj hb
        decide
  have hdefault_sep : ∀ b ∈ (spelling (if p.default = [] then []
      else space :: sign '=' :: space :: ofText p.default) ++ y).head?, isSeparator b = true := by
    split
    · exact hsep
    · exact isSeparator_space _ y
  rw [lexemes, chain_append, chain_append]
  refine ⟨chain_field h.type ?_, ?_, hdefault⟩
  · split
    · exact hdefault_sep
    · rw [List.cons_append]
      exact isSeparator_space _ y
  · have hname := h.name
    split
    · trivial
    · rename_i hn
      rw [if_neg hn] at hname
      exact chain_spaced hname.1 hdefault_sep

theorem chain_listLexemes {ps : List Parameter} (h : ∀ p ∈ ps, p.WellFormed) {y : Text}
    (hy : EndsParameter y) : Chain (listLexemes ps) y := by
  fun_induction listLexemes ps with
  | case1 => trivial
  | case2 p => exact chain_lexemes (h p (by simp)) hy
  | case3 p q ps ih =>
    have ih := ih fun r hr => h r (by simp [hr])
    rw [chain_append]
    refine ⟨chain_lexemes (h p (by simp)) ⟨_, rfl, .inr rfl⟩,
      chain_cons (fits_sign (by decide) (by decide) _) (chain_cons (fits_blank (by decide) ?_) ih)⟩
    have hq := h q (by simp)
    -- the next parameter starts with its type
    have hhead : ∃ t, spelling (listLexemes (q :: ps)) = q.type ++ t := by
      cases ps with
      | nil => exact ⟨_, by rw [listLexemes, lexemes, spelling_append, spelling_ofText]⟩
      | cons r rs =>
        exact ⟨_, by rw [listLexemes, lexemes, spelling_append, spelling_append, spelling_ofText,
          List.append_assoc]⟩
    obtain ⟨t, ht⟩ := hhead
    obtain ⟨a, u, hu⟩ := List.exists_cons_of_ne_nil hq.type_ne_nil
    have := field_head? hq.type
    rw [hu] at this ht
    rw [ht]
    exact this

end Parameter

namespace Method

def qualifierLexemes (m : Method) : List Lexeme :=
  (if m.isConst then [space, word "const"] else []) ++
    if m.isNoexcept then [space, word "noexcept"] else []

def pureMark : List Lexeme := [space, sign '=', space, ⟨.number, "0"⟩, semicolon, lineEnd]

def lexemes (m : Method) : List Lexeme :=
  word "virtual" :: space :: (ofText m.returnType ++ space :: word m.name :: sign '(' ::
    (Parameter.listLexemes m.parameters ++ sign ')' :: (m.qualifierLexemes ++ pureMark)))

theorem spelling_lexemes {m : Method} (h : m.WellFormed) :
    spelling m.lexemes = m.declarationLine := by
  have hvirtual : ("virtual " : Text) = ("virtual" : Text) ++ [(' ' : UInt8)] := by decide
  have hspace : (" " : Text) = [(' ' : UInt8)] := by decide
  have hopen : ("(" : Text) = [('(' : UInt8)] := by decide
  have hclose : (")" : Text) = [(')' : UInt8)] := by decide
  have hconst : (" const" : Text) = (' ' : UInt8) :: ("const" : Text) := by decide
  have hnoexcept : (" noexcept" : Text) = (' ' : UInt8) :: ("noexcept" : Text) := by decide
  have hmark : spelling pureMark = (" = 0;\n" : Text) := by decide
  have hqualifiers : spelling m.qualifierLexemes = m.qualifiers := by
    rw [qualifierLexemes, qualifiers, hconst, hnoexcept]
    cases m.isConst <;> cases m.isNoexcept <;> simp [space, word]
  have hlist := Parameter.spelling_listLexemes fun p hp => (h.parameters p hp).declarator
  rw [declarationLine, signature, parameterList, ← hlist, hvirtual, hspace, hopen, hclose, lexemes]
  simp [hmark, hqualifiers, spelling_ofText, space, word, sign]

theorem chain_qualifiers (m : Method) {y : Text} (hy : ∀ b ∈ y.head?, isSeparator b = true) :
    Chain m.qualifierLexemes y := by
  have hnoexcept : Chain (if m.isNoexcept then [space, word "noexcept"] else []) y := by
    split
    · exact chain_spaced (by decide) hy
    · trivial
  rw [qualifierLexemes, chain_append]
  refine ⟨?_, hnoexcept⟩
  split
  · refine chain_spaced (by decide) ?_
    split
    · exact isSeparator_space _ y
    · exact hy
  · trivial

theorem chain_pureMark {y : Text} (hy : ∀ b ∈ y.head?, isBlankByte b = false) :
    Chain pureMark y := by
  have hzero (r : Text) : Fits ⟨.number, "0"⟩ ((';' : UInt8) :: r) :=
    (fits_digit (by decide)).2 ⟨rfl, by simp, by
      intro b hb
      obtain rfl := Option.some.inj hb
      decide⟩
  refine chain_cons (fits_blank (by decide) ?_) (chain_cons (fits_sign (by decide) (by decide) _)
    (chain_cons (fits_blank (by decide) ?_) (chain_cons (hzero _)
      (chain_cons (fits_sign (by decide) (by decide) _)
        (chain_cons (fits_blank (by decide) hy) trivial)))))
  · intro b hb
    obtain rfl := Option.some.inj hb
    decide
  · intro b hb
    obtain rfl := Option.some.inj hb
    decide

theorem chain_lexemes {m : Method} (h : m.WellFormed) {y : Text}
    (hy : ∀ b ∈ y.head?, isBlankByte b = false) : Chain m.lexemes y := by
  have hmark : ∀ b ∈ (spelling pureMark ++ y).head?, isSeparator b = true := isSeparator_space _ y
  have hopen : ∀ r : Text, ∀ b ∈ (('(' : UInt8) :: r).head?, Text.isNameByte b = false := by
    intro r b hb
    obtain rfl := Option.some.inj hb
    decide
  have hvirtual : Fits (word "virtual") ((' ' : UInt8) :: (spelling (ofText m.returnType ++ space ::
      word m.name :: sign '(' :: (Parameter.listLexemes m.parameters ++ sign ')' ::
        (m.qualifierLexemes ++ pureMark))) ++ y)) :=
    fits_word (by decide) (by
      intro b hb
      obtain rfl := Option.some.inj hb
      decide)
  have htype : ∀ r : Text, ∀ b ∈ (spelling (ofText m.returnType) ++ r).head?, isBlankByte b =
      false := by
    intro r
    rw [spelling_ofText]
    obtain ⟨a, t, ht⟩ := List.exists_cons_of_ne_nil h.type_ne_nil
    have := field_head? h.type
    rw [ht] at this ⊢
    exact this
  refine chain_cons hvirtual (chain_cons (fits_blank (by decide) ?_) ?_)
  · rw [spelling_append, List.append_assoc]
    exact htype _
  · rw [chain_append]
    refine ⟨chain_field h.type (isSeparator_space _ y), ?_⟩
    refine chain_cons (fits_blank (by decide) (not_isBlankByte_word h.name _ y))
      (chain_cons (fits_word h.name (hopen _))
        (chain_cons (fits_sign (by decide) (by decide) _) ?_))
    rw [chain_append]
    refine ⟨Parameter.chain_listLexemes h.parameters ⟨_, rfl, .inl rfl⟩, ?_⟩
    refine chain_cons (fits_sign (by decide) (by decide) _) ?_
    rw [chain_append]
    exact ⟨m.chain_qualifiers hmark, chain_pureMark hy⟩

end Method

namespace Interface

def bodyLexemes (ms : List Method) : List Lexeme := lineEnd :: ms.flatMap Method.lexemes

theorem chain_methods {ms : List Method} (h : ∀ m ∈ ms, m.WellFormed) {y : Text}
    (hy : ∀ b ∈ y.head?, isBlankByte b = false) :
    Chain (ms.flatMap Method.lexemes) y ∧
      ∀ b ∈ (spelling (ms.flatMap Method.lexemes) ++ y).head?, isBlankByte b = false := by
  induction ms with
  | nil => exact ⟨trivial, hy⟩
  | cons m ms ih =>
    obtain ⟨hc, hhead⟩ := ih fun m' hm' => h m' (by simp [hm'])
    rw [List.flatMap_cons, chain_append]
    refine ⟨⟨Method.chain_lexemes (h m (by simp)) hhead, hc⟩, ?_⟩
    intro b hb
    obtain rfl := Option.some.inj hb
    decide

theorem spelling_methods {ms : List Method} (h : ∀ m ∈ ms, m.WellFormed) :
    spelling (ms.flatMap Method.lexemes) = ms.flatMap Method.declarationLine := by
  induction ms with
  | nil => rfl
  | cons m ms ih =>
    rw [List.flatMap_cons, List.flatMap_cons, spelling_append,
      Method.spelling_lexemes (h m (by simp)), ih fun m' hm' => h m' (by simp [hm'])]

/-- A written class is cut into its words, its signs and the lexemes of its methods. -/
theorem ofText_classText {name : Text} (hname : Text.isIdentifier name = true) {ms : List Method}
    (h : ∀ m ∈ ms, m.WellFormed) :
    ofText (classText name ms) = [word "class", space, word name, space] ++
      openBrace :: (bodyLexemes ms ++ closeBrace :: [semicolon, lineEnd]) := by
  have hclass : ("class " : Text) = ("class" : Text) ++ [(' ' : UInt8)] := by decide
  have hopen : (" \x7b\n" : Text) = [(' ' : UInt8), ('{' : UInt8), newline] := by decide
  have hclose : ("\x7d;\n" : Text) = [('}' : UInt8), (';' : UInt8), newline] := by decide
  have hspelling := spelling_methods h
  have hend : ∀ b ∈ (spelling [closeBrace, semicolon, lineEnd] ++ []).head?, isBlankByte b =
      false := by
    intro b hb
    obtain rfl := Option.some.inj hb
    decide
  obtain ⟨hmethods, hhead⟩ := chain_methods h hend
  refine ofText_eq_iff.2 ⟨?_, ?_⟩
  · rw [classText, hclass, hopen, hclose, ← hspelling]
    simp [bodyLexemes, word, space, openBrace, closeBrace, semicolon, lineEnd]
  · have hsign (b : UInt8) (hb : isSeparator b = true) (r : Text) :
        ∀ c ∈ (b :: r).head?, Text.isNameByte c = false := by
      intro c hc
      obtain rfl := Option.some.inj hc
      exact (isSeparator_facts b hb).1
    refine chain_cons (fits_word (by decide) (hsign ' ' (by decide) _))
      (chain_cons (fits_blank (by decide) (not_isBlankByte_word hname _ _))
        (chain_cons (fits_word hname (hsign ' ' (by decide) _))
          (chain_cons (fits_blank (by decide) ?_)
          (chain_cons (fits_sign (by decide) (by decide) _) ?_))))
    · intro b hb
      obtain rfl := Option.some.inj hb
      decide
    · rw [bodyLexemes, List.cons_append]
      refine chain_cons (fits_blank (by decide) ?_) ?_
      · rw [spelling_append, List.append_assoc]
        exact hhead
      · rw [chain_append]
        refine ⟨hmethods, chain_cons (fits_sign (by decide) (by decide) _)
          (chain_cons (fits_sign (by decide) (by decide) _)
            (chain_cons (fits_blank (by decide) ?_) trivial))⟩
        simp

end Interface
end HeaderBridge
