import HeaderBridge.Proofs.Interface.Comparison
import HeaderBridge.Proofs.Interface.Groups

namespace HeaderBridge

open Token

namespace Interface

theorem afterBrackets_of_closes {depth : Nat} {inner : List Token}
    (h : closes '[' ']' depth inner = true) {close : Token} (hclose : close.isPunct ']' = true)
    (rest : List Token) :
    afterBrackets depth (inner ++ close :: rest) = some rest := by
  induction inner generalizing depth with
  | nil =>
    obtain rfl : depth = 0 := by simpa [closes] using h
    rw [List.nil_append, afterBrackets.eq_def]
    simp [isPunct_unique hclose (d := '[') (by decide), hclose]
  | cons t ts ih =>
    rw [closes] at h
    rw [List.cons_append, afterBrackets.eq_def]
    dsimp only
    split
    · rw [if_pos ‹_›] at h
      exact ih h
    · rw [if_neg ‹_›] at h
      split
      · rw [if_pos ‹_›] at h
        cases depth with
        | zero => simp at h
        | succ depth => exact ih h
      · rw [if_neg ‹_›] at h
        exact ih h

structure IsHeadWord (t : Token) : Prop where
  ident : t.isIdent = true
  not_final : t.isWord "final" = false
  not_key : isClassKey t = false

/-- What is passed over in a head: attributes, words with an argument list and, if `words`, plain
words. -/
inductive Passed (words : Bool) : List Token → Prop
  | nil : Passed words []
  | bracketed {opener close : Token} {inner more : List Token} (hopen : opener.isPunct '[' = true)
      (hinner : inner.head?.any (·.isPunct '[') = true) (hcloses : closes '[' ']' 0 inner = true)
      (hclose : close.isPunct ']' = true) (h : Passed words more) :
      Passed words (opener :: (inner ++ close :: more))
  | group {word opener close : Token} {inner more : List Token} (hword : word.isIdent = true)
      (hfinal : word.isWord "final" = false) (hopen : opener.isPunct '(' = true)
      (hcloses : closes '(' ')' 0 inner = true) (hsemi : ∀ t ∈ inner, t.isPunct ';' = false)
      (hclose : close.isPunct ')' = true) (h : Passed words more) :
      Passed words (word :: opener :: (inner ++ close :: more))
  | word {t : Token} {more : List Token} (hwords : words = true) (ht : IsHeadWord t)
      (h : Passed words more) : Passed words (t :: more)

/-- Where the search for the name stops: at the word `final` and at what is neither a word nor an
attribute. -/
def StopsName (ts : List Token) : Prop :=
  ∀ t ∈ ts.head?, (t.isIdent = false ∨ t.isWord "final" = true) ∧
    (t.isPunct '[' && ts.tail.head?.any (·.isPunct '[')) = false

theorem exists_of_headName {name name' : Text} {ts rest : List Token}
    (h : headName name ts = some (name', rest)) :
    StopsName rest ∧ ((∃ behind, Passed false behind ∧ ts = behind ++ rest ∧ name' = name) ∨
      ∃ lead t behind, Passed true lead ∧ IsHeadWord t ∧ Passed false behind ∧
        ts = lead ++ t :: (behind ++ rest) ∧ name' = t.text) := by
  fun_induction headName name ts with
  | case1 name =>
    obtain ⟨rfl, rfl⟩ := Prod.mk.inj (Option.some.inj h)
    exact ⟨by simp [StopsName], .inl ⟨[], .nil, rfl, rfl⟩⟩
  | case3 name t ts hopen us hus _ ih =>
    rw [Bool.and_eq_true] at hopen
    obtain ⟨inner, close, hinner, hclose, rfl⟩ := eq_of_afterBrackets hus
    have hfirst : inner.head?.any (·.isPunct '[') = true := by
      cases inner with
      | nil => simpa [isPunct_unique hclose (d := '[') (by decide)] using hopen.2
      | cons u us => exact hopen.2
    obtain ⟨hstops, hparts⟩ := ih h
    -- the attribute stands before whatever is found behind it
    refine ⟨hstops, hparts.imp ?_ ?_⟩
    · rintro ⟨behind, hbehind, rfl, hname⟩
      exact ⟨_, .bracketed hopen.1 hfirst hinner hclose hbehind, by simp, hname⟩
    · rintro ⟨lead, u, behind, hlead, hu, hbehind, rfl, hname⟩
      exact ⟨_, u, behind, .bracketed hopen.1 hfirst hinner hclose hlead, hu, hbehind,
        by simp, hname⟩
  | case4 name t ts hbracket hfinal =>
    obtain ⟨rfl, rfl⟩ := Prod.mk.inj (Option.some.inj h)
    refine ⟨?_, .inl ⟨[], .nil, rfl, rfl⟩⟩
    rintro u hu
    obtain rfl := Option.some.inj hu
    exact ⟨.inr hfinal, by simpa using hbracket⟩
  | case6 name t ts _ hfinal hident hparen inner close hread _ ih =>
    obtain ⟨hcloses, hsemi⟩ := closes_of_closeParen hread
    obtain ⟨closer, tail, rfl, hclose, hts⟩ := eq_of_closeParen hread
    obtain ⟨opener, us, rfl⟩ : ∃ opener us, ts = opener :: us := by
      cases ts with
      | nil => simp at hparen
      | cons u us => exact ⟨u, us, rfl⟩
    obtain rfl : us = inner ++ closer :: tail := hts
    have hopen : opener.isPunct '(' = true := by simpa using hparen
    have hfinal : t.isWord "final" = false := by simpa using hfinal
    obtain ⟨hstops, hparts⟩ := ih h
    refine ⟨hstops, hparts.imp ?_ ?_⟩
    · rintro ⟨behind, hbehind, rfl, hname⟩
      exact ⟨_, .group hident hfinal hopen hcloses hsemi hclose hbehind, by simp, hname⟩
    · rintro ⟨lead, u, behind, hlead, hu, hbehind, rfl, hname⟩
      exact ⟨_, u, behind, .group hident hfinal hopen hcloses hsemi hclose hlead, hu, hbehind,
        by simp, hname⟩
  | case8 name t ts _ hfinal hident _ hkey ih =>
    have hword : IsHeadWord t := ⟨hident, by simpa using hfinal, by simpa using hkey⟩
    obtain ⟨hstops, hparts⟩ := ih h
    refine ⟨hstops, .inr ?_⟩
    -- without another word behind it, this one is the name
    rcases hparts with ⟨behind, hbehind, rfl, hname⟩ | ⟨lead, u, behind, hlead, hu, hbehind,
      rfl, hname⟩
    · exact ⟨[], t, behind, .nil, hword, hbehind, rfl, hname⟩
    · exact ⟨t :: lead, u, behind, .word rfl hword hlead, hu, hbehind, by simp, hname⟩
  | case9 name t ts hbracket _ hident =>
    obtain ⟨rfl, rfl⟩ := Prod.mk.inj (Option.some.inj h)
    refine ⟨?_, .inl ⟨[], .nil, rfl, rfl⟩⟩
    rintro u hu
    obtain rfl := Option.some.inj hu
    exact ⟨.inl (by simpa using hident), by simpa using hbracket⟩
  | case2 | case5 | case7 => simp at h

theorem Passed.head_not_paren {words : Bool} {front : List Token} (h : Passed words front)
    {rest : List Token} (hrest : rest.head?.any (·.isPunct '(') = false) :
    (front ++ rest).head?.any (·.isPunct '(') = false := by
  cases h with
  | nil => exact hrest
  | bracketed hopen => simp [isPunct_unique hopen (d := '(') (by decide)]
  | group hword => simp [not_isPunct_of_isIdent hword]
  | word _ ht => simp [not_isPunct_of_isIdent ht.ident]

theorem headName_of_word {t : Token} (ht : IsHeadWord t) {rest : List Token}
    (hrest : rest.head?.any (·.isPunct '(') = false) (name : Text) :
    headName name (t :: rest) = headName t.text rest := by
  rw [headName_cons, not_isPunct_of_isIdent ht.ident, ht.not_final, ht.ident, hrest, ht.not_key]
  rfl

theorem headName_of_passed {words : Bool} {front : List Token} (h : Passed words front)
    {rest : List Token} (hrest : rest.head?.any (·.isPunct '(') = false) (name : Text) :
    ∃ name', headName name (front ++ rest) = headName name' rest ∧
    (words = false → name' = name) := by
  induction h generalizing name with
  | nil => exact ⟨name, rfl, fun _ => rfl⟩
  | @bracketed opener close inner more hopen hinner hcloses hclose _ ih =>
    have hsecond : (inner ++ close :: (more ++ rest)).head?.any (·.isPunct '[') = true := by
      cases inner with
      | nil => simp at hinner
      | cons u us => exact hinner
    obtain ⟨name', hname, hkept⟩ := ih name
    refine ⟨name', ?_, hkept⟩
    rw [← hname, List.cons_append, List.append_assoc, List.cons_append, headName_cons, hopen,
      hsecond, afterBrackets_of_closes hcloses hclose]
    rfl
  | @group word opener close inner more hword hfinal hopen hcloses hsemi hclose _ ih =>
    obtain ⟨name', hname, hkept⟩ := ih name
    refine ⟨name', ?_, hkept⟩
    have hlist : closeParen 0 (inner ++ close :: (more ++ rest)) =
        some (inner, close :: (more ++ rest)) :=
      closeParen_of_closes hcloses hsemi hclose _
    rw [← hname, List.cons_append, List.cons_append, List.append_assoc, List.cons_append,
      headName_cons, not_isPunct_of_isIdent hword, hfinal, hword]
    simp [hopen, hlist]
  | @word t more hwords ht hmore ih =>
    obtain ⟨name', hname, _⟩ := ih t.text
    refine ⟨name', ?_, fun h => by simp [h] at hwords⟩
    rw [List.cons_append, headName_of_word ht (hmore.head_not_paren hrest), hname]

theorem headName_of_stops {rest : List Token} (h : StopsName rest) (name : Text) :
    headName name rest = some (name, rest) := by
  cases rest with
  | nil => rw [headName]
  | cons t ts =>
    obtain ⟨hword, hbracket⟩ := h t rfl
    rw [List.tail_cons] at hbracket
    rw [headName_cons, hbracket]
    rcases hword with hident | hfinal
    · simp [hident]
    · simp [hfinal]

/-- What may stand between the name part and the body, behind `angle` open template brackets. -/
structure Introduces (angle : Nat) (tail : List Token) : Prop where
  /-- No semicolon, equals sign, brace or second class key. -/
  plain : ∀ t ∈ tail, Method.endsType t = false ∧ isClassKey t = false
  enclosed : ∀ front t behind, tail = front ++ t :: behind → t.isPunct '(' = true ∨
      t.isPunct ')' = true →
    0 < leftOpen '<' '>' angle front

theorem introduces_nil (angle : Nat) : Introduces angle [] := ⟨by simp, by simp⟩

theorem introduces_cons {angle : Nat} {t : Token} {ts : List Token} : Introduces angle (t :: ts) ↔
    (Method.endsType t = false ∧ isClassKey t = false ∧
      (t.isPunct '(' = true ∨ t.isPunct ')' = true → 0 < angle)) ∧
      Introduces (openAfter '<' '>' angle t) ts := by
  constructor
  · intro h
    obtain ⟨ht, hts⟩ := List.forall_mem_cons.1 h.plain
    refine ⟨⟨ht.1, ht.2, h.enclosed [] t ts rfl⟩, hts, ?_⟩
    rintro front u behind rfl hu
    exact h.enclosed (t :: front) u behind rfl hu
  · rintro ⟨⟨hends, hkey, hparen⟩, hts⟩
    refine ⟨List.forall_mem_cons.2 ⟨⟨hends, hkey⟩, hts.plain⟩, ?_⟩
    intro front u behind hsplit hu
    cases front with
    | nil =>
      obtain rfl : t = u := (List.cons.inj hsplit).1
      exact hparen hu
    | cons v front =>
      obtain ⟨rfl, hrest⟩ := List.cons.inj hsplit
      exact hts.enclosed front u behind hrest hu

instance decidableIntroduces : (angle : Nat) → (tail : List Token) →
    Decidable (Introduces angle tail)
  | angle, [] => isTrue (introduces_nil angle)
  | angle, t :: ts =>
    have := decidableIntroduces (openAfter '<' '>' angle t) ts
    decidable_of_iff _ introduces_cons.symm

theorem headBrace_cons (angle : Nat) (t : Token) (ts : List Token) : headBrace angle (t :: ts) =
    if t.isPunct '{' then some (t, ts)
    else if Method.endsType t || isClassKey t then none
    else if (t.isPunct '(' || t.isPunct ')') && angle == 0 then none
    else headBrace (openAfter '<' '>' angle t) ts := by
  have hkey {c : Char} (h : t.sign? = some c) : isClassKey t = false := by
    have hkind : t.isIdent = false := not_isIdent_of_isPunct (isPunct_of_sign? h)
    have hkind : (t.kind == .ident) = false := hkind
    simp [isClassKey, isWord, hkind]
  rw [headBrace, Method.endsType, openAfter, t.isPunct_eq_sign? (by decide),
    t.isPunct_eq_sign? (by decide), t.isPunct_eq_sign? (by decide), t.isPunct_eq_sign? (by decide),
    t.isPunct_eq_sign? (by decide), t.isPunct_eq_sign? (by decide), t.isPunct_eq_sign? (by decide),
    t.isPunct_eq_sign? (by decide)]
  split <;> simp_all

theorem headBrace_eq_some {angle : Nat} {ts rest : List Token} {brace : Token} :
    headBrace angle ts = some (brace, rest) ↔
      brace.isPunct '{' = true ∧ ∃ tail, Introduces angle tail ∧ ts = tail ++ brace :: rest := by
  induction ts generalizing angle with
  | nil => simp [headBrace]
  | cons t ts ih =>
    rw [headBrace_cons]
    constructor
    · intro h
      split at h
      · obtain ⟨rfl, rfl⟩ := Prod.mk.inj (Option.some.inj h)
        exact ⟨‹_›, [], introduces_nil angle, rfl⟩
      · split at h
        · simp at h
        · rename_i hplain
          split at h
          · simp at h
          · rename_i hparen
            obtain ⟨hbrace, tail, htail, rfl⟩ := ih.1 h
            simp only [Bool.or_eq_true, not_or, Bool.not_eq_true] at hplain
            refine ⟨hbrace, t :: tail, introduces_cons.2 ⟨⟨hplain.1, hplain.2, fun ht => ?_⟩,
              htail⟩, rfl⟩
            simp only [Bool.and_eq_true, Bool.or_eq_true, beq_iff_eq, not_and] at hparen
            exact Nat.pos_of_ne_zero (hparen ht)
    · rintro ⟨hbrace, tail, htail, hts⟩
      cases tail with
      | nil =>
        obtain ⟨rfl, rfl⟩ := List.cons.inj hts
        rw [if_pos hbrace]
      | cons u tail =>
        obtain ⟨rfl, rfl⟩ := List.cons.inj hts
        obtain ⟨⟨hends, hkey, hparen⟩, htail⟩ := introduces_cons.1 htail
        have hopen : t.isPunct '{' = false := by
          simp only [Method.endsType, Bool.or_eq_false_iff] at hends
          exact hends.1.1.2
        have hangle : ((t.isPunct '(' || t.isPunct ')') && angle == 0) = false := by
          cases hp : t.isPunct '(' || t.isPunct ')' with
          | false => rfl
          | true =>
            have := hparen (by simpa using hp)
            simp only [Bool.true_and, beq_eq_false_iff_ne]
            omega
        rw [hopen, hends, hkey, hangle]
        exact ih.2 ⟨hbrace, tail, htail, rfl⟩

/-- A class head up to the brace of its body. -/
structure HeadShape where
  /-- Attributes, words with an argument list and plain words, such as export macros. -/
  lead : List Token
  name : Token
  behind : List Token
  tail : List Token
  lead_passed : Passed true lead
  name_word : IsHeadWord name
  name_ne_nil : name.text ≠ []
  behind_passed : Passed false behind
  tail_stops : StopsName tail
  tail_introduces : Introduces 0 tail

namespace HeadShape

variable (s : HeadShape)

def tokens : List Token := s.lead ++ s.name :: (s.behind ++ s.tail)

/-- Where no argument list stands behind the name, template brackets are open at each parenthesis
behind it. -/
theorem enclosed (hbehind : ∀ t ∈ s.behind, t.isPunct '(' = false ∧ t.isPunct ')' = false)
    {front behind : List Token} {t : Token} (h : s.behind ++ s.tail = front ++ t :: behind)
    (ht : t.isPunct '(' = true ∨ t.isPunct ')' = true) : 0 < leftOpen '<' '>' 0 front := by
  have hnot : t ∉ s.behind := by
    intro hmem
    obtain ⟨hopen, hclose⟩ := hbehind t hmem
    simp [hopen, hclose] at ht
  rcases List.append_eq_append_iff.1 h with ⟨more, rfl, htail⟩ | ⟨more, hmore, htail⟩
  · rw [leftOpen_append]
    exact Nat.lt_of_lt_of_le (s.tail_introduces.enclosed more t behind htail ht)
      (leftOpen_mono _ _ (Nat.zero_le _) more)
  · cases more with
    | nil =>
      obtain rfl : s.behind = front := by simpa using hmore
      exact absurd (s.tail_introduces.enclosed [] t behind htail.symm ht) (Nat.lt_irrefl 0)
    | cons u more =>
      obtain rfl : t = u := (List.cons.inj htail).1
      exact absurd (hmore ▸ by simp) hnot

theorem head?_tokens {prev : Option Token} (hprev : prev.any barsHead = false) {brace : Token}
    (hbrace : brace.isPunct '{' = true) (rest : List Token) :
    head? prev (s.tokens ++ brace :: rest) = some ⟨s.name.text, brace, rest⟩ := by
  have hbody : headBrace 0 (s.tail ++ brace :: rest) = some (brace, rest) :=
    headBrace_eq_some.2 ⟨hbrace, s.tail, s.tail_introduces, rfl⟩
  have hstops : StopsName (s.tail ++ brace :: rest) := by
    have := s.tail_stops
    cases htail : s.tail with
    | nil =>
      rintro t ht
      obtain rfl := Option.some.inj ht
      exact ⟨.inl (not_isIdent_of_isPunct hbrace),
        by simp [isPunct_unique hbrace (d := '[') (by decide)]⟩
    | cons t ts =>
      rw [htail] at this
      rintro u hu
      obtain rfl := Option.some.inj hu
      refine ⟨(this t rfl).1, ?_⟩
      have hsecond := (this t rfl).2
      cases ts with
      | nil => simp [isPunct_unique hbrace (d := '[') (by decide)]
      | cons v vs => exact hsecond
  -- with no bracket open yet, the clause does not start with a parenthesis
  have hparen : (s.tail ++ brace :: rest).head?.any (·.isPunct '(') = false := by
    cases htail : s.tail with
    | nil => simp [isPunct_unique hbrace (d := '(') (by decide)]
    | cons t ts =>
      have hfirst := (introduces_cons.1 (htail ▸ s.tail_introduces)).1.2.2
      cases ht : t.isPunct '(' with
      | false => simpa using ht
      | true => exact absurd (hfirst (.inl ht)) (Nat.lt_irrefl 0)
  have hname : headName [] (s.tokens ++ brace :: rest) =
      some (s.name.text, s.tail ++ brace :: rest) := by
    have hword : (s.name :: (s.behind ++ (s.tail ++ brace :: rest))).head?.any (·.isPunct '(') =
        false := by
      simp [not_isPunct_of_isIdent s.name_word.ident]
    obtain ⟨name, hlead, _⟩ := headName_of_passed s.lead_passed hword []
    obtain ⟨name', hbehind, hkept⟩ := headName_of_passed s.behind_passed hparen s.name.text
    obtain rfl := hkept rfl
    calc headName [] (s.tokens ++ brace :: rest)
        = headName [] (s.lead ++ s.name :: (s.behind ++ (s.tail ++ brace :: rest))) := by
          simp [tokens]
      _ = headName name (s.name :: (s.behind ++ (s.tail ++ brace :: rest))) := hlead
      _ = headName s.name.text (s.behind ++ (s.tail ++ brace :: rest)) :=
          headName_of_word s.name_word (s.behind_passed.head_not_paren hparen) name
      _ = headName s.name.text (s.tail ++ brace :: rest) := hbehind
      _ = some (s.name.text, s.tail ++ brace :: rest) := headName_of_stops hstops _
  exact head?_eq_some.2 ⟨hprev, s.name_ne_nil, _, hname, hbody⟩

end HeadShape

theorem exists_of_head? {prev : Option Token} {ts : List Token} {h : Head}
    (hhead : head? prev ts = some h) :
    h.brace.isPunct '{' = true ∧ ∃ s : HeadShape, ts = s.tokens ++ h.brace :: h.rest ∧
    h.name = s.name.text := by
  obtain ⟨_, hne, rest, hname, hbody⟩ := head?_eq_some.1 hhead
  obtain ⟨hbrace, tail, htail, rfl⟩ := headBrace_eq_some.1 hbody
  obtain ⟨hstops, ⟨_, _, _, hnil⟩ | ⟨lead, t, behind, hlead, ht, hbehind, rfl, htext⟩⟩ :=
    exists_of_headName hname
  · exact absurd hnil hne
  · have hstops' : StopsName tail := by
      cases tail with
      | nil => simp [StopsName]
      | cons u us =>
        rintro v hv
        obtain rfl := Option.some.inj hv
        refine ⟨(hstops u rfl).1, ?_⟩
        cases us with
        | nil => simp
        | cons w ws => exact (hstops u rfl).2
    exact ⟨hbrace, ⟨lead, t, behind, tail, hlead, ht, htext ▸ hne, hbehind, hstops', htail⟩,
      by simp [HeadShape.tokens], htext⟩

/-- Exactly the tokens of a head shape with the brace of a body behind them are read as a class
head, unless the token before the key bars it. In a shape no semicolon, equals sign or brace stands
outside what is passed over, and with no argument list behind the name no parenthesis stands behind
it outside template brackets. -/
theorem head_grammar (prev : Option Token) (ts : List Token) (h : Head) :
    (head? prev ts = some h ↔ prev.any barsHead = false ∧ h.brace.isPunct '{' = true ∧
      ∃ s : HeadShape, ts = s.tokens ++ h.brace :: h.rest ∧ h.name = s.name.text) ∧
    ∀ s : HeadShape, (∀ t ∈ s.behind, t.isPunct '(' = false ∧ t.isPunct ')' = false) →
      ∀ front t behind, s.behind ++ s.tail = front ++ t :: behind →
        t.isPunct '(' = true ∨ t.isPunct ')' = true → 0 < leftOpen '<' '>' 0 front := by
  refine ⟨⟨fun hhead => ⟨(head?_eq_some.1 hhead).1, exists_of_head? hhead⟩, ?_⟩, ?_⟩
  · rintro ⟨hprev, hbrace, s, rfl, hname⟩
    rw [s.head?_tokens hprev hbrace, ← hname]
  · exact fun s hbehind front t behind => s.enclosed hbehind

open Parameter (onLine)

/-- The head `alignas(16) GFX_API IShape final : public Slot<int(float)>`. -/
def aligned : HeadShape where
  lead := [onLine .ident "alignas" 0, onLine .punct "(" 7, onLine .number "16" 8,
    onLine .punct ")" 10, onLine .ident "GFX_API" 12]
  name := onLine .ident "IShape" 20
  behind := []
  tail := [onLine .ident "final" 27, onLine .punct ":" 33, onLine .ident "public" 35,
    onLine .ident "Slot" 42,
    onLine .punct "<" 46, onLine .ident "int" 47, onLine .punct "(" 50, onLine .ident "float" 51,
    onLine .punct ")" 56, onLine .punct ">" 57]
  lead_passed := @Passed.group true _ _ _ [onLine .number "16" 8] _ (by decide) (by decide)
    (by decide) (by decide)
    (by decide) (by decide) (.word rfl ⟨by decide, by decide, by decide⟩ .nil)
  name_word := ⟨by decide, by decide, by decide⟩
  name_ne_nil := by decide
  behind_passed := .nil
  tail_stops := fun t ht => Option.some.inj ht ▸ by decide
  tail_introduces := by decide

/-- A head with an argument list before its name and one in its base clause. -/
theorem head_grammar_aligned :
    let ts := significant (ofText "alignas(16) GFX_API IShape final : public Slot<int(float)> \x7b")
    (head? none ts).map Head.name = some ("IShape" : Text) ∧ ∀ front t behind,
      aligned.tail = front ++ t :: behind →
      t.isPunct '(' = true ∨ t.isPunct ')' = true → 0 < leftOpen '<' '>' 0 front := by
  intro ts
  have hts : ts = aligned.tokens ++ [onLine .punct "\x7b" 59] := by decide +kernel
  obtain ⟨hread, henclosed⟩ := head_grammar none ts ⟨"IShape", onLine .punct "\x7b" 59, []⟩
  have hhead := hread.2 ⟨rfl, by decide, aligned, hts, rfl⟩
  refine ⟨by rw [hhead]; rfl, ?_⟩
  exact henclosed aligned (by simp [aligned])

def maker : HeadShape where
  lead := []
  name := onLine .ident "Foo" 0
  behind := [onLine .ident "make" 4, onLine .punct "(" 8, onLine .punct ")" 9]
  tail := []
  lead_passed := .nil
  name_word := ⟨by decide, by decide, by decide⟩
  name_ne_nil := by decide
  behind_passed :=
    @Passed.group false _ _ _ [] _ (by decide) (by decide) (by decide) (by decide) (by simp)
    (by decide) .nil
  tail_stops := by simp [StopsName]
  tail_introduces := by decide

/-- A function that returns a class is taken for the class, although a parenthesis stands behind the
name. -/
theorem head_takes_function :
    let ts := significant (ofText "Foo make() \x7b return Foo(); \x7d")
    ∃ h, head? none ts = some h ∧ h.name = maker.name.text ∧
      ts = maker.tokens ++ h.brace :: h.rest ∧
      ∃ front t behind, maker.behind ++ maker.tail = front ++ t :: behind ∧ t.isPunct '(' = true ∧
        leftOpen '<' '>' 0 front = 0 := by
  intro ts
  have hts : ts = maker.tokens ++ onLine .punct "\x7b" 11 :: ts.drop 5 := by decide +kernel
  refine ⟨⟨"Foo", onLine .punct "\x7b" 11, ts.drop 5⟩, ?_, rfl, hts, ?_⟩
  · rw [hts]
    exact maker.head?_tokens rfl (by decide) _
  · exact ⟨[onLine .ident "make" 4], onLine .punct "(" 8, [onLine .punct ")" 9], rfl, by decide,
      by decide⟩

end Interface
end HeaderBridge
