import HeaderBridge.Proofs.Interface.Comparison
import HeaderBridge.Proofs.Interface.Groups
import HeaderBridge.Proofs.Interface.Parts

namespace HeaderBridge

open Token

namespace Token

theorem not_isWord_of_not_isIdent {t : Token} (h : t.isIdent = false) (w : String) :
    t.isWord w = false := by
  rw [isWord, show (t.kind == .ident) = false from h, Bool.false_and]

end Token

namespace Method

/-- A word that stands in front is taken, unless it is told not to stand there. -/
theorem takeWord_of_words {w : String} {b : Bool} {ts us : List Token}
    (hts : ts.map lexeme = if b then [⟨.ident, (w : Text)⟩] else [])
    (hus : ∀ u ∈ us.head?, u.isWord w = false) : takeWord w (ts ++ us) = (b, us) := by
  cases b with
  | false =>
    obtain rfl := List.map_eq_nil_iff.1 hts
    cases us with
    | nil => rfl
    | cons u us => rw [List.nil_append, takeWord, if_neg (by simp [hus u rfl])]
  | true =>
    obtain ⟨t, ts', rfl, ht, hnil⟩ := List.map_eq_cons_iff.1 hts
    obtain rfl := List.map_eq_nil_iff.1 hnil
    obtain ⟨hkind, htext⟩ := Lexeme.mk.inj ht
    rw [List.singleton_append, takeWord, if_pos (by simp [isWord, hkind, htext])]

theorem isIdent_of_mem_qualifiers {isConst isNoexcept : Bool} {ts : List Token}
    (hts : ts.map lexeme = qualifierWords isConst isNoexcept) : ∀ t ∈ ts, t.isIdent = true := by
  intro t ht
  have hmem : t.lexeme ∈ qualifierWords isConst isNoexcept := hts ▸ List.mem_map_of_mem ht
  have hkind : t.kind = .ident := by
    rw [qualifierWords, List.mem_append] at hmem
    rcases hmem with h | h
    · split at h
      · exact (Lexeme.mk.inj (List.mem_singleton.1 h)).1
      · simp at h
    · split at h
      · exact (Lexeme.mk.inj (List.mem_singleton.1 h)).1
      · simp at h
  exact beq_iff_eq.2 hkind

/-- Between a parameter list and the end of the declaration there is no parenthesis. -/
theorem not_paren_of_mem_tail {isConst isNoexcept : Bool} {qualifiers : List Token}
    {mark zero semicolon : Token}
    (hwords : qualifiers.map lexeme = qualifierWords isConst isNoexcept)
    (hpure : PureMark mark zero semicolon) {c : Char} (hc : c = '(' ∨ c = ')') :
    ∀ t ∈ qualifiers ++ [mark, zero, semicolon],
      t.isPunct c = false := by
  intro t ht
  simp only [List.mem_append, List.mem_cons, List.not_mem_nil, or_false] at ht
  rcases ht with ht | rfl | rfl | rfl
  · exact not_isPunct_of_isIdent (isIdent_of_mem_qualifiers hwords t ht) c
  · rcases hc with rfl | rfl
    · exact isPunct_unique hpure.mark (by decide)
    · exact isPunct_unique hpure.mark (by decide)
  · rw [isPunct, (Lexeme.mk.inj hpure.zero).1]
    rfl
  · rcases hc with rfl | rfl
    · exact isPunct_unique hpure.semicolon (by decide)
    · exact isPunct_unique hpure.semicolon (by decide)

/-- A declaration that goes on in front of a parenthesis ends there too: its semicolon stands before
it. -/
theorem exists_of_readTail {ts us rest : List Token} {isConst isNoexcept : Bool} {paren : Token}
    {c : Char} (hc : c = '(' ∨ c = ')') (hparen : paren.isPunct c = true)
    (h : readTail (ts ++ paren :: us) = some (isConst, isNoexcept, rest)) :
    ∃ front semicolon more, ts = front ++ semicolon :: more ∧ semicolon.isPunct ';' = true ∧
      rest = more ++ paren :: us := by
  obtain ⟨qualifiers, mark, zero, semicolon, hwords, hpure, hts⟩ := eq_of_readTail h
  have hcut : ts ++ paren :: us = (qualifiers ++ [mark, zero, semicolon]) ++ rest := by
    simpa using hts
  rcases List.append_eq_append_iff.1 hcut with ⟨more, hmore, hleft⟩ | ⟨more, rfl, hleft⟩
  · cases more with
    | nil => exact ⟨qualifiers ++ [mark, zero], semicolon, [], by simpa using hmore.symm,
      hpure.semicolon, hleft.symm⟩
    | cons t more =>
      obtain rfl : paren = t := (List.cons.inj hleft).1
      have hmem : paren ∈ qualifiers ++ [mark, zero, semicolon] := by
        rw [hmore]
        simp
      simp [not_paren_of_mem_tail hwords hpure hc paren hmem] at hparen
  · exact ⟨qualifiers ++ [mark, zero], semicolon, more, by simp, hpure.semicolon, hleft⟩

/-- Where a member may start: at the front, behind a semicolon or a closing brace, or behind the
colon of a label. -/
def StartsMember (before : List Token) : Prop :=
  ∀ last ∈ before.getLast?, last.isPunct ';' = true ∨ last.isPunct '}' = true ∨
    last.isPunct ':' = true

/-- A pure virtual declaration as the grammar has it:
`virtual <type> <name> ( <parameters> ) [const] [noexcept] = 0 ;`. -/
structure PureDeclaration where
  keyword : Token
  type : List Token
  name : Token
  opener : Token
  params : List Token
  close : Token
  isConst : Bool
  isNoexcept : Bool
  qualifiers : List Token
  mark : Token
  zero : Token
  semicolon : Token
  keyword_word : keyword.isWord "virtual" = true
  type_ne_nil : type ≠ []
  /-- Template brackets are closed, a `(` stands in them only, and nothing in it ends a type. -/
  type_closed : angleAfter 0 none type = some 0
  type_ends : type.getLast?.any (fun t => t.kind == .scope || t.isPunct '~') = false
  name_ident : name.isIdent = true
  name_usable : isUsableName name.text = true
  name_plain : name.isWord "operator" = false
  opener_sign : opener.isPunct '(' = true
  params_balance : balances [] params = true
  close_sign : close.isPunct ')' = true
  qualifiers_words : qualifiers.map lexeme = qualifierWords isConst isNoexcept
  pure : PureMark mark zero semicolon

namespace PureDeclaration

variable (p : PureDeclaration)

def tail : List Token := p.qualifiers ++ [p.mark, p.zero, p.semicolon]

def behind : List Token := p.type ++ p.name :: p.opener :: (p.params ++ p.close :: p.tail)

def tokens : List Token := p.keyword :: p.behind

def parts (rest : List Token) : Declaration :=
  ⟨p.type, p.name, p.params, p.isConst, p.isNoexcept, rest⟩

theorem readTail_tail (rest : List Token) :
    readTail (p.tail ++ rest) = some (p.isConst, p.isNoexcept, rest) := by
  obtain ⟨consts, noexcepts, hsplit, hconsts, hnoexcepts⟩ :=
    List.map_eq_append_iff.1 p.qualifiers_words
  have hmark : ∀ w : String, p.mark.isWord w = false :=
    not_isWord_of_not_isIdent (not_isIdent_of_isPunct p.pure.mark)
  have hnoexcept : takeWord "noexcept" (noexcepts ++ p.mark :: p.zero :: p.semicolon :: rest) =
      (p.isNoexcept, p.mark :: p.zero :: p.semicolon :: rest) :=
    takeWord_of_words hnoexcepts fun u hu => Option.some.inj hu ▸ hmark "noexcept"
  have hconst :
      takeWord "const" (consts ++ (noexcepts ++ p.mark :: p.zero :: p.semicolon :: rest)) =
      (p.isConst, noexcepts ++ p.mark :: p.zero :: p.semicolon :: rest) := by
    apply takeWord_of_words hconsts
    intro u hu
    cases noexcepts with
    | nil => exact Option.some.inj hu ▸ hmark "const"
    | cons t ts =>
      obtain rfl : t = u := Option.some.inj hu
      have ht :
          t.lexeme ∈ if p.isNoexcept then [⟨TokenKind.ident, ("noexcept" : Text)⟩] else [] := by
        rw [← hnoexcepts]
        exact List.mem_cons_self ..
      obtain ⟨_, ht⟩ : p.isNoexcept = true ∧ t.lexeme = ⟨.ident, "noexcept"⟩ := by simpa using ht
      rw [isWord, (Lexeme.mk.inj ht).2, Bool.and_eq_false_imp]
      exact fun _ => by decide
  have hpure : afterPureMark (p.mark :: p.zero :: p.semicolon :: rest) = some rest := by
    obtain ⟨hkind, htext⟩ := Lexeme.mk.inj p.pure.zero
    rw [afterPureMark, p.pure.mark, p.pure.semicolon, hkind, htext]
    rfl
  have htail : p.tail ++ rest =
      consts ++ (noexcepts ++ p.mark :: p.zero :: p.semicolon :: rest) := by
    rw [tail, hsplit]
    simp
  simp only [readTail, htail, hconst, hnoexcept, hpure, Option.map_some]

theorem closeParen_close (rest : List Token) :
    closeParen 0 (p.close :: rest) = some ([], p.close :: rest) := by
  rw [closeParen.eq_def]
  simp [isPunct_unique p.close_sign (d := '(') (by decide), p.close_sign]

/-- The declaration is read from its tokens exactly if no semicolon stands among its parameters. -/
theorem declaration?_behind (rest : List Token) : declaration? (p.behind ++ rest) =
    if p.params.any (·.isPunct ';') then none else some (p.parts rest) := by
  have hlist := closeParen_of_balances p.params_balance 0 (p.close :: (p.tail ++ rest))
  have htokens : p.behind ++ rest =
      p.type ++ p.name :: p.opener :: (p.params ++ p.close :: (p.tail ++ rest)) := by
    simp [behind]
  rw [closeParen_close] at hlist
  rw [htokens, declaration?_type p.type_closed p.type_ne_nil p.type_ends p.name_ident p.name_plain
    p.name_usable p.opener_sign]
  simp only [List.count_nil, Nat.add_zero] at hlist
  rw [hlist]
  split
  · rfl
  · simp [p.readTail_tail rest, parts]

theorem closeParen_tail (depth : Nat) (rest : List Token) :
    closeParen depth (p.tail ++ rest) = none := by
  have hpass {t : Token} (ts : List Token) (ht : t.isPunct '(' = false)
      (ht' : t.isPunct ')' = false)
      (hts : closeParen depth ts = none) : closeParen depth (t :: ts) = none := by
    rw [closeParen.eq_def]
    simp [ht, ht', hts]
  have hend : closeParen depth (p.mark :: p.zero :: p.semicolon :: rest) = none := by
    have hzero (c : Char) : p.zero.isPunct c = false := by
      rw [isPunct, (Lexeme.mk.inj p.pure.zero).1]
      rfl
    have hsemicolon : closeParen depth (p.semicolon :: rest) = none := by
      rw [closeParen.eq_def]
      simp [isPunct_unique p.pure.semicolon (d := '(') (by decide),
        isPunct_unique p.pure.semicolon (d := ')') (by decide), p.pure.semicolon]
    exact hpass _ (isPunct_unique p.pure.mark (by decide)) (isPunct_unique p.pure.mark (by decide))
      (hpass _ (hzero _) (hzero _) hsemicolon)
  have hwords : ∀ t ∈ p.qualifiers, t.isIdent = true := isIdent_of_mem_qualifiers p.qualifiers_words
  rw [tail, List.append_assoc]
  generalize p.qualifiers = words at hwords ⊢
  induction words with
  | nil => exact hend
  | cons t ts ih =>
    have ht := hwords t (List.mem_cons_self ..)
    exact hpass _ (not_isPunct_of_isIdent ht _) (not_isPunct_of_isIdent ht _)
      (ih fun u hu => hwords u (List.mem_cons_of_mem t hu))

def lead : List Token := p.keyword :: (p.type ++ [p.name])

def list : List Token := p.params ++ p.close :: p.tail

theorem tokens_eq : p.tokens = p.lead ++ p.opener :: p.list := by simp [tokens, behind, lead, list]

theorem not_endsType_of_mem_lead : ∀ t ∈ p.lead, endsType t = false := by
  have hword {t : Token} (ht : t.isIdent = true) : endsType t = false := by
    simp [endsType, not_isPunct_of_isIdent ht]
  intro t ht
  simp only [lead, List.mem_cons, List.mem_append, List.not_mem_nil, or_false] at ht
  rcases ht with rfl | ht | rfl
  · exact hword (Bool.and_eq_true_iff.1 p.keyword_word).1
  · exact not_endsType_of_angleAfter p.type_closed t ht
  · exact hword p.name_ident

theorem closeParen_list (hparams : p.params.any (·.isPunct ';') = false) (rest : List Token) :
    closeParen 0 (p.list ++ rest) = some (p.params, p.close :: (p.tail ++ rest)) := by
  have hlist := closeParen_of_balances p.params_balance 0 (p.close :: (p.tail ++ rest))
  rw [closeParen_close, hparams] at hlist
  simpa [list] using hlist

theorem closeParen_opener (depth : Nat) (rest : List Token) :
    closeParen depth (p.opener :: (p.list ++ rest)) = none := by
  have hclose : closeParen (depth + 1) (p.close :: (p.tail ++ rest)) = none := by
    rw [closeParen.eq_def]
    simp [isPunct_unique p.close_sign (d := '(') (by decide), p.close_sign, p.closeParen_tail]
  have hparams := closeParen_of_balances p.params_balance (depth + 1) (p.close :: (p.tail ++ rest))
  rw [hclose, Option.map_none, ite_self, List.count_nil, Nat.add_zero] at hparams
  rw [closeParen.eq_def]
  simp [p.opener_sign, list, hparams]

/-- Some earlier `virtual` has only a return type between itself and the name. -/
def InsideType (before : List Token) : Prop :=
  ∃ front keyword type, before = front ++ keyword :: type ∧ keyword.isWord "virtual" = true ∧
    angleAfter 0 none (type ++ p.keyword :: p.type) = some 0

theorem not_insideType_of_suffix {ts us : List Token} (h : ¬p.InsideType us) (hs : ts <:+ us) :
    ¬p.InsideType ts := by
  rintro ⟨front, keyword, type, rfl, hkeyword, htype⟩
  obtain ⟨first, rfl⟩ := hs
  exact h ⟨first ++ front, keyword, type, by simp, hkeyword, htype⟩

/-- No parameter list of an earlier declaration opens behind the opener of this one. -/
theorem readTail_of_inner (hparams : p.params.any (·.isPunct ';') = false)
    {front inner close rest us : List Token} {opener : Token} (hopen : opener.isPunct '(' = true)
    (hfront : ∀ t ∈ front, endsType t = false) (hlist : p.list ++ rest = front ++ opener :: us)
    (hclose : closeParen 0 us = some (inner, close)) : readTail close.tail = none := by
  -- the opener stands among the parameters, since behind them comes an equals sign before the next
  -- parenthesis
  obtain ⟨params, hin⟩ : ∃ params, p.params = front ++ opener :: params := by
    have hcut : p.params ++ p.close :: (p.tail ++ rest) = front ++ opener :: us := by
      simpa [list] using hlist
    rcases append_cons_cases hcut with ⟨_, rfl, _⟩ | ⟨more, rfl, htail⟩ | ⟨more, hin, _⟩
    · simp [isPunct_unique p.close_sign (d := '(') (by decide)] at hopen
    · have hcut : p.qualifiers ++ p.mark :: (p.zero :: p.semicolon :: rest) =
          more ++ opener :: us := by
        simpa [tail] using htail
      rcases append_cons_cases hcut with ⟨_, rfl, _⟩ | ⟨more, rfl, _⟩ | ⟨more, hin, _⟩
      · simp [isPunct_unique p.pure.mark (d := '(') (by decide)] at hopen
      · have := hfront p.mark (by simp)
        simp [endsType, p.pure.mark] at this
      · have := isIdent_of_mem_qualifiers p.qualifiers_words opener (by simp [hin])
        simp [not_isPunct_of_isIdent this] at hopen
    · exact ⟨more, hin⟩
  have hgroup := p.closeParen_list hparams rest
  rw [hlist, hin] at hgroup
  obtain ⟨first, closer, later, hinner, rfl⟩ := closeParen_nested hopen hgroup
  obtain ⟨rfl, rfl⟩ := Prod.mk.inj (Option.some.inj (hinner.symm.trans hclose))
  -- so the list closes there too, and no semicolon stands between its closer and that of the own
  -- list
  apply Option.eq_none_iff_forall_ne_some.2
  rintro ⟨isConst, isNoexcept, left⟩ htail
  obtain ⟨before, semicolon, behind, rfl, hsemi, _⟩ :=
    exists_of_readTail (.inr rfl) p.close_sign htail
  simp [hin, hsemi] at hparams

/-- An earlier declaration that is read ends before this one starts, unless its type goes on to the
name. -/
theorem exists_of_declaration? (hparams : p.params.any (·.isPunct ';') = false)
    {ts rest : List Token} {d : Declaration} (h : declaration? (ts ++ (p.tokens ++ rest)) = some d)
    (hts : angleAfter 0 none (ts ++ p.keyword :: p.type) ≠ some 0) :
    ∃ us, us <:+ ts ∧ d.rest = us ++ (p.tokens ++ rest) := by
  obtain ⟨afterOpen, close, _, hsplit, _, _, hclose, htail⟩ := parts_of_declaration? h
  obtain ⟨opener, hopen, hopened⟩ := eq_of_splitParams hsplit
  have hangle := angleAfter_of_splitParams hsplit
  generalize d.type ++ [d.name] = head at hopened hangle
  have hcut : (ts ++ p.lead) ++ p.opener :: (p.list ++ rest) = head ++ opener :: afterOpen := by
    simpa [tokens_eq] using hopened
  rcases append_cons_cases hcut with ⟨rfl, _, _⟩ | ⟨more, rfl, hmore⟩ | ⟨more, hhead, rfl⟩
  · -- the own list is the list of both
    have hname : ts ++ p.lead = (ts ++ p.keyword :: p.type) ++ [p.name] := by simp [lead]
    rw [hname, angleAfter_append] at hangle
    obtain ⟨angle, htype, hangle⟩ := Option.bind_eq_some_iff.1 hangle
    have hsign : p.name.sign? = none := by
      have hk : p.name.kind = .ident := beq_iff_eq.1 p.name_ident
      simp [sign?, hk]
    obtain rfl : angle = 0 := by simpa [angleAfter, hsign] using hangle
    exact absurd htype hts
  · have hfront : ∀ u ∈ more, endsType u = false := fun u hu =>
      not_endsType_of_angleAfter hangle u (by simp [hu])
    simp [p.readTail_of_inner hparams hopen hfront hmore hclose] at htail
  · -- the earlier list closes before the own one opens, and a semicolon stands between them
    rcases closeParen_append_cases hclose with ⟨inner, closer, behind, rfl, rfl⟩ | ⟨later,
      last, hlater⟩
    · obtain ⟨front, semicolon, us, rfl, hsemi, hrest⟩ :=
        exists_of_readTail (.inl rfl) p.opener_sign htail
      have hlead : semicolon ∉ p.lead := by
        intro hmem
        have := p.not_endsType_of_mem_lead semicolon hmem
        simp [endsType, hsemi] at this
      have hcut : ts ++ p.lead = (head ++ opener :: (inner ++ closer :: front)) ++
          semicolon :: us := by
        simpa using hhead
      rcases List.append_eq_append_iff.1 hcut with ⟨first, _, hin⟩ | ⟨first, rfl, hfirst⟩
      · exact absurd (by simp [hin]) hlead
      · cases first with
        | nil =>
          have hin : p.lead = semicolon :: us := hfirst.symm
          exact absurd (by simp [hin]) hlead
        | cons t first =>
          obtain ⟨rfl, rfl⟩ := List.cons.inj hfirst
          exact ⟨first, (List.suffix_cons _ first).trans (List.suffix_append _ _),
            by simpa [tokens_eq] using hrest⟩
    · simp [p.closeParen_opener] at hlater

/-- Behind closed braces the declaration is read, whatever was read before. -/
theorem mem_collect (hparams : p.params.any (·.isPunct ';') = false) (source : Text) {depth : Nat}
    {before : List Token} (hdepth : leftOpen '{' '}' depth before = 0)
    (htype : ¬p.InsideType before) (rest : List Token) :
    ofDeclaration source p.keyword.pos.line (p.parts rest) ∈
      collect source depth (before ++ (p.tokens ++ rest)) := by
  -- a declaration read in between takes some of the tokens before with it
  induction hn : before.length using Nat.strongRecOn generalizing depth before with
  | ind n ih =>
    cases before with
    | nil =>
      obtain rfl : depth = 0 := hdepth
      have hread : declared? 0 p.keyword (p.behind ++ rest) = some (p.parts rest) :=
        declared?_eq_some.2 ⟨rfl, p.keyword_word, by rw [p.declaration?_behind, hparams]; rfl⟩
      rw [List.nil_append, tokens, List.cons_append, collect_step, hread]
      exact List.mem_cons_self ..
    | cons t ts =>
      rw [List.cons_append, collect_step]
      cases hd : declared? depth t (ts ++ (p.tokens ++ rest)) with
      | none =>
        exact ih ts.length (by simp [← hn]) hdepth
          (p.not_insideType_of_suffix htype (List.suffix_cons t ts)) rfl
      | some d =>
        obtain ⟨rfl, hvirtual, hread⟩ := declared?_eq_some.1 hd
        have hangle : angleAfter 0 none (ts ++ p.keyword :: p.type) ≠ some 0 := fun hangle =>
          htype ⟨[], t, ts, rfl, hvirtual, hangle⟩
        -- the reader goes on behind it, outside all braces and with an end part of the tokens
        -- before
        obtain ⟨us, hus, hrest⟩ := p.exists_of_declaration? hparams hread hangle
        have hlen := hus.length_le
        rw [List.length_cons] at hn
        dsimp only
        rw [hrest]
        exact List.mem_cons_of_mem _ (ih us.length (by omega) (leftOpen_suffix hus _ hdepth)
          (p.not_insideType_of_suffix htype (hus.trans (List.suffix_cons t ts))) rfl)

/-- The declaration read from an earlier `virtual`, if only a return type stands between it and the
name. -/
def widened (keyword : Token) (type : List Token) (hkeyword : keyword.isWord "virtual" = true)
    (htype : angleAfter 0 none (type ++ p.keyword :: p.type) = some 0) : PureDeclaration :=
  { p with
    keyword := keyword
    type := type ++ p.keyword :: p.type
    keyword_word := hkeyword
    type_ne_nil := by simp
    type_closed := htype
    type_ends := by
      obtain ⟨last, hlast⟩ := Option.isSome_iff_exists.1 (List.getLast?_isSome.2 p.type_ne_nil)
      have := p.type_ends
      rw [hlast] at this
      rw [List.getLast?_append, List.getLast?_cons, hlast]
      exact this }

/-- The declaration `q` behind the tokens `front` takes in the one behind the tokens `before`: it
ends with it, and its return type goes on from an earlier `virtual` through the other keyword to the
name. -/
structure TakesIn (q : PureDeclaration) (front before : List Token) : Prop where
  type : ∃ type, before = front ++ q.keyword :: type ∧ q.type = type ++ p.keyword :: p.type
  tokens : front ++ q.tokens = before ++ p.tokens
  name : q.name = p.name
  params : q.params = p.params

theorem takesIn_widened {front before type : List Token} {keyword : Token}
    (hbefore : before = front ++ keyword :: type) (hkeyword : keyword.isWord "virtual" = true)
    (htype : angleAfter 0 none (type ++ p.keyword :: p.type) = some 0) :
    p.TakesIn (p.widened keyword type hkeyword htype) front before :=
  ⟨⟨type, hbefore, rfl⟩, by simp [hbefore, PureDeclaration.tokens, behind, tail, widened], rfl, rfl⟩

theorem TakesIn.trans {p q r : PureDeclaration} {first front before : List Token}
    (h : q.TakesIn r first front) (hp : p.TakesIn q front before) : p.TakesIn r first before := by
  obtain ⟨type, hfront, htype⟩ := h.type
  obtain ⟨type', hbefore, htype'⟩ := hp.type
  exact ⟨⟨type ++ q.keyword :: type', by simp [hbefore, hfront], by simp [htype, htype']⟩,
    h.tokens.trans hp.tokens, h.name.trans hp.name, h.params.trans hp.params⟩

/-- Either only the declaration itself goes up to its name, or the first one that takes it in
does. -/
theorem exists_outermost (before : List Token) :
    ¬p.InsideType before ∨ ∃ q front, p.TakesIn q front before ∧ ¬q.InsideType front := by
  induction hn : before.length using Nat.strongRecOn generalizing p before with
  | ind n ih =>
    apply Classical.or_iff_not_imp_left.2
    rw [Classical.not_not]
    rintro ⟨front, keyword, type, hbefore, hkeyword, htype⟩
    have htakes := p.takesIn_widened hbefore hkeyword htype
    have hlen : front.length < n := by
      rw [← hn, hbefore]
      simp
    -- the earlier keyword may itself stand in the type of a declaration before it
    rcases ih front.length hlen (p.widened keyword type hkeyword htype) front rfl with
      h | ⟨q, first, hq, h⟩
    · exact ⟨_, front, htakes, h⟩
    · exact ⟨q, first, hq.trans htakes, h⟩

/-- Only the colon of a label can stand between an earlier `virtual` and a declaration that starts a
member. -/
theorem TakesIn.colon {p q : PureDeclaration} {front before : List Token}
    (h : p.TakesIn q front before) (hstart : StartsMember before) :
    before.getLast?.any (·.isPunct ':') = true := by
  obtain ⟨type, hbefore, htype⟩ := h.type
  obtain ⟨last, hlast⟩ : ∃ last, (q.keyword :: type).getLast? = some last :=
    Option.isSome_iff_exists.1 (List.getLast?_isSome.2 (by simp))
  have hends : endsType last = false := by
    rcases List.mem_cons.1 (List.mem_of_getLast? hlast) with rfl | hmem
    · exact q.not_endsType_of_mem_lead q.keyword (by simp [lead])
    · exact q.not_endsType_of_mem_lead last (by simp [lead, htype, hmem])
  have hlast' : before.getLast? = some last := by
    rw [hbefore, List.getLast?_append, hlast, Option.some_or]
  rw [hlast']
  simp only [endsType, Bool.or_eq_false_iff] at hends
  -- of the tokens that a member starts behind, a type holds the colon only
  rcases hstart last hlast' with hsemi | hbrace | hcolon
  · simp [hends.1.1.1] at hsemi
  · simp [hends.1.2] at hbrace
  · exact hcolon

theorem TakesIn.leftOpen_front {p q : PureDeclaration} {front before : List Token}
    (h : p.TakesIn q front before) : leftOpen '{' '}' 0 front = leftOpen '{' '}' 0 before := by
  obtain ⟨type, hbefore, htype⟩ := h.type
  rw [hbefore, leftOpen_append]
  refine (leftOpen_of_forall (fun t ht => ?_) _).symm
  have hends : endsType t = false := by
    rcases List.mem_cons.1 ht with rfl | hmem
    · exact q.not_endsType_of_mem_lead q.keyword (by simp [lead])
    · exact q.not_endsType_of_mem_lead t (by simp [lead, htype, hmem])
  simp only [endsType, Bool.or_eq_false_iff] at hends
  exact ⟨hends.1.1.2, hends.1.2⟩

end PureDeclaration

/-- Every declaration that stands outside all braces is among the methods of a body, if no semicolon
stands among its parameters. It has its own line there, unless it stands behind a colon and an
earlier `virtual` has only a return type between itself and the name. With a semicolon among the
parameters, be it in the braces of a lambda, the declaration cannot be read. -/
theorem ofBody_complete (body : Text) (p : PureDeclaration) (before behind : List Token)
    (hbody : significant (ofText body) = before ++ (p.tokens ++ behind))
    (hdepth : leftOpen '{' '}' 0 before = 0) (hstart : StartsMember before) :
    ((∀ t ∈ p.params, t.isPunct ';' = false) → ∃ m ∈ ofBody body, m.name = p.name.text ∧
      (m.line = p.keyword.pos.line ∨ before.getLast?.any (·.isPunct ':') = true ∧
        ∃ q front, p.TakesIn q front before ∧ m.line = q.keyword.pos.line)) ∧
    ((∃ t ∈ p.params, t.isPunct ';' = true) → declaration? (p.behind ++ behind) = none) := by
  constructor
  · intro hparams
    rcases p.exists_outermost before with hfirst | ⟨q, front, htakes, hfirst⟩
    · refine ⟨ofDeclaration (stripComments body) p.keyword.pos.line (p.parts behind), ?_,
        rfl, .inl rfl⟩
      rw [ofBody, hbody]
      exact p.mem_collect (by simpa using hparams) _ hdepth hfirst behind
    · refine ⟨ofDeclaration (stripComments body) q.keyword.pos.line (q.parts behind), ?_,
        congrArg Token.text htakes.name, .inr ⟨htakes.colon hstart, q, front, htakes, rfl⟩⟩
      rw [ofBody, hbody, ← List.append_assoc, ← htakes.tokens, List.append_assoc]
      exact q.mem_collect (by simpa [htakes.params] using hparams) _
        (htakes.leftOpen_front.trans hdepth) hfirst behind
  · intro hparams
    rw [p.declaration?_behind, if_pos (by simpa using hparams)]

/-- Behind the colon of a bit field without a width the line is that of the first keyword. -/
example : (ofBody "virtual int a :\nvirtual void g() = 0;").map (fun m => (m.name, m.line)) =
    [(("g" : Text), 1)] := by
  decide +kernel

open Parameter (onLine)

/-- The declaration of `f` behind the body of another method, in one line:
`virtual std::map<int, int> f(A a = A\x7b1, (2)\x7d) const = 0;`. -/
def mapped : PureDeclaration where
  keyword := onLine .ident "virtual" 22
  type := [onLine .ident "std" 30, onLine .scope "::" 33, onLine .ident "map" 35,
    onLine .punct "<" 38, onLine .ident "int" 39, onLine .punct "," 42, onLine .ident "int" 44,
      onLine .punct ">" 47]
  name := onLine .ident "f" 49
  opener := onLine .punct "(" 50
  params := [onLine .ident "A" 51, onLine .ident "a" 53, onLine .punct "=" 55, onLine .ident "A" 57,
    onLine .punct "\x7b" 58, onLine .number "1" 59, onLine .punct "," 60, onLine .punct "(" 62,
    onLine .number "2" 63, onLine .punct ")" 64, onLine .punct "\x7d" 65]
  close := onLine .punct ")" 66
  isConst := true
  isNoexcept := false
  qualifiers := [onLine .ident "const" 68]
  mark := onLine .punct "=" 74
  zero := onLine .number "0" 76
  semicolon := onLine .punct ";" 77
  keyword_word := by decide
  type_ne_nil := by decide
  type_closed := by decide
  type_ends := by decide
  name_ident := by decide
  name_usable := by decide
  name_plain := by decide
  opener_sign := by decide
  params_balance := by decide
  close_sign := by decide
  qualifiers_words := by decide
  pure := ⟨by decide, by decide, by decide⟩

/-- A list with braces and parentheses in it, behind the body of another method. -/
theorem ofBody_complete_mapped :
    let body : Text :=
      "int h() \x7b return 1; \x7d virtual std::map<int, int> f(A a = A\x7b1, (2)\x7d) const = 0;"
    ∃ m ∈ ofBody body, m.name = "f" ∧ m.line = 1 := by
  intro body
  have hbody : significant (ofText body) = (significant (ofText body)).take 9 ++
      (mapped.tokens ++ []) := by
    decide +kernel
  have hlast : ((significant (ofText body)).take 9).getLast? = some (onLine .punct "\x7d" 20) := by
    decide +kernel
  have hstart : StartsMember ((significant (ofText body)).take 9) := by
    intro last hl
    obtain rfl := Option.some.inj (hlast.symm.trans hl)
    exact .inr (.inl (by decide))
  obtain ⟨m, hm, hname, hline⟩ :=
    (ofBody_complete body mapped _ [] hbody (by decide +kernel) hstart).1 (by decide)
  refine ⟨m, hm, hname, ?_⟩
  rcases hline with hline | ⟨hcolon, _⟩
  · exact hline
  · -- the body of the other method ends in front of the declaration
    rw [hlast] at hcolon
    exact absurd hcolon (by decide)

/-- The declaration `virtual void f(int x = [] \x7b return 1; \x7d()) = 0;`. -/
def computed : PureDeclaration where
  keyword := onLine .ident "virtual" 0
  type := [onLine .ident "void" 8]
  name := onLine .ident "f" 13
  opener := onLine .punct "(" 14
  params :=
    [onLine .ident "int" 15, onLine .ident "x" 19, onLine .punct "=" 21, onLine .punct "[" 23,
    onLine .punct "]" 24, onLine .punct "\x7b" 26, onLine .ident "return" 28, onLine .number "1" 35,
    onLine .punct ";" 36, onLine .punct "\x7d" 38, onLine .punct "(" 39, onLine .punct ")" 40]
  close := onLine .punct ")" 41
  isConst := false
  isNoexcept := false
  qualifiers := []
  mark := onLine .punct "=" 43
  zero := onLine .number "0" 45
  semicolon := onLine .punct ";" 46
  keyword_word := by decide
  type_ne_nil := by decide
  type_closed := by decide
  type_ends := by decide
  name_ident := by decide
  name_usable := by decide
  name_plain := by decide
  opener_sign := by decide
  params_balance := by decide
  close_sign := by decide
  qualifiers_words := by decide
  pure := ⟨by decide, by decide, by decide⟩

/-- A lambda with a statement in it hides the declaration. -/
theorem ofBody_drops_lambda :
    let body : Text := "virtual void f(int x = [] \x7b return 1; \x7d()) = 0;"
    significant (ofText body) = computed.tokens ∧ ofBody body = [] := by
  decide +kernel

end Method
end HeaderBridge
