import HeaderBridge.Proofs.Interface.Comparison
import HeaderBridge.Proofs.Interface.Groups
import HeaderBridge.Proofs.Interface.Parts

namespace HeaderBridge

open Token

namespace Method

/-- The name of a declaration that is read, with the token before it. -/
structure NamedPlainly (d : Declaration) : Prop where
  ident : d.name.isIdent = true
  usable : isUsableName d.name.text = true
  not_operator : d.name.isWord "operator" = false
  /-- A type stands before it, which ends neither in `::` nor in the `~` of a destructor. -/
  type_ends : ∃ prev, d.type.getLast? = some prev ∧ prev.kind ≠ .scope ∧ prev.isPunct '~' = false

theorem declaration?_named {ts : List Token} {d : Declaration} (h : declaration? ts = some d) :
    NamedPlainly d ∧ ∃ opener rest, opener.isPunct '(' = true ∧
      ts = (d.type ++ [d.name]) ++ opener :: rest ∧
      angleAfter 0 none (d.type ++ [d.name]) = some 0 := by
  obtain ⟨afterOpen, close, prev, hsplit, hprev, hname, _, _⟩ := parts_of_declaration? h
  obtain ⟨opener, hopen, hts⟩ := eq_of_splitParams hsplit
  simp only [isMethodName, Bool.and_eq_true, Bool.not_eq_true', Bool.or_eq_false_iff,
    beq_eq_false_iff_ne] at hname
  obtain ⟨⟨⟨hident, hoperator⟩, husable⟩, hscope, htilde⟩ := hname
  exact ⟨⟨hident, husable, hoperator, prev, hprev, hscope, htilde⟩, opener, afterOpen, hopen, hts,
    angleAfter_of_splitParams hsplit⟩

/-- An operator: the word `operator` outside template brackets, what stands behind it up to the next
parenthesis, and everything from this parenthesis on. -/
structure OperatorHead where
  lead : List Token
  word : Token
  symbol : List Token
  opener : Token
  rest : List Token
  lead_closed : angleAfter 0 none lead = some 0
  word_operator : word.isWord "operator" = true
  symbol_plain : ∀ t ∈ symbol, t.isPunct '(' = false
  opener_sign : opener.isPunct '(' = true

namespace OperatorHead

variable (o : OperatorHead)

def tokens : List Token := o.lead ++ o.word :: (o.symbol ++ o.opener :: o.rest)

/-- How a declaration comes to be read from an operator: its name is the last word of the symbol, or
the symbol holds a `<` that is taken for a template bracket, and the name stands behind the bracket
that closes it. -/
def Misread (d : Declaration) : Prop :=
  (d.type ++ [d.name] = o.lead ++ o.word :: o.symbol ∧ o.symbol.getLast? = some d.name ∧
      angleAfter 0 (some o.word) o.symbol = some 0) ∨
    ∃ angle more, angleAfter 0 (some o.word) o.symbol = some (angle + 1) ∧
      angleAfter (angle + 1) (some o.opener) more = some 0 ∧
      d.type ++ [d.name] = o.lead ++ o.word :: (o.symbol ++ o.opener :: more)

theorem angleAfter_word (angle : Nat) (prev : Option Token) (ts : List Token) :
    angleAfter angle prev (o.word :: ts) = angleAfter angle (some o.word) ts := by
  have hkind : o.word.kind = .ident := by
    have := o.word_operator
    rw [isWord, Bool.and_eq_true, beq_iff_eq] at this
    exact this.1
  rw [angleAfter, sign?, hkind]

/-- The parameter list of a declaration is not opened before the symbol ends. -/
theorem eq_append_of_tokens {head rest : List Token} {opener : Token}
    (hopen : opener.isPunct '(' = true) (hhead : angleAfter 0 none head = some 0)
    (h : o.tokens = head ++ opener :: rest) :
    ∃ more, head = o.lead ++ o.word :: o.symbol ++ more ∧
    o.opener :: o.rest = more ++ opener :: rest := by
  have htokens : (o.lead ++ o.word :: o.symbol) ++ o.opener :: o.rest = head ++ opener :: rest := by
    rw [← h, tokens]
    simp
  rcases append_cons_cases htokens with ⟨hhead, hopener, hrest⟩ | ⟨more, hhead, hrest⟩ | ⟨more,
    hfront, _⟩
  · exact ⟨[], by simpa using hhead.symm, by rw [hopener, hrest, List.nil_append]⟩
  · exact ⟨o.opener :: more, hhead, by rw [hrest, List.cons_append]⟩
  · -- no parenthesis stands in the symbol, and one outside brackets would have ended the lead
    rcases append_cons_cases hfront with ⟨_, hword, _⟩ | ⟨front, _, hsymbol⟩ | ⟨front, hlead, _⟩
    · have hident : o.word.isIdent = true := (Bool.and_eq_true_iff.1 o.word_operator).1
      simp [← hword, not_isPunct_of_isIdent hident] at hopen
    · simp [o.symbol_plain opener (by simp [hsymbol])] at hopen
    · have hclosed := o.lead_closed
      rw [hlead, angleAfter_append, hhead, Option.bind_some, angleAfter,
        sign?_of_isPunct hopen (by decide)] at hclosed
      simp at hclosed

theorem misread_of_declaration? {d : Declaration} (h : declaration? o.tokens = some d) :
    o.Misread d := by
  obtain ⟨hnamed, opener, rest, hopen, htokens, hangle⟩ := declaration?_named h
  obtain ⟨more, hhead, hrest⟩ := o.eq_append_of_tokens hopen hangle htokens
  rw [hhead, List.append_assoc, angleAfter_append, o.lead_closed, Option.bind_some,
    List.cons_append, angleAfter_word, angleAfter_append] at hangle
  obtain ⟨angle, hsymbol, hmore⟩ := Option.bind_eq_some_iff.1 hangle
  -- the list opens at the next parenthesis, unless that one stands in a bracket
  cases more with
  | nil =>
    obtain rfl : angle = 0 := Option.some.inj hmore
    have hname : o.symbol.getLast?.or (some o.word) = some d.name := by
      have := congrArg List.getLast? hhead
      rw [List.append_nil, List.getLast?_concat, List.getLast?_append, List.getLast?_cons] at this
      cases hlast : o.symbol.getLast? <;> simp_all
    refine .inl ⟨by simpa using hhead, ?_, hsymbol⟩
    cases hlast : o.symbol.getLast? with
    | some last => rwa [hlast, Option.some_or] at hname
    | none =>
      -- the call operator would be named by its own keyword
      rw [hlast, Option.none_or] at hname
      have := hnamed.not_operator
      rw [← Option.some.inj hname, o.word_operator] at this
      cases this
  | cons t more =>
    obtain rfl : o.opener = t := (List.cons.inj hrest).1
    rw [angleAfter, sign?_of_isPunct o.opener_sign (by decide)] at hmore
    cases angle with
    | zero => simp at hmore
    | succ angle => exact .inr ⟨angle, more, hsymbol, by simpa using hmore, by simpa using hhead⟩

end OperatorHead

/-- No method of a body is named like a destructor, by a qualified name or by the word `operator`.
One that is read from an operator is named by the last word of its symbol, or stands behind a `<` in
it. -/
theorem ofBody_operators (body : Text) : ∃ sites : List Site,
    ofBody body = sites.map (Site.method (stripComments body)) ∧
    ∀ s ∈ sites, ∃ before behind, significant (ofText body) = before ++ s.keyword :: behind ∧
      s.ReadFrom behind ∧
      NamedPlainly s.decl ∧ ∀ o : OperatorHead, o.tokens = behind → o.Misread s.decl := by
  obtain ⟨sites, hsites, _, hread⟩ :=
    exists_sites (stripComments body) 0 (significant (ofText body))
  refine ⟨sites, hsites, fun s hs => ?_⟩
  obtain ⟨before, behind, hbehind, hfrom⟩ := hread s hs
  refine ⟨before, behind, hbehind, hfrom, (declaration?_named hfrom.read).1, ?_⟩
  rintro o rfl
  exact o.misread_of_declaration? hfrom.read

example : (ofBody "virtual bool operator<(A<(1>0)> x) noexcept(true) = 0;").map Method.name =
    [("noexcept" : Text)] := by decide +kernel

open Parameter (onLine)

/-- The conversion to `Foo` in the line `virtual operator Foo() const = 0;`. -/
def conversion : OperatorHead where
  lead := []
  word := onLine .ident "operator" 8
  symbol := [onLine .ident "Foo" 17]
  opener := onLine .punct "(" 20
  rest := [onLine .punct ")" 21, onLine .ident "const" 23, onLine .punct "=" 29,
    onLine .number "0" 31, onLine .punct ";" 32]
  lead_closed := by decide
  word_operator := by decide
  symbol_plain := by decide
  opener_sign := by decide

/-- The conversion is read as a method that is named by its symbol. -/
theorem ofBody_operators_conversion :
    let body : Text := "virtual operator Foo() const = 0;"
    ∃ s : Site, ofBody body = [s.method (stripComments body)] ∧ s.ReadFrom conversion.tokens ∧
      conversion.Misread s.decl := by
  intro body
  obtain ⟨sites, hsites, hread⟩ := ofBody_operators body
  have hbody : significant (ofText body) = onLine .ident "virtual" 0 :: conversion.tokens := by
    decide +kernel
  have hcount : sites.length = 1 := by
    have hlen : (ofBody body).length = 1 := by decide +kernel
    rwa [hsites, List.length_map] at hlen
  obtain ⟨s, rfl⟩ := List.length_eq_one_iff.1 hcount
  obtain ⟨before, behind, hbehind, hfrom, _, hmisread⟩ := hread s (List.mem_singleton_self s)
  obtain rfl : conversion.tokens = behind := by
    rw [hbody] at hbehind
    cases before with
    | nil => exact (List.cons.inj hbehind).2
    | cons t before =>
      -- the word `virtual` stands at the front only
      have hmem : s.keyword ∈ conversion.tokens := by
        rw [(List.cons.inj hbehind).2]
        simp
      have hplain : ∀ t ∈ conversion.tokens, t.isWord "virtual" = false := by decide
      exact absurd hfrom.keyword (by simp [hplain _ hmem])
  exact ⟨s, hsites, hfrom, hmisread conversion rfl⟩

/-- An operator is among the methods. -/
theorem ofBody_takes_operator :
    let body : Text := "virtual operator Foo() const = 0;"
    ofBody body =
      [{ returnType := "operator", name := "Foo", parameters := [],
         isConst := true, line := 1 }] := by
  decide +kernel

end Method
end HeaderBridge
