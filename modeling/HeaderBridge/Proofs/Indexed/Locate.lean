import HeaderBridge.Proofs.Indexed.Method

namespace HeaderBridge
namespace Checked

open Token Interface

def punctAt (c : Char) (toks : List Token) (j : Nat) : Checked Bool := do
  if j < toks.length then
    let t ← at? toks j
    return t.isPunct c
  else return false

/-- The index of the `]` that closes the last of `depth` open brackets, from index `j` on. -/
def attributeFrom (toks : List Token) (depth : Int) (j : Nat) : Checked (Option Nat) := do
  if j < toks.length then
    let t ← at? toks j
    if t.isPunct '[' then attributeFrom toks (depth + 1) (j + 1)
    else if t.isPunct ']' then
      if depth - 1 = 0 then return some j else attributeFrom toks (depth - 1) (j + 1)
    else attributeFrom toks depth (j + 1)
  else return none
termination_by toks.length - j

/-- Reads the name part of a head from index `j` on, and tells the index behind it. -/
def headName (toks : List Token) (name : Text) (j : Nat) : Checked (Option (Text × Nat)) := do
  if j < toks.length then
    let t ← at? toks j
    let doubled ← punctAt '[' toks (j + 1)
    let called ← punctAt '(' toks (j + 1)
    if t.isPunct '[' && doubled then
      match ← attributeFrom toks 0 j with
      | none => return none
      | some close =>
        let ⟨_⟩ ← nearer? j (close + 1)
        headName toks name (close + 1)
    else if t.isWord "final" then return some (name, j)
    else if t.isIdent then
      if called then
        match ← matchParen toks (j + 1) with
        | none => return none
        | some close =>
          let ⟨_⟩ ← nearer? j (close + 1)
          headName toks name (close + 1)
      else if isClassKey t then return none
      else headName toks t.text (j + 1)
    else return some (name, j)
  else return some (name, j)
termination_by toks.length - j

/-- The index of the opening brace of a class body, past base classes from index `j` on. -/
def headBrace (toks : List Token) (angle j : Nat) : Checked (Option Nat) := do
  if j < toks.length then
    let t ← at? toks j
    match t.sign? with
    | some '{' => return some j
    | some '<' => headBrace toks (angle + 1) (j + 1)
    | some '>' => headBrace toks (angle - 1) (j + 1)
    | some '(' | some ')' => if angle = 0 then return none else headBrace toks angle (j + 1)
    | some ';' | some '=' | some '}' => return none
    | _ => if isClassKey t then return none else headBrace toks angle (j + 1)
  else return none
termination_by toks.length - j

/-- Reads the head of a class definition whose keyword stands at index `i`: its name and the index
of its brace. -/
def head (toks : List Token) (i : Nat) : Checked (Option (Text × Nat)) := do
  let prev ← before? toks i
  if prev.any barsHead then return none
  else
    match ← headName toks [] (i + 1) with
    | none => return none
    | some (name, j) =>
      if name.isEmpty then return none
      else
        let opener ← headBrace toks 0 j
        return opener.map fun opener => (name, opener)

/-- Reads the names of a namespace from index `j` on, and tells the index of its brace. -/
def namespaceHead (toks : List Token) (j : Nat) : Checked (Option (List Text × Nat)) := do
  if j < toks.length then
    let t ← at? toks j
    if t.isPunct '{' then return some ([], j)
    else if t.isIdent then
      let r ← namespaceHead toks (j + 1)
      return r.map fun r => (t.text :: r.1, r.2)
    else if t.kind == .scope then namespaceHead toks (j + 1)
    else return none
  else return none
termination_by toks.length - j

/-- The index of the last token before an offset, from index `j` on; the token at `last` is known to
be. -/
def lastBefore (toks : List Token) (offset last j : Nat) : Checked Nat := do
  if j < toks.length then
    let t ← at? toks j
    if t.pos.offset < offset then lastBefore toks offset j (j + 1) else return last
  else return last
termination_by toks.length - j

/-- The scopes left open after a `}` at the given depth, outermost first. -/
def closeScope (depth : Nat) (scopes : List OpenScope) : Checked (List OpenScope) := do
  if 0 < scopes.length then
    let innermost ← at? scopes ((scopes.length : Int) - 1)
    if innermost.depth = depth then slice? scopes 0 ((scopes.length : Int) - 1) else return scopes
  else return scopes

theorem punctAt_eq {toks passed ahead : List Token} {j : Nat} (h : Cursor toks passed ahead j)
    (c : Char) : punctAt c toks j = some (ahead.head?.any (·.isPunct c)) := by
  cases ahead with
  | nil =>
    rw [punctAt, if_neg h.not_lt]
    rfl
  | cons t ahead =>
    rw [punctAt, if_pos h.lt, h.at?]
    rfl

theorem attributeFrom_eq {toks passed ahead : List Token} {j : Nat} (h : Cursor toks passed ahead j)
    (depth : Nat) : attributeFrom toks (depth + 1) j =
      some ((afterBrackets depth ahead).map fun rest => toks.length - rest.length - 1) := by
  induction ahead generalizing passed j depth with
  | nil =>
    rw [attributeFrom, if_neg h.not_lt]
    rfl
  | cons t ahead ih =>
    have hstep (depth : Nat) := ih h.next depth
    rw [attributeFrom, if_pos h.lt, h.at?, some_bind, afterBrackets.eq_def]
    dsimp only
    split
    · exact hstep (depth + 1)
    · split
      · cases depth with
        | zero =>
          dsimp only [Option.map_some]
          rw [h.next.index_eq]
          rfl
        | succ depth =>
          rw [if_neg (by omega), Int.natCast_add, Int.natCast_one, Int.add_sub_cancel]
          exact hstep depth
      · exact hstep depth

theorem headName_eq {toks passed ahead : List Token} {j : Nat} (h : Cursor toks passed ahead j)
    (name : Text) :
    headName toks name j =
      some ((Interface.headName name ahead).map fun r => (r.1, toks.length - r.2.length)) := by
  induction hn : ahead.length using Nat.strongRecOn generalizing passed ahead j name with
  | ind n ih =>
    subst hn
    cases ahead with
    | nil =>
      rw [headName, if_neg h.not_lt, Interface.headName, Option.map_some, h.index_eq]
      rfl
    | cons t ahead =>
      have hjump {rest : List Token} (hrest : rest <:+ ahead) (name : Text) :
          headName toks name (toks.length - rest.length) =
            some ((Interface.headName name rest).map fun r => (r.1, toks.length - r.2.length)) := by
        obtain ⟨_, hcut⟩ := Cursor.ofSuffix (hrest.trans ⟨passed ++ [t], h.next.split.symm⟩)
        exact ih rest.length (Nat.lt_succ_of_le hrest.length_le) hcut name rfl
      have hnear {rest : List Token} (hrest : rest <:+ ahead) : j < toks.length - rest.length := by
        have := h.next.index_eq
        have := hrest.length_le
        omega
      rw [headName, if_pos h.lt, h.at?, some_bind, punctAt_eq h.next, some_bind, punctAt_eq h.next,
        some_bind, headName_cons]
      split
      · rename_i ht
        -- the attribute is read from its first bracket on
        have hopen := (Bool.and_eq_true_iff.1 ht).1
        rw [attributeFrom, if_pos h.lt, h.at?, some_bind, if_pos hopen]
        change (attributeFrom toks ((0 : Nat) + 1) (j + 1) >>= _) = _
        rw [attributeFrom_eq h.next, some_bind]
        cases hclose : afterBrackets 0 ahead with
        | none => rfl
        | some rest =>
          have hrest := suffix_of_afterBrackets hclose
          have hlen := afterBrackets_length hclose
          have hcount : toks.length - rest.length - 1 + 1 = toks.length - rest.length := by
            have := h.next.ahead_sublist.length_le
            omega
          dsimp only [Option.map_some, Option.bind_some]
          rw [hcount, nearer?_of_lt (hnear hrest), some_bind]
          exact hjump hrest name
      · split
        · rw [Option.map_some, h.index_eq]
          rfl
        · split
          · split
            · rename_i hcalled
              obtain ⟨paren, ahead, rfl⟩ : ∃ paren tail, ahead = paren :: tail := by
                cases ahead with
                | nil => simp at hcalled
                | cons paren tail => exact ⟨paren, tail, rfl⟩
              have hparen : paren.isPunct '(' = true := by simpa using hcalled
              rw [matchParen_eq hparen h.next, some_bind, List.tail_cons]
              cases hclose : closeParen 0 ahead with
              | none => rfl
              | some r =>
                obtain ⟨inner, behind⟩ := r
                obtain ⟨close, tail, rfl, -, rfl⟩ := eq_of_closeParen hclose
                have hbehind := h.next.next.skip.next.index_eq
                have hrest : tail <:+ paren :: (inner ++ close :: tail) :=
                  ⟨paren :: (inner ++ [close]), by simp⟩
                dsimp only [Option.map_some, Option.bind_some]
                rw [← hbehind, nearer?_of_lt (hnear hrest), some_bind]
                exact hjump hrest name
            · split
              · rfl
              · rw [← h.next.index_eq]
                exact hjump List.suffix_rfl t.text
          · rw [Option.map_some, h.index_eq]
            rfl

theorem headBrace_eq {toks passed ahead : List Token} {j : Nat} (h : Cursor toks passed ahead j)
    (angle : Nat) : headBrace toks angle j =
      some ((Interface.headBrace angle ahead).map fun r => toks.length - r.2.length - 1) := by
  induction ahead generalizing passed j angle with
  | nil =>
    rw [headBrace, if_neg h.not_lt]
    rfl
  | cons t ahead ih =>
    have hstep (angle : Nat) := ih h.next angle
    have hhere : toks.length - ahead.length - 1 = j := by rw [h.next.index_eq, Nat.add_sub_cancel]
    rw [headBrace, if_pos h.lt, h.at?, some_bind, Interface.headBrace]
    generalize t.sign? = sign
    split
    · exact congrArg (fun opener => some (some opener)) hhere.symm
    · exact hstep (angle + 1)
    · exact hstep (angle - 1)
    · split
      · rfl
      · exact hstep angle
    · split
      · rfl
      · exact hstep angle
    · rfl
    · rfl
    · rfl
    · -- no other sign matters to either reader
      have hrest := hstep angle
      grind

/-- A head that is read by index is the head, and its brace stands right before what follows it. -/
theorem head_eq {toks passed ahead : List Token} {t : Token} {i : Nat}
    (h : Cursor toks passed (t :: ahead) i) :
    head toks i =
      some ((head? passed.getLast? ahead).map fun r =>
        (r.name, toks.length - r.rest.length - 1)) := by
  rw [head, h.before?_eq, some_bind, head?]
  split
  · rfl
  rw [headName_eq h.next, some_bind]
  cases hname : Interface.headName [] ahead with
  | none => rfl
  | some r =>
    obtain ⟨name, rest⟩ := r
    obtain ⟨_, hcut⟩ :=
      Cursor.ofSuffix ((suffix_of_headName hname).trans ⟨passed ++ [t], h.next.split.symm⟩)
    dsimp only [Option.map_some]
    split
    · rfl
    · rw [headBrace_eq hcut, some_bind, Option.map_map, Option.map_map]
      rfl

theorem namespaceHead_eq {toks passed ahead : List Token} {j : Nat}
    (h : Cursor toks passed ahead j) : namespaceHead toks j =
      some ((namespaceHead? ahead).map fun r => (r.1, toks.length - r.2.2.length - 1)) := by
  induction ahead generalizing passed j with
  | nil =>
    rw [namespaceHead, if_neg h.not_lt]
    rfl
  | cons t ahead ih =>
    rw [namespaceHead, if_pos h.lt, h.at?, some_bind, namespaceHead?]
    split
    · rw [Option.map_some, h.next.index_eq, Nat.add_sub_cancel]
      rfl
    · split
      · rw [ih h.next, some_bind, Option.map_map, Option.map_map]
        rfl
      · split
        · exact ih h.next
        · rfl

theorem lastBefore_eq {toks passed ahead : List Token} {last : Nat}
    (h : Cursor toks passed ahead (last + 1)) (offset : Nat) :
    lastBefore toks offset last (last + 1) =
      some (last + (ahead.takeWhile (·.pos.offset < offset)).length) := by
  induction ahead generalizing passed last with
  | nil =>
    rw [lastBefore, if_neg h.not_lt]
    rfl
  | cons t ahead ih =>
    rw [lastBefore, if_pos h.lt, h.at?, some_bind]
    by_cases ht : t.pos.offset < offset
    · rw [if_pos ht, List.takeWhile_cons_of_pos (by simpa using ht), List.length_cons, ih h.next]
      exact congrArg some (by omega)
    · rw [if_neg ht, List.takeWhile_cons_of_neg (by simpa using ht)]
      rfl

theorem closeScope_eq (depth : Nat) (scopes : List OpenScope) :
    closeScope depth scopes.reverse = some (Interface.closeScope depth scopes).reverse := by
  cases scopes with
  | nil => rfl
  | cons s scopes =>
    have hlast : (s :: scopes).reverse = scopes.reverse ++ [s] := List.reverse_cons
    have hpos : 0 < (s :: scopes).reverse.length := by
      rw [List.length_reverse]
      exact Nat.succ_pos _
    rw [closeScope, if_pos hpos, at?_last hlast, some_bind, slice?_init hlast, Interface.closeScope]
    split <;> rfl

/-- Whether a definition is a struct between whose braces, at the given indices, no `virtual`
stands. -/
def isAggregate (toks : List Token) (key : Token) (opener close : Nat) : Checked Bool := do
  if key.isWord "struct" then
    let inside ← slice? toks (opener + 1) close
    return !inside.any (·.isWord "virtual")
  else return false

/-- The interface whose head has been read and whose body ends before `stop`. -/
def ofHead (source : Text) (scopes : List OpenScope) (key brace : Token) (name : Text)
    (stop : Nat) : Checked (Except LocateFailure Interface) := do
  let body ← slice? source (brace.pos.offset + 1) ((stop : Int) - 1)
  let methods ← ofBody body
  if methods.length = 0 then return .error (.noPureVirtual name body key.pos)
  else
    return .ok {
      name
      kind := key.text
      scope := Text.join "::" ((scopes.map OpenScope.name).filter (!·.isEmpty))
      line := key.pos.line
      methods := methods.map fun m => { m with line := m.line + brace.pos.line - 1 } }

/-- Looks for the first interface from index `i` on. `scopes` are the open namespaces, outermost
first. -/
def locateFrom (source masked : Text) (toks : List Token) (scopes : List OpenScope)
    (depth i : Nat) : Checked (Except LocateFailure Interface) := do
  if i < toks.length then
    let t ← at? toks i
    if t.isPunct '{' then locateFrom source masked toks scopes (depth + 1) (i + 1)
    else if t.isPunct '}' then
      let scopes ← closeScope depth scopes
      locateFrom source masked toks scopes (depth - 1) (i + 1)
    else if t.isWord "namespace" then
      match ← namespaceHead toks (i + 1) with
      | none => locateFrom source masked toks scopes depth (i + 1)
      | some (names, opener) =>
        let ⟨_⟩ ← nearer? i (opener + 1)
        locateFrom source masked toks (scopes ++ [⟨Text.join "::" names, depth + 1⟩]) (depth + 1)
          (opener + 1)
    else if isClassKey t then
      match ← head toks i with
      | none => locateFrom source masked toks scopes depth (i + 1)
      | some (name, opener) =>
        let brace ← at? toks opener
        match ← scanDelimited '{' '}' masked brace.pos.offset with
        | .error failure => return .error (.scan failure brace.pos)
        | .ok c =>
          let close ← lastBefore toks c.stop opener opener
          let skipped ← isAggregate toks t opener close
          if skipped then
            let ⟨_⟩ ← nearer? i (close + 1)
            locateFrom source masked toks scopes depth (close + 1)
          else ofHead source scopes t brace name c.stop
    else locateFrom source masked toks scopes depth (i + 1)
  else return .error .noInterface
termination_by toks.length - i

/-- Looks for the first interface of a text by index. -/
def locate (source : Text) : Checked (Except LocateFailure Interface) := do
  let masked ← blankKinds (fun k => k.isComment || k.isLiteral) source
  locateFrom source masked (significant (Token.ofText source)) [] 0 0

section Body

variable {source : Text} {v : Visit} {c : Scope} {inner : List Token} {closer : Token}

/-- The text of a body can be cut out: its closer stands behind its brace, and within the text. -/
theorem slice_body (h : Views source v c inner closer) :
    slice? source (v.head.brace.pos.offset + 1) ((c.stop : Int) - 1) = some (v.body source c) := by
  obtain ⟨before, behind, htokens⟩ := h.text
  have horder : v.head.brace.pos.offset < closer.pos.offset := by
    have hpairs := pairwise_offset source
    rw [htokens] at hpairs
    have hbehind := (List.pairwise_append.1 hpairs).2.1
    apply List.rel_of_pairwise_cons hbehind
    simp
  have hstop : closer.stop ≤ source.length := by
    have hmem : closer ∈ Token.ofText source := by simp [htokens]
    have := stop_of_mem_place hmem
    rwa [Lexeme.spelling_ofText, show Pos.start.offset = 0 from rfl, Nat.zero_add] at this
  have hlast : c.stop - 1 = closer.pos.offset := by rw [h.bytes, Nat.add_sub_cancel]
  have hbehind : v.head.brace.pos.offset + 1 ≤ c.stop - 1 := by omega
  have hwithin : c.stop - 1 ≤ source.length := by
    rw [Token.stop] at hstop
    omega
  have hslice := slice?_of_le hbehind hwithin
  have hcast : ((c.stop - 1 : Nat) : Int) = (c.stop : Int) - 1 := by
    have := h.bytes
    omega
  rw [hcast] at hslice
  exact hslice

theorem ofHead_eq (h : Views source v c inner closer) :
    ofHead source v.scopes.reverse v.key v.head.brace v.head.name c.stop =
      some (Interface.ofHead v.scopes v.key v.head (v.body source c)) := by
  rw [ofHead, slice_body h, some_bind, ofBody_eq, some_bind, Interface.ofHead]
  cases Method.ofBody (v.body source c) with
  | nil => rfl
  | cons m methods =>
    have hsome : ¬ (m :: methods).length = 0 := Nat.succ_ne_zero methods.length
    rw [if_neg hsome]
    rfl

theorem isAggregate_eq (h : Views source v c inner closer) {toks passed : List Token} {opener : Nat}
    (hcut : Cursor toks passed v.head.rest (opener + 1)) :
    isAggregate toks v.key opener (opener + (v.inside c).length) = some (v.isAggregate c) := by
  obtain ⟨behind, hmatch⟩ := h.matched
  obtain ⟨hcloser, hrest⟩ := eq_of_matchBrace hmatch
  have hword : closer.isWord "virtual" = false := by
    cases hw : closer.isWord "virtual" with
    | false => rfl
    | true =>
      have hident := isIdent_of_isWord hw
      rw [not_isPunct_of_isIdent hident] at hcloser
      cases hcloser
  rw [hrest] at hcut
  have hslice : slice? toks ((opener : Int) + 1) ((opener + (v.inside c).length : Nat) : Int) =
      some inner := by
    apply hcut.slice?
    rw [h.inside, List.length_append, List.length_singleton]
    omega
  rw [isAggregate, hslice, Visit.isAggregate, h.inside]
  cases v.key.isWord "struct" <;> simp [hword]

end Body

section Search

variable {source : Text} {passed ahead : List Token} {t : Token} {i depth : Nat}
    {scopes : List OpenScope}
  (h : Cursor (significant (Token.ofText source)) passed (t :: ahead) i)
include h

/-- Where the search from the front goes on, the search by index does, too. -/
theorem locateFrom_onward {next : Stage}
    (hturn : turn scopes depth passed.getLast? t ahead = .onward next) :
    ∃ seen j, Cursor (significant (Token.ofText source)) seen next.ahead j ∧
      seen.getLast? = next.prev ∧
      locateFrom source (mask source) (significant (Token.ofText source)) scopes.reverse depth i =
        locateFrom source (mask source) (significant (Token.ofText source)) next.scopes.reverse
          next.depth j := by
  rw [locateFrom, if_pos h.lt, h.at?, some_bind]
  cases onward_of_turn hturn with
  | opened hopen => exact ⟨_, _, h.next, List.getLast?_concat, if_pos hopen⟩
  | closed hopen hclose =>
    refine ⟨_, _, h.next, List.getLast?_concat, ?_⟩
    rw [if_neg (by simp [hopen]), if_pos hclose, closeScope_eq, some_bind]
  | passed hopen hclose hname hhead =>
    refine ⟨_, _, h.next, List.getLast?_concat, ?_⟩
    rw [if_neg (by simp [hopen]), if_neg (by simp [hclose])]
    split
    · rename_i hword
      rw [namespaceHead_eq h.next, hname hword, some_bind]
      rfl
    · rename_i hword
      split
      · rename_i hkey
        rw [head_eq h, hhead (eq_false_of_ne_true hword) hkey, some_bind]
        rfl
      · rfl
  | @entered names brace rest hword hread =>
    obtain ⟨_, lead, rfl⟩ := suffix_of_namespaceHead? hread
    have hident := isIdent_of_isWord hword
    have hopener := h.next.skip.next.index_eq
    have hnear : i < i + 1 + lead.length + 1 := by omega
    refine ⟨_, _, h.next.skip.next, List.getLast?_concat, ?_⟩
    rw [if_neg (by simp [not_isPunct_of_isIdent hident]),
      if_neg (by simp [not_isPunct_of_isIdent hident]), if_pos hword, namespaceHead_eq h.next,
      hread, some_bind]
    dsimp only [Option.map_some]
    rw [hopener, Nat.add_sub_cancel, nearer?_of_lt hnear, some_bind, List.reverse_cons]

/-- At a class definition the search by index ends as the other one does, or goes on behind the
closer. -/
theorem locateFrom_visit {v : Visit}
    (hturn : turn scopes depth passed.getLast? t ahead = .visit v) :
    match v.scan source with
    | .error failure =>
      locateFrom source (mask source) (significant (Token.ofText source)) scopes.reverse depth i =
        some (.error (.scan failure v.head.brace.pos))
    | .ok c => ∃ seen j, Cursor (significant (Token.ofText source)) seen (v.behind c) j ∧
      seen.getLast? = (v.next depth c).prev ∧
      locateFrom source (mask source) (significant (Token.ofText source)) scopes.reverse depth i =
        if v.isAggregate c then
          locateFrom source (mask source) (significant (Token.ofText source)) v.scopes.reverse depth
            j
        else some (Interface.ofHead v.scopes v.key v.head (v.body source c)) := by
  obtain ⟨rfl, rfl, hkey, hhead⟩ := eq_of_turn_visit hturn
  obtain ⟨hbrace, lead, rfl⟩ := exists_lead_of_turn hturn
  have hident := isIdent_of_isClassKey hkey
  have hnamespace : v.key.isWord "namespace" = false :=
    (Bool.or_eq_true_iff.1 hkey).elim (isWord_unique · (by decide)) (isWord_unique · (by decide))
  have hopen := h.next.skip
  rw [locateFrom, if_pos h.lt, h.at?, some_bind, if_neg (by simp [not_isPunct_of_isIdent hident]),
    if_neg (by simp [not_isPunct_of_isIdent hident]), if_neg (by simp [hnamespace]), if_pos hkey,
    head_eq h, hhead, some_bind]
  dsimp only [Option.map_some]
  rw [hopen.next.index_eq, Nat.add_sub_cancel, hopen.at?, some_bind, scanDelimited_eq, some_bind]
  have hbytes : HeaderBridge.scanDelimited '{' '}' (mask source) v.head.brace.pos.offset =
      v.scan source := rfl
  rw [hbytes]
  cases hscan : v.scan source with
  | error failure => rfl
  | ok c =>
    obtain ⟨inner, closer, hviews⟩ :=
      exists_views ⟨passed, lead, h.split, hkey, hbrace, hhead⟩ hscan
    have hlast : lastBefore (significant (Token.ofText source)) c.stop (i + 1 + lead.length)
        (i + 1 + lead.length) = some (i + 1 + lead.length + (v.inside c).length) := by
      rw [lastBefore, if_pos hopen.lt, hopen.at?, some_bind, if_pos (lt_stop_of_scanFrom hscan)]
      exact lastBefore_eq hopen.next c.stop
    have hbody := hopen.next
    rw [← v.inside_append_behind c] at hbody
    have hcut := hbody.skip
    rw [Nat.add_right_comm _ 1] at hcut
    refine ⟨_, _, hcut, by rw [List.getLast?_append, List.getLast?_concat]; rfl, ?_⟩
    dsimp only
    rw [hlast, some_bind, isAggregate_eq hviews hopen.next, some_bind]
    split
    · rw [nearer?_of_lt (by omega), some_bind]
    · exact ofHead_eq hviews

end Search

/-- The search by index comes to what the search from the front comes to. -/
theorem locateFrom_eq (source : Text) {passed ahead : List Token} {i : Nat}
    (h : Cursor (significant (Token.ofText source)) passed ahead i) (scopes : List OpenScope)
    (depth : Nat) :
    locateFrom source (mask source) (significant (Token.ofText source)) scopes.reverse depth i =
      some (Interface.locateFrom source scopes depth passed.getLast? ahead) := by
  generalize hprev : passed.getLast? = prev
  induction scopes, depth, prev, ahead using search_induction generalizing passed i with
  | done =>
    rw [locateFrom, if_neg h.not_lt, Interface.locateFrom]
    rfl
  | onward scopes depth prev t ahead next hturn ih =>
    obtain ⟨seen, j, hcut, hlast, hstep⟩ := locateFrom_onward h (hprev ▸ hturn)
    rw [hstep, locateFrom_turn, hturn]
    exact ih hcut hlast
  | visit scopes depth prev t ahead v hturn ih =>
    have hvisit := locateFrom_visit h (hprev ▸ hturn)
    rw [locateFrom_turn, hturn]
    dsimp only
    cases hscan : v.scan source with
    | error failure =>
      rw [hscan] at hvisit
      exact hvisit
    | ok c =>
      rw [hscan] at hvisit
      obtain ⟨seen, j, hcut, hlast, hstep⟩ := hvisit
      dsimp only
      rw [hstep]
      split
      · exact ih c hcut hlast
      · rfl

theorem locate_eq (source : Text) : locate source = some (Interface.locate source) := by
  rw [locate, blankKinds_eq, some_bind]
  exact locateFrom_eq source (Cursor.start _) [] 0

end Checked

namespace Interface

open Token

inductive Outcome (s : Text) : Except LocateFailure Interface → Prop
  | found {i : Interface} (hmethods : i.methods ≠ []) : Outcome s (.ok i)
  /-- The brace of a class definition, whose head reads where it stands, is closed by no brace
  token. -/
  | unbalanced {v : Visit} (hv : v ∈ visits s) (hhead : v.StandsIn (significant (Token.ofText s)))
      (hopen : matchBrace 0 v.head.rest = none) :
    Outcome s
      (.error (.scan (.unbalanced v.head.brace.pos.offset ((mask s).drop v.head.brace.pos.offset))
      v.head.brace.pos))
  /-- No method is read from the body of a class definition. -/
  | noPureVirtual {v : Visit} (hv : v ∈ visits s) {c : Scope} (hc : v.scan s = .ok c)
      (hbody : Method.ofBody (v.body s c) = []) :
    Outcome s (.error (.noPureVirtual v.head.name (v.body s c) v.key.pos))
  | noInterface : Outcome s (.error .noInterface)

theorem Outcome.code {s : Text} {failure : LocateFailure} (h : Outcome s (.error failure)) :
    failure.notice.code ∈ [Code.unbalanced, .noPureVirtual, .noInterface] := by
  cases h with
  | unbalanced => exact List.mem_cons.2 (.inl rfl)
  | noPureVirtual => exact List.mem_cons_of_mem _ (List.mem_cons.2 (.inl rfl))
  | noInterface => exact List.mem_cons_of_mem _ (List.mem_cons_of_mem _ (List.mem_singleton.2 rfl))

theorem outcome_ofHead {s : Text} {v : Visit} (hv : v ∈ visits s) {c : Scope}
    (hc : v.scan s = .ok c) : Outcome s (ofHead v.scopes v.key v.head (v.body s c)) := by
  unfold ofHead
  split
  · rename_i hbody
    exact .noPureVirtual hv hc hbody
  · rename_i methods hbody
    exact .found (by simpa using hbody)

theorem outcome_visit {s : Text} {v : Visit} (hv : v ∈ visits s)
    {result : Except LocateFailure Interface} (h : v.outcome s = some result) :
    Outcome s result := by
  unfold Visit.outcome at h
  split at h
  · rename_i failure hscan
    obtain rfl := Option.some.inj h
    rw [(standsIn_of_mem_visits hv).scan_eq] at hscan
    split at hscan
    · rename_i hopen
      obtain rfl := Except.error.inj hscan
      exact .unbalanced hv (standsIn_of_mem_visits hv) hopen
    · cases hscan
  · rename_i c hc
    split at h
    · cases h
    · obtain rfl := Option.some.inj h
      exact outcome_ofHead hv hc

/-- A search always ends, and no index or slice it takes is out of range. It ends with an interface
that has a method, at a class definition whose brace is not closed, at one from whose body no method
is read, or without having found any that qualifies. -/
theorem locate_outcome (s : Text) : Checked.locate s = some (locate s) ∧ Outcome s (locate s) ∧
    ∀ failure, locate s = .error failure →
      failure.notice.code ∈ [Code.unbalanced, .noPureVirtual, .noInterface] := by
  have hended : Outcome s (locate s) := by
    rw [locate_eq_decided]
    rcases decided_cases s (visits s) with ⟨v, hv, hvisit⟩ | hnone
    · exact outcome_visit hv hvisit
    · rw [hnone]
      exact .noInterface
  refine ⟨Checked.locate_eq s, hended, ?_⟩
  intro failure hfailure
  rw [hfailure] at hended
  exact hended.code

end Interface
end HeaderBridge
