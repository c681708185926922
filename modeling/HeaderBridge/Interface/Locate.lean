import HeaderBridge.Interface.Method
import HeaderBridge.Source.Delimited

namespace HeaderBridge

inductive LocateFailure
  | scan (failure : ScanFailure) (brace : Pos)
  /-- The class whose keyword stands at `keyword` declares nothing to forward. -/
  | noPureVirtual (name body : Text) (keyword : Pos)
  | noInterface
deriving Repr, DecidableEq

def Pos.location (p : Pos) : Location := { line := p.line, column := p.column }

def LocateFailure.notice : LocateFailure → Notice
  | scan failure brace => failure.notice.placed brace.location
  | noPureVirtual name body keyword =>
    ((Notice.noPureVirtual name).placed keyword.location).note "body"
      (.text (excerpt (Text.trim body)))
  | noInterface => .noInterface

namespace Interface

def isClassKey (t : Token) : Bool := t.isWord "class" || t.isWord "struct"

def afterBrackets : Nat → List Token → Option (List Token)
  | _, [] => none
  | depth, t :: ts =>
    if t.isPunct '[' then afterBrackets (depth + 1) ts
    else if t.isPunct ']' then
      match depth with
      | 0 => some ts
      | depth + 1 => afterBrackets depth ts
    else afterBrackets depth ts

theorem afterBrackets_length {depth : Nat} {ts rest : List Token}
    (h : afterBrackets depth ts = some rest) : rest.length < ts.length := by
  fun_induction afterBrackets depth ts <;> grind

/-- The class name and the tokens after the name part of a head. Attributes and words with an
argument list, such as `alignas(16)`, are passed over; the last identifier before anything else is
the name. -/
def headName (name : Text) : List Token → Option (Text × List Token)
  | [] => some (name, [])
  | t :: ts =>
    if t.isPunct '[' && ts.head?.any (·.isPunct '[') then
      match h : afterBrackets 0 ts with
      | none => none
      | some rest =>
        have := afterBrackets_length h
        headName name rest
    else if t.isWord "final" then some (name, t :: ts)
    else if t.isIdent then
      if ts.head?.any (·.isPunct '(') then
        match h : Token.closeParen 0 ts.tail with
        | none => none
        | some (_, close) =>
          have := Token.closeParen_length h
          headName name close.tail
      else if isClassKey t then none
      else headName t.text ts
    else some (name, t :: ts)
termination_by ts => ts.length
decreasing_by
  all_goals simp_wf
  all_goals first | omega | (simp only [List.length_tail] at this; omega)

def headBrace : Nat → List Token → Option (Token × List Token)
  | _, [] => none
  | angle, t :: ts =>
    match t.sign? with
    | some '{' => some (t, ts)
    | some '<' => headBrace (angle + 1) ts
    | some '>' => headBrace (angle - 1) ts
    | some '(' | some ')' => if angle = 0 then none else headBrace angle ts
    | some ';' | some '=' | some '}' => none
    | _ => if isClassKey t then none else headBrace angle ts

theorem headBrace_length {angle : Nat} {ts rest : List Token} {t : Token}
    (h : headBrace angle ts = some (t, rest)) : rest.length < ts.length := by
  fun_induction headBrace angle ts <;> grind

theorem headName_length {name name' : Text} {ts rest : List Token}
    (h : headName name ts = some (name', rest)) : rest.length ≤ ts.length := by
  fun_induction headName name ts <;> grind

structure Head where
  name : Text
  brace : Token
  rest : List Token

/-- Whether a class key after `prev` cannot start a definition: it belongs to an enumeration, a
friend declaration or template parameters. -/
def barsHead (prev : Token) : Bool :=
  prev.isWord "enum" || prev.isWord "friend" || prev.isPunct '<' || prev.isPunct ','

def head? (prev : Option Token) (ts : List Token) : Option Head :=
  if prev.any barsHead then none
  else match headName [] ts with
    | none => none
    | some (name, rest) =>
      if name.isEmpty then none
      else (headBrace 0 rest).map fun b => ⟨name, b.1, b.2⟩

theorem head?_length {prev : Option Token} {ts : List Token} {h : Head}
    (e : head? prev ts = some h) : h.rest.length < ts.length := by
  unfold head? at e
  split at e
  · simp at e
  · split at e
    · simp at e
    · rename_i name rest hn
      split at e
      · simp at e
      · simp only [Option.map_eq_some_iff] at e
        obtain ⟨⟨t, r⟩, hb, rfl⟩ := e
        have := headName_length hn
        have := headBrace_length hb
        dsimp only
        omega

/-- Reads `name::name {` after the word `namespace`: the names, the brace and what follows it. -/
def namespaceHead? : List Token → Option (List Text × Token × List Token)
  | [] => none
  | t :: ts =>
    if t.isPunct '{' then some ([], t, ts)
    else if t.isIdent then (namespaceHead? ts).map fun r => (t.text :: r.1, r.2)
    else if t.kind == .scope then namespaceHead? ts
    else none

theorem namespaceHead?_length {ts rest : List Token} {names : List Text} {t : Token}
    (h : namespaceHead? ts = some (names, t, rest)) : rest.length < ts.length := by
  fun_induction namespaceHead? ts generalizing names <;> grind [Option.map_eq_some_iff]

/-- A named scope and the brace depth inside it. -/
structure OpenScope where
  name : Text
  depth : Nat

/-- The names of the open scopes, outermost first; unnamed ones do not count. -/
def joinScopes (scopes : List OpenScope) : Text :=
  Text.join "::" ((scopes.reverse.map OpenScope.name).filter (!·.isEmpty))

def closeScope (depth : Nat) : List OpenScope → List OpenScope
  | [] => []
  | s :: scopes => if s.depth = depth then scopes else s :: scopes

def ofHead (scopes : List OpenScope) (key : Token) (head : Head) (body : Text) :
    Except LocateFailure Interface :=
  match Method.ofBody body with
  | [] => .error (.noPureVirtual head.name body key.pos)
  | methods => .ok
    { name := head.name
      kind := key.text
      scope := joinScopes scopes
      line := key.pos.line
      methods := methods.map fun m => { m with line := m.line + head.brace.pos.line - 1 } }

/-- Looks for the first interface among the tokens. `scopes` are the open namespaces, innermost
first. -/
def locateFrom (source : Text) :
    List OpenScope → Nat → Option Token → List Token → Except LocateFailure Interface
  | _, _, _, [] => .error .noInterface
  | scopes, depth, prev, t :: ts =>
    if t.isPunct '{' then locateFrom source scopes (depth + 1) (some t) ts
    else if t.isPunct '}' then locateFrom source (closeScope depth scopes) (depth - 1) (some t) ts
    else if t.isWord "namespace" then
      match h : namespaceHead? ts with
      | none => locateFrom source scopes depth (some t) ts
      | some (names, brace, rest) =>
        have := namespaceHead?_length h
        locateFrom source (⟨Text.join "::" names, depth + 1⟩ :: scopes) (depth + 1)
          (some brace) rest
    else if isClassKey t then
      match h : head? prev ts with
      | none => locateFrom source scopes depth (some t) ts
      | some head =>
        have := head?_length h
        match scanBlock (mask source) head.brace.pos.offset with
        | .error failure => .error (.scan failure head.brace.pos)
        | .ok body =>
          let inside := head.rest.takeWhile (·.pos.offset < body.stop)
          if t.isWord "struct" && !inside.any (·.isWord "virtual") then
            have := (List.dropWhile_sublist (·.pos.offset < body.stop) (l := head.rest)).length_le
            locateFrom source scopes depth (inside.getLast?.or (some head.brace))
              (head.rest.dropWhile (·.pos.offset < body.stop))
          else ofHead scopes t head (Text.slice source (head.brace.pos.offset + 1) (body.stop - 1))
    else locateFrom source scopes depth (some t) ts
termination_by _ _ _ ts => ts.length
decreasing_by all_goals simp_wf; try omega

def locate (source : Text) : Except LocateFailure Interface :=
  locateFrom source [] 0 none (Token.significant (Token.ofText source))

def parse (file source : Text) : Except Fault Interface :=
  match locate source with
  | .ok i => .ok { i with file }
  | .error failure => .error ((Fault.ofNotice failure.notice).inFile file)

end Interface
end HeaderBridge
