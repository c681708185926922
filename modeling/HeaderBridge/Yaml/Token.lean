import HeaderBridge.Yaml.Scalar

namespace HeaderBridge.Yaml

inductive Token
  | version (major minor : Nat)
  | tagRule (handle start : Text)
  | documentStart
  | documentEnd
  | streamEnd
  | listStart
  | mapStart
  /-- The end of a list or a map that is told by indentation. -/
  | blockEnd
  | item
  | key
  | value
  | openList
  | closeList
  | openMap
  | closeMap
  | comma
  | anchor (name : Text)
  | reference (name : Text)
  | tag (handle rest : Text)
  | plain (t : Text)
  | quoted (t : Text)
  | fault
  /-- In front of a token of which it is not known whether it is a key, because a fault follows. -/
  | unsettled
deriving Repr, DecidableEq

/-- A place in the text, and what follows it. -/
structure Cursor where
  rest : List Char
  index : Nat := 0
  line : Nat := 0
  column : Nat := 0

def Cursor.pass (c : Cursor) (a : Char) : Cursor :=
  if isBreak a then { c with index := c.index + 1, line := c.line + 1, column := 0 }
  else { c with index := c.index + 1, column := c.column + 1 }

def Cursor.moveTo (c : Cursor) (rest : List Char) : Cursor :=
  { (c.rest.take (c.rest.length - rest.length)).foldl Cursor.pass c with rest }

structure Start where
  number : Nat
  required : Bool
  index : Nat
  line : Nat
  column : Nat

/-- A key is on one line and no longer than this. -/
def maxKeyLength : Nat := 1024

def maxLevels : Nat := 10000

structure Scanner where
  cursor : Cursor
  tokens : Array Token := #[]
  /-- The last place where a key may have started, for each open bracket and for the text outside of
  them. -/
  starts : List (Option Start) := [none]
  /-- What is put in front of tokens: the number of the token, and what stands before it. -/
  insertions : List (Nat × List Token) := []
  /-- The columns of the lists and maps that are open, the innermost first. -/
  columns : List Nat := []
  allowed : Bool := true
  isDone : Bool := false

namespace Scanner

def flow (s : Scanner) : Bool := 1 < s.starts.length

def start? (s : Scanner) : Option Start := s.starts.head?.join

def floor (s : Scanner) : Nat := (s.columns.head?.map (· + 1)).getD 0

def emit (s : Scanner) (t : Token) : Scanner := { s with tokens := s.tokens.push t }

def moveTo (s : Scanner) (rest : List Char) : Scanner := { s with cursor := s.cursor.moveTo rest }

def allow (s : Scanner) (allowed : Bool) : Scanner := { s with allowed }

def setStart (s : Scanner) (start : Option Start) : Scanner :=
  { s with starts := start :: s.starts.tail }

def dropStart (s : Scanner) : Option Scanner :=
  if s.start?.any (·.required) then none else some (s.setStart none)

def noteStart (s : Scanner) : Option Scanner :=
  if !s.allowed then some s
  else do
    let s ← s.dropStart
    let required := !s.flow && s.columns.head? == some s.cursor.column
    return s.setStart
      (some ⟨s.tokens.size, required, s.cursor.index, s.cursor.line, s.cursor.column⟩)

def isLive (s : Scanner) (k : Start) : Bool :=
  s.cursor.line ≤ k.line && s.cursor.index ≤ k.index + maxKeyLength

/-- Opens a list or map in a column, if it lies to the right of those that are open. -/
def indent (s : Scanner) (column : Nat) (t : Token) : Option Scanner :=
  if s.flow || column < s.floor then some s
  else if maxLevels ≤ s.columns.length then none
  else some { s.emit t with columns := column :: s.columns }

def outdent (s : Scanner) (isRight : Nat → Bool) : Scanner :=
  if s.flow then s
  else
    let closed := s.columns.takeWhile isRight
    { s with
      columns := s.columns.drop closed.length
      tokens := s.tokens ++ closed.map fun _ => Token.blockEnd }

/-- Goes on to the next content, past blanks, comments and line ends. A tab is no blank where a key
may start, unless it stands between two comments. -/
def content (flow : Bool) (allowed comment : Bool) (column : Nat) : List Char → Bool × List Char
  | [] => (allowed, [])
  | c :: rest =>
    if comment then
      if isBreak c then
        if (rest.dropWhile isGap).head? = some '#' then content flow allowed true 0 rest
        else content flow (allowed || !flow) false 0 rest
      else content flow allowed true (column + 1) rest
    else if column = 0 && c = '\uFEFF' then content flow allowed false 1 rest
    else if c = ' ' || c = '\t' && (flow || !allowed) then
      content flow allowed false (column + 1) rest
    else if c = '#' then content flow allowed true (column + 1) rest
    else if isBreak c then content flow (allowed || !flow) false 0 rest
    else (allowed, c :: rest)

def isNameChar (c : Char) : Bool := c.isAlphanum || c = '_' || c = '-'

def takeName (cs : List Char) : List Char × List Char :=
  (cs.takeWhile isNameChar, cs.dropWhile isNameChar)

def anchorName (cs : List Char) : Option (Text × List Char) :=
  let (name, rest) := takeName cs
  let ends := isApart rest || rest.head?.any fun c => ['?', ':', ',', ']', '\x7d', '%', '@',
    '\x60'].contains c
  if name.isEmpty || !ends then none else some (Text.ofChars name, rest)

def isTagChar (c : Char) : Bool :=
  isNameChar c || [';', '/', '?', ':', '@', '&', '=', '+', '$', ',', '.', '!', '~', '*', '\'',
    '(', ')', '[', ']'].contains c

/-- The body of a tag. A percent sign and two hexadecimal digits stand for a byte. -/
def tagBody : List Char → Option (Text × List Char)
  | [] => some ([], [])
  | c :: rest =>
    if c = '%' then
      match rest with
      | a :: b :: more => do
        let n ← Text.digitsValue? 16 (Text.ofChars [a, b])
        let (t, rest) ← tagBody more
        return (n.toUInt8 :: t, rest)
      | _ => none
    else if isTagChar c then do
      let (t, rest) ← tagBody rest
      return (Text.ofChar c ++ t, rest)
    else some ([], c :: rest)

/-- The body of a tag, which must not be empty and whose bytes must be well formed. -/
def tagBody? (cs : List Char) : Option (Text × List Char) := do
  let (t, rest) ← tagBody cs
  if t.isEmpty || !Text.isWellFormed t then none else some (t, rest)

/-- The handle at the front of a tag: a name between two marks, or a mark with what may be the start
of a body. -/
def tagHandle (cs : List Char) : List Char × List Char :=
  let (name, rest) := takeName cs.tail
  if rest.head? = some '!' then ('!' :: name ++ ['!'], rest.tail) else ('!' :: name, rest)

/-- A tag, from its first mark on: a handle, and what follows it. A tag in angles has no handle, nor
has the mark alone. -/
def tagOf (cs : List Char) : Option (Text × Text × List Char) := do
  let (handle, body, rest) ←
    if cs.tail.head? = some '<' then do
      let (body, rest) ← tagBody? (cs.drop 2)
      if rest.head? = some '>' then some ([], body, rest.tail) else none
    else
      let (handle, rest) := tagHandle cs
      if 1 < handle.length && handle.getLast? = some '!' then do
        let (body, rest) ← tagBody? rest
        some (Text.ofChars handle, body, rest)
      else do
        let (body, rest) ← tagBody rest
        let body := Text.ofChars handle.tail ++ body
        if !Text.isWellFormed body then none
        else if body.isEmpty then some ([], "!", rest) else some ("!", body, rest)
  if isApart rest then some (handle, body, rest) else none

def versionPart (cs : List Char) : Option (Nat × List Char) :=
  let ds := cs.takeWhile Char.isDigit
  if ds.isEmpty || 2 < ds.length then none
  else (Text.digitsValue? 10 (Text.ofChars ds)).map (·, cs.drop ds.length)

def directiveBody (name cs : List Char) : Option (Token × List Char) := do
  let cs := cs.dropWhile isBlank
  if name = ['Y', 'A', 'M', 'L'] then
    let (major, rest) ← versionPart cs
    if rest.head? != some '.' then none
    let (minor, rest) ← versionPart rest.tail
    return (.version major minor, rest)
  if name = ['T', 'A', 'G'] then
    if cs.head? != some '!' then none
    let (handle, rest) := tagHandle cs
    if handle.getLast? != some '!' || !rest.head?.any isBlank then none
    let (start, rest) ← tagBody? (rest.dropWhile isBlank)
    if isApart rest then return (.tagRule (Text.ofChars handle) start, rest) else none
  none

def directive (cs : List Char) : Option (Token × List Char) := do
  let (name, rest) := takeName cs
  if name.isEmpty || !isApart rest then none
  let (t, rest) ← directiveBody name rest
  let rest := rest.dropWhile isBlank
  let rest := if rest.head? = some '#' then rest.dropWhile (!isBreak ·) else rest
  if rest.head?.all isBreak then return (t, rest.tail) else none

/-- What follows a comment on the line of a token. Such a comment may stand behind tabs. -/
def pastComment (cs : List Char) : List Char :=
  let rest := cs.dropWhile isBlank
  if rest.head? = some '#' then rest.dropWhile (!isBreak ·) else cs

def finish (s : Scanner) : Option Scanner := do
  let s ← (s.outdent fun _ => true).dropStart
  return { s.emit .streamEnd with isDone := true }

def atMargin (s : Scanner) (t : Token) (rest : List Char) : Option Scanner := do
  let s ← (s.outdent fun _ => true).dropStart
  return ((s.allow false).moveTo rest).emit t

def startToken (s : Scanner) (t : Token) (rest : List Char) : Option Scanner := do
  return (((← s.noteStart).allow false).moveTo rest).emit t

def openBracket (s : Scanner) (t : Token) (rest : List Char) : Option Scanner := do
  let s ← s.noteStart
  if maxLevels < s.starts.length then none
  return (({ s with starts := none :: s.starts }.allow true).moveTo (pastComment rest)).emit t

def closeBracket (s : Scanner) (t : Token) (rest : List Char) : Option Scanner := do
  let s ← s.dropStart
  let s := if s.flow then { s with starts := s.starts.tail } else s
  return ((s.allow false).moveTo (pastComment rest)).emit t

def commaToken (s : Scanner) (rest : List Char) : Option Scanner := do
  return (((← s.dropStart).allow true).moveTo (pastComment rest)).emit .comma

def itemToken (s : Scanner) (rest : List Char) : Option Scanner := do
  if !s.flow && !s.allowed then none
  let s ← (← s.indent s.cursor.column .listStart).dropStart
  return ((s.allow true).moveTo rest).emit .item

def keyToken (s : Scanner) (rest : List Char) : Option Scanner := do
  if !s.flow && !s.allowed then none
  let s ← (← s.indent s.cursor.column .mapStart).dropStart
  return ((s.allow (!s.flow)).moveTo (pastComment rest)).emit .key

/-- The colon in front of a value. Here the key before it is settled. -/
def valueToken (s : Scanner) (rest : List Char) : Option Scanner := do
  match s.start? with
  | some k =>
    if s.isLive k then
      let opens := !s.flow && s.floor ≤ k.column
      if opens && maxLevels ≤ s.columns.length then none
      let found : List Token := if opens then [.mapStart, .key] else [.key]
      let s := { s.setStart none with
        insertions := s.insertions ++ [(k.number, found)]
        columns := if opens then k.column :: s.columns else s.columns }
      return ((s.allow false).moveTo (pastComment rest)).emit .value
    else if k.required then none
    else complex (s.setStart none)
  | none => complex s
where
  complex (s : Scanner) : Option Scanner := do
    if !s.flow && !s.allowed then none
    let s ← s.indent s.cursor.column .mapStart
    return ((s.allow (!s.flow)).moveTo (pastComment rest)).emit .value

def quotedToken (s : Scanner) (read : Option (List Char × List Char)) : Option Scanner := do
  let (t, rest) ← read
  s.startToken (.quoted (Text.ofChars t)) (pastComment rest)

def blockToken (s : Scanner) (folded : Bool) (cs : List Char) : Option Scanner := do
  let (t, rest) ← block folded s.floor cs
  return (((← s.dropStart).allow true).moveTo rest).emit (.quoted (Text.ofChars t))

/-- A plain scalar. Behind a line end in it a key may start again. -/
def plainToken (s : Scanner) : Option Scanner := do
  let (t, crossing, rest) ← plain s.flow s.floor [] {} s.cursor.column s.cursor.rest
  if crossing then return (← s.startToken (.plain (Text.ofChars t)) rest).allow true
  s.startToken (.plain (Text.ofChars t)) (pastComment rest)

def token (s : Scanner) (c : Char) (rest : List Char) : Option Scanner :=
  if s.cursor.column = 0 && c = '%' then do
    let (t, rest) ← directive rest
    s.atMargin t rest
  else if s.cursor.column = 0 && isMarker (c :: rest) then
    s.atMargin (if c = '-' then .documentStart else .documentEnd) (rest.drop 2)
  else if c = '[' then s.openBracket .openList rest
  else if c = '\x7b' then s.openBracket .openMap rest
  else if c = ']' then s.closeBracket .closeList rest
  else if c = '\x7d' then s.closeBracket .closeMap rest
  else if c = ',' then s.commaToken rest
  else if c = '-' && isApart rest then s.itemToken rest
  else if c = '?' && (s.flow || isApart rest) then s.keyToken rest
  else if c = ':' && (s.flow || isApart rest) then s.valueToken rest
  else if c = '*' || c = '&' then do
    let (name, rest) ← anchorName rest
    s.startToken (if c = '*' then .reference name else .anchor name) (pastComment rest)
  else if c = '!' then do
    let (handle, body, rest) ← tagOf (c :: rest)
    s.startToken (.tag handle body) (pastComment rest)
  else if (c = '|' || c = '>') && !s.flow then s.blockToken (c = '>') rest
  else if c = '\'' then s.quotedToken (singleQuoted [] {} false rest)
  else if c = '"' then s.quotedToken (doubleQuoted [] {} false rest)
  else if startsPlain s.flow (c :: rest) then s.plainToken
  else none

def next (s : Scanner) : Option Scanner :=
  let (allowed, rest) := content s.flow s.allowed false s.cursor.column s.cursor.rest
  let s := (s.allow allowed).moveTo rest
  let s := s.outdent (s.cursor.column < ·)
  match rest with
  | [] => s.finish
  | c :: rest => s.token c rest

def run : Nat → Scanner → Scanner
  | 0, s => s
  | fuel + 1, s =>
    if s.isDone then s
    else
      match s.next with
      | some s => run fuel s
      | none =>
        let live := (s.starts.filterMap id).filter s.isLive
        { s.emit .fault with
          insertions := s.insertions ++ live.map fun k => (k.number, [.unsettled]) }

end Scanner

/-- Puts what is to be inserted in front of the tokens; the first of them has the number `n`. -/
def Token.withInsertions (insertions : List (Nat × List Token)) (n : Nat) : List Token → List Token
  | [] => []
  | t :: ts =>
    ((insertions.filter (·.1 = n)).flatMap Prod.snd) ++ t :: withInsertions insertions (n + 1) ts

def Token.scan (cs : List Char) : List Token :=
  let s := Scanner.run (cs.length + 1) { cursor := { rest := cs } }
  withInsertions s.insertions 0 s.tokens.toList

end HeaderBridge.Yaml
