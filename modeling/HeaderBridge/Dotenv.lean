import HeaderBridge.Datum

namespace HeaderBridge.Dotenv

def isSpace (b : UInt8) : Bool := b == ' ' || b == '\t' || b == newline || b == '\r' || b == 0x0C

def isKeyByte (b : UInt8) : Bool := Text.isNameByte b || b == '.'

def isQuote (b : UInt8) : Bool := b == '"' || b == '\''

/-- The lines of a file. A carriage return ends a line too, alone or with a newline behind it. -/
def fileLines : Text → List Text
  | [] => []
  | a :: rest =>
    if a == newline then [] :: fileLines rest
    else if a == '\r' then
      match rest with
      | [] => [[]]
      | b :: more => if b == newline then [] :: fileLines more else [] :: fileLines (b :: more)
    else
      match fileLines rest with
      | [] => [[a]]
      | line :: more => (a :: line) :: more
termination_by t => t.length

def beforeLast? (b : UInt8) (t : Text) : Option Text :=
  if t.contains b then some ((t.reverse.dropWhile (· != b)).tail.reverse) else none

/-- The quote that is open at the end of a line. A quote behind a backslash does not close it. -/
def openQuote? (line : Text) : Option UInt8 :=
  let sign : UInt8 := if line.contains '=' then '=' else ':'
  let before := line.takeWhile (· != sign)
  match Text.trim (line.drop (before.length + 1)) with
  | [] => none
  | quote :: rest =>
    if before.isEmpty || !isQuote quote then none
    else
      match beforeLast? quote (Text.trim rest) with
      | none => some quote
      | some inner => if (quote :: rest)[inner.length]? == some '\\' then some quote else none

def closes (quote : UInt8) (line : Text) : Bool :=
  (beforeLast? quote line).any fun inner => inner.getLast? != some ('\\' : Char).toUInt8

def closeQuote (quote : UInt8) (seen : Text) : List Text → Option (Text × List Text)
  | [] => none
  | line :: rest =>
    let seen := seen ++ [newline] ++ line
    if closes quote line then some (seen, rest) else closeQuote quote seen rest

def isTail (t : Text) : Bool :=
  let rest := t.dropWhile isSpace
  rest.isEmpty || (rest.head? == some '#' && !rest.contains newline)

/-- The longest front of a text that ends in `quote` and leaves a tail; `seen` is what stands
before, the last first. -/
def quotedFront? (quote : UInt8) (seen : Text) : Text → Option Text
  | [] => none
  | a :: rest =>
    match quotedFront? quote (a :: seen) rest with
    | some front => some front
    | none => if a == quote && isTail rest then some (a :: seen).reverse else none

/-- The value at the front of a text, as it is written. -/
def written? (t : Text) : Option Text :=
  let bare := t.takeWhile fun b => b != ('#' : Char).toUInt8 && b != newline
  let quoted : Option Text :=
    match t with
    | [] => none
    | a :: rest => if isQuote a then quotedFront? a [a] rest else none
  quoted.or (if isTail (t.drop bare.length) then some bare else none)

/-- The name at the front of a line, and its value as it is written. Behind a colon there is a
space. -/
def assignment? (t : Text) : Option (Text × Text) := do
  let name := t.takeWhile isKeyByte
  let rest := t.drop name.length
  if name.isEmpty then none
  match Text.after? "=" (rest.dropWhile isSpace) with
  | some rest => return (name, ← written? (rest.dropWhile isSpace))
  | none =>
    let rest ← Text.after? ":" rest
    let spaces := (rest.takeWhile isSpace).length
    let value ← (List.range spaces).findSome? fun n => written? (rest.drop (n + 1))
    return (name, value)

def line? (t : Text) : Option (Text × Text) :=
  let t := t.dropWhile isSpace
  let exported := (Text.after? "export" t).bind fun rest =>
    if rest.head?.any isSpace then assignment? (rest.dropWhile isSpace) else none
  exported.or (assignment? t)

def unescape : Text → Text
  | [] => []
  | a :: rest =>
    match rest with
    | [] => [a]
    | b :: more => if a == '\\' && b != '$' then b :: unescape more else a :: unescape (b :: more)

def lineEnds : Text → Text
  | [] => []
  | a :: rest =>
    match rest with
    | [] => [a]
    | b :: more =>
      if a == '\\' && b == 'n' then newline :: lineEnds more
      else if a == '\\' && b == 'r' then '\r' :: lineEnds more
      else a :: lineEnds (b :: more)

def isVariableByte (b : UInt8) : Bool := ('A' ≤ b && b ≤ 'Z') || Text.isDigitByte b || b == '_'

/-- The name of a variable behind a dollar sign, in braces or not, and what follows it. -/
def variableName (t : Text) : Text × Text :=
  let t := (Text.after? "\x7b" t).getD t
  let name := t.takeWhile isVariableByte
  let rest := t.drop name.length
  (name, (Text.after? "\x7d" rest).getD rest)

/-- Puts the values of variables in place of their names. A dollar sign behind a backslash or
without a name stands for itself. -/
def expand (value : Text → Text) : Nat → Text → Text
  | 0, t => t
  | _ + 1, [] => []
  | fuel + 1, a :: rest =>
    let kept (t : Text) : Text :=
      let after := (variableName t).2
      "$" ++ t.take (t.length - after.length) ++ expand value fuel after
    if a == '\\' && rest.head? == some '$' then kept rest.tail
    else if a == '$' then
      let (name, after) := variableName rest
      if name.isEmpty then kept rest else value name ++ expand value fuel after
    else a :: expand value fuel rest

def meaning (value : Text → Text) (written : Text) : Text :=
  let isIn (quote : UInt8) : Bool :=
    2 ≤ written.length && written.head? == some quote && written.getLast? == some quote
  let inner := (written.drop 1).dropLast
  if isIn '\'' then inner
  else
    let t := if isIn '"' then unescape (lineEnds inner) else written
    expand value (t.length + 1) t

/-- The variables of lines, the last first. Variables of the environment go before those of the
file. -/
def assignments (environment : Text → Option Text) : Nat → List (Text × Text) → List Text →
    Option (List (Text × Text))
  | 0, seen, _ => some seen
  | _ + 1, seen, [] => some seen
  | fuel + 1, seen, line :: rest => do
    let line := Text.trim line
    if line.isEmpty || line.head? == some '#' then return ← assignments environment fuel seen rest
    let (line, rest) ← match openQuote? line with
      | some quote => closeQuote quote line rest
      | none => some (line, rest)
    let (name, written) ← line? line
    let value (name : Text) : Text := ((environment name).or (seen.lookup name)).getD []
    assignments environment fuel ((name, meaning value (Text.trim written)) :: seen) rest

def read (environment : Text → Option Text) (t : Text) : Option (List (Text × Datum)) := do
  if t.isEmpty then none
  let lines := fileLines ((Text.after? [0xEF, 0xBB, 0xBF] t).getD t)
  let found ← assignments environment (lines.length + 1) [] lines
  return found.map fun v => (v.1, .text v.2)

end HeaderBridge.Dotenv
