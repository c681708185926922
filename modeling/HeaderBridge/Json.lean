import HeaderBridge.Datum.Plain

namespace HeaderBridge.Json

def isSpace (b : UInt8) : Bool := b == ' ' || b == '\t' || b == '\r' || b == newline

def skip (t : Text) : Text := t.dropWhile isSpace

def escapes : List (Char × Nat) :=
  [('"', 34), ('\\', 92), ('/', 47), ('b', 8), ('f', 12), ('n', 10), ('r', 13), ('t', 9)]

def unit? (t : Text) : Option Nat := if t.length < 4 then none else Text.digitsValue? 16 (t.take 4)

def isHigh (n : Nat) : Bool := 0xD800 ≤ n && n < 0xDC00

def isLow (n : Nat) : Bool := 0xDC00 ≤ n && n < 0xE000

def low? (t : Text) : Option Nat := do
  let t ← Text.after? "\\u" t
  (← unit? t) |> fun n => if isLow n then some n else none

/-- The character of an escape whose digits have been read, and whether a second escape belongs to
it. Half a character alone reads as the one that stands for a fault. -/
def codeChar (n : Nat) (rest : Text) : Char × Bool :=
  match low? rest with
  | some m =>
    if isHigh n then (Char.ofNat (0x10000 + (n - 0xD800) * 0x400 + (m - 0xDC00)), true)
    else (if isLow n then Text.replacement else Char.ofNat n, false)
  | none => (if isHigh n || isLow n then Text.replacement else Char.ofNat n, false)

def string (seen : Text) : Text → Option (Text × Text)
  | [] => none
  | a :: rest =>
    if a == '"' then some (seen, rest)
    else if a < 0x20 then none
    else if a == '\\' then
      match rest with
      | [] => none
      | b :: more =>
        if b == 'u' then
          match unit? more with
          | none => none
          | some n =>
            let (c, pair) := codeChar n (more.drop 4)
            string (seen ++ Text.ofChar c) (more.drop (if pair then 10 else 4))
        else match escapes.lookup (Char.ofNat b.toNat) with
          | none => none
          | some n => string (seen ++ Text.ofChar (Char.ofNat n)) more
    else string (seen ++ [a]) rest
termination_by t => t.length

def mended (t : Text) : Text := Text.ofChars (Text.chars t)

def isNumberByte (b : UInt8) : Bool :=
  Text.isDigitByte b || b == '-' || b == '+' || b == '.' || Text.lowerByte b == 'e'

/-- Whether a decimal has the form that the language asks for: no plus sign, no needless zero in
front, digits on both sides of a point. -/
def isNumber (t : Text) : Bool :=
  let body := if t.head? == some '-' then t.tail else t
  let whole := body.takeWhile Text.isDigitByte
  let rest := body.dropWhile Text.isDigitByte
  !whole.isEmpty && (whole.head? != some '0' || whole.length = 1) &&
    (rest.head? != some '.' || (rest.tail.head?.map Text.isDigitByte).getD false)

def number (t : Text) : Option (Datum × Text) := do
  let written := t.takeWhile isNumberByte
  if !isNumber written then none
  return (.real (← Datum.readDouble? written), t.dropWhile isNumberByte)

mutual

def value : Nat → Text → Option (Datum × Text)
  | 0, _ => none
  | fuel + 1, t =>
    match Text.after? "null" t, Text.after? "true" t, Text.after? "false" t, t with
    | some rest, _, _, _ => some (.null, rest)
    | _, some rest, _, _ => some (.bool true, rest)
    | _, _, some rest, _ => some (.bool false, rest)
    | none, none, none, [] => none
    | none, none, none, a :: rest => do
      if a == '"' then
        let (s, rest) ← string [] rest
        return (.text (mended s), rest)
      else if a == '[' then
        let rest := skip rest
        if rest.head? == some ']' then return (.list [], rest.tail)
        let (ds, rest) ← items fuel rest
        return (.list ds, rest)
      else if a == ('\x7b' : Char) then
        let rest := skip rest
        if rest.head? == some ('\x7d' : Char).toUInt8 then return (.record [], rest.tail)
        let (fs, rest) ← fields fuel [] rest
        return (.record fs, rest)
      else number (a :: rest)

def items : Nat → Text → Option (List Datum × Text)
  | 0, _ => none
  | fuel + 1, t => do
    let (d, rest) ← value fuel t
    let rest := skip rest
    if rest.head? == some ']' then return ([d], rest.tail)
    if rest.head? != some ',' then none
    let (ds, rest) ← items fuel (skip rest.tail)
    return (d :: ds, rest)

def fields : Nat → List (Text × Datum) → Text → Option (List (Text × Datum) × Text)
  | 0, _, _ => none
  | fuel + 1, seen, t => do
    if t.head? != some '"' then none
    let (key, rest) ← string [] t.tail
    let rest := skip rest
    if rest.head? != some ':' then none
    let (d, rest) ← value fuel (skip rest.tail)
    let seen := seen.filter (·.1 != mended key) ++ [(mended key, d)]
    let rest := skip rest
    if rest.head? == some ('\x7d' : Char).toUInt8 then return (seen, rest.tail)
    if rest.head? != some ',' then none
    fields fuel seen (skip rest.tail)

end

def read (t : Text) : Option (List (Text × Datum)) := do
  let (d, rest) ← value (2 * t.length + 2) (skip t)
  if !(skip rest).isEmpty then none
  match d with
  | .record fields => some fields
  | .null => some []
  | _ => none

end HeaderBridge.Json
