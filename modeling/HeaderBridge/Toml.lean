import HeaderBridge.Datum.Plain
import HeaderBridge.Text.Escape

namespace HeaderBridge.Toml

def isSpace (b : UInt8) : Bool := b == ' ' || b == '\t'

def skip (t : Text) : Text := t.dropWhile isSpace

def isControl (b : UInt8) : Bool := (b < 0x20 && b != '\t') || b == 0x7F

/-- What follows a line end at the front. A carriage return needs a newline behind it. -/
def afterLineEnd? (t : Text) : Option Text := (Text.after? "\n" t).or (Text.after? "\r\n" t)

def skipComment (t : Text) : Option Text :=
  if t.head? == some '#' then
    let rest := t.dropWhile (!isControl ·)
    if rest.isEmpty || (afterLineEnd? rest).isSome then some rest else none
  else some t

def skipLines : Nat → Text → Option Text
  | 0, t => some t
  | fuel + 1, t => do
    let rest ← skipComment (skip t)
    match afterLineEnd? rest with
    | some rest => skipLines fuel rest
    | none => return rest

def endLine (t : Text) : Option Text := do
  let rest ← skipComment (skip t)
  if rest.isEmpty then return [] else afterLineEnd? rest

def escapes : List (Char × Nat) :=
  [('b', 8), ('t', 9), ('n', 10), ('f', 12), ('r', 13), ('e', 27), ('"', 34), ('\\', 92)]

/-- What follows a line end behind a backslash: the blanks and line ends after it do not count. -/
def afterJoint? (t : Text) : Option Text :=
  (afterLineEnd? (skip t)).map (·.dropWhile fun b => isSpace b || b == newline || b == '\r')

/-- Reads a string up to its closing marks; `seen` is the last first. Inside double quotes a
backslash escapes; a string in three marks may go on over several lines. -/
def string (mark : UInt8) (long : Bool) : Nat → Text → Text → Option (Text × Text)
  | 0, _, _ => none
  | _, _, [] => none
  | fuel + 1, seen, a :: rest =>
    let marks := (a :: rest).takeWhile (· == mark)
    if a == mark && !long then some (seen.reverse, rest)
    else if a == mark && 3 ≤ marks.length then
      let extra := min (marks.length - 3) 2
      some (seen.reverse ++ List.replicate extra mark, (a :: rest).drop (3 + extra))
    else if a == '\\' && mark == '"' then
      match if long then afterJoint? rest else none, rest with
      | some after, _ => string mark long fuel seen after
      | none, [] => none
      | none, b :: more =>
        if b == 'u' || b == 'U' then
          let width := Text.codeWidth b
          if more.length < width then none
          else do
            let c ← Text.codeChar? (more.take width)
            string mark long fuel ((Text.ofChar c).reverse ++ seen) (more.drop width)
        else do
          let n ← escapes.lookup (Char.ofNat b.toNat)
          string mark long fuel (n.toUInt8 :: seen) more
    else if !isControl a || (long && (afterLineEnd? (a :: rest)).isSome) then
      string mark long fuel (a :: seen) rest
    else none

def quoted (mark : UInt8) (t : Text) : Option (Text × Text) :=
  if t.take 3 == [mark, mark, mark] then
    let body := t.drop 3
    string mark true (t.length + 1) [] ((afterLineEnd? body).getD body)
  else string mark false (t.length + 1) [] t.tail

def isBareByte (b : UInt8) : Bool := Text.isNameByte b || b == '-'

def keyPart (t : Text) : Option (Text × Text) :=
  match t with
  | [] => none
  | a :: rest =>
    if a == '"' || a == '\'' then string a false (t.length + 1) [] rest
    else
      let part := t.takeWhile isBareByte
      if part.isEmpty then none else some (part, t.dropWhile isBareByte)

def key : Nat → Text → Option (List Text × Text)
  | 0, _ => none
  | fuel + 1, t => do
    let (part, rest) ← keyPart (skip t)
    let rest := skip rest
    if rest.head? == some '.' then
      let (parts, rest) ← key fuel rest.tail
      return (part :: parts, rest)
    return ([part], rest)

def twoDigits? (t : Text) : Option (Nat × Text) := Datum.takeDigits? 2 2 t

def afterDate? (t : Text) : Option Text := do
  let (year, t) ← Datum.takeDigits? 4 4 t
  let (month, t) ← twoDigits? (← Datum.after? '-' t)
  let (day, t) ← twoDigits? (← Datum.after? '-' t)
  if 1 ≤ month && month ≤ 12 && 1 ≤ day && day ≤ Datum.daysIn year month then some t else none

def afterTime? (t : Text) : Option Text := do
  let (hour, t) ← twoDigits? t
  let (minute, t) ← twoDigits? (← Datum.after? ':' t)
  let (second, t) ← twoDigits? (← Datum.after? ':' t)
  if 24 ≤ hour || 60 ≤ minute || 60 < second then none
  match Datum.after? '.' t with
  | some rest =>
    if rest.head?.any Text.isDigitByte then some (rest.dropWhile Text.isDigitByte) else none
  | none => return t

def isZone (t : Text) : Bool :=
  let shift : Option Bool := do
    let (hours, t) ← twoDigits? (← (Datum.after? '+' t).or (Datum.after? '-' t))
    let (minutes, t) ← twoDigits? (← Datum.after? ':' t)
    return t.isEmpty && hours < 24 && minutes < 60
  t == ("Z" : Text) || t == ("z" : Text) || shift.getD false

def isDate (t : Text) : Bool :=
  match afterDate? t with
  | some [] => true
  | some (mark :: rest) =>
    (mark == ' ' || Text.lowerByte mark == 't') &&
      (afterTime? rest).any fun zone => zone.isEmpty || isZone zone
  | none => (afterTime? t).any List.isEmpty

def startsDate (t : Text) : Bool :=
  let ds := (t.take 5).takeWhile Text.isDigitByte
  (ds.length = 2 && (t.drop 2).head? == some ':') || (ds.length = 4 && (t.drop 4).head? == some '-')

def isDateByte (b : UInt8) : Bool :=
  Text.isDigitByte b || b == '-' || b == '+' || b == ':' || b == '.' || Text.lowerByte b == 't' ||
    Text.lowerByte b == 'z'

def dateText (t : Text) : Text × Text :=
  let first := t.takeWhile isDateByte
  let rest := t.dropWhile isDateByte
  if rest.head? == some ' ' && rest[1]?.any Text.isDigitByte then
    (first ++ " " ++ rest.tail.takeWhile isDateByte, rest.tail.dropWhile isDateByte)
  else (first, rest)

def markedBase? (b : UInt8) : Option Nat :=
  if b == 'x' then some 16 else if b == 'o' then some 8 else if b == 'b' then some 2 else none

def markedNumber? (base : Nat) (digits : Text) : Option Datum :=
  if digits.isEmpty || digits.head? == some '_' || !Double.underscoresFit 16 false digits then none
  else (Text.readDigits false base (digits.filter (· != ('_' : Char).toUInt8))).toOption.map .int

/-- A decimal number, whole or not. There is no needless zero in front, and digits stand on both
sides of a point. -/
def decimalNumber? (t : Text) : Option Datum := do
  let (negative, body) := Text.splitSign t
  if body == ("inf" : Text) then return .real (.infinite negative)
  if body == ("nan" : Text) then return .real .undefined
  if !Double.underscoresFit 10 false t then none
  let digits := t.filter (· != ('_' : Char).toUInt8)
  let (_, p) ← Datum.decimalParts? digits
  if p.whole.isEmpty || (p.whole.head? == some '0' && p.whole.length != 1) then none
  if digits.contains '.' && p.fraction.isEmpty then none
  if !digits.contains '.' && p.exponent.isNone then
    return .int (← (Text.readDecimal digits).toOption)
  return .real (← p.decimal? negative)

def isNumberByte (b : UInt8) : Bool :=
  Text.isDigitByte b || b == '+' || b == '-' || b == '_' || b == '.' || Text.lowerByte b == 'e'

/-- The text of a decimal number; infinity and what is no number are spelled out. -/
def decimalText (t : Text) : Text × Text :=
  let first := t.takeWhile isNumberByte
  let rest := t.dropWhile isNumberByte
  if rest.take 3 == ("inf" : Text) || rest.take 3 == ("nan" : Text) then
    (first ++ rest.take 3, rest.drop 3)
  else (first, rest)

def scalar (t : Text) : Option (Datum × Text) := do
  if startsDate t then
    let (written, rest) := dateText t
    if isDate written then return (.date, rest) else none
  match if t.head? == some '0' then t[1]?.bind markedBase? else none with
  | some base =>
    let body := t.drop 2
    let isDigit (b : UInt8) : Bool := (Text.digitValue? base b).isSome || b == '_'
    return (← markedNumber? base (body.takeWhile isDigit), body.dropWhile isDigit)
  | none =>
    let (written, rest) := decimalText t
    return (← decimalNumber? written, rest)

inductive Use
  | value
  /-- A table. It is closed once it has been begun, or once the table in which dotted keys made it
  has ended. -/
  | table (closed dotted : Bool)
  | tables
deriving Repr, DecidableEq

structure State where
  fields : List (Text × Datum) := []
  table : List Text := []
  uses : List (List Text × Use) := []

/-- Changes what a key leads to. Tables on the way are made if they are missing; of a list of tables
it is the last that is meant. -/
def update (change : Option Datum → Datum) : List Text → List (Text × Datum) → List (Text × Datum)
  | [], fields => fields
  | k :: path, fields =>
    let old := fields.lookup k
    let new : Datum :=
      if path.isEmpty then change old
      else
        match old with
        | some (.record inner) => .record (update change path inner)
        | some (.list items) =>
          match items.getLast? with
          | some (.record inner) => .list (items.dropLast ++ [.record (update change path inner)])
          | _ => .list items
        | _ => .record (update change path [])
    if old.isSome then fields.map fun f => if f.1 == k then (k, new) else f
    else fields ++ [(k, new)]

namespace State

def use? (s : State) (path : List Text) : Option Use := s.uses.lookup path

def setUse (s : State) (path : List Text) (u : Use) : State :=
  { s with uses := (path, u) :: s.uses.filter (·.1 != path) }

/-- The proper fronts of a path that are longer than `least`, the shortest first. -/
def fronts (least : Nat) (path : List Text) : List (List Text) :=
  ((List.range path.length).filter (least < ·)).map path.take

/-- Gives a key its value. Dotted keys make tables; they do not add to tables that are closed. -/
def assign (s : State) (path : List Text) (d : Datum) : Option State := do
  let path := s.table ++ path
  let s ← (fronts s.table.length path).foldlM (fun s front =>
    match s.use? front with
    | none => some (s.setUse front (.table false true))
    | some (.table false _) => some s
    | some _ => none) s
  if (s.use? path).isSome then none
  return { s.setUse path .value with fields := update (fun _ => d) path s.fields }

/-- Ends the table that is being filled: the tables that dotted keys made in it are closed. -/
def finish (s : State) : State :=
  { s with uses := s.uses.map fun (p, u) =>
      if s.table.isPrefixOf p && p != s.table &&
          (u == .table false true || u == .table true true) then
        (p, .table true false)
      else (p, u) }

def reach (s : State) (path : List Text) : Option State :=
  (fronts 0 path).foldlM (fun s front =>
    match s.use? front with
    | none => some (s.setUse front (.table false false))
    | some .value => none
    | some _ => some s) s

def begin (s : State) (path : List Text) : Option State := do
  let s ← s.finish.reach path
  let s := { s with table := path, fields := update (·.getD (.record [])) path s.fields }
  match s.use? path with
  | none => return s.setUse path (.table true false)
  | some (.table false dotted) => return s.setUse path (.table true dotted)
  | some _ => none

/-- Begins one more table of a list. What has been known of the one before is forgotten. -/
def append (s : State) (path : List Text) : Option State := do
  let s ← s.finish.reach path
  let more (old : Option Datum) : Datum :=
    match old with
    | some (.list ds) => .list (ds ++ [.record []])
    | _ => .list [.record []]
  let s := { s with table := path, fields := update more path s.fields }
  match s.use? path with
  | none => return s.setUse path .tables
  | some .tables =>
    return { s with uses := s.uses.filter fun u => !path.isPrefixOf u.1 || u.1 == path }
  | some _ => none

end State

mutual

def value : Nat → Text → Option (Datum × Text)
  | 0, _ => none
  | fuel + 1, t =>
    match Text.after? "true" t, Text.after? "false" t, t with
    | some rest, _, _ => some (.bool true, rest)
    | _, some rest, _ => some (.bool false, rest)
    | none, none, [] => none
    | none, none, a :: rest => do
      if a == '"' || a == '\'' then
        let (s, rest) ← quoted a t
        return (.text s, rest)
      else if a == '[' then
        let (ds, rest) ← items fuel rest
        return (.list ds, rest)
      else if a == ('\x7b' : Char) then
        let rest := skip rest
        if rest.head? == some ('\x7d' : Char).toUInt8 then return (.record [], rest.tail)
        let (fields, rest) ← inlineFields fuel {} rest
        return (.record fields, rest)
      else scalar t

def items : Nat → Text → Option (List Datum × Text)
  | 0, _ => none
  | fuel + 1, t => do
    let t ← skipLines t.length t
    if t.head? == some ']' then return ([], t.tail)
    let (d, t) ← value fuel t
    let t ← skipLines t.length t
    if t.head? == some ']' then return ([d], t.tail)
    if t.head? != some ',' then none
    let (ds, t) ← items fuel t.tail
    return (d :: ds, t)

def inlineFields : Nat → State → Text → Option (List (Text × Datum) × Text)
  | 0, _, _ => none
  | fuel + 1, s, t => do
    let (path, t) ← key t.length t
    if t.head? != some '=' then none
    let (d, t) ← value fuel (skip t.tail)
    let s ← s.assign path d
    let t := skip t
    if t.head? == some ('\x7d' : Char).toUInt8 then return (s.fields, t.tail)
    if t.head? != some ',' then none
    inlineFields fuel s t.tail

end

def statement (s : State) (t : Text) : Option (State × Text) := do
  if t.take 2 == ("[[" : Text) then
    let (path, rest) ← key t.length (t.drop 2)
    let rest ← Text.after? "]]" rest
    return (← s.append path, ← endLine rest)
  if t.head? == some '[' then
    let (path, rest) ← key t.length t.tail
    let rest ← Text.after? "]" rest
    return (← s.begin path, ← endLine rest)
  let (path, rest) ← key t.length t
  if rest.head? != some '=' then none
  let (d, rest) ← value (2 * t.length) (skip rest.tail)
  return (← s.assign path d, ← endLine rest)

def statements : Nat → State → Text → Option State
  | 0, _, _ => none
  | fuel + 1, s, t => do
    let t ← skipLines t.length t
    if t.isEmpty then return s
    let (s, rest) ← statement s t
    statements fuel s rest

def read (t : Text) : Option (List (Text × Datum)) := do
  if !Text.isWellFormed t then none
  return (← statements (t.length + 1) {} t).fields

end HeaderBridge.Toml
