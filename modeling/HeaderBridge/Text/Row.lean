import HeaderBridge.Text

namespace HeaderBridge.Row

inductive Problem
  | missing
  | bareQuote (start line column : Nat)
  /-- A quoted field is not closed, or goes on behind its closing quote. -/
  | looseQuote (start line column : Nat)
deriving Repr, DecidableEq

/-- Where a problem is; the start of the row is told if that is another line. -/
def place (start line column : Nat) : Text :=
  let row : Text := if start = line then [] else "record on line " ++ Text.ofNat start ++ "; "
  row ++ "parse error on line " ++ Text.ofNat line ++ ", column " ++ Text.ofNat column ++ ": "

def Problem.text : Problem → Text
  | missing => "EOF"
  | bareQuote start line column => place start line column ++ "bare \" in non-quoted field"
  | looseQuote start line column =>
    place start line column ++ "extraneous or missing \" in quoted-field"

/-- Line ends of two bytes as one, and none of a single carriage return at the very end. -/
def unify : Text → Text
  | [] => []
  | a :: rest =>
    if a == '\r' then
      match rest with
      | [] => []
      | b :: more => if b == newline then b :: unify more else a :: unify (b :: more)
    else a :: unify rest
termination_by t => t.length

inductive Mode
  | start
  | bare
  | quoted

/-- Reads fields from a place on; `field` is what has been read of the present one. -/
def fields (start : Nat) : Mode → Nat → Nat → Text → Text → Except Problem (List Text)
  | .quoted, line, column, _, [] => .error (.looseQuote start line column)
  | _, _, _, field, [] => .ok [field]
  | .start, line, column, field, a :: rest =>
    if a == '"' then fields start .quoted line (column + 1) field rest
    else if a == newline then .ok [field]
    else if a == ',' then do return field :: (← fields start .start line (column + 1) [] rest)
    else fields start .bare line (column + 1) [a] rest
  | .bare, line, column, field, a :: rest =>
    if a == '"' then .error (.bareQuote start line column)
    else if a == newline then .ok [field]
    else if a == ',' then do return field :: (← fields start .start line (column + 1) [] rest)
    else fields start .bare line (column + 1) (field ++ [a]) rest
  | .quoted, line, column, field, a :: rest =>
    if a == '"' then
      match rest with
      | [] => .ok [field]
      | b :: more =>
        if b == '"' then fields start .quoted line (column + 2) (field ++ [b]) more
        else if b == ',' then do return field :: (← fields start .start line (column + 2) [] more)
        else if b == newline then .ok [field]
        else .error (.looseQuote start line column)
    else if a == newline && !rest.isEmpty then fields start .quoted (line + 1) 1 (field ++ [a]) rest
    else fields start .quoted line (column + 1) (field ++ [a]) rest

def firstRow (line : Nat) : Text → Except Problem (List Text)
  | [] => .error .missing
  | a :: rest =>
    if a == newline then firstRow (line + 1) rest else fields line .start line 1 [] (a :: rest)

def read (t : Text) : Except Problem (List Text) :=
  if t.isEmpty then .ok [] else firstRow 1 (unify t)

def needsQuotes (field : Text) : Bool :=
  field == ("\\." : Text) ||
    (field.any fun b => b == newline || b == '\r' || b == '"' || b == ',') ||
    ((Text.cells field).head?.map Text.Cell.isBlank).getD false

def doubled (b : UInt8) : Text := if b == '"' then [b, b] else [b]

def writeField (field : Text) : Text :=
  if needsQuotes field then "\"" ++ field.flatMap doubled ++ "\"" else field

def write (row : List Text) : Text := Text.join "," (row.map writeField)

end HeaderBridge.Row
