import HeaderBridge.Text.Category

namespace HeaderBridge.Template

inductive Keyword
  | block | break | continue | define | else | end | if | range | template | with
deriving Repr, DecidableEq

inductive Word
  | space
  | assign
  | declare
  | pipe
  | leftParen
  | rightParen
  | dot
  | nil
  | bool (b : Bool)
  | field (name : Text)
  | variable (name : Text)
  | ident (name : Text)
  | keyword (k : Keyword)
  | string (written : Text)
  | raw (content : Text)
  | char (written : Text)
  | number (written : Text)
  /-- Two numbers, the second with its sign and an `i` behind it. -/
  | complex (re im : Text)
  | other (c : Char)
deriving Repr, DecidableEq

inductive Piece
  | text (t : Text)
  | action (words : List Word)
deriving Repr, DecidableEq

abbrev Cells := List Text.Cell

def isSpace (c : Char) : Bool := c == ' ' || c == '\t' || c == '\r' || c == '\n'

def isNameChar (c : Char) : Bool := c == '_' || Text.isLetter c || Text.isDigit c

def afterChars : List Char → Cells → Option Cells
  | [], cs => some cs
  | c :: rest, x :: xs => if x.char = c then afterChars rest xs else none
  | _ :: _, [] => none

def splitAtChars (mark : List Char) : Cells → Cells × Option Cells
  | [] => ([], none)
  | x :: xs =>
    match afterChars mark (x :: xs) with
    | some rest => ([], some rest)
    | none =>
      let r := splitAtChars mark xs
      (x :: r.1, r.2)

def afterLeftTrim : Cells → Option Cells
  | a :: b :: rest => if a.char = '-' && isSpace b.char then some rest else none
  | _ => none

def afterRightBrace (cs : Cells) : Option (Bool × Cells) :=
  let trimmed := match cs with
    | a :: b :: rest => if isSpace a.char && b.char = '-' then afterChars ['}', '}'] rest else none
    | _ => none
  match trimmed with
  | some rest => some (true, rest)
  | none => (afterChars ['}', '}'] cs).map (false, ·)

def dropSpaces (cs : Cells) : Cells := cs.dropWhile (isSpace ·.char)

def dropSpacesEnd (cs : Cells) : Cells := (cs.reverse.dropWhile (isSpace ·.char)).reverse

def atNameEnd (cs : Cells) : Bool :=
  match cs with
  | [] => true
  | c :: _ => isSpace c.char || ['.', ',', '|', ':', ')', '('].contains c.char ||
      (afterChars ['}', '}'] cs).isSome

def readName (cs : Cells) : Option (Text × Cells) :=
  let name := cs.takeWhile (isNameChar ·.char)
  let rest := cs.drop name.length
  if atNameEnd rest then some (Text.ofCells name, rest) else none

/-- The cells up to the closing quote, it included. A backslash takes the next character with it. -/
def readQuoted (quote : Char) : Cells → Option (Cells × Cells)
  | [] => none
  | c :: cs =>
    if c.char = quote then some ([c], cs)
    else if c.char = '\n' then none
    else if c.char = '\\' then
      match cs with
      | d :: cs =>
        if d.char = '\n' then none else (readQuoted quote cs).map fun r => (c :: d :: r.1, r.2)
      | [] => none
    else (readQuoted quote cs).map fun r => (c :: r.1, r.2)

def takeOne (set : List Char) : Cells → Cells × Cells
  | c :: cs => if set.contains c.char then ([c], cs) else ([], c :: cs)
  | [] => ([], [])

def takeRun (set : List Char) (cs : Cells) : Cells × Cells :=
  cs.span (set.contains ·.char)

def decimalDigits : List Char := "0123456789_".toList

def hexDigits : List Char := "0123456789abcdefABCDEF_".toList

def digitsAfter : Cells → List Char
  | [c] =>
    if c.char = 'x' || c.char = 'X' then hexDigits
    else if c.char = 'o' || c.char = 'O' then "01234567_".toList
    else "01_".toList
  | _ => decimalDigits

def scanNumber (cs : Cells) : Option (Cells × Cells) :=
  let (sign, cs) := takeOne ['+', '-'] cs
  let (zero, cs) := takeOne ['0'] cs
  let (base, cs) := if zero.isEmpty then ([], cs) else takeOne "xXoObB".toList cs
  let set := digitsAfter base
  let (whole, cs) := takeRun set cs
  let (point, cs) := takeOne ['.'] cs
  let (part, cs) := if point.isEmpty then ([], cs) else takeRun set cs
  let (mark, cs) := takeOne (if set == decimalDigits then ['e', 'E'] else
    if set == hexDigits then ['p', 'P'] else []) cs
  let (expSign, cs) := if mark.isEmpty then ([], cs) else takeOne ['+', '-'] cs
  let (exponent, cs) := if mark.isEmpty then ([], cs) else takeRun decimalDigits cs
  let (imaginary, cs) := takeOne ['i'] cs
  if cs.head?.any (isNameChar ·.char) then none
  else
    let number := sign ++ zero ++ base ++ whole ++ point ++ part ++ mark ++ expSign ++ exponent
    some (number ++ imaginary, cs)

/-- A number at the front. A sign right behind it makes it the first part of a complex one. -/
def readNumber (cs : Cells) : Option (Word × Cells) := do
  let (re, rest) ← scanNumber cs
  if rest.head?.any fun c => c.char = '+' || c.char = '-' then
    let (im, rest) ← scanNumber rest
    if im.getLast?.any (·.char = 'i') then
      return (.complex (Text.ofCells re) (Text.ofCells im), rest)
    else none
  else return (.number (Text.ofCells re), rest)

def keyword? (name : Text) : Option Keyword :=
  ([("block", .block), ("break", .break), ("continue", .continue), ("define", .define),
    ("else", .else), ("end", .end), ("if", .if), ("range", .range), ("template", .template),
      ("with", .with)] :
    List (Text × Keyword)).lookup name

def wordOfName (name : Text) : Word :=
  match keyword? name with
  | some k => .keyword k
  | none =>
    if name == ("nil" : Text) then .nil
    else if name == ("true" : Text) then .bool true
    else if name == ("false" : Text) then .bool false
    else .ident name

def readWord (c : Text.Cell) (cs : Cells) : Option (Word × Cells) :=
  match c.char with
  | '=' => some (.assign, cs)
  | ':' => (afterChars ['='] cs).map (.declare, ·)
  | '|' => some (.pipe, cs)
  | '"' => (readQuoted '"' cs).map fun r => (.string (c.bytes ++ Text.ofCells r.1), r.2)
  | '\'' => (readQuoted '\'' cs).map fun r => (.char (c.bytes ++ Text.ofCells r.1), r.2)
  | '\x60' =>
    match splitAtChars ['\x60'] cs with
    | (content, some rest) => some (.raw (Text.ofCells content), rest)
    | (_, none) => none
  | '$' => (readName cs).map fun r => (.variable (c.bytes ++ r.1), r.2)
  | '(' => some (.leftParen, cs)
  | ')' => some (.rightParen, cs)
  | '.' =>
    if cs.head?.any (·.char.isDigit) then readNumber (c :: cs)
    else (readName cs).map fun r => (if r.1.isEmpty then .dot else .field r.1, r.2)
  | k =>
    if k = '+' || k = '-' || k.isDigit then readNumber (c :: cs)
    else if isNameChar k then (readName (c :: cs)).map fun r => (wordOfName r.1, r.2)
    else if ' ' < k && k < '\x7f' then some (.other k, cs)
    else none

def maxNesting : Nat := 10000

/-- The words of an action up to its closing brace: the words, whether the brace trims, and what
follows. `depth` counts open parentheses; `fuel` bounds the cells. -/
def readAction : Nat → Nat → Cells → Option (List Word × Bool × Cells)
  | 0, _, _ => none
  | fuel + 1, depth, cs =>
    match afterRightBrace cs with
    | some (trims, rest) => if depth = 0 then some ([], trims, rest) else none
    | none =>
      match cs with
      | [] => none
      | c :: cs =>
        if isSpace c.char then (readAction fuel depth cs).map fun r => (.space :: r.1, r.2)
        else
          match readWord c cs with
          | none => none
          | some (.leftParen, rest) =>
            if depth = maxNesting then none
            else (readAction fuel (depth + 1) rest).map fun r => (.leftParen :: r.1, r.2)
          | some (.rightParen, rest) =>
            if depth = 0 then none
            else (readAction fuel (depth - 1) rest).map fun r => (.rightParen :: r.1, r.2)
          | some (w, rest) => (readAction fuel depth rest).map fun r => (w :: r.1, r.2)

def textPiece (cs : Cells) : List Piece := if cs.isEmpty then [] else [.text (Text.ofCells cs)]

def afterComment (cs : Cells) : Option (Bool × Cells) :=
  match splitAtChars ['*', '/'] cs with
  | (_, some rest) => afterRightBrace rest
  | (_, none) => none

def readPieces : Nat → Cells → Option (List Piece)
  | 0, _ => none
  | fuel + 1, cs =>
    match splitAtChars ['{', '{'] cs with
    | (plain, none) => some (textPiece plain)
    | (plain, some inside) =>
      let trimmed := afterLeftTrim inside
      let before := textPiece (if trimmed.isSome then dropSpacesEnd plain else plain)
      let inside := trimmed.getD inside
      let follow (trims : Bool) (rest : Cells) :=
        readPieces fuel (if trims then dropSpaces rest else rest)
      match afterChars ['/', '*'] inside with
      | some comment => (afterComment comment).bind fun r => (follow r.1 r.2).map (before ++ ·)
      | none =>
        (readAction fuel 0 inside).bind fun r =>
          (follow r.2.1 r.2.2).map fun ps => before ++ .action r.1 :: ps

def pieces (t : Text) : Option (List Piece) := readPieces (t.length + 1) (Text.cells t)

end HeaderBridge.Template
