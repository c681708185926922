import HeaderBridge.Text

namespace HeaderBridge

inductive TokenKind
  | blockComment
  | lineComment
  | directive
  | stringLiteral
  | charLiteral
  | ident
  | number
  | scope
  | punct
  | blank
deriving Repr, DecidableEq

namespace TokenKind

def isComment : TokenKind → Bool
  | blockComment | lineComment | directive => true
  | _ => false

def isLiteral : TokenKind → Bool
  | stringLiteral | charLiteral => true
  | _ => false

/-- Kinds that carry meaning: all but blanks, comments and directives. -/
def isSignificant (k : TokenKind) : Bool := !(k.isComment || k == blank)

end TokenKind

structure Lexeme where
  kind : TokenKind
  text : Text
deriving Repr, DecidableEq

namespace Lexeme

def isBlankByte (b : UInt8) : Bool :=
  b == '\t' || b == newline || b == 0x0C || b == '\r' || b == ' '

def isNumberByte (b : UInt8) : Bool := Text.isNameByte b || b == '.' || b == '\''

def commentLength : Text → Option Nat
  | a :: b :: rest =>
    if a == '*' && b == '/' then some 2 else (commentLength (b :: rest)).map (· + 1)
  | _ => none

/-- The bytes up to the end of a literal, the closing `quote` included. A backslash takes the next
byte with it; neither it nor a plain byte may be a newline. -/
def literalLength (quote : UInt8) : Text → Option Nat
  | [] => none
  | a :: rest =>
    if a == quote then some 1
    else if a == newline then none
    else if a == '\\' then
      match rest with
      | [] => none
      | b :: rest => if b == newline then none else (literalLength quote rest).map (· + 2)
    else (literalLength quote rest).map (· + 1)

/-- The bytes up to the end of the line; a backslash right before the newline continues it. -/
def directiveLength : Text → Nat
  | [] => 0
  | a :: rest =>
    if a == newline then 0
    else match rest with
      | [] => 1
      | b :: rest =>
        if a == '\\' && b == newline then directiveLength rest + 2
        else directiveLength (b :: rest) + 1

def runLength (p : UInt8 → Bool) (t : Text) : Nat := (t.takeWhile p).length

/-- The kind of the lexeme that starts at `a` and the number of its bytes after `a`. -/
def next (a : UInt8) (rest : Text) : TokenKind × Nat :=
  let comment := if a == '/' && rest.head? == some '*' then commentLength rest.tail else none
  let string := if a == '"' then literalLength '"' rest else none
  let char := if a == '\'' then literalLength '\'' rest else none
  if let some n := comment then (.blockComment, n + 1)
  else if a == '/' && rest.head? == some '/' then (.lineComment, runLength (· != newline) rest)
  else if a == '#' then (.directive, directiveLength rest)
  else if let some n := string then (.stringLiteral, n)
  else if let some n := char then (.charLiteral, n)
  else if Text.isNameStart a then (.ident, runLength Text.isNameByte rest)
  else if Text.isDigitByte a then (.number, runLength isNumberByte rest)
  else if a == ':' && rest.head? == some ':' then (.scope, 1)
  else if isBlankByte a then (.blank, runLength isBlankByte rest)
  else (.punct, (Text.firstChar a rest).2 - 1)

def ofText : Text → List Lexeme
  | [] => []
  | a :: rest =>
    let step := next a rest
    ⟨step.1, a :: rest.take step.2⟩ :: ofText (rest.drop step.2)
termination_by t => t.length

end Lexeme

/-- A place in a text: bytes from 0, lines and characters of the line from 1. -/
structure Pos where
  offset : Nat
  line : Nat
  column : Nat
deriving Repr, DecidableEq

namespace Pos

def start : Pos := ⟨0, 1, 1⟩

def lastLine (t : Text) : Text := (t.reverse.takeWhile (· != newline)).reverse

def advance (p : Pos) (t : Text) : Pos :=
  { offset := p.offset + t.length
    line := p.line + t.count newline
    column := (if t.contains newline then 1 else p.column) + Text.charCount (lastLine t) }

end Pos

structure Token where
  kind : TokenKind
  text : Text
  pos : Pos
deriving Repr, DecidableEq

namespace Token

/-- Gives each lexeme its position, the first one standing at `p`. -/
def place : Pos → List Lexeme → List Token
  | _, [] => []
  | p, l :: ls => ⟨l.kind, l.text, p⟩ :: place (p.advance l.text) ls

def ofText (t : Text) : List Token := place Pos.start (Lexeme.ofText t)

def stop (t : Token) : Nat := t.pos.offset + t.text.length

def isPunct (t : Token) (c : Char) : Bool := t.kind == .punct && t.text == [(c : UInt8)]

theorem isPunct_iff {t : Token} {c : Char} :
    t.isPunct c = true ↔ t.kind = .punct ∧ t.text = [(c : UInt8)] := by
  simp [isPunct]

def sign? (t : Token) : Option Char :=
  match t.kind, t.text with
  | .punct, [b] => some (Char.ofNat b.toNat)
  | _, _ => none

def isIdent (t : Token) : Bool := t.kind == .ident

def isWord (t : Token) (word : String) : Bool := t.kind == .ident && t.text == (word : Text)

theorem isWord_iff {t : Token} {w : String} :
    t.isWord w = true ↔ t.kind = .ident ∧ t.text = (w : Text) := by
  simp [isWord]

def significant (ts : List Token) : List Token := ts.filter (·.kind.isSignificant)

/-- The text from the first token to the last, blanks folded. The tokens are those of `source`. -/
def spanText (source : Text) (ts : List Token) : Text :=
  match ts.head?, ts.getLast? with
  | some first, some last => Text.collapse (Text.slice source first.pos.offset last.stop)
  | _, _ => []

/-- Splits at the `)` that closes `depth + 1` open parentheses: the tokens before it, and it with
what follows. A semicolon ends the search. -/
def closeParen : Nat → List Token → Option (List Token × List Token)
  | _, [] => none
  | depth, t :: ts =>
    let step d := (closeParen d ts).map fun r => (t :: r.1, r.2)
    if t.isPunct '(' then step (depth + 1)
    else if t.isPunct ')' then
      match depth with
      | 0 => some ([], t :: ts)
      | depth + 1 => step depth
    else if t.isPunct ';' then none
    else step depth

theorem closeParen_length {depth : Nat} {ts inner rest : List Token}
    (h : closeParen depth ts = some (inner, rest)) : rest.length ≤ ts.length := by
  fun_induction closeParen depth ts generalizing inner rest <;> grind [Option.map_eq_some_iff]

end Token
end HeaderBridge
