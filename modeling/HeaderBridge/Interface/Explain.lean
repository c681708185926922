import HeaderBridge.Interface.Locate

namespace HeaderBridge

def alignRight (width : Nat) (n : Text) : Text := Text.spaces (width - n.length) ++ n

def numberedLine (width n : Nat) (line : Text) : Text :=
  alignRight width (Text.ofNat n) ++ " | " ++ Text.dropTrailing '\r' line ++ "\n"

def caretLine (width : Nat) (column : Int) : Text :=
  if column > 0 then Text.spaces width ++ " | " ++ Text.spaces (column.toNat - 1) ++ "^\n" else []

/-- The line that a fault points at, with up to `context` lines before it and a caret under the
column. Empty if the fault has no line or the source no such line. -/
def snippet (context : Int) (fault : Option Fault) (source : Text) : Text :=
  match fault.bind Fault.firstCoded with
  | none => []
  | some (notice, _) =>
    let lines := Text.lines source
    let line := notice.location.line
    if line ≤ 0 || line > lines.length then []
    else
      let last := line.toNat
      let first := max 1 (last - context.toNat)
      let width := (Text.ofNat last).length
      ((List.range' first (last + 1 - first)).flatMap fun n => numberedLine width n
        (lines.getD (n - 1) [])) ++ caretLine width notice.location.column

def startsPureMark (line : Text) : Bool :=
  match line with
  | a :: rest =>
    a == '=' &&
      match rest.dropWhile Lexeme.isBlankByte with
      | b :: rest => b == '0' && (rest.dropWhile Lexeme.isBlankByte).head? == some ';'
      | [] => false
  | [] => false

def hasPureMark (line : Text) : Bool :=
  match line with
  | [] => false
  | a :: rest => startsPureMark (a :: rest) || hasPureMark rest

def isImpureVirtual (line : Text) : Bool :=
  Text.hasBlock "virtual" line && !line.contains '~' && !hasPureMark line

def explainImpure (source : Text) : List Text :=
  ((Text.lines (mask source)).mapIdx fun i line =>
    if isImpureVirtual line then
      [("line " : Text) ++ Text.ofNat (i + 1) ++ ": virtual method is not pure: " ++
        Text.collapse line]
    else []).flatten

def explainMissing (source : Text) : List Text :=
  let code := mask source
  if Text.hasBlock "struct" code then
    ["Structs are only treated as interfaces when they declare virtual methods"]
  else if (Text.trim code).isEmpty then
    ["The input contains only comments or preprocessor directives"]
  else []

/-- Hints for a fault, drawn from the source it arose in. -/
def explain (fault : Option Fault) (source : Text) : List Text :=
  match fault.map Fault.code with
  | some .noPureVirtual => explainImpure source
  | some .noInterface => explainMissing source
  | some .unbalanced =>
    ["Braces inside comments and string literals are ignored; count the remaining ones"]
  | _ => []

end HeaderBridge
