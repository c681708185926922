import HeaderBridge.Template.Format
import HeaderBridge.Text.Case

namespace HeaderBridge.Template

namespace Value

/-- Values without parts, by the kinds that compare with each other. -/
inductive Basic
  | bool (b : Bool)
  | whole (n : Int)
  | real (x : Double)
  | complex (re im : Double)
  | text (t : Text)
deriving DecidableEq

def basic? : Value → Option Basic
  | bool b => some (.bool b)
  | int n => some (.whole n)
  | byte b => some (.whole b.toNat)
  | real x => some (.real x)
  | complex re im => some (.complex re im)
  | text t => some (.text t)
  | _ => none

def Basic.equal : Basic → Basic → Option Bool
  | bool a, bool b => some (a == b)
  | whole a, whole b => some (a == b)
  | real a, real b => some (a.equal b)
  | complex a b, complex c d => some (a.equal c && b.equal d)
  | text a, text b => some (a == b)
  | _, _ => none

/-- Whether all fields of a record are without parts, so that it can be compared. -/
def isComparable : Value → Bool
  | record _ fs => fs.all fun e => e.2.basic?.isSome
  | _ => false

def isNil : Value → Bool
  | nil => true
  | list type _ _ => type.absent
  | _ => false

def sameKind : Value → Value → Bool
  | nil, _ | _, nil => true
  | list _ _ _, list _ _ _ | map _, map _ | record _ _, record _ _ => true
  | _, _ => false

def equalFields : List (Text × Value) → List (Text × Value) → Bool
  | [], [] => true
  | (_, v) :: es, (_, w) :: fs =>
    (do (← v.basic?).equal (← w.basic?)).getD false && equalFields es fs
  | _, _ => false

/-- Whether two values are equal; none if they cannot be compared. Texts, numbers and truth values
compare with their like, records with records, and everything compares with nil. -/
def equal (v w : Value) : Option Bool :=
  match v.basic?, w.basic? with
  | some a, some b => a.equal b
  | some _, none => if w matches nil then some false else none
  | none, some _ => if v matches nil then some false else none
  | none, none =>
    if !sameKind v w then none
    else if v.isNil || w.isNil then some (v.isNil == w.isNil)
    else if !w.isComparable then none
    else match v, w with
      | record s es, record t fs => some (s == t && equalFields es fs)
      | _, _ => none

def less (v w : Value) : Option Bool :=
  match v.basic?, w.basic? with
  | some (.whole a), some (.whole b) => some (a < b)
  | some (.real a), some (.real b) => some (a.less b)
  | some (.text a), some (.text b) => some (a < b)
  | _, _ => none

def lessOrEqual (v w : Value) : Option Bool := do
  if ← less v w then some true else equal v w

/-- Whether the first value equals one of the others. The comparison stops at the first that
does. -/
def equalAny (v : Value) : List Value → Option Bool
  | [] => some false
  | w :: ws => do if ← equal v w then some true else equalAny v ws

def length : Value → Option Nat
  | text t => some t.length
  | list _ vs _ => some vs.length
  | map es => some es.length
  | _ => none

def place? : Value → Option Nat
  | int n => if n < 0 then none else some n.toNat
  | byte b => some b.toNat
  | _ => none

def at? (v index : Value) : Option Value :=
  match v, index with
  | text t, i => do return byte (← t[← i.place?]?)
  | list _ vs _, i => do vs[← i.place?]?
  | map es, text k => some ((es.lookup k).getD nil)
  | _, _ => none

def index (v : Value) (indices : List Value) : Option Value :=
  match v with
  | nil => none
  | v => indices.foldlM at? v

def cutText (t : Text) (bounds : List Nat) : Option Text :=
  match bounds with
  | [] => some t
  | [i] => if i ≤ t.length then some (t.drop i) else none
  | [i, j] => if i ≤ j && j ≤ t.length then some (t.slice i j) else none
  | _ => none

/-- The items between two bounds and those behind the second. A third bound says where these end. -/
def cutList (items spare : List Value) (bounds : List Nat) : Option (List Value × List Value) :=
  let room := items ++ spare
  let cut (i j k : Nat) : Option (List Value × List Value) :=
    if i ≤ j && j ≤ k && k ≤ room.length then some ((room.take j).drop i, (room.take k).drop j)
    else none
  match bounds with
  | [] => some (items, spare)
  | [i] => cut i items.length room.length
  | [i, j] => cut i j room.length
  | [i, j, k] => cut i j k
  | _ => none

def slice (v : Value) (bounds : List Value) : Option Value :=
  match v with
  | text t => do return text (← cutText t (← bounds.mapM place?))
  | list type items spare => do
    let (items, spare) ← cutList items spare (← bounds.mapM place?)
    return list type items spare
  | _ => none

end Value

/-- Values written one after the other, with a space between two that are no texts. -/
def concat : List Value → Text
  | [] => []
  | [v] => v.render
  | v :: w :: vs => v.render ++ (if v.isText || w.isText then [] else " ") ++ concat (w :: vs)

def concatPrinted (vs : List Value) : Text :=
  concat (vs.map fun
    | .nil => .text "<no value>"
    | v => v)

def camelCase (t : Text) : Text := Text.onFirstByte Text.lower t

def escapeHtml (t : Text) : Text :=
  t.flatMap fun b =>
    match Char.ofNat b.toNat with
    | '\x00' => Text.ofChar Text.replacement
    | '"' => "&#34;"
    | '\'' => "&#39;"
    | '&' => "&amp;"
    | '<' => "&lt;"
    | '>' => "&gt;"
    | _ => [b]

def upperHex (width n : Nat) : Text :=
  let ds := digits 16 true n
  List.replicate (width - ds.length) (('0' : Char) : UInt8) ++ ds

def escapeScript (t : Text) : Text :=
  (Text.cells t).flatMap fun c =>
    match c.char with
    | '\\' => "\\\\"
    | '\'' => "\\'"
    | '"' => "\\\""
    | '<' => "\\u003C"
    | '>' => "\\u003E"
    | '&' => "\\u0026"
    | '=' => "\\u003D"
    | '\x7f' => c.bytes
    | k => if Text.isPrintable k then c.bytes else "\\u" ++ upperHex 4 k.toNat

def escapeQuery (t : Text) : Text :=
  t.flatMap fun b =>
    if Text.isNameByte b || b == '-' || b == '.' || b == '~' then [b]
    else if b == ' ' then "+"
    else "%" ++ upperHex 2 b.toNat

def functionNames : List Text :=
  ["and", "or", "not", "len", "index", "slice", "print", "println", "printf", "eq", "ne", "lt",
    "le", "gt", "ge", "html", "js", "urlquery", "call", "upper", "lower", "toCamelCase"]

def onText (f : Text → Text) : List Value → Option Value
  | [.text t] => some (.text (f t))
  | _ => none

def onTwo (f : Value → Value → Option Bool) : List Value → Option Value
  | [v, w] => (f v w).map .bool
  | _ => none

def apply (name : Text) (args : List Value) : Option Value :=
  let named (n : String) : Bool := name == Text.ofString n
  if named "upper" then onText Text.upper args
  else if named "lower" then onText Text.lower args
  else if named "toCamelCase" then onText camelCase args
  else if named "not" then match args with
    | [v] => some (.bool (!v.isTrue))
    | _ => none
  else if named "len" then match args with
    | [v] => v.length.map fun n => .int n
    | _ => none
  else if named "index" then match args with
    | v :: indices => v.index indices
    | [] => none
  else if named "slice" then match args with
    | v :: bounds => v.slice bounds
    | [] => none
  else if named "printf" then match args with
    | .text pattern :: args => some (.text (format pattern args))
    | _ => none
  else if named "print" then some (.text (concat args))
  else if named "println" then some (.text (Text.join " " (args.map Value.render) ++ "\n"))
  else if named "html" then some (.text (escapeHtml (concatPrinted args)))
  else if named "js" then some (.text (escapeScript (concatPrinted args)))
  else if named "urlquery" then some (.text (escapeQuery (concatPrinted args)))
  else if named "eq" then match args with
    | v :: w :: ws => (v.equalAny (w :: ws)).map .bool
    | _ => none
  else if named "ne" then onTwo (fun v w => (v.equal w).map not) args
  else if named "lt" then onTwo Value.less args
  else if named "le" then onTwo Value.lessOrEqual args
  else if named "gt" then onTwo (fun v w => (v.lessOrEqual w).map not) args
  else if named "ge" then onTwo (fun v w => (v.less w).map not) args
  else none

end HeaderBridge.Template
