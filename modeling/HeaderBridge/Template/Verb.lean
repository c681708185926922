import HeaderBridge.Template.Value
import HeaderBridge.Text.Notation
import HeaderBridge.Text.Quoted

namespace HeaderBridge.Template

/-- What stands between the percent sign and the verb. -/
structure Flags where
  sharp : Bool := false
  zero : Bool := false
  plus : Bool := false
  minus : Bool := false
  space : Bool := false
  asSource : Bool := false
  withNames : Bool := false
  width : Option Nat := none
  precision : Option Nat := none
deriving Repr, DecidableEq

namespace Flags

def fillsZeros (f : Flags) : Bool := f.zero && !f.minus

def filling (f : Flags) (count : Nat) : Text :=
  List.replicate (f.width.getD 0 - count) (if f.fillsZeros then (('0' : Char) : UInt8) else ' ')

def padCounted (f : Flags) (count : Nat) (t : Text) : Text :=
  if f.minus then t ++ f.filling count else f.filling count ++ t

def pad (f : Flags) (t : Text) : Text :=
  if f.width.isNone then t else f.padCounted (Text.charCount t) t

def cut (f : Flags) (t : Text) : Text :=
  match f.precision with
  | some n => Text.ofCells ((Text.cells t).take n)
  | none => t

/-- The flags for the verbs `v` and `w`, for which a sharp and a plus mean something of their
own. -/
def general (f : Flags) : Flags :=
  { f with sharp := false, asSource := f.sharp, plus := false, withNames := f.plus }

end Flags

def digits (base : Nat) (upper : Bool) (n : Nat) : Text :=
  (Nat.toDigits base n).flatMap fun c => Text.ofChar (if upper then c.toUpper else c)

def baseMark (base : Nat) (upper : Bool) (ds : Text) : Text :=
  match base with
  | 2 => "0b"
  | 8 => if ds.head? == some '0' then [] else "0"
  | 16 => if upper then "0X" else "0x"
  | _ => []

def signMark (f : Flags) (negative : Bool) : Text :=
  if negative then "-" else if f.plus then "+" else if f.space then " " else []

/-- A whole number. Zeros fill up to the precision, or to the width if there is no precision. -/
def formatInt (f : Flags) (base : Nat) (upper octal : Bool) (n : Int) : Text :=
  if f.precision == some 0 && n == 0 then { f with zero := false, minus := false }.pad []
  else
    let sign := signMark f (n < 0)
    let least := match f.precision with
      | some p => p
      | none => if f.fillsZeros then f.width.getD 0 - sign.length else 0
    let ds := digits base upper n.natAbs
    let ds := List.replicate (least - ds.length) (('0' : Char) : UInt8) ++ ds
    let mark := if f.sharp then baseMark base upper ds else []
    let mark : Text := if octal then "0o" ++ mark else mark
    { f with zero := false }.pad (sign ++ mark ++ ds)

def charOf (n : Int) : Char :=
  if 0 ≤ n && n.toNat.isValidChar then Char.ofNat n.toNat else Text.replacement

/-- The number of a character in the form `U+0041`; a sharp adds the character itself. Negative
numbers are taken as words of 64 bits. -/
def formatUnicode (f : Flags) (n : Int) : Text :=
  let n := (n % Text.wordLimit).toNat
  let ds := digits 16 true n
  let zeros : Text := List.replicate (max 4 (f.precision.getD 4) - ds.length) '0'
  let shown : Text :=
    if f.sharp && n.isValidChar && Text.isPrintable (Char.ofNat n) then
      " '" ++ Text.ofChar (Char.ofNat n) ++ "'"
    else []
  { f with zero := false }.pad ("U+" ++ zeros ++ ds ++ shown)

def formatWhole? (f : Flags) (verb : Char) (isSigned : Bool) (n : Int) : Option Text :=
  match verb with
  | 'v' =>
    if f.asSource && !isSigned then some (formatInt { f with sharp := true } 16 false false n)
    else some (formatInt f 10 false false n)
  | 'd' => some (formatInt f 10 false false n)
  | 'b' => some (formatInt f 2 false false n)
  | 'o' => some (formatInt f 8 false false n)
  | 'O' => some (formatInt f 8 false true n)
  | 'x' => some (formatInt f 16 false false n)
  | 'X' => some (formatInt f 16 true false n)
  | 'c' => some (f.pad (Text.ofChar (charOf n)))
  | 'q' => some (f.pad (Text.quoteWith f.plus '\'' (Text.ofChar (charOf n))))
  | 'U' => some (formatUnicode f n)
  | _ => none

/-- The digits of a number without its sign, brought to the form that a sharp asks for: a point is
always there, and `count` digits are, if the notation has a number of them. -/
def sharpened (letter : Char) (count : Int) (t : Text) : Text :=
  let isHex := letter = 'x' || letter = 'X'
  let isMark (b : UInt8) : Bool :=
    b == 'p' || b == 'P' || (!isHex && (b == 'e' || b == 'E'))
  let body := t.takeWhile (!isMark ·)
  let tail := t.drop body.length
  let counted := (body.filter (· != ('.' : Char).toUInt8)).dropWhile (· == ('0' : Char).toUInt8)
  let pointed := body.contains '.'
  let missing := count - counted.length - if !pointed && body == ("0" : Text) then 1 else 0
  body ++ (if pointed then [] else ".") ++
    List.replicate missing.toNat (('0' : Char) : UInt8) ++ tail

def formatDouble (f : Flags) (letter : Char) (precision : Option Nat) (x : Double) : Text :=
  let precision := f.precision.or precision
  let written := x.signed letter precision
  let sign := written.take 1
  let body := written.drop 1
  let sign : Text := if f.space && sign == ("+" : Text) && !f.plus then " " else sign
  match x with
  | .infinite _ => { f with zero := false }.pad (sign ++ body)
  | .undefined => { f with zero := false }.pad (if f.space || f.plus then sign ++ body else body)
  | .finite _ _ _ =>
    let count : Int := if ['g', 'G', 'x'].contains letter then precision.getD 6 else 0
    let body := if f.sharp && letter != 'b' then sharpened letter count body else body
    if f.plus || sign != ("+" : Text) then
      if f.fillsZeros then sign ++ f.filling (1 + body.length) ++ body else f.pad (sign ++ body)
    else f.pad body

def formatReal? (f : Flags) (verb : Char) (x : Double) : Option Text :=
  match verb with
  | 'v' => some (formatDouble f 'g' none x)
  | 'b' | 'g' | 'G' | 'x' | 'X' => some (formatDouble f verb none x)
  | 'f' | 'e' | 'E' => some (formatDouble f verb (some 6) x)
  | 'F' => some (formatDouble f 'f' (some 6) x)
  | _ => none

def formatComplex? (f : Flags) (verb : Char) (re im : Double) : Option Text := do
  return "(" ++ (← formatReal? f verb re) ++ (← formatReal? { f with plus := true } verb im) ++ "i)"

/-- The bytes of a text in hexadecimal. A space stands between them if asked for, and the mark of
the base in front of the text or of each byte. -/
def formatBytes (f : Flags) (upper : Bool) (t : Text) : Text :=
  let t := t.take (f.precision.getD t.length)
  if t.isEmpty then { f with minus := false, zero := f.fillsZeros }.pad []
  else
    let mark : Text := if f.sharp then if upper then "0X" else "0x" else []
    let pair (b : UInt8) : Text := (digits 16 upper (b.toNat + 256)).tail
    let body :=
      if f.space then Text.join " " (t.map fun b => mark ++ pair b) else mark ++ t.flatMap pair
    f.padCounted body.length body

def fitsBackquotes (t : Text) : Bool :=
  (Text.cells t).all fun c =>
    if c.bytes.length = 1 then
      c.char != Text.replacement && (c.char = '\t' || ' ' ≤ c.char) && c.char != '\x60' &&
        c.char != '\x7f'
    else c.char.toNat != 0xFEFF

def formatQuoted (f : Flags) (t : Text) : Text :=
  let t := f.cut t
  if f.sharp && fitsBackquotes t then f.pad ("\x60" ++ t ++ "\x60")
  else f.pad (Text.quoteWith f.plus '"' t)

def formatText? (f : Flags) (verb : Char) (t : Text) : Option Text :=
  match verb with
  | 'v' => some (if f.asSource then formatQuoted f t else f.pad (f.cut t))
  | 's' => some (f.pad (f.cut t))
  | 'q' => some (formatQuoted f t)
  | 'x' => some (formatBytes f false t)
  | 'X' => some (formatBytes f true t)
  | _ => none

def formatLeaf? (f : Flags) (verb : Char) : Value → Option Text
  | .bool b =>
    if verb = 't' || verb = 'v' then some (f.pad (if b then "true" else "false")) else none
  | .int n => formatWhole? f verb true n
  | .byte b => formatWhole? f verb false b.toNat
  | .real x => formatReal? f verb x
  | .complex re im => formatComplex? f verb re im
  | .text t => formatText? f verb t
  | _ => none

/-- The complaint about a verb that does not fit a value of the given type, written `shown`. -/
def badVerb (verb : Char) (type shown : Text) : Text :=
  "%!" ++ Text.ofChar verb ++ "(" ++ type ++ "=" ++ shown ++ ")"

def formatLeaf (f : Flags) (verb : Char) (v : Value) : Text :=
  (formatLeaf? f verb v).getD (badVerb verb v.typeName ((formatLeaf? f 'v' v).getD []))

def bracketed (f : Flags) (type : Text) (start finish : Text) (parts : List Text) : Text :=
  if f.asSource then type ++ "\x7b" ++ Text.join ", " parts ++ "\x7d"
  else start ++ Text.join " " parts ++ finish

mutual

/-- A value that may have parts, each of them under the same verb. What is missing is written out
whatever the verb. -/
def formatParts (f : Flags) (verb : Char) : Value → Text
  | .nil => if f.asSource then ListType.values.element ++ "(nil)" else "<nil>"
  | .list type vs _ =>
    if f.asSource && type.absent then type.name ++ "(nil)"
    else bracketed f type.name "[" "]" (formatItems f verb vs)
  | .map es =>
    bracketed f (Value.map []).typeName "map[" "]"
      ((Value.sortEntries (formatEntries f verb es)).map fun e =>
        formatLeaf f verb (.text e.1) ++ ":" ++ e.2)
  | .record type fs =>
    bracketed f type "\x7b" "\x7d" ((formatEntries f verb fs).map fun e =>
      if f.withNames || f.asSource then e.1 ++ ":" ++ e.2 else e.2)
  | v => formatLeaf f verb v

def formatItems (f : Flags) (verb : Char) : List Value → List Text
  | [] => []
  | v :: vs => formatParts f verb v :: formatItems f verb vs

def formatEntries (f : Flags) (verb : Char) : List (Text × Value) → List (Text × Text)
  | [] => []
  | (k, v) :: es => (k, formatParts f verb v) :: formatEntries f verb es

end

def formatPlace? (f : Flags) : Value → Option Text
  | .list type _ _ =>
    if type.absent then some (formatInt { f with sharp := !f.sharp } 16 false false 0) else none
  | _ => none

/-- A value under a verb. The verb `T` writes the type and `p` the place of a list. The verb `w`
fits no value that can stand in a template. -/
def formatValue (f : Flags) (verb : Char) (v : Value) : Text :=
  match v with
  | .nil =>
    if verb = 'v' || verb = 'T' then f.pad "<nil>" else "%!" ++ Text.ofChar verb ++ "(<nil>)"
  | v =>
    if verb = 'T' then f.pad (f.cut v.typeName)
    else if verb = 'p' then (formatPlace? f v).getD (badVerb verb v.typeName (formatParts f 'v' v))
    else if verb = 'w' then badVerb verb v.typeName (formatParts f 'v' v)
    else formatParts f verb v

namespace Value

def render (v : Value) : Text := formatValue {} 'v' v

def printed : Value → Text
  | nil => "<no value>"
  | v => render v

end Value
end HeaderBridge.Template
