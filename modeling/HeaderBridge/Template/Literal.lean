import HeaderBridge.Text.Real

namespace HeaderBridge.Template

def octalValue? (ds : List Char) : Option Nat := Text.digitsValue? 8 (Text.ofChars ds)

def hexValue? (ds : List Char) : Option Nat := Text.digitsValue? 16 (Text.ofChars ds)

def charOfNumber? (n : Nat) : Option Text :=
  if n.isValidChar then some (Text.ofChar (Char.ofNat n)) else none

/-- The bytes that an escape stands for, read after its backslash, and how many cells it takes. -/
def readEscape (quote : Char) (cs : List Char) : Option (Text × Nat) :=
  match cs with
  | 'a' :: _ => some ([7], 1)
  | 'b' :: _ => some ([8], 1)
  | 'f' :: _ => some ([12], 1)
  | 'n' :: _ => some ([10], 1)
  | 'r' :: _ => some ([13], 1)
  | 't' :: _ => some ([9], 1)
  | 'v' :: _ => some ([11], 1)
  | '\\' :: _ => some ("\\", 1)
  | 'x' :: rest =>
    if rest.length < 2 then none else (hexValue? (rest.take 2)).map fun n => ([n.toUInt8], 3)
  | 'u' :: rest =>
    if rest.length < 4 then none else ((hexValue? (rest.take 4)).bind charOfNumber?).map (·, 5)
  | 'U' :: rest =>
    if rest.length < 8 then none else ((hexValue? (rest.take 8)).bind charOfNumber?).map (·, 9)
  | c :: rest =>
    if c = quote then some (Text.ofChar c, 1)
    else if '0' ≤ c && c ≤ '7' then
      if rest.length < 2 then none
      else ((octalValue? (c :: rest.take 2)).filter (· < 256)).map fun n => ([n.toUInt8], 3)
    else none
  | [] => none

/-- The parts of a literal between its quotes, each the text of one character or escape. The first
argument counts the cells of an escape that are still to be passed over. -/
def unescape (quote : Char) : Nat → List Char → Option (List Text)
  | _, [] => some []
  | skip + 1, _ :: cs => unescape quote skip cs
  | 0, c :: cs =>
    if c = quote || c = '\n' then none
    else if c = '\\' then
      match readEscape quote cs with
      | some (t, n) => (unescape quote n cs).map (t :: ·)
      | none => none
    else (unescape quote 0 cs).map (Text.ofChar c :: ·)

def inner (written : Text) : List Char := (Text.chars written).tail.dropLast

def unquote (written : Text) : Option Text := (unescape '"' 0 (inner written)).map List.flatten

def charNumber (written : Text) : Option Nat :=
  match unescape '\'' 0 (inner written) with
  | some [t] =>
    match Text.chars t, t with
    | _, [b] => some b.toNat
    | [c], _ => some c.toNat
    | _, _ => none
  | _ => none

inductive Number
  | int (n : Int)
  | real (x : Double)
  | complex (re im : Double)
  /-- A whole number beyond all signed words of 64 bits, though not beyond all words. No value
  stands for it. -/
  | large
deriving Repr, DecidableEq

namespace Number

def isRealMark (b : UInt8) : Bool := b == '.' || b == 'e' || b == 'E' || b == 'p' || b == 'P'

def isHexWhole (t : Text) : Bool :=
  2 < t.length && ((Text.after? "0x" t).isSome || (Text.after? "0X" t).isSome) && !t.any fun b =>
    b == 'p' || b == 'P'

def isReal (t : Text) : Bool := t.any isRealMark && !isHexWhole t

def isWord (t : Text) : Bool :=
  let (base, ds) := Text.splitBase t
  (!ds.contains '_' || Text.underscoresFit (base != 10) ds) &&
    (Text.digitsValue? base (ds.filter (· != ('_' : Char).toUInt8))).any (· < Text.wordLimit)

def zero : Double := .finite false 0 Double.leastExponent

def ofWhole? (t : Text) : Option Number :=
  match Text.readInteger t with
  | .ok n => if isReal t then (Double.ofDecimal? (n < 0) n.natAbs 0).map real else some (int n)
  | .error _ => if isWord t then some large else none

def read? (t : Text) : Option Number :=
  if t.getLast? == some 'i' then (Double.read? t.dropLast).map (complex zero)
  else (ofWhole? t).or (if isReal t then (Double.read? t).map real else none)

def readComplex? (re im : Text) : Option Number := do
  return complex (← Double.read? re) (← Double.read? im.dropLast)

end Number

end HeaderBridge.Template
