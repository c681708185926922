import HeaderBridge.Text.Double

namespace HeaderBridge.Double

/-- A decimal fraction `0.d₁d₂d₃…` times a power of ten. The last digit is not zero; zero has no
digits. -/
structure Digits where
  digits : Text
  point : Int

def Digits.ofScaled (n : Nat) (exponent : Int) : Digits :=
  if n = 0 then ⟨[], 0⟩
  else
    let ds := Text.ofNat n
    ⟨Text.dropTrailing '0' ds, ds.length + exponent⟩

def shortestDigits (m : Nat) (q : Int) : Digits :=
  if m = 0 then ⟨[], 0⟩ else Digits.ofScaled (shortest m q).1 (shortest m q).2

/-- The value to a number of significant digits; a half goes to the even neighbour. -/
def significantDigits (m : Nat) (q : Int) (count : Nat) : Digits :=
  if m = 0 then ⟨[], 0⟩
  else
    let (n, d) := scale 2 m 1 q
    let exponent := position n d - count
    let (a, b) := scale 10 n d (-exponent)
    Digits.ofScaled (roundDiv a b) exponent

def placedDigits (m : Nat) (q : Int) (places : Nat) : Digits :=
  let (n, d) := scale 2 m 1 q
  Digits.ofScaled (roundDiv (n * Nat.pow 10 places) d) (-places)

def Digits.at (d : Digits) (i : Int) : UInt8 :=
  if i < 0 then '0' else (d.digits[i.natAbs]?).getD '0'

def twoDigits (n : Nat) : Text := if n < 10 then "0" ++ Text.ofNat n else Text.ofNat n

def signedExponent (mark : UInt8) (e : Int) : Text :=
  mark :: (if e < 0 then "-" else "+") ++ twoDigits e.natAbs

def Digits.scientific (d : Digits) (mark : UInt8) (places : Nat) : Text :=
  let fraction : Text := (List.range places).map fun (i : Nat) => d.at (i + 1)
  let point : Text := if places = 0 then [] else "."
  (d.at 0 :: point ++ fraction) ++ signedExponent mark (if d.digits.isEmpty then 0 else d.point - 1)

def Digits.fixed (d : Digits) (places : Nat) : Text :=
  let whole : Text :=
    if 0 < d.point then (List.range d.point.natAbs).map fun (i : Nat) => d.at i else "0"
  let fraction : Text := (List.range places).map fun (i : Nat) => d.at (d.point + i)
  if places = 0 then whole else whole ++ "." ++ fraction

def Digits.placesNeeded (d : Digits) : Nat := ((d.digits.length : Int) - d.point).toNat

def Digits.general (d : Digits) (mark : UInt8) (count : Nat) (limit : Int) : Text :=
  let exponent := d.point - 1
  if exponent < -4 || limit ≤ exponent then d.scientific mark (min count d.digits.length - 1)
  else d.fixed d.placesNeeded

def binaryNotation (m : Nat) (q : Int) : Text :=
  Text.ofNat m ++ "p" ++ (if q < 0 then "-" else "+") ++ Text.ofNat q.natAbs

def hexDigits (upper : Bool) (n : Nat) : Text :=
  (Nat.toDigits 16 n).flatMap fun c => Text.ofChar (if upper then c.toUpper else c)

/-- Hexadecimal digits of the mantissa, one of them before the point, and a power of two. -/
def hexNotation (m : Nat) (q : Int) (upper : Bool) (precision : Option Nat) : Text :=
  let start : Text := if upper then "0X" else "0x"
  let mark : UInt8 := if upper then 'P' else 'p'
  let bits := m.log2
  -- The fraction has thirteen digits.
  let whole := m * Nat.pow 2 (52 - bits)
  let digits := precision.getD 13
  let rounded :=
    if digits < 13 then roundDiv whole (Nat.pow 16 (13 - digits))
    else whole * Nat.pow 16 (digits - 13)
  let carried := decide (2 * Nat.pow 16 digits ≤ rounded)
  let exponent : Int := if m = 0 then 0 else q + bits + if carried then 1 else 0
  let rounded := if carried then rounded / 2 else rounded
  let fraction := (hexDigits upper (rounded % Nat.pow 16 digits + Nat.pow 16 digits)).tail
  let fraction := if precision.isNone then Text.dropTrailing '0' fraction else fraction
  let point : Text := if fraction.isEmpty then [] else "."
  start ++ Text.ofNat (rounded / Nat.pow 16 digits) ++ point ++ fraction ++
    signedExponent mark exponent

def magnitude (m : Nat) (q : Int) (letter : Char) (precision : Option Nat) : Text :=
  match letter with
  | 'b' => binaryNotation m q
  | 'x' => hexNotation m q false precision
  | 'X' => hexNotation m q true precision
  | 'f' =>
    match precision with
    | some p => (placedDigits m q p).fixed p
    | none => let d := shortestDigits m q; d.fixed d.placesNeeded
  | 'e' | 'E' =>
    match precision with
    | some p => (significantDigits m q (p + 1)).scientific letter.toUInt8 p
    | none => let d := shortestDigits m q; d.scientific letter.toUInt8 (d.digits.length - 1)
  | _ =>
    let mark : UInt8 := if letter = 'G' then 'E' else 'e'
    match precision with
    | some p =>
      let p := max p 1
      let d := significantDigits m q p
      let limit : Int :=
        if d.digits.length < p && d.point ≤ d.digits.length then d.digits.length else p
      d.general mark p limit
    | none =>
      let d := shortestDigits m q
      d.general mark d.digits.length 6

def signed (x : Double) (letter : Char) (precision : Option Nat) : Text :=
  match x with
  | undefined => "+NaN"
  | infinite negative => if negative then "-Inf" else "+Inf"
  | finite negative m q => (if negative then "-" else "+") ++ magnitude m q letter precision

end HeaderBridge.Double
