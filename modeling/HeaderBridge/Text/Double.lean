import HeaderBridge.Text.Integer

namespace HeaderBridge

inductive Double
  | finite (negative : Bool) (mantissa : Nat) (exponent : Int)
  | infinite (negative : Bool)
  | undefined
deriving Repr, DecidableEq

namespace Double

def isZero : Double → Bool
  | finite _ m _ => m == 0
  | _ => false

def compare? : Double → Double → Option Ordering
  | finite s m p, finite t n q =>
    let low := min p q
    let left : Int := m * Nat.pow 2 (p - low).toNat
    let right : Int := n * Nat.pow 2 (q - low).toNat
    some (compare (if s then -left else left) (if t then -right else right))
  | _, _ => none

def equal (a b : Double) : Bool := a.compare? b == some .eq

def less (a b : Double) : Bool := a.compare? b == some .lt

def roundDiv (n d : Nat) : Nat :=
  let q := n / d
  let r := n % d
  if 2 * r < d then q else if d < 2 * r then q + 1 else if q % 2 = 0 then q else q + 1

def scale (base : Nat) (n d : Nat) (exponent : Int) : Nat × Nat :=
  if exponent < 0 then (n, d * Nat.pow base exponent.natAbs)
  else (n * Nat.pow base exponent.natAbs, d)

def mantissaLimit : Nat := 0x20000000000000

def leastExponent : Int := -1074

def nearest (n d : Nat) : Nat × Int :=
  let rounded (q : Int) : Nat := let (a, b) := scale 2 n d (-q); roundDiv a b
  let low : Int := max leastExponent (n.log2 - d.log2 - 53)
  let (q, m) :=
    if rounded low < mantissaLimit then (low, rounded low) else (low + 1, rounded (low + 1))
  if m = mantissaLimit then (mantissaLimit / 2, q + 1) else (m, q)

/-- The double nearest to `digits * 10 ^ exponent`; none if that is beyond all doubles. -/
def ofDecimal? (negative : Bool) (digits : Nat) (exponent : Int) : Option Double :=
  let position : Int := (Text.ofNat digits).length + exponent
  if digits = 0 || position < -330 then some (finite negative 0 leastExponent)
  else if position > 310 then none
  else
    let (n, d) := scale 10 digits 1 exponent
    let (m, q) := nearest n d
    if q > 971 then none else some (finite negative m q)

def position (n d : Nat) : Int :=
  if d ≤ n then (Text.ofNat (n / d)).length
  else
    let zeros := (List.range 330).find? fun j => decide (d ≤ n * Nat.pow 10 (j + 1))
    Int.neg (zeros.getD 0 : Nat)

/-- The decimal of the fewest digits for which `m * 2 ^ q` is the nearest double, as digits and
exponent. Of two such decimals it is the nearer one. -/
def shortest (m : Nat) (q : Int) : Nat × Int :=
  let (n, d) := scale 2 m 1 q
  let first := position n d
  let isSame (c : Nat) (e : Int) : Bool := let (a, b) := scale 10 c 1 e; nearest a b == (m, q)
  let hit := (List.range 17).findSome? fun (k : Nat) =>
    let e := first - (k + 1)
    let (a, b) := scale 10 n d (-e)
    let near := roundDiv a b
    let far := if near * b ≤ a then near + 1 else near - 1
    if isSame near e then some (near, e) else if isSame far e then some (far, e) else none
  hit.getD (n, 0)

def positional (digits : Nat) (exponent : Int) : Text :=
  let ds := Text.ofNat digits
  if 0 ≤ exponent then
    let zeros : Text := List.replicate exponent.natAbs '0'
    ds ++ zeros
  else
    let places := exponent.natAbs
    let zeros : Text := List.replicate (places + 1 - ds.length) '0'
    let ds := zeros ++ ds
    let fraction := Text.dropTrailing '0' (ds.drop (ds.length - places))
    let whole := ds.take (ds.length - places)
    if fraction.isEmpty then whole else whole ++ "." ++ fraction

def text : Double → Text
  | undefined => "NaN"
  | infinite negative => if negative then "-Inf" else "+Inf"
  | finite negative m q =>
    let body : Text := if m = 0 then "0" else positional (shortest m q).1 (shortest m q).2
    if negative then "-" ++ body else body

/-- The whole part as a number of 64 bits; whatever does not fit is the least of them. -/
def truncated : Double → Int
  | finite negative m q =>
    let (n, d) := scale 2 m 1 q
    let n := n / d
    if n < Text.signedLimit then if negative then -n else n else -Text.signedLimit
  | _ => -Text.signedLimit

end Double
end HeaderBridge
