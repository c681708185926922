import HeaderBridge.Text.Double

namespace HeaderBridge.Double

/-- The parts of a number: what stands before the point, behind it, and in the exponent. -/
structure Parts where
  whole : Text
  fraction : Text
  /-- The exponent with its sign; none if there is no mark for one. -/
  exponent : Option Text

def isDigitOf (base : Nat) (b : UInt8) : Bool := (Text.digitValue? base b).isSome

def parts? (base : Nat) (mark : UInt8) (t : Text) : Option Parts :=
  let whole := t.takeWhile (isDigitOf base)
  let rest := t.drop whole.length
  let pointed := rest.head? == some '.'
  let fraction := if pointed then rest.tail.takeWhile (isDigitOf base) else []
  let rest := if pointed then rest.tail.drop fraction.length else rest
  if whole.isEmpty && fraction.isEmpty then none
  else match rest with
    | [] => some ⟨whole, fraction, none⟩
    | e :: power =>
      let digits := (Text.splitSign power).2
      if Text.lowerByte e == mark && !digits.isEmpty && digits.all Text.isDigitByte then
        some ⟨whole, fraction, some power⟩
      else none

def exponentValue (t : Text) : Int :=
  let (down, ds) := Text.splitSign t
  let n := (Text.digitsValue? 10 ds).getD 0
  if down then -n else n

/-- The double nearest to `n * 2 ^ exponent`; none if that is beyond all doubles. -/
def ofBinary? (negative : Bool) (n : Nat) (exponent : Int) : Option Double :=
  if n = 0 || exponent < -100000 then some (finite negative 0 leastExponent)
  else if exponent > 100000 then none
  else
    let (a, b) := scale 2 n 1 exponent
    let (m, q) := nearest a b
    if q > 971 then none else some (finite negative m q)

def Parts.decimal? (p : Parts) (negative : Bool) : Option Double := do
  let digits ← Text.digitsValue? 10 (p.whole ++ p.fraction)
  ofDecimal? negative digits (((p.exponent.map exponentValue).getD 0) - p.fraction.length)

def Parts.binary? (p : Parts) (negative : Bool) : Option Double := do
  let digits ← Text.digitsValue? 16 (p.whole ++ p.fraction)
  ofBinary? negative digits (exponentValue (← p.exponent) - 4 * p.fraction.length)

/-- Whether each underscore stands between two digits, or between a base mark and a digit; `digit`
says whether a digit or the mark stands before. -/
def underscoresFit (base : Nat) : Bool → Text → Bool
  | _, [] => true
  | digit, a :: rest =>
    if a == '_' then digit && rest.head?.any (isDigitOf base) && underscoresFit base false rest
    else underscoresFit base (isDigitOf base a) rest

/-- The double that is nearest to a written number; none if it is no number or beyond all
doubles. -/
def read? (t : Text) : Option Double :=
  let (negative, body) := Text.splitSign t
  let plain (t : Text) : Text := t.filter (· != ('_' : Char).toUInt8)
  match Text.after? "0x" (body.map Text.lowerByte) with
  | some ds =>
    if underscoresFit 16 true ds then (parts? 16 'p' (plain ds)).bind (·.binary? negative) else none
  | none =>
    if underscoresFit 10 false body then (parts? 10 'e' (plain body)).bind (·.decimal? negative)
    else none

end HeaderBridge.Double
