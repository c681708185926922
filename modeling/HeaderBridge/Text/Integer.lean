import HeaderBridge.Text

namespace HeaderBridge.Text

inductive IntegerFailure
  | malformed
  | outOfRange
deriving Repr, DecidableEq

def lowerByte (b : UInt8) : UInt8 := if 'A' ≤ b && b ≤ 'Z' then b + 32 else b

def digitValue? (base : Nat) (b : UInt8) : Option Nat :=
  let c := lowerByte b
  let v := if isDigitByte c then some (c.toNat - 48)
    else if isLetterByte c then some (c.toNat - 87)
    else none
  v.filter (· < base)

def digitsValue? (base : Nat) (ds : Text) : Option Nat :=
  ds.foldl (fun n d => n.bind fun n => (digitValue? base d).map (n * base + ·)) (some 0)

def splitSign : Text → Bool × Text
  | a :: rest =>
    if a == '-' then (true, rest) else if a == '+' then (false, rest) else (false, a :: rest)
  | [] => (false, [])

def splitBase : Text → Nat × Text
  | a :: b :: c :: rest =>
    if a == '0' then
      if lowerByte b == 'b' then (2, c :: rest)
      else if lowerByte b == 'o' then (8, c :: rest)
      else if lowerByte b == 'x' then (16, c :: rest)
      else (8, b :: c :: rest)
    else (10, a :: b :: c :: rest)
  | a :: rest => if a == '0' then (8, rest) else (10, a :: rest)
  | [] => (10, [])

/-- Whether each underscore stands between two digits; `digit` says whether the byte before is
one. -/
def underscoresFit (digit : Bool) : Text → Bool
  | [] => true
  | a :: rest =>
    if a == '_' then digit && rest.head? != some '_' && !rest.isEmpty && underscoresFit false rest
    else underscoresFit true rest

def wordLimit : Nat := 0x10000000000000000

/-- The numbers of 64 bits with a sign are below this, and not below its negative. -/
def signedLimit : Nat := 0x8000000000000000

def signedInRange (negative : Bool) (n : Nat) : Except IntegerFailure Int :=
  if negative then if n ≤ signedLimit then .ok (-n) else .error .outOfRange
  else if n < signedLimit then .ok n else .error .outOfRange

def readDigits (negative : Bool) (base : Nat) (ds : Text) : Except IntegerFailure Int :=
  match digitsValue? base ds with
  | some n => signedInRange negative n
  | none => .error .malformed

def readInteger (t : Text) : Except IntegerFailure Int :=
  let (negative, body) := splitSign t
  if body.isEmpty then .error .malformed
  else
    let (base, ds) := splitBase body
    if ds.contains '_' && !underscoresFit (base != 10) ds then .error .malformed
    else readDigits negative base (ds.filter (· != ('_' : Char).toUInt8))

def readDecimal (t : Text) : Except IntegerFailure Int :=
  let (negative, body) := splitSign t
  if body.isEmpty then .error .malformed else readDigits negative 10 body

end HeaderBridge.Text
