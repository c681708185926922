import HeaderBridge.Text.Quoted
import HeaderBridge.Text.Integer

namespace HeaderBridge.Duration

def millisecond : Int := 1000000

def second : Int := 1000 * millisecond

/-- Digits behind a point, without zeros at the end and without the point if none are left. -/
def fraction (places n : Nat) : Text :=
  let digits := Text.ofNat n
  let zeros : Text := List.replicate (places - digits.length) '0'
  let digits := Text.dropTrailing '0' (zeros ++ digits)
  if digits.isEmpty then [] else "." ++ digits

/-- A time of `n` nanoseconds: in the largest unit below a second that fits, or in hours, minutes
and seconds. -/
def magnitudeText (n : Nat) : Text :=
  if n = 0 then "0s"
  else if n < 1000 then Text.ofNat n ++ "ns"
  else if n < 1000000 then Text.ofNat (n / 1000) ++ fraction 3 (n % 1000) ++ Text.ofString "µs"
  else if n < 1000000000 then Text.ofNat (n / 1000000) ++ fraction 6 (n % 1000000) ++ "ms"
  else
    let seconds := n / 1000000000
    let minutes := seconds / 60
    let hours := minutes / 60
    let hoursText : Text := if hours = 0 then [] else Text.ofNat hours ++ "h"
    let minutesText : Text := if minutes = 0 then [] else Text.ofNat (minutes % 60) ++ "m"
    hoursText ++ minutesText ++ Text.ofNat (seconds % 60) ++ fraction 9 (n % 1000000000) ++ "s"

def text (n : Int) : Text := if n < 0 then "-" ++ magnitudeText n.natAbs else magnitudeText n.natAbs

/-- The nearest multiple of a millisecond; a half goes away from zero. -/
def round (n : Int) : Int :=
  let half := millisecond / 2
  if n < 0 then -((-n + half) / millisecond * millisecond)
  else (n + half) / millisecond * millisecond

def units : List (Text × Nat) :=
  [("ns", 1), ("us", 1000), (Text.ofString "µs", 1000), (Text.ofString "μs", 1000), ("ms", 1000000),
    ("s", 1000000000), ("m", 60000000000), ("h", 3600000000000)]

inductive Problem
  | malformed
  | missingUnit
  | unknownUnit (unit : Text)
deriving Repr, DecidableEq

def Problem.text (written : Text) : Problem → Text
  | malformed => "time: invalid duration " ++ Text.quoted written
  | missingUnit => "time: missing unit in duration " ++ Text.quoted written
  | unknownUnit u =>
    "time: unknown unit " ++ Text.quoted u ++ " in duration " ++ Text.quoted written

def isUnitByte (b : UInt8) : Bool := b != '.' && !Text.isDigitByte b

def value (digits : Text) : Nat := digits.foldl (fun n d => n * 10 + (d.toNat - 48)) 0

def limit : Nat := Text.signedLimit

def readParts : Nat → Nat → Text → Except Problem Nat
  | 0, _, _ => .error .malformed
  | _ + 1, total, [] => .ok total
  | fuel + 1, total, t =>
    let whole := t.takeWhile Text.isDigitByte
    let rest := t.dropWhile Text.isDigitByte
    let pointed := rest.head? == some '.'
    let part := if pointed then rest.tail.takeWhile Text.isDigitByte else []
    let rest := if pointed then rest.tail.dropWhile Text.isDigitByte else rest
    if whole.isEmpty && part.isEmpty then .error .malformed
    else if value whole > limit then .error .malformed
    else
      let unit := rest.takeWhile isUnitByte
      let rest := rest.dropWhile isUnitByte
      if unit.isEmpty then .error .missingUnit
      else match units.lookup unit with
        | none => .error (.unknownUnit unit)
        | some size =>
          let total := total + value whole * size + value part * size / Nat.pow 10 part.length
          if total > limit then .error .malformed else readParts fuel total rest

def read (t : Text) : Except Problem Int :=
  let negative := t.head? == some '-'
  let body := if negative || t.head? == some '+' then t.tail else t
  if body == ("0" : Text) then .ok 0
  else if body.isEmpty then .error .malformed
  else do
    let n ← readParts (body.length + 1) 0 body
    if negative then return -n
    else if n = limit then .error .malformed
    else return n

end HeaderBridge.Duration
