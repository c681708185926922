import HeaderBridge.Datum
import HeaderBridge.Text.Real

namespace HeaderBridge.Datum

/-- The sign and the parts of a decimal: `12`, `1.5`, `.5`, `1.`, each with an exponent or
without. -/
def decimalParts? (t : Text) : Option (Bool × Double.Parts) :=
  let (negative, body) := Text.splitSign t
  (Double.parts? 10 'e' body).map (negative, ·)

def readDouble? (t : Text) : Option Double := do
  let (negative, p) ← decimalParts? t
  p.decimal? negative

def readUnsigned? (t : Text) : Option Int :=
  let (base, ds) := Text.splitBase t
  if ds.isEmpty && base != 8 then none
  else ((Text.digitsValue? base ds).filter (· < Text.wordLimit)).map Int.ofNat

def readMarked? (t : Text) : Option Int :=
  let read (base : Nat) (rest : Text) : Option Int :=
    let (negative, ds) := Text.splitSign rest
    if ds.isEmpty then none else (Text.readDigits negative base ds).toOption
  match Text.after? "0b" t, Text.after? "0o" t with
  | some rest, _ => read 2 rest
  | _, some rest => read 8 rest
  | none, none => none

def takeDigits? (least most : Nat) (t : Text) : Option (Nat × Text) :=
  let ds := (t.take most).takeWhile Text.isDigitByte
  if ds.length < least then none
  else (Text.digitsValue? 10 ds).map (·, t.drop ds.length)

def daysIn (year month : Nat) : Nat :=
  if month = 2 then if year % 4 = 0 && (year % 100 != 0 || year % 400 = 0) then 29 else 28
  else if [4, 6, 9, 11].contains month then 30 else 31

def after? (b : UInt8) : Text → Option Text
  | [] => none
  | a :: rest => if a = b then some rest else none

def dateRest? (t : Text) : Option Text := do
  let (year, t) ← takeDigits? 4 4 t
  let (month, t) ← takeDigits? 1 2 (← after? '-' t)
  let (day, t) ← takeDigits? 1 2 (← after? '-' t)
  if 1 ≤ month && month ≤ 12 && 1 ≤ day && day ≤ daysIn year month then some t else none

/-- The time of day at the front of a text, with or without a fraction of a second. -/
def timeRest? (t : Text) : Option Text := do
  let (hour, t) ← takeDigits? 1 2 t
  let (minute, t) ← takeDigits? 1 2 (← after? ':' t)
  let (second, t) ← takeDigits? 1 2 (← after? ':' t)
  if hour < 24 && minute < 60 && second < 60 then
    match (after? '.' t).or (after? ',' t) with
    | some rest =>
      if rest.head?.any Text.isDigitByte then some (rest.dropWhile Text.isDigitByte) else some t
    | none => some t
  else none

def isZone (t : Text) : Bool :=
  if t == ("Z" : Text) then true
  else
    let shift : Option Bool := do
      let t ← (after? '+' t).or (after? '-' t)
      let (hours, t) ← takeDigits? 2 2 t
      let (minutes, t) ← takeDigits? 2 2 (← after? ':' t)
      return t.isEmpty && hours ≤ 24 && minutes ≤ 60
    shift.getD false

/-- Whether a text is a date. The time of day follows behind a `T` and with a zone, or behind spaces
and without one. -/
def isDate (t : Text) : Bool :=
  match dateRest? t with
  | none => false
  | some [] => true
  | some (mark :: rest) =>
    if mark == ' ' then (timeRest? (rest.dropWhile (· == mark))).any List.isEmpty
    else Text.lowerByte mark == 't' && (timeRest? rest).any isZone

/-- The number that a word spells, in any base, if it is one. Underscores do not count. -/
def ofNumber? (t : Text) : Option Datum :=
  let digits := t.filter (· != ('_' : Char).toUInt8)
  ((Text.readInteger digits).toOption.map int)
    |>.or ((readUnsigned? digits).map int)
    |>.or ((readDouble? digits).map real)
    |>.or ((readMarked? digits).map int)

def words : List (Text × Datum) :=
  [("", null), ("~", null), ("null", null), ("Null", null), ("NULL", null),
   ("true", bool true), ("True", bool true), ("TRUE", bool true),
   ("false", bool false), ("False", bool false), ("FALSE", bool false),
   (".nan", real .undefined), (".NaN", real .undefined), (".NAN", real .undefined),
   (".inf", real (.infinite false)), (".Inf", real (.infinite false)),
   (".INF", real (.infinite false)), ("+.inf", real (.infinite false)),
   ("+.Inf", real (.infinite false)), ("+.INF", real (.infinite false)),
   ("-.inf", real (.infinite true)), ("-.Inf", real (.infinite true)),
   ("-.INF", real (.infinite true))]

def ofPlain (t : Text) : Datum :=
  match words.lookup t, t with
  | some d, _ => d
  | none, [] => null
  | none, a :: _ =>
    if a == '.' then ((Double.read? t).map real).getD (text t)
    else if Text.isDigitByte a || a == '+' || a == '-' then
      if isDate t then date else (ofNumber? t).getD (text t)
    else text t

end HeaderBridge.Datum
