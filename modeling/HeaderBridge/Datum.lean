import HeaderBridge.Text.Double

namespace HeaderBridge

inductive Datum
  | null
  | bool (b : Bool)
  | int (n : Int)
  | real (x : Double)
  | date
  | text (t : Text)
  | list (items : List Datum)
  | record (fields : List (Text × Datum))
deriving Repr

namespace Datum

def toText? : Datum → Option Text
  | text t => some t
  | bool b => some (if b then "1" else "0")
  | int n => some (Text.ofInt n)
  | real x => some x.text
  | null | date | list _ | record _ => none

/-- A number beyond 63 bits goes around, one with a fraction is cut off, and an empty text is
zero. -/
def toInt? : Datum → Option Int
  | int n => some (Int.bmod n Text.wordLimit)
  | real x => some x.truncated
  | bool b => some (if b then 1 else 0)
  | text t => if t.isEmpty then some 0 else (Text.readInteger t).toOption
  | null | date | list _ | record _ => none

def toItem? : Datum → Option Text
  | null => some []
  | d => d.toText?

/-- A text is cut at its commas, an empty record is an empty list, and any other single value is a
list of one. -/
def toTexts? : Datum → Option (List Text)
  | list items => items.mapM toItem?
  | text t => some (if t.isEmpty then [] else Text.splitAt ',' t)
  | record [] => some []
  | d => d.toText?.map ([·])

def field? (fold : Text → Text) (name : Text) : List (Text × Datum) → Option Datum
  | [] => none
  | (key, d) :: rest =>
    if fold key == name then
      match d with
      | null => none
      | d => some d
    else field? fold name rest

end Datum
end HeaderBridge
