import HeaderBridge.Text.Double

namespace HeaderBridge.Template

structure ListType where
  element : Text
  /-- Whether there is no list at all; then it has no items. -/
  absent : Bool := false
deriving Repr, DecidableEq

namespace ListType

def texts : ListType := { element := "string" }

def values : ListType := { element := "interface \x7b\x7d" }

def name (t : ListType) : Text := "[]" ++ t.element

end ListType

inductive Value
  | nil
  | bool (b : Bool)
  | int (n : Int)
  | byte (b : UInt8)
  | real (x : Double)
  | complex (re im : Double)
  | text (t : Text)
  /-- The items of a list, and those that stand behind its end: a part of a list can be widened
  again. -/
  | list (type : ListType) (items spare : List Value)
  | map (entries : List (Text × Value))
  | record (type : Text) (fields : List (Text × Value))
deriving Repr, Inhabited

namespace Value

def entryLe (a b : Text × α) : Bool := Text.le a.1 b.1

def sortEntries (es : List (Text × α)) : List (Text × α) := es.mergeSort entryLe

/-- Whether a condition takes the value for true: all but nil, false, zero and what is empty. -/
def isTrue : Value → Bool
  | nil => false
  | bool b => b
  | int n => n != 0
  | byte b => b != 0
  | real x => !x.isZero
  | complex a b => !(a.isZero && b.isZero)
  | text t => !t.isEmpty
  | list _ vs _ => !vs.isEmpty
  | map es => !es.isEmpty
  | record _ _ => true

def isText : Value → Bool
  | text _ => true
  | _ => false

def ofItems (items : List Value) : Value :=
  list (if items.all isText then .texts else .values) items []

def typeName : Value → Text
  | nil => "<nil>"
  | bool _ => "bool"
  | int _ => "int"
  | byte _ => "uint8"
  | real _ => "float64"
  | complex _ _ => "complex128"
  | text _ => "string"
  | list type _ _ => type.name
  | map _ => "map[string]interface \x7b\x7d"
  | record type _ => type

end Value
end HeaderBridge.Template
