import HeaderBridge.Fault
import HeaderBridge.Glob
import HeaderBridge.Regex.Pattern

namespace HeaderBridge

/-- What a check has against a value, if anything. -/
abbrev Check (α : Type) := α → Option Refusal

namespace Check

def test (field problem : Text) (detail : α → Detail) (passes : α → Bool) : Check α :=
  fun a => if passes a then none else some ⟨field, detail a, problem⟩

def all (checks : List (Check α)) : Check α := fun a => checks.findSome? (· a)

def when (condition : α → Bool) (check : Check α) : Check α :=
  fun a => if condition a then check a else none

def notEmpty (field : Text) : Check Text := test field "cannot be empty" .text (!·.isEmpty)

def startsWith (field start : Text) : Check Text :=
  test field ("must start with '" ++ start ++ "'") .text start.isPrefixOf

/-- A pattern that cannot be read matches nothing. -/
def matchesPattern (field pattern description : Text) : Check Text :=
  test field ("must be " ++ description) .text fun t => (Regex.parse? pattern).any (·.matches? t)

def isIdentifier : Text → Bool
  | [] => false
  | a :: rest => Text.isNameStart a && rest.all Text.isNameByte

def identifier (field : Text) : Check Text :=
  all [notEmpty field, test field "must be a valid C++ identifier" .text isIdentifier]

def oneOf [BEq α] (field : Text) (detail : α → Detail) (allowed : List α) : Check α :=
  test field ("must be one of: [" ++ Text.join " " (allowed.map fun a => (detail a).render) ++
    "]") detail allowed.contains

def oneOfTexts (field : Text) (allowed : List Text) : Check Text := oneOf field .text allowed

def oneOfInts (field : Text) (allowed : List Int) : Check Int := oneOf field .int allowed

def maxLength (field : Text) (most : Int) : Check Text :=
  test field ("must be at most " ++ Text.ofInt most ++ " characters long") .text
    fun t => t.length ≤ most

def atLeast (field : Text) (least : Int) : Check Int :=
  test field ("must be at least " ++ Text.ofInt least) .int (least ≤ ·)

def listNotEmpty (field : Text) : Check (List Text) :=
  test field "cannot be empty" .texts (!·.isEmpty)

def each (field : Text) (check : Check Text) : Check (List Text) := fun items =>
  (items.mapIdx fun i t => (check t).map fun r =>
    Refusal.mk (field ++ "[" ++ Text.ofNat i ++ "]") (.text t) r.problem).findSome? id

def isExtensionByte (b : UInt8) : Bool := Text.isNameByte b || b == '+' || b == '.' || b == '-'

def isExtension : Text → Bool
  | [] => false
  | a :: rest => a == '.' && !rest.isEmpty && rest.all isExtensionByte

def extension (field : Text) : Check Text :=
  all [notEmpty field, startsWith field ".",
    test field "must be a file extension like .h or .cpp" .text isExtension]

def glob (field : Text) : Check Text :=
  test field "must be a valid glob pattern" .text fun t => !t.isEmpty && Glob.isSound t

end Check
end HeaderBridge
