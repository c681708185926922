import HeaderBridge.Fault.Kinds

namespace HeaderBridge

inductive ScanFailure
  /-- No opener stands at `index`; `found` is the byte there, if the index is inside the text. -/
  | invalidStart (index : Int) (found : Option UInt8)
  /-- The scope opened at `offset` is still open at the end; `region` is the text from there on. -/
  | unbalanced (offset : Nat) (region : Text)
deriving Repr, DecidableEq

def ScanFailure.notice : ScanFailure → Notice
  | invalidStart index found =>
    .invalidStart index (match found with
      | some b => Text.ofChar (Char.ofNat b.toNat)
      | none => [])
  | unbalanced offset region => .unbalanced offset region

/-- The number of bytes up to and including the one that closes `depth + 1` open scopes. -/
def closerLength (opener closer : UInt8) : Nat → Text → Option Nat
  | _, [] => none
  | depth, a :: rest =>
    if a == opener then (closerLength opener closer (depth + 1) rest).map (· + 1)
    else if a == closer then
      match depth with
      | 0 => some 1
      | depth + 1 => (closerLength opener closer depth rest).map (· + 1)
    else (closerLength opener closer depth rest).map (· + 1)

/-- What lies between the opener at `index` and its matching closer. -/
structure Scope where
  inner : Text
  stop : Nat
deriving Repr, DecidableEq

def scanFrom (opener closer : UInt8) (text : Text) (index : Nat) : Except ScanFailure Scope :=
  match text.drop index with
  | [] => .error (.invalidStart index none)
  | a :: rest =>
    if a != opener then .error (.invalidStart index (some a))
    else match closerLength opener closer 0 rest with
      | none => .error (.unbalanced index (a :: rest))
      | some n => .ok ⟨rest.take (n - 1), index + 1 + n⟩

/-- Scans for arbitrary delimiters; a negative index is outside the text. -/
def scanDelimited (opener closer : UInt8) (text : Text) : Int → Except ScanFailure Scope
  | .ofNat index => scanFrom opener closer text index
  | .negSucc n => .error (.invalidStart (.negSucc n) none)

def scanBlock (text : Text) (index : Nat) : Except ScanFailure Scope := scanFrom '{' '}' text index

end HeaderBridge
