import HeaderBridge.Text

namespace HeaderBridge

inductive Code
  | unknown
  | invalidStart
  | unbalanced
  | noInterface
  | noPureVirtual
  | unforwardable
  | generation
  | template
  | fileSystem
  | configuration
deriving Repr, DecidableEq

namespace Code

def all : List Code :=
  [unknown, invalidStart, unbalanced, noInterface, noPureVirtual, unforwardable,
    generation, template, fileSystem, configuration]

def name : Code → Text
  | unknown => "UnknownError"
  | invalidStart => "InvalidStart"
  | unbalanced => "UnbalancedDelimiters"
  | noInterface => "NoInterfaceFound"
  | noPureVirtual => "NoPureVirtualMethods"
  | unforwardable => "UnforwardableParameter"
  | generation => "GenerationError"
  | template => "TemplateError"
  | fileSystem => "FileSystemError"
  | configuration => "ConfigurationError"

end Code

/-- A place in a header. An empty file, a line 0 and a column 0 are unknown. -/
structure Location where
  file : Text := []
  line : Int := 0
  column : Int := 0
deriving Repr, DecidableEq

namespace Location

def isEmpty (l : Location) : Bool := l.file.isEmpty && l.line == 0

def text (l : Location) : Text :=
  if l.isEmpty then "unknown location"
  else
    let file : Text := l.file.orElse "<input>"
    if l.line = 0 then file
    else if l.column = 0 then file ++ ":" ++ Text.ofInt l.line
    else file ++ ":" ++ Text.ofInt l.line ++ ":" ++ Text.ofInt l.column

end Location

inductive Detail
  | int (n : Int)
  | flag (b : Bool)
  | text (t : Text)
  | texts (ts : List Text)
deriving Repr, DecidableEq

def Detail.render : Detail → Text
  | int n => Text.ofInt n
  | flag b => if b then "true" else "false"
  | text t => t
  | texts ts => "[" ++ Text.join " " ts ++ "]"

/-- What a coded fault says, its cause apart. -/
structure Notice where
  code : Code
  message : Text
  location : Location := {}
  context : List (Text × Detail) := []
  hints : List Text := []
deriving Repr, DecidableEq

namespace Notice

def placed (n : Notice) (l : Location) : Notice := { n with location := l }

def inFile (n : Notice) (file : Text) : Notice :=
  { n with location := { n.location with file := file } }

def note (n : Notice) (key : Text) (value : Detail) : Notice :=
  { n with context := n.context.filter (·.1 != key) ++ [(key, value)] }

def hint (n : Notice) (h : Text) : Notice := { n with hints := n.hints ++ [h] }

def detail? (n : Notice) (key : Text) : Option Detail := n.context.lookup key

end Notice

structure Refusal where
  field : Text
  value : Detail
  problem : Text
deriving Repr, DecidableEq

def Refusal.message (r : Refusal) : Text :=
  if r.field.isEmpty then "validation error: " ++ r.problem
  else "validation error for field '" ++ r.field ++ "': " ++ r.problem

inductive Fault
  | coded (notice : Notice) (cause : Option Fault)
  | plain (message : Text) (cause : Option Fault)
  | refused (refusal : Refusal)
  /-- A fault passed on as it is: it tells what its cause tells. -/
  | relayed (cause : Fault)
  | many (faults : List Fault)
deriving Repr

namespace Fault

/-- A text followed by the text of the cause, if there is one. -/
def chain (message : Text) : Option Text → Text
  | none => message
  | some cause => message ++ ": " ++ cause

/-- The texts of collected faults as one: none is said to be none, one stands alone, several are
numbered. -/
def collected : List Text → Text
  | [] => "no errors"
  | [t] => t
  | ts => "multiple errors (" ++ Text.ofNat ts.length ++ " total):\n" ++
      Text.join "\n" (ts.mapIdx fun i t => "  " ++ Text.ofNat (i + 1) ++ ". " ++ t)

mutual

def message : Fault → Text
  | coded n cause =>
    let told := chain n.message (causeMessage cause)
    if n.location.isEmpty then told else n.location.text ++ ": " ++ told
  | plain m cause => chain m (causeMessage cause)
  | refused r => r.message
  | relayed f => message f
  | many fs => collected (messages fs)

def causeMessage : Option Fault → Option Text
  | none => none
  | some f => some (message f)

def messages : List Fault → List Text
  | [] => []
  | f :: fs => message f :: messages fs

end

mutual

def hasCode (code : Code) : Fault → Bool
  | coded n cause => n.code == code || causeHasCode code cause
  | plain _ cause => causeHasCode code cause
  | refused _ => false
  | relayed f => hasCode code f
  | many fs => someHasCode code fs

def causeHasCode (code : Code) : Option Fault → Bool
  | none => false
  | some f => hasCode code f

def someHasCode (code : Code) : List Fault → Bool
  | [] => false
  | f :: fs => hasCode code f || someHasCode code fs

end

def cause? : Fault → Option Fault
  | coded _ cause => cause
  | plain _ cause => cause
  | relayed f => some f
  | _ => none

mutual

def code : Fault → Code
  | coded n _ => n.code
  | plain _ cause => causeCode cause
  | relayed f => code f
  | _ => .unknown

def causeCode : Option Fault → Code
  | none => .unknown
  | some f => code f

end

mutual

def firstCoded : Fault → Option (Notice × Option Fault)
  | coded n cause => some (n, cause)
  | plain _ cause => causeFirstCoded cause
  | refused _ => none
  | relayed f => firstCoded f
  | many fs => listFirstCoded fs

def causeFirstCoded : Option Fault → Option (Notice × Option Fault)
  | none => none
  | some f => firstCoded f

def listFirstCoded : List Fault → Option (Notice × Option Fault)
  | [] => none
  | f :: fs => (firstCoded f).or (listFirstCoded fs)

end

mutual

def firstMany : Fault → Option (List Fault)
  | coded _ cause => causeFirstMany cause
  | plain _ cause => causeFirstMany cause
  | refused _ => none
  | relayed f => firstMany f
  | many fs => some fs

def causeFirstMany : Option Fault → Option (List Fault)
  | none => none
  | some f => firstMany f

end

mutual

def causes : Fault → List Fault
  | coded n cause => coded n cause :: causeCauses cause
  | plain m cause => plain m cause :: causeCauses cause
  | relayed f => relayed f :: causes f
  | f => [f]

def causeCauses : Option Fault → List Fault
  | none => []
  | some f => causes f

end

def inFile (f : Fault) (file : Text) : Fault :=
  match f with
  | coded n cause => if file.isEmpty then f else coded (n.inFile file) cause
  | f => f

/-- Nothing for no faults, else their collection. -/
def gather : List Fault → Option Fault
  | [] => none
  | fs => some (many fs)

end Fault
end HeaderBridge
