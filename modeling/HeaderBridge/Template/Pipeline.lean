import HeaderBridge.Template.Literal
import HeaderBridge.Template.Word

namespace HeaderBridge.Template

inductive Operand
  | dot
  | nil
  | bool (b : Bool)
  | number (n : Number)
  | text (t : Text)
  | field (names : List Text)
  | variable (name : Text) (fields : List Text)
  | function (name : Text)
  | group (targets : List Text) (assigns : Bool) (commands : List (List Operand))
  | chain (base : Operand) (fields : List Text)
deriving Repr

structure Pipeline where
  targets : List Text
  assigns : Bool
  commands : List (List Operand)
deriving Repr

def Pipeline.group (p : Pipeline) : Operand := .group p.targets p.assigns p.commands

def skipSpaces (ws : List Word) : List Word := ws.dropWhile (· == .space)

def startsOperand : Word → Bool
  | .dot | .nil | .bool _ | .field _ | .variable _ | .ident _ | .string _ | .raw _ | .char _
  | .number _ | .complex _ _ | .leftParen => true
  | _ => false

def readFields : List Word → List Text × List Word
  | .field name :: ws =>
    let r := readFields ws
    (name :: r.1, r.2)
  | ws => ([], ws)

def addFields (o : Operand) (fields : List Text) : Option Operand :=
  if fields.isEmpty then some o
  else match o with
    | .field names => some (.field (names ++ fields))
    | .variable name more => some (.variable name (more ++ fields))
    | .function _ | .group _ _ _ | .chain _ _ => some (.chain o fields)
    | _ => none

def readSimple (functions : List Text) : Word → Option Operand
  | .dot => some .dot
  | .nil => some .nil
  | .bool b => some (.bool b)
  | .field name => some (.field [name])
  | .variable name => some (.variable name [])
  | .ident name => if functions.contains name then some (.function name) else none
  | .string written => (unquote written).map .text
  | .raw content => some (.text (content.filter (· != ('\r' : Char).toUInt8)))
  | .char written => (charNumber written).map fun n => .number (.int n)
  | .number written => (Number.read? written).map .number
  | .complex re im => (Number.readComplex? re im).map .number
  | _ => none

/-- Variables in front of a pipeline. Only a range may have two, separated by a comma. -/
def readVariables (isRange : Bool) (ws : List Word) : Option (List Text × Bool × List Word) :=
  match skipSpaces ws with
  | .variable a :: rest =>
    match skipSpaces rest with
    | .assign :: rest => some ([a], true, rest)
    | .declare :: rest => some ([a], false, rest)
    | .other ',' :: rest =>
      if !isRange then none
      else match skipSpaces rest with
        | .variable b :: rest =>
          match skipSpaces rest with
          | .assign :: rest => some ([a, b], true, rest)
          | .declare :: rest => some ([a, b], false, rest)
          | .other ',' :: _ => none
          | _ => some ([a], false, .variable b :: rest)
        | _ => none
    | _ => some ([], false, .variable a :: rest)
  | ws => some ([], false, ws)

/-- Commands after the first must be able to take a value: they start with a field, a variable, a
function or a group. -/
def isExecutable : List Operand → Bool
  | .dot :: _ | .nil :: _ | .bool _ :: _ | .number _ :: _ | .text _ :: _ => false
  | _ => true

def isSound (commands : List (List Operand)) : Bool :=
  !commands.isEmpty && commands.tail.all isExecutable

mutual

def readPipeline (functions : List Text) (isRange inParens : Bool) :
    Nat → List Word → Option (Pipeline × List Word)
  | 0, _ => none
  | fuel + 1, ws => do
    let (targets, assigns, ws) ← readVariables isRange ws
    let (commands, rest) ← readCommands functions inParens fuel ws
    if isSound commands then some (⟨targets, assigns, commands⟩, rest) else none

def readCommands (functions : List Text) (inParens : Bool) :
    Nat → List Word → Option (List (List Operand) × List Word)
  | 0, _ => none
  | fuel + 1, ws =>
    match skipSpaces ws with
    | [] => if inParens then none else some ([], [])
    | .rightParen :: ws => if inParens then some ([], ws) else none
    | w :: ws =>
      if !startsOperand w then none
      else do
        let (args, ws) ← readArguments functions fuel (w :: ws)
        if args.isEmpty then none
        else
          let (commands, ws) ← readCommands functions inParens fuel ws
          some (args :: commands, ws)

/-- The operands of one command. A bar behind them is taken along; a closing parenthesis is not. -/
def readArguments (functions : List Text) : Nat → List Word → Option (List Operand × List Word)
  | 0, _ => none
  | fuel + 1, ws => do
    let (operand, ws) ← readOperand functions fuel (skipSpaces ws)
    let here := operand.toList
    match ws with
    | [] => some (here, [])
    | .space :: ws => (readArguments functions fuel ws).map fun r => (here ++ r.1, r.2)
    | .rightParen :: ws => some (here, .rightParen :: ws)
    | .pipe :: ws => some (here, ws)
    | _ => none

def readOperand (functions : List Text) : Nat → List Word → Option (Option Operand × List Word)
  | 0, _ => none
  | fuel + 1, ws =>
    match ws with
    | [] => some (none, [])
    | w :: ws =>
      if !startsOperand w then some (none, w :: ws)
      else do
        let (base, ws) ←
          if w = .leftParen then
            (readPipeline functions false true fuel ws).map fun r => (r.1.group, r.2)
          else (readSimple functions w).map (·, ws)
        let (fields, ws) := readFields ws
        let operand ← addFields base fields
        some (some operand, ws)

end

def pipeline? (functions : List Text) (isRange : Bool) (ws : List Word) : Option Pipeline :=
  match readPipeline functions isRange false (4 * ws.length + 8) ws with
  | some (p, []) => some p
  | _ => none

end HeaderBridge.Template
