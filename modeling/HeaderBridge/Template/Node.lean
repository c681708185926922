import HeaderBridge.Template.Pipeline

namespace HeaderBridge.Template

inductive Node
  | text (t : Text)
  | action (p : Pipeline)
  | choice (p : Pipeline) (body otherwise : List Node)
  | focus (p : Pipeline) (body otherwise : List Node)
  | loop (p : Pipeline) (body otherwise : List Node)
  | call (name : Text) (argument : Option Pipeline)
  | leave
  | skip
deriving Repr

/-- A piece with its control word understood. -/
inductive Item
  | text (t : Text)
  | action (p : Pipeline)
  | choice (p : Pipeline)
  | focus (p : Pipeline)
  | loop (p : Pipeline)
  | otherwise
  | otherwiseChoice (p : Pipeline)
  | otherwiseFocus (p : Pipeline)
  | close
  | define (name : Text)
  | block (name : Text) (p : Pipeline)
  | call (name : Text) (argument : Option Pipeline)
  | leave
  | skip

def readTemplateName (ws : List Word) : Option (Text × List Word) :=
  match skipSpaces ws with
  | .string written :: ws => (unquote written).map (·, ws)
  | .raw content :: ws => some (content.filter (· != ('\r' : Char).toUInt8), ws)
  | _ => none

def alone (item : Item) (ws : List Word) : Option Item :=
  if (skipSpaces ws).isEmpty then some item else none

def Item.ofWords (functions : List Text) (ws : List Word) : Option Item :=
  match skipSpaces ws with
  | .keyword .block :: ws => do
    let (name, ws) ← readTemplateName ws
    return .block name (← pipeline? functions false ws)
  | .keyword .break :: ws => alone .leave ws
  | .keyword .continue :: ws => alone .skip ws
  | .keyword .define :: ws => do
    let (name, ws) ← readTemplateName ws
    alone (.define name) ws
  | .keyword .else :: ws =>
    match skipSpaces ws with
    | .keyword .if :: ws => (pipeline? functions false ws).map .otherwiseChoice
    | .keyword .with :: ws => (pipeline? functions false ws).map .otherwiseFocus
    | ws => alone .otherwise ws
  | .keyword .end :: ws => alone .close ws
  | .keyword .if :: ws => (pipeline? functions false ws).map .choice
  | .keyword .range :: ws => (pipeline? functions true ws).map .loop
  | .keyword .template :: ws => do
    let (name, ws) ← readTemplateName ws
    if (skipSpaces ws).isEmpty then return .call name none
    else return .call name (some (← pipeline? functions false ws))
  | .keyword .with :: ws => (pipeline? functions false ws).map .focus
  | ws => (pipeline? functions false ws).map .action

def Item.ofPiece (functions : List Text) : Piece → Option Item
  | .text t => some (.text t)
  | .action ws => Item.ofWords functions ws

abbrev Definition := Text × List Node

def isBlankNode : Node → Bool
  | .text t => (Text.trim t).isEmpty
  | _ => false

def isBlankTree (ns : List Node) : Bool := ns.all isBlankNode

/-- Adds a definition. A blank one gives way to another of the same name; two that are not blank
contradict each other. -/
def define (name : Text) (body : List Node) (ds : List Definition) : Option (List Definition) :=
  match ds.lookup name with
  | none => some (ds ++ [(name, body)])
  | some old =>
    if isBlankTree old then some (ds.map fun d => if d.1 == name then (name, body) else d)
    else if isBlankTree body then some ds
    else none

inductive Ending
  | all
  | close
  | otherwise
  | otherwiseChoice (p : Pipeline)
  | otherwiseFocus (p : Pipeline)

inductive Control
  | choice
  | focus
  | loop
deriving Repr, DecidableEq

structure Reading where
  nodes : List Node
  ending : Ending
  definitions : List Definition
  rest : List Item

def Reading.push (n : Node) (r : Reading) : Reading := { r with nodes := n :: r.nodes }

mutual

/-- Reads nodes up to a closing or alternative item. Definitions are allowed at the top only. -/
def readNodes (top : Bool) (ds : List Definition) : Nat → List Item → Option Reading
  | 0, _ => none
  | fuel + 1, items =>
    match items with
    | [] => some ⟨[], .all, ds, []⟩
    | .close :: rest => some ⟨[], .close, ds, rest⟩
    | .otherwise :: rest => some ⟨[], .otherwise, ds, rest⟩
    | .otherwiseChoice p :: rest => some ⟨[], .otherwiseChoice p, ds, rest⟩
    | .otherwiseFocus p :: rest => some ⟨[], .otherwiseFocus p, ds, rest⟩
    | .text t :: rest => (readNodes top ds fuel rest).map (·.push (.text t))
    | .action p :: rest => (readNodes top ds fuel rest).map (·.push (.action p))
    | .call name p :: rest => (readNodes top ds fuel rest).map (·.push (.call name p))
    | .leave :: rest => (readNodes top ds fuel rest).map (·.push .leave)
    | .skip :: rest => (readNodes top ds fuel rest).map (·.push .skip)
    | .choice p :: rest => do
      let (body, otherwise, ds, rest) ← readControl .choice ds fuel rest
      (readNodes top ds fuel rest).map (·.push (.choice p body otherwise))
    | .focus p :: rest => do
      let (body, otherwise, ds, rest) ← readControl .focus ds fuel rest
      (readNodes top ds fuel rest).map (·.push (.focus p body otherwise))
    | .loop p :: rest => do
      let (body, otherwise, ds, rest) ← readControl .loop ds fuel rest
      (readNodes top ds fuel rest).map (·.push (.loop p body otherwise))
    | .define name :: rest =>
      if !top then none
      else do
        let (body, ds, rest) ← readBody ds fuel rest
        readNodes top (← define name body ds) fuel rest
    | .block name p :: rest => do
      let (body, ds, rest) ← readBody ds fuel rest
      (readNodes top (← define name body ds) fuel rest).map (·.push (.call name (some p)))

def readBody (ds : List Definition) :
    Nat → List Item → Option (List Node × List Definition × List Item)
  | 0, _ => none
  | fuel + 1, items => do
    let r ← readNodes false ds fuel items
    match r.ending with
    | .close => some (r.nodes, r.definitions, r.rest)
    | _ => none

/-- Reads the two branches of a control item. Behind `else` a choice may go on with a choice, and a
focus with a focus. -/
def readControl (control : Control) (ds : List Definition) :
    Nat → List Item → Option (List Node × List Node × List Definition × List Item)
  | 0, _ => none
  | fuel + 1, items => do
    let r ← readNodes false ds fuel items
    match r.ending with
    | .close => some (r.nodes, [], r.definitions, r.rest)
    | .otherwise =>
      let (otherwise, ds, rest) ← readBody r.definitions fuel r.rest
      some (r.nodes, otherwise, ds, rest)
    | .otherwiseChoice p =>
      if control ≠ .choice then none
      else
        let (body, otherwise, ds, rest) ← readControl .choice r.definitions fuel r.rest
        some (r.nodes, [.choice p body otherwise], ds, rest)
    | .otherwiseFocus p =>
      if control ≠ .focus then none
      else
        let (body, otherwise, ds, rest) ← readControl .focus r.definitions fuel r.rest
        some (r.nodes, [.focus p body otherwise], ds, rest)
    | .all => none

end

-- Scopes of variables: each function gives the variables known afterwards.

mutual

def scopeOperand (known : List Text) : Operand → Option (List Text)
  | .variable name _ => if known.contains name then some known else none
  | .group targets _ commands => scopeCommands (known ++ targets) commands
  | .chain base _ => scopeOperand known base
  | _ => some known

def scopeArguments (known : List Text) : List Operand → Option (List Text)
  | [] => some known
  | o :: os => (scopeOperand known o).bind fun known => scopeArguments known os

def scopeCommands (known : List Text) : List (List Operand) → Option (List Text)
  | [] => some known
  | c :: cs => (scopeArguments known c).bind fun known => scopeCommands known cs

end

def scopePipeline (known : List Text) (p : Pipeline) : Option (List Text) :=
  scopeCommands (known ++ p.targets) p.commands

mutual

def scopeNode (inLoop : Bool) (known : List Text) : Node → Option (List Text)
  | .text _ => some known
  | .action p => scopePipeline known p
  | .choice p body otherwise | .focus p body otherwise => do
    let inside ← scopePipeline known p
    let inside ← scopeNodes inLoop inside body
    let _ ← scopeNodes inLoop inside otherwise
    return known
  | .loop p body otherwise => do
    let inside ← scopePipeline known p
    let inside ← scopeNodes true inside body
    let _ ← scopeNodes inLoop inside otherwise
    return known
  | .call _ none => some known
  | .call _ (some p) => scopePipeline known p
  | .leave | .skip => if inLoop then some known else none

def scopeNodes (inLoop : Bool) (known : List Text) : List Node → Option (List Text)
  | [] => some known
  | n :: ns => (scopeNode inLoop known n).bind fun known => scopeNodes inLoop known ns

end

/-- Reads the template of the given name. The result holds it and all that it defines. -/
def parse (functions : List Text) (name template : Text) : Option (List Definition) := do
  let ps ← pieces template
  let items ← ps.mapM (Item.ofPiece functions)
  let r ← readNodes true [] (3 * items.length + 3) items
  match r.ending with
  | .all =>
    let ds ← define name r.nodes r.definitions
    if ds.all fun d => (scopeNodes false ["$"] d.2).isSome then some ds else none
  | _ => none

end HeaderBridge.Template
