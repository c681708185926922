import HeaderBridge.Template.Function
import HeaderBridge.Template.Node

namespace HeaderBridge.Template

/-- The variables in scope, the latest first. -/
abbrev Variables := List (Text × Value)

namespace Variables

def get? (vars : Variables) (name : Text) : Option Value := vars.lookup name

def set? (name : Text) (v : Value) : Variables → Option Variables
  | [] => none
  | e :: vars => if e.1 == name then some ((name, v) :: vars) else (set? name v vars).map (e :: ·)

def keep (n : Nat) (vars : Variables) : Variables := vars.drop (vars.length - n)

def bind (vars : Variables) (names : List Text) (assigns : Bool) (v : Value) : Option Variables :=
  names.foldlM
    (fun vars name => if assigns then set? name v vars else some ((name, v) :: vars)) vars

end Variables

def Value.field? (v : Value) (name : Text) : Option Value :=
  match v with
  | .map es => es.lookup name
  | .record _ fs => fs.lookup name
  | _ => none

def Value.fields? (v : Value) (names : List Text) : Option Value := names.foldlM Value.field? v

def Number.value? : Number → Option Value
  | .int n => some (.int n)
  | .real x => some (.real x)
  | .complex re im => some (.complex re im)
  | .large => none

mutual

def evalOperand (dot : Value) (vars : Variables) : Operand → Option (Value × Variables)
  | .dot => some (dot, vars)
  | .nil => some (.nil, vars)
  | .bool b => some (.bool b, vars)
  | .number n => n.value?.map (·, vars)
  | .text t => some (.text t, vars)
  | .field names => (dot.fields? names).map (·, vars)
  | .variable name fields => ((vars.get? name).bind (·.fields? fields)).map (·, vars)
  | .function name => (apply name []).map (·, vars)
  | .group names assigns commands => do
    let (v, vars) ← evalCommands dot vars none commands
    return (v, ← vars.bind names assigns v)
  | .chain base fields => do
    let (v, vars) ← evalOperand dot vars base
    return (← v.fields? fields, vars)

def evalArguments (dot : Value) (vars : Variables) : List Operand → Option (List Value × Variables)
  | [] => some ([], vars)
  | o :: os => do
    let (v, vars) ← evalOperand dot vars o
    let (vs, vars) ← evalArguments dot vars os
    return (v :: vs, vars)

/-- The first argument that decides an `or` (a true one) or an `and` (a false one), else the last.
Arguments behind it are not evaluated. -/
def evalConnective (decides : Bool) (dot : Value) (vars : Variables) (last : Option Value) :
    List Operand → Option (Value × Variables)
  | [] => last.map (·, vars)
  | [o] => do
    let (v, vars) ← evalOperand dot vars o
    if v.isTrue = decides then some (v, vars) else some (last.getD v, vars)
  | o :: os => do
    let (v, vars) ← evalOperand dot vars o
    if v.isTrue = decides then some (v, vars) else evalConnective decides dot vars last os

def evalCommand (dot : Value) (vars : Variables) (last : Option Value) : List Operand →
    Option (Value × Variables)
  | [] => none
  | .function name :: os =>
    if name == ("and" : Text) then evalConnective false dot vars last os
    else if name == ("or" : Text) then evalConnective true dot vars last os
    else do
      let (vs, vars) ← evalArguments dot vars os
      return (← apply name (vs ++ last.toList), vars)
  | .nil :: _ => none
  | o :: os => if os.isEmpty && last.isNone then evalOperand dot vars o else none

def evalCommands (dot : Value) (vars : Variables) (last : Option Value) :
    List (List Operand) → Option (Value × Variables)
  | [] => last.map (·, vars)
  | c :: cs => do
    let (v, vars) ← evalCommand dot vars last c
    evalCommands dot vars (some v) cs

end

def evalPipeline (dot : Value) (vars : Variables) (p : Pipeline) : Option (Value × Variables) :=
  evalOperand dot vars p.group

/-- Whether execution goes on after a node, or leaves or continues the loop around it. -/
inductive Flow
  | go
  | leave
  | skip
deriving DecidableEq

structure State where
  vars : Variables
  flow : Flow
  out : Text

inductive Rounds
  | through (pairs : List (Value × Value))
  /-- The numbers from zero up to `n`, which is left out. They have no indices. -/
  | upTo (n : Nat) (element : Nat → Value)

def Rounds.isEmpty : Rounds → Bool
  | through pairs => pairs.isEmpty
  | upTo n _ => n == 0

/-- The rounds of a loop; `none` for what cannot be looped over, or has no indices though they are
wanted. -/
def rounds (indexed : Bool) : Value → Option Rounds
  | .nil => some (.through [])
  | .list _ vs _ => some (.through (vs.mapIdx fun i v => (.int i, v)))
  | .map es => some (.through ((Value.sortEntries es).map fun e => (.text e.1, e.2)))
  | .int n => if indexed then none else some (.upTo n.toNat fun i => .int i)
  | .byte b => if indexed then none else some (.upTo b.toNat fun i => .byte i.toUInt8)
  | _ => none

/-- Sets the variables of a loop for one round: one variable holds the element, two hold index and
element. Declared ones are the latest in scope. -/
def bindRound (p : Pipeline) (vars : Variables) (index element : Value) : Option Variables :=
  match p.targets, p.assigns, vars with
  | [], _, vars => some vars
  | [a], true, vars => vars.set? a element
  | a :: b :: _, true, vars => (vars.set? a index).bind (·.set? b element)
  | [_], false, v :: vars => some ((v.1, element) :: vars)
  | _ :: _ :: _, false, v :: w :: vars => some ((v.1, element) :: (w.1, index) :: vars)
  | _, false, vars => some vars

/-- Runs one round of a loop. Only the variables known before it are left afterwards; the flag says
whether the loop is left. -/
def runRound (p : Pipeline) (body : Value → Variables → Option State) (index element : Value)
    (vars : Variables) : Option (Variables × Bool × Text) := do
  let inside ← bindRound p vars index element
  let s ← body element inside
  return (Variables.keep vars.length s.vars, s.flow = .leave, s.out)

/-- Runs the rounds over the given elements; `done` is what has been written, the last first. -/
def runOver (p : Pipeline) (body : Value → Variables → Option State) :
    List (Value × Value) → Variables → List Text → Option (Variables × List Text)
  | [], vars, done => some (vars, done)
  | (index, element) :: more, vars, done =>
    match runRound p body index element vars with
    | none => none
    | some (vars, true, out) => some (vars, out :: done)
    | some (vars, false, out) => runOver p body more vars (out :: done)

def runUpTo (p : Pipeline) (body : Value → Variables → Option State) (element : Nat → Value) :
    Nat → Nat → Variables → List Text → Option (Variables × List Text)
  | 0, _, vars, done => some (vars, done)
  | count + 1, i, vars, done =>
    match runRound p body .nil (element i) vars with
    | none => none
    | some (vars, true, out) => some (vars, out :: done)
    | some (vars, false, out) => runUpTo p body element count (i + 1) vars (out :: done)

def runRounds (p : Pipeline) (body : Value → Variables → Option State) (rs : Rounds)
    (vars : Variables) : Option (Variables × Text) := do
  let (vars, done) ← match rs with
    | .through pairs => runOver p body pairs vars []
    | .upTo n element => runUpTo p body element n 0 vars []
  return (vars, done.reverse.flatten)

mutual

def runNode (invoke : Text → Value → Option Text) (dot : Value) (vars : Variables) :
    Node → Option State
  | .text t => some ⟨vars, .go, t⟩
  | .action p => do
    let (v, vars) ← evalPipeline dot vars p
    return ⟨vars, .go, if p.targets.isEmpty then v.printed else []⟩
  | .choice p body otherwise => do
    let (v, inside) ← evalPipeline dot vars p
    let s ←
      if v.isTrue then runNodes invoke dot inside body else runNodes invoke dot inside otherwise
    return { s with vars := Variables.keep vars.length s.vars }
  | .focus p body otherwise => do
    let (v, inside) ← evalPipeline dot vars p
    let s ←
      if v.isTrue then runNodes invoke v inside body else runNodes invoke dot inside otherwise
    return { s with vars := Variables.keep vars.length s.vars }
  | .loop p body otherwise => do
    let (v, inside) ← evalPipeline dot vars p
    let rs ← rounds (p.targets.length > 1) v
    if rs.isEmpty then
      let s ← runNodes invoke dot inside otherwise
      return ⟨Variables.keep vars.length s.vars, if s.flow = .leave then .go else s.flow, s.out⟩
    else
      let (after, out) ←
        runRounds p (fun element vars => runNodes invoke element vars body) rs inside
      return ⟨Variables.keep vars.length after, .go, out⟩
  | .call name none => do return ⟨vars, .go, ← invoke name .nil⟩
  | .call name (some p) => do
    let (v, vars) ← evalPipeline dot vars p
    return ⟨vars, .go, ← invoke name v⟩
  | .leave => some ⟨vars, .leave, []⟩
  | .skip => some ⟨vars, .skip, []⟩

def runNodes (invoke : Text → Value → Option Text) (dot : Value) (vars : Variables) :
    List Node → Option State
  | [] => some ⟨vars, .go, []⟩
  | n :: ns => do
    let s ← runNode invoke dot vars n
    if s.flow = .go then
      let r ← runNodes invoke dot s.vars ns
      return { r with out := s.out ++ r.out }
    else return s

end

/-- Templates may call each other this deep. -/
def maxDepth : Nat := 100000

/-- After this many calls inside each other a further one is made on a thread of its own, which has
its own stack. -/
def callsPerThread : Nat := 1000

/-- Executes a named template with `depth` further levels of calls. -/
def invoke (ds : List Definition) : Nat → Text → Value → Option Text
  | 0, _, _ => none
  | depth + 1, name, v => do
    let body ← ds.lookup name
    let run (_ : Unit) : Option Text := (runNodes (invoke ds depth) v [("$", v)] body).map State.out
    if depth % callsPerThread = 1 then (Task.spawn run Task.Priority.dedicated).get else run ()

end HeaderBridge.Template
