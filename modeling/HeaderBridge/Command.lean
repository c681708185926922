import HeaderBridge.Clean
import HeaderBridge.Config.Load
import HeaderBridge.Text.Distance
import HeaderBridge.Watch

namespace HeaderBridge

inductive Command
  | generate
  | inspect
  | templates
  | clean
  | watch
  | help
  | completion
deriving Repr, DecidableEq

namespace Command

def program : Text := "bridgegen"

def all : List Command := [generate, inspect, templates, clean, watch, help, completion]

def name : Command → Text
  | generate => "generate"
  | inspect => "inspect"
  | templates => "templates"
  | clean => "clean"
  | watch => "watch"
  | help => "help"
  | completion => "completion"

def commonFlags : List Flag :=
  [⟨"config", none, .text⟩, ⟨"quiet", some 'q', .switch⟩, ⟨"verbose", some 'v', .switch⟩,
   ⟨"debug", none, .switch⟩, ⟨"no-color", none, .switch⟩] ++ Config.flags.map Prod.snd

def helpFlag : Flag := ⟨"help", some 'h', .switch⟩

def ownFlags : Command → List Flag
  | generate => [⟨"dry-run", none, .switch⟩]
  | watch => [⟨"debounce", none, .duration⟩]
  | _ => []

/-- Whether an argument looks like a flag whose value is the next argument. Flags that are not known
count as such. -/
def takesNext (flags : List Flag) (arg : Text) : Bool :=
  let isSwitch (p : Flag → Bool) : Bool := (flags.find? p).any (·.kind == .switch)
  !arg.contains '=' &&
    match arg with
    | [dash, letter] => dash == '-' && !isSwitch fun f => f.letter == some letter
    | a :: b :: name => a == '-' && b == '-' && !isSwitch fun f => f.name == name
    | _ => false

/-- The arguments that are neither flags nor values of flags. A flag that takes all that is left
ends them. -/
def words (flags : List Flag) : List Text → List Text
  | [] => []
  | arg :: rest =>
    if arg == ("--" : Text) then []
    else if takesNext flags arg then
      match rest with
      | _ :: next :: more => words flags (next :: more)
      | _ => []
    else if arg.isEmpty || arg.head? == some '-' then words flags rest
    else arg :: words flags rest

def without (flags : List Flag) (word : Text) : List Text → List Text
  | [] => []
  | arg :: rest =>
    if arg == ("--" : Text) then arg :: rest
    else if takesNext flags arg then
      match rest with
      | [] => [arg]
      | value :: more => arg :: value :: without flags word more
    else if arg == word then rest
    else arg :: without flags word rest

/-- The names that a mistyped one may stand for: those that differ little from it or start with it,
case apart. -/
def suggestions (typed : Text) : List Text :=
  let typed := Text.lower typed
  ((all.filter (· != help)).map name).filter fun n =>
    Text.distance typed n ≤ 2 || typed.isPrefixOf n

def suggestionLine (name : Text) : Text := "\t" ++ name ++ "\n"

def unknownCommand (typed : Text) : Text :=
  let names := suggestions typed
  let hint : Text :=
    if names.isEmpty then [] else "\n\nDid you mean this?\n" ++ names.flatMap suggestionLine
  "unknown command " ++ Text.quoted typed ++ " for " ++ Text.quoted program ++ hint

/-- The command that arguments ask for and its own arguments; none stands for the program itself. -/
def find (args : List Text) : Except Text (Option Command × List Text) :=
  match words commonFlags args with
  | [] => .ok (none, args)
  | word :: _ =>
    match all.find? (·.name == word) with
    | some c => .ok (some c, without commonFlags word args)
    | none => .error (unknownCommand word)

def countProblem? (args : List Text) : Command → Option Text
  | generate => if args.isEmpty then some "requires at least 1 arg(s), only received 0" else none
  | inspect =>
    if args.length = 1 then none else some ("accepts 1 arg(s), received " ++ Text.ofNat args.length)
  | templates => args.head?.map fun a =>
      "unknown command " ++ Text.quoted a ++ " for " ++
        Text.quoted (program ++ " " ++ templates.name)
  | _ => none

inductive Ending
  | done
  | reported
  | refused (message : Text)
  /-- The command goes on until it is stopped; changes settle in the given time. -/
  | watching (w : Watcher) (debounce : Int)

structure Outcome where
  disk : Disk
  console : Console
  ending : Ending := .done

structure Scene where
  config : Config
  disk : Disk
  console : Console
  inputs : List Text
  flags : Arguments

namespace Scene

def fail (s : Scene) (f : Fault) : Outcome := ⟨s.disk, s.console.report f, .reported⟩

def generate (s : Scene) (cancelled : Bool) : Outcome :=
  match Session.start s.config s.console s.disk with
  | .error f => s.fail f
  | .ok session =>
    let dryRun := s.flags.isOn "dry-run"
    let c := s.config
    let listing (t : Console) : Console :=
      if t.shows .verbose then
        (((t.subheading "Configuration").item ("Inputs: " ++ Text.join ", " s.inputs)).item
          ("Naming: " ++ c.naming ++ ", style: " ++ c.style ++ ", template: " ++ c.template)).item
          ("Output: " ++ c.outputDir.orElse "next to each header")
      else t
    let session :=
      if dryRun then { session with dryRun }
      else session.tell fun t => listing (t.heading "BridgeGen")
    let (fault, session) := session.run cancelled s.inputs
    let session := session.reportSummary
    ⟨session.disk, session.console, if fault.isSome then .reported else .done⟩

def column (n : Int) : Text := Text.spaces (4 - (Text.ofInt n).length) ++ Text.ofInt n

def methodLine (m : Method) : Text := "    " ++ column m.line ++ "  " ++ m.signature ++ "\n"

def describe (bridge : Text) (i : Interface) : Text :=
  i.classKey ++ " " ++ i.qualifiedName ++ "\n" ++
    "  file:   " ++ i.file ++ ":" ++ Text.ofInt i.line ++ "\n" ++
    "  bridge: " ++ bridge ++ "\n" ++
    "  methods (" ++ Text.ofNat i.methods.length ++ "):\n" ++ i.methods.flatMap methodLine

def inspect (s : Scene) : Outcome :=
  let header := s.inputs.head?.getD []
  let source := (Reader.read {} s.disk header).1
  match source >>= Interface.parse header with
  | .error f => ⟨s.disk, s.console.reportHeader header f (source.toOption.getD []), .reported⟩
  | .ok i =>
    match s.config.recipe with
    | .error f => s.fail f
    | .ok recipe => ⟨s.disk, s.console.print (describe (recipe.naming.bridgeName i.name) i), .done⟩

def origin (s : Scene) (pair : Text) : Text :=
  let folder := s.config.templateDir
  let builtIn := Template.Pair.named? pair
  let isOwn := !folder.isEmpty &&
    ((Template.Drawer.folder folder).get {} s.disk (Template.declarationName pair)).1.isOk
  match isOwn, builtIn with
  | true, some _ => "from " ++ folder ++ " (overrides built-in)"
  | true, none => "from " ++ folder
  | false, some p => p.description
  | false, none => []

def pairLine (s : Scene) (pair : Text) : Text :=
  (if pair == s.config.template then "* " else "  ") ++ pair ++
    Text.spaces (14 - Text.charCount pair) ++ " " ++ s.origin pair ++ "\n"

def templates (s : Scene) : Outcome :=
  match s.config.shelf.pairs s.disk with
  | .error f => s.fail f
  | .ok pairs => ⟨s.disk, s.console.print (pairs.flatMap s.pairLine), .done⟩

def clean (s : Scene) : Outcome :=
  let console := s.console.start "Cleaning generated files"
  let done := Cleaning.ofInputs s.config.endings s.disk s.inputs
  let count := Text.ofNat done.removed.length
  match Fault.gather done.faults with
  | some f => ⟨done.disk, (console.finish false []).report f, .reported⟩
  | none =>
    let console := console.finish true (count ++ " removed")
    let console := done.removed.foldl (fun t path => t.verbose ("removed " ++ path)) console
    ⟨done.disk, console.success ("Removed " ++ count ++ " generated file(s)"), .done⟩

def defaultDebounce : Int := 300 * Duration.millisecond

def debounce (s : Scene) : Int :=
  match s.flags.get? "debounce" with
  | some (.duration n) => if 0 < n then n else defaultDebounce
  | _ => defaultDebounce

def stopped (c : Console) : Console := c.info "Stopped watching"

def watch (s : Scene) (cancelled : Bool) : Outcome :=
  match Session.start s.config s.console s.disk with
  | .error f => s.fail f
  | .ok session =>
    let inputs := if s.inputs.isEmpty then [Path.here] else s.inputs
    match Watcher.watch { session } inputs with
    | (.error f, w) => ⟨s.disk, w.session.console.report f, .reported⟩
    | (.ok _, w) =>
      if cancelled then ⟨s.disk, stopped w.session.console, .done⟩
      else ⟨s.disk, w.session.console, .watching w s.debounce⟩

end Scene

structure Host where
  environment : Environment := []
  terminal : Bool := false
  cancelled : Bool := false

def summary : Command → Text
  | generate => "Generate bridges for headers, directories or globs"
  | inspect => "Show the interface a header declares without generating anything"
  | templates => "List the available template pairs"
  | clean => "Remove generated bridge units"
  | watch => "Regenerate bridges whenever a header changes"
  | help => "Help about any command"
  | completion => "Generate the autocompletion script for the specified shell"

def usageLine (c : Command) : Text :=
  "  " ++ c.name ++ Text.spaces (12 - c.name.length) ++ c.summary ++ "\n"

def usage : Text :=
  "Usage:\n  " ++ program ++ " [command]\n\nAvailable Commands:\n" ++
    (all.filter (· != completion)).flatMap usageLine

def console (h : Host) (a : Arguments) : Console :=
  .opened (.ofSwitches (a.isOn "quiet") (a.isOn "verbose") (a.isOn "debug"))
    (if a.isOn "no-color" then some false else none) h.terminal h.environment

def prepare (h : Host) (d : Disk) (a : Arguments) : Except Outcome Scene :=
  let console := console h a
  let path := match a.get? "config" with
    | some (.text t) => t
    | _ => []
  match Config.load d h.environment a path with
  | .error f => .error ⟨d, console.report f, .reported⟩
  | .ok config =>
    match config.problem d with
    | some f => .error ⟨d, console.report f, .reported⟩
    | none =>
      .ok ⟨config, d, console.debug ("Configuration file: " ++ config.file.orElse "none"),
        a.rest, a⟩

def execute (cancelled : Bool) (s : Scene) : Command → Outcome
  | generate => s.generate cancelled
  | inspect => s.inspect
  | templates => s.templates
  | clean => s.clean
  | watch => s.watch cancelled
  | help | completion => ⟨s.disk, s.console, .done⟩

def run (h : Host) (d : Disk) (args : List Text) : Outcome :=
  let refuse (message : Text) : Outcome := ⟨d, {}, .refused message⟩
  match find args with
  | .error message => refuse message
  | .ok (command, args) =>
    let own := (command.map ownFlags).getD []
    match Arguments.read (commonFlags ++ own ++ [helpFlag]) args with
    | .error p => refuse p.text
    | .ok a =>
      match command with
      | none | some help | some completion => ⟨d, Console.print {} usage, .done⟩
      | some c =>
        if a.isOn "help" then ⟨d, Console.print {} usage, .done⟩
        else match c.countProblem? a.rest with
          | some message => refuse message
          | none =>
            match prepare h d a with
            | .error outcome => outcome
            | .ok s => c.execute h.cancelled s

end Command
end HeaderBridge
