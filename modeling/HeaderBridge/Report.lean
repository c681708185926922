import HeaderBridge.Console
import HeaderBridge.Duration
import HeaderBridge.Interface.Explain
import HeaderBridge.Text.Case

namespace HeaderBridge

def Code.title : Code → Text
  | unknown => "Error"
  | invalidStart | unbalanced => "Scan Error"
  | noInterface | noPureVirtual => "Interface Error"
  | unforwardable => "Forwarding Error"
  | generation => "Code Generation Error"
  | template => "Template Error"
  | fileSystem => "File System Error"
  | configuration => "Configuration Error"

namespace Report

def contextLines : Int := 2

def leadingKeys : List Text :=
  ["declaration", "method", "class", "parameter_index", "template", "path"]

def label (key : Text) : Text :=
  if key == ("parameter_index" : Text) then "Parameter"
  else if key == ("region" : Text) then "Unclosed Region"
  else Text.join " " ((Text.splitAt '_' key).map (Text.onFirstByte Text.upper))

def ordered (context : List (Text × Detail)) : List (Text × Detail) :=
  leadingKeys.filterMap (fun k => (context.lookup k).map (k, ·)) ++
    (context.filter (!leadingKeys.contains ·.1)).mergeSort fun a b => Text.le a.1 b.1

def contextBlock (context : List (Text × Detail)) : Text :=
  if context.isEmpty then []
  else "Context:\n" ++
    ((ordered context).flatMap fun e => Console.tableLine (label e.1, e.2.render)) ++ "\n"

def hintLines (number : Nat) (hint : Text) : Text :=
  match Text.lines hint with
  | [] => []
  | first :: rest =>
    "   " ++ Text.ofNat number ++ ". " ++ first ++ "\n" ++
      (rest.filter fun line => !(Text.trim line).isEmpty).flatMap fun line => Text.spaces 6 ++
        line ++ [newline]

def hintBlock (hints : List Text) : Text :=
  if hints.isEmpty then []
  else "Suggestions:\n" ++ (hints.mapIdx fun i h => hintLines (i + 1) h).flatten ++ "\n"

def chainBlock (f : Fault) : Text :=
  "Error Chain:\n" ++
    (f.causes.mapIdx fun i g => Text.spaces 3 ++ Text.ofNat (i + 1) ++ ". " ++ g.message ++
      [newline]).flatten ++ "\n"

def headingBlock (terminal : Bool) (code : Code) : Text :=
  let heading : Text := "ERROR: " ++ code.title ++ " (" ++ code.name ++ ")"
  let rule : Text := List.replicate heading.length '-'
  (if terminal then Ink.paint [.red, .bold] heading else heading) ++ [newline] ++ rule ++ [newline]

def fileLine (path : Text) : Text := if path.isEmpty then [] else "File: " ++ path ++ "\n"

/-- The report of one fault, in the header at `path` with the given source. Of a fault without code
little is known; else the first coded one is told in full. -/
def faultBlock (terminal verbose : Bool) (f : Fault) (path source : Text) : Text :=
  match f.firstCoded with
  | none => headingBlock terminal .unknown ++ fileLine path ++ "Message: " ++ f.message ++ "\n\n"
  | some (n, cause) =>
    let place : Text :=
      if n.location.isEmpty then fileLine path else "Location: " ++ n.location.text ++ "\n"
    let shown := if source.isEmpty then [] else snippet contextLines (some f) source
    headingBlock terminal n.code ++ place ++
      "Message: " ++ Fault.chain n.message (cause.map Fault.message) ++ "\n\n" ++
      (if shown.isEmpty then [] else shown ++ [newline]) ++
      contextBlock n.context ++
      hintBlock (n.hints ++ if source.isEmpty then [] else explain (some f) source) ++
      (if verbose then chainBlock f else [])

end Report

mutual

/-- The parts of a fault that are reported one by one, if it is, or is caused by, a collection of
several. -/
def Fault.parts? : Fault → Option (List Fault)
  | .coded _ cause => Fault.causeParts? cause
  | .plain _ cause => Fault.causeParts? cause
  | .refused _ => none
  | .relayed f => Fault.parts? f
  | .many fs => if fs.length > 1 then some (Fault.listParts fs) else none

def Fault.causeParts? : Option Fault → Option (List Fault)
  | none => none
  | some f => Fault.parts? f

def Fault.listParts : List Fault → List Fault
  | [] => []
  | f :: fs => (Fault.parts? f).getD [f] ++ Fault.listParts fs

end

def Fault.reported (f : Fault) : List Fault := f.parts?.getD [f]

structure Summary where
  headers : Int := 0
  bridges : Int := 0
  methods : Int := 0
  skipped : Int := 0
  failures : Int := 0
  files : List Text := []
  /-- How long the run took, as it is told; empty if that is not known. -/
  duration : Text := []
deriving Repr, DecidableEq

namespace Console

def caution (c : Console) (t : Text) : Console :=
  if c.shows .warn then
    c.complain ((if c.terminal then Ink.wash [.yellow, .bold] "! " else "! ") ++ t ++ "\n")
  else c

def reportHeader (c : Console) (path : Text) (f : Fault) (source : Text) : Console :=
  if c.shows .error then c.complain (Report.faultBlock c.terminal (c.shows .verbose) f path source)
  else c

def report (c : Console) (f : Fault) : Console :=
  f.reported.foldl (fun c g => c.reportHeader [] g []) c

def reportSummary (c : Console) (s : Summary) (dryRun : Bool) : Console :=
  let title : Text :=
    if s.failures > 0 then "Generation finished with failures" else "Generation complete"
  let title := if dryRun then title ++ " (dry run, nothing written)" else title
  let c := c.table title
    [("Headers scanned", Text.ofInt s.headers), ("Bridges generated", Text.ofInt s.bridges),
     ("Methods forwarded", Text.ofInt s.methods), ("Headers skipped", Text.ofInt s.skipped),
     ("Failures", Text.ofInt s.failures)]
  let c := if c.shows .verbose && !s.files.isEmpty then
      s.files.foldl Console.item (c.subheading "Generated files")
    else c
  if s.duration.isEmpty then c else c.verbose ("Finished in " ++ s.duration)

end Console
end HeaderBridge
