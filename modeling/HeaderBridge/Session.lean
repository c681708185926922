import HeaderBridge.Batch
import HeaderBridge.Report

namespace HeaderBridge

structure Session where
  config : Config
  recipe : Recipe
  disk : Disk
  console : Console
  dryRun : Bool := false
  reader : Reader := {}
  summary : Summary := {}

namespace Session

def start (c : Config) (console : Console) (d : Disk) : Except Fault Session := do
  let recipe ← c.recipe
  return { config := c, recipe, disk := d, console }

def tell (s : Session) (f : Console → Console) : Session := { s with console := f s.console }

/-- Stands for the time that something took. -/
def elapsed : Text := "<duration>"

def printedDocument (doc : Document) : Text :=
  "==> " ++ doc.name ++ " <==\n" ++ doc.content ++
    (if doc.content.getLast? == some newline then [] else [newline])

def record (s : Session) (r : Result) : Session :=
  let s := { s with summary.headers := s.summary.headers + 1 }
  match r.outcome with
  | .broken f | .stopped _ f =>
    let (source, reader) := s.reader.read s.disk r.header.path
    { s with
      reader
      summary.failures := s.summary.failures + 1
      console := s.console.reportHeader r.header.path f (source.toOption.getD []) }
  | .skipped reason =>
    { s with
      summary.skipped := s.summary.skipped + 1
      console :=
        s.console.caution (r.header.path ++ ": nothing to generate (" ++ reason.message ++ ")") }
  | .made g written =>
    let s := { s with
      summary.bridges := s.summary.bridges + 1
      summary.methods := s.summary.methods + g.methodCount
      console := s.console.debug (r.header.path ++ " processed in " ++ elapsed) }
    if s.dryRun then
      s.tell (·.print (printedDocument g.declaration ++ printedDocument g.definition))
    else { s with
      summary.files := s.summary.files ++ written
      console := s.console.generated g.declaration.name g.definition.name }

def cancellation : Fault := .ofText "context canceled"

/-- Makes the bridges of headers and tells their results in order. A run that was called off before
it began does nothing, unless there is nothing to do. -/
def process (s : Session) (cancelled : Bool) (hs : List Header) :
    Except Fault (List Result) × Session :=
  if cancelled && !hs.isEmpty then (.error cancellation, s)
  else
    let (built, reader) := Batch.buildAll s.recipe s.disk hs s.reader
    let claimed := Batch.claim s.config s.disk [] built
    let (results, disk) :=
      if s.dryRun then (claimed, s.disk) else Batch.storeAll s.config s.disk claimed
    (.ok results, results.foldl record { s with reader, disk })

def scan (s : Session) (inputs : List Text) : List Header × Option Fault × Session :=
  let s := s.tell fun c =>
    ((c.debug ("Inputs: " ++ (Detail.texts inputs).render)).debug
      ("Configuration file: " ++ s.config.file.orElse "none")).start "Scanning for headers"
  let ((headers, faults), reader) := s.config.scanner.scan s.reader s.disk inputs
  let s := { s with reader }
  match Fault.gather faults with
  | some f => (headers, some f, s.tell fun c => (c.finish false []).report f)
  | none => (headers, none, s.tell (·.finish true (Text.ofNat headers.length ++ " found")))

/-- Makes the bridges of all headers that inputs lead to. A header that fails does not stop the
others; the fault collects all that went wrong. -/
def run (s : Session) (cancelled : Bool) (inputs : List Text) : Option Fault × Session :=
  let (headers, scanFault, s) := { s with summary := {} }.scan inputs
  if headers.isEmpty then
    (Fault.gather scanFault.toList,
      if scanFault.isSome then s
      else s.tell (·.warn ("No headers matched " ++ Text.join " " inputs)))
  else match s.process cancelled headers with
    | (.error f, s) => (Fault.gather (scanFault.toList ++ [f]), s)
    | (.ok results, s) =>
      (Fault.gather (scanFault.toList ++ results.filterMap (·.outcome.fault?)),
        { s with summary.duration := elapsed })

def reportSummary (s : Session) : Session := s.tell (·.reportSummary s.summary s.dryRun)

def isGeneratedPath (s : Session) (path : Text) : Bool :=
  s.config.endings.any fun e => e.isSuffixOf (Path.base path)

end Session
end HeaderBridge
