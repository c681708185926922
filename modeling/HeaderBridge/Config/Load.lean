import HeaderBridge.Command.Flag
import HeaderBridge.Config
import HeaderBridge.Console
import HeaderBridge.Dotenv
import HeaderBridge.Json
import HeaderBridge.Text.Case
import HeaderBridge.Toml
import HeaderBridge.Yaml

namespace HeaderBridge.Config

def flags : List (Text × Flag) :=
  [("naming", ⟨"naming", none, .text⟩), ("marker", ⟨"marker", none, .text⟩),
   ("suffix", ⟨"suffix", none, .text⟩), ("template", ⟨"template", none, .text⟩),
   ("template_dir", ⟨"template-dir", none, .text⟩), ("style", ⟨"style", none, .text⟩),
   ("output_dir", ⟨"output-dir", none, .text⟩), ("header_ext", ⟨"header-ext", none, .text⟩),
   ("source_ext", ⟨"source-ext", none, .text⟩), ("include", ⟨"include", none, .texts⟩),
   ("exclude", ⟨"exclude", none, .texts⟩), ("jobs", ⟨"jobs", none, .number⟩)]

def variableName (key : Text) : Text := "BRIDGEGEN_" ++ Text.upper key

structure Sources where
  arguments : Arguments := {}
  environment : Environment := []
  fields : List (Text × Datum) := []

namespace Sources

/-- The setting of a key, if there is one. A variable that is empty counts as not set. -/
def find? (s : Sources) (key : Text) : Option Datum :=
  match (flags.lookup key).bind fun f => s.arguments.get? f.name with
  | some given => some given.datum
  | none =>
    let value := s.environment.get (variableName key)
    if value.isEmpty then Datum.field? Text.lower key s.fields else some (.text value)

def get (s : Sources) (take : Datum → Option α) (key : Text) (default : α) : Option α :=
  match s.find? key with
  | some d => take d
  | none => some default

end Sources

def ofSources (s : Sources) (file : Text) : Option Config := do
  let c : Config := {}
  let text := s.get Datum.toText?
  let texts := s.get Datum.toTexts?
  return { naming := ← text "naming" c.naming
           marker := ← text "marker" c.marker
           suffix := ← text "suffix" c.suffix
           template := ← text "template" c.template
           templateDir := ← text "template_dir" c.templateDir
           style := ← text "style" c.style
           outputDir := ← text "output_dir" c.outputDir
           headerExt := ← text "header_ext" c.headerExt
           sourceExt := ← text "source_ext" c.sourceExt
           included := ← texts "include" c.included
           excluded := ← texts "exclude" c.excluded
           jobs := ← s.get Datum.toInt? "jobs" c.jobs
           file }

/-- The endings of settings files. Not all of them can be read. -/
def fileEndings : List Text :=
  ["json", "toml", "yaml", "yml", "properties", "props", "prop", "hcl", "tfvars", "dotenv",
    "env", "ini"]

def readFields (environment : Environment) (ending content : Text) : Option (List (Text × Datum)) :=
  if ending == ("json" : Text) then Json.read content
  else if ending == ("yaml" : Text) || ending == ("yml" : Text) then Yaml.read content
  else if ending == ("toml" : Text) then Toml.read content
  else if ending == ("dotenv" : Text) || ending == ("env" : Text) then
    Dotenv.read (fun name => List.lookup name environment) content
  else none

def fileName : Text := "bridgegen"

def defaultFile? (d : Disk) : Option Text :=
  ((fileEndings.map fun e => fileName ++ "." ++ e) ++ [fileName]).map
    (fun n => Path.join [d.workPath, n]) |>.find? fun p => d.stat p matches .ok (.file _ _)

/-- The settings file and its fields. A file that is asked for must be there and end in its
language; the default file is always read as YAML, and may be missing. -/
def readFile (d : Disk) (environment : Environment) (path : Text) :
    Except Fault (Text × List (Text × Datum)) :=
  if path.isEmpty then
    match defaultFile? d with
    | none => .ok ([], [])
    | some file =>
      match (d.read file).toOption.bind Yaml.read with
      | some fields => .ok (file, fields)
      | none => .error (.configuration (fileName ++ ".yaml") "read" (some .untold))
  else
    let ending := (Path.extension path).tail
    let fields :=
      if fileEndings.contains ending then
        (d.read path).toOption.bind (readFields environment ending)
      else none
    match fields with
    | some fields => .ok (path, fields)
    | none => .error (.configuration path "read" (some .untold))

def load (d : Disk) (environment : Environment) (arguments : Arguments) (path : Text) :
    Except Fault Config := do
  let (file, fields) ← readFile d environment path
  match ofSources { arguments, environment, fields } file with
  | some c => .ok c
  | none => .error (.configuration file "decode" (some .untold))

end HeaderBridge.Config
