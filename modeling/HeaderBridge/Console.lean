import HeaderBridge.Text

namespace HeaderBridge

inductive Level
  | silent
  | error
  | warn
  | info
  | verbose
  | debug
deriving Repr, DecidableEq

namespace Level

def rank : Level → Nat
  | silent => 0
  | error => 1
  | warn => 2
  | info => 3
  | verbose => 4
  | debug => 5

/-- The level of the command line switches: quiet wins over debug, and debug over verbose. -/
def ofSwitches (quiet verbose debug : Bool) : Level :=
  if quiet then .error else if debug then .debug else if verbose then .verbose else .info

end Level

inductive Ink
  | red
  | green
  | yellow
  | blue
  | magenta
  | cyan
  | gray
  | bold
deriving Repr, DecidableEq

namespace Ink

def code : Ink → Text
  | bold => "1"
  | red => "31"
  | green => "32"
  | yellow => "33"
  | blue => "34"
  | magenta => "35"
  | cyan => "36"
  | gray => "90"

def endCode : Ink → Text
  | bold => "22"
  | _ => "0"

def escape (codes : List Text) : Text := "\x1b[" ++ Text.join ";" codes ++ "m"

def start (inks : List Ink) : Text := escape (inks.map code)

/-- A text between the codes that set attributes and those that take each of them back. -/
def paint (inks : List Ink) (t : Text) : Text := start inks ++ t ++ escape (inks.map endCode)

/-- A text behind the codes that set attributes, all of which are reset after it. -/
def wash (inks : List Ink) (t : Text) : Text := start inks ++ t ++ escape ["0"]

end Ink

abbrev Environment := List (Text × Text)

def Environment.get (env : Environment) (name : Text) : Text := (env.lookup name).getD []

structure Console where
  level : Level := .info
  colors : Bool := false
  terminal : Bool := false
  indentation : Nat := 0
  /-- The label of the line that is still open; empty if there is none. -/
  progress : Text := []
  out : Text := []
  err : Text := []
deriving Repr, DecidableEq

namespace Console

def wantsColors (env : Environment) : Bool :=
  (env.get "NO_COLOR").isEmpty &&
    (!(env.get "FORCE_COLOR").isEmpty ||
      (!(env.get "TERM").isEmpty && env.get "TERM" != ("dumb" : Text)))

/-- A console in an environment; `colors` overrules its wish, but nothing overrules a ban. -/
def opened (level : Level) (colors : Option Bool) (terminal : Bool) (env : Environment) : Console :=
  { level, colors := colors.getD (wantsColors env),
    terminal := terminal && (env.get "NO_COLOR").isEmpty }

def shows (c : Console) (l : Level) : Bool := l.rank ≤ c.level.rank

def print (c : Console) (t : Text) : Console := { c with out := c.out ++ t }

def complain (c : Console) (t : Text) : Console := { c with err := c.err ++ t }

def drained (c : Console) : Console := { c with out := [], err := [] }

def margin (c : Console) : Text := Text.spaces (2 * c.indentation)

def indent (c : Console) : Console := { c with indentation := c.indentation + 1 }

def unindent (c : Console) : Console := { c with indentation := c.indentation - 1 }

def paint (c : Console) (inks : List Ink) (t : Text) : Text :=
  if c.colors && c.terminal then Ink.paint inks t else t

/-- Stands for the time of day. -/
def clock : Text := "HH:MM:SS "

def message (c : Console) (tag : Text) (ink : Ink) (t : Text) : Text :=
  c.margin ++ (if c.shows .debug then clock else []) ++ c.paint [ink] ("[" ++ tag ++ "]") ++
    " " ++ t ++ "\n"

def tell (c : Console) (l : Level) (tag : Text) (ink : Ink) (t : Text) : Console :=
  if c.shows l then c.print (c.message tag ink t) else c

def error (c : Console) (t : Text) : Console :=
  if c.shows .error then c.complain (c.message "ERROR" .red t) else c

def warn (c : Console) (t : Text) : Console := c.tell .warn "WARN" .yellow t

def info (c : Console) (t : Text) : Console := c.tell .info "INFO" .blue t

def success (c : Console) (t : Text) : Console := c.tell .info "SUCCESS" .green t

def verbose (c : Console) (t : Text) : Console := c.tell .verbose "VERBOSE" .gray t

def debug (c : Console) (t : Text) : Console := c.tell .debug "DEBUG" .magenta t

def display (c : Console) (t : Text) : Console := if c.shows .info then c.print t else c

def generated (c : Console) (declaration definition : Text) : Console :=
  c.display (c.margin ++ c.paint [.cyan, .bold] "[BridgeGen]" ++ " Generated " ++ declaration ++
    " and " ++ definition ++ "\n")

def start (c : Console) (label : Text) : Console :=
  if c.shows .info then
    { c.print ((if c.progress.isEmpty then [] else [newline]) ++ c.margin ++ label ++ "... ") with
      progress := label }
  else c

def finish (c : Console) (ok : Bool) (detail : Text) : Console :=
  if c.shows .info && !c.progress.isEmpty then
    let outcome := if ok then c.paint [.green] "done" else c.paint [.red] "failed"
    let detail := if detail.isEmpty then detail else " (" ++ detail ++ ")"
    { c.print (outcome ++ detail ++ "\n") with progress := [] }
  else c

def heading (c : Console) (title : Text) : Console := c.display (c.paint [.bold] title ++ "\n")

def subheading (c : Console) (title : Text) : Console := c.display ("\n" ++ title ++ ":\n")

def item (c : Console) (t : Text) : Console := c.display (c.margin ++ "- " ++ t ++ "\n")

def tableLine (e : Text × Text) : Text := "   " ++ e.1 ++ ": " ++ e.2 ++ "\n"

def table (c : Console) (title : Text) (entries : List (Text × Text)) : Console :=
  let sorted := entries.mergeSort fun a b => Text.le a.1 b.1
  c.display ("\n" ++ title ++ "\n" ++ sorted.flatMap tableLine ++ "\n")

end Console
end HeaderBridge
