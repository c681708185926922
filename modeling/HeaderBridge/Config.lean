import HeaderBridge.Bridge.Generate
import HeaderBridge.Check
import HeaderBridge.Scan

namespace HeaderBridge

structure Config where
  naming : Text := "suffix"
  /-- What is dropped from the front of an interface name, where the naming asks for it. -/
  marker : Text := Naming.defaultMarker
  suffix : Text := Naming.defaultSuffix
  template : Text := Template.Pair.default
  /-- A folder of templates that go before the built-in ones. -/
  templateDir : Text := []
  style : Text := Style.guarded.name
  /-- Where generated files go; next to each header if it is empty. -/
  outputDir : Text := []
  headerExt : Text := ".h"
  sourceExt : Text := ".cpp"
  included : List Text := ["**/*.h", "**/*.hpp", "**/*.hh", "**/*.hxx"]
  excluded : List Text := ["**/build/**", "**/.git/**", "**/third_party/**"]
  jobs : Int := 4
  /-- The file the settings were read from; empty if there is none. -/
  file : Text := []
deriving Repr, DecidableEq

namespace Config

def shelf (c : Config) : Template.Shelf := .withFolder c.templateDir

def endings (c : Config) : List Text := [c.suffix ++ c.headerExt, c.suffix ++ c.sourceExt]

def hallmark (c : Config) : Hallmark := ⟨Template.marker, c.endings⟩

def scanner (c : Config) : Scanner := ⟨c.included, c.excluded, some c.hallmark⟩

def recipe (c : Config) : Except Fault Recipe := do
  let naming ← Naming.named c.naming c.marker c.suffix
  let style ← Style.named c.style
  return ⟨naming, style, c.shelf, c.template, c.headerExt, c.sourceExt⟩

def outputFolder (c : Config) (header : Text) : Text := c.outputDir.orElse (Path.dir header)

/-- The fault of a setting that was refused. One item of a list is named by its index. -/
def refused (key : Text) (r : Refusal) : Fault :=
  let key := if (key ++ "[").isPrefixOf r.field then r.field else key
  .ofNotice ((Notice.configuration key r.problem).note "value" r.value)

def templateFault (c : Config) (d : Disk) : Option Fault :=
  match c.shelf.pairs d with
  | .error e => some (.configuration c.templateDir "list templates in" (some e))
  | .ok pairs =>
    if pairs.contains c.template then none
    else some <| .ofNotice <|
      ((Notice.configuration "template" ("unknown template pair " ++ Text.quoted c.template)).note
        "available" (.text (Text.join ", " pairs))).hint
        "Run 'bridgegen templates' to list the available pairs"

/-- Everything that is wrong with the settings. -/
def faults (c : Config) (d : Disk) : List Fault :=
  let check {α : Type} (key : Text) (test : Check α) (a : α) : List Fault :=
    ((test a).map (refused key)).toList
  let strips := c.naming == ("strip-prefix" : Text)
  check "naming" (.oneOfTexts "naming" ["suffix", "strip-prefix"]) c.naming ++
    check "style" (.oneOfTexts "style" [Style.guarded.name, Style.direct.name]) c.style ++
    check "suffix" (.identifier "suffix") c.suffix ++
    check "marker" (Check.when (fun _ => strips)
      (.all [.notEmpty "marker", .maxLength "marker" 1, .identifier "marker"])) c.marker ++
    check "header_ext" (.extension "header_ext") c.headerExt ++
    check "source_ext" (.extension "source_ext") c.sourceExt ++
    (if !c.headerExt.isEmpty && c.headerExt == c.sourceExt then
      [Fault.ofNotice (.configuration "source_ext" "must differ from header_ext")] else []) ++
    check "include"
      (.all [.listNotEmpty "include", .each "include" (.glob "include")]) c.included ++
    check "exclude" (.each "exclude" (.glob "exclude")) c.excluded ++
    check "jobs" (.atLeast "jobs" 1) c.jobs ++
    (c.templateFault d).toList

def problem (c : Config) (d : Disk) : Option Fault := Fault.gather (c.faults d)

end Config
end HeaderBridge
