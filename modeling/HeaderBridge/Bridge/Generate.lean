import HeaderBridge.Bridge.Unit
import HeaderBridge.Template.Shelf

namespace HeaderBridge

/-- How bridges are made. Empty texts stand for the defaults. -/
structure Recipe where
  naming : Naming := .append Naming.defaultSuffix
  style : Style := .guarded
  shelf : Template.Shelf := Template.Shelf.builtIn
  pair : Text := []
  headerExtension : Text := []
  sourceExtension : Text := []
deriving Repr, DecidableEq

structure Document where
  name : Text
  content : Text
deriving Repr, DecidableEq

structure Generated where
  bridgeName : Text
  interfaceName : Text
  methodCount : Nat
  declaration : Document
  definition : Document
deriving Repr, DecidableEq

def Interface.missing : Notice :=
  { code := .generation, message := "interface descriptor cannot be nil" }

namespace Recipe

def pairName (r : Recipe) : Text := r.pair.orElse Template.Pair.default

def headerEnding (r : Recipe) : Text := r.headerExtension.orElse ".h"

def sourceEnding (r : Recipe) : Text := r.sourceExtension.orElse ".cpp"

/-- The bridge of an interface. The first method that cannot be forwarded is the fault. -/
def describe (r : Recipe) (i : Interface) : Except Fault Bridge :=
  let name := r.naming.bridgeName i.name
  match i.methods.mapM (·.definition name r.style) with
  | .ok definitions => .ok ⟨name, i, i.methods.map Method.declaration, definitions⟩
  | .error u => .error ((Fault.ofNotice u.notice).inFile i.file)

def emit (r : Recipe) (b : Bridge) (templates : Text × Text) : Except Fault Generated := do
  let (declaration, definition) ← b.emit r.headerEnding templates.1 templates.2
  return {
    bridgeName := b.name
    interfaceName := b.interface.qualifiedName
    methodCount := b.interface.methods.length
    declaration := ⟨b.name ++ r.headerEnding, declaration⟩
    definition := ⟨b.name ++ r.sourceEnding, definition⟩ }

def generate (r : Recipe) (reader : Reader) (disk : Disk) (i : Interface) :
    Except Fault Generated × Reader :=
  match r.describe i with
  | .error e => (.error e, reader)
  | .ok b =>
    match r.shelf.pair reader disk r.pairName with
    | (.error miss, reader) => (.error miss.fault, reader)
    | (.ok templates, reader) => (r.emit b templates, reader)

end Recipe
end HeaderBridge
