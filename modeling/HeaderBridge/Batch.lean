import HeaderBridge.Config
import HeaderBridge.Interface.Locate
import HeaderBridge.Output

namespace HeaderBridge

inductive Outcome
  | broken (fault : Fault)
  /-- The header declares nothing to build a bridge for, and was not asked for by name. -/
  | skipped (reason : Fault)
  | stopped (bridge : Generated) (fault : Fault)
  /-- A bridge was built, and written to the given paths, if to any. -/
  | made (bridge : Generated) (written : List Text)
deriving Repr

namespace Outcome

def fault? : Outcome → Option Fault
  | broken f | stopped _ f => some f
  | _ => none

def bridge? : Outcome → Option Generated
  | stopped g _ | made g _ => some g
  | _ => none

def reason? : Outcome → Option Fault
  | skipped f => some f
  | _ => none

def written : Outcome → List Text
  | made _ paths => paths
  | _ => []

end Outcome

structure Result where
  header : Header
  outcome : Outcome
deriving Repr

namespace Batch

def build (recipe : Recipe) (d : Disk) (h : Header) (r : Reader) : Outcome × Reader :=
  match r.read d h.path with
  | (.error f, r) => (.broken f, r)
  | (.ok source, r) =>
    match Interface.parse h.path source with
    | .error f => (if f.hasCode .noInterface && !h.explicit then .skipped f else .broken f, r)
    | .ok i =>
      match recipe.generate r d i with
      | (.error f, r) => (.broken f, r)
      | (.ok g, r) => (.made g [], r)

def buildAll (recipe : Recipe) (d : Disk) : List Header → Reader → List Result × Reader
  | [], r => ([], r)
  | h :: hs, r =>
    let (outcome, r) := build recipe d h r
    let (results, r) := buildAll recipe d hs r
    (⟨h, outcome⟩ :: results, r)

/-- The paths that the files of a bridge are written to, from the root. -/
def targets (c : Config) (d : Disk) (header : Text) (g : Generated) : List Text :=
  [g.declaration.name, g.definition.name].map fun name =>
    Path.absolute d.workPath (Path.join [c.outputFolder header, name])

/-- Stops every bridge one of whose files is claimed by a header before. `owners` are the files
claimed so far, each with its header. -/
def claim (c : Config) (d : Disk) : List (Text × Text) → List Result → List Result
  | _, [] => []
  | owners, ⟨h, .made g paths⟩ :: rest =>
    let files := targets c d h.path g
    match files.findSome? fun file => (owners.lookup file).map (file, ·) with
    | some (file, owner) =>
      ⟨h, .stopped g (.ofNotice (.collision file owner h.path))⟩ :: claim c d owners rest
    | none => ⟨h, .made g paths⟩ :: claim c d (files.map (·, h.path) ++ owners) rest
  | owners, r :: rest => r :: claim c d owners rest

/-- Writes the files of one result, if it has any to write. -/
def store (c : Config) (d : Disk) (r : Result) : Result × Disk :=
  match r.outcome with
  | .made g _ =>
    match Output.write d (c.outputFolder r.header.path) g.declaration g.definition with
    | (.ok (declaration, definition), d) => (⟨r.header, .made g [declaration, definition]⟩, d)
    | (.error f, d) => (⟨r.header, .stopped g f⟩, d)
  | _ => (r, d)

def storeAll (c : Config) : Disk → List Result → List Result × Disk
  | d, [] => ([], d)
  | d, r :: rs =>
    let (r, d) := store c d r
    let (rs, d) := storeAll c d rs
    (r :: rs, d)

end Batch
end HeaderBridge
