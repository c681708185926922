import HeaderBridge.Scan
import HeaderBridge.Template.Pair

namespace HeaderBridge

structure Cleaning where
  disk : Disk
  reader : Reader
  removed : List Text := []
  faults : List Fault := []

namespace Cleaning

def fail (c : Cleaning) (f : Fault) : Cleaning := { c with faults := c.faults ++ [f] }

/-- The generated files at a path: the file itself, or those in the folder and below it. -/
def candidates (h : Hallmark) (r : Reader) (d : Disk) (base : Text) :
    Except Fault (List Text) × Reader :=
  match d.stat base with
  | .error e => (.error (.fileSystem "stat" base (some (e.fault "stat" base))), r)
  | .ok (.file _ _) =>
    let (vs, r) := h.select true d [⟨base, Path.base base, false⟩] r
    (.ok (vs.map (·.path)), r)
  | .ok .folder =>
    match Walk.files d (Walk.isEntered base []) base with
    | .error _ => (.ok [], r)
    | .ok vs =>
      let (vs, r) := h.select true d vs r
      (.ok (Walk.paths vs), r)

def remove (c : Cleaning) (path : Text) : Cleaning :=
  match c.disk.remove path with
  | .ok d => { c with disk := d, reader := c.reader.forget path, removed := c.removed ++ [path] }
  | .error e => c.fail (.fileSystem "remove" path (some (e.fault "remove" path)))

def sweep (h : Hallmark) (c : Cleaning) (base : Text) : Cleaning :=
  match candidates h c.reader c.disk base with
  | (.ok paths, r) => paths.foldl remove { c with reader := r }
  | (.error f, r) => { c with reader := r }.fail f

def run (h : Hallmark) (r : Reader) (d : Disk) (bases : List Text) : Cleaning :=
  bases.foldl (sweep h) { disk := d, reader := r }

/-- The path that is swept for an input: folders are always searched with all below them, and
nothing stands for the working folder. -/
def base (input : Text) : Text := (Text.withoutEnding recursiveSuffix input).orElse Path.here

/-- Removes the files with the built-in marker at each of the inputs. -/
def ofInputs (endings : List Text) (d : Disk) (inputs : List Text) : Cleaning :=
  run ⟨Template.marker, endings⟩ {} d ((if inputs.isEmpty then [Path.here] else inputs).map base)

end Cleaning
end HeaderBridge
