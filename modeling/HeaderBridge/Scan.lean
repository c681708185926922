import HeaderBridge.Glob.Search
import HeaderBridge.Walk

namespace HeaderBridge

structure Header where
  path : Text
  /-- Whether it was named, and not found in a folder or by a pattern. -/
  explicit : Bool
deriving Repr, DecidableEq

def recursiveSuffix : Text := "/..."

inductive Input
  | tree (root : Text)
  | pattern (pattern : Text)
  | path (path : Text)
deriving Repr, DecidableEq

def Input.ofText (t : Text) : Input :=
  match Text.before? recursiveSuffix t with
  | some root => .tree (root.orElse Path.here)
  | none => if t.any Glob.isMeta then .pattern t else .path t

structure Scanner where
  included : List Text
  excluded : List Text
  hallmark : Option Hallmark := none
deriving Repr, DecidableEq

namespace Scanner

def ungenerated (s : Scanner) (d : Disk) (vs : List Disk.Visit) (r : Reader) :
    List Disk.Visit × Reader :=
  match s.hallmark with
  | none => (vs, r)
  | some h => h.select false d vs r

def folder (s : Scanner) (r : Reader) (d : Disk) (recursive : Bool) (root : Text) :
    Except Fault (List Header) × Reader :=
  let enter := if recursive then Walk.isEntered root s.excluded else Walk.isRoot root
  match Walk.files d enter root with
  | .error e => (.error e, r)
  | .ok vs =>
    let (vs, r) := s.ungenerated d (vs.filter (Walk.isWanted root s.included s.excluded)) r
    (.ok (vs.map fun v => ⟨Path.clean v.path, false⟩), r)

def pattern (s : Scanner) (r : Reader) (d : Disk) (p : Text) :
    Except Fault (List Header) × Reader :=
  match Glob.search d p with
  | none => (.error (.fileSystem "expand glob" p (some (.ofText "syntax error in pattern"))), r)
  | some found =>
    let isFile (path : Text) : Bool := d.stat path matches .ok (.file _ _)
    let kept := found.filter fun path => isFile path && !Glob.anyMatches s.excluded path
    let (vs, r) := s.ungenerated d (kept.map fun path => ⟨path, Path.base path, false⟩) r
    (.ok (vs.map fun v => ⟨Path.clean v.path, false⟩), r)

/-- The headers that one input leads to. -/
def resolve (s : Scanner) (r : Reader) (d : Disk) : Input → Except Fault (List Header) × Reader
  | .tree root => s.folder r d true root
  | .pattern p => s.pattern r d p
  | .path path =>
    match d.stat path with
    | .error e =>
      let cause := e.fault "stat" path
      match Fault.fileSystem "stat" path (some cause) with
      | .coded n cause =>
        let hint := "Pass a header file, a directory, dir/... or a glob such as 'include/**/*.h'"
        (.error (.coded (n.hint hint) cause), r)
      | f => (.error f, r)
    | .ok (.file _ _) => (.ok [⟨Path.clean path, true⟩], r)
    | .ok .folder => s.folder r d false path

/-- Each header once, in order of path; one that was named stays named. -/
def merge (hs : List Header) : List Header :=
  (Text.sort (hs.map (·.path)).eraseDups).map fun p =>
    ⟨p, hs.any fun h => h.path == p && h.explicit⟩

/-- What the inputs lead to, each on its own, and the faults of those that lead nowhere. -/
def gather (s : Scanner) (d : Disk) : List Input → Reader → (List Header × List Fault) × Reader
  | [], r => (([], []), r)
  | i :: is, r =>
    match s.resolve r d i with
    | (.ok hs, r) =>
      let ((more, faults), r) := s.gather d is r
      ((hs ++ more, faults), r)
    | (.error f, r) =>
      let ((more, faults), r) := s.gather d is r
      ((more, f :: faults), r)

def scan (s : Scanner) (r : Reader) (d : Disk) (inputs : List Text) :
    (List Header × List Fault) × Reader :=
  let ((hs, faults), r) := s.gather d (inputs.map Input.ofText) r
  ((merge hs, faults), r)

end Scanner
end HeaderBridge
