import HeaderBridge.Fault.Kinds
import HeaderBridge.Path

namespace HeaderBridge

/-- When a file was last written: at a given second, or at some moment of its own. -/
inductive Stamp
  | second (n : Int)
  | moment (n : Nat)
deriving Repr, DecidableEq

inductive Entry
  | file (content : Text) (stamp : Stamp)
  | folder
deriving Repr, DecidableEq

def Entry.isFolder : Entry → Bool
  | file _ _ => false
  | folder => true

inductive DiskError
  | notFound
  | notFolder
  | isFolder
  | alreadyThere
  | notEmpty
deriving Repr, DecidableEq

def DiskError.text : DiskError → Text
  | notFound => "no such file or directory"
  | notFolder => "not a directory"
  | isFolder => "is a directory"
  | alreadyThere => "file exists"
  | notEmpty => "directory not empty"

def DiskError.fault (e : DiskError) (operation path : Text) : Fault :=
  .plain (operation ++ " " ++ path) (some (.ofText e.text))

/-- The names that lead from the root to a place. -/
abbrev Place := List Text

structure Disk where
  entries : List (Place × Entry)
  work : Place
  /-- Counts the moments at which files have been written. -/
  clock : Nat := 0
deriving Repr

namespace Disk

/-- What is at a place; the root is always a folder. -/
def find? (d : Disk) (p : Place) : Option Entry :=
  if p.isEmpty then some .folder else d.entries.lookup p

def put (d : Disk) (p : Place) (e : Entry) : Disk :=
  { d with entries := d.entries.filter (·.1 != p) ++ [(p, e)] }

def drop (d : Disk) (p : Place) : Disk := { d with entries := d.entries.filter (·.1 != p) }

def dropAll (d : Disk) (p : Place) : Disk :=
  { d with entries := d.entries.filter (!p.isPrefixOf ·.1) }

def write (d : Disk) (p : Place) (content : Text) : Disk :=
  { d.put p (.file content (.moment d.clock)) with clock := d.clock + 1 }

def names (d : Disk) (p : Place) : List Text :=
  Text.sort
    (d.entries.filterMap fun e =>
      if e.1.length = p.length + 1 && p.isPrefixOf e.1 then e.1.getLast? else none)

/-- Follows parts from a folder. All but the last must lead to folders; the last may lead
nowhere. -/
def follow (d : Disk) : Place → List Text → Except DiskError Place
  | p, [] => .ok p
  | p, c :: cs =>
    let next := if c == Path.here then p else if c == Path.up then p.dropLast else p ++ [c]
    match cs, d.find? next with
    | [], _ => .ok next
    | _, none => .error .notFound
    | _, some (.file _ _) => .error .notFolder
    | cs, some .folder => d.follow next cs

/-- The parts of a path as a disk follows them. A trailing slash asks for a folder. -/
def steps (path : Text) : List Text :=
  let cs := (Text.splitAt '/' path).filter (!·.isEmpty)
  if path.getLast? == some '/' && !cs.isEmpty then cs ++ [Path.here] else cs

/-- The place that a path leads to, whether anything is there or not. -/
def resolve (d : Disk) (path : Text) : Except DiskError Place :=
  if path.isEmpty then .error .notFound
  else d.follow (if Path.isRooted path then [] else d.work) (steps path)

def stat (d : Disk) (path : Text) : Except DiskError Entry := do
  let p ← d.resolve path
  match d.find? p with
  | some e => .ok e
  | none => .error .notFound

def isFolder (d : Disk) (path : Text) : Bool :=
  match d.stat path with
  | .ok e => e.isFolder
  | .error _ => false

def read (d : Disk) (path : Text) : Except DiskError Text := do
  match ← d.stat path with
  | .file content _ => .ok content
  | .folder => .error .isFolder

def list (d : Disk) (path : Text) : Except DiskError (List Text) := do
  let p ← d.resolve path
  match d.find? p with
  | some .folder => .ok (d.names p)
  | some (.file _ _) => .error .notFolder
  | none => .error .notFound

def makeFolder (d : Disk) (path : Text) : Except DiskError Disk := do
  let p ← d.resolve ((Text.dropTrailing '/' path).orElse path)
  match d.find? p with
  | some _ => .error .alreadyThere
  | none => .ok (d.put p .folder)

def parentText (path : Text) : Text :=
  let trimmed := Text.dropTrailing '/' path
  (trimmed.take (trimmed.length - (Path.tail trimmed).length)).dropLast

/-- Makes a folder and the folders above it. A failure names the path at which it arose; the folders
made before it stay. -/
def makeFolders (d : Disk) : Nat → Text → Option (Text × DiskError) × Disk
  | 0, path => (some (path, .notFound), d)
  | fuel + 1, path =>
    match d.stat path with
    | .ok .folder => (none, d)
    | .ok (.file _ _) => (some (path, .notFolder), d)
    | .error _ =>
      let parent := parentText path
      match if parent.isEmpty then (none, d) else d.makeFolders fuel parent with
      | (some failure, d) => (some failure, d)
      | (none, d) =>
        match d.makeFolder path with
        | .ok d => (none, d)
        | .error e => (if d.isFolder path then none else some (path, e), d)

def move (d : Disk) (source target : Place) : Except DiskError Disk :=
  match d.find? source, d.find? target with
  | none, _ => .error .notFound
  | _, some .folder => .error .alreadyThere
  | some e, _ => .ok ((d.drop source).put target e)

def remove (d : Disk) (path : Text) : Except DiskError Disk := do
  let p ← d.resolve path
  match d.find? p with
  | none => .error .notFound
  | some (.file _ _) => .ok (d.drop p)
  | some .folder => if (d.names p).isEmpty then .ok (d.drop p) else .error .notEmpty

structure Visit where
  path : Text
  name : Text
  isFolder : Bool
deriving Repr, DecidableEq

/-- Everything from a place on down, each folder before what it holds. Folders that `enter` refuses
are left out with all they hold. -/
def visits (d : Disk) (enter : Visit → Bool) : Nat → Text → Text → Place → List Visit
  | 0, _, _, _ => []
  | fuel + 1, path, name, p =>
    match d.find? p with
    | none => []
    | some (.file _ _) => [⟨path, name, false⟩]
    | some .folder =>
      let v : Visit := ⟨path, name, true⟩
      if enter v then
        v :: (d.names p).flatMap fun n => d.visits enter fuel (Path.join [path, n]) n (p ++ [n])
      else []

def walk (d : Disk) (enter : Visit → Bool) (root : Text) : Except DiskError (List Visit) := do
  let p ← d.resolve root
  match d.find? p with
  | none => .error .notFound
  | some _ => .ok (d.visits enter (d.entries.length + 2) root (Path.base root) p)

/-- Every file below the working folder by its path from there, and every empty folder. -/
def listing (d : Disk) : List (Text × Option Text) :=
  d.entries.filterMap fun e =>
    if d.work.isPrefixOf e.1 && e.1 != d.work then
      let path := Text.join "/" (e.1.drop d.work.length)
      match e.2 with
      | .file content _ => some (path, some content)
      | .folder => if (d.names e.1).isEmpty then some (path, none) else none
    else none

def above (p : Place) : List Place := (List.range p.length).map p.take

def spelled (d : Disk) (path : Text) : Place :=
  (Path.parts path).foldl (fun p c => if c == Path.up then p.dropLast else p ++ [c])
    (if Path.isRooted path then [] else d.work)

def ensureFolder (d : Disk) (p : Place) : Disk := if (d.find? p).isNone then d.put p .folder else d

def install (d : Disk) (path content : Text) (second : Int) : Disk :=
  ((above (d.spelled path)).foldl ensureFolder d).put (d.spelled path)
    (.file content (.second second))

def installFolder (d : Disk) (path : Text) : Disk :=
  ensureFolder ((above (d.spelled path)).foldl ensureFolder d) (d.spelled path)

def uninstall (d : Disk) (path : Text) : Disk :=
  match d.resolve path with
  | .ok p => d.dropAll p
  | .error _ => d

def empty : Disk := { entries := [(["work"], .folder)], work := ["work"] }

def workPath (d : Disk) : Text := "/" ++ Text.join "/" d.work

end Disk
end HeaderBridge
