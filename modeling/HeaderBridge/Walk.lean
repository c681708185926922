import HeaderBridge.Glob
import HeaderBridge.Reader

namespace HeaderBridge

/-- The mark of generated files: the ending of the name and the start of the content. -/
structure Hallmark where
  marker : Text
  endings : List Text
deriving Repr, DecidableEq

namespace Hallmark

/-- Whether a name ends like that of a generated file; an ending alone is no name. -/
def fits (h : Hallmark) (name : Text) : Bool :=
  h.endings.any fun e => e.isSuffixOf name && e.length < name.length

/-- Whether a file is a generated one. Its content is read only if its name fits. -/
def bears (h : Hallmark) (r : Reader) (d : Disk) (path name : Text) : Bool × Reader :=
  if h.fits name then
    match r.read d path with
    | (.ok content, r) => (h.marker.isPrefixOf content, r)
    | (.error _, r) => (false, r)
  else (false, r)

def select (h : Hallmark) (wanted : Bool) (d : Disk) : List Disk.Visit → Reader →
    List Disk.Visit × Reader
  | [], r => ([], r)
  | v :: vs, r =>
    let (marked, r) := h.bears r d v.path v.name
    let (rest, r) := h.select wanted d vs r
    (if marked = wanted then v :: rest else rest, r)

end Hallmark

namespace Walk

/-- Whether a file below `root` matches one of the patterns to include and none of those to
exclude. -/
def isWanted (root : Text) (included excluded : List Text) (v : Disk.Visit) : Bool :=
  let path := Path.relative root v.path
  !v.isFolder && Glob.anyMatches included path && !Glob.anyMatches excluded path

def isHidden (name : Text) : Bool :=
  name.head? == some '.' && name != Path.here && name != Path.up

/-- Whether a folder is entered: the root always, others unless they are hidden or excluded. -/
def isEntered (root : Text) (excluded : List Text) (v : Disk.Visit) : Bool :=
  !v.isFolder || Path.clean v.path == Path.clean root ||
    (!isHidden v.name && !Glob.anyMatches excluded (Path.relative root v.path ++ "/"))

/-- Whether a folder is the root itself. -/
def isRoot (root : Text) (v : Disk.Visit) : Bool := Path.clean v.path == Path.clean root

def files (d : Disk) (enter : Disk.Visit → Bool) (root : Text) : Except Fault (List Disk.Visit) :=
  match d.walk enter root with
  | .ok vs => .ok (vs.filter (!·.isFolder))
  | .error e => .error (.fileSystem "walk" root (some (e.fault "lstat" root)))

def paths (vs : List Disk.Visit) : List Text := Text.sort (vs.map (·.path))

@[simp] theorem mem_paths {path : Text} {vs : List Disk.Visit} :
    path ∈ paths vs ↔ ∃ v ∈ vs, v.path = path := by
  rw [paths, Text.mem_sort, List.mem_map]

end Walk
end HeaderBridge
