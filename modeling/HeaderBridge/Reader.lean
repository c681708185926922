import HeaderBridge.Disk

namespace HeaderBridge

structure Cached where
  value : Text
  stamp : Stamp
  size : Nat
deriving Repr, DecidableEq

structure Cache where
  items : List (Text × Cached) := []
deriving Repr, DecidableEq

namespace Cache

def size (c : Cache) : Nat := c.items.length

def erase (c : Cache) (key : Text) : Cache := ⟨c.items.filter (·.1 != key)⟩

def mark : Entry → Stamp × Nat
  | .file content stamp => (stamp, content.length)
  | .folder => (.moment 0, 4096)

/-- The value of a key, if the file at `path` has not changed since it was remembered. -/
def get (c : Cache) (d : Disk) (key path : Text) : Option Text × Cache :=
  match c.items.lookup key with
  | none => (none, c)
  | some item =>
    match d.stat path with
    | .ok e =>
      if mark e == (item.stamp, item.size) then (some item.value, c) else (none, c.erase key)
    | .error _ => (none, c.erase key)

def set (c : Cache) (d : Disk) (key value path : Text) : Except DiskError Cache := do
  let e ← d.stat path
  return ⟨(c.erase key).items ++ [(key, ⟨value, (mark e).1, (mark e).2⟩)]⟩

/-- The remembered value, else what `load` yields. A loaded value is remembered if the file is
there; a failed load leaves nothing behind. -/
def getOrLoad (c : Cache) (d : Disk) (key path : Text) (load : Except ε Text) :
    Except ε Text × Cache :=
  match c.get d key path with
  | (some value, c) => (.ok value, c)
  | (none, c) =>
    match load with
    | .error e => (.error e, c)
    | .ok value =>
      match c.set d key value path with
      | .ok c => (.ok value, c)
      | .error _ => (.ok value, c)

end Cache

/-- A cache of file contents, the keys being clean paths. -/
structure Reader where
  cache : Cache := {}
deriving Repr, DecidableEq

namespace Reader

/-- Paths with two dots in a row are refused, unless they start with them. -/
def isTraversal (path : Text) : Bool := Text.hasBlock ".." path && !Path.up.isPrefixOf path

def check (d : Disk) (path : Text) : Except Fault Text :=
  if path.isEmpty then
    .error (.fileSystem "read" path (some (.refused ⟨"filePath", .text path, "cannot be empty"⟩)))
  else
    let cleaned := Path.clean path
    if isTraversal cleaned then
      .error <| .ofNotice <|
        Notice.note { code := .fileSystem, message := "path traversal not allowed in file path: " ++
          path } "path" (.text path)
    else match d.stat cleaned with
      | .error e => .error (.fileSystem "stat" cleaned (some (e.fault "stat" cleaned)))
      | .ok .folder => .error <| .ofNotice <|
          Notice.note { code := .fileSystem, message := "expected a file but found a directory: " ++
            cleaned } "path" (.text cleaned)
      | .ok (.file _ _) => .ok cleaned

def load (d : Disk) (path : Text) : Except Fault Text :=
  match d.read path with
  | .ok content => .ok content
  | .error e => .error (.fileSystem "read" path (some (e.fault "open" path)))

def read (r : Reader) (d : Disk) (path : Text) : Except Fault Text × Reader :=
  match check d path with
  | .error e => (.error e, r)
  | .ok path =>
    let (result, cache) := r.cache.getOrLoad d path path (load d path)
    (result, ⟨cache⟩)

def forget (r : Reader) (path : Text) : Reader := ⟨r.cache.erase (Path.clean path)⟩

def size (r : Reader) : Nat := r.cache.size

end Reader
end HeaderBridge
