import HeaderBridge.Bridge.Generate

namespace HeaderBridge.Output

def stagingName (name : Text) (n : Nat) : Text := "." ++ name ++ "." ++ Text.ofNat n ++ ".tmp"

/-- How the random number of a staging name comes about, for a file that is staged in a folder. -/
abbrev Draw := Disk → Place → Text → Nat

/-- Where the search for a free number begins. Any number would do. -/
def firstNumber : Nat := 2463534242

/-- A number that gives a staging name which is not in the folder yet. -/
def freshNumber : Draw := fun d folder name =>
  let isFree (n : Nat) : Bool := (d.find? (folder ++ [stagingName name n])).isNone
  (((List.range (d.entries.length + 1)).map (firstNumber + ·)).find? isFree).getD firstNumber

def stagingPath (dir name : Text) : Text :=
  (if dir.getLast? == some '/' then dir else dir ++ "/") ++ "." ++ name ++ ".<random>.tmp"

/-- Puts a file into a folder under a staging name. A name with a slash cannot be staged. -/
def stage (draw : Draw) (d : Disk) (dir : Text) (folder : Place) (doc : Document) :
    Except Fault (Place × Disk) :=
  if doc.name.contains '/' then
    .error (.fileSystem "create" (Path.join [dir, doc.name])
      (some (.plain ("createtemp ." ++ doc.name ++ ".*.tmp")
        (some (.ofText "pattern contains path separator")))))
  else
    let p := folder ++ [stagingName doc.name (draw d folder doc.name)]
    .ok (p, d.write p doc.content)

def settle (d : Disk) (dir : Text) (staged : Place) (doc : Document) : Except Fault Disk :=
  let target := Path.join [dir, doc.name]
  match d.resolve target >>= d.move staged with
  | .ok d => .ok d
  | .error e => .error (.fileSystem "rename" target
      (some (e.fault ("rename " ++ stagingPath dir doc.name) target)))

def discard (d : Disk) (path : Text) : Disk := (d.remove path).toOption.getD d

/-- Stages and settles both files in a folder that is there. If only the second cannot be settled,
the first is taken away again, since one file alone is no bridge. -/
def writeInto (draw : Draw) (d : Disk) (dir : Text) (folder : Place)
    (declaration definition : Document) : Except Fault Unit × Disk :=
  match stage draw d dir folder declaration with
  | .error f => (.error f, d)
  | .ok (first, d) =>
    match stage draw d dir folder definition with
    | .error f => (.error f, d.drop first)
    | .ok (second, d) =>
      match settle d dir first declaration with
      | .error f => (.error f, (d.drop first).drop second)
      | .ok d =>
        match settle d dir second definition with
        | .error f => (.error f, discard (d.drop second) (Path.join [dir, declaration.name]))
        | .ok d => (.ok (), d)

/-- Writes both files into a folder, which is made if need be; yields their paths. -/
def writeWith (draw : Draw) (d : Disk) (dir : Text) (declaration definition : Document) :
    Except Fault (Text × Text) × Disk :=
  match d.makeFolders (dir.length + 1) dir with
  | (some (path, e), d) =>
    (.error (.fileSystem "create directory" dir (some (e.fault "mkdir" path))), d)
  | (none, d) =>
    match d.resolve dir with
    | .error e => (.error (.fileSystem "create directory" dir (some (e.fault "mkdir" dir))), d)
    | .ok folder =>
      match writeInto draw d dir folder declaration definition with
      | (.error f, d) => (.error f, d)
      | (.ok _, d) =>
        (.ok (Path.join [dir, declaration.name], Path.join [dir, definition.name]), d)

def write : Disk → Text → Document → Document → Except Fault (Text × Text) × Disk :=
  writeWith freshNumber

end HeaderBridge.Output
