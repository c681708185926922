import HeaderBridge.Reader
import HeaderBridge.Template.Pair

namespace HeaderBridge.Template

inductive Drawer
  | memory (templates : List (Text × Text))
  | folder (path : Text)
deriving Repr, DecidableEq

abbrev Shelf := List Drawer

inductive Miss
  | absent (name : Text)
  | unreadable (name : Text) (cause : Fault)
deriving Repr

def Miss.isAbsent : Miss → Bool
  | absent _ => true
  | unreadable _ _ => false

def Miss.fault : Miss → Fault
  | absent name =>
    .coded (.template name "load" "no such template") (some (.ofText "template not found"))
  | unreadable name cause => .template name "load" (some cause)

namespace Drawer

/-- Looks a template up. In a folder it is a file of that name; a name with a slash or backslash is
none. -/
def get (r : Reader) (d : Disk) (name : Text) : Drawer → Except Miss Text × Reader
  | memory ts =>
    match ts.lookup name with
    | some t => (.ok t, r)
    | none => (.error (.absent name), r)
  | folder path =>
    if name.isEmpty || name.contains '/' || name.contains '\\' then (.error (.absent name), r)
    else
      let file := Path.join [path, name]
      if d.stat file matches .error .notFound then (.error (.absent name), r)
      else match r.read d file with
        | (.ok t, r) => (.ok t, r)
        | (.error e, r) => (.error (.unreadable name e), r)

def isTemplateName (name : Text) : Bool :=
  declarationSuffix.isSuffixOf name || definitionSuffix.isSuffixOf name

def names (d : Disk) : Drawer → Except Fault (List Text)
  | memory ts => .ok (ts.map Prod.fst)
  | folder path =>
    match d.list path with
    | .error e => .error (.fileSystem "list" path (some (e.fault "open" path)))
    | .ok ns => .ok (ns.filter fun n => isTemplateName n && !d.isFolder (path ++ "/" ++ n))

end Drawer

namespace Shelf

/-- The built-in pairs. -/
def builtIn : Shelf :=
  [.memory (Pair.builtIn.flatMap fun p =>
    [(declarationName p.name, p.declaration), (definitionName p.name, p.definition)])]

def withFolder (path : Text) : Shelf := if path.isEmpty then builtIn else .folder path :: builtIn

/-- The template in the first drawer that has it. A drawer that has it but cannot read it ends the
search. -/
def get (r : Reader) (d : Disk) (name : Text) : Shelf → Except Miss Text × Reader
  | [] => (.error (.absent name), r)
  | drawer :: rest =>
    match drawer.get r d name with
    | (.ok t, r) => (.ok t, r)
    | (.error (.absent _), r) => get r d name rest
    | (.error e, r) => (.error e, r)

def names (d : Disk) (s : Shelf) : Except Fault (List Text) := do
  let found ← s.mapM (Drawer.names d)
  return Text.sort found.flatten.eraseDups

def pairs (d : Disk) (s : Shelf) : Except Fault (List Text) := do
  let names ← s.names d
  return names.filterMap fun n => (Text.before? declarationSuffix n).filter fun p => names.contains
    (definitionName p)

def pair (r : Reader) (d : Disk) (s : Shelf) (name : Text) : Except Miss (Text × Text) × Reader :=
  match s.get r d (declarationName name) with
  | (.error e, r) => (.error e, r)
  | (.ok declaration, r) =>
    match s.get r d (definitionName name) with
    | (.error e, r) => (.error e, r)
    | (.ok definition, r) => (.ok (declaration, definition), r)

end Shelf
end HeaderBridge.Template
