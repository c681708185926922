import HeaderBridge.Session

namespace HeaderBridge

inductive Change
  | create
  | write
  | remove
  | rename
  | chmod
deriving Repr, DecidableEq

structure Watcher where
  session : Session
  roots : List Text := []
  watched : List Text := []
  pending : List Text := []
  /-- A batch of settled headers that waits to be worked on; there is room for one. -/
  queued : Option (List Text) := none

namespace Watcher

def tell (w : Watcher) (f : Console → Console) : Watcher := { w with session := w.session.tell f }

def insert (t : Text) (ts : List Text) : List Text := if ts.contains t then ts else ts ++ [t]

def add (w : Watcher) (path : Text) : Watcher :=
  { w.tell (·.debug ("watching " ++ path)) with watched := insert (Path.clean path) w.watched }

def watchTree (w : Watcher) (root : Text) : Except Fault Unit × Watcher :=
  match w.session.disk.walk (Walk.isEntered root w.session.config.excluded) root with
  | .error e => (.error (.fileSystem "watch" root (some (e.fault "lstat" root))), w)
  | .ok visits => (.ok (), ((visits.filter (·.isFolder)).map (·.path)).foldl add w)

def watchInput (w : Watcher) (input : Text) : Except Fault Unit × Watcher :=
  let root := (Text.withoutEnding recursiveSuffix input).orElse Path.here
  match w.session.disk.stat root with
  | .error e => (.error (.fileSystem "watch" root (some (e.fault "stat" root))), w)
  | .ok entry =>
    let root := if entry.isFolder then root else Path.dir root
    match w.watchTree root with
    | (.error f, w) => (.error f, w)
    | (.ok _, w) => (.ok (), { w with roots := w.roots ++ [root] })

def watchInputs (w : Watcher) : List Text → Except Fault Unit × Watcher
  | [] => (.ok (), w)
  | input :: rest =>
    match w.watchInput input with
    | (.error f, w) => (.error f, w)
    | (.ok _, w) => w.watchInputs rest

def watch (w : Watcher) (inputs : List Text) : Except Fault Unit × Watcher :=
  match w.watchInputs inputs with
  | (.error f, w) => (.error f, w)
  | (.ok _, w) =>
    let roots := Text.join ", " w.roots
    (.ok (), w.tell (·.info ("Watching " ++ roots ++ " for header changes (Ctrl+C to stop)")))

/-- Whether a path is a header below one of the roots that bridges are made for. Generated files and
names that start with a dot are not. -/
def isHeader (w : Watcher) (path : Text) : Bool :=
  let c := w.session.config
  !w.session.isGeneratedPath path && (Path.base path).head? != some '.' &&
    w.roots.any fun root =>
      match Path.relative? root path with
      | none => false
      | some p =>
        !Path.up.isPrefixOf p && Glob.anyMatches c.included p && !Glob.anyMatches c.excluded p

/-- Takes note of something that happened. A new folder is watched; a header that was made or
written waits to settle. -/
def handle (w : Watcher) (path : Text) (changes : List Change) : Watcher :=
  if changes.contains .create && w.session.disk.isFolder path then
    match w.watchTree path with
    | (.ok _, w) => w
    | (.error f, w) =>
      w.tell (·.warn ("failed to watch new directory " ++ path ++ ": " ++ f.message))
  else if (changes.contains .create || changes.contains .write) && w.isHeader path then
    { w with pending := insert path w.pending }
  else w

def flush (w : Watcher) : Watcher :=
  if w.pending.isEmpty || w.queued.isSome then w
  else { w with pending := [], queued := some (Text.sort w.pending) }

def take (w : Watcher) : Option (List Text) × Watcher := (w.queued, { w with queued := none })

/-- Makes the bridges of changed headers again; those that are gone do not count. -/
def regenerate (w : Watcher) (cancelled : Bool) (paths : List Text) : Watcher :=
  let s := w.session
  let there := paths.filter fun p => (s.disk.stat p).isOk
  if there.isEmpty then w
  else
    let s := { s with reader := there.foldl Reader.forget s.reader }
    let s := s.tell (·.info ("Change detected in " ++ Text.ofNat there.length ++ " header(s)"))
    match s.process cancelled (there.map (⟨·, false⟩)) with
    | (.ok _, s) => { w with session := s }
    | (.error f, s) =>
      { w with session := s.tell (·.error ("regeneration stopped: " ++ f.message)) }

end Watcher
end HeaderBridge
