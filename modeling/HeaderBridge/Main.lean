import HeaderBridge.Command

namespace HeaderBridge.Program

def ofBytes (b : ByteArray) : Text := b.toList

def toBytes (t : Text) : ByteArray := ⟨t.toArray⟩

def toName (t : Text) : String := (String.fromUTF8? (toBytes t)).getD ""

/-- Adds a file, or a folder with all that it holds. Entries that cannot be read are left out. -/
partial def load (place : Place) (d : Disk) (e : IO.FS.DirEntry) : IO Disk := do
  let place := place ++ [Text.ofString e.fileName]
  try
    if ← e.path.isDir then
      (← e.path.readDir).foldlM (load place) (d.put place .folder)
    else
      let content ← IO.FS.readBinFile e.path
      let time ← e.path.metadata
      return d.put place (.file (ofBytes content) (.second time.modified.sec))
  catch _ => return d

def present : IO Disk := do
  let here ← IO.currentDir
  let work := Path.parts (Text.ofString here.toString)
  let bare : Disk := { entries := ((Disk.above work).drop 1 ++ [work]).map (·, .folder), work }
  (← here.readDir).foldlM (load work) bare

def writeBack (before after : Disk) : IO Unit := do
  let old := before.listing
  let new := after.listing
  for (path, content) in new do
    if old.lookup path != some content then
      match content with
      | none => IO.FS.createDirAll (toName path)
      | some content =>
        IO.FS.createDirAll (toName (Path.dir path))
        IO.FS.writeBinFile (toName path) (toBytes content)
  for (path, content) in old do
    if content.isSome && (new.lookup path).isNone then IO.FS.removeFile (toName path)

def environment : IO Environment := do
  let names := ["NO_COLOR", "FORCE_COLOR", "TERM"] ++ Config.flags.map fun f =>
    toName (Config.variableName f.1)
  let found ← names.filterMapM fun n => do
    return (← IO.getEnv n).map fun v => (Text.ofString n, Text.ofString v)
  return found

def printStreams (c : Console) : IO Unit := do
  (← IO.getStdout).write (toBytes c.out)
  (← IO.getStderr).write (toBytes c.err)
  (← IO.getStdout).flush

/-- Looks for changes again and again, and makes the bridges of headers that have changed. -/
partial def follow (w : Watcher) (debounce : Int) : IO Unit := do
  IO.sleep (debounce / Duration.millisecond).toNat.toUInt32
  let disk ← present
  let old := w.session.disk.listing
  let changed := disk.listing.filter fun e => old.lookup e.1 != some e.2
  let w := { w with session.disk := disk }
  let w := changed.foldl
    (fun w e => w.handle e.1 [if (old.lookup e.1).isSome then .write else .create]) w
  let (batch, w) := w.flush.take
  let w := w.regenerate false (batch.getD [])
  writeBack disk w.session.disk
  printStreams w.session.console
  follow (w.tell (·.drained)) debounce

end HeaderBridge.Program

open HeaderBridge in
def main (args : List String) : IO UInt32 := do
  let disk ← Program.present
  let terminal ← (← IO.getStdout).isTty
  let host : Command.Host := { environment := ← Program.environment, terminal }
  let outcome := Command.run host disk (args.map Text.ofString)
  Program.writeBack disk outcome.disk
  Program.printStreams outcome.console
  match outcome.ending with
  | .done => return 0
  | .reported => return 1
  | .refused message =>
    (← IO.getStderr).write (Program.toBytes ("Error: " ++ message ++ "\n"))
    return 1
  | .watching w debounce =>
    Program.follow (w.tell (·.drained)) debounce
    return 0
