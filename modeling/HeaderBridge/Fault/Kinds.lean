import HeaderBridge.Text.Quoted
import HeaderBridge.Fault

namespace HeaderBridge

def excerptLimit : Nat := 40

def excerpt (t : Text) : Text :=
  let cs := Text.chars t
  if cs.length ≤ excerptLimit then Text.ofChars cs else Text.ofChars (cs.take excerptLimit) ++ "..."

namespace Notice

def invalidStart (index : Int) (found : Text) : Notice :=
  { code := .invalidStart
    message := "scan must start at an opening brace, found " ++ Text.quoted found ++
      " at offset " ++ Text.ofInt index
    context := [("offset", .int index)] }

def unbalanced (offset : Int) (region : Text) : Notice :=
  { code := .unbalanced
    message := "unbalanced braces: scope opened at offset " ++ Text.ofInt offset ++
      " is never closed"
    context := [("offset", .int offset), ("region", .text (excerpt region))]
    hints := ["Check for a missing '\x7d' after the class body"] }

def noInterface : Notice :=
  { code := .noInterface
    message := "no abstract class found, nothing to generate"
    hints := ["The header must declare a class (or a struct with virtual methods)",
      "Forward declarations and enums are ignored"] }

def noPureVirtual (className : Text) : Notice :=
  { code := .noPureVirtual
    message := "class '" ++ className ++ "' declares no pure virtual methods"
    context := [("class", .text className)]
    hints := ["Declare methods as 'virtual <type> <name>(<params>) = 0;'"] }

/-- The parameter at `index`, counted from 0, has no name to forward it by. -/
def unforwardable (method declaration : Text) (index : Int) : Notice :=
  { code := .unforwardable
    message := "method '" ++ method ++ "' has an unnamed parameter #" ++ Text.ofInt (index + 1) ++
      " and cannot be forwarded"
    context :=
      [("method", .text method), ("declaration", .text declaration),
        ("parameter_index", .int index)]
    hints := ["Give every parameter a name in the interface declaration"] }

/-- The output `path` is already claimed by the header `owner`. -/
def collision (path owner header : Text) : Notice :=
  { code := .generation
    message := "output '" ++ path ++ "' is already generated from '" ++ owner ++ "'"
    context := [("path", .text path), ("owner", .text owner), ("header", .text header)]
    hints := ["Rename one of the interfaces",
      "Generate next to each header by leaving output_dir unset"] }

def template (name stage problem : Text) : Notice :=
  { code := .template
    message := "template error in '" ++ name ++ "' during " ++ stage ++ ": " ++ problem
    context := [("template", .text name), ("stage", .text stage)] }

def configuration (key problem : Text) : Notice :=
  { code := .configuration
    message := "configuration error in '" ++ key ++ "': " ++ problem
    context := [("key", .text key)] }

end Notice

namespace Fault

def ofNotice (n : Notice) : Fault := coded n none

instance noticeToFault : Coe Notice Fault := ⟨ofNotice⟩

/-- What names no file yet is put into the given one, even into none. -/
theorem inFile_ofNotice {n : Notice} (h : n.location.file = []) (file : Text) :
    (ofNotice n).inFile file = ofNotice (n.inFile file) := by
  unfold inFile ofNotice
  dsimp only
  split
  · rename_i hempty
    rw [List.isEmpty_iff.1 hempty, Notice.inFile, ← h]
  · rfl

def ofText (t : Text) : Fault := plain t none

/-- Stands for a reason that is not told. -/
def untold : Fault := ofText "<cause>"

def generating (item : Text) (cause : Option Fault) : Fault :=
  coded { code := .generation
          message := "failed to generate " ++ item
          context := [("item", .text item)] } cause

def fileSystem (operation path : Text) (cause : Option Fault) : Fault :=
  coded { code := .fileSystem
          message := "failed to " ++ operation ++ " file '" ++ path ++ "'"
          context := [("operation", .text operation), ("path", .text path)] } cause

def template (name stage : Text) (cause : Option Fault) : Fault :=
  coded { code := .template
          message := "failed to " ++ stage ++ " template '" ++ name ++ "'"
          context := [("template", .text name), ("stage", .text stage)] } cause

def configuration (source operation : Text) (cause : Option Fault) : Fault :=
  coded { code := .configuration
          message := "failed to " ++ operation ++ " configuration '" ++ source ++ "'"
          context := [("source", .text source), ("operation", .text operation)] } cause

end Fault
end HeaderBridge
