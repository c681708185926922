import HeaderBridge.Bridge.Forwarding
import HeaderBridge.Path
import HeaderBridge.Template.Fill
import HeaderBridge.Text.Case
import HeaderBridge.Text.Category

namespace HeaderBridge

structure Bridge where
  name : Text
  interface : Interface
  /-- The member declarations, in the order of the methods. -/
  declarations : List Text
  /-- The member definitions, in the order of the methods. -/
  definitions : List Text
deriving Repr, DecidableEq

def Interface.forwardDeclaration (i : Interface) : Text :=
  let declaration := i.classKey ++ " " ++ i.name ++ ";"
  if i.scope.isEmpty then declaration
  else "namespace " ++ i.scope ++ " \x7b\n" ++ declaration ++ "\n\x7d"

namespace Bridge

/-- The include guard of a header: letters in upper case, digits, and underscores for all else. -/
def guardMacro (name : Text) : Text :=
  Text.ofChars ((Text.chars name).map fun c =>
    if Text.isLetter c || Text.isDigit c then Text.upperChar c else '_') ++ "_H"

structure Member where
  name : Text
  declaration : Text
  definition : Text
deriving Repr, DecidableEq

/-- What a template can say about a bridge. -/
structure Data where
  bridgeName : Text
  interfaceName : Text
  qualifiedInterfaceName : Text
  scope : Text
  forwardDeclaration : Text
  interfaceHeader : Text
  bridgeHeader : Text
  guardMacro : Text
  /-- The declarations indented for a class body, one a line. -/
  methodDeclarations : Text
  methodDefinitions : Text
  members : List Member
deriving Repr, DecidableEq

def defaultExtension : Text := ".h"

def members (b : Bridge) : List Member :=
  (b.interface.methods.zip (b.declarations.zip b.definitions)).map
    fun (m, declaration, definition) => ⟨m.name, declaration, definition⟩

def data (b : Bridge) (headerExtension : Text) : Data :=
  let extension := headerExtension.orElse defaultExtension
  let i := b.interface
  { bridgeName := b.name
    interfaceName := i.name
    qualifiedInterfaceName := i.qualifiedName
    scope := i.scope
    forwardDeclaration := i.forwardDeclaration
    interfaceHeader := if i.file.isEmpty then i.name ++ extension else Path.base i.file
    bridgeHeader := b.name ++ extension
    guardMacro := guardMacro b.name
    methodDeclarations := Text.join "\n" (b.declarations.map ("    " ++ ·))
    methodDefinitions := Text.join "\n\n" b.definitions
    members := b.members }

end Bridge

def Bridge.Member.typeName : Text := "templates.MethodData"

open Template in
def Bridge.Member.value (m : Bridge.Member) : Value :=
  .record typeName
    [("Name", .text m.name), ("Declaration", .text m.declaration),
      ("Definition", .text m.definition)]

open Template in
def Bridge.Data.value (d : Bridge.Data) : Value :=
  .record "templates.Data"
    [("BridgeName", .text d.bridgeName), ("InterfaceName", .text d.interfaceName),
     ("QualifiedInterfaceName", .text d.qualifiedInterfaceName), ("Namespace", .text d.scope),
     ("ForwardDeclaration", .text d.forwardDeclaration),
     ("InterfaceHeader", .text d.interfaceHeader), ("BridgeHeader", .text d.bridgeHeader),
     ("GuardMacro", .text d.guardMacro), ("MethodDeclarations", .text d.methodDeclarations),
     ("MethodDefinitions", .text d.methodDefinitions),
     ("Methods", .list { element := Bridge.Member.typeName, absent := d.members.isEmpty }
       (d.members.map Bridge.Member.value) [])]

def Bridge.emit (b : Bridge) (headerExtension declarationTemplate definitionTemplate : Text) :
    Except Fault (Text × Text) := do
  let data := b.data headerExtension
  let declaration ← Template.fill data.bridgeHeader declarationTemplate data.value
  let definition ← Template.fill (b.name ++ " definition") definitionTemplate data.value
  return (declaration, definition)

end HeaderBridge
