import HeaderBridge.Text

namespace HeaderBridge

structure Parameter where
  type : Text
  name : Text := []
  default : Text := []
  /-- The whole declaration where the name sits inside the type, as in `int v[4]`; else empty. -/
  declarator : Text := []
deriving Repr, DecidableEq, Inhabited

namespace Parameter

def declaration (p : Parameter) : Text :=
  if !p.declarator.isEmpty then p.declarator
  else if !p.name.isEmpty then p.type ++ " " ++ p.name
  else p.type

def render (withDefault : Bool) (p : Parameter) : Text :=
  if withDefault && !p.default.isEmpty then p.declaration ++ " = " ++ p.default else p.declaration

end Parameter

structure Method where
  returnType : Text
  name : Text
  parameters : List Parameter := []
  isConst : Bool := false
  isNoexcept : Bool := false
  line : Int := 0
deriving Repr, DecidableEq, Inhabited

namespace Method

def parameterList (withDefaults : Bool) (m : Method) : Text :=
  Text.join ", " (m.parameters.map (Parameter.render withDefaults))

def qualifiers (m : Method) : Text :=
  (if m.isConst then (" const" : Text) else []) ++
    (if m.isNoexcept then (" noexcept" : Text) else [])

def signature (m : Method) : Text :=
  m.returnType ++ " " ++ m.name ++ "(" ++ m.parameterList true ++ ")" ++ m.qualifiers

end Method

structure Interface where
  name : Text
  /-- The keyword it is declared with, `class` or `struct`. -/
  kind : Text := []
  /-- The enclosing namespaces, outermost first, joined by `::`. -/
  scope : Text := []
  file : Text := []
  line : Int := 0
  methods : List Method := []
deriving Repr, DecidableEq, Inhabited

namespace Interface

def classKey (i : Interface) : Text := i.kind.orElse "class"

def qualifiedName (i : Interface) : Text :=
  if i.scope.isEmpty then i.name else i.scope ++ "::" ++ i.name

end Interface
end HeaderBridge
