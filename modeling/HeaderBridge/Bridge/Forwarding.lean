import HeaderBridge.Bridge.Fallback
import HeaderBridge.Bridge.Naming
import HeaderBridge.Interface.Signature

namespace HeaderBridge

/-- A parameter that cannot be forwarded, because it has no name. -/
structure Unforwardable where
  method : Method
  index : Nat
deriving Repr, DecidableEq

namespace Method

def declaration (m : Method) : Text := m.signature ++ ";"

def unnamed? (m : Method) : Option Nat := m.parameters.findIdx? (·.name.isEmpty)

def callText (m : Method) : Text :=
  "impl_->" ++ m.name ++ "(" ++ Text.join ", " (m.parameters.map Parameter.name) ++ ")"

def call (m : Method) : Except Unforwardable Text :=
  match m.unnamed? with
  | some index => .error ⟨m, index⟩
  | none => .ok m.callText

/-- The statements around a call. A reference cannot bind a temporary, so its fallback outlives the
call. -/
def bodyText (style : Style) (m : Method) (call : Text) : Text :=
  match style with
  | .direct => if isVoid m.returnType then call ++ ";" else "return " ++ call ++ ";"
  | .guarded =>
    if isVoid m.returnType then "if (impl_) \x7b\n    " ++ call ++ ";\n\x7d"
    else if isReference m.returnType then
      let result : Text :=
        if isRvalueReference m.returnType then "std::move(fallback)" else "fallback"
      "if (impl_) \x7b\n    return " ++ call ++ ";\n\x7d\nstatic std::decay_t<" ++
        Text.collapse m.returnType ++ "> fallback\x7b\x7d;\nreturn " ++ result ++ ";"
    else "return impl_ ? " ++ call ++ " : " ++ fallbackValue m.returnType ++ ";"

def body (style : Style) (m : Method) : Except Unforwardable Text := (bodyText style m) <$> m.call

/-- The head of the definition outside the class; default arguments stand on the declaration
only. -/
def definitionHead (bridge : Text) (m : Method) : Text :=
  m.returnType ++ " " ++ bridge ++ "::" ++ m.name ++ "(" ++ m.parameterList false ++ ")" ++
    m.qualifiers

def indent (t : Text) : Text :=
  Text.join "\n" ((Text.lines t).map fun line => if line.isEmpty then line else "    " ++ line)

def definition (bridge : Text) (style : Style) (m : Method) : Except Unforwardable Text :=
  (fun body => m.definitionHead bridge ++ " \x7b\n" ++ indent body ++ "\n\x7d") <$> m.body style

end Method

def Unforwardable.notice (u : Unforwardable) : Notice :=
  (Notice.unforwardable u.method.name u.method.declaration u.index).placed { line := u.method.line }

end HeaderBridge
