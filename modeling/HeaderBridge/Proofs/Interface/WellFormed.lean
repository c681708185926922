import HeaderBridge.Proofs.Interface.Nesting
import HeaderBridge.Proofs.Source.Joined

namespace HeaderBridge

def Text.isIdentifier : Text → Bool
  | [] => false
  | a :: t => isNameStart a && t.all isNameByte

namespace Lexeme

/-- What may stand in a field: anything but comments, directives, quotes without a partner and
semicolons. -/
def isPlain (l : Lexeme) : Bool :=
  !l.kind.isComment && l != ⟨.punct, ['"']⟩ && l != ⟨.punct, ['\'']⟩ && l != semicolon

end Lexeme

/-- A text that may be a field of a method: its blanks are folded and it is made of plain
lexemes. -/
structure IsField (u : Text) : Prop where
  folded : Text.collapse u = u
  plain : (Lexeme.ofText u).all Lexeme.isPlain = true
  closed : Lexeme.leavesComment (Lexeme.ofText u) = false

instance (u : Text) : Decidable (IsField u) :=
  decidable_of_iff (Text.collapse u = u ∧ (Lexeme.ofText u).all Lexeme.isPlain = true ∧
      Lexeme.leavesComment (Lexeme.ofText u) = false)
    ⟨fun ⟨folded, plain, closed⟩ => ⟨folded, plain, closed⟩, fun h => ⟨h.folded, h.plain, h.closed⟩⟩

def fieldTokens (u : Text) : List Token := Token.significant (Token.ofText u)

namespace Parameter

/-- Brackets are balanced in the type and in the default argument, a comma or an equals sign of the
type stands inside brackets, and so does a comma of the default argument. The type leaves no doubt
about the name. -/
structure WellFormed (p : Parameter) : Prop where
  declarator : p.declarator = []
  type : IsField p.type
  type_ne_nil : p.type ≠ []
  type_nests : Nesting.covers (fun t => t.isPunct ',' || t.isPunct '=') {} none
      (fieldTokens p.type) = true
  name : if p.name = [] then (findName (fieldTokens p.type)).isNone = true
    else Text.isIdentifier p.name = true ∧
      isTrailingName (fieldTokens p.type) ⟨.ident, p.name, Pos.start⟩ = true
  default : IsField p.default
  default_nests : Nesting.covers (·.isPunct ',') {} none (fieldTokens p.default) = true

instance (p : Parameter) : Decidable p.WellFormed :=
  decidable_of_iff (p.declarator = [] ∧ IsField p.type ∧ p.type ≠ [] ∧
      Nesting.covers (fun t => t.isPunct ',' || t.isPunct '=') {} none (fieldTokens p.type) = true ∧
      (if p.name = [] then (findName (fieldTokens p.type)).isNone = true
        else Text.isIdentifier p.name = true ∧
          isTrailingName (fieldTokens p.type) ⟨.ident, p.name, Pos.start⟩ = true) ∧
      IsField p.default ∧ Nesting.covers (·.isPunct ',') {} none (fieldTokens p.default) = true)
    ⟨fun ⟨h1, h2, h3, h4, h5, h6, h7⟩ => ⟨h1, h2, h3, h4, h5, h6, h7⟩,
      fun h => ⟨h.1, h.2, h.3, h.4, h.5, h.6, h.7⟩⟩

end Parameter

namespace Method

/-- The template brackets that are open behind the tokens of a return type, `none` if a parameter
list or something that belongs to no type starts among them. -/
def angleAfter : Nat → Option Token → List Token → Option Nat
  | angle, _, [] => some angle
  | angle, prev, t :: ts =>
    match t.sign? with
    | some '<' => angleAfter (if prev.any Token.isIdent then angle + 1 else angle) (some t) ts
    | some '>' => angleAfter (angle - 1) (some t) ts
    | some '(' => if angle = 0 then none else angleAfter angle (some t) ts
    | some ';' | some '{' | some '}' | some '=' => none
    | _ => angleAfter angle (some t) ts

/-- A method that can be told from its signature. A list of one unnamed `void` would be read as
empty. -/
structure WellFormed (m : Method) : Prop where
  type : IsField m.returnType
  type_ne_nil : m.returnType ≠ []
  type_nests : angleAfter 0 none (fieldTokens m.returnType) = some 0
  type_end : (fieldTokens m.returnType).getLast?.any (fun t => t.kind == .scope || t.isPunct '~') =
      false
  name : Text.isIdentifier m.name = true
  name_usable : isUsableName m.name = true ∧ m.name ≠ "operator"
  parameters : ∀ p ∈ m.parameters, p.WellFormed
  not_void : m.parameters ≠ [{ type := "void" }]

instance (m : Method) : Decidable m.WellFormed :=
  decidable_of_iff (IsField m.returnType ∧ m.returnType ≠ [] ∧
      angleAfter 0 none (fieldTokens m.returnType) = some 0 ∧
      (fieldTokens m.returnType).getLast?.any (fun t => t.kind == .scope || t.isPunct '~') = false ∧
      Text.isIdentifier m.name = true ∧ (isUsableName m.name = true ∧ m.name ≠ "operator") ∧
      (∀ p ∈ m.parameters, p.WellFormed) ∧ m.parameters ≠ [{ type := "void" }])
    ⟨fun ⟨h1, h2, h3, h4, h5, h6, h7, h8⟩ => ⟨h1, h2, h3, h4, h5, h6, h7, h8⟩,
      fun h => ⟨h.1, h.2, h.3, h.4, h.5, h.6, h.7, h.8⟩⟩

/-- The declaration of a pure virtual method on a line of its own. -/
def declarationLine (m : Method) : Text := "virtual " ++ m.signature ++ " = 0;\n"

end Method

namespace Interface

/-- A class that declares the methods, one on each line. -/
def classText (name : Text) (ms : List Method) : Text :=
  "class " ++ name ++ " \x7b\n" ++ ms.flatMap Method.declarationLine ++ "\x7d;\n"

end Interface
end HeaderBridge
