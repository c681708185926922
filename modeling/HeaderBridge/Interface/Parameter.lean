import HeaderBridge.Interface.Signature
import HeaderBridge.Source.Token

namespace HeaderBridge

/-- Words that end a type and never name anything. -/
def typeKeywords : List Text :=
  ["void", "bool", "char", "wchar_t", "char8_t", "char16_t", "char32_t", "short", "int", "long",
   "float", "double", "signed", "unsigned", "auto", "const", "volatile", "struct", "class", "enum",
   "union", "typename"]

/-- Words that may stand before a type name without making it the name of a parameter. -/
def typeElaborators : List Text :=
  ["const", "volatile", "struct", "class", "enum", "union", "typename"]

def isUsableName (name : Text) : Bool := !typeKeywords.contains name

/-- How many brackets of each kind are open. A `<` opens only right after an identifier. When
defaults are read literally, `<` and `>` inside a default argument are operators. -/
structure Nesting where
  paren : Int := 0
  square : Int := 0
  brace : Int := 0
  angle : Int := 0
  literal : Bool := false
  inDefault : Bool := false
deriving Repr, DecidableEq

namespace Nesting

def isTop (n : Nesting) : Bool := n.paren ≤ 0 && n.square ≤ 0 && n.brace ≤ 0 && n.angle ≤ 0

def step (n : Nesting) (prev : Option Token) (t : Token) : Nesting :=
  match t.sign? with
  | some '(' => { n with paren := n.paren + 1 }
  | some ')' => { n with paren := n.paren - 1 }
  | some '[' => { n with square := n.square + 1 }
  | some ']' => { n with square := n.square - 1 }
  | some '{' => { n with brace := n.brace + 1 }
  | some '}' => { n with brace := n.brace - 1 }
  | some '=' => { n with inDefault := n.inDefault || n.literal && n.isTop }
  | some '<' =>
    if !n.inDefault && prev.any Token.isIdent then { n with angle := n.angle + 1 } else n
  | some '>' => if !n.inDefault && n.angle > 0 then { n with angle := n.angle - 1 } else n
  | _ => n

end Nesting

namespace Parameter

/-- Splits at commas outside all brackets, and tells how the nesting ends. -/
def splitCommas : Nesting → Option Token → List Token → List (List Token) × Nesting
  | n, _, [] => ([[]], n)
  | n, prev, t :: ts =>
    if t.isPunct ',' && n.isTop then
      let r := splitCommas { n with inDefault := false } (some t) ts
      ([] :: r.1, r.2)
    else
      let r := splitCommas (n.step prev t) (some t) ts
      (r.1.modifyHead (t :: ·), r.2)

/-- The written parameters. A `<` left open at the end was a comparison in a default argument, so
the list is split again with defaults read literally. -/
def segments (ts : List Token) : List (List Token) :=
  let r := splitCommas {} none ts
  if r.2.angle > 0 then (splitCommas { literal := true } none ts).1 else r.1

def splitDefault : Nesting → Option Token → List Token → List Token × Option (List Token)
  | _, _, [] => ([], none)
  | n, prev, t :: ts =>
    if t.isPunct '=' && n.isTop then ([], some ts)
    else
      let r := splitDefault (n.step prev t) (some t) ts
      (t :: r.1, r.2)

/-- The tokens of a declaration around its name. -/
structure Named where
  before : List Token
  name : Token
  after : List Token

/-- Drops bracketed groups from the front of a reversed token list; `none` if one is never
opened. -/
def dropBounds : Nat → List Token → Option (List Token)
  | 0, [] => some []
  | _ + 1, [] => none
  | 0, t :: ts => if t.isPunct ']' then dropBounds 1 ts else some (t :: ts)
  | depth + 1, t :: ts =>
    if t.isPunct ']' then dropBounds (depth + 2) ts
    else if t.isPunct '[' then dropBounds depth ts
    else dropBounds (depth + 1) ts

/-- Whether `last`, after the tokens `before`, names the parameter and does not end its type:
`const Widget` and `struct Foo` are types without a name. -/
def isTrailingName (before : List Token) (last : Token) : Bool :=
  isUsableName last.text && !before.getLast?.any (·.kind == .scope) &&
    before.any fun t => !(t.isIdent && typeElaborators.contains t.text)

def groupName? (inner : List Token) : Option (List Token × Token) :=
  match inner.head?, inner.reverse with
  | some first, last :: prev :: more =>
    if (first.isPunct '*' || first.isPunct '&') && last.isIdent && isUsableName last.text &&
        prev.kind != .scope then
      some ((prev :: more).reverse, last)
    else none
  | _, _ => none

/-- The name in the first group outside all brackets; `seen` are the tokens before, reversed. -/
def groupedFrom : Nesting → List Token → List Token → Option Named
  | _, _, [] => none
  | n, seen, t :: ts =>
    if t.isPunct '(' && n.isTop then
      match Token.closeParen 0 ts with
      | none => none
      | some (inner, after) =>
        (groupName? inner).map fun g => ⟨seen.reverse ++ t :: g.1, g.2, after⟩
    else groupedFrom (n.step seen.head? t) (t :: seen) ts

/-- The name of a function pointer or array reference, as in `void (*cb)(int)` or `int (&v)[4]`. -/
def groupedName : List Token → Option Named
  | [] => none
  | t :: ts => groupedFrom {} [t] ts

/-- The name is the last identifier, the one before trailing array bounds, or the one in a group. -/
def findName (decl : List Token) : Option Named :=
  match dropBounds 0 decl.reverse with
  | none => none
  | some [] => groupedName decl
  | some (last :: seen) =>
    if !last.isIdent then groupedName decl
    else if isTrailingName seen.reverse last then
      some ⟨seen.reverse, last, decl.drop (seen.length + 1)⟩
    else none

def ofTokens (source : Text) (ts : List Token) : Parameter :=
  let cut := splitDefault {} none ts
  let decl := cut.1
  let default := (cut.2.map (Token.spanText source)).getD []
  match findName decl with
  | none => { type := Token.spanText source decl, default }
  | some found =>
    { type := Token.spanText source found.before ++ Token.spanText source found.after
      name := found.name.text
      default
      declarator := if found.after.isEmpty then [] else Token.spanText source decl }

/-- A list that is only the word `void` has no parameters. -/
def isVoidList : List Token → Bool
  | [t] => t.isWord "void"
  | _ => false

def listOfTokens (source : Text) (ts : List Token) : List Parameter :=
  if ts.isEmpty || isVoidList ts then [] else (segments ts).map (ofTokens source)

end Parameter
end HeaderBridge
