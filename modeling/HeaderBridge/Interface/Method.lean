import HeaderBridge.Interface.Parameter
import HeaderBridge.Source.Mask

namespace HeaderBridge
namespace Method

/-- Splits at the `(` that opens the parameter list, which is dropped; template arguments of the
return type are stepped over. -/
def splitParams : Nat → Option Token → List Token → Option (List Token × List Token)
  | _, _, [] => none
  | angle, prev, t :: ts =>
    let step a := (splitParams a (some t) ts).map fun r => (t :: r.1, r.2)
    match t.sign? with
    | some '<' => step (if prev.any Token.isIdent then angle + 1 else angle)
    | some '>' => step (angle - 1)
    | some '(' => if angle = 0 then some ([], ts) else step angle
    | some ';' | some '{' | some '}' | some '=' => none
    | _ => step angle

theorem splitParams_length {angle : Nat} {prev : Option Token} {ts head rest : List Token}
    (h : splitParams angle prev ts = some (head, rest)) : rest.length < ts.length := by
  fun_induction splitParams angle prev ts generalizing head rest <;> grind [Option.map_eq_some_iff]

def takeWord (w : String) : List Token → Bool × List Token
  | [] => (false, [])
  | t :: ts => if t.isWord w then (true, ts) else (false, t :: ts)

theorem takeWord_length (w : String) (ts : List Token) : (takeWord w ts).2.length ≤ ts.length := by
  fun_cases takeWord w ts <;> simp

def afterPureMark : List Token → Option (List Token)
  | a :: b :: c :: rest =>
    if a.isPunct '=' && (b.kind == .number && b.text == ("0" : Text)) && c.isPunct ';' then
      some rest
    else none
  | _ => none

theorem afterPureMark_length {ts rest : List Token} (h : afterPureMark ts = some rest) :
    rest.length < ts.length := by
  fun_cases afterPureMark ts <;> grind [afterPureMark]

/-- Whether `name`, after the token `prev`, can be the name of a method. Destructors and qualified
names cannot. -/
def isMethodName (prev name : Token) : Bool :=
  name.isIdent && !name.isWord "operator" && isUsableName name.text &&
    !(prev.kind == .scope || prev.isPunct '~')

/-- The parts of a declaration after `virtual`. -/
structure Declaration where
  type : List Token
  name : Token
  params : List Token
  isConst : Bool
  isNoexcept : Bool
  rest : List Token

def readTail (ts : List Token) : Option (Bool × Bool × List Token) :=
  let c := takeWord "const" ts
  let n := takeWord "noexcept" c.2
  (afterPureMark n.2).map fun rest => (c.1, n.1, rest)

theorem readTail_length {ts rest : List Token} {c n : Bool} (h : readTail ts = some (c, n, rest)) :
    rest.length < ts.length := by
  simp only [readTail, Option.map_eq_some_iff, Prod.mk.injEq] at h
  obtain ⟨r, hr, _, _, rfl⟩ := h
  have := afterPureMark_length hr
  have := takeWord_length "noexcept" (takeWord "const" ts).2
  have := takeWord_length "const" ts
  omega

/-- Reads one declaration, the tokens starting just after `virtual`. -/
def declaration? (ts : List Token) : Option Declaration :=
  match splitParams 0 none ts with
  | none => none
  | some (head, afterOpen) =>
    match head.reverse with
    | name :: prev :: more =>
      if !isMethodName prev name then none
      else match Token.closeParen 0 afterOpen with
        | none => none
        | some (params, close) =>
          (readTail close.tail).map fun tail =>
            ⟨(prev :: more).reverse, name, params, tail.1, tail.2.1, tail.2.2⟩
    | _ => none

theorem declaration?_length {ts : List Token} {d : Declaration} (h : declaration? ts = some d) :
    d.rest.length < ts.length := by
  unfold declaration? at h
  split at h
  · simp at h
  · rename_i head afterOpen hs
    have hs := splitParams_length hs
    split at h
    · split at h
      · simp at h
      · split at h
        · simp at h
        · rename_i params close hc
          have hc := Token.closeParen_length hc
          simp only [Option.map_eq_some_iff] at h
          obtain ⟨⟨c, n, rest⟩, ht, rfl⟩ := h
          have ht := readTail_length ht
          simp only [List.length_tail] at ht
          dsimp only
          omega
    · simp at h

/-- The method that a declaration describes; `source` is the text of its tokens without comments. -/
def ofDeclaration (source : Text) (line : Nat) (d : Declaration) : Method :=
  { returnType := Token.spanText source d.type
    name := d.name.text
    parameters := Parameter.listOfTokens source d.params
    isConst := d.isConst
    isNoexcept := d.isNoexcept
    line := line }

/-- Collects the declarations outside all braces. A declaration that does not fit is passed over
from its first word on. -/
def collect (source : Text) : Nat → List Token → List Method
  | _, [] => []
  | depth, t :: ts =>
    if t.isPunct '{' then collect source (depth + 1) ts
    else if t.isPunct '}' then collect source (depth - 1) ts
    else if depth = 0 ∧ t.isWord "virtual" then
      match h : declaration? ts with
      | some d =>
        have := declaration?_length h
        ofDeclaration source t.pos.line d :: collect source 0 d.rest
      | none => collect source depth ts
    else collect source depth ts
termination_by _ ts => ts.length
decreasing_by all_goals simp_wf; try omega

/-- The pure virtual methods that a class body declares, in order. -/
def ofBody (body : Text) : List Method :=
  collect (stripComments body) 0 (Token.significant (Token.ofText body))

end Method
end HeaderBridge
