import HeaderBridge.Text.Case

namespace HeaderBridge

inductive Regex
  | empty
  | char (accepts : Char → Bool)
  | start
  | finish
  | lineStart
  | lineEnd
  | wordEdge (here : Bool)
  | seq (a b : Regex)
  | alt (a b : Regex)
  | repeat (r : Regex) (least : Nat) (most : Option Nat)

namespace Regex

def isWordChar (c : Char) : Bool := c.isAlphanum || c == '_'

def spread (step : Nat → List Nat) (places : List Nat) : List Nat := (places.flatMap step).eraseDups

/-- All places reachable by any number of steps, at most `fuel` of them. -/
def closure (step : Nat → List Nat) : Nat → List Nat → List Nat
  | 0, seen => seen
  | fuel + 1, seen =>
    let more := (seen ++ spread step seen).eraseDups
    if more.length = seen.length then seen else closure step fuel more

def isWordAt (text : Array Char) (i : Nat) : Bool := (text[i]?).any isWordChar

def ends (text : Array Char) : Regex → Nat → List Nat
  | empty, i => [i]
  | char accepts, i => if (text[i]?).any accepts then [i + 1] else []
  | start, i => if i = 0 then [i] else []
  | finish, i => if i = text.size then [i] else []
  | lineStart, i => if i = 0 || text[i - 1]? == some '\n' then [i] else []
  | lineEnd, i => if i = text.size || text[i]? == some '\n' then [i] else []
  | wordEdge here, i =>
    let before := i != 0 && isWordAt text (i - 1)
    if (before != isWordAt text i) == here then [i] else []
  | seq a b, i => spread (ends text b) (ends text a i)
  | alt a b, i => (ends text a i ++ ends text b i).eraseDups
  | .repeat r least most, i =>
    let step := ends text r
    let first := (List.range least).foldl (fun places _ => spread step places) [i]
    match most with
    | none => closure step (text.size + 1) first
    | some n =>
      (List.range (n - least)).foldl
        (fun places _ => (places ++ spread step places).eraseDups) first

def matches? (r : Regex) (t : Text) : Bool :=
  let text := (Text.chars t).toArray
  (List.range (text.size + 1)).any fun i => !(ends text r i).isEmpty

end Regex
end HeaderBridge
