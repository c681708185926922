import HeaderBridge.Regex
import HeaderBridge.Text.Script

namespace HeaderBridge.Regex

structure Modes where
  foldCase : Bool := false
  byLine : Bool := false
  dotAll : Bool := false
deriving Repr, DecidableEq

abbrev Class := Nat → Bool

/-- The class in a mode: with its characters it holds those that differ in case alone, if case is
folded. -/
def Modes.close (modes : Modes) (c : Class) : Class :=
  if modes.foldCase then fun n => (Text.caseSet n).any c else c

def Modes.select (modes : Modes) (negated : Bool) (c : Class) : Class :=
  fun n => modes.close c n != negated

def range (first last : Nat) : Class := fun n => first ≤ n && n ≤ last

def oneOf (s : String) : Class := fun n => s.toList.any (·.toNat == n)

def digit : Class := range 0x30 0x39

def upperLetter : Class := range 0x41 0x5A

def lowerLetter : Class := range 0x61 0x7A

def alpha : Class := fun n => upperLetter n || lowerLetter n

def alnum : Class := fun n => alpha n || digit n

def word : Class := fun n => alnum n || n == 0x5F

/-- The classes that are named by a letter behind a backslash; the upper-case letter negates. -/
def letterClass? (c : Char) : Option (Bool × Class) :=
  match c with
  | 'd' => some (false, digit)
  | 'D' => some (true, digit)
  | 's' => some (false, oneOf "\t\n\x0c\r ")
  | 'S' => some (true, oneOf "\t\n\x0c\r ")
  | 'w' => some (false, word)
  | 'W' => some (true, word)
  | _ => none

def colonClass? (name : List Char) : Option Class :=
  ([("alnum", alnum), ("alpha", alpha), ("ascii", range 0 0x7F), ("blank", oneOf "\t "),
    ("cntrl", fun n => n < 0x20 || n == 0x7F), ("digit", digit), ("graph", range 0x21 0x7E),
    ("lower", lowerLetter), ("print", range 0x20 0x7E),
    ("punct", fun n => range 0x21 0x7E n && !alnum n), ("space", oneOf "\t\n\x0b\x0c\r "),
    ("upper", upperLetter), ("word", word),
    ("xdigit", fun n => digit n || range 0x41 0x46 n || range 0x61 0x66 n)] :
    List (String × Class)).lookup (String.ofList name)

/-- A class named between colons and brackets at the front, and what follows it. The inner result is
none if the name is not known. -/
def readColonClass (modes : Modes) (cs : List Char) : Option (Option Class × List Char) :=
  match cs with
  | '[' :: ':' :: rest =>
    let rec upTo : List Char → Option (List Char × List Char)
      | ':' :: ']' :: rest => some ([], rest)
      | c :: rest => (upTo rest).map fun r => (c :: r.1, r.2)
      | [] => none
    (upTo rest).map fun (name, rest) =>
      match name with
      | '^' :: name => ((colonClass? name).map (modes.select true), rest)
      | name => ((colonClass? name).map (modes.select false), rest)
  | _ => none

/-- A class by the name of a category or a script, read behind the backslash and the letter `p`. -/
def readNamedClass (modes : Modes) (negated : Bool) (cs : List Char) : Option (Class × List Char) :=
  let close (name : List Char) (rest : List Char) : Option (Class × List Char) :=
    let (negated, name) := match name with
      | '^' :: name => (!negated, name)
      | name => (negated, name)
    (Text.classNamed? (String.ofList name)).map fun c => (modes.select negated c, rest)
  match cs with
  | '{' :: rest =>
    if rest.contains '}' then close (rest.takeWhile (· != '}')) (rest.dropWhile (· != '}')).tail
    else none
  | c :: rest => close [c] rest
  | [] => none

/-- A class behind a backslash, read after it. The outer result is none if no class stands there. -/
def readLetterClass (modes : Modes) (cs : List Char) : Option (Option (Class × List Char)) :=
  match cs with
  | 'p' :: rest => some (readNamedClass modes false rest)
  | 'P' :: rest => some (readNamedClass modes true rest)
  | c :: rest => (letterClass? c).map fun (negated, k) => some (modes.select negated k, rest)
  | [] => none

def octalDigit? (c : Char) : Option Nat := if '0' ≤ c && c ≤ '7' then some (c.toNat - 48) else none

def hexDigit? (c : Char) : Option Nat := "0123456789abcdef".toList.idxOf? c.toLower

def readBracedHex (cs : List Char) : Option (Nat × List Char) :=
  let ds := cs.takeWhile (· != '}')
  let n := ds.foldl (fun n c => n.bind fun n => (hexDigit? c).map (n * 16 + ·)) (some 0)
  if ds.isEmpty || !cs.contains '}' then none
  else (n.filter (· ≤ 0x10FFFF)).map (·, (cs.dropWhile (· != '}')).tail)

def readEscape (cs : List Char) : Option (Nat × List Char) :=
  match cs with
  | 'x' :: '{' :: rest => readBracedHex rest
  | 'x' :: a :: b :: rest => do return ((← hexDigit? a) * 16 + (← hexDigit? b), rest)
  | 'a' :: rest => some (7, rest)
  | 'f' :: rest => some (12, rest)
  | 'n' :: rest => some (10, rest)
  | 'r' :: rest => some (13, rest)
  | 't' :: rest => some (9, rest)
  | 'v' :: rest => some (11, rest)
  | c :: rest =>
    match octalDigit? c with
    | some n =>
      let more := (rest.take 2).takeWhile fun d => (octalDigit? d).isSome
      if n != 0 && more.isEmpty then none
      else some (more.foldl (fun n d => n * 8 + (octalDigit? d).getD 0) n, rest.drop more.length)
    | none => if c.toNat < 128 && !c.isAlphanum then some (c.toNat, rest) else none
  | [] => none

def readMember (cs : List Char) : Option (Nat × List Char) :=
  match cs with
  | '\\' :: rest => readEscape rest
  | c :: rest => some (c.toNat, rest)
  | [] => none

def readSpan (modes : Modes) (cs : List Char) : Option (Class × List Char) := do
  let (first, rest) ← readMember cs
  match rest with
  | '-' :: c :: more =>
    if c = ']' then return (modes.select false (range first first), rest)
    let (last, rest) ← readMember (c :: more)
    if last < first then none else return (modes.select false (range first last), rest)
  | rest => return (modes.select false (range first first), rest)

/-- What is in a class up to its closing bracket, and what follows it. The flag says whether a
bracket may be a member still. -/
def readMembers (modes : Modes) : Nat → Bool → List Char → Option (Class × List Char)
  | 0, _, _ => none
  | fuel + 1, first, cs =>
    if cs.head? = some ']' && !first then some (fun _ => false, cs.tail)
    else do
      let letter := match cs with
        | '\\' :: rest => readLetterClass modes rest
        | _ => none
      let (here, rest) ← match readColonClass modes cs, letter with
        | some (k, rest), _ => k.map (·, rest)
        | none, some k => k
        | none, none => readSpan modes cs
      let (more, rest) ← readMembers modes fuel false rest
      return (fun n => here n || more n, rest)

def readClass (modes : Modes) (cs : List Char) : Option (Class × List Char) :=
  match cs with
  | '^' :: cs => (readMembers modes (cs.length + 1) true cs).map fun r => (fun n => !r.1 n, r.2)
  | cs => readMembers modes (cs.length + 1) true cs

end HeaderBridge.Regex
