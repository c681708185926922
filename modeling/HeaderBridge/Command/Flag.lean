import HeaderBridge.Datum
import HeaderBridge.Duration
import HeaderBridge.Text.Row

namespace HeaderBridge

inductive FlagKind
  | switch
  | text
  | texts
  | number
  | duration
deriving Repr, DecidableEq

structure Flag where
  name : Text
  letter : Option UInt8 := none
  kind : FlagKind
deriving Repr, DecidableEq

inductive Given
  | switch (on : Bool)
  | text (t : Text)
  | texts (ts : List Text)
  | number (n : Int)
  | duration (n : Int)
deriving Repr, DecidableEq

inductive FlagProblem
  | unknown (name : Text)
  | unknownLetter (letters : Text)
  | malformed (argument : Text)
  | missingValue (name : Text)
  | refused (flag : Flag) (value reason : Text)
  | help
deriving Repr, DecidableEq

namespace Flag

def title (f : Flag) : Text :=
  match f.letter with
  | some b => "-" ++ [b] ++ ", --" ++ f.name
  | none => "--" ++ f.name

/-- The character that stands for a letter that is no flag: itself, or, where it is not ASCII, the
first byte of its spelling. -/
def letterChar (b : UInt8) : Char :=
  if b < 0x80 then Char.ofNat b.toNat else Char.ofNat (0xC0 + b.toNat / 64)

def isTrue (t : Text) : Bool := (["1", "t", "T", "TRUE", "true", "True"] : List Text).contains t

def isFalse (t : Text) : Bool := (["0", "f", "F", "FALSE", "false", "False"] : List Text).contains t

def unread (reader t reason : Text) : Text :=
  "strconv." ++ reader ++ ": parsing " ++ Text.quoted t ++ ": " ++ reason

def accept (f : Flag) (before : Option Given) (t : Text) : Except Text Given :=
  match f.kind with
  | .switch =>
    if isTrue t then .ok (.switch true)
    else if isFalse t then .ok (.switch false)
    else .error (unread "ParseBool" t "invalid syntax")
  | .text => .ok (.text t)
  | .texts =>
    match Row.read t, before with
    | .error p, _ => .error p.text
    | .ok ts, some (.texts more) => .ok (.texts (more ++ ts))
    | .ok ts, _ => .ok (.texts ts)
  | .number =>
    match Text.readInteger t with
    | .ok n => .ok (.number n)
    | .error .malformed => .error (unread "ParseInt" t "invalid syntax")
    | .error .outOfRange => .error (unread "ParseInt" t "value out of range")
  | .duration =>
    match Duration.read t with
    | .ok n => .ok (.duration n)
    | .error p => .error (p.text t)

end Flag

def FlagProblem.text : FlagProblem → Text
  | unknown name => "unknown flag: --" ++ name
  | unknownLetter letters =>
    let c := Flag.letterChar (letters.head?.getD 0)
    "unknown shorthand flag: " ++ Text.quoteWith false '\'' (Text.ofChar c) ++ " in -" ++ letters
  | malformed argument => "bad flag syntax: " ++ argument
  | missingValue name => "flag needs an argument: --" ++ name
  | refused flag value reason =>
    "invalid argument " ++ Text.quoted value ++ " for " ++ Text.quoted flag.title ++
      " flag: " ++ reason
  | help => "pflag: help requested"

/-- Arguments that have been read: the flags that are given, and all else. -/
structure Arguments where
  given : List (Text × Given) := []
  rest : List Text := []
deriving Repr, DecidableEq

namespace Arguments

def get? (a : Arguments) (name : Text) : Option Given := a.given.lookup name

def isOn (a : Arguments) (name : Text) : Bool := a.get? name == some (.switch true)

def set (a : Arguments) (f : Flag) (t : Text) : Except FlagProblem Arguments :=
  match f.accept (a.get? f.name) t with
  | .ok v => .ok { a with given := (f.name, v) :: a.given.filter (·.1 != f.name) }
  | .error reason => .error (.refused f t reason)

/-- Reads switches given by letters. A letter may be set with `=`, and letters that begin with
`test.` are passed over. -/
def readLetters (flags : List Flag) : Arguments → Text → Except FlagProblem Arguments
  | a, [] => .ok a
  | a, b :: rest =>
    if List.isPrefixOf "test." (b :: rest) then .ok a
    else match flags.find? (·.letter == some b) with
      | none => .error (if b == 'h' then .help else .unknownLetter (b :: rest))
      | some f =>
        match rest with
        | c :: d :: more =>
          if c == '=' then a.set f (d :: more) else do readLetters flags (← a.set f "true") rest
        | _ => do readLetters flags (← a.set f "true") rest

def readFrom (flags : List Flag) : Arguments → List Text → Except FlagProblem Arguments
  | a, [] => .ok a
  | a, t :: more =>
    let positional := { a with rest := a.rest ++ [t] }
    match t with
    | [] | [_] => readFrom flags positional more
    | dash :: second :: body =>
      if dash != '-' then readFrom flags positional more
      else if second != '-' then do readFrom flags (← readLetters flags a (second :: body)) more
      else if body.isEmpty then .ok { a with rest := a.rest ++ more }
      else if body.head? == some '-' || body.head? == some '=' then .error (.malformed t)
      else
        let name := body.takeWhile (· != ('=' : Char).toUInt8)
        let value := body.dropWhile (· != ('=' : Char).toUInt8)
        match flags.find? (·.name == name) with
        | none => .error (if name == ("help" : Text) then .help else .unknown name)
        | some f =>
          if !value.isEmpty then do readFrom flags (← a.set f value.tail) more
          else if f.kind == .switch then do readFrom flags (← a.set f "true") more
          else match more with
            | [] => .error (.missingValue name)
            | v :: more => do readFrom flags (← a.set f v) more

def read (flags : List Flag) (args : List Text) : Except FlagProblem Arguments :=
  readFrom flags {} args

end Arguments

def Given.datum : Given → Datum
  | switch on => .bool on
  | text t => .text t
  | texts ts => .list (((Row.read (Row.write ts)).toOption.getD []).map .text)
  | number n => .int n
  | duration n => .int n

end HeaderBridge
