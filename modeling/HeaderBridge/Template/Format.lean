import HeaderBridge.Template.Verb

namespace HeaderBridge.Template

structure Cursor where
  rest : Text
  next : Nat := 0
  reordered : Bool := false
  sound : Bool := true
  /-- Whether an argument has just been chosen by number. -/
  chosen : Bool := false

/-- Counts in a format stop here. -/
def countLimit : Nat := 1000000

/-- A count and what follows it. A count beyond the limit takes the whole rest with it. -/
def readCount (t : Text) : Option Nat × Text :=
  let ds := t.takeWhile Text.isDigitByte
  let n := ds.foldl
    (fun n d => n.bind fun n => if n > countLimit then none else some (n * 10 + (d.toNat - 48)))
    (some 0)
  if ds.isEmpty then (none, t)
  else match n with
    | some n => (some n, t.drop ds.length)
    | none => (none, [])

/-- The number between brackets, from one, and what follows them. The text starts with the opening
bracket; one without end is passed over alone. -/
def readChoice (t : Text) : Option Nat × Text :=
  let inside := t.tail.takeWhile (· != (']' : Char).toUInt8)
  if t.length < 3 || !t.contains ']' then (none, t.tail)
  else
    let rest := t.drop (inside.length + 2)
    match readCount inside with
    | (some n, []) => (some n, rest)
    | _ => (none, rest)

def Cursor.choose (c : Cursor) (count : Nat) : Cursor :=
  if c.rest.head? != some '[' then { c with chosen := false }
  else match readChoice c.rest with
    | (some n, rest) =>
      if 1 ≤ n && n ≤ count then { c with rest, next := n - 1, reordered := true, chosen := true }
      else { c with rest, reordered := true, sound := false, chosen := true }
    | (none, rest) => { c with rest, reordered := true, sound := false, chosen := false }

def readFlags (f : Flags) : Text → Flags × Text
  | [] => (f, [])
  | a :: rest =>
    if a == '#' then readFlags { f with sharp := true } rest
    else if a == '0' then readFlags { f with zero := true } rest
    else if a == '+' then readFlags { f with plus := true } rest
    else if a == '-' then readFlags { f with minus := true } rest
    else if a == ' ' then readFlags { f with space := true } rest
    else (f, a :: rest)

def countOf? (args : List Value) (i : Nat) : Option Int :=
  let fits (n : Int) : Option Int := if n.natAbs ≤ countLimit then some n else none
  match args[i]? with
  | some (.int n) => fits n
  | some (.byte b) => fits b.toNat
  | _ => none

def Cursor.takeStar (c : Cursor) (count : Nat) : Cursor :=
  { c with
    rest := c.rest.tail, next := if c.next < count then c.next + 1 else c.next, chosen := false }

/-- Reads the width: a number, or a star that takes an argument. The text is a complaint about
it. -/
def readWidth (args : List Value) (f : Flags) (c : Cursor) : Flags × Cursor × Text :=
  if c.rest.head? == some '*' then
    let c' := c.takeStar args.length
    match countOf? args c.next with
    | some n =>
      if n < 0 then ({ f with width := some n.natAbs, minus := true, zero := false }, c', [])
      else ({ f with width := some n.natAbs }, c', [])
    | none => (f, c', "%!(BADWIDTH)")
  else
    let (n, rest) := readCount c.rest
    ({ f with width := n }, { c with rest, sound := c.sound && !(c.chosen && n.isSome) }, [])

def readPrecision (args : List Value) (f : Flags) (c : Cursor) : Flags × Cursor × Text :=
  if c.rest.head? != some '.' then (f, c, [])
  else
    let c : Cursor := { c with rest := c.rest.tail, sound := c.sound && !c.chosen }
    let c := c.choose args.length
    if c.rest.head? == some '*' then
      let c' := c.takeStar args.length
      match countOf? args c.next with
      | some n =>
        if n < 0 then (f, c', "%!(BADPREC)") else ({ f with precision := some n.natAbs }, c', [])
      | none => (f, c', "%!(BADPREC)")
    else
      let (n, rest) := readCount c.rest
      ({ f with precision := some (n.getD 0) }, { c with rest }, [])

def extras (args : List Value) : Text :=
  if args.isEmpty then []
  else "%!(EXTRA " ++ Text.join ", " (args.map fun
    | .nil => "<nil>"
    | v => v.typeName ++ "=" ++ v.render) ++ ")"

def writeVerb (args : List Value) (f : Flags) (c : Cursor) (a : UInt8) (rest : Text) :
    Text × Cursor :=
  let (verb, size) := Text.firstChar a rest
  let c := { c with rest := rest.drop (size - 1) }
  if verb = '%' then ("%", c)
  else if !c.sound then ("%!" ++ Text.ofChar verb ++ "(BADINDEX)", c)
  else match args[c.next]? with
    | none => ("%!" ++ Text.ofChar verb ++ "(MISSING)", c)
    | some v =>
      let f := if verb = 'v' || verb = 'w' then f.general else f
      (formatValue f verb v, { c with next := c.next + 1 })

/-- Fills a format from the cursor on; `fuel` bounds the number of steps by the bytes that are
left. -/
def formatFrom (args : List Value) : Nat → Cursor → Text
  | 0, _ => []
  | fuel + 1, c =>
    match c.rest with
    | [] => if c.reordered then [] else extras (args.drop c.next)
    | a :: rest =>
      if a != '%' then a :: formatFrom args fuel { c with rest }
      else
        let (f, rest) := readFlags {} rest
        let c : Cursor := { c with rest, sound := true }
        let c := c.choose args.length
        let (f, c, badWidth) := readWidth args f c
        let (f, c, badPrecision) := readPrecision args f c
        let c := if c.chosen then c else c.choose args.length
        let complaints := badWidth ++ badPrecision
        match c.rest with
        | [] => complaints ++ "%!(NOVERB)" ++ formatFrom args fuel c
        | a :: rest =>
          let (written, c) := writeVerb args f c a rest
          complaints ++ written ++ formatFrom args fuel c

def format (pattern : Text) (args : List Value) : Text :=
  formatFrom args (2 * pattern.length + 2) { rest := pattern }

end HeaderBridge.Template
