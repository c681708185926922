import HeaderBridge.Regex.Class

namespace HeaderBridge.Regex

def ofClass (c : Class) : Regex := char fun x => c x.toNat

def literal (modes : Modes) (n : Nat) : Regex := ofClass (modes.select false (range n n))

def readCount (cs : List Char) : Option (Nat × List Char) :=
  let ds := cs.takeWhile Char.isDigit
  if ds.isEmpty || ds.head? = some '0' && ds.length != 1 then none
  else some (ds.foldl (fun n d => n * 10 + (d.toNat - 48)) 0, cs.drop ds.length)

def readBounds (cs : List Char) : Option (Nat × Option Nat × List Char) :=
  match readCount cs with
  | some (n, '}' :: cs) => some (n, some n, cs)
  | some (n, ',' :: '}' :: cs) => some (n, none, cs)
  | some (n, ',' :: cs) =>
    match readCount cs with
    | some (m, '}' :: cs) => some (n, some m, cs)
    | _ => none
  | _ => none

/-- Nothing is repeated more often than this by bounds. -/
def repeatLimit : Nat := 1000

/-- Repeats what stands last; `none` if nothing does, or if the bounds make no sense. -/
def repeatLast (least : Nat) (most : Option Nat) : List Regex → Option (List Regex)
  | [] => none
  | r :: rs =>
    if least > repeatLimit || most.any (fun m => m > repeatLimit || m < least) then none
    else some (.repeat r least most :: rs)

/-- The modes that are set between a question mark and a colon or closing parenthesis; the flag says
whether it is a colon. `set` is what a letter sets its mode to; `any` tells whether there was a
letter since it changed. -/
def readModes (set any : Bool) (modes : Modes) : List Char → Option (Modes × Bool × List Char)
  | 'i' :: cs => readModes set true { modes with foldCase := set } cs
  | 'm' :: cs => readModes set true { modes with byLine := set } cs
  | 's' :: cs => readModes set true { modes with dotAll := set } cs
  | 'U' :: cs => readModes set true modes cs
  | '-' :: cs => if set then readModes false false modes cs else none
  | ':' :: cs => if set || any then some (modes, true, cs) else none
  | ')' :: cs => if set || any then some (modes, false, cs) else none
  | _ => none

def afterName (cs : List Char) : Option (List Char) :=
  let name := cs.takeWhile isWordChar
  match cs.drop name.length with
  | '>' :: cs => if name.isEmpty then none else some cs
  | _ => none

/-- How a group starts, read after its parenthesis: the modes inside, whether it is a group at all
or modes for the rest of the group around it, and what follows. -/
def readOpening (modes : Modes) (cs : List Char) : Option (Modes × Bool × List Char) :=
  match cs with
  | '?' :: 'P' :: '<' :: cs | '?' :: '<' :: cs => (afterName cs).map (modes, true, ·)
  | '?' :: cs => readModes true false modes cs
  | cs => some (modes, true, cs)

def joined (rs : List Regex) : Regex := rs.foldl (fun b a => .seq a b) .empty

def either : List Regex → Regex
  | [] => .empty
  | r :: rs => rs.foldl (fun b a => .alt a b) r

def readVerbatim : List Char → List Char × List Char
  | '\\' :: 'E' :: rest => ([], rest)
  | c :: rest => let r := readVerbatim rest; (c :: r.1, r.2)
  | [] => ([], [])

/-- What a backslash outside brackets stands for, read after it: expressions, the last first. -/
def readBackslash (modes : Modes) (cs : List Char) : Option (List Regex × List Char) :=
  match cs with
  | 'A' :: cs => some ([.start], cs)
  | 'z' :: cs => some ([.finish], cs)
  | 'b' :: cs => some ([.wordEdge true], cs)
  | 'B' :: cs => some ([.wordEdge false], cs)
  | 'Q' :: cs =>
    let r := readVerbatim cs; some ((r.1.map fun c => literal modes c.toNat).reverse, r.2)
  | cs =>
    match readLetterClass modes cs with
    | some k => k.map fun r => ([ofClass r.1], r.2)
    | none => (readEscape cs).map fun r => ([literal modes r.1], r.2)

/-- Reads a group up to its end or a closing parenthesis, which is left. `branches` are those
before, and `rs` is what has been read of this one, both the last first. `stacked` says whether a
repetition has just been read: a second one may not follow. -/
def readGroup : Nat → Modes → List Regex → List Regex → Bool → List Char →
    Option (Regex × List Char)
  | 0, _, _, _, _, _ => none
  | fuel + 1, modes, branches, rs, stacked, cs =>
    let go (rs : List Regex) (cs : List Char) := readGroup fuel modes branches rs false cs
    let marked (least : Nat) (most : Option Nat) (cs : List Char) : Option (Regex × List Char) :=
      if stacked then none
      else (repeatLast least most rs).bind fun rs =>
        readGroup fuel modes branches rs true (if cs.head? = some '?' then cs.tail else cs)
    match cs with
    | [] | ')' :: _ => some (either (joined rs :: branches), cs)
    | '|' :: cs => readGroup fuel modes (joined rs :: branches) [] false cs
    | '(' :: cs => do
      let (inside, isGroup, cs) ← readOpening modes cs
      if !isGroup then readGroup fuel inside branches rs false cs
      else
        let (r, cs) ← readGroup fuel inside [] [] false cs
        match cs with
        | ')' :: cs => go (r :: rs) cs
        | _ => none
    | '^' :: cs => go ((if modes.byLine then .lineStart else .start) :: rs) cs
    | '$' :: cs => go ((if modes.byLine then .lineEnd else .finish) :: rs) cs
    | '.' :: cs => go (ofClass (fun n => modes.dotAll || n != 10) :: rs) cs
    | '[' :: cs => (readClass modes cs).bind fun r => go (ofClass r.1 :: rs) r.2
    | '*' :: cs => marked 0 none cs
    | '+' :: cs => marked 1 none cs
    | '?' :: cs => marked 0 (some 1) cs
    | '{' :: cs =>
      match readBounds cs with
      | some (least, most, cs) => marked least most cs
      | none => go (literal modes 0x7B :: rs) cs
    | '\\' :: cs => (readBackslash modes cs).bind fun r => go (r.1 ++ rs) r.2
    | c :: cs => go (literal modes c.toNat :: rs) cs

def parse? (pattern : Text) : Option Regex :=
  let cs := Text.chars pattern
  match readGroup (cs.length + 1) {} [] [] false cs with
  | some (r, []) => some r
  | _ => none

end HeaderBridge.Regex
