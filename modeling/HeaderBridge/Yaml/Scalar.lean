import HeaderBridge.Text.Integer

namespace HeaderBridge.Yaml

def isBlank (c : Char) : Bool := c = ' ' || c = '\t'

/-- The line ends. Besides newlines there are two separators of their own, which are kept where
lines are joined. -/
def isBreak (c : Char) : Bool := c = '\n' || c = '\u2028' || c = '\u2029'

def isGap (c : Char) : Bool := isBlank c || isBreak c

def isApart : List Char → Bool
  | [] => true
  | c :: _ => isGap c

def isMarker (cs : List Char) : Bool :=
  (cs.take 3 == ['-', '-', '-'] || cs.take 3 == ['.', '.', '.']) && isApart (cs.drop 3)

def isFlowMark (c : Char) : Bool := [',', '?', '[', ']', '\x7b', '\x7d'].contains c

def isIndicator (c : Char) : Bool :=
  ['-', '?', ':', ',', '[', ']', '\x7b', '\x7d', '#', '&', '*', '!', '|', '>', '\'', '"', '%', '@',
    '\x60'].contains c

/-- What stands between two pieces of a scalar. -/
structure Gap where
  blanks : List Char := []
  crossing : Bool := false
  first : Option Char := none
  further : List Char := []

namespace Gap

def escaped : Gap := { crossing := true }

def isNone (g : Gap) : Bool := g.blanks.isEmpty && !g.crossing

def text (g : Gap) : List Char :=
  if !g.crossing then g.blanks
  else if g.first = some '\n' then if g.further.isEmpty then [' '] else g.further
  else g.first.toList ++ g.further

def blank (g : Gap) (c : Char) : Gap :=
  if g.crossing then g else { g with blanks := g.blanks ++ [c] }

def lineEnd (g : Gap) (c : Char) : Gap :=
  if g.crossing then { g with further := g.further ++ [c] }
  else { crossing := true, first := some c }

def join (g : Gap) (seen : List Char) : List Char := g.text.reverse ++ seen

end Gap

/-- Reads on behind a single quote. The characters seen are the last first; `fresh` tells that a
line starts here. -/
def singleQuoted (seen : List Char) (gap : Gap) (fresh : Bool) : List Char →
    Option (List Char × List Char)
  | [] => none
  | c :: rest =>
    if isBlank c then singleQuoted seen (gap.blank c) false rest
    else if isBreak c then singleQuoted seen (gap.lineEnd c) true rest
    else if fresh && isMarker (c :: rest) then none
    else if c = '\'' then
      match rest with
      | [] => some ((gap.join seen).reverse, [])
      | d :: more =>
        if d = '\'' then singleQuoted (d :: gap.join seen) {} false more
        else some ((gap.join seen).reverse, d :: more)
    else singleQuoted (c :: gap.join seen) {} false rest

def escapes : List (Char × Nat) :=
  [('0', 0), ('a', 7), ('b', 8), ('t', 9), ('\t', 9), ('n', 10), ('v', 11), ('f', 12), ('r', 13),
   ('e', 27), (' ', 32), ('"', 34), ('\'', 39), ('\\', 92), ('N', 0x85), ('_', 0xA0), ('L', 0x2028),
   ('P', 0x2029)]

def codeWidth (c : Char) : Nat :=
  if c = 'x' then 2 else if c = 'u' then 4 else if c = 'U' then 8 else 0

def codeChar? (width : Nat) (cs : List Char) : Option Char :=
  if cs.length < width then none
  else ((Text.digitsValue? 16 (Text.ofChars (cs.take width))).filter fun n =>
    decide n.isValidChar).map Char.ofNat

def doubleQuoted (seen : List Char) (gap : Gap) (fresh : Bool) : List Char →
    Option (List Char × List Char)
  | [] => none
  | c :: rest =>
    if isBlank c then doubleQuoted seen (gap.blank c) false rest
    else if isBreak c then doubleQuoted seen (gap.lineEnd c) true rest
    else if fresh && isMarker (c :: rest) then none
    else if c = '"' then some ((gap.join seen).reverse, rest)
    else if c = '\\' then
      match rest with
      | [] => none
      | d :: more =>
        if isBreak d then doubleQuoted (gap.join seen) .escaped true more
        else if codeWidth d = 0 then
          match escapes.lookup d with
          | none => none
          | some n => doubleQuoted (Char.ofNat n :: gap.join seen) {} false more
        else
          match codeChar? (codeWidth d) more with
          | none => none
          | some e => doubleQuoted (e :: gap.join seen) {} false (more.drop (codeWidth d))
    else doubleQuoted (c :: gap.join seen) {} false rest
termination_by cs => cs.length
decreasing_by all_goals simp only [List.length_cons, List.length_drop]; omega

def startsPlain (flow : Bool) : List Char → Bool
  | [] => false
  | c :: rest =>
    if isGap c then false
    else if c = '-' then !rest.head?.any isBlank
    else if c = '?' || c = ':' then !flow && !isApart rest
    else !isIndicator c

/-- Reads a plain scalar: its characters, whether it has gone over a line end, and what follows.
Outside brackets it ends where a line starts left of the column `floor`; there a tab is refused. A
comment ends it too. -/
def plain (flow : Bool) (floor : Nat) (seen : List Char) (gap : Gap) (column : Nat) :
    List Char → Option (List Char × Bool × List Char)
  | [] => some (seen.reverse, gap.crossing, [])
  | c :: rest =>
    if isBlank c then
      if gap.crossing && column < floor && c = '\t' then none
      else plain flow floor seen (gap.blank c) (column + 1) rest
    else if isBreak c then plain flow floor seen (gap.lineEnd c) 0 rest
    else
      let isOver := column = 0 && isMarker (c :: rest) || c = '#' || !flow && column < floor
      let isMark := c = ':' && isApart rest || flow && isFlowMark c
      if !gap.isNone && isOver || isMark then some (seen.reverse, gap.crossing, c :: rest)
      else plain flow floor (c :: gap.join seen) {} (column + 1) rest

/-- What becomes of the line ends behind a block. -/
inductive Chomp
  | strip
  | clip
  | keep
deriving DecidableEq

/-- The head of a block: its chomping, its indentation if that is given, and the lines below. -/
def blockHead (cs : List Char) : Option (Chomp × Option Nat × List Char) :=
  let chomp (cs : List Char) : Chomp × List Char :=
    if cs.head? = some '+' then (.keep, cs.tail)
    else if cs.head? = some '-' then (.strip, cs.tail)
    else (.clip, cs)
  let digit (cs : List Char) : Option Nat × List Char :=
    match cs with
    | [] => (none, [])
    | c :: rest => if c.isDigit then (some (c.toNat - 48), rest) else (none, cs)
  let (first, rest) := chomp cs
  let (indent, rest) := digit rest
  let (chosen, rest) := if first = .clip && indent.isSome then chomp rest else (first, rest)
  let rest := rest.dropWhile isBlank
  let rest := if rest.head? = some '#' then rest.dropWhile (!isBreak ·) else rest
  if indent = some 0 then none
  else match rest with
    | [] => some (chosen, indent, [])
    | c :: rest => if isBreak c then some (chosen, indent, rest) else none

/-- What stands before a line of a block: the line ends of blank lines, the width of the widest of
all these lines, the column at which the line goes on, and its rest. The indentation is zero as long
as it is not known. -/
def blockGap (indent widest column : Nat) (breaks : List Char) :
    List Char → Option (List Char × Nat × Nat × List Char)
  | [] => some (breaks, max widest column, column, [])
  | c :: rest =>
    let inMargin := indent = 0 || column < indent
    if inMargin && c = ' ' then blockGap indent widest (column + 1) breaks rest
    else if inMargin && c = '\t' then none
    else if isBreak c then blockGap indent (max widest column) 0 (breaks ++ [c]) rest
    else some (breaks, max widest column, column, c :: rest)

structure Block where
  text : List Char := []
  lineEnd : List Char := []
  blanks : List Char := []
  spaced : Bool := false

/-- Adds a line with content. Lines are folded unless one of them starts with a blank. -/
def Block.push (b : Block) (folded : Bool) (line : List Char) : Block :=
  let spaced := line.head?.any isBlank
  let gap :=
    if folded && !b.spaced && !spaced && b.lineEnd = ['\n'] then
      if b.blanks.isEmpty then [' '] else []
    else b.lineEnd
  { text := b.text ++ gap ++ b.blanks ++ line, spaced }

def Block.finish (b : Block) (chomp : Chomp) : List Char :=
  b.text ++ (if chomp = .strip then [] else b.lineEnd) ++ (if chomp = .keep then b.blanks else [])

def blockLines (folded : Bool) (indent : Nat) : Nat → Block → Nat → List Char →
    Option (Block × List Char)
  | 0, b, _, cs => some (b, cs)
  | fuel + 1, b, column, cs => do
    if column != indent || cs.isEmpty then return (b, cs)
    let line := cs.takeWhile (!isBreak ·)
    let rest := cs.dropWhile (!isBreak ·)
    let (blanks, _, column, after) ← blockGap indent 0 0 [] rest.tail
    let b := { b.push folded line with lineEnd := rest.take 1, blanks }
    if rest.isEmpty then return (b, [])
    blockLines folded indent fuel b column after

/-- Reads a block behind its first mark; `floor` is the least column that belongs to it. Without a
given indentation it is that of the first line with content, or of a wider blank line before it. -/
def block (folded : Bool) (floor : Nat) (cs : List Char) : Option (List Char × List Char) := do
  let (chomp, given, rest) ← blockHead cs
  let indent := (given.map (floor - 1 + ·)).getD 0
  let (blanks, widest, column, rest) ← blockGap indent 0 0 [] rest
  let indent := if indent = 0 then max widest (max floor 1) else indent
  let (b, rest) ← blockLines folded indent rest.length { blanks } column rest
  return (b.finish chomp, rest)

end HeaderBridge.Yaml
