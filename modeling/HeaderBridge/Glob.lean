import HeaderBridge.Text

namespace HeaderBridge.Glob

/-- A pattern may turn out to be malformed while it is matched. -/
inductive Verdict
  | yes
  | no
  | malformed
deriving Repr, DecidableEq

def firstRune : Text → Char × Text
  | [] => (Text.replacement, [])
  | a :: rest =>
    let first := Text.firstChar a rest
    (first.1, rest.drop (first.2 - 1))

/-- What follows the `]` that ends a class; a backslash takes the next byte with it. -/
def afterClass : Text → Option Text
  | [] => none
  | a :: rest =>
    if a == '\\' then
      match rest with
      | _ :: rest => afterClass rest
      | [] => none
    else if a == ']' then some rest
    else afterClass rest

def splitGroup : Nat → Text → Option (Text × Text)
  | _, [] => none
  | depth, a :: rest =>
    if a == '\\' then
      match rest with
      | b :: rest => (splitGroup depth rest).map fun r => (a :: b :: r.1, r.2)
      | [] => none
    else if a == '{' then (splitGroup (depth + 1) rest).map fun r => (a :: r.1, r.2)
    else if a == '}' then
      match depth with
      | 0 => some ([], rest)
      | depth + 1 => (splitGroup depth rest).map fun r => (a :: r.1, r.2)
    else (splitGroup depth rest).map fun r => (a :: r.1, r.2)

/-- The texts between the commas of a group; commas of inner groups do not count. -/
def alternatives : Int → Text → List Text
  | _, [] => [[]]
  | depth, a :: rest =>
    if a == '\\' then
      match rest with
      | b :: rest => (alternatives depth rest).modifyHead (a :: b :: ·)
      | [] => [[a]]
    else if a == '{' then (alternatives (depth + 1) rest).modifyHead (a :: ·)
    else if a == '}' then (alternatives (depth - 1) rest).modifyHead (a :: ·)
    else if a == ',' && depth == 0 then [] :: alternatives depth rest
    else (alternatives depth rest).modifyHead (a :: ·)

def classBody : Text → Text
  | [] => []
  | a :: rest => if a == '^' || a == '!' then rest else a :: rest

/-- What follows a class, read from its second byte on. A class ends and is not empty. -/
def afterSoundClass (pattern : Text) : Option Text :=
  if (classBody pattern).head? == some ']' then none else afterClass (classBody pattern)

/-- Whether a pattern is well formed with `depth` groups open: classes and groups end, and a
backslash has something to act on. -/
def isSoundFrom : Nat → Nat → Text → Bool
  | 0, _, _ => false
  | _ + 1, depth, [] => depth == 0
  | fuel + 1, depth, a :: rest =>
    if a == '\\' then
      match rest with
      | _ :: rest => isSoundFrom fuel depth rest
      | [] => false
    else if a == '[' then (afterSoundClass rest).any (isSoundFrom fuel depth)
    else if a == '{' then isSoundFrom fuel (depth + 1) rest
    else if a == '}' then depth != 0 && isSoundFrom fuel (depth - 1) rest
    else isSoundFrom fuel depth rest

def isSound (pattern : Text) : Bool := isSoundFrom (pattern.length + 1) 0 pattern

def refuse (rest : Text) : Verdict := if isSound rest then .no else .malformed

/-- Looks for a character in a class: whether it is there, and the pattern from where that was
decided. `last` is the character before, which may start a range. -/
def inClass (c : Char) : Nat → Option Char → Text → Bool × Text
  | 0, _, pattern => (false, pattern)
  | _ + 1, _, [] => (false, [])
  | fuel + 1, last, a :: rest =>
    if a == ']' then (false, a :: rest)
    else
      let (x, after) := firstRune (a :: rest)
      if last.isSome && x == '-' && !after.isEmpty && after.head? != some ']' then
        let (y, after) := firstRune (if after.head? == some '\\' then after.tail else after)
        if last.any (· ≤ c) && c ≤ y then (true, after) else inClass c fuel none after
      else
        let (x, after) := if x == '\\' then firstRune after else (x, after)
        if x == c then (true, after) else inClass c fuel (some x) after

def matchesEmpty : Nat → Text → Verdict
  | 0, _ => .no
  | fuel + 1, pattern =>
    if (["", "*", "**", "/**", "**/", "/**/"] : List Text).contains pattern then .yes
    else match pattern with
      | a :: rest =>
        if a == '{' then
          match splitGroup 0 rest with
          | none => .malformed
          | some (inside, after) =>
            (alternatives 0 inside).foldl
              (fun v alt => if v = .no then matchesEmpty fuel (alt ++ after) else v) .no
        else refuse pattern
      | [] => .yes

/-- Where to take up the match again: a place in the pattern, and the text it is tried on. -/
abbrev Retry := Option (Nat × Text)

def afterSlash : Text → Option Text
  | [] => none
  | a :: rest => if a == '/' then some rest else afterSlash rest

/-- Where a character that does not match is reported: at the backslash in front of it, if there is
one. -/
def complaintAt (pattern : Text) (i : Nat) : Nat :=
  if i != 0 && pattern[i - 1]? == some '\\' then i - 1 else i

/-- Matches a pattern from its place `i` on. `atStart` says whether a part of the path starts here,
where `**` has its meaning. `deep` and `flat` tell where to go on if the rest does not match: behind
the last `**` or the last `*`. A group is replaced by each of its alternatives in turn, and the
places stay where they are. -/
def run : Nat → Text → Bool → Nat → Text → Retry → Retry → Verdict
  | 0, _, _, _, _, _, _ => .no
  | _ + 1, pattern, _, i, [], _, _ => matchesEmpty (pattern.length + 1) (pattern.drop i)
  | fuel + 1, pattern, atStart, i, n :: ns, deep, flat =>
    let (c, rest) := firstRune (n :: ns)
    let deeper (place : Nat) : Verdict :=
      match deep with
      | some (p, t) =>
        match afterSlash t with
        | some t => run fuel pattern true p t (some (p, t)) flat
        | none => refuse (pattern.drop place)
      | none => refuse (pattern.drop place)
    let retry (place : Nat) : Verdict :=
      match flat with
      | some (p, t) =>
        let (x, t) := firstRune t
        if x != '/' then run fuel pattern false p t deep (some (p, t)) else deeper place
      | none => deeper place
    let literal (i : Nat) : Verdict :=
      let here := pattern.drop i
      let (x, after) := firstRune here
      if x == c then run fuel pattern (x == '/') (i + (here.length - after.length)) rest deep flat
      else retry (complaintAt pattern i)
    match pattern.drop i with
    | [] => retry i
    | a :: ps =>
      if a == '*' then
        let star (i : Nat) : Verdict := run fuel pattern false i (n :: ns) deep (some (i, n :: ns))
        match ps with
        | b :: qs =>
          if b == '*' then
            if atStart && qs.isEmpty then .yes
            else if atStart && qs.head? == some '/' then
              run fuel pattern true (i + 3) (n :: ns) (some (i + 3, n :: ns)) none
            else star (i + 2)
          else star (i + 1)
        | [] => star (i + 1)
      else if a == '?' then
        if c == '/' then retry i else run fuel pattern false (i + 1) rest deep flat
      else if a == '[' then
        let negated := ps.head? == some '!' || ps.head? == some '^'
        let body := classBody ps
        if body.isEmpty || body.head? == some ']' then .malformed
        else
          let (found, after) := inClass c (body.length + 1) none body
          if found == negated then
            if after.isEmpty then .malformed else retry (pattern.length - after.length)
          else match afterClass after with
            | none => .malformed
            | some after => run fuel pattern false (pattern.length - after.length) rest deep flat
      else if a == '{' then
        match splitGroup 0 ps with
        | none => .malformed
        | some (inside, after) =>
          (alternatives 0 inside).foldl
            (fun v alt =>
              if v = .no then run fuel (pattern.take i ++ alt ++ after) true i (n :: ns) deep flat
              else v) .no
      else if a == '\\' then
        if ps.isEmpty then .malformed else literal (i + 1)
      else literal i

/-- Steps enough for any pattern on any text. -/
def effort (pattern text : Text) : Nat :=
  (pattern.length + 2) * (pattern.length + 2) * ((text.length + 2) * (text.length + 2))

def verdict (pattern text : Text) : Verdict :=
  run (effort pattern text) pattern true 0 text none none

/-- Whether one of the patterns matches; malformed ones match nothing. -/
def anyMatches (patterns : List Text) (path : Text) : Bool :=
  patterns.any fun p => verdict p path = .yes

end HeaderBridge.Glob
