import HeaderBridge.Disk
import HeaderBridge.Glob

namespace HeaderBridge.Glob

def isMeta (b : UInt8) : Bool := b == '*' || b == '?' || b == '[' || b == '{'

def hasMeta : Text → Bool
  | [] => false
  | a :: rest =>
    if a == '\\' then
      match rest with
      | _ :: rest => hasMeta rest
      | [] => false
    else isMeta a || hasMeta rest

def unescape : Text → Text
  | [] => []
  | a :: rest =>
    if a == '\\' && rest.head?.any fun b => isMeta b || b == ']' || b == '}' then unescape rest
    else a :: unescape rest

def segments : Text → List Text
  | [] => [[]]
  | a :: rest =>
    if a == '\\' then
      match rest with
      | b :: rest => (segments rest).modifyHead (a :: b :: ·)
      | [] => [[a]]
    else if a == '/' then [] :: segments rest
    else (segments rest).modifyHead (a :: ·)

/-- Splits off the leading segments without meaning; the last segment always stays. -/
def splitBase : List Text → List Text × List Text
  | [] => ([], [])
  | [s] => ([], [s])
  | s :: rest =>
    if hasMeta s then ([], s :: rest) else let (base, rest) := splitBase rest; (s :: base, rest)

/-- Cuts a pattern at the last byte of a kind that has no backslash in front of it. -/
def cutAtLast (isCut : UInt8 → Bool) (escaped : Bool) : Text → Option (Text × UInt8 × Text)
  | [] => none
  | a :: rest =>
    match cutAtLast isCut (a == '\\') rest with
    | some (before, b, after) => some (a :: before, b, after)
    | none => if isCut a && !escaped then some ([], a, rest) else none

/-- Cuts the front of a closing brace at the brace that opens its group. Without one, what is left
over is the number of groups that are to be opened. -/
def cutAtOpening (escaped : Bool) : Text → Except Nat (Text × Text)
  | [] => .error 1
  | a :: rest =>
    match cutAtOpening (a == '\\') rest with
    | .ok (before, inside) => .ok (a :: before, inside)
    | .error n =>
      if a == '}' && !escaped then .error (n + 1)
      else if a == '{' && !escaped then if n = 1 then .ok ([], rest) else .error (n - 1)
      else .error n

def tried (inside : Text) : List Text :=
  let alts := alternatives 0 inside
  if alts.getLast? == some [] then alts.dropLast else alts

/-- How a pattern ends. The front is what leads to the folders in which the end is looked for;
without one they are looked for in the folder that the pattern starts from. -/
inductive Ending
  | segment (front : Option Text) (segment : Text)
  | group (front : Option Text) (stem : Text) (alternatives : List Text) (rest : Text)
deriving Repr, DecidableEq

def isSlash (b : UInt8) : Bool := b == '/'

def isEnd (b : UInt8) : Bool := b == '/' || b == '}'

def cutFront (isCut : UInt8 → Bool) (pattern : Text) : Option Text × Text :=
  match cutAtLast isCut false pattern with
  | some (front, b, rest) => if isSlash b then (some front, rest) else (none, pattern)
  | none => (none, pattern)

/-- The end of a pattern. A closing brace that closes nothing is a character like others. -/
def ending (pattern : Text) : Ending :=
  match cutAtLast isEnd false pattern with
  | none => .segment none pattern
  | some (front, b, rest) =>
    if isSlash b then .segment (some front) rest
    else
      match cutAtOpening false front with
      | .ok (front, inside) =>
        let (front, stem) := cutFront isEnd front
        .group front stem (tried inside) rest
      | .error _ =>
        let (front, stem) := cutFront isSlash front
        .segment front (stem ++ b :: rest)

def deep : Text := "**"

def inside (folder name : Text) : Text :=
  if folder == Path.here then name else folder ++ "/" ++ name

/-- What is at a path below a folder. A path that has empty parts or dots leads nowhere. -/
def entryAt (d : Disk) (root : Place) (path : Text) : Option Entry :=
  if path == Path.here then d.find? root
  else
    let parts := Text.splitAt '/' path
    if parts.any fun s => s.isEmpty || s == Path.here || s == Path.up then none
    else d.find? (root ++ parts)

def names (d : Disk) (root : Place) (folder : Text) : List Text :=
  if entryAt d root folder == some .folder then d.names (root ++ Path.parts folder) else []

def below (d : Disk) (root : Place) : Nat → Text → List Text
  | 0, _ => []
  | fuel + 1, folder =>
    (names d root folder).flatMap fun n => inside folder n :: below d root fuel (inside folder n)

/-- What a segment of a pattern matches in a folder: the folders only, unless it is the last. An
empty segment stands for the folder. -/
def matching (d : Disk) (root : Place) (isLast : Bool) (segment folder : Text) : List Text :=
  let isFolder (path : Text) : Bool := entryAt d root path == some .folder
  if !isFolder folder then []
  else if segment.isEmpty then [folder]
  else
    let found :=
      if segment == deep then folder :: below d root (d.entries.length + 1) folder
      else ((names d root folder).filter fun n => verdict segment n = .yes).map (inside folder)
    found.filter fun path => isLast || isFolder path

/-- The path that a pattern without meaning stands for, if it leads anywhere. A slash at its end
does not count. -/
def literal (d : Disk) (root : Place) (folder pattern : Text) : List Text :=
  let path := inside folder (unescape pattern)
  let stem := if 1 < path.length && path.getLast? == some '/' then path.dropLast else path
  if (entryAt d root stem).isSome then [path] else []

/-- The paths that a pattern leads to from a folder; `isLast` tells that nothing follows it. Every
step shortens the pattern. -/
def leads (d : Disk) (root : Place) : Nat → Bool → Text → Text → List Text
  | 0, _, _, _ => []
  | fuel + 1, isLast, folder, pattern =>
    let folders (front : Option Text) : List Text :=
      front.elim [folder] (leads d root fuel false folder)
    if !hasMeta pattern then literal d root folder pattern
    else
      match ending pattern with
      | .segment front s => (folders front).flatMap (matching d root isLast s)
      | .group front stem alts rest =>
        (folders front).flatMap fun f => alts.flatMap fun alt => leads d root fuel isLast f
          (stem ++ alt ++ rest)

/-- The paths that a pattern matches; none if it is malformed. Of each pattern the part without
meaning is a folder from which the rest is looked for. -/
def search (d : Disk) (pattern : Text) : Option (List Text) :=
  let pattern := Path.clean pattern
  let (base, rest) := splitBase (segments pattern)
  let folder : Text :=
    if base == [[]] then "/" else (Text.join "/" (base.map unescape)).orElse Path.here
  let body := Text.join "/" rest
  if !isSound body then none
  else match d.resolve folder with
    | .error _ => some []
    | .ok p =>
      some ((leads d p (body.length + 1) true Path.here body).map fun m => Path.join [folder, m])

end HeaderBridge.Glob
