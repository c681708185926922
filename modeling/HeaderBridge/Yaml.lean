import HeaderBridge.Datum.Plain
import HeaderBridge.Text.Base64
import HeaderBridge.Yaml.Node

namespace HeaderBridge.Yaml

/-- Values by the names that they are referred to by. There is none yet while a value is being
read. -/
abbrev Anchors := List (Text × Option Datum)

/-- The text of a scalar as it is written, quotes apart. -/
def Node.written? : Node → Option Text
  | .plain t | .quoted t => some t
  | .anchored _ n | .tagged _ n => n.written?
  | .list _ | .map _ | .reference _ => none

def Node.isMerge : Node → Bool
  | .plain t => t == ("<<" : Text)
  | .tagged tag n => tag == tagStart ++ "merge" && n.written? == some "<<"
  | .anchored _ n => n.isMerge
  | _ => false

def Node.isReference : Node → Bool
  | .reference _ => true
  | _ => false

/-- What keys are told apart by: scalars by their texts, references by their names. Two lists are
not told apart, nor are two maps. -/
def Node.identity : Node → Nat × Text
  | .plain t | .quoted t => (0, t)
  | .list _ => (1, [])
  | .map _ => (2, [])
  | .reference name => (3, name)
  | .anchored _ n | .tagged _ n => n.identity

/-- What a scalar with a tag stands for. A tag of the language must fit what is written. -/
def tagged? (tag t : Text) : Option Datum :=
  let d := Datum.ofPlain t
  match Text.after? tagStart tag with
  | none => some (.text t)
  | some name =>
    if name == ("int" : Text) then if d matches .int _ then some d else none
    else if name == ("float" : Text) then
      match d with
      | .real x => some (.real x)
      | .int n =>
        if n < Text.signedLimit then (Double.ofDecimal? (n < 0) n.natAbs 0).map .real else none
      | _ => none
    else if name == ("bool" : Text) then if d matches .bool _ then some d else none
    else if name == ("null" : Text) then if d matches .null then some d else none
    else if name == ("timestamp" : Text) then if d matches .date then some d else none
    else if name == ("binary" : Text) then (Text.ofBase64? t).map .text
    else some (.text t)

def fieldName? (key : Node) : Datum → Option Text
  | .text t => some t
  | .list _ | .record _ => none
  | _ => some (key.written?.getD [])

/-- The fields that a map takes in: those of a map, or of each map in a list that stands there
itself. -/
def mergedFields? (n : Node) : Datum → Option (List (Text × Datum))
  | .record fields => some fields
  | .list items => do
    if n.isReference then none
    let parts ← items.mapM fun
      | .record fields => some fields
      | _ => none
    return parts.flatten
  | _ => none

/-- The fields of a map: its own, no two of one name, and behind them those that it takes in. -/
def fields? (entries : List (Node × Node)) (read : List (Datum × Datum)) :
    Option (List (Text × Datum)) := do
  let ids := entries.map (·.1.identity)
  if ids.eraseDups.length != ids.length then none
  let all := entries.zip read
  let own ← (all.filter (!·.1.1.isMerge)).mapM fun e => (fieldName? e.1.1 e.2.1).map (·, e.2.2)
  let merged ← (all.filter (·.1.1.isMerge)).mapM fun e => mergedFields? e.1.2 e.2.2
  return own ++ merged.flatten

mutual

def Node.datum (known : Anchors) : Node → Option (Datum × Anchors)
  | .plain t => some (.ofPlain t, known)
  | .quoted t => some (.text t, known)
  | .list items => do
    let (ds, known) ← datums known items
    return (.list ds, known)
  | .map entries => do
    let (ds, known) ← entryData known entries
    return (.record (← fields? entries ds), known)
  | .anchored name n => do
    let (d, after) ← n.datum ((name, none) :: known)
    return (d, after.take (after.length - known.length - 1) ++ (name, some d) :: known)
  | .tagged tag n => do
    match n.written? with
    | some t => return (← tagged? tag t, known)
    | none => n.datum known
  | .reference name => do return (← (known.lookup name).join, known)

def datums (known : Anchors) : List Node → Option (List Datum × Anchors)
  | [] => some ([], known)
  | n :: ns => do
    let (d, known) ← n.datum known
    let (ds, known) ← datums known ns
    return (d :: ds, known)

def entryData (known : Anchors) : List (Node × Node) → Option (List (Datum × Datum) × Anchors)
  | [] => some ([], known)
  | (k, v) :: es => do
    let (a, known) ← k.datum known
    let (b, known) ← v.datum known
    let (ds, known) ← entryData known es
    return ((a, b) :: ds, known)

end

/-- The characters of a text in units of two bytes, the first of them the lower or the higher. -/
def ofUnits? (lowFirst : Bool) : Text → Option (List Char)
  | [] => some []
  | a :: b :: rest => do
    let unit (a b : UInt8) : Nat :=
      if lowFirst then a.toNat + 256 * b.toNat else 256 * a.toNat + b.toNat
    let n := unit a b
    if 0xDC00 ≤ n && n < 0xE000 then none
    else if 0xD800 ≤ n && n < 0xDC00 then
      match rest with
      | c :: d :: rest =>
        let m := unit c d
        if 0xDC00 ≤ m && m < 0xE000 then
          return Char.ofNat (0x10000 + (n - 0xD800) * 0x400 + (m - 0xDC00)) ::
            (← ofUnits? lowFirst rest)
        else none
      | _ => none
    else return Char.ofNat n :: (← ofUnits? lowFirst rest)
  | _ => none

/-- The characters of a file. A byte order mark tells how they are written, and does not count. -/
def decoded? (t : Text) : Option (List Char) :=
  match Text.after? [0xFF, 0xFE] t, Text.after? [0xFE, 0xFF] t with
  | some rest, _ => ofUnits? true rest
  | _, some rest => ofUnits? false rest
  | none, none =>
    if Text.isWellFormed t then some (Text.chars ((Text.after? [0xEF, 0xBB, 0xBF] t).getD t))
    else none

def isAllowed (c : Char) : Bool :=
  let n := c.toNat
  n == 0x09 || n == 0x0A || n == 0x0D || (0x20 ≤ n && n ≤ 0x7E) || n == 0x85 ||
    (0xA0 ≤ n && n ≤ 0xFFFD) || 0x10000 ≤ n

def unifyLines : List Char → List Char
  | [] => []
  | a :: rest =>
    if a = '\r' then
      match rest with
      | [] => ['\n']
      | b :: more => if b = '\n' then '\n' :: unifyLines more else '\n' :: unifyLines (b :: more)
    else if a.toNat = 0x85 then '\n' :: unifyLines rest
    else a :: unifyLines rest
termination_by cs => cs.length

def read (t : Text) : Option (List (Text × Datum)) := do
  let cs ← decoded? t
  if !cs.all isAllowed then none
  match ← Node.read (unifyLines cs) with
  | none => return []
  | some n =>
    let (d, _) ← n.datum []
    match d with
    | .record fields => some fields
    | .null => some []
    | _ => none

end HeaderBridge.Yaml
