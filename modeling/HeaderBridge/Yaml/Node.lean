import HeaderBridge.Yaml.Token

namespace HeaderBridge.Yaml

inductive Node
  | plain (t : Text)
  | quoted (t : Text)
  | list (items : List Node)
  | map (entries : List (Node × Node))
  | anchored (name : Text) (node : Node)
  | tagged (tag : Text) (node : Node)
  | reference (name : Text)
deriving Repr

def Node.void : Node := .plain []

abbrev Handles := List (Text × Text)

def tagStart : Text := "tag:yaml.org,2002:"

def standardHandles : Handles := [("!", "!"), ("!!", tagStart)]

def Handles.tag? (hs : Handles) (handle rest : Text) : Option Text :=
  if handle.isEmpty then some rest else (hs.lookup handle).map (· ++ rest)

structure Properties where
  anchor : Option Text := none
  tag : Option Text := none

def Properties.isNone (p : Properties) : Bool := p.anchor.isNone && p.tag.isNone

def Properties.dress (p : Properties) (n : Node) : Node :=
  let n := match p.tag with
    | some tag => if tag == ("!" : Text) then n else .tagged tag n
    | none => n
  match p.anchor with
  | some name => .anchored name n
  | none => n

/-- The properties in front of a node, one of each kind at most, and what follows them. -/
def properties (hs : Handles) : List Token → Option (Properties × List Token)
  | .anchor name :: .tag handle rest :: ts => do return (⟨name, ← hs.tag? handle rest⟩, ts)
  | .tag handle rest :: .anchor name :: ts => do return (⟨name, ← hs.tag? handle rest⟩, ts)
  | .anchor name :: ts => some (⟨name, none⟩, ts)
  | .tag handle rest :: ts => do return (⟨none, ← hs.tag? handle rest⟩, ts)
  | ts => some ({}, ts)

def startsWith (these : List Token) (ts : List Token) : Bool := ts.head?.any these.contains

mutual

/-- A node. Inside brackets it cannot be told by indentation; the value of a key may be a list that
is not indented any further than the key. -/
def node (hs : Handles) (block flush : Bool) : Nat → List Token → Option (Node × List Token)
  | 0, _ => none
  | _ + 1, .reference name :: ts => some (.reference name, ts)
  | fuel + 1, ts => do
    let (p, ts) ← properties hs ts
    match ts with
    | .plain t :: ts => return (p.dress (.plain t), ts)
    | .quoted t :: ts => return (p.dress (.quoted t), ts)
    | .openList :: ts =>
      let (items, ts) ← flowItems hs true fuel ts
      return (p.dress (.list items), ts)
    | .openMap :: ts =>
      let (entries, ts) ← flowEntries hs true fuel ts
      return (p.dress (.map entries), ts)
    | t :: rest =>
      if flush && t = .item then
        let (items, ts) ← flushItems hs fuel ts
        return (p.dress (.list items), ts)
      if block && t = .listStart then
        let (items, ts) ← blockItems hs fuel rest
        return (p.dress (.list items), ts)
      if block && t = .mapStart then
        let (entries, ts) ← blockEntries hs fuel rest
        return (p.dress (.map entries), ts)
      if p.isNone then none else return (p.dress .void, ts)
    | [] => none

def nodeUnless (hs : Handles) (these : List Token) (block flush : Bool) : Nat → List Token →
    Option (Node × List Token)
  | 0, _ => none
  | fuel + 1, ts => if startsWith these ts then some (.void, ts) else node hs block flush fuel ts

def valueUnless (hs : Handles) (these : List Token) (block : Bool) : Nat → List Token →
    Option (Node × List Token)
  | 0, _ => none
  | fuel + 1, .value :: ts => nodeUnless hs these block block fuel ts
  | _ + 1, ts => some (.void, ts)

def blockItems (hs : Handles) : Nat → List Token → Option (List Node × List Token)
  | 0, _ => none
  | fuel + 1, .item :: ts => do
    let (n, ts) ← nodeUnless hs [.item, .blockEnd] true false fuel ts
    let (ns, ts) ← blockItems hs fuel ts
    return (n :: ns, ts)
  | _ + 1, .blockEnd :: ts => some ([], ts)
  | _ + 1, _ => none

/-- The items of a list that is not indented, up to the first token that is no item. -/
def flushItems (hs : Handles) : Nat → List Token → Option (List Node × List Token)
  | 0, _ => none
  | fuel + 1, .item :: ts => do
    let (n, ts) ← nodeUnless hs [.item, .key, .value, .blockEnd] true false fuel ts
    let (ns, ts) ← flushItems hs fuel ts
    return (n :: ns, ts)
  | _ + 1, ts => some ([], ts)

def blockEntries (hs : Handles) : Nat → List Token → Option (List (Node × Node) × List Token)
  | 0, _ => none
  | fuel + 1, .key :: ts => do
    let (k, ts) ← nodeUnless hs [.key, .value, .blockEnd] true true fuel ts
    let (v, ts) ← valueUnless hs [.key, .value, .blockEnd] true fuel ts
    let (es, ts) ← blockEntries hs fuel ts
    return ((k, v) :: es, ts)
  | _ + 1, .blockEnd :: ts => some ([], ts)
  | _ + 1, _ => none

/-- The items of a list up to the closing bracket. A key with a value is a map of one entry; a key
that is left out takes the token in its place with it. -/
def flowItems (hs : Handles) (first : Bool) : Nat → List Token → Option (List Node × List Token)
  | 0, _ => none
  | _ + 1, .closeList :: ts => some ([], ts)
  | fuel + 1, ts => do
    let ts ← if first then some ts else if startsWith [.comma] ts then some ts.tail else none
    match ts with
    | .closeList :: ts => return ([], ts)
    | .key :: ts =>
      let (k, ts) ← if startsWith [.value, .comma, .closeList] ts then some (.void, ts.tail)
        else node hs false false fuel ts
      let (v, ts) ← valueUnless hs [.comma, .closeList] false fuel ts
      let (ns, ts) ← flowItems hs false fuel ts
      return (.map [(k, v)] :: ns, ts)
    | ts =>
      let (n, ts) ← node hs false false fuel ts
      let (ns, ts) ← flowItems hs false fuel ts
      return (n :: ns, ts)

def flowEntries (hs : Handles) (first : Bool) : Nat → List Token →
    Option (List (Node × Node) × List Token)
  | 0, _ => none
  | _ + 1, .closeMap :: ts => some ([], ts)
  | fuel + 1, ts => do
    let ts ← if first then some ts else if startsWith [.comma] ts then some ts.tail else none
    match ts with
    | .closeMap :: ts => return ([], ts)
    | .key :: ts =>
      let (k, ts) ← nodeUnless hs [.value, .comma, .closeMap] false false fuel ts
      let (v, ts) ← valueUnless hs [.comma, .closeMap] false fuel ts
      let (es, ts) ← flowEntries hs false fuel ts
      return ((k, v) :: es, ts)
    | ts =>
      let (k, ts) ← node hs false false fuel ts
      let (es, ts) ← flowEntries hs false fuel ts
      return ((k, .void) :: es, ts)

end

/-- The directives in front of a document. The version can be given once and is 1.1, and a handle
gets its meaning once. -/
def directives (versioned : Bool) (hs : Handles) : List Token → Option (Handles × List Token)
  | .version major minor :: ts =>
    if versioned || major != 1 || minor != 1 then none else directives true hs ts
  | .tagRule handle start :: ts =>
    if (hs.lookup handle).isSome then none else directives versioned (hs ++ [(handle, start)]) ts
  | ts => some (hs, ts)

/-- The first document of a file, and the tokens behind it; nothing if the file is empty. -/
def Node.ofTokens (ts : List Token) : Option (Option Node × List Token) := do
  let fuel := 4 * ts.length + 4
  match ts with
  | .streamEnd :: _ => return (none, ts)
  | _ =>
    let (hs, rest) ← directives false [] ts
    let handles := hs ++ standardHandles
    match rest with
    | .documentStart :: rest =>
      match rest with
      | .version _ _ :: _ | .tagRule _ _ :: _ => return (some .void, rest)
      | rest =>
        let (n, rest) ←
          nodeUnless handles [.documentStart, .documentEnd, .streamEnd] true false fuel rest
        return (some n, rest)
    | rest =>
      if rest.length != ts.length then none
      let (n, rest) ← node handles true false fuel rest
      return (some n, rest)

def lookahead : Nat := 3

/-- The first document of a text. The tokens next behind it must be readable too. -/
def Node.read (cs : List Char) : Option (Option Node) := do
  let (n, rest) ← Node.ofTokens (Token.scan cs)
  if rest.head? = some .unsettled ||
    ((rest.filter (· != .unsettled)).take lookahead).contains .fault then none
  return n

end HeaderBridge.Yaml
