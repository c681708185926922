import HeaderBridge.Interface.Locate

namespace HeaderBridge

/-- `g` changes nothing of a token but its place. -/
structure Token.Moves (g : Token → Token) : Prop where
  kind : ∀ t, (g t).kind = t.kind
  text : ∀ t, (g t).text = t.text

namespace Token

variable {g : Token → Token} (hg : Moves g)
include hg

theorem Moves.isPunct (t : Token) (c : Char) : (g t).isPunct c = t.isPunct c := by
  simp [Token.isPunct, hg.kind, hg.text]

theorem Moves.isIdent (t : Token) : (g t).isIdent = t.isIdent := by
  simp [Token.isIdent, hg.kind]

theorem Moves.isWord (t : Token) (w : String) : (g t).isWord w = t.isWord w := by
  simp [Token.isWord, hg.kind, hg.text]

theorem Moves.sign? (t : Token) : (g t).sign? = t.sign? := by
  simp [Token.sign?, hg.kind, hg.text]

theorem closeParen_map (depth : Nat) (ts : List Token) :
    closeParen depth (ts.map g) =
      (closeParen depth ts).map (Prod.map (List.map g) (List.map g)) := by
  induction ts generalizing depth with
  | nil => rfl
  | cons t ts ih =>
    rw [List.map_cons, closeParen.eq_def, closeParen.eq_def]
    simp only [hg.isPunct, ih, Option.map_map, Function.comp_def]
    split
    · simp [Function.comp_def]
    · split
      · cases depth <;> simp [Function.comp_def]
      · split <;> simp [Function.comp_def]

end Token

namespace Nesting

variable {g : Token → Token} (hg : Token.Moves g)
include hg

theorem step_map (n : Nesting) (prev : Option Token) (t : Token) :
    n.step (prev.map g) (g t) = n.step prev t := by
  have : (prev.map g).any Token.isIdent = prev.any Token.isIdent := by
    cases prev <;> simp [hg.isIdent]
  simp only [step, hg.sign?, this]

end Nesting

namespace Parameter

variable {g : Token → Token} (hg : Token.Moves g)
include hg

theorem splitCommas_map (n : Nesting) (prev : Option Token) (ts : List Token) :
    splitCommas n (prev.map g) (ts.map g) =
      ((splitCommas n prev ts).1.map (List.map g), (splitCommas n prev ts).2) := by
  induction ts generalizing n prev with
  | nil => rfl
  | cons t ts ih =>
    have ih := fun n => ih n (some t)
    rw [Option.map_some] at ih
    rw [List.map_cons, splitCommas, splitCommas, hg.isPunct, Nesting.step_map hg]
    split
    · simp [ih]
    · simp only [ih]
      cases (splitCommas (n.step prev t) (some t) ts).1 <;> simp

theorem segments_map (ts : List Token) : segments (ts.map g) = (segments ts).map (List.map g) := by
  have h := fun n => splitCommas_map hg n none ts
  rw [Option.map_none] at h
  simp only [segments, h]
  split <;> rfl

theorem splitDefault_map (n : Nesting) (prev : Option Token) (ts : List Token) :
    splitDefault n (prev.map g) (ts.map g) =
      ((splitDefault n prev ts).1.map g, (splitDefault n prev ts).2.map (List.map g)) := by
  induction ts generalizing n prev with
  | nil => rfl
  | cons t ts ih =>
    have ih := fun n => ih n (some t)
    rw [Option.map_some] at ih
    rw [List.map_cons, splitDefault, splitDefault, hg.isPunct, Nesting.step_map hg]
    split
    · simp
    · simp [ih]

theorem dropBounds_map (depth : Nat) (ts : List Token) :
    dropBounds depth (ts.map g) = (dropBounds depth ts).map (List.map g) := by
  fun_induction dropBounds depth ts <;> simp_all [dropBounds, hg.isPunct]

theorem isTrailingName_map (before : List Token) (last : Token) :
    isTrailingName (before.map g) (g last) = isTrailingName before last := by
  simp only [isTrailingName, hg.text, List.getLast?_map, List.any_map, Function.comp_def,
    hg.isIdent]
  cases before.getLast? <;> simp [hg.kind]

theorem groupName?_map (inner : List Token) :
    groupName? (inner.map g) = (groupName? inner).map (Prod.map (List.map g) g) := by
  simp only [groupName?, List.head?_map, ← List.map_reverse]
  cases inner.head? with
  | none => rfl
  | some first =>
    match inner.reverse with
    | [] => rfl
    | [last] => rfl
    | last :: prev :: more =>
      simp only [Option.map_some, List.map_cons, hg.isPunct, hg.isIdent, hg.text, hg.kind]
      split <;> simp

def Named.map (g : Token → Token) (n : Named) : Named := ⟨n.before.map g, g n.name, n.after.map g⟩

theorem groupedFrom_map (n : Nesting) (seen ts : List Token) :
    groupedFrom n (seen.map g) (ts.map g) = (groupedFrom n seen ts).map (Named.map g) := by
  induction ts generalizing n seen with
  | nil => rfl
  | cons t ts ih =>
    have ih := ih (n.step seen.head? t) (t :: seen)
    rw [List.map_cons] at ih
    rw [List.map_cons, groupedFrom, groupedFrom, hg.isPunct, List.head?_map, Nesting.step_map hg,
      ih, Token.closeParen_map hg]
    split
    · cases Token.closeParen 0 ts with
      | none => rfl
      | some r => simp [groupName?_map hg, Named.map, Function.comp_def]
    · rfl

theorem groupedName_map (ts : List Token) :
    groupedName (ts.map g) = (groupedName ts).map (Named.map g) := by
  cases ts with
  | nil => rfl
  | cons t ts => exact groupedFrom_map hg {} [t] ts

theorem findName_map (decl : List Token) :
    findName (decl.map g) = (findName decl).map (Named.map g) := by
  rw [findName, findName, ← List.map_reverse, dropBounds_map hg]
  match dropBounds 0 decl.reverse with
  | none => rfl
  | some [] => exact groupedName_map hg decl
  | some (last :: seen) =>
    simp only [Option.map_some, List.map_cons, hg.isIdent, ← List.map_reverse,
      isTrailingName_map hg, groupedName_map hg, List.length_map, ← List.map_drop]
    split
    · rfl
    · split <;> simp [Named.map]

end Parameter

namespace Method

variable {g : Token → Token} (hg : Token.Moves g)
include hg

theorem splitParams_map (angle : Nat) (prev : Option Token) (ts : List Token) :
    splitParams angle (prev.map g) (ts.map g) =
      (splitParams angle prev ts).map (Prod.map (List.map g) (List.map g)) := by
  induction ts generalizing angle prev with
  | nil => rfl
  | cons t ts ih =>
    have hprev : (prev.map g).any Token.isIdent = prev.any Token.isIdent := by
      cases prev <;> simp [hg.isIdent]
    have ih := fun angle => ih angle (some t)
    rw [Option.map_some] at ih
    rw [List.map_cons, splitParams, splitParams]
    simp only [hg.sign?, hprev, ih, Option.map_map, Function.comp_def]
    split <;> simp [Function.comp_def]
    split <;> simp [Function.comp_def]

theorem takeWord_map (w : String) (ts : List Token) :
    takeWord w (ts.map g) = ((takeWord w ts).1, (takeWord w ts).2.map g) := by
  cases ts with
  | nil => rfl
  | cons t ts =>
    simp only [List.map_cons, takeWord, hg.isWord]
    split <;> simp

theorem afterPureMark_map (ts : List Token) :
    afterPureMark (ts.map g) = (afterPureMark ts).map (List.map g) := by
  match ts with
  | [] => rfl
  | [a] => rfl
  | [a, b] => rfl
  | a :: b :: c :: rest =>
    simp only [List.map_cons, afterPureMark, hg.isPunct, hg.kind, hg.text]
    split <;> simp

theorem readTail_map (ts : List Token) :
    readTail (ts.map g) = (readTail ts).map fun r => (r.1, r.2.1, r.2.2.map g) := by
  simp [readTail, takeWord_map hg, afterPureMark_map hg, Function.comp_def]

theorem isMethodName_map (prev name : Token) :
    isMethodName (g prev) (g name) = isMethodName prev name := by
  simp [isMethodName, hg.isIdent, hg.isWord, hg.text, hg.kind, hg.isPunct]

def Declaration.map (g : Token → Token) (d : Declaration) : Declaration :=
  { d with type := d.type.map g, name := g d.name, params := d.params.map g, rest := d.rest.map g }

theorem declaration?_map (ts : List Token) :
    declaration? (ts.map g) = (declaration? ts).map (Declaration.map g) := by
  have hs := splitParams_map hg 0 none ts
  rw [Option.map_none] at hs
  rw [declaration?, declaration?, hs]
  cases splitParams 0 none ts with
  | none => rfl
  | some r =>
    obtain ⟨head, afterOpen⟩ := r
    simp only [Option.map_some, Prod.map_apply, ← List.map_reverse]
    match head.reverse with
    | [] => rfl
    | [name] => rfl
    | name :: prev :: more =>
      simp only [List.map_cons, isMethodName_map hg, Token.closeParen_map hg]
      split
      · rfl
      · cases Token.closeParen 0 afterOpen with
        | none => rfl
        | some r => simp [← List.map_tail, readTail_map hg, Declaration.map, Function.comp_def]

end Method

namespace Interface

theorem headName_cons (name : Text) (t : Token) (ts : List Token) : headName name (t :: ts) =
    if t.isPunct '[' && ts.head?.any (·.isPunct '[') then (afterBrackets 0 ts).bind (headName name)
    else if t.isWord "final" then some (name, t :: ts)
    else if t.isIdent then
      if ts.head?.any (·.isPunct '(') then
        (Token.closeParen 0 ts.tail).bind fun r => headName name r.2.tail
      else if isClassKey t then none
      else headName t.text ts
    else some (name, t :: ts) := by
  rw [headName]
  split
  · split <;> simp_all
  · split
    · rfl
    · split
      · split
        · split <;> simp_all
        · rfl
      · rfl

theorem locateFrom_cons (source : Text) (scopes : List OpenScope) (depth : Nat)
    (prev : Option Token) (t : Token) (ts : List Token) :
    locateFrom source scopes depth prev (t :: ts) =
    if t.isPunct '{' then locateFrom source scopes (depth + 1) (some t) ts
    else if t.isPunct '}' then locateFrom source (closeScope depth scopes) (depth - 1) (some t) ts
    else if t.isWord "namespace" then
      match namespaceHead? ts with
      | none => locateFrom source scopes depth (some t) ts
      | some (names, brace, rest) =>
        locateFrom source (⟨Text.join "::" names, depth + 1⟩ :: scopes) (depth + 1)
          (some brace) rest
    else if isClassKey t then
      match head? prev ts with
      | none => locateFrom source scopes depth (some t) ts
      | some head => match scanBlock (mask source) head.brace.pos.offset with
        | .error failure => .error (.scan failure head.brace.pos)
        | .ok body =>
          let inside := head.rest.takeWhile (·.pos.offset < body.stop)
          if t.isWord "struct" && !inside.any (·.isWord "virtual") then
            locateFrom source scopes depth (inside.getLast?.or (some head.brace))
              (head.rest.dropWhile (·.pos.offset < body.stop))
          else ofHead scopes t head (Text.slice source (head.brace.pos.offset + 1) (body.stop - 1))
    else locateFrom source scopes depth (some t) ts := by
  rw [locateFrom]
  split
  · rfl
  · split
    · rfl
    · split
      · split <;> simp_all
      · split
        · split
          · simp_all
          · split <;> simp_all
        · rfl

variable {g : Token → Token} (hg : Token.Moves g)
include hg

theorem isClassKey_map (t : Token) : isClassKey (g t) = isClassKey t := by
  simp [isClassKey, hg.isWord]

theorem afterBrackets_map (depth : Nat) (ts : List Token) :
    afterBrackets depth (ts.map g) = (afterBrackets depth ts).map (List.map g) := by
  fun_induction afterBrackets depth ts <;> simp_all [afterBrackets, hg.isPunct]

theorem headName_map (name : Text) (ts : List Token) :
    headName name (ts.map g) = (headName name ts).map (Prod.map id (List.map g)) := by
  have hopen (c : Char) (ts : List Token) :
      (ts.map g).head?.any (·.isPunct c) = ts.head?.any (·.isPunct c) := by
    cases ts <;> simp [hg.isPunct]
  fun_induction headName name ts with
  | case1 => simp [headName]
  | _ =>
    simp_all only [List.map_cons, headName_cons, hg.isPunct, hg.isWord, hg.isIdent, hg.text,
      isClassKey_map hg, afterBrackets_map hg, Token.closeParen_map hg, ← List.map_tail,
      Option.map_some, Option.map_none, Option.bind_some, Option.bind_none, Prod.map, id,
      Bool.false_eq_true, if_true, if_false]

theorem headBrace_map (angle : Nat) (ts : List Token) :
    headBrace angle (ts.map g) = (headBrace angle ts).map (Prod.map g (List.map g)) := by
  induction ts generalizing angle with
  | nil => rfl
  | cons t ts ih =>
    rw [List.map_cons, headBrace, headBrace]
    simp only [hg.sign?, ih, isClassKey_map hg]
    split
    · rfl
    · rfl
    · rfl
    · split <;> rfl
    · split <;> rfl
    · rfl
    · rfl
    · rfl
    · split <;> rfl

def Head.map (g : Token → Token) (h : Head) : Head := ⟨h.name, g h.brace, h.rest.map g⟩

theorem head?_map (prev : Option Token) (ts : List Token) :
    head? (prev.map g) (ts.map g) = (head? prev ts).map (Head.map g) := by
  have hprev : (prev.map g).any barsHead = prev.any barsHead := by
    cases prev <;> simp [barsHead, hg.isWord, hg.isPunct]
  rw [head?, head?, hprev, headName_map hg]
  split
  · rfl
  · cases headName [] ts with
    | none => rfl
    | some r =>
      simp only [Option.map_some, Prod.map, id, headBrace_map hg]
      split <;> simp [Head.map, Function.comp_def]

theorem namespaceHead?_map (ts : List Token) :
    namespaceHead? (ts.map g) =
      (namespaceHead? ts).map fun r => (r.1, g r.2.1, r.2.2.map g) := by
  induction ts with
  | nil => rfl
  | cons t ts ih =>
    rw [List.map_cons, namespaceHead?, namespaceHead?]
    simp only [hg.isPunct, hg.isIdent, hg.kind, hg.text, ih, Option.map_map, Function.comp_def]
    split
    · rfl
    · split
      · simp [Function.comp_def]
      · split <;> rfl

end Interface
end HeaderBridge
