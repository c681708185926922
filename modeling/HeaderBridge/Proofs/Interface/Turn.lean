import HeaderBridge.Proofs.Interface.Head

namespace HeaderBridge
namespace Interface

open Token

/-- A class definition that a search has come to, inside the open scopes. -/
structure Visit where
  scopes : List OpenScope
  key : Token
  head : Head

/-- How far a search has come: what it knows, and the tokens that it still has. -/
structure Stage where
  scopes : List OpenScope
  depth : Nat
  prev : Option Token
  ahead : List Token

/-- What a search comes to at a token. -/
inductive Turn
  | onward (next : Stage)
  | visit (v : Visit)

def turn (scopes : List OpenScope) (depth : Nat) (prev : Option Token) (t : Token)
    (ts : List Token) : Turn :=
  if t.isPunct '{' then .onward ⟨scopes, depth + 1, some t, ts⟩
  else if t.isPunct '}' then .onward ⟨closeScope depth scopes, depth - 1, some t, ts⟩
  else if t.isWord "namespace" then
    match namespaceHead? ts with
    | none => .onward ⟨scopes, depth, some t, ts⟩
    | some (names, brace, rest) =>
      .onward ⟨⟨Text.join "::" names, depth + 1⟩ :: scopes, depth + 1, some brace, rest⟩
  else if isClassKey t then
    match head? prev ts with
    | none => .onward ⟨scopes, depth, some t, ts⟩
    | some head => .visit ⟨scopes, t, head⟩
  else .onward ⟨scopes, depth, some t, ts⟩

/-- How a search goes on at the token `t` with `ts` behind it. -/
inductive Onward (scopes : List OpenScope) (depth : Nat) (prev : Option Token) (t : Token)
    (ts : List Token) : Stage → Prop
  | opened (hopen : t.isPunct '{' = true) : Onward scopes depth prev t ts ⟨scopes, depth + 1,
    some t, ts⟩
  | closed (hopen : t.isPunct '{' = false) (hclose : t.isPunct '}' = true) :
    Onward scopes depth prev t ts ⟨closeScope depth scopes, depth - 1, some t, ts⟩
  | entered {names : List Text} {brace : Token} {rest : List Token}
      (hword : t.isWord "namespace" = true)
      (hread : namespaceHead? ts = some (names, brace, rest)) :
    Onward scopes depth prev t ts ⟨⟨Text.join "::" names, depth + 1⟩ :: scopes, depth + 1,
      some brace, rest⟩
  | passed (hopen : t.isPunct '{' = false) (hclose : t.isPunct '}' = false)
      (hname : t.isWord "namespace" = true → namespaceHead? ts = none)
      (hhead : t.isWord "namespace" = false → isClassKey t = true → head? prev ts = none) :
    Onward scopes depth prev t ts ⟨scopes, depth, some t, ts⟩

namespace Visit

variable (source : Text) (v : Visit)

def scan : Except ScanFailure Scope := scanBlock (mask source) v.head.brace.pos.offset

def inside (c : Scope) : List Token := v.head.rest.takeWhile (·.pos.offset < c.stop)

def behind (c : Scope) : List Token := v.head.rest.dropWhile (·.pos.offset < c.stop)

def body (c : Scope) : Text := Text.slice source (v.head.brace.pos.offset + 1) (c.stop - 1)

def isAggregate (c : Scope) : Bool :=
  v.key.isWord "struct" && !(v.inside c).any (·.isWord "virtual")

/-- What the search ends with at the definition, unless it passes over it. -/
def outcome : Option (Except LocateFailure Interface) :=
  match v.scan source with
  | .error failure => some (.error (.scan failure v.head.brace.pos))
  | .ok c => if v.isAggregate c then none else some (ofHead v.scopes v.key v.head (v.body source c))

/-- Where the search goes on if it passes over the definition: behind the closer. -/
def next (depth : Nat) (c : Scope) : Stage :=
  ⟨v.scopes, depth, (v.inside c).getLast?.or (some v.head.brace), v.behind c⟩

theorem inside_append_behind (c : Scope) : v.inside c ++ v.behind c = v.head.rest :=
  List.takeWhile_append_dropWhile

end Visit

def Stage.search (source : Text) (s : Stage) : Except LocateFailure Interface :=
  locateFrom source s.scopes s.depth s.prev s.ahead

theorem getLast?_behind (xs ys : List Token) (t : Token) :
    (xs ++ t :: ys).getLast? = ys.getLast?.or (some t) := by
  rw [List.getLast?_append, List.getLast?_cons]
  cases ys.getLast? <;> rfl

section Turns

variable {source : Text} {scopes : List OpenScope} {depth : Nat} {prev : Option Token} {t : Token}
    {ts : List Token}

theorem onward_of_turn {next : Stage} (h : turn scopes depth prev t ts = .onward next) :
    Onward scopes depth prev t ts next := by
  unfold turn at h
  cases hopen : t.isPunct '{' with
  | true =>
    rw [if_pos hopen] at h
    obtain rfl := Turn.onward.inj h
    exact .opened hopen
  | false =>
    rw [if_neg (by simp [hopen])] at h
    cases hclose : t.isPunct '}' with
    | true =>
      rw [if_pos hclose] at h
      obtain rfl := Turn.onward.inj h
      exact .closed hopen hclose
    | false =>
      rw [if_neg (by simp [hclose])] at h
      cases hword : t.isWord "namespace" with
      | true =>
        rw [if_pos hword] at h
        cases hread : namespaceHead? ts with
        | none =>
          rw [hread] at h
          obtain rfl := Turn.onward.inj h
          exact .passed hopen hclose (fun _ => hread) (by simp [hword])
        | some found =>
          rw [hread] at h
          obtain rfl := Turn.onward.inj h
          exact .entered hword hread
      | false =>
        rw [if_neg (by simp [hword])] at h
        split at h
        · split at h
          · obtain rfl := Turn.onward.inj h
            exact .passed hopen hclose (by simp [hword]) fun _ _ => ‹_›
          · cases h
        · obtain rfl := Turn.onward.inj h
          exact .passed hopen hclose (by simp [hword]) fun _ hkey => absurd hkey ‹_›

/-- A search goes on behind tokens that it has passed, the last of which it remembers. -/
theorem exists_passed_of_turn {next : Stage} (h : turn scopes depth prev t ts = .onward next) :
    ∃ passed, ts = passed ++ next.ahead ∧ next.prev = passed.getLast?.or (some t) := by
  cases onward_of_turn h with
  | opened | closed | passed => exact ⟨[], rfl, rfl⟩
  | @entered _ brace _ _ hread =>
    obtain ⟨_, lead, rfl⟩ := suffix_of_namespaceHead? hread
    exact ⟨lead ++ [brace], by simp, by simp⟩

/-- A definition is read from its keyword on, in the scopes that are open there. -/
theorem eq_of_turn_visit {v : Visit} (h : turn scopes depth prev t ts = .visit v) :
    v.scopes = scopes ∧ v.key = t ∧ isClassKey t = true ∧ head? prev ts = some v.head := by
  unfold turn at h
  split at h
  · cases h
  · split at h
    · cases h
    · split at h
      · split at h <;> cases h
      · split at h
        · split at h
          · cases h
          · obtain rfl := Turn.visit.inj h
            exact ⟨rfl, rfl, ‹_›, ‹_›⟩
        · cases h

/-- Between the keyword and the body of a definition stands what its head is read from. -/
theorem exists_lead_of_turn {v : Visit} (h : turn scopes depth prev t ts = .visit v) :
    v.head.brace.isPunct '{' = true ∧ ∃ lead, ts = lead ++ v.head.brace :: v.head.rest := by
  obtain ⟨_, _, _, hhead⟩ := eq_of_turn_visit h
  obtain ⟨hbrace, lead, hlead⟩ := suffix_of_head? hhead
  exact ⟨hbrace, lead, hlead.symm⟩

theorem locateFrom_turn : locateFrom source scopes depth prev (t :: ts) =
    match turn scopes depth prev t ts with
    | .onward next => next.search source
    | .visit v =>
      match v.scan source with
      | .error failure => .error (.scan failure v.head.brace.pos)
      | .ok c =>
        if v.isAggregate c then (v.next depth c).search source
        else ofHead v.scopes v.key v.head (v.body source c) := by
  rw [locateFrom_cons, turn]
  split
  · rfl
  · split
    · rfl
    · split
      · cases namespaceHead? ts <;> rfl
      · split
        · cases head? prev ts <;> rfl
        · rfl

/-- An induction along a search: it ends with the tokens, it goes on, or it goes on behind a
definition. -/
theorem search_induction {motive : List OpenScope → Nat → Option Token → List Token → Prop}
    (done : ∀ scopes depth prev, motive scopes depth prev [])
    (onward : ∀ scopes depth prev t ts next, turn scopes depth prev t ts = .onward next →
      motive next.scopes next.depth next.prev next.ahead → motive scopes depth prev (t :: ts))
    (visit : ∀ scopes depth prev t ts v, turn scopes depth prev t ts = .visit v →
      (∀ c, motive v.scopes depth (v.next depth c).prev (v.behind c)) →
      motive scopes depth prev (t :: ts))
    (scopes : List OpenScope) (depth : Nat) (prev : Option Token) (ts : List Token) :
    motive scopes depth prev ts := by
  induction hn : ts.length using Nat.strongRecOn generalizing scopes depth prev ts with
  | ind n ih =>
    subst hn
    cases ts with
    | nil => exact done scopes depth prev
    | cons t ts =>
      have ih (scopes : List OpenScope) (depth : Nat) (prev : Option Token) {us : List Token}
          (hus : us <:+ ts) :=
        ih us.length (Nat.lt_succ_of_le hus.length_le) scopes depth prev us rfl
      cases hturn : turn scopes depth prev t ts with
      | onward next =>
        obtain ⟨passed, hpassed, _⟩ := exists_passed_of_turn hturn
        exact onward scopes depth prev t ts next hturn (ih _ _ _ ⟨passed, hpassed.symm⟩)
      | visit v =>
        obtain ⟨_, lead, hlead⟩ := exists_lead_of_turn hturn
        refine visit scopes depth prev t ts v hturn fun c => ih _ _ _ ?_
        exact (List.dropWhile_suffix _).trans ((List.suffix_cons _ _).trans ⟨lead, hlead.symm⟩)

end Turns
end Interface
end HeaderBridge
