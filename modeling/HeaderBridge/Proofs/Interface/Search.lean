import HeaderBridge.Proofs.Interface.Turn
import HeaderBridge.Proofs.Source.Brace

namespace HeaderBridge
namespace Interface

open Token

deriving instance DecidableEq for Except

/-- The class definitions that a search comes to among the tokens, in order. -/
def visitsFrom (source : Text) : List OpenScope → Nat → Option Token → List Token → List Visit
  | _, _, _, [] => []
  | scopes, depth, prev, t :: ts =>
    if t.isPunct '{' then visitsFrom source scopes (depth + 1) (some t) ts
    else if t.isPunct '}' then visitsFrom source (closeScope depth scopes) (depth - 1) (some t) ts
    else if t.isWord "namespace" then
      match h : namespaceHead? ts with
      | none => visitsFrom source scopes depth (some t) ts
      | some (names, brace, rest) =>
        have := namespaceHead?_length h
        visitsFrom source (⟨Text.join "::" names, depth + 1⟩ :: scopes) (depth + 1)
          (some brace) rest
    else if isClassKey t then
      match h : head? prev ts with
      | none => visitsFrom source scopes depth (some t) ts
      | some head =>
        have := head?_length h
        let v : Visit := ⟨scopes, t, head⟩
        match v.scan source with
        | .error _ => [v]
        | .ok c =>
          if v.isAggregate c then
            have := (List.dropWhile_sublist (·.pos.offset < c.stop) (l := head.rest)).length_le
            v :: visitsFrom source scopes depth ((v.inside c).getLast?.or (some head.brace))
              (head.rest.dropWhile (·.pos.offset < c.stop))
          else [v]
    else visitsFrom source scopes depth (some t) ts
termination_by _ _ _ ts => ts.length
decreasing_by all_goals simp_wf; try omega

/-- The class definitions that `locate` comes to. -/
def visits (source : Text) : List Visit :=
  visitsFrom source [] 0 none (significant (Token.ofText source))

/-- The definitions that the rest of a search comes to. -/
def Stage.visits (source : Text) (s : Stage) : List Visit :=
  visitsFrom source s.scopes s.depth s.prev s.ahead

/-- The definitions, turn by turn: the search goes on behind a plain aggregate, and ends at any
other. -/
theorem visitsFrom_turn (source : Text) (scopes : List OpenScope) (depth : Nat)
    (prev : Option Token) (t : Token) (ts : List Token) :
    visitsFrom source scopes depth prev (t :: ts) =
      match turn scopes depth prev t ts with
      | .onward next => next.visits source
      | .visit v =>
        match v.scan source with
        | .error _ => [v]
        | .ok c => if v.isAggregate c then v :: (v.next depth c).visits source else [v] := by
  rw [visitsFrom, turn]
  split
  · rfl
  · split
    · rfl
    · split
      · split <;> simp_all [Stage.visits]
      · split
        · split <;> simp_all [Stage.visits, Visit.next, Visit.behind]
        · rfl

/-- What a search ends with, given what it finds at the class definitions that it comes to. -/
def decided (source : Text) (vs : List Visit) : Except LocateFailure Interface :=
  (vs.findSome? (Visit.outcome source)).getD (.error .noInterface)

theorem decided_cons (source : Text) (v : Visit) (vs : List Visit) :
    decided source (v :: vs) = (v.outcome source).getD (decided source vs) := by
  rw [decided, List.findSome?_cons]
  cases v.outcome source <;> rfl

theorem decided_cases (source : Text) (vs : List Visit) :
    (∃ v ∈ vs, v.outcome source = some (decided source vs)) ∨
    decided source vs = .error .noInterface := by
  unfold decided
  cases hfound : vs.findSome? (Visit.outcome source) with
  | none => exact .inr rfl
  | some result =>
    obtain ⟨v, hv, hvisit⟩ := List.exists_of_findSome?_eq_some hfound
    exact .inl ⟨v, hv, hvisit⟩

theorem locateFrom_eq_decided (source : Text) (scopes : List OpenScope) (depth : Nat)
    (prev : Option Token) (ts : List Token) :
    locateFrom source scopes depth prev ts =
      decided source (visitsFrom source scopes depth prev ts) := by
  induction scopes, depth, prev, ts using search_induction with
  | done scopes depth prev =>
    rw [locateFrom, visitsFrom]
    rfl
  | onward scopes depth prev t ts next hturn ih =>
    rw [locateFrom_turn, visitsFrom_turn, hturn]
    exact ih
  | visit scopes depth prev t ts v hturn ih =>
    rw [locateFrom_turn, visitsFrom_turn, hturn]
    dsimp only
    cases hscan : v.scan source with
    | error failure => simp [decided_cons, Visit.outcome, hscan]
    | ok c =>
      cases hskip : v.isAggregate c with
      | true =>
        simp only [if_true, decided_cons, Visit.outcome, hscan, hskip, Option.getD_none]
        exact ih c
      | false => simp [decided_cons, Visit.outcome, hscan, hskip]

/-- Each definition that a search comes to at a token is the one there, or stands behind it. -/
theorem mem_visitsFrom_of_visit {source : Text} {scopes : List OpenScope} {depth : Nat}
    {prev : Option Token} {t : Token} {ts : List Token} {v w : Visit}
    (hturn : turn scopes depth prev t ts = .visit v)
    (hw : w ∈ visitsFrom source scopes depth prev (t :: ts)) :
    w = v ∨ ∃ c, v.scan source = .ok c ∧ v.isAggregate c = true ∧
    w ∈ (v.next depth c).visits source := by
  rw [visitsFrom_turn, hturn] at hw
  dsimp only at hw
  split at hw
  · exact .inl (List.mem_singleton.1 hw)
  · split at hw
    · exact (List.mem_cons.1 hw).imp_right fun hw => ⟨_, ‹_›, ‹_›, hw⟩
    · exact .inl (List.mem_singleton.1 hw)

/-- The definition can be read where it stands among the tokens: between its keyword and its brace
stands what its head is read from. -/
def Visit.StandsIn (v : Visit) (ts : List Token) : Prop :=
  ∃ before lead, ts = before ++ v.key :: (lead ++ v.head.brace :: v.head.rest) ∧
    isClassKey v.key = true ∧ v.head.brace.isPunct '{' = true ∧
    head? before.getLast? (lead ++ v.head.brace :: v.head.rest) = some v.head

theorem standsIn_of_mem_visitsFrom {source : Text} {scopes : List OpenScope} {depth : Nat}
    {before ts : List Token} {v : Visit}
    (hv : v ∈ visitsFrom source scopes depth before.getLast? ts) :
    v.StandsIn (before ++ ts) := by
  generalize hprev : before.getLast? = prev at hv
  induction scopes, depth, prev, ts using search_induction generalizing before with
  | done => simp [visitsFrom] at hv
  | onward scopes depth prev t ts next hturn ih =>
    obtain ⟨passed, rfl, hlast⟩ := exists_passed_of_turn hturn
    rw [visitsFrom_turn, hturn] at hv
    have hstands := @ih (before ++ t :: passed) (by rw [getLast?_behind, hlast]) hv
    rwa [List.append_assoc, List.cons_append] at hstands
  | visit scopes depth prev t ts w hturn ih =>
    obtain ⟨_, rfl, hkey, hhead⟩ := eq_of_turn_visit hturn
    obtain ⟨hbrace, lead, rfl⟩ := exists_lead_of_turn hturn
    rcases mem_visitsFrom_of_visit hturn hv with rfl | ⟨c, _, _, hv⟩
    · exact ⟨before, lead, rfl, hkey, hbrace, by rw [hprev, hhead]⟩
    · have hstands := @ih c (before ++ w.key :: (lead ++ w.head.brace :: w.inside c))
        (by rw [getLast?_behind, getLast?_behind, Option.or_assoc]; rfl) hv
      rw [← w.inside_append_behind c]
      simpa using hstands

theorem standsIn_of_mem_visits {source : Text} {v : Visit} (hv : v ∈ visits source) :
    v.StandsIn (significant (Token.ofText source)) := by
  have hfirst : v ∈ visitsFrom source [] 0 ([] : List Token).getLast?
      (significant (Token.ofText source)) := hv
  exact standsIn_of_mem_visitsFrom hfirst

theorem locate_eq_decided (source : Text) : locate source = decided source (visits source) :=
  locateFrom_eq_decided source [] 0 none _

/-- A plain aggregate is passed over, an enumeration is no class definition, and the first class
decides. -/
example :
    (visits ("struct P \x7b int x; \x7d; enum class E \x7b a \x7d;" ++
      "class A \x7b virtual void f() = 0; \x7d; class B \x7b virtual void g() = 0; \x7d;")).map
        (fun v => v.head.name) = [("P" : Text), "A"] := by
  decide +kernel

/-- An interface that is found is declared by a definition that the search comes to. -/
theorem exists_visit_of_ok {source : Text} {i : Interface} (h : locate source = .ok i) :
    ∃ v ∈ visits source, ∃ c, v.scan source = .ok c ∧
    ofHead v.scopes v.key v.head (v.body source c) = .ok i := by
  rw [locate_eq_decided] at h
  rcases decided_cases source (visits source) with ⟨v, hv, hvisit⟩ | hnone
  · refine ⟨v, hv, ?_⟩
    rw [h] at hvisit
    unfold Visit.outcome at hvisit
    split at hvisit
    · cases Option.some.inj hvisit
    · rename_i c hc
      split at hvisit
      · cases hvisit
      · exact ⟨c, hc, Option.some.inj hvisit⟩
  · rw [h] at hnone
    cases hnone

end Interface
end HeaderBridge
