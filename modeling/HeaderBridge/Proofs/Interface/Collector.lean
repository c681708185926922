import HeaderBridge.Proofs.Interface.Lookahead

namespace HeaderBridge
namespace Method

open Token

/-- The declaration that is read at the token `t` with `ts` behind it, if there is one. -/
def declared? (depth : Nat) (t : Token) (ts : List Token) : Option Declaration :=
  if depth = 0 ∧ t.isWord "virtual" then declaration? ts else none

theorem declared?_eq_some {depth : Nat} {t : Token} {ts : List Token} {d : Declaration} :
    declared? depth t ts = some d ↔ depth = 0 ∧ t.isWord "virtual" = true ∧
    declaration? ts = some d := by
  unfold declared?
  split
  · simp_all
  · rename_i hnone
    exact iff_of_false (by simp) fun h => hnone ⟨h.1, h.2.1⟩

theorem declared?_map {g : Token → Token} (hg : Moves g) (depth : Nat) (t : Token)
    (ts : List Token) :
    declared? depth (g t) (ts.map g) = (declared? depth t ts).map (Declaration.map g) := by
  rw [declared?, declared?, hg.isWord, declaration?_map hg]
  split <;> rfl

/-- The branches of the collector at a token, as two: it reads a declaration, or it counts
braces. -/
theorem branch_eq {α : Type} (depth : Nat) (t : Token) (ts : List Token) (behind : Declaration → α)
    (onward : Nat → α) :
    (if t.isPunct '{' then onward (depth + 1)
      else if t.isPunct '}' then onward (depth - 1)
      else if depth = 0 ∧ t.isWord "virtual" then
        match declaration? ts with
        | some d => behind d
        | none => onward depth
      else onward depth) =
      match declared? depth t ts with
      | some d => behind d
      | none => onward (openAfter '{' '}' depth t) := by
  cases hd : declared? depth t ts with
  | some d =>
    obtain ⟨rfl, hvirtual, hread⟩ := declared?_eq_some.1 hd
    have hident := isIdent_of_isWord hvirtual
    simp [not_isPunct_of_isIdent hident, hvirtual, hread]
  | none =>
    dsimp only
    rw [openAfter]
    split
    · rfl
    · split
      · rfl
      · split
        · rename_i hvirtual
          rw [declared?, if_pos hvirtual] at hd
          rw [hd]
        · rfl

theorem collect_cons (source : Text) (depth : Nat) (t : Token) (ts : List Token) :
    collect source depth (t :: ts) =
      if t.isPunct '{' then collect source (depth + 1) ts
      else if t.isPunct '}' then collect source (depth - 1) ts
      else if depth = 0 ∧ t.isWord "virtual" then
        match declaration? ts with
        | some d => ofDeclaration source t.pos.line d :: collect source 0 d.rest
        | none => collect source depth ts
      else collect source depth ts := by
  rw [collect]
  split
  · rfl
  · split
    · rfl
    · split
      · split <;> simp_all
      · rfl

theorem collect_step (source : Text) (depth : Nat) (t : Token) (ts : List Token) :
    collect source depth (t :: ts) =
      match declared? depth t ts with
      | some d => ofDeclaration source t.pos.line d :: collect source 0 d.rest
      | none => collect source (openAfter '{' '}' depth t) ts :=
  (collect_cons source depth t ts).trans (branch_eq depth t ts _ (collect source · ts))

/-- An induction along the collector: it ends with the tokens, it passes over one, or it goes on
behind a declaration. -/
theorem collect_induction {motive : Nat → List Token → Prop} (done : ∀ depth, motive depth [])
    (passed : ∀ depth t ts, declared? depth t ts = none → motive (openAfter '{' '}' depth t) ts →
      motive depth (t :: ts))
    (declared : ∀ t ts d, declared? 0 t ts = some d → motive 0 d.rest → motive 0 (t :: ts))
    (depth : Nat) (ts : List Token) : motive depth ts := by
  induction hn : ts.length using Nat.strongRecOn generalizing depth ts with
  | ind n ih =>
    subst hn
    cases ts with
    | nil => exact done depth
    | cons t ts =>
      cases hd : declared? depth t ts with
      | none => exact passed depth t ts hd (ih ts.length (Nat.lt_succ_self _) _ ts rfl)
      | some d =>
        obtain ⟨rfl, _, hread⟩ := declared?_eq_some.1 hd
        exact declared t ts d hd (ih _ (Nat.lt_succ_of_lt (declaration?_length hread)) 0 d.rest rfl)

end Method
end HeaderBridge
