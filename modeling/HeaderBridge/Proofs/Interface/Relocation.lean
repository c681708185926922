import HeaderBridge.Proofs.Interface.Turn

namespace HeaderBridge

def Token.moved (f : Pos → Pos) (t : Token) : Token := { t with pos := f t.pos }

theorem Token.moves_moved (f : Pos → Pos) : Moves (moved f) := ⟨fun _ => rfl, fun _ => rfl⟩

theorem takeWhile_map_of_agree {α : Type} {g : α → α} {p q : α → Bool} {ts : List α}
    (h : ∀ t ∈ ts, q (g t) = p t) : (ts.map g).takeWhile q = (ts.takeWhile p).map g := by
  induction ts with
  | nil => rfl
  | cons t ts ih =>
    rw [List.map_cons, List.takeWhile_cons, List.takeWhile_cons, h t (by simp),
      ih fun u hu => h u (by simp [hu])]
    split <;> rfl

theorem dropWhile_map_of_agree {α : Type} {g : α → α} {p q : α → Bool} {ts : List α}
    (h : ∀ t ∈ ts, q (g t) = p t) : (ts.map g).dropWhile q = (ts.dropWhile p).map g := by
  induction ts with
  | nil => rfl
  | cons t ts ih =>
    rw [List.map_cons, List.dropWhile_cons, List.dropWhile_cons, h t (by simp),
      ih fun u hu => h u (by simp [hu])]
    split <;> rfl

namespace Interface

def lower (n : Nat) (i : Interface) : Interface :=
  { i with line := i.line + n, methods := i.methods.map fun m => { m with line := m.line + n } }

/-- Two searches end alike: with the same interface, `down` lines further down, or with failures
that `alike` relates. -/
def Agree (down : Nat) (alike : LocateFailure → LocateFailure → Prop) :
    Except LocateFailure Interface → Except LocateFailure Interface → Prop
  | .ok i, .ok j => j = i.lower down
  | .error e, .error f => alike e f
  | _, _ => False

/-- The bodies that start at `b` in one text and at `move b` in the other are cut out alike and
declare the same methods. The tokens `ts` of the first text lie on the same side of their ends. -/
def SameBody (s s' : Text) (move : Pos → Pos) (alike : LocateFailure → LocateFailure → Prop)
    (ts : List Token) (b : Pos) : Prop :=
  match scanBlock (mask s) b.offset, scanBlock (mask s') (move b).offset with
  | .ok c, .ok c' =>
    let body := Text.slice s (b.offset + 1) (c.stop - 1)
    let body' := Text.slice s' ((move b).offset + 1) (c'.stop - 1)
    (∀ t ∈ ts, decide ((move t.pos).offset < c'.stop) = decide (t.pos.offset < c.stop)) ∧
      Method.ofBody body' = Method.ofBody body ∧
      ∀ name key, alike (.noPureVirtual name body key) (.noPureVirtual name body' (move key))
  | .error e, .error e' => alike (.scan e b) (.scan e' (move b))
  | _, _ => False

/-- The tokens `ts` of the text `s` stand in `s'` too, at the places that `move` gives. -/
structure Relocation (s s' : Text) (move : Pos → Pos) (down : Nat)
    (alike : LocateFailure → LocateFailure → Prop) (ts : List Token) : Prop where
  line : ∀ p, (move p).line = p.line + down
  noInterface : alike .noInterface .noInterface
  body : ∀ b ∈ ts, b.isPunct '{' → SameBody s s' move alike ts b.pos

section Turns

variable {g : Token → Token}

def Visit.map (g : Token → Token) (v : Visit) : Visit := ⟨v.scopes, g v.key, v.head.map g⟩

def Stage.map (g : Token → Token) (s : Stage) : Stage :=
  ⟨s.scopes, s.depth, s.prev.map g, s.ahead.map g⟩

def Turn.map (g : Token → Token) : Turn → Turn
  | onward next => onward (next.map g)
  | visit v => visit (v.map g)

/-- At a moved token a search comes to what it comes to at the token, moved. -/
theorem turn_map (hg : Token.Moves g) (scopes : List OpenScope) (depth : Nat) (prev : Option Token)
    (t : Token) (ts : List Token) :
    turn scopes depth (prev.map g) (g t) (ts.map g) = (turn scopes depth prev t ts).map g := by
  unfold turn
  rw [hg.isPunct, hg.isPunct, hg.isWord, isClassKey_map hg, namespaceHead?_map hg, head?_map hg]
  split
  · rfl
  · split
    · rfl
    · split
      · cases namespaceHead? ts <;> rfl
      · split
        · cases head? prev ts <;> rfl
        · rfl

namespace Visit

variable {move : Pos → Pos} {v : Visit} {c c' : Scope}
  (hside : ∀ u ∈ v.head.rest, decide ((u.moved move).pos.offset < c'.stop) =
    decide (u.pos.offset < c.stop))
include hside

theorem inside_moved : (v.map (Token.moved move)).inside c' = (v.inside c).map (Token.moved move) :=
  takeWhile_map_of_agree hside

theorem behind_moved : (v.map (Token.moved move)).behind c' = (v.behind c).map (Token.moved move) :=
  dropWhile_map_of_agree hside

theorem isAggregate_moved : (v.map (Token.moved move)).isAggregate c' = v.isAggregate c := by
  rw [isAggregate, inside_moved hside, List.any_map]
  rfl

theorem next_moved (depth : Nat) :
    (v.map (Token.moved move)).next depth c' = (v.next depth c).map (Token.moved move) := by
  rw [next, inside_moved hside, behind_moved hside, List.getLast?_map]
  cases h : (v.inside c).getLast? <;> simp [next, Stage.map, Visit.map, Head.map, h]

end Visit
end Turns

section Agreement

variable {s s' : Text} {move : Pos → Pos} {down : Nat}
    {alike : LocateFailure → LocateFailure → Prop}
  {ts : List Token}

theorem ofHead_agree (hline : ∀ p, (move p).line = p.line + down) {body body' : Text}
    (hbody : Method.ofBody body' = Method.ofBody body)
    (halike :
      ∀ name key, alike (.noPureVirtual name body key) (.noPureVirtual name body' (move key)))
    (scopes : List OpenScope) (key : Token) (head : Head) :
    Agree down alike (ofHead scopes key head body)
      (ofHead scopes (key.moved move) (head.map (Token.moved move)) body') := by
  unfold ofHead
  rw [hbody]
  cases Method.ofBody body with
  | nil => exact halike head.name key.pos
  | cons m ms =>
    have hmethods (m : Method) : m.line + ((head.map (Token.moved move)).brace.pos.line : Int) - 1 =
        m.line + (head.brace.pos.line : Int) - 1 + down := by
      change m.line + ((move head.brace.pos).line : Int) - 1 = _
      rw [hline, Int.natCast_add]
      omega
    simp only [Agree, lower, List.map_map, Function.comp_def, hmethods]
    simp [Token.moved, Head.map, hline]

/-- A search through relocated tokens ends as the search through the original ones does. -/
theorem locateFrom_agree (r : Relocation s s' move down alike ts) (scopes : List OpenScope)
    (depth : Nat) (prev : Option Token) (us : List Token) (hus : us <:+ ts) :
    Agree down alike (locateFrom s scopes depth prev us)
      (locateFrom s' scopes depth (prev.map (Token.moved move)) (us.map (Token.moved move))) := by
  have hturns := turn_map (Token.moves_moved move)
  induction scopes, depth, prev, us using search_induction with
  | done scopes depth prev =>
    rw [List.map_nil, locateFrom, locateFrom]
    exact r.noInterface
  | onward scopes depth prev t us next hturn ih =>
    obtain ⟨passed, rfl, _⟩ := exists_passed_of_turn hturn
    rw [List.map_cons, locateFrom_turn, locateFrom_turn, hturns, hturn]
    exact ih ((List.suffix_append passed next.ahead).trans ((List.suffix_cons t _).trans hus))
  | visit scopes depth prev t us v hturn ih =>
    obtain ⟨hbrace, lead, rfl⟩ := exists_lead_of_turn hturn
    have hts : v.head.brace :: v.head.rest <:+ ts :=
      (List.suffix_append lead _).trans ((List.suffix_cons t _).trans hus)
    have hbody := r.body v.head.brace (hts.subset (by simp)) hbrace
    rw [List.map_cons, locateFrom_turn, locateFrom_turn, hturns, hturn]
    dsimp only [Turn.map]
    unfold SameBody at hbody
    split at hbody
    · rename_i c c' hc hc'
      obtain ⟨hside, hmethods, halike⟩ := hbody
      have hside : ∀ u ∈ v.head.rest, decide ((u.moved move).pos.offset < c'.stop) =
          decide (u.pos.offset < c.stop) :=
        fun u hu => hside u (hts.subset (by simp [hu]))
      have hc : v.scan s = .ok c := hc
      have hc' : (v.map (Token.moved move)).scan s' = .ok c' := hc'
      rw [hc, hc']
      dsimp only
      rw [Visit.isAggregate_moved hside, Visit.next_moved hside]
      split
      · exact ih c
          ((List.dropWhile_suffix _).trans ((List.suffix_cons v.head.brace v.head.rest).trans hts))
      · exact ofHead_agree r.line hmethods halike v.scopes v.key v.head
    · rename_i e e' he he'
      have he : v.scan s = .error e := he
      have he' : (v.map (Token.moved move)).scan s' = .error e' := he'
      rw [he, he']
      exact hbody
    · exact hbody.elim

end Agreement
end Interface
end HeaderBridge
