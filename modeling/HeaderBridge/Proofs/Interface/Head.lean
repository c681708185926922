import HeaderBridge.Proofs.Interface.Moves
import HeaderBridge.Proofs.Text.Cells

namespace HeaderBridge

theorem toUInt8_ofNat : ∀ b : UInt8, (Char.ofNat b.toNat).toUInt8 = b :=
  forall_byte (by decide +kernel)

theorem Token.isPunct_of_sign? {t : Token} {c : Char} (h : t.sign? = some c) :
    t.isPunct c = true := by
  obtain ⟨k, text, p⟩ := t
  unfold sign? at h
  split at h
  · rename_i b hk ht
    obtain rfl := Option.some.inj h
    simp_all [isPunct, toUInt8_ofNat]
  · simp at h

theorem Token.sign?_of_isPunct {t : Token} {c : Char} (h : t.isPunct c = true)
    (hc : Char.ofNat c.toUInt8.toNat = c) : t.sign? = some c := by
  obtain ⟨k, text, p⟩ := t
  obtain ⟨rfl, rfl⟩ := isPunct_iff.1 h
  simp [sign?, hc]

/-- Whether the tokens close `depth` brackets of a kind and those that they open, and no others. -/
def Token.closes (opener closer : Char) : Nat → List Token → Bool
  | depth, [] => depth == 0
  | depth, t :: ts =>
    if t.isPunct opener then closes opener closer (depth + 1) ts
    else if t.isPunct closer then depth != 0 && closes opener closer (depth - 1) ts
    else closes opener closer depth ts

theorem Token.eq_of_closeParen {depth : Nat} {ts inner rest : List Token}
    (h : closeParen depth ts = some (inner, rest)) :
    ∃ close tail, rest = close :: tail ∧ close.isPunct ')' = true ∧
    ts = inner ++ close :: tail := by
  induction ts generalizing depth inner with
  | nil => simp [closeParen] at h
  | cons t ts ih =>
    have hstep {d : Nat}
        (hd : (closeParen d ts).map (fun r => (t :: r.1, r.2)) = some (inner, rest)) :
        ∃ close tail, rest = close :: tail ∧ close.isPunct ')' = true ∧
        t :: ts = inner ++ close :: tail := by
      obtain ⟨⟨inner', rest'⟩, hr, he⟩ := Option.map_eq_some_iff.1 hd
      obtain ⟨rfl, rfl⟩ := Prod.mk.inj he
      obtain ⟨close, tail, hrest, hclose, hts⟩ := ih hr
      exact ⟨close, tail, hrest, hclose, by rw [hts, List.cons_append]⟩
    rw [closeParen.eq_def] at h
    dsimp only at h
    split at h
    · exact hstep h
    · split at h
      · cases depth with
        | zero =>
          obtain ⟨rfl, rfl⟩ := Prod.mk.inj (Option.some.inj h)
          exact ⟨t, ts, rfl, ‹_›, rfl⟩
        | succ depth => exact hstep h
      · split at h
        · simp at h
        · exact hstep h

namespace Interface

/-- An attribute is cut off behind its closer, and the brackets in it are paired. -/
theorem eq_of_afterBrackets {depth : Nat} {ts rest : List Token}
    (h : afterBrackets depth ts = some rest) :
    ∃ inner close, Token.closes '[' ']' depth inner = true ∧ close.isPunct ']' = true ∧
      ts = inner ++ close :: rest := by
  induction ts generalizing depth with
  | nil => simp [afterBrackets] at h
  | cons t ts ih =>
    rw [afterBrackets.eq_def] at h
    dsimp only at h
    split at h
    · rename_i hopen
      obtain ⟨inner, close, hinner, hclose, rfl⟩ := ih h
      exact ⟨t :: inner, close, by rw [Token.closes, if_pos hopen, hinner], hclose, rfl⟩
    · rename_i hopen
      split at h
      · rename_i hclose
        cases depth with
        | zero =>
          obtain rfl := Option.some.inj h
          exact ⟨[], t, rfl, hclose, rfl⟩
        | succ depth =>
          obtain ⟨inner, close, hinner, hclose', rfl⟩ := ih h
          exact ⟨t :: inner, close, by rw [Token.closes, if_neg hopen, if_pos hclose]; exact hinner,
            hclose', rfl⟩
      · rename_i hclose
        obtain ⟨inner, close, hinner, hclose', rfl⟩ := ih h
        exact ⟨t :: inner, close, by rw [Token.closes, if_neg hopen, if_neg hclose, hinner],
          hclose', rfl⟩

theorem suffix_of_afterBrackets {depth : Nat} {ts rest : List Token}
    (h : afterBrackets depth ts = some rest) : rest <:+ ts := by
  obtain ⟨inner, close, _, _, rfl⟩ := eq_of_afterBrackets h
  exact (List.suffix_cons close rest).trans (List.suffix_append inner _)

theorem suffix_of_closeParen {depth : Nat} {ts inner close : List Token}
    (h : Token.closeParen depth ts = some (inner, close)) : close.tail <:+ ts := by
  obtain ⟨t, tail, rfl, _, rfl⟩ := Token.eq_of_closeParen h
  exact (List.suffix_cons t tail).trans (List.suffix_append inner _)

theorem suffix_of_headName {name name' : Text} {ts rest : List Token}
    (h : headName name ts = some (name', rest)) : rest <:+ ts := by
  fun_induction headName name ts with
  | case1 | case4 | case9 =>
    obtain ⟨_, rfl⟩ := Prod.mk.inj (Option.some.inj h)
    exact List.suffix_rfl
  | case3 name t ts _ behind hbehind _ ih =>
    exact (ih h).trans ((suffix_of_afterBrackets hbehind).trans (List.suffix_cons t ts))
  | case6 name t ts _ _ _ _ inner close hclose _ ih =>
    exact (ih h).trans
      ((suffix_of_closeParen hclose).trans ((List.tail_suffix ts).trans (List.suffix_cons t ts)))
  | case8 name t ts _ _ _ _ _ ih => exact (ih h).trans (List.suffix_cons t ts)
  | case2 | case5 | case7 => simp at h

theorem suffix_of_headBrace {angle : Nat} {ts rest : List Token} {brace : Token}
    (h : headBrace angle ts = some (brace, rest)) : brace.isPunct '{' ∧ brace :: rest <:+ ts := by
  fun_induction headBrace angle ts with
  | case2 angle t ts hs =>
    obtain ⟨rfl, rfl⟩ := Prod.mk.inj (Option.some.inj h)
    exact ⟨Token.isPunct_of_sign? hs, List.suffix_rfl⟩
  | case3 angle t ts _ ih | case4 angle t ts _ ih =>
    exact (ih h).imp_right (·.trans (List.suffix_cons t ts))
  | case6 angle t ts _ _ ih | case8 angle t ts _ _ ih =>
    exact (ih h).imp_right (·.trans (List.suffix_cons t ts))
  | case13 angle t ts _ _ _ _ _ _ _ _ _ ih =>
    exact (ih h).imp_right (·.trans (List.suffix_cons t ts))
  | _ => simp at h

theorem head?_eq_some {prev : Option Token} {ts : List Token} {head : Head} :
    head? prev ts = some head ↔ prev.any barsHead = false ∧ head.name ≠ [] ∧
      ∃ rest, headName [] ts = some (head.name, rest) ∧
      headBrace 0 rest = some (head.brace, head.rest) := by
  unfold head?
  split
  · simp_all
  · rename_i hprev
    simp only [Bool.not_eq_true] at hprev
    rw [hprev]
    cases hn : headName [] ts with
    | none => simp
    | some r =>
      obtain ⟨name, rest⟩ := r
      obtain ⟨n, b, r⟩ := head
      dsimp only
      split
      · simp_all
      · simp_all
        grind

theorem suffix_of_head? {prev : Option Token} {ts : List Token} {head : Head}
    (h : head? prev ts = some head) : head.brace.isPunct '{' ∧ head.brace :: head.rest <:+ ts := by
  obtain ⟨_, _, rest, hn, hb⟩ := head?_eq_some.1 h
  exact (suffix_of_headBrace hb).imp_right (·.trans (suffix_of_headName hn))

theorem suffix_of_namespaceHead? {ts rest : List Token} {names : List Text} {brace : Token}
    (h : namespaceHead? ts = some (names, brace, rest)) :
    brace.isPunct '{' ∧ brace :: rest <:+ ts := by
  induction ts generalizing names with
  | nil => simp [namespaceHead?] at h
  | cons t ts ih =>
    rw [namespaceHead?] at h
    split at h
    · simp only [Option.some.injEq, Prod.mk.injEq] at h
      obtain ⟨_, rfl, rfl⟩ := h
      exact ⟨‹_›, List.suffix_rfl⟩
    · split at h
      · obtain ⟨⟨names', r⟩, hr, he⟩ := Option.map_eq_some_iff.1 h
        obtain ⟨_, rfl⟩ := Prod.mk.inj he
        exact (ih hr).imp_right (·.trans (List.suffix_cons t ts))
      · split at h
        · exact (ih h).imp_right (·.trans (List.suffix_cons t ts))
        · simp at h

end Interface
end HeaderBridge
