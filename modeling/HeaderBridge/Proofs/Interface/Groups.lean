import HeaderBridge.Proofs.Interface.Nesting

namespace HeaderBridge

theorem append_cons_cases {α : Type} {xs ys us vs : List α} {a b : α}
    (h : xs ++ a :: us = ys ++ b :: vs) :
    (xs = ys ∧ a = b ∧ us = vs) ∨ (∃ more, ys = xs ++ a :: more ∧ us = more ++ b :: vs) ∨
      ∃ more, xs = ys ++ b :: more ∧ vs = more ++ a :: us := by
  rcases List.append_eq_append_iff.1 h with ⟨more, hys, hus⟩ | ⟨more, hxs, hvs⟩
  · cases more with
    | nil =>
      obtain ⟨rfl, rfl⟩ := List.cons.inj hus
      exact .inl ⟨by simpa using hys.symm, rfl, rfl⟩
    | cons t more =>
      obtain ⟨rfl, rfl⟩ := List.cons.inj hus
      exact .inr (.inl ⟨more, hys, rfl⟩)
  · cases more with
    | nil =>
      obtain ⟨rfl, rfl⟩ := List.cons.inj hvs
      exact .inl ⟨by simpa using hxs, rfl, rfl⟩
    | cons t more =>
      obtain ⟨rfl, rfl⟩ := List.cons.inj hvs
      exact .inr (.inr ⟨more, hxs, rfl⟩)

namespace Token

/-- The parentheses of an argument list are paired, and no semicolon stands in it. -/
theorem closes_of_closeParen {depth : Nat} {ts inner rest : List Token}
    (h : closeParen depth ts = some (inner, rest)) :
    closes '(' ')' depth inner = true ∧ ∀ t ∈ inner, t.isPunct ';' = false := by
  induction ts generalizing depth inner with
  | nil => simp [closeParen] at h
  | cons t ts ih =>
    have hstep {d : Nat} (ht : t.isPunct ';' = false)
        (hd : (closeParen d ts).map (fun r => (t :: r.1, r.2)) = some (inner, rest)) :
        ∃ more, inner = t :: more ∧ closes '(' ')' d more = true ∧ ∀ t ∈ inner,
          t.isPunct ';' = false := by
      obtain ⟨⟨more, rest'⟩, hr, he⟩ := Option.map_eq_some_iff.1 hd
      obtain ⟨rfl, rfl⟩ := Prod.mk.inj he
      obtain ⟨hmore, hsemi⟩ := ih hr
      exact ⟨more, rfl, hmore, List.forall_mem_cons.2 ⟨ht, hsemi⟩⟩
    rw [closeParen.eq_def] at h
    dsimp only at h
    split at h
    · rename_i hopen
      obtain ⟨more, rfl, hmore, hsemi⟩ := hstep (isPunct_unique hopen (by decide)) h
      exact ⟨by rw [closes, if_pos hopen, hmore], hsemi⟩
    · rename_i hopen
      split at h
      · rename_i hclose
        cases depth with
        | zero =>
          obtain ⟨rfl, rfl⟩ := Prod.mk.inj (Option.some.inj h)
          exact ⟨rfl, by simp⟩
        | succ depth =>
          obtain ⟨more, rfl, hmore, hsemi⟩ := hstep (isPunct_unique hclose (by decide)) h
          exact ⟨by rw [closes, if_neg hopen, if_pos hclose]; exact hmore, hsemi⟩
      · rename_i hclose
        split at h
        · simp at h
        · rename_i hsemi
          obtain ⟨more, rfl, hmore, hsemi⟩ := hstep (by simpa using hsemi) h
          exact ⟨by rw [closes, if_neg hopen, if_neg hclose, hmore], hsemi⟩

theorem closeParen_of_closes {depth : Nat} {inner : List Token}
    (h : closes '(' ')' depth inner = true) (hsemi : ∀ t ∈ inner, t.isPunct ';' = false)
    {close : Token} (hclose : close.isPunct ')' = true) (tail : List Token) :
    closeParen depth (inner ++ close :: tail) = some (inner, close :: tail) := by
  induction inner generalizing depth with
  | nil =>
    obtain rfl : depth = 0 := by simpa [closes] using h
    rw [List.nil_append, closeParen.eq_def]
    simp [isPunct_unique hclose (d := '(') (by decide), hclose]
  | cons t ts ih =>
    obtain ⟨ht, hts⟩ := List.forall_mem_cons.1 hsemi
    rw [closes] at h
    rw [List.cons_append, closeParen.eq_def]
    dsimp only
    split
    · rw [if_pos ‹_›] at h
      simp [ih h hts]
    · rw [if_neg ‹_›] at h
      split
      · rw [if_pos ‹_›] at h
        cases depth with
        | zero => simp at h
        | succ depth =>
          have hts' : closes '(' ')' depth ts = true := h
          simp [ih hts' hts]
      · rw [if_neg ‹_›] at h
        simp [ht, ih h hts]

theorem closeParen_append_cases {depth : Nat} {ts us inner rest : List Token}
    (h : closeParen depth (ts ++ us) = some (inner, rest)) :
    (∃ before close behind, ts = before ++ close :: behind ∧ rest = close :: (behind ++ us)) ∨
      ∃ later last, closeParen later us = some (last, rest) := by
  induction ts generalizing depth inner with
  | nil => exact .inr ⟨depth, inner, h⟩
  | cons t ts ih =>
    have hstep {d : Nat}
        (hd : (closeParen d (ts ++ us)).map (fun r => (t :: r.1, r.2)) = some (inner, rest)) :
        (∃ before close behind, t :: ts = before ++ close :: behind ∧
          rest = close :: (behind ++ us)) ∨
          ∃ later last, closeParen later us = some (last, rest) := by
      obtain ⟨⟨inner', rest'⟩, hr, he⟩ := Option.map_eq_some_iff.1 hd
      obtain ⟨rfl, rfl⟩ := Prod.mk.inj he
      refine (ih hr).imp_left ?_
      rintro ⟨before, close, behind, rfl, hrest⟩
      exact ⟨t :: before, close, behind, rfl, hrest⟩
    rw [List.cons_append, closeParen.eq_def] at h
    dsimp only at h
    split at h
    · exact hstep h
    · split at h
      · cases depth with
        | zero =>
          obtain ⟨rfl, rfl⟩ := Prod.mk.inj (Option.some.inj h)
          exact .inl ⟨[], t, ts, rfl, rfl⟩
        | succ depth => exact hstep h
      · split at h
        · simp at h
        · exact hstep h

/-- Where a group is closed, a smaller number of groups is closed before. -/
theorem closeParen_of_deeper {depth more : Nat} {ts inner rest : List Token}
    (h : closeParen (more + 1 + depth) ts = some (inner, rest)) :
    ∃ first close later, closeParen depth ts = some (first, close :: (later ++ rest)) ∧
      inner = first ++ close :: later := by
  induction ts generalizing depth inner with
  | nil => simp [closeParen] at h
  | cons t ts ih =>
    have hstep {d : Nat}
        (hd : (closeParen (more + 1 + d) ts).map (fun r => (t :: r.1, r.2)) = some (inner, rest)) :
        ∃ first close later, (closeParen d ts).map (fun r => (t :: r.1, r.2)) =
          some (first, close :: (later ++ rest)) ∧ inner = first ++ close :: later := by
      obtain ⟨⟨inner', rest'⟩, hr, he⟩ := Option.map_eq_some_iff.1 hd
      obtain ⟨rfl, rfl⟩ := Prod.mk.inj he
      obtain ⟨first, close, later, hfirst, rfl⟩ := ih hr
      exact ⟨t :: first, close, later, by rw [hfirst]; rfl, rfl⟩
    rw [closeParen.eq_def] at h ⊢
    dsimp only at h ⊢
    split
    · rw [if_pos ‹_›] at h
      exact hstep h
    · rw [if_neg ‹_›] at h
      split
      · rw [if_pos ‹_›] at h
        cases depth with
        | zero =>
          -- the smaller number is closed by this token, the rest behind it
          obtain ⟨⟨later, rest'⟩, hr, he⟩ := Option.map_eq_some_iff.1 h
          obtain ⟨rfl, rfl⟩ := Prod.mk.inj he
          obtain ⟨close, tail, rfl, _, rfl⟩ := eq_of_closeParen hr
          exact ⟨[], t, later, rfl, rfl⟩
        | succ depth => exact hstep h
      · rw [if_neg ‹_›] at h
        split
        · rw [if_pos ‹_›] at h
          simp at h
        · rw [if_neg ‹_›] at h
          exact hstep h

theorem closeParen_nested {depth : Nat} {opener : Token} (hopen : opener.isPunct '(' = true)
    {ts us inner rest : List Token}
    (h : closeParen depth (ts ++ opener :: us) = some (ts ++ opener :: inner, rest)) :
    ∃ first close later, closeParen 0 us = some (first, close :: (later ++ rest)) ∧
      inner = first ++ close :: later := by
  induction ts generalizing depth with
  | nil =>
    rw [List.nil_append, closeParen.eq_def] at h
    simp only [hopen, if_true, List.nil_append] at h
    obtain ⟨⟨inner', rest'⟩, hr, he⟩ := Option.map_eq_some_iff.1 h
    obtain ⟨hinner, rfl⟩ := Prod.mk.inj he
    obtain rfl := (List.cons.inj hinner).2
    -- behind the opener one group more is open than before it
    exact closeParen_of_deeper (show closeParen (depth + 1 + 0) us = _ from hr)
  | cons t ts ih =>
    have hstep {d : Nat} (hd : (closeParen d (ts ++ opener :: us)).map (fun r => (t :: r.1, r.2)) =
        some (t :: ts ++ opener :: inner, rest)) : ∃ first close later,
          closeParen 0 us = some (first, close :: (later ++ rest)) ∧
          inner = first ++ close :: later := by
      obtain ⟨⟨inner', rest'⟩, hr, he⟩ := Option.map_eq_some_iff.1 hd
      obtain ⟨hinner, rfl⟩ := Prod.mk.inj he
      obtain rfl := (List.cons.inj hinner).2
      exact ih hr
    rw [List.cons_append, closeParen.eq_def] at h
    dsimp only at h
    split at h
    · exact hstep h
    · split at h
      · cases depth with
        | zero => simp at h
        | succ depth => exact hstep h
      · split at h
        · simp at h
        · exact hstep h

/-- Whether round, square and curly brackets nest, if the closers `awaited` are still to come, the
next one first. -/
def balances : List Char → List Token → Bool
  | awaited, [] => awaited.isEmpty
  | awaited, t :: ts =>
    match t.sign? with
    | some '(' => balances (')' :: awaited) ts
    | some '[' => balances (']' :: awaited) ts
    | some '{' => balances ('}' :: awaited) ts
    | some ')' | some ']' | some '}' => awaited.head? == t.sign? && balances awaited.tail ts
    | _ => balances awaited ts

/-- The closer of a group is looked for behind balanced tokens, but never behind a semicolon. -/
theorem closeParen_of_balances {awaited : List Char} {ts : List Token}
    (h : balances awaited ts = true) (depth : Nat) (rest : List Token) :
    closeParen (depth + awaited.count ')') (ts ++ rest) =
      if ts.any (·.isPunct ';') then none
      else (closeParen depth rest).map fun r => (ts ++ r.1, r.2) := by
  induction ts generalizing awaited with
  | nil =>
    obtain rfl : awaited = [] := by simpa [balances] using h
    simp
  | cons t ts ih =>
    have hstep {later : List Char} (h : balances later ts = true) :
        (closeParen (depth + later.count ')') (ts ++ rest)).map (fun r => (t :: r.1, r.2)) =
          if ts.any (·.isPunct ';') then none
          else (closeParen depth rest).map fun r => (t :: ts ++ r.1, r.2) := by
      rw [ih h]
      split
      · rfl
      · rw [Option.map_map]
        rfl
    have hawaited {c : Char} (h : (awaited.head? == some c && balances awaited.tail ts) = true) :
        ∃ later, awaited = c :: later ∧ balances later ts = true := by
      rw [Bool.and_eq_true, beq_iff_eq] at h
      obtain ⟨later, rfl⟩ := List.head?_eq_some_iff.1 h.1
      exact ⟨later, rfl, h.2⟩
    rw [balances] at h
    rw [List.cons_append, closeParen.eq_def, List.any_cons]
    dsimp only
    rw [t.isPunct_eq_sign? (by decide), t.isPunct_eq_sign? (by decide),
      t.isPunct_eq_sign? (by decide)]
    generalize t.sign? = c at h ⊢
    -- only parentheses change the depth, and an awaited closer is there for each of them
    split at h
    · have := hstep h
      rwa [List.count_cons_self, ← Nat.add_assoc] at this
    · have := hstep h
      rwa [List.count_cons_of_ne (by decide)] at this
    · have := hstep h
      rwa [List.count_cons_of_ne (by decide)] at this
    · obtain ⟨later, rfl, h⟩ := hawaited h
      rw [List.count_cons_self, ← Nat.add_assoc]
      exact hstep h
    · obtain ⟨later, rfl, h⟩ := hawaited h
      rw [List.count_cons_of_ne (by decide)]
      exact hstep h
    · obtain ⟨later, rfl, h⟩ := hawaited h
      rw [List.count_cons_of_ne (by decide)]
      exact hstep h
    · rename_i hopen _ _ hclose _ _
      rw [if_neg (by simpa using hopen), if_neg (by simpa using hclose)]
      split
      · rename_i hsemi
        rw [hsemi]
        rfl
      · rename_i hsemi
        rw [Bool.not_eq_true] at hsemi
        rw [hsemi]
        exact hstep h

end Token
end HeaderBridge
