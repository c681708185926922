import HeaderBridge.Proofs.Source.Brace
import HeaderBridge.Proofs.Source.Joined
import HeaderBridge.Proofs.Text.LineEnd

namespace HeaderBridge

open Text

/-- No directive of a text goes on behind the end of its line. -/
def Uncontinued (t : Text) : Prop := ∀ l ∈ Lexeme.ofText t, l.kind = .directive → newline ∉ l.text

instance : DecidablePred Uncontinued := fun t =>
  inferInstanceAs (Decidable (∀ l ∈ Lexeme.ofText t, l.kind = .directive → newline ∉ l.text))

namespace Lexeme

theorem head?_crlf (t : Text) :
    (crlf t).head? = t.head? ∨ t.head? = some newline ∧ (crlf t).head? = some ('\r' : UInt8) := by
  cases t with
  | nil => exact .inl rfl
  | cons b t =>
    by_cases hb : b = newline
    · rw [hb]
      exact .inr ⟨rfl, rfl⟩
    · rw [crlf_cons hb]
      exact .inl rfl

theorem head?_crlf_of {p : UInt8 → Bool} (hp : p '\r' = false) {t : Text}
    (h : ∀ b ∈ t.head?, p b = false) : ∀ b ∈ (crlf t).head?, p b = false := by
  intro b hb
  rcases head?_crlf t with hsame | ⟨_, hreturn⟩
  · exact h b (hsame ▸ hb)
  · rw [hreturn] at hb
    obtain rfl := Option.some.inj hb
    exact hp

theorem takeWhile_crlf (t : Text) : (crlf t).takeWhile isHigh = t.takeWhile isHigh := by
  induction t with
  | nil => rfl
  | cons b t ih =>
    by_cases hb : b = newline
    · rw [hb]
      rfl
    · rw [crlf_cons hb, List.takeWhile_cons, List.takeWhile_cons, ih]

theorem commentLength_cons (a : UInt8) (t : Text) : commentLength (a :: t) =
    if a = '*' ∧ t.head? = some ('/' : UInt8) then some 2 else (commentLength t).map (· + 1) := by
  cases t with
  | nil => simp [commentLength]
  | cons b t => simp [commentLength]

theorem commentLength_crlf (t : Text) :
    commentLength (crlf t) = (commentLength t).map fun n => (crlf (t.take n)).length := by
  induction t with
  | nil => rfl
  | cons a t ih =>
    have hstep : (commentLength t).map (fun n => (crlf (t.take n)).length + (crlf [a]).length) =
        ((commentLength t).map (· + 1)).map fun n => (crlf ((a :: t).take n)).length := by
      rw [Option.map_map]
      congr 1
      funext n
      have hcons : a :: t.take n = [a] ++ t.take n := rfl
      rw [Function.comp_apply, List.take_succ_cons, hcons, crlf_append, List.length_append,
        Nat.add_comm]
    by_cases ha : a = newline
    · subst ha
      have hhead : ¬ (('\r' : UInt8) = '*' ∧ (newline :: crlf t).head? = some ('/' : UInt8)) := by
        simp +decide
      have hnewline (u : Text) : ¬ (newline = '*' ∧ u.head? = some ('/' : UInt8)) :=
        fun h => absurd h.1 (by decide)
      rw [crlf_cons_newline, commentLength_cons, if_neg hhead, commentLength_cons,
        if_neg (hnewline _), ih, commentLength_cons, if_neg (hnewline _), ← hstep, Option.map_map,
        Option.map_map]
      rfl
    · rw [crlf_cons ha, commentLength_cons, commentLength_cons]
      by_cases hclose : a = '*' ∧ t.head? = some ('/' : UInt8)
      · obtain ⟨rfl, hhead⟩ := hclose
        obtain ⟨u, rfl⟩ : ∃ u : Text, t = ('/' : UInt8) :: u := by
          cases t with
          | nil => cases hhead
          | cons b t => exact ⟨t, by rw [Option.some.inj hhead]⟩
        rw [crlf_cons (by decide)]
        rfl
      · have hclose' : ¬ (a = '*' ∧ (crlf t).head? = some ('/' : UInt8)) := by
          rintro ⟨rfl, hhead⟩
          rcases head?_crlf t with hsame | ⟨_, hreturn⟩
          · exact hclose ⟨rfl, hsame ▸ hhead⟩
          · rw [hreturn] at hhead
            exact absurd (Option.some.inj hhead) (by decide)
        rw [if_neg hclose, if_neg hclose', ih, ← hstep, Option.map_map, crlf_cons ha]
        rfl

theorem literalRest_crlf {q : UInt8} (hq : q = '"' ∨ q = '\'') {esc : Bool} {t : Text}
    (h : literalRest q esc t = none) : literalRest q esc (crlf t) = none := by
  have hreturn : ('\r' : UInt8) ≠ q := by rcases hq with rfl | rfl <;> decide
  have hnewline : newline ≠ q := by rcases hq with rfl | rfl <;> decide
  induction t generalizing esc with
  | nil => rfl
  | cons a t ih =>
    by_cases ha : a = newline
    · rw [ha, crlf_cons_newline, literalRest_cons_eq_none, literalRest_cons_eq_none]
      exact ⟨fun h => hreturn h.1, .inr ⟨fun h => hnewline h.1, .inl rfl⟩⟩
    · rw [literalRest_cons_eq_none] at h
      rw [crlf_cons ha, literalRest_cons_eq_none]
      exact ⟨h.1, .inr (ih (h.2.resolve_left ha))⟩

theorem newline_not_mem_of_literalRest {q : UInt8} (hq : q ≠ newline) {esc : Bool} {t : Text}
    (h : literalRest q esc t = some t.length) : newline ∉ t := by
  induction t generalizing esc with
  | nil => exact List.not_mem_nil
  | cons a t ih =>
    rw [literalRest] at h
    split at h
    · rename_i ha
      have ht : t = [] := by simpa using (Option.some.inj h).symm
      have haq : a = q := by simpa using (Bool.and_eq_true_iff.1 ha).1
      rw [ht, haq, List.mem_singleton]
      exact Ne.symm hq
    · split at h
      · cases h
      · rename_i ha
        obtain ⟨n, hn, hlen⟩ := Option.map_eq_some_iff.1 h
        obtain rfl : n = t.length := Nat.succ.inj hlen
        rw [List.mem_cons, not_or]
        exact ⟨fun he => ha (beq_iff_eq.2 he.symm), ih hn⟩

theorem Fits.newline_not_mem {l : Lexeme} {rest : Text} (h : Fits l rest)
    (hl : l.kind.isSignificant = true) : newline ∉ l.text := by
  have hshape := h.shape
  have hstops := h.stops
  obtain ⟨k, text⟩ := l
  have hrun {p : UInt8 → Bool} (hp : p newline = false) {a : UInt8} (ha : a ≠ newline) {t : Text}
      (ht : ∀ b ∈ t, p b = true) : newline ∉ a :: t := by
    intro hmem
    rcases List.mem_cons.1 hmem with rfl | hmem
    · exact ha rfl
    · rw [ht newline hmem] at hp
      cases hp
  have hliteral {q : UInt8} (hq : q ≠ newline) {t : Text} (ht : literalLength q t = some t.length) :
      newline ∉ q :: t := by
    rw [literalLength_eq] at ht
    rw [List.mem_cons, not_or]
    exact ⟨Ne.symm hq, newline_not_mem_of_literalRest hq ht⟩
  cases k with
  | blockComment | lineComment | directive | blank =>
    simp [TokenKind.isSignificant, TokenKind.isComment] at hl
  | stringLiteral =>
    obtain ⟨t, rfl, ht⟩ : ∃ t : Text, text = ('"' : UInt8) :: t ∧ _ := hshape
    exact hliteral (by decide) ht
  | charLiteral =>
    obtain ⟨t, rfl, ht⟩ : ∃ t : Text, text = ('\'' : UInt8) :: t ∧ _ := hshape
    exact hliteral (by decide) ht
  | ident =>
    obtain ⟨a, t, rfl, ha, ht⟩ : ∃ (a : UInt8) (t : Text), text = a :: t ∧ _ := hshape
    refine hrun (by decide) ?_ ht
    rintro rfl
    exact absurd ha (by decide)
  | number =>
    obtain ⟨a, t, rfl, ha, ht⟩ : ∃ (a : UInt8) (t : Text), text = a :: t ∧ _ := hshape
    refine hrun (by decide) ?_ ht
    rintro rfl
    exact absurd ha (by decide)
  | scope =>
    obtain rfl : text = [(':' : UInt8), (':' : UInt8)] := hshape
    decide
  | punct =>
    obtain ⟨a, tail, rfl, _⟩ := id h
    refine hrun (by decide) ?_ (isHigh_of_firstChar (SignStops.char hstops a tail rfl))
    rintro rfl
    rcases (hshape : SignShape (newline :: tail)) with ha | ⟨_, ha⟩
    · exact absurd ha (by decide)
    · exact absurd ha (by decide)

theorem stops_crlf {l : Lexeme} {rest : Text} (hl : l.kind.isSignificant = true)
    (h : Stops l rest) : Stops l (crlf rest) := by
  obtain ⟨k, text⟩ := l
  cases k with
  | blockComment | lineComment | directive | blank =>
    simp [TokenKind.isSignificant, TokenKind.isComment] at hl
  | stringLiteral | charLiteral | scope => trivial
  | ident => exact head?_crlf_of (p := Text.isNameByte) (by decide) h
  | number => exact head?_crlf_of (p := isNumberByte) (by decide) h
  | punct =>
    have hs : SignStops text rest := h
    refine ⟨fun e => ⟨?_, fun hb => ?_⟩, fun e => ?_, fun q e hq => ?_, fun a tail e => ?_⟩
    · rcases head?_crlf rest with hsame | ⟨_, hreturn⟩
      · exact hsame ▸ (hs.slash e).1
      · rw [hreturn]
        decide
    · rcases head?_crlf rest with hsame | ⟨_, hreturn⟩
      · cases rest with
        | nil => cases hb
        | cons b rest =>
          obtain rfl : b = '*' := Option.some.inj (hsame.symm.trans hb)
          have hopen : commentLength rest = none := (hs.slash e).2 rfl
          rw [crlf_cons (by decide), List.tail_cons, commentLength_crlf, hopen]
          rfl
      · rw [hreturn] at hb
        exact absurd (Option.some.inj hb) (by decide)
    · rcases head?_crlf rest with hsame | ⟨_, hreturn⟩
      · exact hsame ▸ hs.colon e
      · rw [hreturn]
        decide
    · rw [literalLength_eq]
      exact literalRest_crlf hq (literalLength_eq q _ ▸ hs.quote q e hq)
    · rw [Text.firstChar_congr (takeWhile_append_congr (takeWhile_crlf rest) tail)]
      exact hs.char a tail e

def takesLine (k : TokenKind) : Bool := k == .lineComment || k == .directive

theorem takesLine_iff {k : TokenKind} : takesLine k = true ↔ k = .lineComment ∨ k = .directive := by
  simp [takesLine]

theorem not_isSignificant_of_takesLine {k : TokenKind} (hk : takesLine k = true) :
    k.isSignificant = false := by
  revert hk
  cases k <;> decide

theorem directiveRest_of_not_mem {esc : Bool} {x : Text} (h : newline ∉ x) :
    directiveRest esc x = x.length := by
  induction x generalizing esc with
  | nil => rfl
  | cons a x ih =>
    rw [List.mem_cons, not_or] at h
    have ha : (a == newline) = false := beq_eq_false_iff_ne.2 (Ne.symm h.1)
    rw [directiveRest, ha, Bool.false_and, if_neg Bool.false_ne_true, ih h.2, List.length_cons]

theorem head?_of_takesLine {l : Lexeme} {rest : Text} (hf : Fits l rest)
    (hk : takesLine l.kind = true) : ∀ b ∈ rest.head?, b = newline := by
  have hstops := hf.stops
  obtain ⟨k, text⟩ := l
  rcases takesLine_iff.1 hk with rfl | rfl
  · exact hstops
  · simp only [Stops, directiveLength_eq] at hstops
    exact directiveRest_stop hstops

theorem newline_not_mem_of_takesLine {l : Lexeme} {rest : Text} (hf : Fits l rest)
    (hk : takesLine l.kind = true) (hline : l.kind = .directive → newline ∉ l.text) :
    newline ∉ l.text := by
  have hshape := hf.shape
  obtain ⟨k, text⟩ := l
  rcases takesLine_iff.1 hk with rfl | rfl
  · obtain ⟨t, rfl, ht⟩ : ∃ t : Text, text = ('/' : UInt8) :: ('/' : UInt8) :: t ∧ _ := hshape
    intro hmem
    have hmem : newline ∈ t := by simpa +decide using hmem
    exact ht newline hmem rfl
  · exact hline rfl

theorem newline_not_mem_return {t : Text} (ht : newline ∉ t) : newline ∉ t ++ [('\r' : UInt8)] := by
  intro hmem
  rcases List.mem_append.1 hmem with hmem | hmem
  · exact ht hmem
  · exact absurd (List.mem_singleton.1 hmem) (by decide)

/-- A directive ends at a carriage return and a newline, also if there is a backslash before
them. -/
theorem fits_directive_return {t : Text} (ht : newline ∉ t) (v : Text) :
    Fits ⟨.directive, ('#' : UInt8) :: (t ++ [('\r' : UInt8)])⟩ (newline :: v) := by
  refine fits_hash.2 ⟨rfl, ?_⟩
  rw [directiveLength_eq]
  exact directiveRest_newline (directiveRest_of_not_mem (newline_not_mem_return ht))
    (by simp +decide) (by simp) v

theorem fits_return {l : Lexeme} {rest : Text} (hf : Fits l rest) (hk : takesLine l.kind = true)
    (hline : newline ∉ l.text) (v : Text) :
    Fits ⟨l.kind, l.text ++ [('\r' : UInt8)]⟩ (newline :: v) := by
  have hshape := hf.shape
  obtain ⟨k, text⟩ := l
  rcases takesLine_iff.1 hk with rfl | rfl
  · obtain ⟨t, rfl, ht⟩ : ∃ t : Text, text = ('/' : UInt8) :: ('/' : UInt8) :: t ∧ _ := hshape
    have hreturn : ∀ b ∈ t ++ [('\r' : UInt8)], b ≠ newline := by
      rintro b hb rfl
      exact newline_not_mem_return (fun hmem => ht newline hmem rfl) hb
    refine fits_slash.2 (.inr (.inl ⟨rfl, t ++ [('\r' : UInt8)], rfl, hreturn, ?_⟩))
    intro b hb
    exact (Option.some.inj hb).symm
  · obtain ⟨t, rfl⟩ : ∃ t : Text, text = ('#' : UInt8) :: t := hshape
    exact fits_directive_return (fun hmem => hline (List.mem_cons_of_mem _ hmem)) v

theorem isBlankByte_of_mem_crlf {w : Text} (hw : ∀ b ∈ w, isBlankByte b = true) :
    ∀ b ∈ crlf w, isBlankByte b = true := by
  intro b hb
  rcases mem_of_mem_crlf hb with hb | rfl
  · exact hw b hb
  · decide

theorem head?_crlf_of_blank {rest : Text} (h : ∀ b ∈ rest.head?, isBlankByte b = false) :
    ∀ b ∈ (crlf rest).head?, isBlankByte b = false := by
  intro b hb
  rcases head?_crlf rest with hsame | ⟨hnewline, _⟩
  · exact h b (hsame ▸ hb)
  · exact absurd (h newline hnewline) (by decide)

theorem fits_crlf {l : Lexeme} {rest : Text} (hf : Fits l rest)
    (hk : takesLine l.kind = true → rest = []) (hline : l.kind = .directive → newline ∉ l.text) :
    Fits ⟨l.kind, crlf l.text⟩ (crlf rest) := by
  have hshape := hf.shape
  have hstops := hf.stops
  obtain ⟨k, text⟩ := l
  have hmeaning (hk : k.isSignificant = true) : Fits ⟨k, crlf text⟩ (crlf rest) := by
    have htext : crlf text = text := crlf_of_not_mem (hf.newline_not_mem hk)
    rw [htext]
    exact hf.of_stops (stops_crlf hk hstops)
  cases k with
  | stringLiteral | charLiteral | ident | number | scope | punct => exact hmeaning rfl
  | lineComment | directive =>
    obtain rfl : rest = [] := hk rfl
    have htext : crlf text = text := crlf_of_not_mem (newline_not_mem_of_takesLine hf rfl hline)
    rw [htext]
    exact hf
  | blockComment =>
    obtain ⟨t, rfl, ht⟩ : ∃ t : Text, text = ('/' : UInt8) :: ('*' : UInt8) :: t ∧ _ := hshape
    refine fits_slash.2 (.inl ⟨rfl, crlf t, rfl, ?_⟩)
    rw [commentLength_crlf, ht, Option.map_some, List.take_length]
  | blank =>
    obtain ⟨hne, hw⟩ : text ≠ [] ∧ ∀ b ∈ text, isBlankByte b = true := hshape
    have hnonempty : crlf text ≠ [] := by
      have hpos := List.length_pos_iff.2 hne
      rw [← List.length_pos_iff, length_crlf]
      omega
    have hshape' : Shape ⟨.blank, crlf text⟩ := ⟨hnonempty, isBlankByte_of_mem_crlf hw⟩
    exact (hshape'.fits_iff _).2 (head?_crlf_of_blank hstops)

/-- The second lexemes are the first ones with a carriage return before each newline. Each of them
has become longer, or the carriage return has gone to the comment or directive whose line it
ends. -/
inductive Returned : List Lexeme → List Lexeme → Prop
  | nil : Returned [] []
  | whole {l : Lexeme} {ls ms : List Lexeme} (hl : l.kind.isSignificant = true → newline ∉ l.text)
    (h : Returned ls ms) : Returned (l :: ls) (⟨l.kind, crlf l.text⟩ :: ms)
  | line {l : Lexeme} {w : Text} {ls ms : List Lexeme} (hk : takesLine l.kind = true)
    (hl : newline ∉ l.text) (h : Returned ls ms) :
    Returned (l :: ⟨.blank, newline :: w⟩ :: ls)
      (⟨l.kind, l.text ++ [('\r' : UInt8)]⟩ :: ⟨.blank, newline :: crlf w⟩ :: ms)

namespace Returned

variable {ls ms : List Lexeme}

theorem spelling (h : Returned ls ms) : spelling ms = crlf (spelling ls) := by
  induction h with
  | nil => rfl
  | whole _ _ ih => rw [spelling_cons, spelling_cons, crlf_append, ih]
  | line _ hl _ ih =>
    simp only [spelling_cons, crlf_append, crlf_of_not_mem hl, crlf_cons_newline, ih,
      List.append_assoc, List.cons_append, List.nil_append]

end Returned

/-- If no directive is continued, the text with both line ends is cut into the lexemes of the
text. -/
theorem exists_returned : ∀ {ls : List Lexeme}, Chain ls [] →
    (∀ l ∈ ls, l.kind = .directive → newline ∉ l.text) → ∃ ms, Returned ls ms ∧ Chain ms []
  | [], _, _ => ⟨[], .nil, trivial⟩
  | l :: ls, hc, hd => by
    obtain ⟨hf, hc⟩ := hc
    rw [List.append_nil] at hf
    have hmeaning (hl : l.kind.isSignificant = true) : newline ∉ l.text := hf.newline_not_mem hl
    have hwhole (hk : takesLine l.kind = true → Lexeme.spelling ls = []) :
        ∃ ms, Returned (l :: ls) ms ∧ Chain ms [] := by
      obtain ⟨ms, hms, hchain⟩ := exists_returned hc fun m hm => hd m (List.mem_cons_of_mem l hm)
      refine ⟨_, .whole hmeaning hms, ?_, hchain⟩
      rw [hms.spelling, List.append_nil]
      exact fits_crlf hf hk (hd l (List.mem_cons_self ..))
    by_cases hk : takesLine l.kind = true
    · match ls with
      | [] => exact hwhole fun _ => rfl
      | m :: ls =>
        obtain ⟨hm, hc⟩ := hc
        rw [List.append_nil] at hm
        obtain ⟨a, w, htext, _⟩ := id hm
        obtain rfl : a = newline := by
          refine head?_of_takesLine hf hk a ?_
          rw [spelling_cons, htext]
          rfl
        obtain ⟨k, text⟩ := m
        obtain rfl : text = newline :: w := htext
        obtain ⟨rfl, hw, hstops⟩ := (fits_blankByte (by decide)).1 hm
        have hline : newline ∉ l.text :=
          newline_not_mem_of_takesLine hf hk (hd l (List.mem_cons_self ..))
        obtain ⟨ms, hms, hchain⟩ := exists_returned hc fun n hn =>
          hd n (List.mem_cons_of_mem l (List.mem_cons_of_mem _ hn))
        refine ⟨_, .line hk hline hms, ?_, ?_, hchain⟩
        · rw [spelling_cons, List.cons_append, List.cons_append]
          exact fits_return hf hk hline _
        · rw [hms.spelling, List.append_nil]
          refine (fits_blankByte (by decide)).2 ⟨rfl, isBlankByte_of_mem_crlf hw, ?_⟩
          exact head?_crlf_of_blank hstops
    · exact hwhole fun h => absurd h hk

theorem returned_ofText {t : Text} (h : Uncontinued t) : Returned (ofText t) (ofText (crlf t)) := by
  obtain ⟨ms, hms, hchain⟩ := exists_returned (chain_ofText t) h
  have hcut : ofText (crlf t) = ms :=
    ofText_eq_iff.2 ⟨by rw [hms.spelling, spelling_ofText], hchain⟩
  rwa [hcut]

theorem newline_not_mem_blanked {p : TokenKind → Bool} {l : Lexeme} (h : newline ∉ l.text) :
    newline ∉ blanked p l := by
  rw [← List.count_eq_zero, count_blanked, List.count_eq_zero]
  exact h

theorem widened_blanked (p : TokenKind → Bool) (k : TokenKind) (t : Text) :
    Widened (blanked p ⟨k, t⟩) (blanked p ⟨k, crlf t⟩) := by
  unfold blanked
  split
  · exact (widened_crlf t).map_blankByte
  · exact widened_crlf t

theorem splitBrace_skip {l : Lexeme} (hl : l.kind.isSignificant = false) (depth : Nat)
    (ls : List Lexeme) :
    splitBrace depth (l :: ls) = (splitBrace depth ls).map fun r => (l :: r.1, r.2) := by
  have hopen : l ≠ openBrace := by
    rintro rfl
    cases hl
  have hclose : l ≠ closeBrace := by
    rintro rfl
    cases hl
  rw [splitBrace.eq_def]
  dsimp only
  rw [if_neg hopen, if_neg hclose]

namespace Returned

variable {ls ms : List Lexeme}

/-- Whatever kinds are blanked, the second text has a blank more before each newline. -/
theorem widened {p : TokenKind → Bool} (hp : p .blank = false) (h : Returned ls ms) :
    Widened (ls.flatMap (blanked p)) (ms.flatMap (blanked p)) := by
  induction h with
  | nil => exact .nil
  | @whole l ls ms _ _ ih => exact (widened_blanked p l.kind l.text).append ih
  | @line l w ls ms _ hl _ ih =>
    obtain ⟨c, hc, hlast⟩ : ∃ c, isBlankByte c = true ∧
        blanked p ⟨l.kind, l.text ++ [('\r' : UInt8)]⟩ = blanked p l ++ [c] := by
      unfold blanked
      split
      · exact ⟨' ', by decide, by rw [List.map_append]; rfl⟩
      · exact ⟨'\r', by decide, rfl⟩
    have hblank (u : Text) : blanked p ⟨.blank, u⟩ = u := by rw [blanked, hp]; rfl
    simp only [List.flatMap_cons, hblank, hlast, List.append_assoc, List.cons_append]
    exact (Widened.of_not_mem (newline_not_mem_blanked hl)).append
      (.line hc ((widened_crlf w).append ih))

theorem exists_openBrace (h : Returned ls ms) {before rest : List Lexeme}
    (hls : ls = before ++ openBrace :: rest) :
    ∃ before' rest', ms = before' ++ openBrace :: rest' ∧ Returned before before' ∧
    Returned rest rest' := by
  induction h generalizing before with
  | nil => simp at hls
  | @whole l ls ms hl h ih =>
    cases before with
    | nil =>
      obtain ⟨rfl, rfl⟩ := List.cons.inj hls
      exact ⟨[], ms, rfl, .nil, h⟩
    | cons k before =>
      obtain ⟨rfl, rfl⟩ := List.cons.inj hls
      obtain ⟨before', rest', rfl, hbefore, hrest⟩ := ih rfl
      exact ⟨_ :: before', rest', rfl, .whole hl hbefore, hrest⟩
  | @line l w ls ms hk hl h ih =>
    match before with
    | [] =>
      obtain ⟨rfl, _⟩ := List.cons.inj hls
      exact absurd hk (by decide)
    | [k] =>
      have hblank := (List.cons.inj (List.cons.inj hls).2).1
      simp [openBrace] at hblank
    | k :: b :: before =>
      obtain ⟨rfl, hbehind⟩ := List.cons.inj hls
      obtain ⟨rfl, rfl⟩ := List.cons.inj hbehind
      obtain ⟨before', rest', rfl, hbefore, hrest⟩ := ih rfl
      exact ⟨_ :: _ :: before', rest', rfl, .line hk hl hbefore, hrest⟩

theorem splitBrace (h : Returned ls ms) (depth : Nat) :
    Option.Rel (fun r r' => Returned r.1 r'.1) (splitBrace depth ls) (splitBrace depth ms) := by
  have hstep {f g : List Lexeme → List Lexeme}
      (hfg : ∀ {ls ms}, Returned ls ms → Returned (f ls) (g ms))
      {x y : Option (List Lexeme × List Lexeme)}
      (hxy : Option.Rel (fun r r' => Returned r.1 r'.1) x y) :
      Option.Rel (fun r r' => Returned r.1 r'.1) (x.map fun r => (f r.1, r.2))
        (y.map fun r => (g r.1, r.2)) := by
    cases hxy with
    | some hr => exact .some (hfg hr)
    | none => exact .none
  induction h generalizing depth with
  | nil => exact .none
  | @whole l ls ms hl h ih =>
    have hnext (d : Nat) := hstep (Returned.whole hl) (ih d)
    have hsame {b : Lexeme} (hb : b.kind.isSignificant = true) (hline : newline ∉ b.text) :
        ⟨l.kind, crlf l.text⟩ = b ↔ l = b := by
      constructor
      · intro h
        have hk : l.kind.isSignificant = true := by rwa [← h] at hb
        rwa [crlf_of_not_mem (hl hk)] at h
      · rintro rfl
        rw [crlf_of_not_mem hline]
    have hopen : ⟨l.kind, crlf l.text⟩ = openBrace ↔ l = openBrace := hsame rfl (by decide)
    have hclose : ⟨l.kind, crlf l.text⟩ = closeBrace ↔ l = closeBrace := hsame rfl (by decide)
    rw [splitBrace.eq_def depth (l :: ls), splitBrace.eq_def depth (_ :: ms)]
    simp only [hopen, hclose]
    split
    · exact hnext (depth + 1)
    · split
      · cases depth with
        | zero => exact .some .nil
        | succ depth => exact hnext depth
      · exact hnext depth
  | @line l w ls ms hk hl h ih =>
    have hk' : l.kind.isSignificant = false := not_isSignificant_of_takesLine hk
    have hboth := hstep (Returned.line (w := w) hk hl) (ih depth)
    rw [splitBrace_skip hk', splitBrace_skip rfl,
      splitBrace_skip (l := ⟨l.kind, l.text ++ [('\r' : UInt8)]⟩) hk', splitBrace_skip rfl,
      Option.map_map, Option.map_map]
    exact hboth

end Returned
end Lexeme

/-- The place in the text with both line ends: a byte further on for each line before it. -/
def Pos.widen (p : Pos) : Pos := { p with offset := p.offset + (p.line - 1) }

namespace Pos

theorem lastLine_crlf (t : Text) : lastLine (crlf t) = lastLine t := by
  induction t with
  | nil => rfl
  | cons b t ih =>
    have hcons (u : Text) : b :: u = [b] ++ u := rfl
    rw [hcons, crlf_append]
    by_cases ht : newline ∈ t
    · rw [lastLine_append_of_mem ht, lastLine_append_of_mem (mem_crlf.2 ht), ih]
    · have hfirst : lastLine (crlf [b]) = lastLine [b] := by
        by_cases hb : b = newline
        · rw [hb]
          rfl
        · rw [crlf_cons hb]
          rfl
      rw [crlf_of_not_mem ht, lastLine_append_of_not_mem ht, lastLine_append_of_not_mem ht, hfirst]

theorem widen_advance {p : Pos} (hp : 1 ≤ p.line) (t : Text) :
    p.widen.advance (crlf t) = (p.advance t).widen := by
  have hline : p.line + t.count newline - 1 = p.line - 1 + t.count newline := by omega
  have hmem : (crlf t).contains newline = t.contains newline := by
    rw [Bool.eq_iff_iff, List.contains_iff_mem, List.contains_iff_mem, mem_crlf]
  simp only [advance, widen, length_crlf, count_crlf, lastLine_crlf, hmem, hline, Pos.mk.injEq,
    and_true]
  omega

end Pos

namespace Token

/-- The tokens that carry meaning are those of the text, each further on by a byte for each line
before it. -/
theorem significant_returned {ls ms : List Lexeme} (h : Lexeme.Returned ls ms) {p : Pos}
    (hp : 1 ≤ p.line) : significant (place p.widen ms) = (significant (place p ls)).map fun t =>
      { t with pos := t.pos.widen } := by
  induction h generalizing p with
  | nil => rfl
  | @whole l ls ms hl h ih =>
    have hbehind := ih (p := p.advance l.text) (Nat.le_trans hp (Nat.le_add_right ..))
    rw [place_cons, place_cons, Pos.widen_advance hp, significant, significant, List.filter_cons,
      List.filter_cons]
    dsimp only
    split
    · rename_i hk
      rw [crlf_of_not_mem (hl hk)]
      exact congrArg _ hbehind
    · exact hbehind
  | @line l w ls ms hk hl h ih =>
    have hbehind := ih (p := (p.advance l.text).advance (newline :: w))
      (Nat.le_trans hp (Nat.le_trans (Nat.le_add_right ..) (Nat.le_add_right ..)))
    have hnone : l.kind.isSignificant = false := Lexeme.not_isSignificant_of_takesLine hk
    have hplace : (p.widen.advance (l.text ++ [('\r' : UInt8)])).advance (newline :: crlf w) =
        ((p.advance l.text).advance (newline :: w)).widen := by
      have hcount : (l.text ++ [('\r' : UInt8)]).count newline = 0 :=
        List.count_eq_zero.2 (Lexeme.newline_not_mem_return hl)
      have hlast : Pos.lastLine (newline :: crlf w) = Pos.lastLine (newline :: w) := by
        have hmem : newline ∈ newline :: crlf w := List.mem_cons_self ..
        rw [← Pos.lastLine_crlf (newline :: w), crlf_cons_newline,
          ← Pos.lastLine_append_of_mem hmem ['\r']]
        rfl
      simp only [Pos.advance, Pos.widen, hcount, List.count_eq_zero.2 hl, hlast, Pos.mk.injEq,
        List.length_append, List.length_cons, length_crlf, List.count_cons_self, count_crlf]
      refine ⟨?_, trivial, ?_⟩
      · rw [List.length_nil]
        omega
      · simp
    simp only [place_cons, significant, List.filter_cons, hnone, hplace] at hbehind ⊢
    exact hbehind

theorem significant_crlf {t : Text} (h : Uncontinued t) :
    significant (ofText (crlf t)) =
      (significant (ofText t)).map fun u => { u with pos := u.pos.widen } :=
  significant_returned (Lexeme.returned_ofText h) (p := Pos.start) (Nat.le_refl 1)

end Token
end HeaderBridge
