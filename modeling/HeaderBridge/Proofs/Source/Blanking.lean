import HeaderBridge.Proofs.Source.Place
import HeaderBridge.Source.Mask

namespace HeaderBridge

theorem TokenKind.isSignificant_eq_false (k : TokenKind) :
    k.isSignificant = false ↔ k.isComment = true ∨ k = .blank := by
  rw [isSignificant, Bool.not_eq_false', Bool.or_eq_true, beq_iff_eq]

namespace Lexeme

/-- The bytes that stand for a lexeme when kinds that satisfy `p` are blanked. -/
def blanked (p : TokenKind → Bool) (l : Lexeme) : Text :=
  if p l.kind then l.text.map blankByte else l.text

theorem blankKinds_eq (p : TokenKind → Bool) (t : Text) :
    blankKinds p t = (ofText t).flatMap (blanked p) := rfl

def bare (ls : List Lexeme) : Text := ls.flatMap (blanked TokenKind.isComment)

theorem stripComments_eq (t : Text) : stripComments t = bare (ofText t) := rfl

@[simp] theorem bare_nil : bare [] = [] := rfl

@[simp] theorem bare_cons (l : Lexeme) (ls : List Lexeme) :
    bare (l :: ls) = blanked TokenKind.isComment l ++ bare ls := rfl

@[simp] theorem bare_append (ls ms : List Lexeme) : bare (ls ++ ms) = bare ls ++ bare ms :=
  List.flatMap_append

theorem blanked_of {p : TokenKind → Bool} {l : Lexeme} (h : p l.kind = true) :
    blanked p l = l.text.map blankByte := if_pos h

theorem blanked_of_not {p : TokenKind → Bool} {l : Lexeme} (h : p l.kind = false) :
    blanked p l = l.text := by
  simp [blanked, h]

@[simp] theorem length_blanked (p : TokenKind → Bool) (l : Lexeme) :
    (blanked p l).length = l.text.length := by
  unfold blanked
  split <;> simp

theorem isBlankByte_blankByte (b : UInt8) : isBlankByte (blankByte b) = true := by
  unfold blankByte
  split
  · simp_all [isBlankByte]
  · decide

/-- A comment is closed by its own bytes, or it takes the rest of the line. -/
theorem Fits.comment_cases {l : Lexeme} {rest : Text} (h : Fits l rest)
    (hc : l.kind.isComment = true) :
    (∃ t : Text, l.text = ('/' : UInt8) :: ('*' : UInt8) :: t ∧ commentLength t = some t.length) ∨
    (∃ a t, l.text = a :: t ∧ (a = '/' ∨ a = '#') ∧ ∀ b ∈ rest.head?, b = newline) := by
  obtain ⟨k, text⟩ := l
  have hshape := h.shape
  have hstops := h.stops
  cases k with
  | blockComment => exact .inl hshape
  | lineComment =>
    obtain ⟨t, ht, _⟩ := hshape
    exact .inr ⟨_, _, ht, .inl rfl, hstops⟩
  | directive =>
    obtain ⟨t, ht⟩ := hshape
    simp only [Stops, directiveLength_eq] at hstops
    exact .inr ⟨_, t, ht, .inr rfl, directiveRest_stop hstops⟩
  | _ => simp [TokenKind.isComment] at hc

def isMasked (k : TokenKind) : Bool := k.isComment || k.isLiteral

theorem isMasked_of_isComment (k : TokenKind) (h : k.isComment = true) : isMasked k = true := by
  rw [isMasked, h, Bool.true_or]

def isOpening (b : UInt8) : Bool := b == '/' || b == '#' || b == '"' || b == '\''

theorem isOpening_facts {b : UInt8} (h : isOpening b = true) :
    Text.isHigh b = false ∧ b ≠ newline ∧ blankByte b = ' ' ∧ b ≠ ' ' := by
  simp only [isOpening, Bool.or_eq_true, beq_iff_eq] at h
  rcases h with ((rfl | rfl) | rfl) | rfl <;> decide

theorem getLast?_of_literalRest {q : UInt8} {esc : Bool} {x : Text}
    (h : literalRest q esc x = some x.length) : x.getLast? = some q := by
  induction x generalizing esc with
  | nil => simp [literalRest] at h
  | cons a x ih =>
    rw [literalRest] at h
    split at h
    · rename_i ha
      have hx : x = [] := by simpa using (Option.some.inj h).symm
      simp_all
    · split at h
      · simp at h
      · obtain ⟨n, hn, hlen⟩ := Option.map_eq_some_iff.1 h
        obtain rfl : n = x.length := by simpa using hlen
        rw [List.getLast?_cons, ih hn]
        rfl

theorem literal_ends {q : UInt8} {t : Text} (h : literalLength q t = some t.length) :
    (q :: t).head? = some q ∧ (q :: t).getLast? = some q := by
  rw [literalLength_eq] at h
  refine ⟨rfl, ?_⟩
  rw [List.getLast?_cons, getLast?_of_literalRest h]
  rfl

section Masked

variable {l : Lexeme} {rest : Text} (h : Fits l rest) (hm : isMasked l.kind = true)
include h hm

theorem Fits.opening : ∃ a t, l.text = a :: t ∧ isOpening a = true := by
  have hshape := h.shape
  obtain ⟨k, text⟩ := l
  cases k with
  | blockComment | lineComment | stringLiteral | charLiteral =>
    obtain ⟨t, ht, _⟩ := hshape
    exact ⟨_, _, ht, rfl⟩
  | directive =>
    obtain ⟨t, ht⟩ := hshape
    exact ⟨_, t, ht, rfl⟩
  | ident | number | scope | punct | blank => cases hm

/-- A masked lexeme ends with a byte that takes no other with it, or it takes the rest of the
line. -/
theorem Fits.masked_end :
    (∃ (x : Text) (b : UInt8), l.text = x ++ [b] ∧ b ≠ '\\') ∨ ∀ b ∈ rest.head?, b = newline := by
  have hlast {b : UInt8} (hb : l.text.getLast? = some b) (hslash : b ≠ '\\') :
      ∃ (x : Text) (b : UInt8), l.text = x ++ [b] ∧ b ≠ '\\' := by
    obtain ⟨x, hx⟩ := List.getLast?_eq_some_iff.1 hb
    exact ⟨x, b, hx, hslash⟩
  cases hk : l.kind.isComment with
  | true =>
    rcases h.comment_cases hk with ⟨t, ht, hlen⟩ | ⟨_, _, _, _, hrest⟩
    · obtain ⟨u, rfl⟩ := commentLength_eq_length hlen
      exact .inl ⟨('/' : UInt8) :: ('*' : UInt8) :: (u ++ [('*' : UInt8)]), '/', by simp [ht],
        by decide⟩
    · exact .inr hrest
  | false =>
    have hshape := h.shape
    obtain ⟨k, text⟩ := l
    cases k with
    | stringLiteral =>
      obtain ⟨t, rfl, ht⟩ : ∃ t : Text, text = ('"' : UInt8) :: t ∧ _ := hshape
      exact .inl (hlast (literal_ends ht).2 (by decide))
    | charLiteral =>
      obtain ⟨t, rfl, ht⟩ : ∃ t : Text, text = ('\'' : UInt8) :: t ∧ _ := hshape
      exact .inl (hlast (literal_ends ht).2 (by decide))
    | blockComment | lineComment | directive => cases hk
    | ident | number | scope | punct | blank => cases hm

end Masked

theorem isBlankByte_of_map {t : Text} : ∀ b ∈ t.map blankByte, isBlankByte b = true := by
  intro b hb
  obtain ⟨c, _, rfl⟩ := List.mem_map.1 hb
  exact isBlankByte_blankByte c

section Heads

variable {p : TokenKind → Bool} (hp : ∀ k, p k = true → isMasked k = true) {ls : List Lexeme}
    (hc : Chain ls [])
include hp hc

theorem head?_blanked : (ls.flatMap (blanked p)).head? = (spelling ls).head? ∨
    (ls.flatMap (blanked p)).head? = some (' ' : UInt8) ∧ ∃ a ∈ (spelling ls).head?,
      isOpening a = true := by
  cases ls with
  | nil => exact .inl rfl
  | cons l ls =>
    obtain ⟨a, tail, ht, _⟩ := id hc.1
    cases hk : p l.kind with
    | false => exact .inl (by simp [blanked, hk, ht])
    | true =>
      obtain ⟨a, t, ht, ha⟩ := hc.1.opening (hp _ hk)
      obtain ⟨_, _, hspace, _⟩ := isOpening_facts ha
      exact .inr ⟨by simp [blanked, hk, ht, hspace], a, by simp [ht], ha⟩

theorem head?_blanked_newline (h : ∀ b ∈ (spelling ls).head?, b = newline) :
    ∀ b ∈ (ls.flatMap (blanked p)).head?, b = newline := by
  rcases head?_blanked hp hc with e | ⟨_, a, ha, hopen⟩
  · rwa [e]
  · exact absurd (h a ha) (isOpening_facts hopen).2.1

end Heads

section Literals

variable {q : UInt8} {esc : Bool} {s s' : Text}

theorem literalRest_append_congr (h : ∀ e, literalRest q e s = none → literalRest q e s' = none)
    (x : Text) (hx : literalRest q esc (x ++ s) = none) : literalRest q esc (x ++ s') = none := by
  induction x generalizing esc with
  | nil => exact h esc hx
  | cons a x ih =>
    rw [List.cons_append, literalRest_cons_eq_none] at *
    exact ⟨hx.1, hx.2.imp_right ih⟩

theorem literalRest_behind {x : Text} (hn : newline ∉ x) (h : literalRest q esc (x ++ s) = none) :
    ∃ e, literalRest q e s = none := by
  induction x generalizing esc with
  | nil => exact ⟨esc, h⟩
  | cons a x ih =>
    rw [List.cons_append, literalRest_cons_eq_none] at h
    simp only [List.mem_cons, not_or] at hn
    exact ih hn.2 (h.2.resolve_left (Ne.symm hn.1))

theorem literalRest_blanks (hq : isBlankByte q = false) {w : Text}
    (hw : ∀ b ∈ w, isBlankByte b = true) (hne : w ≠ [])
    (h : newline ∈ w ∨ literalRest q false s = none) : literalRest q esc (w ++ s) = none := by
  induction w generalizing esc with
  | nil => exact absurd rfl hne
  | cons a w ih =>
    have ha : isBlankByte a = true := hw a (by simp)
    have hb : (a == ('\\' : UInt8)) = false := by
      rw [beq_eq_false_iff_ne]
      rintro rfl
      revert ha
      decide
    rw [List.cons_append, literalRest_cons_eq_none]
    refine ⟨?_, ?_⟩
    · rintro ⟨rfl, _⟩
      simp [ha] at hq
    · rw [hb, Bool.false_and]
      by_cases han : a = newline
      · exact .inl han
      · cases w with
        | nil => exact .inr (h.resolve_left (by simpa using Ne.symm han))
        | cons b w =>
          refine .inr (ih (fun c hc => hw c (by simp [hc])) (by simp) (h.imp_left fun hm => ?_))
          exact (List.mem_cons.1 hm).resolve_left (Ne.symm han)

theorem literalRest_blanked (hq : q = '"' ∨ q = '\'') {p : TokenKind → Bool}
    (hp : ∀ k, p k = true → isMasked k = true) {ls : List Lexeme} (hc : Chain ls [])
    (h : literalRest q esc (spelling ls) = none) :
    literalRest q esc (ls.flatMap (blanked p)) = none := by
  have hqb : isBlankByte q = false := by rcases hq with rfl | rfl <;> decide
  induction ls generalizing esc with
  | nil => exact h
  | cons l ls ih =>
    obtain ⟨hf, hc⟩ := hc
    rw [List.append_nil] at hf
    rw [spelling_cons] at h
    rw [List.flatMap_cons]
    cases hk : p l.kind with
    | false =>
      rw [blanked_of_not hk]
      exact literalRest_append_congr (fun e he => ih hc he) l.text h
    | true =>
      obtain ⟨_, _, ht, _⟩ := hf.opening (hp _ hk)
      rw [blanked_of hk]
      refine literalRest_blanks hqb isBlankByte_of_map (by simp [ht]) ?_
      rcases hf.masked_end (hp _ hk) with ⟨x, b, hx, hb⟩ | hn
      · by_cases hn : newline ∈ l.text
        · exact .inl (List.mem_map.2 ⟨newline, hn, by simp [blankByte]⟩)
        · -- the search goes on behind the last byte, which is not an open backslash
          rw [hx, List.mem_append, List.mem_singleton, not_or] at hn
          rw [hx, List.append_assoc] at h
          obtain ⟨e, he⟩ := literalRest_behind hn.1 h
          rw [List.singleton_append, literalRest_cons_eq_none, beq_eq_false_iff_ne.2 hb,
            Bool.false_and] at he
          exact .inr (ih hc (he.2.resolve_left (Ne.symm hn.2)))
      · -- nothing is left of the line behind a lexeme that is not closed
        have hb := head?_blanked_newline hp hc hn
        cases hB : ls.flatMap (blanked p) with
        | nil => exact .inr rfl
        | cons b r =>
          obtain rfl : b = newline := hb b (by simp [hB])
          refine .inr ?_
          rw [literalRest_cons_eq_none]
          exact ⟨fun e => by simp [← e.1, isBlankByte] at hqb, .inl rfl⟩

end Literals

theorem commentLength_eq_none_iff {t : Text} : commentLength t = none ↔
    ∀ i : Nat, t[i]? = some ('*' : UInt8) → t[i + 1]? ≠ some ('/' : UInt8) := by
  fun_induction commentLength t with
  | case1 a b rest hab =>
    obtain ⟨rfl, rfl⟩ : a = '*' ∧ b = '/' := by simpa using hab
    simpa using ⟨0, by simp⟩
  | case2 a b rest hab ih =>
    rw [Option.map_eq_none_iff, ih]
    constructor
    · intro h i
      cases i with
      | zero => simpa using hab
      | succ i => simpa using h i
    · intro h i
      simpa using h (i + 1)
  | case3 t ht =>
    rcases t with _ | ⟨a, _ | ⟨b, rest⟩⟩
    · simp
    · simp
    · exact absurd rfl (ht a b rest)

theorem getElem?_blanked {p : TokenKind → Bool} (ls : List Lexeme) (i : Nat) (b : UInt8)
    (h : (ls.flatMap (blanked p))[i]? = some b) :
    isBlankByte b = true ∨ (spelling ls)[i]? = some b := by
  induction ls generalizing i with
  | nil => simp at h
  | cons l ls ih =>
    rw [List.flatMap_cons, List.getElem?_append, length_blanked] at h
    rw [spelling_cons, List.getElem?_append]
    by_cases hi : i < l.text.length
    · rw [if_pos hi] at h ⊢
      cases hk : p l.kind with
      | false => exact .inr (by simpa [blanked_of_not hk] using h)
      | true =>
        rw [blanked_of hk] at h
        exact .inl (isBlankByte_of_map b (List.mem_of_getElem? h))
    · rw [if_neg hi] at h ⊢
      exact ih _ h

theorem commentLength_blanked {p : TokenKind → Bool} {ls : List Lexeme}
    (h : commentLength (spelling ls).tail = none) : commentLength (ls.flatMap (blanked p)).tail =
      none := by
  rw [commentLength_eq_none_iff] at *
  intro i hi hi'
  rw [List.getElem?_tail] at hi hi'
  have h1 := (getElem?_blanked ls _ _ hi).resolve_left (by decide)
  have h2 := (getElem?_blanked ls _ _ hi').resolve_left (by decide)
  exact h i (by rw [List.getElem?_tail, h1]) (by rw [List.getElem?_tail, h2])

theorem takeWhile_append_congr {p : UInt8 → Bool} {s s' : Text} (h : s.takeWhile p = s'.takeWhile p)
    (x : Text) : (x ++ s).takeWhile p = (x ++ s').takeWhile p := by
  rw [List.takeWhile_append, List.takeWhile_append, h]

section Stops

variable {p : TokenKind → Bool} (hp : ∀ k, p k = true → isMasked k = true) {ls : List Lexeme}
    (hc : Chain ls [])
include hp hc

theorem takeWhile_blanked :
    (ls.flatMap (blanked p)).takeWhile Text.isHigh = (spelling ls).takeWhile Text.isHigh := by
  induction ls with
  | nil => rfl
  | cons l ls ih =>
    rw [List.flatMap_cons, spelling_cons]
    cases hk : p l.kind with
    | false =>
      rw [blanked_of_not hk]
      exact takeWhile_append_congr (ih hc.2) l.text
    | true =>
      obtain ⟨a, t, ht, ha⟩ := hc.1.opening (hp _ hk)
      obtain ⟨hlow, _, hspace, _⟩ := isOpening_facts ha
      rw [blanked_of hk, ht, List.map_cons, List.cons_append, List.cons_append, hspace,
        List.takeWhile_cons_of_neg (by decide), List.takeWhile_cons_of_neg (by simp [hlow])]

/-- Significant lexemes stop where they did when lexemes behind them are blanked. -/
theorem stops_blanked {l : Lexeme} (hl : l.kind.isSignificant = true) (h : Stops l (spelling ls)) :
    Stops l (ls.flatMap (blanked p)) := by
  have hhead : ∀ q : UInt8 → Bool, q ' ' = false → (∀ b ∈ (spelling ls).head?, q b = false) →
      ∀ b ∈ (ls.flatMap (blanked p)).head?, q b = false := by
    intro q hq hs b hb
    rcases head?_blanked hp hc with e | ⟨e, _⟩
    · exact hs b (e ▸ hb)
    · rw [e] at hb
      obtain rfl := Option.some.inj hb
      exact hq
  obtain ⟨k, text⟩ := l
  cases k with
  | blockComment | lineComment | directive | blank =>
    simp [TokenKind.isSignificant, TokenKind.isComment] at hl
  | stringLiteral | charLiteral | scope => trivial
  | ident => exact hhead Text.isNameByte (by decide) h
  | number => exact hhead isNumberByte (by decide) h
  | punct =>
    have hs : SignStops text (spelling ls) := h
    refine ⟨fun e => ⟨?_, fun hb => ?_⟩, fun e => ?_, fun q e hq => ?_, fun a tail e => ?_⟩
    · rcases head?_blanked hp hc with e' | ⟨e', _⟩
      · exact e' ▸ (hs.slash e).1
      · rw [e']
        decide
    · rcases head?_blanked hp hc with e' | ⟨e', _⟩
      · exact commentLength_blanked ((hs.slash e).2 (e' ▸ hb))
      · rw [e'] at hb
        exact absurd hb (by decide)
    · rcases head?_blanked hp hc with e' | ⟨e', _⟩
      · exact e' ▸ hs.colon e
      · rw [e']
        decide
    · rw [literalLength_eq]
      exact literalRest_blanked hq hp hc (literalLength_eq q _ ▸ hs.quote q e hq)
    · rw [Text.firstChar_congr (takeWhile_append_congr (takeWhile_blanked hp hc) tail)]
      exact hs.char a tail e

end Stops

theorem blankByte_beq_newline (b : UInt8) : (blankByte b == newline) = (b == newline) := by
  unfold blankByte
  split
  · rfl
  · rename_i hb
    rw [Bool.eq_false_iff.2 hb]
    decide

theorem count_blanked (p : TokenKind → Bool) (l : Lexeme) :
    (blanked p l).count newline = l.text.count newline := by
  unfold blanked
  split
  · simp only [List.count, List.countP_map]
    congr 1
    funext b
    exact blankByte_beq_newline b
  · rfl

theorem length_bare (ls : List Lexeme) : (bare ls).length = (spelling ls).length := by
  simp [bare, spelling, List.length_flatMap]

@[simp] theorem length_blankKinds (p : TokenKind → Bool) (t : Text) :
    (blankKinds p t).length = t.length := by
  have h : (blankKinds p t).length = (spelling (ofText t)).length := by
    rw [blankKinds_eq]
    simp [spelling, List.length_flatMap]
  rw [h, spelling_ofText]

theorem isBlankByte_of_blanked {p : TokenKind → Bool} {l : Lexeme} {rest : Text} (h : Fits l rest)
    (hl : p l.kind = true ∨ l.kind = .blank) : ∀ b ∈ blanked p l, isBlankByte b = true := by
  cases hk : p l.kind with
  | true => exact blanked_of hk ▸ isBlankByte_of_map
  | false =>
    have hblank : l.kind = .blank := by simpa [hk] using hl
    have hs := h.shape
    simp only [Shape, hblank] at hs
    exact blanked_of_not hk ▸ hs.2

theorem blankKinds_of_fits (p : TokenKind → Bool) {l : Lexeme} {rest : Text} (h : Fits l rest) :
    blankKinds p (l.text ++ rest) = blanked p l ++ blankKinds p rest := by
  rw [blankKinds_eq, ofText_of_fits h, List.flatMap_cons, blankKinds_eq]

theorem flatMap_gap {p : TokenKind → Bool} (hp : p .blank = false) (w : Text) :
    (gap w).flatMap (blanked p) = w := by
  unfold gap
  split
  · simp_all
  · simp [blanked, hp]

theorem blankKinds_blanks {p : TokenKind → Bool} (hp : p .blank = false) {w : Text}
    (hw : ∀ b ∈ w, isBlankByte b = true) (t : Text) :
    blankKinds p (w ++ t) = w ++ blankKinds p t := by
  obtain ⟨u, v, rfl, hu, hv⟩ := exists_blankRun t
  have hwu : ∀ b ∈ w ++ u, isBlankByte b = true := by
    simpa [or_imp, forall_and] using ⟨hw, hu⟩
  rw [← List.append_assoc, blankKinds_eq, ofText_blankRun hwu hv, blankKinds_eq,
    ofText_blankRun hu hv, List.flatMap_append, List.flatMap_append, flatMap_gap hp, flatMap_gap hp,
    List.append_assoc]

section Twice

variable {p : TokenKind → Bool} (hp : ∀ k, p k = true → isMasked k = true)
  (hcomments : ∀ k : TokenKind, k.isComment = true → p k = true)
include hcomments

/-- Where comments are blanked every lexeme turns into blanks, or it is significant. -/
theorem blank_or_significant (k : TokenKind) :
    (p k = true ∨ k = .blank) ∨ k.isSignificant = true ∧ p k = false := by
  cases hk : p k with
  | true => exact .inl (.inl rfl)
  | false =>
    have hcomment : k.isComment = false := by
      cases hc : k.isComment with
      | false => rfl
      | true => rw [hcomments k hc] at hk; cases hk
    by_cases hblank : k = .blank
    · exact .inl (.inr hblank)
    · exact .inr ⟨by simp [TokenKind.isSignificant, hcomment, hblank], rfl⟩

include hp

/-- Lexemes that are blanked already may be blanked together with other kinds. -/
theorem blankKinds_blanked {q : TokenKind → Bool} (hq : q .blank = false) {ls : List Lexeme}
    (hc : Chain ls []) :
    blankKinds q (ls.flatMap (blanked p)) = ls.flatMap (blanked fun k => p k || q k) := by
  induction ls with
  | nil => simp [blankKinds_eq, ofText]
  | cons l ls ih =>
    obtain ⟨hf, hc⟩ := hc
    rw [List.append_nil] at hf
    rw [List.flatMap_cons, List.flatMap_cons]
    rcases blank_or_significant hcomments l.kind with hk | ⟨hsig, hk⟩
    · rw [blankKinds_blanks hq (isBlankByte_of_blanked hf hk), ih hc]
      rcases hk with hk | hblank
      · simp [blanked, hk]
      · simp [blanked, hblank, hq]
    · rw [blanked_of_not hk, blankKinds_of_fits q (hf.of_stops (stops_blanked hp hc hsig hf.stops)),
        ih hc]
      simp [blanked, hk]

end Twice

theorem stripComments_stripComments (t : Text) :
    stripComments (stripComments t) = stripComments t := by
  have := blankKinds_blanked isMasked_of_isComment (fun _ => id) (q := TokenKind.isComment) rfl
    (chain_ofText t)
  simp only [Bool.or_self] at this
  exact this

theorem mask_stripComments (t : Text) : mask (stripComments t) = mask t := by
  have := blankKinds_blanked isMasked_of_isComment (fun _ => id) (q := isMasked) rfl
    (chain_ofText t)
  simp only [isMasked, ← Bool.or_assoc, Bool.or_self] at this
  exact this

end Lexeme

def Pos.flat (p : Pos) : Pos := { p with column := 0 }

def Token.flat (t : Token) : Token := { t with pos := t.pos.flat }

namespace Token

theorem flat_advance {p p' : Pos} (hp : p.flat = p'.flat) {t t' : Text} (hl : t.length = t'.length)
    (hn : t.count newline = t'.count newline) : (p.advance t).flat = (p'.advance t').flat := by
  simp_all [Pos.flat]

/-- The significant tokens of a text without some of its lexemes are those that are left, at the
same offsets and lines. -/
theorem readFrom_blanked {kinds : TokenKind → Bool}
    (hkinds : ∀ k, kinds k = true → Lexeme.isMasked k = true)
    (hcomments : ∀ k : TokenKind, k.isComment = true → kinds k = true) {ls : List Lexeme}
    (hc : Lexeme.Chain ls []) {p p' : Pos} (hp : p.flat = p'.flat) :
    (readFrom p (ls.flatMap (Lexeme.blanked kinds))).map flat =
      ((place p' ls).filter fun t => t.kind.isSignificant && !kinds t.kind).map flat := by
  induction ls generalizing p p' with
  | nil => simp [place]
  | cons l ls ih =>
    obtain ⟨hf, hc⟩ := hc
    rw [List.append_nil] at hf
    have hadv := flat_advance hp (Lexeme.length_blanked kinds l) (Lexeme.count_blanked kinds l)
    rw [List.flatMap_cons, place_cons, List.filter_cons]
    rcases Lexeme.blank_or_significant hcomments l.kind with hk | ⟨hsig, hk⟩
    · have hdropped : (l.kind.isSignificant && !kinds l.kind) = false := by
        rcases hk with hk | hblank
        · rw [hk, Bool.not_true, Bool.and_false]
        · rw [hblank]
          rfl
      rw [readFrom_blanks (Lexeme.isBlankByte_of_blanked hf hk), hdropped]
      exact ih hc hadv
    · rw [Lexeme.blanked_of_not hk] at hadv ⊢
      rw [readFrom_of_fits (hf.of_stops (Lexeme.stops_blanked hkinds hc hsig hf.stops)), hsig, hk]
      simp [ih hc hadv, flat, hp]

theorem readFrom_stripComments (t : Text) :
    (significant (ofText (stripComments t))).map flat = (significant (ofText t)).map flat := by
  have hkeep : (fun t : Token => t.kind.isSignificant && !t.kind.isComment) =
      fun t => t.kind.isSignificant := by
    funext t
    cases t.kind <;> rfl
  have hread := readFrom_blanked Lexeme.isMasked_of_isComment (fun _ => id) (Lexeme.chain_ofText t)
    (rfl : Pos.start.flat = Pos.start.flat)
  rwa [hkeep] at hread

end Token
end HeaderBridge
