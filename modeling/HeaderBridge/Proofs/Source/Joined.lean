import HeaderBridge.Proofs.Source.Blanking
import HeaderBridge.Proofs.Source.Seam

namespace HeaderBridge

def Pos.lower (bytes lines : Nat) (p : Pos) : Pos :=
  { p with offset := p.offset + bytes, line := p.line + lines }

namespace Lexeme

def semicolon : Lexeme := ⟨.punct, [';']⟩

/-- What stands on the line below is cut as if it stood alone: no comment is left open, and the last
line is not continued. -/
structure LineEnds (t : Text) : Prop where
  comment : leavesComment (ofText t) = false
  line : t.getLast? ≠ some ('\\' : UInt8)

theorem directiveRest_newline {esc : Bool} {x : Text} (h : directiveRest esc x = x.length)
    (hlast : x.getLast? ≠ some ('\\' : UInt8)) (hesc : x = [] → esc = false) (y : Text) :
    directiveRest esc (x ++ newline :: y) = x.length := by
  induction x generalizing esc with
  | nil => simp [directiveRest, hesc rfl]
  | cons a x ih =>
    rw [directiveRest] at h
    rw [List.cons_append, directiveRest]
    split
    · rw [if_pos ‹_›] at h
      exact h
    · rw [if_neg ‹_›, List.length_cons, Nat.add_right_cancel_iff] at h
      refine congrArg (· + 1) (ih h ?_ ?_)
      · cases x with
        | nil => simp
        | cons b x => rwa [List.getLast?_cons_cons] at hlast
      · rintro rfl
        simpa using hlast

/-- A lexeme ends at the end of its line, unless it is a run of blanks or a directive that goes
on. -/
theorem stops_newline {l : Lexeme} (hf : Fits l []) (hblank : l.kind ≠ .blank)
    (hline : l.text.getLast? ≠ some ('\\' : UInt8)) (y : Text) : Stops l (newline :: y) := by
  obtain ⟨k, text⟩ := l
  have hshape := hf.shape
  have hstops := hf.stops
  cases k with
  | blockComment | stringLiteral | charLiteral | scope => trivial
  | lineComment => simp [Stops]
  | ident | number => simp +decide [Stops]
  | blank => exact absurd rfl hblank
  | directive =>
    obtain ⟨t, rfl⟩ : ∃ t : Text, text = ('#' : UInt8) :: t := hshape
    simp only [Stops, directiveLength_eq, List.tail_cons, List.append_nil] at hstops ⊢
    refine directiveRest_newline hstops ?_ (fun _ => rfl) y
    cases t with
    | nil => simp
    | cons b t => rwa [List.getLast?_cons_cons] at hline
  | punct =>
    have hs : SignStops text [] := hstops
    refine ⟨fun _ => by simp +decide, fun _ => by simp +decide, fun q _ hq => ?_,
      fun a tail e => ?_⟩
    · rw [literalLength_eq, literalRest_cons_eq_none]
      exact ⟨by rcases hq with rfl | rfl <;> decide, .inl rfl⟩
    · rw [Text.firstChar_congr (Text.takeWhile_append_of_stop (by simp +decide))]
      simpa using hs.char a tail e

/-- A cut with nothing but blanks behind it stays the cut before a new line. -/
theorem chain_newline {ls : List Lexeme} {w : Text} (hc : Chain ls w)
    (hw : ∀ b ∈ w, isBlankByte b = true) (hopen : leavesComment ls = false)
    (hlast : w = [] → ∀ l ∈ ls.getLast?, l.kind ≠ .blank ∧ l.text.getLast? ≠ some ('\\' : UInt8))
    (y : Text) : Chain ls (w ++ newline :: y) := by
  have hliteral {q : UInt8} (hq : q = '"' ∨ q = '\'') (esc : Bool) :
      literalRest q esc (w ++ newline :: y) = none := by
    have hline : ∀ b ∈ w ++ [newline], isBlankByte b = true := by
      intro b hb
      rcases List.mem_append.1 hb with hb | hb
      · exact hw b hb
      · obtain rfl := List.mem_singleton.1 hb
        decide
    have hquote : isBlankByte q = false := by rcases hq with rfl | rfl <;> decide
    have : literalRest q esc (w ++ [newline] ++ y) = none :=
      literalRest_blanks hquote hline (by simp) (.inl (by simp))
    rwa [List.append_assoc] at this
  refine hc.of_append.seam hopen ?_ ?_ ?_
  · intro b hb
    cases w with
    | nil =>
      obtain rfl := Option.some.inj hb
      decide
    | cons a w =>
      obtain rfl := Option.some.inj hb
      exact not_high_of_isBlankByte a (hw a (by simp))
  · intro l hl
    obtain ⟨init, rfl⟩ := List.getLast?_eq_some_iff.1 hl
    have hf : Fits l w := (chain_append.1 hc).2.1
    refine hf.stops.append (fun hnil => ?_) (by simp +decide) (fun _ hstar => ?_) fun q _ hq => ?_
    · subst hnil
      obtain ⟨hblank, hline⟩ := hlast rfl l hl
      exact stops_newline hf hblank hline y
    · cases w with
      | nil => simp at hstar
      | cons a w =>
        obtain rfl := Option.some.inj hstar
        exact absurd (hw _ (List.mem_cons_self ..)) (by decide)
    · rw [literalLength_eq]
      exact hliteral hq false
  · intro q r _ hq hr
    rw [literalLength_eq] at hr ⊢
    exact literalRest_append_congr (s := []) (fun e _ => hliteral hq e) r (by rwa [List.append_nil])

theorem leavesComment_of_append {ls ms : List Lexeme} (h : leavesComment (ls ++ ms) = false) :
    leavesComment ls = false := by
  match ls with
  | [] => rfl
  | [l] => rfl
  | l :: m :: ls =>
    obtain ⟨hl, hm⟩ := Bool.or_eq_false_iff.1 h
    exact Bool.or_eq_false_iff.2 ⟨hl, leavesComment_of_append hm⟩

theorem exists_cut {t : Text} (h : LineEnds t) :
    ∃ ls w, ofText t = ls ++ gap w ∧ (∀ b ∈ w, isBlankByte b = true) ∧
    ∀ y, Chain ls (w ++ newline :: y) := by
  have hchain := chain_ofText t
  have hopen := h.comment
  rcases List.eq_nil_or_concat (ofText t) with hnil | ⟨init, l, hls⟩
  · exact ⟨[], [], hnil, by simp, fun _ => trivial⟩
  rw [List.concat_eq_append] at hls
  rw [hls] at hchain hopen
  by_cases hblank : l.kind = .blank
  · obtain ⟨k, w⟩ := l
    obtain rfl : k = .blank := hblank
    obtain ⟨hinit, hf, _⟩ := chain_append.1 hchain
    obtain ⟨hne, hw⟩ : w ≠ [] ∧ ∀ b ∈ w, isBlankByte b = true := hf.shape
    have hspell : spelling [⟨TokenKind.blank, w⟩] ++ [] = w := by simp
    rw [hspell] at hinit
    refine ⟨init, w, by rw [hls, gap, if_neg hne], hw, chain_newline hinit hw ?_ fun hnil =>
      absurd hnil hne⟩
    exact leavesComment_of_append hopen
  · refine ⟨init ++ [l], [], by rw [hls, gap, if_pos rfl, List.append_nil], by simp,
      chain_newline hchain (by simp) hopen fun _ m hm => ?_⟩
    obtain rfl : l = m := by simpa using hm
    refine ⟨hblank, fun hl => h.line ?_⟩
    rw [← spelling_ofText t, hls, spelling_append, List.getLast?_append]
    simp [hl]

theorem ofText_newline {p : Text} (hlast : ∀ l ∈ (ofText p).getLast?, l = semicolon)
    (hopen : leavesComment (ofText p) = false) (q : Text) :
    ofText (p ++ newline :: q) = ofText p ++ ofText (newline :: q) := by
  have hend : ∀ l ∈ (ofText p).getLast?, l.kind ≠ .blank ∧
      l.text.getLast? ≠ some ('\\' : UInt8) := by
    intro l hl
    rw [hlast l hl]
    decide
  have h := ofText_of_chain (chain_newline (chain_ofText p) (by simp) hopen (fun _ => hend) q)
  rwa [spelling_ofText] at h

theorem lineEnds_of_semicolon {p : Text} (hlast : ∀ l ∈ (ofText p).getLast?, l = semicolon)
    (hopen : leavesComment (ofText p) = false) : LineEnds p := by
  refine ⟨hopen, fun hline => ?_⟩
  rcases List.eq_nil_or_concat (ofText p) with hnil | ⟨init, l, hls⟩
  · rw [← spelling_ofText p, hnil] at hline
    simp at hline
  · obtain rfl := hlast l (by simp [hls])
    rw [← spelling_ofText p, hls] at hline
    simp +decide [semicolon] at hline

theorem spelling_gap (w : Text) : spelling (gap w) = w := by
  unfold gap
  split
  · rw [‹w = []›]
    rfl
  · simp

theorem blankKinds_newline {k : TokenKind → Bool} (hk : k .blank = false) {t : Text}
    (h : LineEnds t) (y : Text) :
    blankKinds k (t ++ newline :: y) = blankKinds k t ++ newline :: blankKinds k y := by
  obtain ⟨ls, w, hls, hw, hchain⟩ := exists_cut h
  have hnl : ∀ b ∈ [newline], isBlankByte b = true := List.forall_mem_singleton.2 rfl
  have hwnl : ∀ b ∈ w ++ [newline], isBlankByte b = true := by
    simpa [or_imp, forall_and, hnl] using hw
  have ht : t = spelling ls ++ w := by rw [← spelling_ofText t, hls, spelling_append, spelling_gap]
  have hgap : (gap w).flatMap (blanked k) = w := flatMap_gap hk w
  have hy := blankKinds_blanks hk hwnl y
  rw [List.append_assoc] at hy
  rw [blankKinds_eq k t, hls, List.flatMap_append, hgap, ht, List.append_assoc, blankKinds_eq,
    ofText_of_chain (hchain y), List.flatMap_append, ← blankKinds_eq]
  simpa using hy

theorem mask_newline {p : Text} (hlast : ∀ l ∈ (ofText p).getLast?, l = semicolon)
    (hopen : leavesComment (ofText p) = false) (q : Text) :
    mask (p ++ newline :: q) = mask p ++ newline :: mask q :=
  blankKinds_newline rfl (lineEnds_of_semicolon hlast hopen) q

end Lexeme

namespace Token

theorem place_lower (bytes lines : Nat) (p : Pos) (ls : List Lexeme) :
    place (p.lower bytes lines) ls =
      (place p ls).map fun t => { t with pos := t.pos.lower bytes lines } := by
  induction ls generalizing p with
  | nil => rfl
  | cons l ls ih =>
    have hadv : (p.lower bytes lines).advance l.text = (p.advance l.text).lower bytes lines := by
      simp only [Pos.advance, Pos.lower, Pos.mk.injEq, and_true]
      omega
    rw [place_cons, place_cons, hadv, ih, List.map_cons]

theorem readFrom_newline {t : Text} (h : Lexeme.LineEnds t) (p : Pos) (y : Text) :
    readFrom p (t ++ newline :: y) =
      readFrom p t ++ readFrom ((after p (Lexeme.ofText t)).advance [newline]) y := by
  obtain ⟨ls, w, hls, hw, hchain⟩ := Lexeme.exists_cut h
  have hnl : ∀ b ∈ [newline], Lexeme.isBlankByte b = true := List.forall_mem_singleton.2 rfl
  have hwnl : ∀ b ∈ w ++ [newline], Lexeme.isBlankByte b = true := by
    simpa [or_imp, forall_and, hnl] using hw
  have ht : t = Lexeme.spelling ls ++ w := by
    rw [← Lexeme.spelling_ofText t, hls, Lexeme.spelling_append, Lexeme.spelling_gap]
  have hafter : after p (ls ++ Lexeme.gap w) = (after p ls).advance w :=
    (List.foldl_append ..).trans (after_gap (after p ls) w)
  have hstart : (after p (ls ++ Lexeme.gap w)).advance [newline] =
      (after p ls).advance (w ++ [newline]) := by
    rw [hafter, Pos.advance_append_of_ascii fun b hb => Lexeme.not_high_of_isBlankByte b (hw b hb)]
  have hy := readFrom_blanks hwnl (after p ls) y
  rw [List.append_assoc, List.singleton_append] at hy
  rw [readFrom, readFrom, hls, hstart, ← hy, place_append, significant_append, significant_gap,
    List.append_nil, ht, List.append_assoc, Lexeme.ofText_of_chain (hchain y), place_append,
    significant_append, ← readFrom]

/-- The tokens of a joined text: those of the first part, and those of the second one further
down. -/
theorem significant_join {t : Text} (h : Lexeme.LineEnds t) (q : Text) :
    significant (ofText (t ++ newline :: q)) = significant (ofText t) ++
      (significant (ofText q)).map fun u =>
        { u with pos := u.pos.lower (t.length + 1) (t.count newline + 1) } := by
  have hstart : (after Pos.start (Lexeme.ofText t)).advance [newline] =
      Pos.start.lower (t.length + 1) (t.count newline + 1) := by
    have ho := after_offset Pos.start (Lexeme.ofText t)
    have hl := after_line Pos.start (Lexeme.ofText t)
    rw [Lexeme.spelling_ofText] at ho hl
    simp only [Pos.advance, Pos.lower, ho, hl, Pos.mk.injEq]
    refine ⟨?_, ?_, ?_⟩
    · simp
      omega
    · simp
      omega
    · simp [Pos.lastLine, Text.charCount, Text.cells, Pos.start]
  have hq := readFrom_newline h Pos.start q
  rw [hstart] at hq
  refine hq.trans ?_
  rw [readFrom, readFrom, place_lower, significant, significant, List.filter_map]
  rfl

theorem significant_newline {p : Text}
    (hlast : ∀ l ∈ (Lexeme.ofText p).getLast?, l = Lexeme.semicolon)
    (hopen : Lexeme.leavesComment (Lexeme.ofText p) = false) (q : Text) :
    significant (ofText (p ++ newline :: q)) = significant (ofText p) ++
      (significant (ofText q)).map fun t =>
        { t with pos := t.pos.lower (p.length + 1) (p.count newline + 1) } :=
  significant_join (Lexeme.lineEnds_of_semicolon hlast hopen) q

end Token
end HeaderBridge
