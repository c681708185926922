import HeaderBridge.Proofs.Interface.Views
import HeaderBridge.Proofs.Path.Clean
import HeaderBridge.Proofs.Source.LineEnd
import HeaderBridge.Proofs.Source.Row

namespace HeaderBridge

namespace Lexeme

theorem Fits.cells_append {l : Lexeme} {rest : Text} (h : Fits l rest) :
    Text.cells (l.text ++ rest) = Text.cells l.text ++ Text.cells rest := by
  cases hl : l.kind.isSignificant with
  | true => exact cells_append_of_fits h hl
  | false =>
    cases hline : takesLine l.kind with
    | true =>
      apply Text.cells_append_of_ascii
      intro b hb
      rw [head?_of_takesLine h hline b hb]
      decide
    | false =>
      apply Text.cells_append_of_low
      have hshape := h.shape
      obtain ⟨k, text⟩ := l
      cases k with
      | blockComment =>
        obtain ⟨t, rfl, ht⟩ : ∃ t : Text, text = ('/' : UInt8) :: ('*' : UInt8) :: t ∧ _ := hshape
        obtain ⟨u, rfl⟩ := commentLength_eq_length ht
        intro b hb
        have hend : ('/' : UInt8) :: ('*' : UInt8) :: (u ++ [('*' : UInt8), ('/' : UInt8)]) =
            (('/' : UInt8) :: ('*' : UInt8) :: (u ++ [('*' : UInt8)])) ++ [('/' : UInt8)] := by simp
        rw [hend, List.getLast?_concat] at hb
        exact Option.some.inj hb ▸ (by decide : Text.isHigh ('/' : UInt8) = false)
      | blank => exact fun b hb => not_high_of_isBlankByte b (hshape.2 b (List.mem_of_getLast? hb))
      | lineComment | directive => cases hline
      | stringLiteral | charLiteral | ident | number | scope | punct => cases hl

theorem Chain.cells_append {ls : List Lexeme} {rest : Text} (h : Chain ls rest) :
    Text.cells (spelling ls ++ rest) = Text.cells (spelling ls) ++ Text.cells rest := by
  induction ls with
  | nil => simp [Text.cells]
  | cons l ls ih =>
    rw [spelling_cons, List.append_assoc, h.1.cells_append, ih h.2, h.1.of_append.cells_append,
      List.append_assoc]

end Lexeme

namespace Pos

theorem exists_eq_append_lastLine (t : Text) :
    ∃ x, t = x ++ lastLine t ∧ ∀ b ∈ x.getLast?, b = newline := by
  refine ⟨(t.reverse.dropWhile (· != newline)).reverse, ?_, ?_⟩
  · rw [lastLine, ← List.reverse_append, List.takeWhile_append_dropWhile, List.reverse_reverse]
  · intro b hb
    have hstop := List.head?_dropWhile_not (· != newline) t.reverse
    rw [List.getLast?_reverse] at hb
    rw [Option.mem_def.1 hb] at hstop
    simpa using hstop

theorem advance_append {w t : Text} (h : Text.cells (w ++ t) = Text.cells w ++ Text.cells t)
    (p : Pos) : p.advance (w ++ t) = (p.advance w).advance t := by
  simp only [advance, mk.injEq, List.length_append, List.count_append, Nat.add_assoc, true_and]
  by_cases ht : newline ∈ t
  · simp [ht, lastLine_append_of_mem]
  · obtain ⟨x, hx, hlast⟩ := exists_eq_append_lastLine w
    have hcut (z : Text) : Text.cells (x ++ z) = Text.cells x ++ Text.cells z := by
      apply Text.cells_append_of_low
      intro b hb
      rw [hlast b hb]
      decide
    have hline : Text.cells (lastLine w ++ t) = Text.cells (lastLine w) ++ Text.cells t := by
      rw [hx, hcut, List.append_assoc, hcut, List.append_assoc] at h
      exact List.append_cancel_left h
    have hcount : Text.charCount (lastLine (w ++ t)) = Text.charCount (lastLine w) + Text.charCount
        (lastLine t) := by
      have ht' : lastLine t = t := lastLine_append_of_not_mem ht []
      rw [lastLine_append_of_not_mem ht, ht', Text.charCount, hline, List.length_append]
      rfl
    rw [hcount]
    by_cases hw : newline ∈ w <;> simp [hw, ht, Nat.add_assoc]

end Pos

namespace Token

theorem after_eq {ls : List Lexeme} {rest : Text} (h : Lexeme.Chain ls rest) (p : Pos) :
    after p ls = p.advance (Lexeme.spelling ls) := by
  induction ls generalizing p with
  | nil => exact (Pos.advance_nil p).symm
  | cons l ls ih =>
    rw [Lexeme.spelling_cons, Pos.advance_append h.1.of_append.cells_append]
    exact ih h.2 (p.advance l.text)

theorem pos_eq {s : Text} {t : Token} (h : t ∈ ofText s) :
    t.pos = Pos.start.advance (s.take t.pos.offset) := by
  obtain ⟨ks, ms, hls, hpos⟩ := exists_of_mem_place h
  have hchain := Lexeme.chain_ofText s
  rw [hls, Lexeme.chain_append] at hchain
  have hbefore : s.take t.pos.offset = Lexeme.spelling ks := by
    rw [hpos, Interface.offset_after_start, ← Lexeme.spelling_ofText s, hls, Lexeme.spelling_append,
      List.take_left]
  rw [hbefore, ← after_eq hchain.1]
  exact hpos

theorem text_prefix_drop {s : Text} {t : Token} (h : t ∈ ofText s) :
    t.text <+: s.drop t.pos.offset := by
  obtain ⟨ks, ms, hls, hpos⟩ := exists_of_mem_place h
  rw [hpos, Interface.offset_after_start]
  refine ⟨Lexeme.spelling ms, ?_⟩
  have hs := Lexeme.spelling_ofText s
  rw [hls, Lexeme.spelling_append, Lexeme.spelling_cons] at hs
  rw [← hs, List.drop_left]

end Token

namespace Text

theorem length_lines (t : Text) : (lines t).length = t.count newline + 1 := by
  induction t with
  | nil => rfl
  | cons a t ih =>
    rw [lines, splitAt]
    split
    · rename_i ha
      rw [ha, List.count_cons_self, List.length_cons]
      exact congrArg (· + 1) ih
    · rename_i ha
      rw [lines] at ih
      cases hparts : splitAt newline t with
      | nil => exact absurd hparts (splitAt_ne_nil newline t)
      | cons part parts =>
        rw [hparts] at ih
        rw [List.count_cons_of_ne ha]
        exact ih

theorem head?_lines (t : Text) : (lines t).head? = some (t.takeWhile (· != newline)) := by
  induction t with
  | nil => rfl
  | cons a t ih =>
    rw [lines, splitAt]
    split
    · rename_i ha
      simp [ha]
    · rename_i ha
      rw [lines] at ih
      cases hparts : splitAt newline t with
      | nil => exact absurd hparts (splitAt_ne_nil newline t)
      | cons part parts =>
        rw [hparts] at ih
        obtain rfl := Option.some.inj ih
        simp [ha]

/-- The line that a place lies in: what stands before it in the line, and what stands behind it. -/
theorem getElem?_lines (x y : Text) :
    (lines (x ++ y))[x.count newline]? = some (Pos.lastLine x ++ y.takeWhile (· != newline)) := by
  have hfirst : ∀ w : Text, newline ∉ w →
      (lines (w ++ y))[0]? = some (w ++ y.takeWhile (· != newline)) := by
    intro w hw
    rw [← List.head?_eq_getElem?, head?_lines, List.takeWhile_append_of_pos]
    intro b hb
    have hne : b ≠ newline := by
      intro heq
      exact hw (heq ▸ hb)
    simpa using hne
  obtain ⟨z, hz, hlast⟩ := Pos.exists_eq_append_lastLine x
  have hline : newline ∉ Pos.lastLine x := by
    intro hmem
    have hall :=
      List.all_eq_true.1 (List.all_takeWhile (p := (· != newline)) (l := x.reverse)) newline
      (List.mem_reverse.1 hmem)
    simp at hall
  rcases List.eq_nil_or_concat z with rfl | ⟨z, b, rfl⟩
  · rw [List.nil_append] at hz
    rw [← hz] at hline ⊢
    rw [List.count_eq_zero_of_not_mem hline]
    exact hfirst x hline
  · obtain rfl : b = newline := hlast b (by simp)
    have hcount : x.count newline = (lines z).length := by
      rw [hz, List.concat_eq_append, List.count_append, List.count_append,
        List.count_eq_zero_of_not_mem hline, length_lines, List.count_singleton_self, Nat.add_zero]
    have hxy : x ++ y = z ++ newline :: (Pos.lastLine x ++ y) := by
      have happend := congrArg (· ++ y) hz
      simpa using happend
    have hsplit : lines (x ++ y) = lines z ++ lines (Pos.lastLine x ++ y) := by
      rw [hxy]
      exact splitAt_append newline z (Pos.lastLine x ++ y)
    rw [hsplit, hcount, List.getElem?_append_right (Nat.le_refl _), Nat.sub_self]
    exact hfirst _ hline

end Text
end HeaderBridge
