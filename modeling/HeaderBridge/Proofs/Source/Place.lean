import HeaderBridge.Proofs.Source.Chain

namespace HeaderBridge

namespace Text

theorem cells_append_of_all_ascii {x : Text} (h : ∀ b ∈ x, isHigh b = false) (y : Text) :
    cells (x ++ y) = cells x ++ cells y := by
  induction x with
  | nil => simp [cells]
  | cons a x ih =>
    have ha := firstChar_snd_of_not_high (h a (by simp))
    rw [List.cons_append, cells_cons, cells_cons, ha, ha]
    simp [firstChar_of_not_high (h a (by simp)), ih fun b hb => h b (by simp [hb])]

end Text

namespace Pos

@[simp] theorem advance_offset (p : Pos) (t : Text) : (p.advance t).offset = p.offset + t.length :=
  rfl

@[simp] theorem advance_line (p : Pos) (t : Text) : (p.advance t).line = p.line + t.count newline :=
  rfl

@[simp] theorem advance_nil (p : Pos) : p.advance [] = p := by
  simp [advance, lastLine, Text.charCount, Text.cells]

theorem lastLine_append_of_mem {x : Text} (h : newline ∈ x) (w : Text) :
    lastLine (w ++ x) = lastLine x := by
  rw [lastLine, lastLine, List.reverse_append, List.takeWhile_append]
  split
  · rename_i hl
    have hx := (List.takeWhile_prefix (· != newline)).eq_of_length hl
    have := List.all_eq_true.1 List.all_takeWhile _ (hx ▸ List.mem_reverse.2 h)
    simp at this
  · rfl

theorem lastLine_append_of_not_mem {x : Text} (h : newline ∉ x) (w : Text) :
    lastLine (w ++ x) = lastLine w ++ x := by
  rw [lastLine, List.reverse_append, List.takeWhile_append_of_pos, List.reverse_append,
    List.reverse_reverse, lastLine]
  intro b hb
  have : b ≠ newline := by
    rintro rfl
    exact h (List.mem_reverse.1 hb)
  simpa using this

theorem mem_of_mem_lastLine {b : UInt8} {t : Text} (h : b ∈ lastLine t) : b ∈ t := by
  rw [lastLine, List.mem_reverse] at h
  exact List.mem_reverse.1 ((List.takeWhile_prefix _).sublist.mem h)

theorem advance_append_of_ascii {w : Text} (h : ∀ b ∈ w, Text.isHigh b = false) (p : Pos)
    (t : Text) : p.advance (w ++ t) = (p.advance w).advance t := by
  simp only [advance, mk.injEq, List.length_append, List.count_append, Nat.add_assoc, true_and]
  by_cases ht : newline ∈ t
  · simp [ht, lastLine_append_of_mem]
  · have hw : Text.charCount (lastLine (w ++ t)) =
        Text.charCount (lastLine w) + Text.charCount t := by
      rw [lastLine_append_of_not_mem ht, Text.charCount,
        Text.cells_append_of_all_ascii fun b hb => h b (mem_of_mem_lastLine hb), List.length_append]
      rfl
    have ht' : lastLine t = t := lastLine_append_of_not_mem ht []
    rw [hw, ht']
    by_cases hn : newline ∈ w <;> simp [hn, ht, Nat.add_assoc]

end Pos

namespace Lexeme

theorem not_high_of_isBlankByte : ∀ b, isBlankByte b = true → Text.isHigh b = false :=
  forall_blankByte (by decide)

def gap (w : Text) : List Lexeme := if w = [] then [] else [⟨.blank, w⟩]

theorem ofText_blankRun {w v : Text} (hw : ∀ b ∈ w, isBlankByte b = true)
    (hv : ∀ b ∈ v.head?, isBlankByte b = false) : ofText (w ++ v) = gap w ++ ofText v := by
  cases w with
  | nil => rfl
  | cons a w =>
    have hf : Fits ⟨.blank, a :: w⟩ v :=
      (fits_blankByte (hw a (by simp))).2 ⟨rfl, fun b hb => hw b (by simp [hb]), hv⟩
    exact ofText_of_fits hf

theorem exists_blankRun (t : Text) : ∃ u v : Text, t = u ++ v ∧ (∀ b ∈ u, isBlankByte b = true) ∧
    ∀ b ∈ v.head?, isBlankByte b = false := by
  refine ⟨t.takeWhile isBlankByte, t.dropWhile isBlankByte, List.takeWhile_append_dropWhile.symm,
    List.all_eq_true.1 List.all_takeWhile, fun b hb => ?_⟩
  have := List.head?_dropWhile_not isBlankByte t
  rw [hb] at this
  simpa using this

end Lexeme

namespace Token

@[simp] theorem place_cons (p : Pos) (l : Lexeme) (ls : List Lexeme) :
    place p (l :: ls) = ⟨l.kind, l.text, p⟩ :: place (p.advance l.text) ls := rfl

def after (p : Pos) (ls : List Lexeme) : Pos := ls.foldl (fun p l => p.advance l.text) p

theorem place_append (p : Pos) (ls ms : List Lexeme) :
    place p (ls ++ ms) = place p ls ++ place (after p ls) ms := by
  induction ls generalizing p with
  | nil => rfl
  | cons l ls ih =>
    rw [List.cons_append, place_cons, place_cons, ih]
    rfl

theorem after_offset (p : Pos) (ls : List Lexeme) :
    (after p ls).offset = p.offset + (Lexeme.spelling ls).length := by
  induction ls generalizing p with
  | nil => rfl
  | cons l ls ih =>
    have h := ih (p.advance l.text)
    rw [Lexeme.spelling_cons, List.length_append, ← Nat.add_assoc]
    exact h

theorem after_line (p : Pos) (ls : List Lexeme) :
    (after p ls).line = p.line + (Lexeme.spelling ls).count newline := by
  induction ls generalizing p with
  | nil => rfl
  | cons l ls ih =>
    have h := ih (p.advance l.text)
    rw [Lexeme.spelling_cons, List.count_append, ← Nat.add_assoc]
    exact h

theorem significant_append (ts us : List Token) :
    significant (ts ++ us) = significant ts ++ significant us := List.filter_append ..

def readFrom (p : Pos) (t : Text) : List Token := significant (place p (Lexeme.ofText t))

@[simp] theorem readFrom_nil (p : Pos) : readFrom p [] = [] := by
  simp [readFrom, Lexeme.ofText, place, significant]

theorem readFrom_of_fits {l : Lexeme} {rest : Text} (h : Lexeme.Fits l rest) (p : Pos) :
    readFrom p (l.text ++ rest) = (if l.kind.isSignificant then [⟨l.kind, l.text, p⟩] else []) ++
      readFrom (p.advance l.text) rest := by
  rw [readFrom, Lexeme.ofText_of_fits h, place_cons, significant, List.filter_cons]
  split <;> simp [readFrom, significant]

theorem significant_gap (p : Pos) (w : Text) : significant (place p (Lexeme.gap w)) = [] := by
  unfold Lexeme.gap
  split <;> rfl

theorem after_gap (p : Pos) (w : Text) : after p (Lexeme.gap w) = p.advance w := by
  unfold Lexeme.gap
  split
  · rw [‹w = []›, Pos.advance_nil]
    rfl
  · rfl

theorem readFrom_blanks {w : Text} (hw : ∀ b ∈ w, Lexeme.isBlankByte b = true) (p : Pos)
    (t : Text) : readFrom p (w ++ t) = readFrom (p.advance w) t := by
  have hgap (x : Text) (ls : List Lexeme) (p : Pos) :
      significant (place p (Lexeme.gap x ++ ls)) = significant (place (p.advance x) ls) := by
    rw [place_append, significant_append, significant_gap, after_gap, List.nil_append]
  obtain ⟨u, v, rfl, hu, hv⟩ := Lexeme.exists_blankRun t
  have hwu : ∀ b ∈ w ++ u, Lexeme.isBlankByte b = true := by
    simpa [or_imp, forall_and] using ⟨hw, hu⟩
  rw [← List.append_assoc, readFrom, Lexeme.ofText_blankRun hwu hv, hgap, readFrom,
    Lexeme.ofText_blankRun hu hv, hgap,
    Pos.advance_append_of_ascii fun b hb => Lexeme.not_high_of_isBlankByte b (hw b hb)]

end Token
end HeaderBridge
