import HeaderBridge.Proofs.Text.Cells
import HeaderBridge.Source.Token
import Mathlib.Data.List.Flatten

namespace HeaderBridge
namespace Text

/-- The characters with each run of blanks folded into a space, which is written only before another
character. The flag says whether a space is owed. -/
def squeeze : Bool → List Cell → Text
  | _, [] => []
  | owed, c :: cs =>
    if c.isBlank then squeeze true cs
    else (if owed then (" " : Text) else []) ++ c.bytes ++ squeeze false cs

theorem intercalate_cons (sep w : Text) (ws : List Text) :
    List.intercalate sep (w :: ws) =
      w ++ if ws = [] then [] else sep ++ List.intercalate sep ws := by
  cases ws <;> simp [List.intercalate]

theorem squeeze_eq (owed : Bool) (cs : List Cell) :
    squeeze owed cs =
      (if (cs.foldr pushCell ([], false)).1 ≠ [] ∧
        ((cs.foldr pushCell ([], false)).2 = false ∨ owed) then
        (" " : Text) else []) ++ join " " (cs.foldr pushCell ([], false)).1 := by
  induction cs generalizing owed with
  | nil => simp [squeeze, join, List.intercalate]
  | cons c cs ih =>
    rw [List.foldr_cons, squeeze, ih true, ih false]
    generalize cs.foldr pushCell ([], false) = r
    obtain ⟨words, joined⟩ := r
    unfold pushCell
    cases hb : c.isBlank with
    | true => cases words <;> simp
    | false =>
      cases words with
      | nil => cases owed <;> simp [join, List.intercalate]
      | cons w ws =>
        cases joined <;> cases owed <;> simp [join, intercalate_cons]

theorem pushCell_of_blank {c : Cell} (hb : c.isBlank = true) (r : List Text × Bool) :
    pushCell c r = (r.1, false) := by
  obtain ⟨words, joined⟩ := r
  unfold pushCell
  exact if_pos hb

theorem pushCell_of_not_blank {c : Cell} (hb : c.isBlank = false) (r : List Text × Bool) :
    (pushCell c r).2 = true := by
  obtain ⟨words, joined⟩ := r
  unfold pushCell
  simp only [hb, Bool.false_eq_true, if_false]
  cases words <;> cases joined <;> rfl

theorem foldr_dropWhile_blank (cs : List Cell) :
    ((cs.dropWhile Cell.isBlank).foldr pushCell ([], false)).1 = (cs.foldr pushCell ([], false)).1 ∧
      (((cs.dropWhile Cell.isBlank).foldr pushCell ([], false)).2 = true ∨
        ((cs.dropWhile Cell.isBlank).foldr pushCell ([], false)).1 = []) := by
  induction cs with
  | nil => exact ⟨rfl, .inr rfl⟩
  | cons c cs ih =>
    cases hb : c.isBlank with
    | true =>
      rw [List.dropWhile_cons_of_pos hb, List.foldr_cons, pushCell_of_blank hb]
      exact ih
    | false =>
      rw [List.dropWhile_cons_of_neg (by simp [hb])]
      exact ⟨rfl, .inl (pushCell_of_not_blank hb _)⟩

theorem collapse_eq (t : Text) : collapse t = squeeze false ((cells t).dropWhile Cell.isBlank) := by
  obtain ⟨hwords, hjoined⟩ := foldr_dropWhile_blank (cells t)
  rw [squeeze_eq, hwords, if_neg, List.nil_append]
  · rfl
  · rintro ⟨hne, hflag⟩
    rw [← hwords] at hne
    rcases hjoined with h | h
    · simp [h] at hflag
    · exact hne h

@[simp] theorem collapse_nil : collapse [] = [] := by
  rw [collapse_eq, cells]
  rfl

/-- Whether a space is owed behind the characters. -/
def owedAfter (owed : Bool) (cs : List Cell) : Bool := (cs.getLast?.map Cell.isBlank).getD owed

theorem squeeze_append (owed : Bool) (cs ds : List Cell) :
    squeeze owed (cs ++ ds) = squeeze owed cs ++ squeeze (owedAfter owed cs) ds := by
  induction cs generalizing owed with
  | nil => rfl
  | cons c cs ih =>
    have hlast (o : Bool) : owedAfter owed (c :: cs) = owedAfter c.isBlank cs := by
      rw [owedAfter, owedAfter, List.getLast?_cons]
      cases cs.getLast? <;> rfl
    rw [List.cons_append, squeeze, squeeze, hlast false, ih, ih]
    cases hb : c.isBlank <;> simp

theorem squeeze_of_blank {cs : List Cell} (h : ∀ c ∈ cs, c.isBlank = true) (owed : Bool) :
    squeeze owed cs = [] := by
  induction cs generalizing owed with
  | nil => rfl
  | cons c cs ih =>
    rw [squeeze, if_pos (h c (by simp))]
    exact ih (fun d hd => h d (by simp [hd])) true

theorem bytes_of_mem_cells {t : Text} {c : Cell} (hc : c ∈ cells t) {b : UInt8} (hb : b ∈ c.bytes)
    (hlow : isHigh b = false) : c = ⟨Char.ofNat b.toNat, [b]⟩ := by
  fun_induction cells t with
  | case1 => simp at hc
  | case2 a rest first ih =>
    rcases List.mem_cons.1 hc with rfl | hc
    · cases ha : isHigh a with
      | false =>
        have hf : first = (Char.ofNat a.toNat, 1) := firstChar_of_not_high ha rest
        simp only [hf, Nat.sub_self, List.take_zero, List.mem_singleton] at hb ⊢
        rw [hb]
      | true =>
        -- the bytes taken along with the first one all lie outside ASCII
        have hle : first.2 ≤ (rest.takeWhile isHigh).length + 1 := by
          have := firstChar_le_length a (rest.takeWhile isHigh)
          rwa [firstChar_takeWhile] at this
        have htake : rest.take (first.2 - 1) <+: rest.takeWhile isHigh :=
          List.prefix_of_prefix_length_le (List.take_prefix _ _) (List.takeWhile_prefix _)
            (by rw [List.length_take]; omega)
        rcases List.mem_cons.1 hb with rfl | hb
        · simp [ha] at hlow
        · have := List.all_eq_true.1 List.all_takeWhile b (htake.subset hb)
          simp [this] at hlow
    · exact ih hc

theorem bytes_ne_nil {t : Text} {c : Cell} (hc : c ∈ cells t) : c.bytes ≠ [] := by
  fun_induction cells t with
  | case1 => simp at hc
  | case2 a rest first ih =>
    rcases List.mem_cons.1 hc with rfl | hc
    · simp
    · exact ih hc

theorem isBlank_of_isBlankByte : ∀ b, Lexeme.isBlankByte b = true →
    isHigh b = false ∧ isBlank (Char.ofNat b.toNat) = true :=
  forall_byte (by decide +kernel)

theorem not_isBlankByte_of_mem {t : Text} {c : Cell} (hc : c ∈ cells t) (hn : c.isBlank = false)
    {b : UInt8} (hb : b ∈ c.bytes) : Lexeme.isBlankByte b = false := by
  cases hbb : Lexeme.isBlankByte b with
  | false => rfl
  | true =>
    obtain ⟨hlow, hblank⟩ := isBlank_of_isBlankByte b hbb
    rw [bytes_of_mem_cells hc hb hlow] at hn
    simp [Cell.isBlank, hblank] at hn

/-- The bytes of a collapsed text: single spaces and bytes of other characters. -/
theorem eq_space_of_mem_squeeze {t : Text} {cs : List Cell} (hcs : cs ⊆ cells t) {owed : Bool}
    {b : UInt8} (hb : b ∈ squeeze owed cs) (hblank : Lexeme.isBlankByte b = true) : b = ' ' := by
  induction cs generalizing owed with
  | nil => simp [squeeze] at hb
  | cons c cs ih =>
    have hsub : cs ⊆ cells t := List.Subset.trans (List.subset_cons_self c cs) hcs
    rw [squeeze] at hb
    split at hb
    · exact ih hsub hb
    · rename_i hn
      simp only [List.append_assoc, List.mem_append] at hb
      rcases hb with hb | hb | hb
      · split at hb
        · exact List.mem_singleton.1 hb
        · simp at hb
      · have := not_isBlankByte_of_mem (hcs (by simp)) (by simpa using hn) hb
        simp [this] at hblank
      · exact ih hsub hb

theorem getLast?_squeeze {t : Text} {cs : List Cell} (hcs : cs ⊆ cells t) {owed : Bool} {b : UInt8}
    (hb : b ∈ (squeeze owed cs).getLast?) : Lexeme.isBlankByte b = false := by
  induction cs generalizing owed with
  | nil => simp [squeeze] at hb
  | cons c cs ih =>
    have hsub : cs ⊆ cells t := List.Subset.trans (List.subset_cons_self c cs) hcs
    rw [squeeze] at hb
    split at hb
    · exact ih hsub hb
    · rename_i hn
      have hc : c ∈ cells t := hcs (by simp)
      rw [List.getLast?_append] at hb
      cases hl : (squeeze false cs).getLast? with
      | some d =>
        rw [hl, Option.some_or] at hb
        exact ih hsub (hl.trans hb)
      | none =>
        obtain ⟨d, hd⟩ := Option.isSome_iff_exists.1 (List.getLast?_isSome.2 (bytes_ne_nil hc))
        rw [hl, Option.none_or, List.getLast?_append, hd, Option.some_or] at hb
        obtain rfl := Option.some.inj hb
        exact not_isBlankByte_of_mem hc (by simpa using hn) (List.mem_of_getLast? hd)

theorem newline_not_mem_collapse (t : Text) : newline ∉ collapse t := by
  intro h
  rw [collapse_eq] at h
  exact absurd (eq_space_of_mem_squeeze (List.dropWhile_subset _) h (by decide)) (by decide)

theorem newline_not_mem_of_folded {u : Text} (h : collapse u = u) : newline ∉ u := by
  rw [← h]
  exact newline_not_mem_collapse u

theorem head?_collapse (t : Text) : ∀ b ∈ (collapse t).head?, Lexeme.isBlankByte b = false := by
  intro b hb
  rw [collapse_eq] at hb
  have hsub : (cells t).dropWhile Cell.isBlank ⊆ cells t := List.dropWhile_subset _
  have hfirst := List.head?_dropWhile_not Cell.isBlank (cells t)
  cases hcs : (cells t).dropWhile Cell.isBlank with
  | nil => simp [hcs, squeeze] at hb
  | cons c cs =>
    have hn : c.isBlank = false := by simpa [hcs] using hfirst
    have hc : c ∈ cells t := hsub (by simp [hcs])
    obtain ⟨d, r, hd⟩ := List.exists_cons_of_ne_nil (bytes_ne_nil hc)
    have : b = d := by simpa [hcs, squeeze, hn, hd] using hb.symm
    exact not_isBlankByte_of_mem hc hn (by rw [this, hd]; simp)

theorem getLast?_collapse (t : Text) :
    ∀ b ∈ (collapse t).getLast?, Lexeme.isBlankByte b = false := by
  intro b hb
  rw [collapse_eq] at hb
  exact getLast?_squeeze (List.dropWhile_subset _) hb

def solid (t : Text) : Text := ofCells ((cells t).filter fun c => !c.isBlank)

theorem solid_sublist (t : Text) : (solid t).Sublist t := by
  have h := (List.filter_sublist (p := fun c => !c.isBlank) (l := cells t)).flatMap Cell.bytes
  rwa [show (cells t).flatMap Cell.bytes = t from ofCells_cells t] at h

theorem count_squeeze {b : UInt8} (hb : b ≠ ' ') (owed : Bool) (cs : List Cell) :
    (squeeze owed cs).count b = (ofCells (cs.filter fun c => !c.isBlank)).count b := by
  have hspace : ∀ o : Bool, (if o then (" " : Text) else []).count b = 0 := by
    intro o
    apply List.count_eq_zero.2
    cases o with
    | false => simp
    | true =>
      show b ∉ [(' ' : UInt8)]
      simpa using hb
  induction cs generalizing owed with
  | nil => rfl
  | cons c cs ih =>
    rw [squeeze, List.filter_cons]
    cases hc : c.isBlank with
    | true => simpa using ih true
    | false => simp [ofCells_cons, hspace, ih false]

theorem count_collapse {b : UInt8} (hb : b ≠ ' ') (t : Text) :
    (collapse t).count b = (solid t).count b := by
  have hdrop (cs : List Cell) : (cs.dropWhile Cell.isBlank).filter (fun c => !c.isBlank) =
      cs.filter fun c => !c.isBlank := by
    induction cs with
    | nil => rfl
    | cons c cs ih => cases hc : c.isBlank <;> simp [hc, ih]
  rw [collapse_eq, count_squeeze hb, hdrop, solid]

theorem length_squeeze_le {t : Text} {cs : List Cell} (hcs : cs ⊆ cells t) (owed : Bool) :
    (squeeze owed cs).length ≤ (ofCells cs).length + owed.toNat := by
  induction cs generalizing owed with
  | nil => simp [squeeze]
  | cons c cs ih =>
    have hsub : cs ⊆ cells t := List.Subset.trans (List.subset_cons_self c cs) hcs
    have hpos := List.length_pos_iff.2 (bytes_ne_nil (hcs (List.mem_cons_self ..)))
    rw [squeeze, ofCells_cons, List.length_append]
    split
    · have := ih hsub true
      simp only [Bool.toNat_true] at this
      omega
    · have := ih hsub false
      have hspace : (if owed then (" " : Text) else []).length = owed.toNat := by cases owed <;> rfl
      simp only [List.length_append, hspace, Bool.toNat_false] at this ⊢
      omega

theorem length_collapse_le (t : Text) : (collapse t).length ≤ t.length := by
  have hsub : (cells t).dropWhile Cell.isBlank ⊆ cells t := List.dropWhile_subset _
  have hle := length_squeeze_le hsub false
  have hdrop : (ofCells ((cells t).dropWhile Cell.isBlank)).length ≤ (ofCells (cells t)).length :=
    ((List.dropWhile_sublist _).flatMap Cell.bytes).length_le
  rw [ofCells_cells] at hdrop
  rw [collapse_eq]
  simp only [Bool.toNat_false] at hle
  omega

theorem dropWhile_of_head? {α : Type} {p : α → Bool} {as : List α}
    (h : ∀ a ∈ as.head?, p a = false) : as.dropWhile p = as := by
  cases as with
  | nil => rfl
  | cons a as => exact List.dropWhile_cons_of_neg (by simp [h a rfl])

theorem collapse_eq_squeeze {t : Text} (h : ∀ c ∈ (cells t).head?, c.isBlank = false) :
    collapse t = squeeze false (cells t) := by
  rw [collapse_eq, dropWhile_of_head? h]

/-- A text that starts and ends with characters that are not blank. -/
structure Firm (t : Text) : Prop where
  ne_nil : t ≠ []
  first : ∀ c ∈ (cells t).head?, c.isBlank = false
  last : ∀ c ∈ (cells t).getLast?, c.isBlank = false

theorem Firm.exists_cells {t : Text} (h : Firm t) :
    ∃ c cs, cells t = c :: cs ∧ c.isBlank = false ∧ c.bytes ≠ [] := by
  cases hcs : cells t with
  | nil =>
    have := ofCells_cells t
    rw [hcs] at this
    exact absurd this.symm h.ne_nil
  | cons c cs =>
    exact ⟨c, cs, rfl, h.first c (by rw [hcs]; rfl), bytes_ne_nil (t := t) (by simp [hcs])⟩

theorem squeeze_of_firm {t : Text} (h : Firm t) (owed : Bool) :
    squeeze owed (cells t) = (if owed then (" " : Text) else []) ++ collapse t := by
  rw [collapse_eq_squeeze h.first]
  obtain ⟨c, cs, hcs, hc, _⟩ := h.exists_cells
  rw [hcs, squeeze, squeeze, hc]
  simp

theorem owedAfter_of_firm {t : Text} (h : Firm t) (owed : Bool) :
    owedAfter owed (cells t) = false := by
  obtain ⟨c, cs, hcs, _⟩ := h.exists_cells
  have hlast := h.last
  rw [hcs, List.getLast?_cons] at hlast
  rw [owedAfter, hcs, List.getLast?_cons]
  exact hlast _ rfl

theorem collapse_of_no_blank {t : Text} (h : ∀ c ∈ cells t, c.isBlank = false) :
    collapse t = t := by
  have hsqueeze (cs : List Cell) (hcs : ∀ c ∈ cs, c.isBlank = false) : squeeze false cs =
      ofCells cs := by
    induction cs with
    | nil => rfl
    | cons c cs ih =>
      rw [squeeze, hcs c (by simp), ofCells_cons, ih fun d hd => hcs d (by simp [hd])]
      simp
  rw [collapse_eq_squeeze fun c hc => h c (List.mem_of_head? hc), hsqueeze _ h, ofCells_cells]

theorem solid_of_no_blank {t : Text} (h : ∀ c ∈ cells t, c.isBlank = false) : solid t = t := by
  have hall : (cells t).filter (fun c => !c.isBlank) = cells t := by
    apply List.filter_eq_self.2
    intro c hc
    simp [h c hc]
  rw [solid, hall, ofCells_cells]

theorem collapse_ne_nil_of_firm {t : Text} (h : Firm t) : collapse t ≠ [] := by
  obtain ⟨c, cs, hcs, hc, hbytes⟩ := h.exists_cells
  rw [collapse_eq_squeeze h.first, hcs, squeeze, hc]
  simp [hbytes]

/-- Folding takes nothing off the end of a text that ends with a byte which is not blank. -/
theorem eq_collapse_of_prefix {t z : Text} {q : UInt8} (hq : isHigh q = false)
    (hblank : isBlank (Char.ofNat q.toNat) = false) (hlast : t.getLast? = some q)
    (h : t = collapse t ++ z) : collapse t = t := by
  have hspace : q ≠ ' ' := by
    rintro rfl
    exact absurd hblank (by decide)
  -- the byte occurs equally often before and after folding, so none is left for the remainder
  have hcount : (collapse t).count q = t.count q := by
    have hkeep (cs : List Cell) (hcs : cs ⊆ cells t) :
        (ofCells (cs.filter fun c => !c.isBlank)).count q = (ofCells cs).count q := by
      induction cs with
      | nil => rfl
      | cons c cs ih =>
        have ih := ih (List.Subset.trans (List.subset_cons_self c cs) hcs)
        rw [List.filter_cons, ofCells_cons, List.count_append, ← ih]
        cases hc : c.isBlank with
        | false => simp [ofCells_cons]
        | true =>
          have : q ∉ c.bytes := by
            intro hm
            rw [bytes_of_mem_cells (hcs (by simp)) hm hq] at hc
            simp [Cell.isBlank, hblank] at hc
          simp [List.count_eq_zero.2 this]
    rw [count_collapse hspace, solid, hkeep _ (List.Subset.refl _), ofCells_cells]
  have hz : q ∉ z := by
    have := congrArg (List.count q) h
    rw [List.count_append, hcount] at this
    exact List.count_eq_zero.1 (by omega)
  cases hl : z.getLast? with
  | none =>
    rw [List.getLast?_eq_none_iff.1 hl, List.append_nil] at h
    exact h.symm
  | some b =>
    rw [h, List.getLast?_append, hl, Option.some_or] at hlast
    obtain rfl := Option.some.inj hlast
    exact absurd (List.mem_of_getLast? hl) hz

end Text
end HeaderBridge
