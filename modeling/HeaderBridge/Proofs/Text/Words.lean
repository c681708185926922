import HeaderBridge.Proofs.Text.Folded

namespace HeaderBridge
namespace Text

theorem foldr_pushCell_append (cs : List Cell) (ws : List Text) :
    (cs.foldr pushCell (ws, false)).1 = (cs.foldr pushCell ([], false)).1 ++ ws ∧
      (cs.foldr pushCell (ws, false)).2 = (cs.foldr pushCell ([], false)).2 ∧
      ((cs.foldr pushCell ([], false)).2 = true → (cs.foldr pushCell ([], false)).1 ≠ []) := by
  induction cs with
  | nil => simp
  | cons c cs ih =>
    rw [List.foldr_cons, List.foldr_cons]
    generalize cs.foldr pushCell ([], false) = r at ih ⊢
    generalize cs.foldr pushCell (ws, false) = r' at ih ⊢
    obtain ⟨words, joined⟩ := r
    obtain ⟨words', joined'⟩ := r'
    obtain ⟨hwords, hjoined, hne⟩ := ih
    dsimp only at hwords hjoined hne
    subst hwords hjoined
    unfold pushCell
    cases hc : c.isBlank with
    | true => simp
    | false =>
      cases words with
      | nil =>
        have hapart : joined' = false := by simpa using hne
        cases ws <;> simp [hapart]
      | cons w words => cases joined' <;> simp

theorem cells_gap (x y : Text) :
    cells (x ++ (' ' : UInt8) :: y) = cells x ++ Cell.space :: cells y := by
  have hhead : ∀ b ∈ ((' ' : UInt8) :: y).head?, isHigh b = false := by
    intro b hb
    obtain rfl := Option.some.inj hb
    decide
  rw [cells_append_of_ascii hhead, cells_ascii (by decide)]
  rfl

theorem words_append (x y : Text) : words (x ++ (' ' : UInt8) :: y) = words x ++ words y := by
  have hspace : pushCell Cell.space ((cells y).foldr pushCell ([], false)) = (words y, false) :=
    pushCell_of_blank (by decide) _
  rw [words, cells_gap, List.foldr_append, List.foldr_cons, hspace, (foldr_pushCell_append _ _).1]
  rfl

theorem collapse_gap {x y : Text}
    (h : collapse (x ++ (' ' : UInt8) :: y) = x ++ (' ' : UInt8) :: y) :
    (collapse x = x ∧ x ≠ []) ∧ collapse y = y ∧ y ≠ [] := by
  have hblank : Cell.space.isBlank = true := by decide
  rw [collapse_eq_self_iff, cells_gap] at h
  rw [collapse_eq_self_iff, collapse_eq_self_iff]
  obtain ⟨hbefore, hbehind, hseam⟩ := List.isChain_append.1 h.apart
  rw [List.isChain_cons] at hbehind
  have hx : cells x ≠ [] := by
    intro hnil
    rw [hnil] at h
    have := h.first Cell.space rfl
    simp [hblank] at this
  have hy : cells y ≠ [] := by
    intro hnil
    rw [hnil] at h
    have := h.last Cell.space (by simp)
    simp [hblank] at this
  refine ⟨⟨⟨fun c hc => h.space c (by simp [hc]), hbefore, fun c hc => ?_, fun c hc => ?_⟩, ?_⟩,
    ⟨fun c hc => h.space c (by simp [hc]), hbehind.2, fun c hc => ?_, fun c hc => ?_⟩, ?_⟩
  · exact h.first c (by rw [List.head?_append, Option.mem_def.1 hc]; rfl)
  · exact (hseam c hc Cell.space rfl).resolve_right (by simp [hblank])
  · rintro rfl
    exact hx (by simp [cells])
  · exact (hbehind.1 c hc).resolve_left (by simp [hblank])
  · exact h.last c (by rw [List.getLast?_append, List.getLast?_cons, Option.mem_def.1 hc]; rfl)
  · rintro rfl
    exact hy (by simp [cells])

theorem collapse_front {x y : Text} (h : collapse (x ++ y) = x ++ y)
    (hy : ∀ b ∈ y.head?, isHigh b = false) (hx : x.getLast? ≠ some (' ' : UInt8)) :
    collapse x = x := by
  have hfolded := collapse_eq_self_iff.1 h
  rw [cells_append_of_ascii hy] at hfolded
  have hsplit : cells (x ++ y) = [] ++ cells x ++ cells y := by
    rw [List.nil_append]
    exact cells_append_of_ascii hy
  refine collapse_part h hsplit (fun c hc => ?_) (fun c hc => ?_)
  · exact hfolded.first c (by rw [List.head?_append, Option.mem_def.1 hc]; rfl)
  · by_contra hblank
    have hspace :=
      hfolded.space c (List.mem_append_left _ (List.mem_of_getLast? hc)) (by simpa using hblank)
    obtain ⟨front, hcells⟩ := List.getLast?_eq_some_iff.1 hc
    apply hx
    rw [← ofCells_cells x, hcells, hspace, ofCells, List.flatMap_append]
    simp [Cell.space]

theorem trimStart_of_head {t : Text} (h : ∀ c ∈ (cells t).head?, c.isBlank = false) :
    trimStart t = t := by
  rw [trimStart, dropWhile_of_head? h, ofCells_cells]

theorem trimEnd_of_last {t : Text} (h : ∀ c ∈ (cells t).getLast?, c.isBlank = false) :
    trimEnd t = t := by
  rw [trimEnd, dropWhile_of_head? (by rwa [List.head?_reverse]), List.reverse_reverse,
    ofCells_cells]

theorem trim_of_folded {t : Text} (h : collapse t = t) : trim t = t := by
  have hfolded := collapse_eq_self_iff.1 h
  rw [trim, trimStart_of_head hfolded.first, trimEnd_of_last hfolded.last]

theorem trim_space {t : Text} (h : collapse t = t) (hne : t ≠ []) :
    trim (t ++ [(' ' : UInt8)]) = t := by
  have hfolded := collapse_eq_self_iff.1 h
  have hcells : cells (t ++ [(' ' : UInt8)]) = cells t ++ [Cell.space] := by
    rw [cells_gap]
    simp [cells]
  have hsome : cells t ≠ [] := by
    intro hnil
    rw [← ofCells_cells t, hnil] at hne
    exact hne rfl
  have hfirst : ∀ c ∈ (cells (t ++ [(' ' : UInt8)])).head?, c.isBlank = false := by
    rw [hcells, List.head?_append_of_ne_nil _ hsome]
    exact hfolded.first
  have hend : trimEnd (t ++ [(' ' : UInt8)]) = trimEnd t := by
    rw [trimEnd, trimEnd, hcells, List.reverse_append, List.reverse_singleton,
      List.singleton_append, List.dropWhile_cons_of_pos (by decide)]
  rw [trim, trimStart_of_head hfirst, hend, trimEnd_of_last hfolded.last]

theorem after?_append (x y : Text) : after? x (x ++ y) = some y := by
  rw [after?, if_pos (List.isPrefixOf_iff_prefix.2 (List.prefix_append x y)), List.drop_left]

theorem before?_eq_some {x y t : Text} : before? y t = some x ↔ t = x ++ y := by
  rw [before?]
  constructor
  · split
    · rename_i hends
      obtain ⟨front, rfl⟩ := List.isSuffixOf_iff_suffix.1 hends
      rw [List.length_append, Nat.add_sub_cancel, List.take_left, Option.some.injEq]
      rintro rfl
      rfl
    · simp
  · rintro rfl
    rw [if_pos (List.isSuffixOf_iff_suffix.2 (List.suffix_append x y)), List.length_append,
      Nat.add_sub_cancel, List.take_left]

theorem before?_append (x y : Text) : before? y (x ++ y) = some x := before?_eq_some.2 rfl

theorem join_append (sep : Text) {xs ys : List Text} (hx : xs ≠ []) (hy : ys ≠ []) :
    join sep (xs ++ ys) = join sep xs ++ sep ++ join sep ys := by
  induction xs with
  | nil => exact absurd rfl hx
  | cons x xs ih =>
    rw [List.cons_append, join, join, intercalate_cons, intercalate_cons, if_neg (by simp [hy])]
    by_cases hxs : xs = []
    · simp [hxs, join]
    · rw [if_neg hxs, ← join, ← join, ih hxs]
      simp only [List.append_assoc]

end Text
end HeaderBridge
