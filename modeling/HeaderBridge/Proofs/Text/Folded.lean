import HeaderBridge.Proofs.Text.Collapse
import Mathlib.Data.List.Chain

namespace HeaderBridge

def Text.Cell.space : Text.Cell := ⟨' ', [(' ' : UInt8)]⟩

namespace Text

def foldCells : Bool → List Cell → List Cell
  | _, [] => []
  | owed, c :: cs =>
    if c.isBlank then foldCells true cs
    else (if owed then [Cell.space] else []) ++ c :: foldCells false cs

theorem ofCells_foldCells (owed : Bool) (cs : List Cell) :
    ofCells (foldCells owed cs) = squeeze owed cs := by
  induction cs generalizing owed with
  | nil => rfl
  | cons c cs ih =>
    rw [foldCells, squeeze]
    split
    · exact ih true
    · have hspace : ofCells (if owed then [Cell.space] else []) =
          if owed then (" " : Text) else [] := by
        cases owed <;> rfl
      rw [← ih false, ← hspace, List.append_assoc]
      exact List.flatMap_append

theorem takeWhile_append_prefix {p : UInt8 → Bool} (w : Text) {x y : Text}
    (h : x.takeWhile p <+: y.takeWhile p) : (w ++ x).takeWhile p <+: (w ++ y).takeWhile p := by
  rw [List.takeWhile_append, List.takeWhile_append]
  split
  · exact (List.prefix_append_right_inj w).2 h
  · exact List.prefix_rfl

/-- The bytes from outside ASCII in front of a folded text also stand in front of the text. -/
theorem takeWhile_squeeze (cs : List Cell) :
    (squeeze false cs).takeWhile isHigh <+: (ofCells cs).takeWhile isHigh := by
  have howed : ∀ cs : List Cell, (squeeze true cs).takeWhile isHigh = [] := by
    intro cs
    induction cs with
    | nil => rfl
    | cons c cs ih =>
      rw [squeeze]
      split
      · exact ih
      · rfl
  induction cs with
  | nil => exact List.prefix_rfl
  | cons c cs ih =>
    rw [squeeze, ofCells_cons]
    split
    · rw [howed]
      exact List.nil_prefix
    · exact takeWhile_append_prefix c.bytes ih

theorem exists_of_cells {c : Cell} {y : Text} {ds : List Cell}
    (h : cells (c.bytes ++ y) = c :: ds) :
    ∃ a tail, c = ⟨(firstChar a (tail ++ y)).1, a :: tail⟩ ∧
      (firstChar a (tail ++ y)).2 = tail.length + 1 ∧
      cells y = ds := by
  cases hbytes : c.bytes with
  | nil =>
    rw [hbytes, List.nil_append] at h
    exact absurd hbytes (bytes_ne_nil (h ▸ List.mem_cons_self))
  | cons a tail =>
    rw [hbytes, List.cons_append, cells_cons] at h
    obtain ⟨rfl, hds⟩ := List.cons.inj h
    have htake : (tail ++ y).take ((firstChar a (tail ++ y)).2 - 1) = tail :=
      (List.cons.inj hbytes).2
    have hlength : (firstChar a (tail ++ y)).2 = tail.length + 1 := by
      have hle := firstChar_le_length a (tail ++ y)
      have hpos := firstChar_pos a (tail ++ y)
      have hlen := congrArg List.length htake
      rw [List.length_take] at hlen
      omega
    refine ⟨a, tail, by rw [htake], hlength, ?_⟩
    rwa [hlength, Nat.add_sub_cancel, List.drop_left] at hds

/-- A character stays the same in front of a text that goes on like the old one for as long as its
bytes may count. -/
theorem cells_append_of_prefix {c : Cell} {x y : Text} (h : cells (c.bytes ++ y) = c :: cells y)
    (hx : x.takeWhile isHigh <+: y.takeWhile isHigh) : cells (c.bytes ++ x) = c :: cells x := by
  obtain ⟨a, tail, hc, hlength, -⟩ := exists_of_cells h
  -- the bytes of the character behind the first one lie outside ASCII
  have hhigh : tail.takeWhile isHigh = tail := by
    have hle := firstChar_le_length a ((tail ++ y).takeWhile isHigh)
    rw [firstChar_takeWhile, hlength, List.takeWhile_append] at hle
    split at hle
    · rename_i hall
      exact (List.takeWhile_prefix isHigh).eq_of_length hall
    · exact (List.takeWhile_prefix isHigh).eq_of_length_le (by omega)
  have hsame : firstChar a (tail ++ x) = firstChar a (tail ++ y) := by
    obtain ⟨z, hz⟩ := takeWhile_append_prefix tail hx
    have hall : tail.length ≤ ((tail ++ x).takeWhile isHigh).length := by
      rw [List.takeWhile_append, hhigh, if_pos rfl, List.length_append]
      omega
    rw [← firstChar_takeWhile a (tail ++ x), ← firstChar_takeWhile a (tail ++ y), ← hz]
    apply (firstChar_append _).symm
    rw [hz, firstChar_takeWhile, hlength]
    omega
  rw [hc, List.cons_append, cells_cons, hsame, hlength, Nat.add_sub_cancel, List.take_left,
    List.drop_left]

theorem cells_ofCells_tail {c : Cell} {cs : List Cell} (h : cells (ofCells (c :: cs)) = c :: cs) :
    cells (ofCells cs) = cs := by
  rw [ofCells_cons] at h
  obtain ⟨-, -, -, -, htail⟩ := exists_of_cells h
  exact htail

theorem cells_squeeze {cs : List Cell} (h : cells (ofCells cs) = cs) (owed : Bool) :
    cells (squeeze owed cs) = foldCells owed cs := by
  induction cs generalizing owed with
  | nil => rw [squeeze, foldCells, cells]
  | cons c cs ih =>
    have htail := cells_ofCells_tail h
    rw [squeeze, foldCells]
    split
    · exact ih htail true
    · have hc : cells (c.bytes ++ squeeze false cs) = c :: cells (squeeze false cs) := by
        apply cells_append_of_prefix (y := ofCells cs)
        · rw [htail]
          exact h
        · exact takeWhile_squeeze cs
      rw [ih htail false] at hc
      cases owed with
      | false => exact hc
      | true =>
        have hspace := cells_ascii (a := (' ' : UInt8)) (by decide) (c.bytes ++ squeeze false cs)
        rw [hc] at hspace
        exact hspace

theorem cells_collapse (t : Text) :
    cells (collapse t) = foldCells false ((cells t).dropWhile Cell.isBlank) := by
  have hsuffix : ∀ xs ys : List Cell, cells (ofCells (xs ++ ys)) = xs ++ ys →
      cells (ofCells ys) = ys := by
    intro xs ys h
    induction xs with
    | nil => exact h
    | cons c xs ih => exact ih (cells_ofCells_tail h)
  rw [collapse_eq]
  apply cells_squeeze
  apply hsuffix ((cells t).takeWhile Cell.isBlank)
  rw [List.takeWhile_append_dropWhile, ofCells_cells]

/-- The only blanks are single spaces between other characters. -/
structure IsFolded (cs : List Cell) : Prop where
  space : ∀ c ∈ cs, c.isBlank = true → c = Cell.space
  apart : cs.IsChain fun c d => c.isBlank = false ∨ d.isBlank = false
  first : ∀ c ∈ cs.head?, c.isBlank = false
  last : ∀ c ∈ cs.getLast?, c.isBlank = false

theorem space_foldCells {cs : List Cell} {owed : Bool} {d : Cell} (hd : d ∈ foldCells owed cs)
    (hblank : d.isBlank = true) : d = Cell.space := by
  induction cs generalizing owed with
  | nil => simp [foldCells] at hd
  | cons c cs ih =>
    rw [foldCells] at hd
    split at hd
    · exact ih hd
    · rename_i hc
      rcases List.mem_append.1 hd with hd | hd
      · cases owed with
        | false => cases hd
        | true => exact List.mem_singleton.1 hd
      · rcases List.mem_cons.1 hd with rfl | hd
        · exact absurd hblank hc
        · exact ih hd

theorem isChain_foldCells (owed : Bool) (cs : List Cell) :
    (foldCells owed cs).IsChain fun c d => c.isBlank = false ∨ d.isBlank = false := by
  induction cs generalizing owed with
  | nil => simp [foldCells]
  | cons c cs ih =>
    rw [foldCells]
    split
    · exact ih true
    · rename_i hc
      have hchain : (c :: foldCells false cs).IsChain fun c d => c.isBlank = false ∨
          d.isBlank = false :=
        List.isChain_cons.2 ⟨fun d _ => .inl (by simpa using hc), ih false⟩
      cases owed with
      | false => exact hchain
      | true =>
        apply List.isChain_cons.2
        refine ⟨fun d hd => ?_, hchain⟩
        obtain rfl := Option.some.inj hd
        exact .inr (by simpa using hc)

theorem getLast?_foldCells {cs : List Cell} {owed : Bool} {d : Cell}
    (hd : d ∈ (foldCells owed cs).getLast?) : d.isBlank = false := by
  induction cs generalizing owed with
  | nil => simp [foldCells] at hd
  | cons c cs ih =>
    rw [foldCells] at hd
    split at hd
    · exact ih hd
    · rename_i hc
      rw [List.getLast?_append, List.getLast?_cons, Option.some_or] at hd
      cases hrest : (foldCells false cs).getLast? with
      | none =>
        rw [hrest] at hd
        obtain rfl := Option.some.inj hd
        simpa using hc
      | some e =>
        rw [hrest] at hd
        obtain rfl := Option.some.inj hd
        exact ih hrest

theorem isFolded_cells_collapse (t : Text) : IsFolded (cells (collapse t)) := by
  rw [cells_collapse]
  refine ⟨fun _ => space_foldCells, isChain_foldCells _ _, ?_, fun _ => getLast?_foldCells⟩
  have hfirst := List.head?_dropWhile_not Cell.isBlank (cells t)
  cases hcells : (cells t).dropWhile Cell.isBlank with
  | nil => simp [foldCells]
  | cons c cs =>
    have hc : c.isBlank = false := by simpa [hcells] using hfirst
    rw [foldCells, if_neg (by simp [hc])]
    intro d hd
    obtain rfl := Option.some.inj hd
    exact hc

/-- Where the blanks are single spaces, folding puts a space only where one is owed from before. -/
theorem foldCells_of_spaces {cs : List Cell} {owed : Bool}
    (hspace : ∀ c ∈ cs, c.isBlank = true → c = Cell.space)
    (hapart : cs.IsChain fun c d => c.isBlank = false ∨ d.isBlank = false)
    (hlast : ∀ c ∈ cs.getLast?, c.isBlank = false)
    (howed : owed = true → ∃ c ∈ cs.head?, c.isBlank = false) :
    foldCells owed cs = (if owed then [Cell.space] else []) ++ cs := by
  induction cs generalizing owed with
  | nil =>
    cases owed with
    | false => rfl
    | true =>
      obtain ⟨c, hc, -⟩ := howed rfl
      cases hc
  | cons c cs ih =>
    obtain ⟨hnext, hchain⟩ := List.isChain_cons.1 hapart
    have hlasts : ∀ d ∈ cs.getLast?, d.isBlank = false := by
      intro d hd
      apply hlast
      rw [List.getLast?_cons, Option.mem_def.1 hd]
      rfl
    have ih {owed : Bool} (howed : owed = true → ∃ c ∈ cs.head?, c.isBlank = false) :=
      ih (fun d hd => hspace d (List.mem_cons_of_mem c hd)) hchain hlasts howed
    rw [foldCells]
    split
    · rename_i hc
      have hnone : owed = false := by
        cases owed with
        | false => rfl
        | true =>
          obtain ⟨d, hd, hblank⟩ := howed rfl
          obtain rfl := Option.some.inj hd
          simp [hc] at hblank
      -- a blank is the space owed to the character behind it
      have hbehind : ∃ d ∈ cs.head?, d.isBlank = false := by
        cases cs with
        | nil => exact absurd (hlast c rfl) (by simp [hc])
        | cons d ds => exact ⟨d, rfl, (hnext d rfl).resolve_left (by simp [hc])⟩
      rw [ih fun _ => hbehind, hnone, hspace c List.mem_cons_self hc]
      rfl
    · rw [ih (by simp)]
      rfl

/-- Folding changes nothing exactly where the only blanks are single spaces between other
characters. -/
theorem collapse_eq_self_iff {t : Text} : collapse t = t ↔ IsFolded (cells t) := by
  constructor
  · intro h
    rw [← h]
    exact isFolded_cells_collapse t
  · intro h
    rw [collapse_eq_squeeze h.first, ← ofCells_foldCells,
      foldCells_of_spaces h.space h.apart h.last (by simp)]
    exact ofCells_cells t

theorem collapse_collapse (t : Text) : collapse (collapse t) = collapse t :=
  collapse_eq_self_iff.2 (isFolded_cells_collapse t)

theorem collapse_append {x y : Text} (hx : collapse x = x) (hy : collapse y = y)
    (hlow : ∀ b ∈ y.head?, isHigh b = false) : collapse (x ++ y) = x ++ y := by
  rw [collapse_eq_self_iff] at hx hy ⊢
  rw [cells_append_of_ascii hlow]
  refine ⟨?_, ?_, ?_, ?_⟩
  · intro c hc
    exact (List.mem_append.1 hc).elim (hx.space c) (hy.space c)
  · exact List.isChain_append.2 ⟨hx.apart, hy.apart, fun c hc _ _ => .inl (hx.last c hc)⟩
  · intro c hc
    cases hcells : cells x with
    | nil =>
      rw [hcells] at hc
      exact hy.first c hc
    | cons d ds =>
      rw [hcells] at hc
      exact hx.first c (hcells ▸ hc)
  · intro c hc
    rw [List.getLast?_append, Option.mem_def, Option.or_eq_some_iff] at hc
    exact hc.elim (hy.last c) fun h => hx.last c h.2

/-- A part of a folded text that starts and ends with other characters than blanks is folded. -/
theorem collapse_part {t u : Text} (h : collapse t = t) {before behind : List Cell}
    (hcells : cells t = before ++ cells u ++ behind)
    (hfirst : ∀ c ∈ (cells u).head?, c.isBlank = false)
    (hlast : ∀ c ∈ (cells u).getLast?, c.isBlank = false) : collapse u = u := by
  rw [collapse_eq_self_iff] at h ⊢
  have hpart : cells u <:+: cells t := ⟨before, behind, hcells.symm⟩
  have hapart := List.IsChain.infix h.apart hpart
  exact ⟨fun c hc => h.space c (hpart.subset hc), hapart, hfirst, hlast⟩

end Text
end HeaderBridge
