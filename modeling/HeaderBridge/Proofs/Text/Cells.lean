import HeaderBridge.Text

namespace HeaderBridge

theorem forall_byte {p : UInt8 → Prop} (h : ∀ n : Fin 256, p (UInt8.ofFin n)) (a : UInt8) : p a :=
  h a.toFin

namespace Text

def isHigh (b : UInt8) : Bool := 0x80 ≤ b

theorem isHigh_eq_true {b : UInt8} : isHigh b = true ↔ 0x80 ≤ b.toNat := by
  rw [isHigh, decide_eq_true_iff, UInt8.le_iff_toNat_le]
  rfl

theorem isHigh_eq_false {b : UInt8} : isHigh b = false ↔ b.toNat < 0x80 := by
  rw [← Bool.not_eq_true, isHigh_eq_true, Nat.not_le]

theorem secondMin_high (a : UInt8) : 0x80 ≤ secondMin a := by
  unfold secondMin
  split
  · decide
  · split <;> decide

theorem lt_secondMin_of_not_high {a b : UInt8} (h : isHigh b = false) : b < secondMin a := by
  have := secondMin_high a
  simp only [isHigh, decide_eq_false_iff_not] at h
  grind

theorem not_isContinuation_of_not_high {b : UInt8} (h : isHigh b = false) :
    isContinuation b = false := by
  simp only [isHigh, decide_eq_false_iff_not] at h
  simp [isContinuation, h]

/-- Only the bytes outside ASCII right after `a` take part in its character. -/
theorem firstChar_takeWhile (a : UInt8) (rest : Text) :
    firstChar a (rest.takeWhile isHigh) = firstChar a rest := by
  cases rest with
  | nil => rfl
  | cons b rest =>
    cases hb : isHigh b with
    | false => simp [firstChar, hb, lt_secondMin_of_not_high hb]
    | true =>
      cases rest with
      | nil => simp [firstChar, hb]
      | cons c rest =>
        cases hc : isHigh c with
        | false => simp [firstChar, hb, hc, not_isContinuation_of_not_high hc]
        | true =>
          cases rest with
          | nil => simp [firstChar, hb, hc]
          | cons d rest =>
            cases hd : isHigh d with
            | false => simp [firstChar, hb, hc, hd, not_isContinuation_of_not_high hd]
            | true => simp [firstChar, hb, hc, hd]

theorem firstChar_congr {a : UInt8} {rest rest' : Text}
    (h : rest.takeWhile isHigh = rest'.takeWhile isHigh) :
    firstChar a rest = firstChar a rest' := by
  rw [← firstChar_takeWhile a rest, h, firstChar_takeWhile]

theorem firstChar_of_not_high {a : UInt8} (h : isHigh a = false) (rest : Text) :
    firstChar a rest = (Char.ofNat a.toNat, 1) := by
  have ha : a < 0x80 := by
    simp only [isHigh, decide_eq_false_iff_not] at h
    grind
  simp [firstChar, ha]

theorem firstChar_snd_of_not_high {a : UInt8} (h : isHigh a = false) (rest : Text) :
    (firstChar a rest).2 = 1 := by
  rw [firstChar_of_not_high h]

theorem firstChar_pos (a : UInt8) (rest : Text) : 1 ≤ (firstChar a rest).2 := by
  fun_cases firstChar a rest <;> simp

theorem firstChar_le_length (a : UInt8) (rest : Text) : (firstChar a rest).2 ≤ rest.length + 1 := by
  fun_cases firstChar a rest <;> simp

theorem toNat_char {n : Nat} (h : n < 0xD800 ∨ 0xDFFF < n ∧ n < 0x110000) :
    (Char.ofNat n).toNat = n := by
  have hvalid : n.isValidChar := h
  rw [Char.ofNat, dif_pos hvalid]
  rfl

theorem high_char {n : Nat} (h : 0x80 ≤ n) (hn : n < 0xD800 ∨ 0xDFFF < n ∧ n < 0x110000) :
    0x80 ≤ (Char.ofNat n).toNat := by
  rwa [toNat_char hn]

theorem toNat_secondMin (a : UInt8) : (secondMin a).toNat =
    if a.toNat = 0xE0 then 0xA0 else if a.toNat = 0xF0 then 0x90 else 0x80 := by
  simp only [secondMin, ← UInt8.toNat_inj, apply_ite UInt8.toNat]
  rfl

theorem toNat_secondMax (a : UInt8) : (secondMax a).toNat =
    if a.toNat = 0xED then 0x9F else if a.toNat = 0xF4 then 0x8F else 0xBF := by
  simp only [secondMax, ← UInt8.toNat_inj, apply_ite UInt8.toNat]
  rfl

theorem second_bounds {a b : UInt8}
    (h : ¬ (decide (b < secondMin a) || decide (secondMax a < b)) = true) :
    0x80 ≤ b.toNat ∧ b.toNat ≤ 0xBF ∧ (a.toNat = 0xE0 → 0xA0 ≤ b.toNat) ∧
      (a.toNat = 0xED → b.toNat ≤ 0x9F) ∧
      (a.toNat = 0xF0 → 0x90 ≤ b.toNat) ∧ (a.toNat = 0xF4 → b.toNat ≤ 0x8F) := by
  have hmin := toNat_secondMin a
  have hmax := toNat_secondMax a
  simp only [Bool.or_eq_true, decide_eq_true_eq, not_or, UInt8.lt_iff_toNat_lt] at h
  grind

theorem first_bounds {a : UInt8} (h : ¬ (decide (a < 0xC2) || decide (0xF4 < a)) = true) :
    0xC2 ≤ a.toNat ∧ a.toNat ≤ 0xF4 := by
  simpa [UInt8.lt_iff_toNat_lt] using h

theorem tail_bounds {b : UInt8} (h : ¬ (!isContinuation b) = true) :
    0x80 ≤ b.toNat ∧ b.toNat ≤ 0xBF := by
  simpa [isContinuation, UInt8.le_iff_toNat_le] using h

theorem high_firstChar {a : UInt8} (h : isHigh a = true) (rest : Text) :
    0x80 ≤ (firstChar a rest).1.toNat := by
  have hreplacement : 0x80 ≤ replacement.toNat := by decide
  have ha : ¬ a < 0x80 := by
    simp only [isHigh, decide_eq_true_eq] at h
    grind
  fun_cases firstChar a rest
  case case5 _ hfirst b _ hsecond hsize =>
    have := first_bounds hfirst
    have := second_bounds hsecond
    rw [UInt8.lt_iff_toNat_lt] at hsize
    change a.toNat < 224 at hsize
    apply high_char <;> simp only [payload] <;> omega
  case case8 _ hfirst b hsecond hsize c _ hc hsize' =>
    have := first_bounds hfirst
    have := second_bounds hsecond
    have := tail_bounds hc
    rw [UInt8.lt_iff_toNat_lt] at hsize hsize'
    change ¬ a.toNat < 224 at hsize
    change a.toNat < 240 at hsize'
    apply high_char <;> simp only [payload] <;> omega
  case case11 _ hfirst b hsecond hsize c hc hsize' d _ hd =>
    have := first_bounds hfirst
    have := second_bounds hsecond
    have := tail_bounds hc
    have := tail_bounds hd
    rw [UInt8.lt_iff_toNat_lt] at hsize'
    change ¬ a.toNat < 240 at hsize'
    apply high_char <;> simp only [payload] <;> omega
  case case1 => exact absurd ‹a < 0x80› ha
  all_goals exact hreplacement
theorem firstChar_append {a : UInt8} {x y : Text} (h : (firstChar a (x ++ y)).2 ≤ x.length + 1) :
    firstChar a (x ++ y) = firstChar a x := by
  match x with
  | [] =>
    rw [List.nil_append] at h ⊢
    revert h
    fun_cases firstChar a y <;> simp [firstChar] <;> grind
  | [b] =>
    revert h
    cases y with
    | nil => simp [firstChar]
    | cons d y => simp [firstChar]; grind
  | [b, c] =>
    revert h
    cases y with
    | nil => simp [firstChar]
    | cons d y => simp [firstChar]; grind
  | b :: c :: d :: x => simp [firstChar]

/-- A run of bytes that all satisfy `p` ends at a seam where the next byte does not. -/
theorem takeWhile_append_of_stop {p : UInt8 → Bool} {x y : Text} (h : ∀ b ∈ y.head?, p b = false) :
    (x ++ y).takeWhile p = x.takeWhile p := by
  have hy : y.takeWhile p = [] := by
    cases y with
    | nil => rfl
    | cons b y => simp [h b rfl]
  rw [List.takeWhile_append, hy, List.append_nil]
  split
  · rename_i hx
    exact ((List.takeWhile_prefix p).eq_of_length hx).symm
  · rfl

theorem cells_cons (a : UInt8) (rest : Text) :
    cells (a :: rest) =
      ⟨(firstChar a rest).1, a :: rest.take ((firstChar a rest).2 - 1)⟩ ::
        cells (rest.drop ((firstChar a rest).2 - 1)) := by
  rw [cells]

theorem ofCells_cons (c : Cell) (cs : List Cell) : ofCells (c :: cs) = c.bytes ++ ofCells cs := rfl

theorem ofCells_cells (t : Text) : ofCells (cells t) = t := by
  fun_induction cells t with
  | case1 => rfl
  | case2 a rest first ih => simp [ofCells_cons, ih]

theorem cells_append_of_ascii {x y : Text} (h : ∀ b ∈ y.head?, isHigh b = false) :
    cells (x ++ y) = cells x ++ cells y := by
  fun_induction cells x with
  | case1 => rfl
  | case2 a rest first ih =>
    have hf : firstChar a (rest ++ y) = first := firstChar_congr (takeWhile_append_of_stop h)
    have hl : first.2 - 1 ≤ rest.length := by
      have : first.2 ≤ rest.length + 1 := firstChar_le_length a rest
      omega
    rw [List.cons_append, cells_cons, hf, List.take_append_of_le_length hl,
      List.drop_append_of_le_length hl, ih, List.cons_append]

theorem cells_ascii {a : UInt8} (h : isHigh a = false) (rest : Text) :
    cells (a :: rest) = ⟨Char.ofNat a.toNat, [a]⟩ :: cells rest := by
  rw [cells_cons, firstChar_of_not_high h]
  rfl

theorem cells_append_of_low {x y : Text} (h : ∀ b ∈ x.getLast?, isHigh b = false) :
    cells (x ++ y) = cells x ++ cells y := by
  rcases List.eq_nil_or_concat x with rfl | ⟨init, a, rfl⟩
  · simp [cells]
  · have ha : isHigh a = false := h a (by simp)
    have hhead (r : Text) : ∀ b ∈ (a :: r).head?, isHigh b = false := by
      intro b hb
      obtain rfl := Option.some.inj hb
      exact ha
    rw [List.concat_eq_append, List.append_assoc, List.singleton_append,
      cells_append_of_ascii (hhead y), cells_append_of_ascii (hhead []), cells_ascii ha,
      cells_ascii ha]
    simp [cells]

end Text
end HeaderBridge
