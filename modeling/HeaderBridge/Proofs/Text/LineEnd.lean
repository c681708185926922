import HeaderBridge.Proofs.Text.Collapse
import HeaderBridge.Source.Mask

namespace HeaderBridge
namespace Text

/-- The text with a carriage return before each newline. -/
def crlf (t : Text) : Text :=
  t.flatMap fun b => if b == newline then [('\r' : UInt8), newline] else [b]

@[simp] theorem crlf_nil : crlf [] = [] := rfl

theorem crlf_cons_newline (t : Text) : crlf (newline :: t) = ('\r' : UInt8) :: newline :: crlf t :=
  rfl

theorem crlf_cons {b : UInt8} (hb : b ≠ newline) (t : Text) : crlf (b :: t) = b :: crlf t := by
  have hne : (b == newline) = false := beq_eq_false_iff_ne.2 hb
  rw [crlf, List.flatMap_cons, hne]
  rfl

@[simp] theorem crlf_append (x y : Text) : crlf (x ++ y) = crlf x ++ crlf y := List.flatMap_append

theorem crlf_of_not_mem {t : Text} (h : newline ∉ t) : crlf t = t := by
  induction t with
  | nil => rfl
  | cons b t ih =>
    rw [List.mem_cons, not_or] at h
    rw [crlf_cons (Ne.symm h.1), ih h.2]

theorem mem_of_mem_crlf {b : UInt8} {t : Text} (h : b ∈ crlf t) : b ∈ t ∨ b = '\r' := by
  obtain ⟨a, ha, hb⟩ := List.mem_flatMap.1 h
  split at hb
  · rename_i hnewline
    rw [beq_iff_eq.1 hnewline] at ha
    rcases List.mem_cons.1 hb with rfl | hb
    · exact .inr rfl
    · rw [List.mem_singleton.1 hb]
      exact .inl ha
  · rw [List.mem_singleton.1 hb]
    exact .inl ha

theorem count_crlf (t : Text) : (crlf t).count newline = t.count newline := by
  induction t with
  | nil => rfl
  | cons b t ih =>
    by_cases hb : b = newline
    · rw [hb, crlf_cons_newline, List.count_cons_of_ne (by decide), List.count_cons_self,
        List.count_cons_self, ih]
    · rw [crlf_cons hb, List.count_cons_of_ne hb, List.count_cons_of_ne hb, ih]

theorem mem_crlf {t : Text} : newline ∈ crlf t ↔ newline ∈ t := by
  rw [← List.count_pos_iff, ← List.count_pos_iff, count_crlf]

theorem squeeze_pair {c d : Cell} (hc : c.isBlank = true) (hd : d.isBlank = true) (owed : Bool)
    (cs ds : List Cell) : squeeze owed (cs ++ c :: d :: ds) = squeeze owed (cs ++ d :: ds) := by
  rw [squeeze_append, squeeze_append, squeeze, if_pos hc, squeeze, if_pos hd, squeeze, if_pos hd]

/-- The second text is the first one with a blank put in before each newline. -/
inductive Widened : Text → Text → Prop
  | nil : Widened [] []
  | byte {b : UInt8} {x y : Text} (hb : b ≠ newline) (h : Widened x y) : Widened (b :: x) (b :: y)
  | line {c : UInt8} {x y : Text} (hc : Lexeme.isBlankByte c = true) (h : Widened x y) :
    Widened (newline :: x) (c :: newline :: y)

theorem widened_crlf (t : Text) : Widened t (crlf t) := by
  induction t with
  | nil => exact .nil
  | cons b t ih =>
    by_cases hb : b = newline
    · rw [hb, crlf_cons_newline]
      exact .line (by decide) ih
    · rw [crlf_cons hb]
      exact .byte hb ih

namespace Widened

variable {x y z w : Text}

theorem of_not_mem {t : Text} (h : newline ∉ t) : Widened t t := by
  have := widened_crlf t
  rwa [crlf_of_not_mem h] at this

theorem append (h : Widened x y) (h' : Widened z w) : Widened (x ++ z) (y ++ w) := by
  induction h with
  | nil => exact h'
  | byte hb _ ih => exact .byte hb ih
  | line hc _ ih => exact .line hc ih

theorem length (h : Widened x y) : y.length = x.length + x.count newline := by
  induction h with
  | nil => rfl
  | byte hb _ ih =>
    rw [List.length_cons, List.length_cons, List.count_cons_of_ne hb, ih]
    omega
  | line _ _ ih =>
    rw [List.length_cons, List.length_cons, List.length_cons, List.count_cons_self, ih]
    omega

theorem map_blankByte (h : Widened x y) : Widened (x.map blankByte) (y.map blankByte) := by
  induction h with
  | nil => exact .nil
  | @byte b x y hb _ ih =>
    have hblank : blankByte b ≠ newline := by
      rw [blankByte, if_neg (by simpa using hb)]
      decide
    exact .byte hblank ih
  | @line c x y hc _ ih =>
    refine .line ?_ ih
    unfold blankByte
    split
    · exact hc
    · decide

theorem exists_cut (h : Widened (x ++ z) y) :
    ∃ x' z', y = x' ++ z' ∧ Widened x x' ∧ Widened z z' := by
  induction x generalizing y with
  | nil => exact ⟨[], y, rfl, .nil, h⟩
  | cons b x ih =>
    cases h with
    | byte hb h =>
      obtain ⟨x', z', rfl, hx, hz⟩ := ih h
      exact ⟨b :: x', z', rfl, .byte hb hx, hz⟩
    | line hc h =>
      obtain ⟨x', z', rfl, hx, hz⟩ := ih h
      exact ⟨_ :: newline :: x', z', rfl, .line hc hx, hz⟩

theorem slice (h : Widened x y) {first last : Nat} (hle : first ≤ last) (hlast : last ≤ x.length) :
    Widened (Text.slice x first last)
      (Text.slice y (first + (x.take first).count newline)
        (last + (x.take last).count newline)) := by
  have hmid : x.take last = x.take first ++ Text.slice x first last := by
    rw [Text.slice, ← List.take_add, Nat.add_sub_cancel' hle]
  have hfirst : (x.take first).length = first := List.length_take_of_le (Nat.le_trans hle hlast)
  have hlength : (x.take last).length = last := List.length_take_of_le hlast
  rw [← List.take_append_drop last x, hmid, List.append_assoc] at h
  obtain ⟨a, rest, rfl, ha, hrest⟩ := h.exists_cut
  obtain ⟨m, z, rfl, hm, -⟩ := hrest.exists_cut
  have hstart : first + (x.take first).count newline = a.length := by rw [ha.length, hfirst]
  have hstop : last + (x.take last).count newline = a.length + m.length := by
    rw [← List.length_append, (ha.append hm).length, ← hmid, hlength]
  have hslice : Text.slice (a ++ (m ++ z)) a.length (a.length + m.length) = m := by
    rw [Text.slice, List.drop_left, Nat.add_sub_cancel_left, List.take_left]
  rw [hstart, hstop, hslice]
  exact hm

theorem collapse_line (x : Text) {c : UInt8} (hc : Lexeme.isBlankByte c = true) (z : Text) :
    Text.collapse (x ++ c :: newline :: z) = Text.collapse (x ++ newline :: z) := by
  have hcells {b : UInt8} (hb : isHigh b = false) (u : Text) :
      cells (x ++ b :: u) = cells x ++ ⟨Char.ofNat b.toNat, [b]⟩ :: cells u := by
    rw [cells_append_of_ascii (by simpa using hb), cells_ascii hb]
  obtain ⟨hlow, hblank⟩ := isBlank_of_isBlankByte c hc
  obtain ⟨hlow', hblank'⟩ := isBlank_of_isBlankByte newline (by decide)
  have hfirst : Cell.isBlank ⟨Char.ofNat c.toNat, [c]⟩ = true := hblank
  have hsecond : Cell.isBlank ⟨Char.ofNat newline.toNat, [newline]⟩ = true := hblank'
  rw [collapse_eq, collapse_eq, hcells hlow, hcells hlow', cells_ascii hlow', List.dropWhile_append,
    List.dropWhile_append]
  split
  · rw [List.dropWhile_cons_of_pos hfirst]
  · exact squeeze_pair hfirst hsecond false _ _

theorem collapse (h : Widened x y) : Text.collapse y = Text.collapse x := by
  have hbehind (u : Text) : Text.collapse (u ++ y) = Text.collapse (u ++ x) := by
    induction h generalizing u with
    | nil => rfl
    | @byte b x y hb h ih =>
      rw [List.append_cons u b y, List.append_cons u b x, ih]
    | @line c x y hc h ih =>
      rw [collapse_line u hc, List.append_cons u newline y, List.append_cons u newline x, ih]
  exact hbehind []

end Widened

theorem length_crlf (t : Text) : (crlf t).length = t.length + t.count newline :=
  (widened_crlf t).length

end Text
end HeaderBridge
