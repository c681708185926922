import HeaderBridge.Path
import HeaderBridge.Proofs.Text.Collapse

namespace HeaderBridge

namespace Text

theorem hasBlock_iff {part t : Text} : hasBlock part t = true ↔ part <:+: t := by
  induction t with
  | nil => simp [hasBlock]
  | cons b t ih =>
    rw [hasBlock, Bool.or_eq_true, List.isPrefixOf_iff_prefix, ih, List.infix_cons_iff]

theorem splitAt_ne_nil (b : UInt8) (t : Text) : splitAt b t ≠ [] := by
  cases t with
  | nil => simp [splitAt]
  | cons a rest =>
    rw [splitAt]
    split
    · simp
    · split <;> simp

theorem splitAt_of_not_mem {b : UInt8} {t : Text} (h : b ∉ t) : splitAt b t = [t] := by
  induction t with
  | nil => rfl
  | cons a rest ih =>
    simp only [List.mem_cons, not_or] at h
    rw [splitAt, if_neg (Ne.symm h.1), ih h.2]

theorem splitAt_append (b : UInt8) (s t : Text) :
    splitAt b (s ++ b :: t) = splitAt b s ++ splitAt b t := by
  induction s with
  | nil => simp [splitAt]
  | cons a s ih =>
    rw [List.cons_append, splitAt, splitAt]
    by_cases ha : a = b
    · rw [if_pos ha, if_pos ha, ih, List.cons_append]
    · rw [if_neg ha, if_neg ha, ih]
      cases hs : splitAt b s with
      | nil => exact absurd hs (splitAt_ne_nil b s)
      | cons part parts => rfl

theorem not_mem_of_mem_splitAt {b : UInt8} {t c : Text} (h : c ∈ splitAt b t) : b ∉ c := by
  induction t generalizing c with
  | nil =>
    rw [splitAt, List.mem_singleton] at h
    simp [h]
  | cons a rest ih =>
    rw [splitAt] at h
    by_cases ha : a = b
    · rw [if_pos ha, List.mem_cons] at h
      rcases h with rfl | h
      · simp
      · exact ih h
    · rw [if_neg ha] at h
      cases hr : splitAt b rest with
      | nil => exact absurd hr (splitAt_ne_nil b rest)
      | cons part parts =>
        rw [hr] at h ih
        rcases List.mem_cons.1 h with rfl | h
        · simp only [List.mem_cons, not_or]
          exact ⟨Ne.symm ha, ih List.mem_cons_self⟩
        · exact ih (List.mem_cons_of_mem part h)

/-- What is joined with a byte that none of the parts has is cut into the parts again. -/
theorem splitAt_join {b : UInt8} {ts : List Text} (hne : ts ≠ []) (h : ∀ t ∈ ts, b ∉ t) :
    splitAt b (join [b] ts) = ts := by
  induction ts with
  | nil => exact absurd rfl hne
  | cons t ts ih =>
    rw [join, intercalate_cons]
    by_cases hts : ts = []
    · rw [if_pos hts, List.append_nil, splitAt_of_not_mem (h t List.mem_cons_self), hts]
    · rw [if_neg hts, List.singleton_append, splitAt_append,
        splitAt_of_not_mem (h t List.mem_cons_self)]
      rw [← join, ih hts fun u hu => h u (List.mem_cons_of_mem t hu)]
      rfl

end Text

namespace Path

/-- A part that means something; it may still be `..`. -/
structure IsPart (c : Text) : Prop where
  ne_nil : c ≠ []
  ne_here : c ≠ here
  not_mem : ('/' : UInt8) ∉ c

/-- A part that names what is in a folder. -/
structure IsName (c : Text) : Prop extends IsPart c where
  ne_up : c ≠ up

theorem slash_eq : (("/" : String) : Text) = [('/' : UInt8)] := by decide

theorem isPart_up : IsPart up := ⟨by decide, by decide, by decide⟩

theorem isPart_of_mem_parts {p c : Text} (h : c ∈ parts p) : IsPart c := by
  obtain ⟨hmem, htest⟩ := List.mem_filter.1 h
  simp only [Bool.and_eq_true, Bool.not_eq_true', List.isEmpty_eq_false_iff, bne_iff_ne] at htest
  exact ⟨htest.1, htest.2, Text.not_mem_of_mem_splitAt hmem⟩

theorem parts_append (p q : Text) : parts (p ++ ('/' : UInt8) :: q) = parts p ++ parts q := by
  rw [parts, Text.splitAt_append, List.filter_append]
  rfl

theorem parts_cons_slash (q : Text) : parts (('/' : UInt8) :: q) = parts q := parts_append [] q

theorem parts_slash (p : Text) : parts (p ++ [('/' : UInt8)]) = parts p := by
  rw [parts_append]
  exact List.append_nil _

theorem isRooted_append {p : Text} (h : p ≠ []) (q : Text) : isRooted (p ++ q) = isRooted p := by
  obtain ⟨b, rest, rfl⟩ := List.exists_cons_of_ne_nil h
  rfl

theorem isRooted_slash (p q : Text) :
    isRooted (p ++ ('/' : UInt8) :: q) = isRooted (p ++ [('/' : UInt8)]) := by
  cases p <;> rfl

theorem parts_of_isPart {c : Text} (h : IsPart c) : parts c = [c] := by
  rw [parts, Text.splitAt_of_not_mem h.not_mem]
  simp [h.ne_nil, h.ne_here]

theorem parts_join {cs : List Text} (h : ∀ c ∈ cs, IsPart c) : parts (Text.join "/" cs) = cs := by
  cases cs with
  | nil => rfl
  | cons c cs =>
    rw [parts, slash_eq, Text.splitAt_join (by simp) fun t ht => (h t ht).not_mem]
    apply List.filter_eq_self.2
    intro t ht
    simp [(h t ht).ne_nil, (h t ht).ne_here]

theorem mem_push {rooted : Bool} {seen : List Text} {part c : Text}
    (h : c ∈ push rooted seen part) : c ∈ seen ∨ c = part := by
  unfold push at h
  grind

theorem isPart_of_mem_cleanParts {p c : Text} (h : c ∈ cleanParts p) : IsPart c := by
  have hseen : ∀ cs seen : List Text, (∀ t ∈ cs, IsPart t) → (∀ t ∈ seen, IsPart t) →
      ∀ t ∈ cs.foldl (push (isRooted p)) seen, IsPart t := by
    intro cs
    induction cs with
    | nil =>
      intro seen _ hseen
      exact hseen
    | cons c cs ih =>
      intro seen hcs hseen
      apply ih _ fun t ht => hcs t (List.mem_cons_of_mem c ht)
      intro t ht
      rcases mem_push ht with ht | rfl
      · exact hseen t ht
      · exact hcs t List.mem_cons_self
  exact hseen _ [] (fun t ht => isPart_of_mem_parts ht) (by simp) c (List.mem_reverse.1 h)

theorem head?_join_parts {cs : List Text} (h : ∀ c ∈ cs, IsPart c) :
    (Text.join "/" cs).head? ≠ some ('/' : UInt8) := by
  cases cs with
  | nil => simp [Text.join, List.intercalate]
  | cons c cs =>
    have hc := h c List.mem_cons_self
    rw [Text.join, Text.intercalate_cons, List.head?_append]
    cases hcs : c with
    | nil => exact absurd hcs hc.ne_nil
    | cons b rest =>
      have hb := hc.not_mem
      rw [hcs] at hb
      simp only [List.head?_cons, Option.some_or, ne_eq, Option.some.injEq]
      intro heq
      exact hb (heq ▸ List.mem_cons_self)

theorem isRooted_clean (p : Text) : isRooted (clean p) = isRooted p := by
  unfold clean
  cases hp : isRooted p with
  | true => rfl
  | false =>
    rw [if_neg (by simp)]
    unfold Text.orElse
    split
    · decide
    · have hhead := head?_join_parts fun c (hc : c ∈ cleanParts p) => isPart_of_mem_cleanParts hc
      simpa [isRooted] using hhead

theorem clean_ne_nil (p : Text) : clean p ≠ [] := by
  unfold clean Text.orElse
  dsimp only
  split
  · simp [slash_eq]
  · split
    · decide
    · rename_i h
      simpa using h

theorem parts_clean (p : Text) : parts (clean p) = cleanParts p := by
  have hjoin : parts (Text.join "/" (cleanParts p)) = cleanParts p :=
    parts_join fun c hc => isPart_of_mem_cleanParts hc
  rw [slash_eq] at hjoin
  unfold clean Text.orElse
  dsimp only
  rw [slash_eq]
  split
  · rw [List.singleton_append, parts_cons_slash, hjoin]
  · split
    · rename_i hempty
      rw [← hjoin, List.isEmpty_iff.1 hempty]
      decide
    · exact hjoin

def turn (p : List Text) (c : Text) : List Text := if c == up then p.dropLast else p ++ [c]

theorem turn_name {c : Text} (h : IsName c) (p : List Text) : turn p c = p ++ [c] := by
  simp [turn, h.ne_up]

theorem foldl_turn_names {cs : List Text} (h : ∀ c ∈ cs, IsName c) (p : List Text) :
    cs.foldl turn p = p ++ cs := by
  induction cs generalizing p with
  | nil => simp
  | cons c cs ih =>
    rw [List.foldl_cons, turn_name (h c List.mem_cons_self),
      ih fun t ht => h t (List.mem_cons_of_mem c ht)]
    simp

/-- Pushing a part onto the parts read so far is one more turn at their end. A `..` is dropped only
where there is nothing above. -/
theorem foldl_turn_push {rooted : Bool} {p : List Text} (hroot : rooted = true → p = [])
    (seen : List Text) (part : Text) :
    (push rooted seen part).reverse.foldl turn p = turn (seen.reverse.foldl turn p) part := by
  unfold push
  split
  · rename_i hpart
    obtain rfl : part = up := by simpa using hpart
    cases seen with
    | nil =>
      cases hr : rooted with
      | true => simp [hroot hr, turn]
      | false => simp [turn]
    | cons last rest =>
      dsimp only
      split
      · simp
      · rename_i hlast
        simp [turn, hlast]
  · simp

theorem foldl_turn_cleanParts {path : Text} {p : List Text}
    (hroot : isRooted path = true → p = []) :
    (cleanParts path).foldl turn p = (parts path).foldl turn p := by
  have hfold : ∀ cs seen : List Text, (cs.foldl (push (isRooted path)) seen).reverse.foldl turn p =
      cs.foldl turn (seen.reverse.foldl turn p) := by
    intro cs
    induction cs with
    | nil =>
      intro seen
      rfl
    | cons c cs ih =>
      intro seen
      rw [List.foldl_cons, ih, foldl_turn_push hroot, List.foldl_cons]
  exact hfold (parts path) []

/-- A path from the root is cleaned to the place that its parts lead to. -/
theorem cleanParts_of_isRooted {path : Text} (h : isRooted path = true) :
    cleanParts path = (parts path).foldl turn [] := by
  have hpush : ∀ (seen : List Text) part, (∀ c ∈ seen, c ≠ up) →
      (push true seen part).reverse = turn seen.reverse part ∧ ∀ c ∈ push true seen part,
        c ≠ up := by
    intro seen part hseen
    cases seen with
    | nil =>
      unfold push turn
      split <;> simp_all
    | cons last rest =>
      have hlast := hseen last List.mem_cons_self
      unfold push turn
      split <;> simp_all
  have hfold : ∀ cs seen : List Text, (∀ c ∈ seen, c ≠ up) →
      (cs.foldl (push true) seen).reverse = cs.foldl turn seen.reverse := by
    intro cs
    induction cs with
    | nil => simp
    | cons c cs ih =>
      intro seen hseen
      obtain ⟨heq, hne⟩ := hpush seen c hseen
      rw [List.foldl_cons, ih _ hne, heq, List.foldl_cons]
  rw [cleanParts, h]
  exact hfold (parts path) [] (by simp)

end Path
end HeaderBridge
