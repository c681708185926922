import HeaderBridge.Proofs.Source.Brace
import HeaderBridge.Proofs.Source.LineEnd
import HeaderBridge.Regex.Class

namespace HeaderBridge

/-- What may be left of a text behind a match at its front, the preferred match first. -/
abbrev Matcher := Text → List Text

namespace Matcher

def word (w : Text) : Matcher := fun t => (Text.after? w t).toList

def char (c : Regex.Class) : Matcher
  | [] => []
  | a :: rest =>
    let first := Text.firstChar a rest
    if c first.1.toNat then [rest.drop (first.2 - 1)] else []

def seq (m n : Matcher) : Matcher := fun t => (m t).flatMap n

def alt (m n : Matcher) : Matcher := fun t => m t ++ n t

/-- At most `n` times, and as often as possible. -/
def manyFrom (m : Matcher) : Nat → Matcher
  | 0, t => [t]
  | n + 1, t => (m t).flatMap (manyFrom m n) ++ [t]

/-- At most `n` times, and as seldom as possible. -/
def fewFrom (m : Matcher) : Nat → Matcher
  | 0, t => [t]
  | n + 1, t => t :: (m t).flatMap (fewFrom m n)

def many (m : Matcher) : Matcher := fun t => manyFrom m t.length t

def few (m : Matcher) : Matcher := fun t => fewFrom m t.length t

def inLine : Regex.Class := fun n => n != 0x0A

def space : Regex.Class := Regex.oneOf "\t\n\x0c\r "

def nameStart : Regex.Class := fun n => Regex.alpha n || n == 0x5F

def inNumber : Regex.Class := fun n => Regex.word n || Regex.oneOf ".'" n

def plain (q : UInt8) : Regex.Class := fun n => n != q.toNat && n != 0x5C && n != 0x0A

/-- A character of a literal; a backslash takes the next character of the line with it. -/
def inside (q : UInt8) : Matcher := alt (seq (word "\\") (char inLine)) (char (plain q))

def literal (q : UInt8) : Matcher := seq (word [q]) (seq (many (inside q)) (word [q]))

end Matcher

namespace Text

theorem ne_of_high {a b : UInt8} (ha : isHigh a = true) (hb : isHigh b = false) : a ≠ b := by
  rintro rfl
  rw [ha] at hb
  cases hb

theorem exists_behind (a : UInt8) (rest : Text) : ∃ x y, rest = x ++ y ∧
    (∀ b ∈ x, isHigh b = true) ∧
    (isHigh a = false → x = []) ∧ rest.drop ((firstChar a rest).2 - 1) = y := by
  have hle := firstChar_le_length a rest
  have hpos := firstChar_pos a rest
  refine ⟨rest.take ((firstChar a rest).2 - 1), _, (List.take_append_drop _ rest).symm, ?_,
    fun ha => ?_, rfl⟩
  · have htake :
        (firstChar a
          (rest.take ((firstChar a rest).2 - 1) ++ rest.drop ((firstChar a rest).2 - 1))).2 =
        (rest.take ((firstChar a rest).2 - 1)).length + 1 := by
      rw [List.take_append_drop, List.length_take]
      omega
    exact Lexeme.isHigh_of_firstChar htake
  · rw [firstChar_snd_of_not_high ha]
    rfl

end Text

namespace Matcher

/-- The first byte of a character tells whether the character is of the class. -/
structure Decides (c : Regex.Class) (p : UInt8 → Bool) : Prop where
  low : ∀ b, Text.isHigh b = false → c b.toNat = p b
  high : ∀ b, Text.isHigh b = true → ∀ n, 0x80 ≤ n → c n = p b

namespace Decides

variable {c d : Regex.Class} {p q : UInt8 → Bool}

theorem of_eq (h : Decides c p) (hc : ∀ n, d n = c n) (hp : ∀ b, q b = p b) : Decides d q where
  low b hb := by rw [hc, hp, h.low b hb]
  high b hb n hn := by rw [hc, hp, h.high b hb n hn]

theorem or (hc : Decides c p) (hd : Decides d q) :
    Decides (fun n => c n || d n) fun b => p b || q b where
  low b hb := by rw [hc.low b hb, hd.low b hb]
  high b hb n hn := by rw [hc.high b hb n hn, hd.high b hb n hn]

theorem and (hc : Decides c p) (hd : Decides d q) :
    Decides (fun n => c n && d n) fun b => p b && q b where
  low b hb := by rw [hc.low b hb, hd.low b hb]
  high b hb n hn := by rw [hc.high b hb n hn, hd.high b hb n hn]

theorem not (hc : Decides c p) : Decides (fun n => !c n) fun b => !p b where
  low b hb := by rw [hc.low b hb]
  high b hb n hn := by rw [hc.high b hb n hn]

theorem range (first last : UInt8) (h : Text.isHigh last = false) :
    Decides (Regex.range first.toNat last.toNat) fun b => first ≤ b && b ≤ last where
  low b _ := rfl
  high b hb n hn := by
    have hlast := Text.isHigh_eq_false.1 h
    have hhigh := Text.isHigh_eq_true.1 hb
    have hn' : ¬ n ≤ last.toNat := by omega
    have hb' : ¬ b ≤ last := by rw [UInt8.le_iff_toNat_le]; omega
    rw [Regex.range, decide_eq_false hn', decide_eq_false hb', Bool.and_false, Bool.and_false]

theorem single (a : UInt8) (h : Text.isHigh a = false) : Decides (· == a.toNat) (· == a) where
  low b _ := by rw [Bool.eq_iff_iff, beq_iff_eq, beq_iff_eq, UInt8.toNat_inj]
  high b hb n hn := by
    have ha := Text.isHigh_eq_false.1 h
    rw [beq_eq_false_iff_ne.2 (Text.ne_of_high hb h), beq_eq_false_iff_ne]
    omega

end Decides

theorem decides_any : Decides (fun _ => true) fun _ => true := ⟨fun _ _ => rfl, fun _ _ _ _ => rfl⟩

theorem decides_inLine : Decides inLine (· != newline) := (Decides.single newline (by decide)).not

theorem decides_plain {q : UInt8} (hq : Text.isHigh q = false) :
    Decides (plain q) fun b => b != q && b != '\\' && b != newline :=
  ((Decides.single q hq).not.and (Decides.single '\\' (by decide)).not).and decides_inLine

theorem decides_digit : Decides Regex.digit Text.isDigitByte := Decides.range '0' '9' (by decide)

theorem decides_letter : Decides Regex.alpha Text.isLetterByte :=
  ((Decides.range 'A' 'Z' (by decide)).or (Decides.range 'a' 'z' (by decide))).of_eq (fun _ => rfl)
    fun _ => Bool.or_comm ..

theorem decides_nameStart : Decides nameStart Text.isNameStart :=
  decides_letter.or (Decides.single '_' (by decide))

theorem decides_word : Decides Regex.word Text.isNameByte :=
  ((decides_letter.or decides_digit).or (Decides.single '_' (by decide))).of_eq (fun _ => rfl)
    fun _ => Bool.or_right_comm ..

theorem inNumber_eq (n : Nat) : inNumber n = (Regex.word n || n == 0x2E || n == 0x27) := by
  rw [Bool.eq_iff_iff]
  simp [inNumber, Regex.oneOf, or_assoc, eq_comm (a := n)]

theorem decides_inNumber : Decides inNumber Lexeme.isNumberByte :=
  ((decides_word.or (Decides.single '.' (by decide))).or (Decides.single '\'' (by decide))).of_eq
    inNumber_eq fun _ => rfl

theorem space_eq (n : Nat) :
    space n = (n == 0x09 || n == 0x0A || n == 0x0C || n == 0x0D || n == 0x20) := by
  rw [Bool.eq_iff_iff]
  simp [space, Regex.oneOf, or_assoc, eq_comm (a := n)]

theorem decides_space : Decides space Lexeme.isBlankByte :=
  (((((Decides.single '\t' (by decide)).or (Decides.single newline (by decide))).or
    (Decides.single 0x0C (by decide))).or (Decides.single '\r' (by decide))).or
    (Decides.single ' ' (by decide))).of_eq space_eq fun _ => rfl

theorem decides_sign : Decides (fun n => !(space n || Regex.word n)) fun b =>
    !(Lexeme.isBlankByte b || Text.isNameByte b) :=
  (decides_space.or decides_word).not

section Ways

variable {c : Regex.Class} {p : UInt8 → Bool} {m : Matcher} {n : Nat} {t : Text}

theorem char_cons (h : Decides c p) (a : UInt8) (rest : Text) :
    char c (a :: rest) = if p a then [rest.drop ((Text.firstChar a rest).2 - 1)] else [] := by
  have hclass : c (Text.firstChar a rest).1.toNat = p a := by
    cases ha : Text.isHigh a with
    | true => exact h.high a ha _ (Text.high_firstChar ha rest)
    | false =>
      have hlow := Text.isHigh_eq_false.1 ha
      rw [Text.firstChar_of_not_high ha, Text.toNat_char (by omega), h.low a ha]
  rw [char, hclass]

theorem manyFrom_ne_nil (m : Matcher) (n : Nat) (t : Text) : manyFrom m n t ≠ [] := by
  cases n <;> simp [manyFrom]

/-- A repetition goes on with the match that is preferred, if there is one. -/
theorem head?_manyFrom_succ (m : Matcher) (n : Nat) (t : Text) : (manyFrom m (n + 1) t).head? =
    match (m t).head? with
      | some u => (manyFrom m n u).head?
      | none => some t := by
  rw [manyFrom]
  cases m t with
  | nil => rfl
  | cons u us =>
    obtain ⟨v, vs, hv⟩ := List.exists_cons_of_ne_nil (manyFrom_ne_nil m n u)
    simp [hv]

theorem head?_many_char (h : Decides c p) (t : Text) :
    (many (char c) t).head? = some (t.dropWhile p) := by
  have hfrom (n : Nat) (t : Text) (hn : t.length ≤ n) : (manyFrom (char c) n t).head? =
      some (t.dropWhile p) := by
    induction n generalizing t with
    | zero =>
      obtain rfl := List.eq_nil_of_length_eq_zero (Nat.le_zero.1 hn)
      rfl
    | succ n ih =>
      rw [head?_manyFrom_succ]
      cases t with
      | nil => rfl
      | cons a rest =>
        rw [char_cons h]
        cases ha : p a with
        | false => simp [ha]
        | true =>
          obtain ⟨x, y, rfl, hx, hlow, hy⟩ := Text.exists_behind a rest
          -- the other bytes of the character are of the class like the first one
          have hpx : ∀ b ∈ x, p b = true := by
            intro b hb
            cases hhigh : Text.isHigh a with
            | false => simp [hlow hhigh] at hb
            | true =>
              rw [← h.high b (hx b hb) 0x80 (Nat.le_refl _), h.high a hhigh 0x80 (Nat.le_refl _),
                ha]
          rw [hy, if_pos rfl, List.head?_cons]
          dsimp only
          rw [ih y (by simp at hn; omega), List.dropWhile_cons_of_pos ha,
            List.dropWhile_append_of_pos hpx]
  exact hfrom t.length t (Nat.le_refl _)

end Ways

section Words

variable {a b : UInt8} {w t : Text}

theorem word_nil (t : Text) : word [] t = [t] := by
  simp [word, Text.after?]

theorem word_cons_nil : word (a :: w) [] = [] := by
  simp [word, Text.after?]

theorem word_cons_cons : word (a :: w) (b :: t) = if a = b then word w t else [] := by
  by_cases hab : a = b <;> simp [word, Text.after?, hab]

theorem word_pair {c : UInt8} :
    word [a, b] (c :: t) = if c = a ∧ t.head? = some b then [t.tail] else [] := by
  rw [word_cons_cons]
  cases t with
  | nil => simp [word_cons_nil]
  | cons d t =>
    rw [word_cons_cons, word_nil]
    by_cases hc : c = a <;> simp [hc, eq_comm (a := a), eq_comm (a := b)]

theorem word_single {c : UInt8} : word [a] (c :: t) = if c = a then [t] else [] := by
  rw [word_cons_cons, word_nil]
  simp only [eq_comm]

theorem seq_word_single (m : Matcher) {c : UInt8} :
    seq (word [a]) m (c :: t) = if c = a then m t else [] := by
  rw [seq, word_single]
  split
  · exact List.flatMap_singleton ..
  · rfl

theorem seq_word_pair (m : Matcher) {c : UInt8} :
    seq (word [a, b]) m (c :: t) = if c = a ∧ t.head? = some b then m t.tail else [] := by
  rw [seq, word_pair]
  split
  · exact List.flatMap_singleton ..
  · rfl

end Words

section Left

variable (f : Text → Option Nat)

theorem left_cons {b : UInt8} {t : Text} (h : f (b :: t) = (f t).map (· + 1)) :
    (f (b :: t)).map ((b :: t).drop ·) = (f t).map (t.drop ·) := by
  rw [h, Option.map_map]
  rfl

/-- A search that passes over bytes outside ASCII may start behind them. -/
theorem left_append (h : ∀ b t, Text.isHigh b = true → f (b :: t) = (f t).map (· + 1)) {x : Text}
    (hx : ∀ b ∈ x, Text.isHigh b = true) (y : Text) :
    (f (x ++ y)).map ((x ++ y).drop ·) = (f y).map (y.drop ·) := by
  induction x with
  | nil => rfl
  | cons b x ih =>
    rw [List.cons_append, left_cons f (h b (x ++ y) (hx b List.mem_cons_self))]
    exact ih fun c hc => hx c (List.mem_cons_of_mem b hc)

end Left

theorem head?_few (t : Text) : (seq (few (char fun _ => true)) (word "*/") t).head? =
    (Lexeme.commentLength t).map (t.drop ·) := by
  have hskip (b : UInt8) (t : Text) (hb : Text.isHigh b = true) :
      Lexeme.commentLength (b :: t) = (Lexeme.commentLength t).map (· + 1) := by
    rw [Lexeme.commentLength_cons, if_neg fun hclose => Text.ne_of_high hb (by decide) hclose.1]
  have hfrom (n : Nat) (t : Text) (hn : t.length ≤ n) :
      ((fewFrom (char fun _ => true) n t).flatMap (word [('*' : UInt8), '/'])).head? =
        (Lexeme.commentLength t).map (t.drop ·) := by
    induction n generalizing t with
    | zero =>
      obtain rfl := List.eq_nil_of_length_eq_zero (Nat.le_zero.1 hn)
      rfl
    | succ n ih =>
      cases t with
      | nil => rfl
      | cons a rest =>
        obtain ⟨x, y, rfl, hx, -, hy⟩ := Text.exists_behind a rest
        rw [fewFrom, char_cons decides_any, if_pos rfl, hy, List.flatMap_singleton,
          List.flatMap_cons, word_pair]
        split
        · rename_i hclose
          rw [Lexeme.commentLength_cons, if_pos hclose, Option.map_some, List.singleton_append,
            List.head?_cons, List.drop_succ_cons, List.drop_one]
        · rename_i hopen
          have hcons : Lexeme.commentLength (a :: (x ++ y)) =
              (Lexeme.commentLength (x ++ y)).map (· + 1) := by
            rw [Lexeme.commentLength_cons, if_neg hopen]
          rw [List.nil_append, ih y (by simp at hn; omega), left_cons _ hcons,
            left_append _ hskip hx]
  exact hfrom t.length t (Nat.le_refl _)

theorem head?_directive (t : Text) : (many (alt (word "\\\n") (char inLine)) t).head? =
    some (t.drop (Lexeme.directiveLength t)) := by
  let stop : Text → Option Nat := fun t => some (Lexeme.directiveRest false t)
  have hskip (b : UInt8) (t : Text) (hb : Text.isHigh b = true) : stop (b :: t) =
      (stop t).map (· + 1) := by
    have hnewline : b ≠ newline := Text.ne_of_high hb (by decide)
    have hslash : b ≠ '\\' := Text.ne_of_high hb (by decide)
    dsimp only [stop]
    rw [Lexeme.directiveRest, beq_eq_false_iff_ne.2 hnewline, beq_eq_false_iff_ne.2 hslash]
    rfl
  have hfrom (n : Nat) (t : Text) (hn : t.length ≤ n) :
      (manyFrom (alt (word [('\\' : UInt8), newline]) (char inLine)) n t).head? =
        (stop t).map (t.drop ·) := by
    induction n generalizing t with
    | zero =>
      obtain rfl := List.eq_nil_of_length_eq_zero (Nat.le_zero.1 hn)
      rfl
    | succ n ih =>
      rw [head?_manyFrom_succ]
      cases t with
      | nil => rfl
      | cons a rest =>
        rw [alt, word_pair, char_cons decides_inLine]
        by_cases hcontinued : a = '\\' ∧ rest.head? = some newline
        · obtain ⟨rfl, hhead⟩ := hcontinued
          cases rest with
          | nil => simp at hhead
          | cons b r =>
            obtain rfl := Option.some.inj hhead
            rw [if_pos ⟨rfl, rfl⟩, List.singleton_append, List.head?_cons]
            dsimp only [List.tail_cons]
            rw [ih r (by simp at hn; omega)]
            rfl
        · rw [if_neg hcontinued, List.nil_append]
          by_cases ha : a = newline
          · subst ha
            rfl
          · obtain ⟨x, y, rfl, hx, -, hy⟩ := Text.exists_behind a rest
            -- a backslash that does not continue the line is a byte like others
            have hcons : stop (a :: (x ++ y)) = (stop (x ++ y)).map (· + 1) := by
              have hesc : Lexeme.directiveRest (a == '\\') (x ++ y) =
                  Lexeme.directiveRest false (x ++ y) := by
                cases hrest : x ++ y with
                | nil => rfl
                | cons b r =>
                  rw [hrest] at hcontinued
                  simp only [Lexeme.directiveRest]
                  grind
              dsimp only [stop]
              rw [Lexeme.directiveRest, beq_eq_false_iff_ne.2 ha, hesc]
              rfl
            rw [if_pos (bne_iff_ne.2 ha), hy, List.head?_cons]
            dsimp only
            rw [ih y (by simp at hn; omega), left_cons stop hcons, left_append stop hskip hx]
  rw [Lexeme.directiveLength_eq]
  exact hfrom t.length t (Nat.le_refl _)

section Literal

variable {q : UInt8} (hq : Text.isHigh q = false)

theorem literalRest_cons {a : UInt8} (ha : a ≠ newline) (haq : a ≠ q) (haslash : a ≠ '\\')
    (t : Text) :
    Lexeme.literalRest q false (a :: t) = (Lexeme.literalRest q false t).map (· + 1) := by
  rw [Lexeme.literalRest, beq_eq_false_iff_ne.2 ha, beq_eq_false_iff_ne.2 haq,
    beq_eq_false_iff_ne.2 haslash]
  rfl

theorem literalRest_escape {b : UInt8} (hb : b ≠ newline) (t : Text) (hslash : q ≠ '\\') :
    Lexeme.literalRest q false ('\\' :: b :: t) = (Lexeme.literalRest q false t).map (· + 2) := by
  have hq' : (('\\' : UInt8) == q) = false := beq_eq_false_iff_ne.2 hslash.symm
  have hline : (('\\' : UInt8) == newline) = false := by decide
  rw [Lexeme.literalRest, hq', hline, Lexeme.literalRest]
  simp [hb, Function.comp_def]

include hq

theorem inside_cons (a : UInt8) (rest : Text) : inside q (a :: rest) =
    if a = '\\' then char inLine rest
    else if a = q ∨ a = newline then [] else [rest.drop ((Text.firstChar a rest).2 - 1)] := by
  have hword : seq (word "\\") (char inLine) (a :: rest) =
      if a = '\\' then char inLine rest else [] :=
    seq_word_single (char inLine)
  rw [inside, alt, hword, char_cons (decides_plain hq)]
  by_cases ha : a = '\\'
  · simp [ha]
  · rw [if_neg ha, if_neg ha, List.nil_append]
    by_cases hend : a = q ∨ a = newline
    · rw [if_pos hend, if_neg]
      rcases hend with rfl | rfl <;> simp
    · rw [if_neg hend, if_pos]
      rw [not_or] at hend
      simp [hend.1, hend.2, ha]

theorem head?_literal (hslash : q ≠ '\\') (hline : q ≠ newline) (t : Text) :
    (literal q (q :: t)).head? = (Lexeme.literalLength q t).map (t.drop ·) := by
  have hskip (b : UInt8) (t : Text) (hb : Text.isHigh b = true) :
      Lexeme.literalRest q false (b :: t) = (Lexeme.literalRest q false t).map (· + 1) :=
    literalRest_cons (Text.ne_of_high hb (by decide)) (Text.ne_of_high hb hq)
      (Text.ne_of_high hb (by decide)) t
  have hfrom (n : Nat) (t : Text)
      (hn : t.length ≤ n) : ((manyFrom (inside q) n t).flatMap (word [q])).head? =
      (Lexeme.literalRest q false t).map (t.drop ·) := by
    induction n generalizing t with
    | zero =>
      obtain rfl := List.eq_nil_of_length_eq_zero (Nat.le_zero.1 hn)
      simp [manyFrom, word_cons_nil, Lexeme.literalRest]
    | succ n ih =>
      cases t with
      | nil => simp [manyFrom, inside, alt, seq, word, Text.after?, char, Lexeme.literalRest]
      | cons a rest =>
        rw [manyFrom, List.flatMap_append, List.flatMap_singleton, word_single, inside_cons hq]
        by_cases ha : a = '\\'
        · rw [if_pos ha, if_neg (ha ▸ hslash.symm), List.append_nil, ha]
          cases rest with
          | nil => simp [char, Lexeme.literalRest, Ne.symm hslash]
          | cons b r =>
            rw [char_cons decides_inLine]
            by_cases hb : b = newline
            · simp [hb, Lexeme.literalRest, Ne.symm hslash]
            · obtain ⟨x, y, rfl, hx, -, hy⟩ := Text.exists_behind b r
              rw [if_pos (bne_iff_ne.2 hb), hy, List.flatMap_singleton, ih y (by simp at hn; omega),
                literalRest_escape hb _ hslash, Option.map_map, ← left_append _ hskip hx]
              rfl
        · rw [if_neg ha]
          by_cases hend : a = q ∨ a = newline
          · rw [if_pos hend]
            rcases hend with rfl | rfl
            · simp [Lexeme.literalRest]
            · simp [Lexeme.literalRest, Ne.symm hline]
          · rw [not_or] at hend
            obtain ⟨x, y, rfl, hx, -, hy⟩ := Text.exists_behind a rest
            rw [if_neg (by simp [hend]), if_neg hend.1, List.append_nil, hy, List.flatMap_singleton,
              ih y (by simp at hn; omega), left_cons _ (literalRest_cons hend.2 hend.1 ha _),
              left_append _ hskip hx]
  rw [literal, seq_word_single, if_pos rfl, Lexeme.literalLength_eq]
  exact hfrom t.length t (Nat.le_refl _)

end Literal

end Matcher
end HeaderBridge
