import HeaderBridge.Proofs.Source.Blanking
import HeaderBridge.Proofs.Source.Seam
import HeaderBridge.Source.Delimited

namespace HeaderBridge

def isBrace (b : UInt8) : Bool := b == '{' || b == '}'

theorem closerLength_of_no_brace {x : Text} (h : ∀ b ∈ x, isBrace b = false) (depth : Nat)
    (y : Text) :
    closerLength '{' '}' depth (x ++ y) = (closerLength '{' '}' depth y).map (· + x.length) := by
  induction x with
  | nil => simp
  | cons a x ih =>
    have ha : isBrace a = false := h a (by simp)
    simp only [isBrace, Bool.or_eq_false_iff] at ha
    rw [List.cons_append, closerLength.eq_def]
    simp only [ha.1, ha.2, ih fun b hb => h b (by simp [hb]), Option.map_map]
    congr 1

namespace Lexeme

def openBrace : Lexeme := ⟨.punct, ['{']⟩

def closeBrace : Lexeme := ⟨.punct, ['}']⟩

theorem mask_eq (t : Text) : mask t = (ofText t).flatMap (blanked isMasked) := rfl

theorem not_isBrace {p : UInt8 → Bool} (h : p '{' = false ∧ p '}' = false) :
    ∀ b, p b = true → isBrace b = false := by
  intro b hb
  have hne : b ≠ '{' ∧ b ≠ '}' := by
    constructor <;> rintro rfl <;> simp_all
  rw [isBrace, beq_eq_false_iff_ne.2 hne.1, beq_eq_false_iff_ne.2 hne.2, Bool.or_false]

theorem not_isBrace_of_isNumberByte : ∀ b, isNumberByte b = true → isBrace b = false :=
  not_isBrace (by decide)

theorem not_isBrace_of_isBlankByte : ∀ b, isBlankByte b = true → isBrace b = false :=
  not_isBrace (by decide)

theorem not_isBrace_of_isHigh : ∀ b, Text.isHigh b = true → isBrace b = false :=
  not_isBrace (by decide)

theorem isHigh_of_firstChar {a : UInt8} {tail rest : Text}
    (h : (Text.firstChar a (tail ++ rest)).2 = tail.length + 1) :
    ∀ b ∈ tail, Text.isHigh b = true := by
  have hle := Text.firstChar_le_length a ((tail ++ rest).takeWhile Text.isHigh)
  rw [Text.firstChar_takeWhile, h] at hle
  have hpre : tail <+: (tail ++ rest).takeWhile Text.isHigh :=
    List.prefix_of_prefix_length_le (List.prefix_append tail rest) (List.takeWhile_prefix _)
      (by omega)
  intro b hb
  exact List.all_eq_true.1 List.all_takeWhile b (hpre.subset hb)

theorem eq_of_mem_blanked {l : Lexeme} {rest : Text} (h : Fits l rest) {b : UInt8}
    (hb : isBrace b = true) (hm : b ∈ blanked isMasked l) : l = ⟨.punct, [b]⟩ := by
  have hs := h.shape
  have hname : ∀ c, Text.isNameByte c = true → isNumberByte c = true := by
    intro c hc
    simp [isNumberByte, hc]
  have habsurd {q : UInt8 → Bool} (hq : ∀ c, q c = true → isBrace c = false) (hbq : q b = true) :
      l = ⟨.punct, [b]⟩ := by
    simp [hq b hbq] at hb
  unfold blanked at hm
  split at hm
  · obtain ⟨c, _, rfl⟩ := List.mem_map.1 hm
    exact habsurd not_isBrace_of_isBlankByte (isBlankByte_blankByte c)
  · rename_i hk
    obtain ⟨k, text⟩ := l
    cases k with
    | blockComment | lineComment | directive | stringLiteral | charLiteral =>
      exact absurd rfl hk
    | ident =>
      obtain ⟨a, t, rfl, ha, ht⟩ : ∃ (a : UInt8) (t : Text), text = a :: t ∧ _ := hs
      refine habsurd not_isBrace_of_isNumberByte (hname b ?_)
      rcases List.mem_cons.1 hm with rfl | hm
      · simp [Text.isNameByte, ha]
      · exact ht b hm
    | number =>
      obtain ⟨a, t, rfl, ha, ht⟩ : ∃ (a : UInt8) (t : Text), text = a :: t ∧ _ := hs
      refine habsurd not_isBrace_of_isNumberByte ?_
      rcases List.mem_cons.1 hm with rfl | hm
      · simp [isNumberByte, Text.isNameByte, ha]
      · exact ht b hm
    | scope =>
      obtain rfl : text = [(':' : UInt8), (':' : UInt8)] := hs
      obtain rfl : b = ':' := by simpa using hm
      exact absurd hb (by decide)
    | blank => exact habsurd not_isBrace_of_isBlankByte (hs.2 b hm)
    | punct =>
      obtain ⟨a, tail, rfl, _⟩ := id h
      have htail := isHigh_of_firstChar (SignStops.char h.stops a tail rfl)
      rcases List.mem_cons.1 hm with rfl | hm
      · cases tail with
        | nil => rfl
        | cons c tail =>
          -- a sign of several bytes starts outside ASCII
          have hc := SignStops.char h.stops b (c :: tail) rfl
          cases hbh : Text.isHigh b with
          | true => exact habsurd not_isBrace_of_isHigh hbh
          | false =>
            rw [Text.firstChar_snd_of_not_high hbh] at hc
            simp at hc
      · exact habsurd not_isBrace_of_isHigh (htail b hm)

/-- Splits at the brace that closes `depth + 1` open ones, which is dropped. -/
def splitBrace : Nat → List Lexeme → Option (List Lexeme × List Lexeme)
  | _, [] => none
  | depth, l :: ls =>
    let step d := (splitBrace d ls).map fun r => (l :: r.1, r.2)
    if l = openBrace then step (depth + 1)
    else if l = closeBrace then
      match depth with
      | 0 => some ([], ls)
      | depth + 1 => step depth
    else step depth

theorem eq_of_splitBrace {depth : Nat} {ls inner after : List Lexeme}
    (h : splitBrace depth ls = some (inner, after)) : ls = inner ++ closeBrace :: after := by
  induction ls generalizing depth inner with
  | nil => simp [splitBrace] at h
  | cons l ls ih =>
    have hstep {d : Nat}
        (hd : (splitBrace d ls).map (fun r => (l :: r.1, r.2)) = some (inner, after)) :
        l :: ls = inner ++ closeBrace :: after := by
      obtain ⟨⟨inner', after'⟩, hr, he⟩ := Option.map_eq_some_iff.1 hd
      obtain ⟨rfl, rfl⟩ := Prod.mk.inj he
      rw [ih hr, List.cons_append]
    rw [splitBrace.eq_def] at h
    dsimp only at h
    split at h
    · exact hstep h
    · split at h
      · cases depth with
        | zero =>
          obtain ⟨rfl, rfl⟩ := Prod.mk.inj (Option.some.inj h)
          rw [‹l = closeBrace›, List.nil_append]
        | succ depth => exact hstep h
      · exact hstep h

theorem splitBrace_append {depth : Nat} {ls inner after : List Lexeme}
    (h : splitBrace depth ls = some (inner, after)) (ms : List Lexeme) :
    splitBrace depth (ls ++ ms) = some (inner, after ++ ms) := by
  induction ls generalizing depth inner with
  | nil => simp [splitBrace] at h
  | cons l ls ih =>
    have hstep {d : Nat}
        (hd : (splitBrace d ls).map (fun r => (l :: r.1, r.2)) = some (inner, after)) :
        (splitBrace d (ls ++ ms)).map (fun r => (l :: r.1, r.2)) = some (inner, after ++ ms) := by
      obtain ⟨⟨inner', after'⟩, hr, he⟩ := Option.map_eq_some_iff.1 hd
      obtain ⟨rfl, rfl⟩ := Prod.mk.inj he
      rw [ih hr, Option.map_some]
    rw [List.cons_append]
    rw [splitBrace.eq_def] at h ⊢
    dsimp only at h ⊢
    split
    · rw [if_pos ‹_›] at h
      exact hstep h
    · rw [if_neg ‹_›] at h
      split
      · rw [if_pos ‹_›] at h
        cases depth with
        | zero =>
          obtain ⟨rfl, rfl⟩ := Prod.mk.inj (Option.some.inj h)
          rfl
        | succ depth => exact hstep h
      · rw [if_neg ‹_›] at h
        exact hstep h

theorem closerLength_masked {ls : List Lexeme} {rest : Text} (hc : Chain ls rest) (depth : Nat) :
    closerLength '{' '}' depth (ls.flatMap (blanked isMasked)) =
      (splitBrace depth ls).map fun r => (spelling r.1).length + 1 := by
  induction ls generalizing depth with
  | nil => rfl
  | cons l ls ih =>
    have ih := ih hc.2
    rw [List.flatMap_cons, splitBrace.eq_def]
    dsimp only
    split
    · subst l
      rw [show blanked isMasked openBrace = [('{' : UInt8)] from rfl, List.singleton_append,
        closerLength.eq_def]
      simp [ih, Function.comp_def, openBrace]
    · split
      · subst l
        rw [show blanked isMasked closeBrace = [('}' : UInt8)] from rfl, List.singleton_append,
          closerLength.eq_def]
        cases depth with
        | zero => simp +decide
        | succ depth => simp +decide [ih, Function.comp_def, closeBrace]
      · rename_i hopen hclose
        have hb : ∀ b ∈ blanked isMasked l, isBrace b = false := by
          intro b hm
          cases hb : isBrace b with
          | false => rfl
          | true =>
            have hl := eq_of_mem_blanked hc.1 hb hm
            simp only [isBrace, Bool.or_eq_true, beq_iff_eq] at hb
            rcases hb with rfl | rfl
            · exact absurd hl hopen
            · exact absurd hl hclose
        rw [closerLength_of_no_brace hb, ih, Option.map_map, Option.map_map]
        congr 1
        funext r
        simp only [Function.comp_def, length_blanked, spelling_cons, List.length_append]
        omega

/-- A scan that starts at a brace lexeme either runs to the end or cuts out whole lexemes. -/
theorem scanBlock_mask {t : Text} {before rest : List Lexeme}
    (h : ofText t = before ++ openBrace :: rest) :
    scanBlock (mask t) (spelling before).length = match splitBrace 0 rest with
      | none => .error (.unbalanced (spelling before).length
          ((openBrace :: rest).flatMap (blanked isMasked)))
      | some r => .ok ⟨r.1.flatMap (blanked isMasked),
          (spelling before).length + (spelling r.1).length + 2⟩ := by
  have hlen (ls : List Lexeme) : (ls.flatMap (blanked isMasked)).length = (spelling ls).length := by
    simp [spelling, List.length_flatMap]
  have hchain := chain_ofText t
  rw [h, chain_append] at hchain
  have hdrop : (mask t).drop (spelling before).length =
      ('{' : UInt8) :: rest.flatMap (blanked isMasked) := by
    rw [mask_eq, h, List.flatMap_append, ← hlen, List.drop_left]
    rfl
  rw [scanBlock, scanFrom, hdrop]
  simp only [bne_self_eq_false, Bool.false_eq_true, if_false, closerLength_masked hchain.2.2]
  cases hr : splitBrace 0 rest with
  | none => rfl
  | some r =>
    have hinner : (rest.flatMap (blanked isMasked)).take (spelling r.1).length =
        r.1.flatMap (blanked isMasked) := by
      rw [eq_of_splitBrace hr, List.flatMap_append, ← hlen, List.take_left]
    simp [hinner]
    omega

/-- The bytes between a brace and its closer, where each lexeme is written as `f` says. -/
theorem slice_body {f : Lexeme → Text} (hf : ∀ l, (f l).length = l.text.length)
    (before inner after : List Lexeme) :
    Text.slice ((before ++ openBrace :: (inner ++ closeBrace :: after)).flatMap f)
      ((spelling before).length + 1) ((spelling before).length + (spelling inner).length + 2 - 1) =
        inner.flatMap f := by
  have hlen (ls : List Lexeme) : (ls.flatMap f).length = (spelling ls).length := by
    simp [spelling, List.length_flatMap, hf]
  have hsplit : (before ++ openBrace :: (inner ++ closeBrace :: after)).flatMap f =
      (before.flatMap f ++ f openBrace) ++
        (inner.flatMap f ++ (f closeBrace ++ after.flatMap f)) := by
    simp
  have hfirst : (spelling before).length + 1 = (before.flatMap f ++ f openBrace).length := by
    rw [List.length_append, hlen, hf]
    rfl
  have hlast : (spelling before).length + (spelling inner).length + 2 - 1 -
      ((spelling before).length + 1) = (inner.flatMap f).length := by
    rw [hlen]
    omega
  rw [Text.slice, hlast, hfirst, hsplit, List.drop_left, List.take_left]

section Body

variable {s : Text} {before inner after : List Lexeme}
  (h : ofText s = before ++ openBrace :: (inner ++ closeBrace :: after))
include h

theorem slice_inner : Text.slice s ((spelling before).length + 1)
    ((spelling before).length + (spelling inner).length + 2 - 1) = spelling inner := by
  have hslice := slice_body (f := text) (fun _ => rfl) before inner after
  rw [← h] at hslice
  change Text.slice (spelling _) _ _ = _ at hslice
  rwa [spelling_ofText] at hslice

theorem take_stop : s.take ((spelling before).length + (spelling inner).length + 2) =
    spelling (before ++ openBrace :: (inner ++ [closeBrace])) := by
  have hlength : (spelling before).length + (spelling inner).length + 2 =
      (spelling (before ++ openBrace :: (inner ++ [closeBrace]))).length := by
    simp [openBrace, closeBrace]
    omega
  have hsplit : s = spelling (before ++ openBrace :: (inner ++ [closeBrace])) ++
      spelling after := by
    rw [← spelling_ofText s, h]
    simp
  rw [hlength, hsplit, List.take_left]

theorem ofText_inner : ofText (spelling inner) = inner :=
  ofText_infix (before ++ [openBrace]) inner (closeBrace :: after) (by simpa using h)

end Body

end Lexeme

namespace Token

theorem significant_split {p : Pos} {ls : List Lexeme} {before rest : List Token} {t : Token}
    (h : significant (place p ls) = before ++ t :: rest) :
    ∃ ks ms, ls = ks ++ ⟨t.kind, t.text⟩ :: ms ∧ t.pos = after p ks ∧
      rest = significant (place (t.pos.advance t.text) ms) := by
  induction ls generalizing p before with
  | nil => simp [significant, place] at h
  | cons l ls ih =>
    have hlater {before : List Token}
        (h : significant (place (p.advance l.text) ls) = before ++ t :: rest) :
        ∃ ks ms, l :: ls = ks ++ ⟨t.kind, t.text⟩ :: ms ∧ t.pos = after p ks ∧
          rest = significant (place (t.pos.advance t.text) ms) := by
      obtain ⟨ks, ms, rfl, hpos, hrest⟩ := ih h
      exact ⟨l :: ks, ms, rfl, hpos, hrest⟩
    rw [place_cons, significant, List.filter_cons] at h
    split at h
    · cases before with
      | nil =>
        obtain ⟨rfl, rfl⟩ := List.cons.inj h
        exact ⟨[], ls, rfl, rfl, rfl⟩
      | cons u before => exact hlater (List.cons.inj h).2
    · exact hlater h

theorem split_at_brace {s : Text} {before rest : List Token} {b : Token}
    (h : significant (ofText s) = before ++ b :: rest) (hb : b.isPunct '{') :
    ∃ ks ms, Lexeme.ofText s = ks ++ Lexeme.openBrace :: ms ∧
      b.pos.offset = (Lexeme.spelling ks).length ∧
      rest = significant (place (b.pos.advance b.text) ms) := by
  obtain ⟨ks, ms, hls, hpos, hrest⟩ := significant_split h
  obtain ⟨hk, ht⟩ := isPunct_iff.1 hb
  have ho := after_offset Pos.start ks
  rw [← hpos] at ho
  refine ⟨ks, ms, ?_, by simpa [Pos.start] using ho, hrest⟩
  rw [hls, hk, ht]
  rfl

theorem exists_of_brace {s : Text} {t : Token} (h : t ∈ significant (ofText s))
    (hb : t.isPunct '{') : ∃ ks ms, Lexeme.ofText s = ks ++ Lexeme.openBrace :: ms ∧
      t.pos.offset = (Lexeme.spelling ks).length := by
  obtain ⟨before, rest, hsplit⟩ := List.append_of_mem h
  obtain ⟨ks, ms, hls, ho, _⟩ := split_at_brace hsplit hb
  exact ⟨ks, ms, hls, ho⟩

theorem offset_of_mem_place {p : Pos} {ls : List Lexeme} {t : Token} (h : t ∈ place p ls) :
    p.offset ≤ t.pos.offset ∧ t.pos.offset ≤ p.offset + (Lexeme.spelling ls).length := by
  induction ls generalizing p with
  | nil => simp [place] at h
  | cons l ls ih =>
    rw [Lexeme.spelling_cons, List.length_append]
    rcases List.mem_cons.1 h with rfl | h
    · dsimp only
      omega
    · have := ih h
      rw [Pos.advance_offset] at this
      omega

theorem stop_of_mem_place {p : Pos} {ls : List Lexeme} {t : Token} (h : t ∈ place p ls) :
    t.stop ≤ p.offset + (Lexeme.spelling ls).length := by
  induction ls generalizing p with
  | nil => simp [place] at h
  | cons l ls ih =>
    rw [Lexeme.spelling_cons, List.length_append]
    rcases List.mem_cons.1 h with rfl | h
    · dsimp only [stop]
      omega
    · have := ih h
      rw [Pos.advance_offset] at this
      omega

theorem stop_le_length {t : Text} {u : Token} (h : u ∈ significant (ofText t)) :
    u.stop ≤ t.length := by
  have := stop_of_mem_place (List.mem_filter.1 h).1
  rwa [Lexeme.spelling_ofText, show Pos.start.offset = 0 from rfl, Nat.zero_add] at this

theorem split_while {q : Token → Bool} {xs ys : List Token} (hx : ∀ t ∈ xs, q t = true)
    (hy : ∀ t ∈ ys, q t = false) : (xs ++ ys).takeWhile q = xs ∧ (xs ++ ys).dropWhile q = ys := by
  rw [List.takeWhile_append_of_pos hx, List.dropWhile_append_of_pos hx]
  cases ys with
  | nil => simp
  | cons y ys => simp [hy y (by simp)]

/-- The token of the brace that closes a body of lexemes which stand at `p`. -/
def closerBehind (p : Pos) (inner : List Lexeme) : Token := ⟨.punct, ['}'], after p inner⟩

theorem place_body {p : Pos} {depth : Nat} {ms inner rest : List Lexeme}
    (h : Lexeme.splitBrace depth ms = some (inner, rest)) :
    place p ms =
      place p inner ++ closerBehind p inner :: place ((after p inner).advance ['}']) rest := by
  rw [Lexeme.eq_of_splitBrace h, place_append, place_cons]
  rfl

/-- The tokens up to the closer of a body are those of its lexemes, and those behind it are the
rest. -/
theorem takeWhile_body {p : Pos} {ms inner rest : List Lexeme}
    (h : Lexeme.splitBrace 0 ms = some (inner, rest)) {stop : Nat}
    (hstop : stop = p.offset + (Lexeme.spelling inner).length + 1) :
    (significant (place p ms)).takeWhile (·.pos.offset < stop) =
        significant (place p inner) ++ [closerBehind p inner] ∧
      (significant (place p ms)).dropWhile (·.pos.offset < stop) =
        significant (place ((after p inner).advance ['}']) rest) := by
  have hclose := after_offset p inner
  have hsplit : significant (place p ms) =
      (significant (place p inner) ++ [closerBehind p inner]) ++
      significant (place ((after p inner).advance ['}']) rest) := by
    rw [place_body h, significant_append, List.append_assoc]
    rfl
  rw [hsplit]
  apply split_while
  · intro t ht
    rw [decide_eq_true_iff]
    rcases List.mem_append.1 ht with ht | ht
    · have := (offset_of_mem_place (List.mem_filter.1 ht).1).2
      omega
    · obtain rfl := List.mem_singleton.1 ht
      dsimp only [closerBehind]
      omega
  · intro t ht
    have := (offset_of_mem_place (List.mem_filter.1 ht).1).1
    rw [Pos.advance_offset, List.length_singleton] at this
    rw [decide_eq_false_iff_not]
    omega

/-- A lexeme is a brace among the tokens, or those who count braces do not see it there. -/
theorem brace_cases (p : Pos) (l : Lexeme) :
    l = Lexeme.openBrace ∨ l = Lexeme.closeBrace ∨ l ≠ Lexeme.openBrace ∧ l ≠ Lexeme.closeBrace ∧
      ((∀ ls, significant (place p (l :: ls)) = significant (place (p.advance l.text) ls)) ∨
        ∃ t : Token, t.isPunct '{' = false ∧ t.isPunct '}' = false ∧
          ∀ ls, significant (place p (l :: ls)) =
            t :: significant (place (p.advance l.text) ls)) := by
  by_cases hopen : l = Lexeme.openBrace
  · exact .inl hopen
  by_cases hclose : l = Lexeme.closeBrace
  · exact .inr (.inl hclose)
  refine .inr (.inr ⟨hopen, hclose, ?_⟩)
  cases hk : l.kind.isSignificant with
  | false => exact .inl fun ls => by simp [significant, hk]
  | true =>
    have hsign {c : Char} (hc : l ≠ ⟨.punct, [c.toUInt8]⟩) : Token.isPunct ⟨l.kind, l.text, p⟩ c =
        false := by
      obtain ⟨k, text⟩ := l
      simpa [isPunct] using hc
    exact .inr ⟨_, hsign hopen, hsign hclose, fun ls => by simp [significant, hk]⟩

/-- Whether the braces among the tokens nest, the last `depth` openers before them left aside. -/
def nests : Nat → List Token → Bool
  | depth, [] => depth == 0
  | depth, t :: ts =>
    if t.isPunct '{' then nests (depth + 1) ts
    else if t.isPunct '}' then depth != 0 && nests (depth - 1) ts
    else nests depth ts

theorem nests_append {depth outer : Nat} {ts us : List Token} (h : nests depth ts = true) :
    nests (outer + depth) (ts ++ us) = nests outer us := by
  induction ts generalizing depth with
  | nil =>
    obtain rfl : depth = 0 := by simpa [nests] using h
    rfl
  | cons t ts ih =>
    rw [nests] at h
    rw [List.cons_append, nests]
    split
    · rw [if_pos ‹_›] at h
      exact ih h
    · rw [if_neg ‹_›] at h
      split
      · rw [if_pos ‹_›, Bool.and_eq_true, bne_iff_ne] at h
        have hpos : outer + depth ≠ 0 := by omega
        rw [bne_iff_ne.2 hpos, Bool.true_and, Nat.add_sub_assoc (Nat.pos_of_ne_zero h.1)]
        exact ih h.2
      · rw [if_neg ‹_›] at h
        exact ih h

theorem nests_of_no_brace {ts : List Token}
    (h : ∀ t ∈ ts, t.isPunct '{' = false ∧ t.isPunct '}' = false) : nests 0 ts = true := by
  induction ts with
  | nil => rfl
  | cons t ts ih =>
    obtain ⟨hopen, hclose⟩ := h t (by simp)
    rw [nests, hopen, hclose]
    exact ih fun u hu => h u (by simp [hu])

/-- The closer of a body is looked for behind lexemes whose braces nest. -/
theorem splitBrace_of_nests {depth : Nat} {ls : List Lexeme} {p : Pos}
    (h : nests depth (significant (place p ls)) = true) (outer : Nat) (rest : List Lexeme) :
    Lexeme.splitBrace (outer + depth) (ls ++ rest) =
      (Lexeme.splitBrace outer rest).map fun r => (ls ++ r.1, r.2) := by
  induction ls generalizing depth p with
  | nil =>
    obtain rfl : depth = 0 := by simpa [significant, place, nests] using h
    simp
  | cons l ls ih =>
    have hstep : nests depth (significant (place p (l :: ls))) =
        if l = Lexeme.openBrace then nests (depth + 1) (significant (place (p.advance l.text) ls))
        else if l = Lexeme.closeBrace then
          depth != 0 && nests (depth - 1) (significant (place (p.advance l.text) ls))
        else nests depth (significant (place (p.advance l.text) ls)) := by
      rcases brace_cases p l with rfl | rfl | ⟨hopen, hclose, hts | ⟨t, ht, ht', hts⟩⟩
      · rfl
      · rfl
      · rw [hts, if_neg hopen, if_neg hclose]
      · rw [hts, nests, ht, ht', if_neg hopen, if_neg hclose]
        rfl
    rw [hstep] at h
    rw [List.cons_append, Lexeme.splitBrace.eq_def]
    dsimp only
    split
    · rw [if_pos ‹_›] at h
      rw [Nat.add_assoc, ih h]
      simp [Function.comp_def]
    · rw [if_neg ‹_›] at h
      split
      · rw [if_pos ‹_›, Bool.and_eq_true, bne_iff_ne] at h
        obtain ⟨d, rfl⟩ : ∃ d, depth = d + 1 := ⟨depth - 1, by omega⟩
        rw [Nat.add_sub_cancel] at h
        rw [← Nat.add_assoc]
        dsimp only
        rw [ih h.2]
        simp [Function.comp_def]
      · rw [if_neg ‹_›] at h
        rw [ih h]
        simp [Function.comp_def]

end Token

theorem lt_stop_of_scanFrom {opener closer : UInt8} {t : Text} {index : Nat} {c : Scope}
    (h : scanFrom opener closer t index = .ok c) : index < c.stop := by
  unfold scanFrom at h
  split at h
  · simp at h
  · split at h
    · simp at h
    · split at h
      · simp at h
      · obtain rfl := Except.ok.inj h
        dsimp only
        omega

end HeaderBridge
