import HeaderBridge.Proofs.Source.Row

namespace HeaderBridge

namespace Lexeme

def meaningful (t : Text) : List Lexeme := (ofText t).filter (·.kind.isSignificant)

theorem meaningful_blanks {w v : Text} (hw : ∀ b ∈ w, isBlankByte b = true)
    (hv : ∀ b ∈ v.head?, isBlankByte b = false) : meaningful (w ++ v) = meaningful v := by
  have hgap : (gap w).filter (·.kind.isSignificant) = [] := by
    unfold gap
    split
    · rfl
    · rfl
  rw [meaningful, ofText_blankRun hw hv, List.filter_append, hgap, List.nil_append, meaningful]

theorem meaningful_cons {x y : Text} {l : Lexeme} (hcut : ofText x = l :: ofText y)
    (hl : l.kind.isSignificant = true) : meaningful x = l :: meaningful y := by
  rw [meaningful, hcut]
  exact List.filter_cons_of_pos (p := fun l : Lexeme => l.kind.isSignificant) hl

theorem Fits.head_not_blank {l : Lexeme} {rest : Text} (h : Fits l rest)
    (hl : l.kind.isSignificant = true) : ∀ b ∈ l.text.head?, isBlankByte b = false := by
  obtain ⟨k, text⟩ := l
  obtain ⟨a, tail, rfl, _⟩ := id h
  intro b hb
  obtain rfl := Option.some.inj hb
  cases hblank : isBlankByte a with
  | false => rfl
  | true =>
    obtain ⟨rfl, _⟩ := (fits_blankByte hblank).1 h
    simp [TokenKind.isSignificant, TokenKind.isComment] at hl

/-- Where no comment stands, the first lexeme of a text that starts with no blank carries
meaning. -/
theorem exists_first {a : UInt8} {x : Text} (ha : isBlankByte a = false)
    (hclean : ∀ l ∈ ofText (a :: x), l.kind.isComment = false) :
    ∃ l rest, ofText (a :: x) = l :: ofText rest ∧ a :: x = l.text ++ rest ∧ Fits l rest ∧
      l.kind.isSignificant = true := by
  obtain ⟨l, ls, hcut⟩ : ∃ l ls, ofText (a :: x) = l :: ls := ⟨_, _, ofText_cons a x⟩
  obtain ⟨hspell, hl, hls⟩ := ofText_eq_iff.1 hcut
  rw [List.append_nil] at hl
  have hrest : ofText (spelling ls) = ls := ofText_eq_iff.2 ⟨rfl, hls⟩
  refine ⟨l, spelling ls, by rw [hcut, hrest], hspell, hl, ?_⟩
  have hcomment := hclean l (by simp [hcut])
  have hkind : l.kind ≠ .blank := by
    intro hkind
    have hshape : l.text ≠ [] ∧ ∀ b ∈ l.text, isBlankByte b = true := by
      simpa [Shape, hkind] using hl.shape
    obtain ⟨b, tail, htext⟩ := List.exists_cons_of_ne_nil hshape.1
    obtain rfl : a = b := by simpa [htext] using congrArg List.head? hspell
    simp [hshape.2 a (by simp [htext])] at ha
  simp [TokenKind.isSignificant, hcomment, hkind]

/-- No comment ends in two texts in a row exactly if none does in either of them or at the seam. -/
theorem commentLength_append_eq_none {x y : Text} : commentLength (x ++ y) = none ↔
    commentLength x = none ∧ commentLength y = none ∧
      ¬(x.getLast? = some ('*' : UInt8) ∧ y.head? = some ('/' : UInt8)) := by
  induction x with
  | nil => simp [commentLength]
  | cons a x ih =>
    cases x with
    | nil =>
      cases y with
      | nil => simp [commentLength]
      | cons b y =>
        simp only [List.cons_append, List.nil_append, commentLength]
        split <;> simp_all
    | cons b x =>
      have hlast : (a :: b :: x).getLast? = (b :: x).getLast? := List.getLast?_cons_cons
      simp only [List.cons_append, commentLength, hlast] at ih ⊢
      split
      · simp
      · simpa using ih

/-- The bytes that neither end a literal nor take part in an escape. -/
def isMute (b : UInt8) : Bool := b != '"' && b != '\'' && b != '\\' && b != newline

theorem isMute_of_isSeparator : ∀ b, isSeparator b = true → isMute b = true :=
  forall_byte (by decide +kernel)

theorem isMute_of_isNameStart : ∀ b, Text.isNameStart b = true → isMute b = true :=
  forall_byte (by decide +kernel)

/-- Mute bytes change nothing in the search for the end of a literal, but the first of them is the
one that a backslash before takes with it. -/
theorem literalRest_skip {q : UInt8} (hq : q = '"' ∨ q = '\'') (esc : Bool) {w z : Text}
    (hw : ∀ b ∈ w, isMute b = true) :
    literalRest q esc (w ++ z) = none ↔ literalRest q (esc && w.isEmpty) z = none := by
  induction w generalizing esc with
  | nil => simp
  | cons a w ih =>
    obtain ⟨hquote, hslash, hline⟩ : a ≠ q ∧ a ≠ '\\' ∧ a ≠ newline := by
      have := hw a (by simp)
      rcases hq with rfl | rfl <;> simp_all [isMute]
    have ih := ih false fun b hb => hw b (by simp [hb])
    rw [List.cons_append, literalRest_cons_eq_none, beq_false_of_ne hslash]
    simpa [hquote, hline] using ih

theorem literalRest_cons_mute {q a : UInt8} (hq : q = '"' ∨ q = '\'') (ha : isMute a = true)
    {esc : Bool} {z : Text} : literalRest q esc (a :: z) = none ↔ literalRest q false z = none := by
  simpa using literalRest_skip (w := [a]) (z := z) hq esc (by simpa using ha)

end Lexeme

namespace Token

def isEdge (t : Token) : Bool := t.isPunct '(' || t.isPunct ')' || t.isPunct ',' || t.isPunct '='

theorem exists_of_isEdge {t : Token} (h : t.isEdge = true) : ∃ b : UInt8,
    Lexeme.isSeparator b = true ∧ Lexeme.isPlainSign b = true ∧ t.kind = .punct ∧ t.text = [b] := by
  have hsign (c : Char) (hc : t.isPunct c = true) : t.kind = .punct ∧ t.text = [(c : UInt8)] :=
    isPunct_iff.1 hc
  simp only [isEdge, Bool.or_eq_true] at h
  rcases h with ((h | h) | h) | h
  · exact ⟨'(', by decide, by decide, hsign _ h⟩
  · exact ⟨')', by decide, by decide, hsign _ h⟩
  · exact ⟨',', by decide, by decide, hsign _ h⟩
  · exact ⟨'=', by decide, by decide, hsign _ h⟩

theorem not_isEdge_of_mem {t : Token} {b : UInt8} (hb : Lexeme.isSeparator b = false)
    (hmem : b ∈ t.text) : t.isEdge = false := by
  cases hedge : t.isEdge with
  | false => rfl
  | true =>
    obtain ⟨c, hsep, _, _, hc⟩ := exists_of_isEdge hedge
    rw [hc, List.mem_singleton] at hmem
    rw [hmem, hsep] at hb
    simp at hb

/-- Whether blanks stand between two tokens as in the source; beside a sign they need not, and
before a word they may be put. -/
def Seam (prev t : Token) (lead : Text) : Prop :=
  (lead = [] ↔ t.pos.offset = prev.stop) ∨ prev.isEdge = true ∨ t.isEdge = true ∨
    (t.isIdent = true ∧ lead ≠ [])

/-- Away from signs, a token that is no word has blanks before it in what is written exactly if it
has some in the source. -/
theorem Seam.isEmpty_eq {prev t : Token} {lead gap : Text} (h : Seam prev t lead)
    (hprev : prev.isEdge = false) (ht : t.isEdge = false) (hident : t.isIdent = false)
    (hoffset : t.pos.offset = prev.stop + gap.length) : lead.isEmpty = gap.isEmpty := by
  have hlead : lead = [] ↔ t.pos.offset = prev.stop := by simpa [Seam, hprev, ht, hident] using h
  have hgap : t.pos.offset = prev.stop ↔ gap = [] := by
    rw [hoffset, ← List.length_eq_zero_iff]
    omega
  rw [Bool.eq_iff_iff, List.isEmpty_iff, List.isEmpty_iff, hlead, hgap]

/-- Away from signs, a token written right behind the one before it stands there in the source as
well. -/
theorem Seam.gap_eq_nil {prev t : Token} {gap : Text} (h : Seam prev t [])
    (hprev : prev.isEdge = false) (ht : t.isEdge = false)
    (hoffset : t.pos.offset = prev.stop + gap.length) : gap = [] := by
  have hnear : t.pos.offset = prev.stop := by simpa [Seam, hprev, ht] using h
  exact List.eq_nil_of_length_eq_zero (by omega)

/-- The tokens behind `prev` are written again, each folded and with some spaces before it. -/
inductive Respaced : Token → List Token → Text → Prop
  | nil (prev : Token) : Respaced prev [] []
  | cons {prev t : Token} {ts : List Token} {text : Text} (lead : Text)
      (hlead : ∀ b ∈ lead, b = (' ' : UInt8)) (hseam : Seam prev t lead) (h : Respaced t ts text) :
      Respaced prev (t :: ts) (lead ++ (Text.collapse t.text ++ text))

def isFiller (b : UInt8) : Bool := Lexeme.isMute b || b == newline

def oneLine (t : Text) : Text := t.map fun b => if b == newline then ' ' else b

theorem isMute_oneLine {w : Text} (hw : ∀ b ∈ w, isFiller b = true) :
    ∀ b ∈ oneLine w, Lexeme.isMute b = true := by
  intro b hb
  obtain ⟨a, ha, rfl⟩ := List.mem_map.1 hb
  have := hw a ha
  split
  · decide
  · simp_all [isFiller]

theorem oneLine_of_folded {u : Text} (h : Text.collapse u = u) : oneLine u = u := by
  have hline : newline ∉ u := Text.newline_not_mem_of_folded h
  rw [oneLine, List.map_congr_left (g := id), List.map_id]
  intro b hb
  have : (b == newline) = false := beq_false_of_ne (by rintro rfl; exact hline hb)
  simp [this]

theorem oneLine_append (u v : Text) : oneLine (u ++ v) = oneLine u ++ oneLine v := List.map_append

/-- Up to an offset behind the first token stand the gap before it, the token and what follows
it. -/
theorem oneLine_slice_cons {source gap rest : Text} {start stop : Nat} {t : Token}
    (hdrop : source.drop start = gap ++ t.text ++ rest)
    (hoffset : t.pos.offset = start + gap.length) (hstart : start ≤ t.stop) (hstop : t.stop ≤ stop)
    (hfold : Text.collapse t.text = t.text) :
    oneLine (Text.slice source start stop) =
      oneLine gap ++ (t.text ++ oneLine (Text.slice source t.stop stop)) := by
  rw [← Text.slice_append_slice source hstart hstop, Row.slice_first hdrop hoffset, oneLine_append,
    oneLine_append, oneLine_of_folded hfold, List.append_assoc]

theorem isBlankByte_of_space {lead : Text} (h : ∀ b ∈ lead, b = (' ' : UInt8)) :
    ∀ b ∈ lead, Lexeme.isBlankByte b = true := by
  intro b hb
  rw [h b hb]
  decide

theorem isMute_of_space {lead : Text} (h : ∀ b ∈ lead, b = (' ' : UInt8)) :
    ∀ b ∈ lead, Lexeme.isMute b = true := by
  intro b hb
  rw [h b hb]
  decide

def lastOf (prev : Token) (ts : List Token) : Token := ts.getLast?.getD prev

theorem lastOf_cons (prev t : Token) (ts : List Token) : lastOf prev (t :: ts) = lastOf t ts := by
  rw [lastOf, lastOf, List.getLast?_cons]
  rfl

theorem lastOf_append (prev : Token) (ts us : List Token) :
    lastOf prev (ts ++ us) = lastOf (lastOf prev ts) us := by
  rw [lastOf, lastOf, lastOf, List.getLast?_append]
  cases us.getLast? <;> rfl

/-- Whether a token that is a quote without a partner has none either in the text up to the offset
`stop`, put on one line. -/
def StaysAlone (source : Text) (stop : Nat) (t : Token) : Prop :=
  ∀ q : UInt8, q = '"' ∨ q = '\'' → t.lexeme = ⟨.punct, [q]⟩ →
    Lexeme.literalLength q (oneLine (Text.slice source t.stop stop)) = none

namespace Respaced

variable {source text : Text} {prev t : Token} {ts : List Token}

/-- What is written behind a token starts like the source, up to a sign or a space. -/
theorem run (h : Respaced prev ts text) (hrow : Row isFiller source prev.stop ts)
    (hfold : ∀ t ∈ ts, Text.collapse t.text = t.text) (hedge : prev.isEdge = false) :
    ∃ x y, text = x ++ y ∧ x <+: source.drop prev.stop ∧ ∀ b ∈ y.head?,
      Lexeme.isSeparator b = true := by
  induction h with
  | nil prev => exact ⟨[], [], rfl, List.nil_prefix, by simp⟩
  | @cons prev t ts text lead hlead hseam _ ih =>
    have ht : Text.collapse t.text = t.text := hfold t (by simp)
    rw [ht]
    cases lead with
    | cons b lead =>
      refine ⟨[], _, rfl, List.nil_prefix, ?_⟩
      intro c hc
      obtain rfl : b = c := Option.some.inj hc
      rw [hlead b (by simp)]
      decide
    | nil =>
      cases hte : t.isEdge with
      | true =>
        obtain ⟨c, hsep, _, _, htext⟩ := exists_of_isEdge hte
        refine ⟨[], _, rfl, List.nil_prefix, ?_⟩
        rw [htext]
        intro b hb
        obtain rfl := Option.some.inj hb
        exact hsep
      | false =>
        obtain ⟨gap, rest, hsource, hoffset, _, _, _, htail⟩ := id hrow
        obtain rfl : gap = [] := hseam.gap_eq_nil hedge hte hoffset
        obtain ⟨x, y, rfl, hx, hy⟩ := ih htail (fun u hu => hfold u (by simp [hu])) hte
        refine ⟨t.text ++ x, y, by simp, ?_, hy⟩
        rw [hsource, ← Row.rest_eq hsource hoffset, List.nil_append]
        exact List.prefix_append_right_inj t.text |>.2 hx

theorem commentLength_eq_none (h : Respaced prev ts text) (hrow : Row isFiller source prev.stop ts)
    (hfold : ∀ t ∈ ts, Text.collapse t.text = t.text)
    (hsource : Lexeme.commentLength (source.drop prev.stop) = none) :
    Lexeme.commentLength text = none := by
  induction h with
  | nil prev => rfl
  | @cons prev t ts text lead hlead hseam h ih =>
    have hfold' : ∀ u ∈ ts, Text.collapse u.text = u.text := fun u hu => hfold u (by simp [hu])
    obtain ⟨gap, rest, hdrop, hoffset, _, _, _, htail⟩ := id hrow
    rw [hdrop, List.append_assoc, Lexeme.commentLength_append_eq_none,
      Lexeme.commentLength_append_eq_none] at hsource
    obtain ⟨_, ⟨htext, hrest, hseam'⟩, _⟩ := hsource
    rw [← Row.rest_eq hdrop hoffset] at hrest hseam'
    rw [hfold t (by simp), Lexeme.commentLength_append_eq_none, Lexeme.commentLength_append_eq_none]
    refine ⟨?_, ⟨htext, ih htail hfold' hrest, ?_⟩, ?_⟩
    · rw [Lexeme.commentLength_eq_none_iff]
      intro i hi
      exact absurd (hlead _ (List.mem_of_getElem? hi)) (by decide)
    · rintro ⟨hstar, hslash⟩
      have hedge : t.isEdge = false := not_isEdge_of_mem (by decide) (List.mem_of_getLast? hstar)
      -- the two signs stand side by side in the source as well
      obtain ⟨x, y, rfl, hx, hy⟩ := h.run htail hfold' hedge
      cases x with
      | nil => exact absurd (hy _ hslash) (by decide)
      | cons b x =>
        obtain ⟨r, hr⟩ := hx
        exact hseam' ⟨hstar, by rw [← hr]; exact hslash⟩
    · rintro ⟨hstar, _⟩
      exact absurd (hlead _ (List.mem_of_getLast? hstar)) (by decide)

theorem commentLength_tail_eq_none (h : Respaced t ts text) (hrow : Row isFiller source t.stop ts)
    (hfold : ∀ u ∈ ts, Text.collapse u.text = u.text) (hedge : t.isEdge = false)
    (hstar : text.head? = some ('*' : UInt8))
    (hopen : Lexeme.commentLength (source.drop t.stop).tail = none) :
    Lexeme.commentLength text.tail = none := by
  cases h with
  | nil => simp at hstar
  | @cons _ u ts text lead hlead hseam h =>
    obtain ⟨gap, rest, hdrop, hoffset, _, _, hfits, htail⟩ := id hrow
    rw [hfold u (by simp)] at hstar ⊢
    obtain rfl : lead = [] := by
      cases lead with
      | nil => rfl
      | cons b lead =>
        rw [hlead b (by simp)] at hstar
        exact absurd (Option.some.inj hstar) (by decide)
    have htext : u.text = [('*' : UInt8)] := by
      obtain ⟨a, tail, hu, _⟩ := id hfits
      have hu : u.text = a :: tail := hu
      obtain rfl : a = '*' := by simpa [hu] using hstar
      exact congrArg Lexeme.text (Lexeme.eq_star hfits hu)
    have huedge : u.isEdge = false := not_isEdge_of_mem (b := '*') (by decide) (by simp [htext])
    obtain rfl : gap = [] := hseam.gap_eq_nil hedge huedge hoffset
    rw [hdrop, htext, ← Row.rest_eq hdrop hoffset] at hopen
    rw [htext]
    exact h.commentLength_eq_none htail (fun v hv => hfold v (by simp [hv])) hopen

theorem fits (h : Respaced t ts text) (hrow : Row isFiller source t.stop ts)
    (hfold : ∀ u ∈ ts, Text.collapse u.text = u.text) (hsig : t.kind.isSignificant = true)
    (hfits : Lexeme.Fits t.lexeme (source.drop t.stop))
    (hquote : ∀ q : UInt8, t.lexeme = ⟨.punct, [q]⟩ → q = '"' ∨ q = '\'' →
      Lexeme.literalLength q text = none) :
    Lexeme.Fits t.lexeme text := by
  cases hedge : t.isEdge with
  | true =>
    obtain ⟨c, hsep, hplain, hkind, htext⟩ := exists_of_isEdge hedge
    rw [show t.lexeme = ⟨.punct, [c]⟩ by rw [lexeme, hkind, htext]]
    exact (Lexeme.fits_plainSign hplain).2
      ⟨rfl, Text.firstChar_snd_of_not_high (Lexeme.isSeparator_facts c hsep).2.2.1 _⟩
  | false =>
    obtain ⟨x, y, rfl, ⟨r, hr⟩, hy⟩ := h.run hrow hfold hedge
    have hx : Lexeme.Fits t.lexeme x := Lexeme.Fits.of_append (y := r) (by rwa [hr])
    have hquote' : ∀ q : UInt8, t.text = [q] → q = '"' ∨ q = '\'' →
        Lexeme.literalLength q (x ++ y) = none := by
      intro q hq hq'
      exact hquote q (hx.quote_stops hq hq').1 hq'
    refine hx.of_stops
      (hx.stops.append ?_ (fun b hb => (Lexeme.isSeparator_facts b (hy b hb)).2.2.1) ?_ hquote')
    · rintro rfl
      exact Lexeme.stops_separator hx hsig hy fun q hq hq' => hquote q hq hq'
    · intro hslash hstar
      have hhead (z : Text) : (x ++ z).head? = some ('*' : UInt8) := by
        cases x with
        | nil => simp at hstar
        | cons b x => exact hstar
      have hkind : t.lexeme = Lexeme.slash := Lexeme.eq_slash hx hslash
      rw [hkind] at hfits
      have hstops : Lexeme.SignStops [('/' : UInt8)] (source.drop t.stop) := hfits.stops
      exact h.commentLength_tail_eq_none hrow hfold hedge (hhead y)
        ((hstops.slash rfl).2 (hr ▸ hhead r))

/-- A quote finds a partner in what is written exactly if it finds one in the source on one line. -/
theorem literalRest_iff (h : Respaced prev ts text) {mark : Token}
    (hrow : Row isFiller source prev.stop (ts ++ [mark]))
    (hfold : ∀ t ∈ ts, Text.collapse t.text = t.text) {q : UInt8} (hq : q = '"' ∨ q = '\'')
    (esc : Bool) (hesc : esc = true → prev.isEdge = false) :
    Lexeme.literalRest q esc text = none ↔
      Lexeme.literalRest q esc (oneLine (Text.slice source prev.stop mark.pos.offset)) = none := by
  induction h generalizing esc with
  | nil prev =>
    obtain ⟨gap, rest, hdrop, hoffset, hgap, _⟩ := hrow
    have hslice : Text.slice source prev.stop mark.pos.offset = gap := by
      rw [Text.slice, hdrop, hoffset, Nat.add_sub_cancel_left, List.append_assoc, List.take_left]
    have hmute := Lexeme.literalRest_skip (z := []) hq esc (isMute_oneLine hgap)
    rw [List.append_nil] at hmute
    rw [hslice, hmute]
    rfl
  | @cons prev t ts text lead hlead hseam h ih =>
    have ht := hfold t (by simp)
    have ih := ih hrow.tail fun u hu => hfold u (by simp [hu])
    obtain ⟨gap, rest, hdrop, hoffset, hgap, hsig, hfits, htail⟩ := id hrow
    rw [ht, oneLine_slice_cons hdrop hoffset hrow.le_stop htail.le_mark ht,
      Lexeme.literalRest_skip hq esc (isMute_of_space hlead),
      Lexeme.literalRest_skip hq esc (isMute_oneLine hgap)]
    generalize oneLine (Text.slice source t.stop mark.pos.offset) = behind at ih
    cases hedge : t.isEdge with
    | true =>
      obtain ⟨c, hsep, _, _, hc⟩ := exists_of_isEdge hedge
      have hmute := Lexeme.isMute_of_isSeparator c hsep
      rw [hc, List.singleton_append, List.singleton_append, Lexeme.literalRest_cons_mute hq hmute,
        Lexeme.literalRest_cons_mute hq hmute]
      exact ih false (by simp)
    | false =>
      have ih := fun e => ih e fun _ => hedge
      have hcongr (x : Text) (e : Bool) : Lexeme.literalRest q e (x ++ text) = none ↔
          Lexeme.literalRest q e (x ++ behind) = none :=
        ⟨Lexeme.literalRest_append_congr (fun e => (ih e).1) x,
          Lexeme.literalRest_append_congr (fun e => (ih e).2) x⟩
      cases hident : t.isIdent with
      | true =>
        have hkind : t.kind = .ident := by simpa [isIdent] using hident
        obtain ⟨a, r, htext, hstart, _⟩ : ∃ (a : UInt8) (r : Text), t.text = a :: r ∧
            Text.isNameStart a = true ∧ ∀ b ∈ r, Text.isNameByte b = true := by
          have hshape := hfits.shape
          simpa [Lexeme.Shape, lexeme, hkind] using hshape
        have hmute := Lexeme.isMute_of_isNameStart a hstart
        rw [htext, List.cons_append, List.cons_append, Lexeme.literalRest_cons_mute hq hmute,
          Lexeme.literalRest_cons_mute hq hmute]
        exact hcongr r false
      | false =>
        -- blanks stand before the token in both texts or in neither, unless nothing is escaped
        have hstate : (esc && lead.isEmpty) = (esc && (oneLine gap).isEmpty) := by
          cases hesc' : esc with
          | false => rfl
          | true =>
            rw [Bool.true_and, Bool.true_and, hseam.isEmpty_eq (hesc hesc') hedge hident hoffset,
              oneLine, List.isEmpty_map]
        rw [hstate]
        exact hcongr t.text _

theorem literalLength_iff (h : Respaced prev ts text) {mark : Token}
    (hrow : Row isFiller source prev.stop (ts ++ [mark]))
    (hfold : ∀ t ∈ ts, Text.collapse t.text = t.text) {q : UInt8} (hq : q = '"' ∨ q = '\'') :
    Lexeme.literalLength q text = none ↔
      Lexeme.literalLength q (oneLine (Text.slice source prev.stop mark.pos.offset)) = none := by
  rw [Lexeme.literalLength_eq, Lexeme.literalLength_eq]
  exact h.literalRest_iff hrow hfold hq false (by simp)

/-- Tokens that folding leaves alone are read back from what is written, if no quote finds a
partner. -/
theorem meaningful_eq (h : Respaced prev ts text) {mark : Token}
    (hrow : Row isFiller source prev.stop (ts ++ [mark]))
    (hfold : ∀ t ∈ ts, Text.collapse t.text = t.text)
    (halone : ∀ t ∈ ts, StaysAlone source mark.pos.offset t) :
    Lexeme.meaningful text = ts.map lexeme := by
  induction h with
  | nil prev => simp [Lexeme.meaningful, Lexeme.ofText]
  | @cons prev t ts text lead hlead hseam h ih =>
    have hfold' : ∀ u ∈ ts, Text.collapse u.text = u.text := fun u hu => hfold u (by simp [hu])
    obtain ⟨gap, rest, hdrop, hoffset, _, hsig, hfits, htail⟩ := id hrow
    rw [← Row.rest_eq hdrop hoffset] at hfits
    have hnext : Lexeme.Fits t.lexeme text :=
      h.fits htail.left hfold' hsig hfits fun q hl hq =>
        (h.literalLength_iff htail hfold' hq).2 (halone t (by simp) q hq hl)
    have hblank := isBlankByte_of_space hlead
    have hhead : ∀ b ∈ (t.text ++ text).head?, Lexeme.isBlankByte b = false := by
      obtain ⟨a, tail, htext, _⟩ := id hnext
      have htext : t.text = a :: tail := htext
      have := hnext.head_not_blank hsig
      rw [show t.lexeme.text = t.text from rfl, htext] at this
      rw [htext]
      exact this
    have hcut : Lexeme.ofText (t.text ++ text) = t.lexeme :: Lexeme.ofText text :=
      Lexeme.ofText_of_fits hnext
    rw [hfold t (by simp), Lexeme.meaningful_blanks hblank hhead, Lexeme.meaningful_cons hcut hsig,
      ih htail hfold' fun u hu => halone u (by simp [hu])]
    rfl

/-- Tokens that are read back from what is written were not changed by folding, and no quote found a
partner. -/
theorem folded_of_meaningful_eq (h : Respaced prev ts text) {mark : Token}
    (hrow : Row isFiller source prev.stop (ts ++ [mark])) (hfirm : ∀ t ∈ ts, Text.Firm t.text)
    (hclean : ∀ l ∈ Lexeme.ofText text, l.kind.isComment = false)
    (hread : Lexeme.meaningful text = ts.map lexeme) :
    (∀ t ∈ ts, Text.collapse t.text = t.text) ∧ ∀ t ∈ ts, StaysAlone source mark.pos.offset t := by
  induction h with
  | nil prev => simp
  | @cons prev t ts text lead hlead hseam h ih =>
    obtain ⟨gap, rest, hdrop, hoffset, _, hsig, hfits, htail⟩ := id hrow
    have hfirst := hfirm t (by simp)
    have hblank := isBlankByte_of_space hlead
    obtain ⟨a, r, hc⟩ := List.exists_cons_of_ne_nil (Text.collapse_ne_nil_of_firm hfirst)
    have ha : Lexeme.isBlankByte a = false := Text.head?_collapse t.text a (by rw [hc]; rfl)
    have hhead : ∀ b ∈ (Text.collapse t.text ++ text).head?, Lexeme.isBlankByte b = false := by
      rw [hc]
      intro b hb
      obtain rfl := Option.some.inj hb
      exact ha
    rw [Lexeme.ofText_blankRun hblank hhead] at hclean
    rw [Lexeme.meaningful_blanks hblank hhead] at hread
    -- the first lexeme that is read is the token itself
    obtain ⟨l, rest', hcut, hspell, hl, hlsig⟩ : ∃ l rest',
        Lexeme.ofText (Text.collapse t.text ++ text) = l :: Lexeme.ofText rest' ∧
          Text.collapse t.text ++ text = l.text ++ rest' ∧ Lexeme.Fits l rest' ∧
          l.kind.isSignificant = true := by
      rw [hc, List.cons_append]
      exact Lexeme.exists_first ha fun l hl => hclean l (by rw [hc]; simp [hl])
    rw [Lexeme.meaningful_cons hcut hlsig, List.map_cons, List.cons.injEq] at hread
    obtain ⟨rfl, hread⟩ := hread
    obtain ⟨hfold, rfl⟩ : Text.collapse t.text = t.text ∧ rest' = text :=
      Lexeme.collapse_of_append_eq hl hsig hfirst hspell.symm
    obtain ⟨hfold', halone⟩ := ih htail (fun u hu => hfirm u (by simp [hu]))
      (fun m hm => hclean m (by rw [hcut]; simp [hm])) hread
    refine ⟨?_, ?_⟩
    · intro u hu
      rcases List.mem_cons.1 hu with rfl | hu
      · exact hfold
      · exact hfold' u hu
    · intro u hu
      rcases List.mem_cons.1 hu with rfl | hu
      · intro q hq hl'
        refine (h.literalLength_iff htail hfold' hq).1 ?_
        rw [hl'] at hl
        exact (hl.quote_stops rfl hq).2
      · exact halone u hu

section Written

variable {stop : Nat} {rest : List Token}

theorem space (h : Respaced prev ts text) (hprev : prev.isEdge = true) (hne : ts ≠ []) :
    Respaced prev ts ((" " : Text) ++ text) := by
  cases h with
  | nil => exact absurd rfl hne
  | @cons _ t ts text lead hlead hseam h =>
    rw [← List.append_assoc]
    refine .cons _ ?_ (.inr (.inl hprev)) h
    intro b hb
    rcases List.mem_append.1 hb with hb | hb
    · exact List.mem_singleton.1 hb
    · exact hlead b hb

theorem sign (prev : Token) {c : Char} (lead : Text) (hlead : ∀ b ∈ lead, b = (' ' : UInt8))
    (hedge : t.isEdge = true) (hc : t.isPunct c = true) (hink : Text.isInk c = true)
    (h : Respaced t ts text) :
    Respaced prev (t :: ts) (lead ++ ((c : UInt8) :: text)) := by
  have hwritten : Respaced prev (t :: ts) (lead ++ (Text.collapse t.text ++ text)) :=
    .cons lead hlead (.inr (.inr (.inl hedge))) h
  rwa [collapse_of_isPunct hc hink] at hwritten

theorem word (prev : Token) (hident : t.isIdent = true) (hink : ∀ b ∈ t.text, Text.isInk b = true)
    (h : Respaced t ts text) :
    Respaced prev (t :: ts) ((" " : Text) ++ (t.text ++ text)) := by
  have hwritten : Respaced prev (t :: ts) ((" " : Text) ++ (Text.collapse t.text ++ text)) :=
    .cons " " (fun b hb => List.mem_singleton.1 hb) (.inr (.inr (.inr ⟨hident, by decide⟩))) h
  rwa [Text.collapse_of_isInk hink] at hwritten

theorem row (hrow : Row Lexeme.isBlankByte source t.stop ts)
    (h : Respaced (lastOf t ts) rest text) :
    Respaced t (ts ++ rest) (follow t.stop ts ++ text) := by
  induction ts generalizing t with
  | nil => exact h
  | cons u us ih =>
    rw [lastOf_cons] at h
    have hnext := ih hrow.tail h
    rw [follow, List.append_assoc, List.append_assoc]
    refine .cons _ ?_ (.inl ?_) hnext
    · intro b hb
      split at hb
      · simp at hb
      · exact List.mem_singleton.1 hb
    · split
      · rename_i hnear
        exact ⟨fun _ => hnear, fun _ => rfl⟩
      · rename_i hfar
        exact ⟨fun hnil => absurd hnil (by decide), fun hnear => absurd hnear hfar⟩

theorem span (hprev : prev.isEdge = true) (hrow : Row Lexeme.isBlankByte source stop ts)
    (hfirm : ∀ u ∈ ts, Text.Firm u.text) (h : Respaced (lastOf prev ts) rest text) :
    Respaced prev (ts ++ rest) (spanText source ts ++ text) := by
  cases ts with
  | nil => exact h
  | cons t ts =>
    rw [lastOf_cons] at h
    rw [hrow.spanText_firm hfirm, List.append_assoc]
    exact .cons [] (by simp) (.inr (.inl hprev)) (row hrow.tail h)

end Written

end Respaced
end Token
end HeaderBridge
