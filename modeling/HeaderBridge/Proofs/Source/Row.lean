import HeaderBridge.Proofs.Source.Blanking
import HeaderBridge.Proofs.Source.Span

namespace HeaderBridge

namespace Text

def isInk (b : UInt8) : Bool := !isHigh b && !isBlank (Char.ofNat b.toNat)

theorem isInk_facts {b : UInt8} (h : isInk b = true) :
    isHigh b = false ∧ isBlank (Char.ofNat b.toNat) = false := by
  simpa [isInk] using h

theorem not_isBlank_of_isInk {t : Text} (h : ∀ b ∈ t, isInk b = true) :
    ∀ c ∈ cells t, c.isBlank = false := by
  intro c hc
  obtain ⟨b, r, hb⟩ := List.exists_cons_of_ne_nil (bytes_ne_nil hc)
  have hm : b ∈ t := by
    rw [← ofCells_cells t]
    exact List.mem_flatMap.2 ⟨c, hc, by simp [hb]⟩
  obtain ⟨hlow, hblank⟩ := isInk_facts (h b hm)
  rw [bytes_of_mem_cells hc (by simp [hb]) hlow]
  exact hblank

theorem collapse_of_isInk {t : Text} (h : ∀ b ∈ t, isInk b = true) : collapse t = t :=
  collapse_of_no_blank (not_isBlank_of_isInk h)

theorem solid_of_isInk {t : Text} (h : ∀ b ∈ t, isInk b = true) : solid t = t :=
  solid_of_no_blank (not_isBlank_of_isInk h)

theorem firm_of_no_blank {t : Text} (hne : t ≠ []) (h : ∀ c ∈ cells t, c.isBlank = false) :
    Firm t :=
  ⟨hne, fun c hc => h c (List.mem_of_head? hc), fun c hc => h c (List.mem_of_getLast? hc)⟩

theorem firm_of_ends {t : Text} {a b : UInt8} (ha : isInk a = true) (hb : isInk b = true)
    (hfirst : t.head? = some a) (hlast : t.getLast? = some b) : Firm t := by
  obtain ⟨halow, hablank⟩ := isInk_facts ha
  obtain ⟨hblow, hbblank⟩ := isInk_facts hb
  refine ⟨by rintro rfl; simp at hfirst, ?_, ?_⟩
  · cases t with
    | nil => simp at hfirst
    | cons d t =>
      obtain rfl := Option.some.inj hfirst
      rw [cells_ascii halow]
      intro c hc
      obtain rfl := Option.some.inj hc
      exact hablank
  · obtain ⟨init, d, rfl⟩ := (List.eq_nil_or_concat t).resolve_left (by rintro rfl; simp at hfirst)
    obtain rfl : d = b := by simpa using hlast
    have hhead : ∀ c ∈ [d].head?, isHigh c = false := by
      intro c hc
      obtain rfl := Option.some.inj hc
      exact hblow
    rw [List.concat_eq_append, cells_append_of_ascii hhead, cells_ascii hblow]
    intro c hc
    obtain rfl : c = ⟨Char.ofNat d.toNat, [d]⟩ := by simpa [cells] using hc.symm
    exact hbblank

end Text

namespace Lexeme

theorem isInk_of_isNameByte : ∀ b, Text.isNameByte b = true → Text.isInk b = true :=
  forall_byte (by decide +kernel)

theorem isInk_of_isNumberByte : ∀ b, isNumberByte b = true → Text.isInk b = true :=
  forall_byte (by decide +kernel)

/-- What a significant lexeme is made of, seen by its characters: ink only, a literal between
quotes, or a single character that need not be ASCII. -/
theorem Fits.characters {l : Lexeme} {rest : Text} (h : Fits l rest)
    (hl : l.kind.isSignificant = true) : (l.text ≠ [] ∧ ∀ b ∈ l.text, Text.isInk b = true) ∨
    (∃ q, Text.isInk q = true ∧ l.text.head? = some q ∧ l.text.getLast? = some q) ∨
    ∃ c, Text.cells l.text = [c] ∧ Text.cells (l.text ++ rest) = c :: Text.cells rest := by
  have hshape := h.shape
  obtain ⟨k, text⟩ := l
  cases k with
  | blockComment | lineComment | directive | blank =>
    simp [TokenKind.isSignificant, TokenKind.isComment] at hl
  | stringLiteral =>
    obtain ⟨t, rfl, ht⟩ : ∃ t : Text, text = ('"' : UInt8) :: t ∧ _ := hshape
    exact .inr (.inl ⟨'"', by decide, literal_ends ht⟩)
  | charLiteral =>
    obtain ⟨t, rfl, ht⟩ : ∃ t : Text, text = ('\'' : UInt8) :: t ∧ _ := hshape
    exact .inr (.inl ⟨'\'', by decide, literal_ends ht⟩)
  | ident =>
    obtain ⟨a, t, rfl, ha, ht⟩ : ∃ (a : UInt8) (t : Text), text = a :: t ∧ _ := hshape
    refine .inl ⟨by simp, fun b hb => isInk_of_isNameByte b ?_⟩
    rcases List.mem_cons.1 hb with rfl | hb
    · simp [Text.isNameByte, ha]
    · exact ht b hb
  | number =>
    obtain ⟨a, t, rfl, ha, ht⟩ : ∃ (a : UInt8) (t : Text), text = a :: t ∧ _ := hshape
    refine .inl ⟨by simp, fun b hb => isInk_of_isNumberByte b ?_⟩
    rcases List.mem_cons.1 hb with rfl | hb
    · simp [isNumberByte, Text.isNameByte, ha]
    · exact ht b hb
  | scope =>
    obtain rfl : text = [(':' : UInt8), (':' : UInt8)] := hshape
    exact .inl ⟨by simp, by decide +kernel⟩
  | punct =>
    have hstops : SignStops text rest := h.stops
    obtain ⟨a, tail, rfl, _⟩ := id h
    have hchar := hstops.char a tail rfl
    have hself : Text.firstChar a (tail ++ rest) = Text.firstChar a tail :=
      Text.firstChar_append (by omega)
    refine .inr (.inr ⟨⟨(Text.firstChar a tail).1, a :: tail⟩, ?_, ?_⟩)
    · rw [Text.cells_cons, ← hself, hchar]
      simp [Text.cells]
    · rw [List.cons_append, Text.cells_cons, hchar, hself]
      simp

section Significant

variable {l : Lexeme} {rest : Text} (h : Fits l rest) (hl : l.kind.isSignificant = true)
include h hl

theorem cells_append_of_fits :
    Text.cells (l.text ++ rest) = Text.cells l.text ++ Text.cells rest := by
  rcases h.characters hl with ⟨_, hink⟩ | ⟨q, hq, _, hlast⟩ | ⟨c, hc, happend⟩
  · exact Text.cells_append_of_low fun b hb =>
      (Text.isInk_facts (hink b (List.mem_of_getLast? hb))).1
  · apply Text.cells_append_of_low
    intro b hb
    obtain rfl := Option.some.inj (hlast.symm.trans hb)
    exact (Text.isInk_facts hq).1
  · rw [happend, hc]
    rfl

/-- A lexeme starts and ends with ink, or it is a single blank character. -/
theorem firm_or_blank : Text.Firm l.text ∨ Text.solid l.text = [] ∧ Text.collapse l.text = [] := by
  rcases h.characters hl with ⟨hne, hink⟩ | ⟨q, hq, hfirst, hlast⟩ | ⟨c, hc, _⟩
  · exact .inl (Text.firm_of_no_blank hne (Text.not_isBlank_of_isInk hink))
  · exact .inl (Text.firm_of_ends hq hq hfirst hlast)
  · cases hb : c.isBlank with
    | false =>
      have hne : l.text ≠ [] := by
        intro hnil
        rw [hnil, Text.cells] at hc
        simp at hc
      refine .inl (Text.firm_of_no_blank hne fun d hd => ?_)
      rw [hc, List.mem_singleton] at hd
      rw [hd, hb]
    | true =>
      refine .inr ⟨?_, ?_⟩
      · simp [Text.solid, hc, hb, Text.ofCells]
      · rw [Text.collapse_eq, hc]
        simp [hb, Text.squeeze]

/-- A lexeme whose folded text continues like its own text is not changed by folding. -/
theorem collapse_of_append_eq (hfirm : Text.Firm l.text) {x y : Text}
    (he : l.text ++ x = Text.collapse l.text ++ y) : Text.collapse l.text = l.text ∧ x = y := by
  have hfold : Text.collapse l.text = l.text := by
    rcases h.characters hl with ⟨_, hink⟩ | ⟨q, hq, _, hlast⟩ | ⟨c, hc, _⟩
    · exact Text.collapse_of_isInk hink
    · have hprefix : Text.collapse l.text <+: l.text :=
        List.prefix_of_prefix_length_le (List.prefix_append _ y) (he ▸ List.prefix_append _ x)
          (Text.length_collapse_le l.text)
      obtain ⟨z, hz⟩ := hprefix
      obtain ⟨hlow, hblank⟩ := Text.isInk_facts hq
      exact Text.eq_collapse_of_prefix hlow hblank hlast hz.symm
    · apply Text.collapse_of_no_blank
      intro d hd
      have hfirst := hfirm.first
      rw [hc] at hd hfirst
      rw [List.mem_singleton.1 hd]
      exact hfirst c rfl
  exact ⟨hfold, List.append_cancel_left (hfold ▸ he)⟩

end Significant

end Lexeme

namespace Text

theorem slice_append_slice (t : Text) {a b c : Nat} (hab : a ≤ b) (hbc : b ≤ c) :
    slice t a b ++ slice t b c = slice t a c := by
  have hdrop : t.drop b = (t.drop a).drop (b - a) := by rw [List.drop_drop, Nat.add_sub_cancel' hab]
  have hlen : c - a = (b - a) + (c - b) := by omega
  rw [slice, slice, slice, hdrop, hlen, List.take_add]

end Text

namespace Token

def lexeme (t : Token) : Lexeme := ⟨t.kind, t.text⟩

/-- The tokens stand in the text in order behind the offset `stop`, and the bytes between them
satisfy `p`. -/
def Row (p : UInt8 → Bool) (source : Text) : Nat → List Token → Prop
  | _, [] => True
  | stop, t :: ts =>
      ∃ gap rest, source.drop stop = gap ++ t.text ++ rest ∧ t.pos.offset = stop + gap.length ∧
      (∀ b ∈ gap, p b = true) ∧ t.kind.isSignificant = true ∧ Lexeme.Fits t.lexeme rest ∧
      Row p source t.stop ts

def lastStop (stop : Nat) (ts : List Token) : Nat := (ts.getLast?.map Token.stop).getD stop

theorem lastStop_cons (stop : Nat) (t : Token) (ts : List Token) :
    lastStop stop (t :: ts) = lastStop t.stop ts := by
  rw [lastStop, lastStop, List.getLast?_cons]
  cases ts.getLast? <;> rfl

namespace Row

variable {p : UInt8 → Bool} {source : Text} {stop : Nat} {t : Token} {ts us : List Token}

theorem before {w : Text} (hw : ∀ b ∈ w, p b = true)
    (hdrop : source.drop stop = w ++ source.drop (stop + w.length))
    (h : Row p source (stop + w.length) ts) : Row p source stop ts := by
  cases ts with
  | nil => trivial
  | cons t ts =>
    obtain ⟨gap, rest, hsource, hoffset, hgap, htail⟩ := h
    refine ⟨w ++ gap, rest, ?_, ?_, ?_, htail⟩
    · rw [hdrop, hsource]
      simp
    · rw [hoffset, List.length_append]
      omega
    · intro b hb
      rcases List.mem_append.1 hb with hb | hb
      · exact hw b hb
      · exact hgap b hb

theorem mono {q : UInt8 → Bool} (hq : ∀ b, p b = true → q b = true) (h : Row p source stop ts) :
    Row q source stop ts := by
  induction ts generalizing stop with
  | nil => trivial
  | cons t ts ih =>
    obtain ⟨gap, rest, hsource, hoffset, hgap, hsig, hfits, htail⟩ := h
    exact ⟨gap, rest, hsource, hoffset, fun b hb => hq b (hgap b hb), hsig, hfits, ih htail⟩

theorem left (h : Row p source stop (ts ++ us)) : Row p source stop ts := by
  induction ts generalizing stop with
  | nil => trivial
  | cons t ts ih =>
    obtain ⟨gap, rest, hsource, hoffset, hgap, hsig, hfits, htail⟩ := h
    exact ⟨gap, rest, hsource, hoffset, hgap, hsig, hfits, ih htail⟩

theorem right (h : Row p source stop (ts ++ us)) : Row p source (lastStop stop ts) us := by
  induction ts generalizing stop with
  | nil => exact h
  | cons t ts ih =>
    obtain ⟨_, _, _, _, _, _, _, htail⟩ := h
    rw [lastStop_cons]
    exact ih htail

theorem rest_eq {gap rest : Text} (hsource : source.drop stop = gap ++ t.text ++ rest)
    (hoffset : t.pos.offset = stop + gap.length) : source.drop t.stop = rest := by
  have hstop : t.stop = stop + (gap ++ t.text).length := by
    rw [Token.stop, hoffset, List.length_append]
    omega
  rw [hstop, ← List.drop_drop, hsource, List.drop_left]

theorem tail (h : Row p source stop (t :: ts)) : Row p source t.stop ts := by
  obtain ⟨_, _, _, _, _, _, _, htail⟩ := h
  exact htail

theorem fits_of_mem (h : Row p source stop ts) (ht : t ∈ ts) :
    t.kind.isSignificant = true ∧ ∃ rest, Lexeme.Fits t.lexeme rest := by
  induction ts generalizing stop with
  | nil => simp at ht
  | cons u ts ih =>
    obtain ⟨gap, rest, _, _, _, hsig, hfits, htail⟩ := h
    rcases List.mem_cons.1 ht with rfl | ht
    · exact ⟨hsig, rest, hfits⟩
    · exact ih htail ht

/-- A token may be left out of a row if its own bytes may stand between the others. -/
theorem skip (ht : ∀ b ∈ t.text, p b = true) (h : Row p source stop (ts ++ t :: us)) :
    Row p source stop (ts ++ us) := by
  induction ts generalizing stop with
  | nil =>
    obtain ⟨gap, rest, hsource, hoffset, hgap, _, _, htail⟩ := h
    have hstop : stop + (gap ++ t.text).length = t.stop := by
      rw [Token.stop, hoffset, List.length_append]
      omega
    refine before (w := gap ++ t.text) ?_ ?_ (by rwa [hstop])
    · intro b hb
      rcases List.mem_append.1 hb with hb | hb
      · exact hgap b hb
      · exact ht b hb
    · rw [hstop, rest_eq hsource hoffset, hsource]
  | cons u ts ih =>
    obtain ⟨gap, rest, hsource, hoffset, hgap, hsig, hfits, htail⟩ := h
    exact ⟨gap, rest, hsource, hoffset, hgap, hsig, hfits, ih htail⟩

theorem le_stop (h : Row p source stop (t :: ts)) : stop ≤ t.stop := by
  obtain ⟨gap, _, _, hoffset, _⟩ := h
  rw [Token.stop, hoffset]
  omega

theorem le_lastStop (h : Row p source stop ts) : stop ≤ lastStop stop ts := by
  induction ts generalizing stop with
  | nil => exact Nat.le_refl stop
  | cons t ts ih =>
    rw [lastStop_cons]
    exact Nat.le_trans h.le_stop (ih h.tail)

theorem le_mark {mark : Token} (h : Row p source stop (ts ++ [mark])) : stop ≤ mark.pos.offset := by
  obtain ⟨gap, _, _, hoffset, _⟩ := h.right
  have := h.left.le_lastStop
  omega

end Row

theorem isInk_of_isIdent {t : Token} {rest : Text} (hfits : Lexeme.Fits t.lexeme rest)
    (h : t.isIdent = true) : t.text ≠ [] ∧ ∀ b ∈ t.text, Text.isInk b = true := by
  have hkind : t.kind = .ident := by simpa [isIdent] using h
  obtain ⟨a, r, htext, hstart, hname⟩ : ∃ (a : UInt8) (r : Text), t.text = a :: r ∧
      Text.isNameStart a = true ∧ ∀ b ∈ r, Text.isNameByte b = true := by
    simpa [Lexeme.Shape, lexeme, hkind] using hfits.shape
  refine ⟨by simp [htext], fun b hb => Lexeme.isInk_of_isNameByte b ?_⟩
  rw [htext] at hb
  rcases List.mem_cons.1 hb with rfl | hb
  · simp [Text.isNameByte, hstart]
  · exact hname b hb

theorem text_of_isPunct {t : Token} {c : Char} (h : t.isPunct c = true) : t.text = [(c : UInt8)] :=
  (isPunct_iff.1 h).2

theorem solid_of_isPunct {t : Token} {c : Char} (h : t.isPunct c = true)
    (hc : Text.isInk c = true) : Text.solid t.text = [(c : UInt8)] := by
  rw [text_of_isPunct h]
  exact Text.solid_of_isInk (by simpa using hc)

theorem collapse_of_isPunct {t : Token} {c : Char} (h : t.isPunct c = true)
    (hc : Text.isInk c = true) : Text.collapse t.text = [(c : UInt8)] := by
  rw [text_of_isPunct h]
  exact Text.collapse_of_isInk (by simpa using hc)

/-- The significant tokens of a text stand in a row, its comments taken for blanks. -/
theorem row_significant {source x : Text} {ls : List Lexeme} {p : Pos} (hc : Lexeme.Chain ls [])
    (hsource : source = x ++ Lexeme.bare ls) (hp : p.offset = x.length) :
    Row Lexeme.isBlankByte source p.offset (significant (place p ls)) := by
  induction ls generalizing x p with
  | nil => trivial
  | cons l ls ih =>
    obtain ⟨hfits, hc⟩ := hc
    rw [List.append_nil] at hfits
    have hdrop : source.drop p.offset = Lexeme.blanked TokenKind.isComment l ++ Lexeme.bare ls := by
      rw [hsource, hp, List.drop_left, Lexeme.bare_cons]
    have hnext := ih hc (x := x ++ Lexeme.blanked TokenKind.isComment l) (p := p.advance l.text)
      (by simp [hsource]) (by simp [hp])
    rw [place_cons, significant, List.filter_cons]
    cases hl : l.kind.isSignificant with
    | true =>
      have hcomment : l.kind.isComment = false := by
        cases hk : l.kind <;> simp_all [TokenKind.isSignificant, TokenKind.isComment]
      rw [Lexeme.blanked_of_not hcomment] at hdrop
      exact ⟨[], Lexeme.bare ls, hdrop, rfl, by simp, hl,
        hfits.of_stops (Lexeme.stops_blanked Lexeme.isMasked_of_isComment hc hl hfits.stops), hnext⟩
    | false =>
      have hblank := Lexeme.isBlankByte_of_blanked hfits (l.kind.isSignificant_eq_false.1 hl)
      refine Row.before hblank ?_ ?_
      · rw [← List.drop_drop, hdrop, List.drop_left]
      · rw [Lexeme.length_blanked]
        exact hnext

/-- The bytes of the tokens that belong to no blank character. -/
def ink (ts : List Token) : Text := ts.flatMap fun t => Text.solid t.text

theorem ink_append (ts us : List Token) : ink (ts ++ us) = ink ts ++ ink us := List.flatMap_append

theorem ink_cons (t : Token) (ts : List Token) : ink (t :: ts) = Text.solid t.text ++ ink ts := rfl

def rowText (source : Text) : Nat → List Token → Text
  | _, [] => []
  | stop, t :: ts => Text.slice source stop t.stop ++ rowText source t.stop ts

def follow : Nat → List Token → Text
  | _, [] => []
  | stop, t :: ts =>
    (if t.pos.offset = stop then [] else (" " : Text)) ++ Text.collapse t.text ++ follow t.stop ts

namespace Row

variable {p : UInt8 → Bool} {source : Text} {stop : Nat} {t : Token} {ts us : List Token}

theorem slice_eq_rowText (h : Row p source stop ts) :
    Text.slice source stop (lastStop stop ts) = rowText source stop ts := by
  induction ts generalizing stop with
  | nil => simp [lastStop, Text.slice, rowText]
  | cons t ts ih =>
    rw [lastStop_cons, rowText, ← ih h.tail,
      Text.slice_append_slice source h.le_stop h.tail.le_lastStop]

theorem slice_first {gap rest : Text} (hsource : source.drop stop = gap ++ t.text ++ rest)
    (hoffset : t.pos.offset = stop + gap.length) :
    Text.slice source stop t.stop = gap ++ t.text := by
  have hlen : t.stop - stop = (gap ++ t.text).length := by
    rw [Token.stop, hoffset, List.length_append]
    omega
  rw [Text.slice, hsource, hlen, List.take_left]

theorem own (h : Row p source stop (t :: ts)) : Row p source t.pos.offset (t :: ts) := by
  obtain ⟨gap, rest, hsource, hoffset, _, hsig, hfits, htail⟩ := h
  refine ⟨[], rest, ?_, rfl, by simp, hsig, hfits, htail⟩
  rw [hoffset, ← List.drop_drop, hsource, List.append_assoc, List.drop_left, List.nil_append]

theorem spanText_cons (h : Row p source stop (t :: ts)) :
    spanText source (t :: ts) = Text.collapse (rowText source t.pos.offset (t :: ts)) := by
  rw [spanText, ← h.own.slice_eq_rowText, lastStop, List.head?_cons,
    List.getLast?_eq_some_getLast (by simp)]
  rfl

theorem drop_eq_rowText (h : Row p source stop ts) :
    source.drop stop = rowText source stop ts ++ source.drop (lastStop stop ts) := by
  induction ts generalizing stop with
  | nil => rfl
  | cons t ts ih =>
    obtain ⟨gap, rest, hsource, hoffset, _, _, _, htail⟩ := h
    rw [lastStop_cons, rowText, List.append_assoc, ← ih htail, slice_first hsource hoffset,
      rest_eq hsource hoffset, hsource]

theorem cells_rowText (h : Row Lexeme.isBlankByte source stop (t :: ts)) :
    ∃ gap, (∀ b ∈ gap, Lexeme.isBlankByte b = true) ∧ t.pos.offset = stop + gap.length ∧
      Text.cells (rowText source stop (t :: ts)) =
        Text.cells gap ++ (Text.cells t.text ++ Text.cells (rowText source t.stop ts)) := by
  obtain ⟨gap, rest, hsource, hoffset, hgap, hsig, hfits, htail⟩ := id h
  have hlow : ∀ b ∈ gap.getLast?, Text.isHigh b = false :=
    fun b hb => (Text.isBlank_of_isBlankByte b (hgap b (List.mem_of_getLast? hb))).1
  rw [← rest_eq hsource hoffset, htail.drop_eq_rowText] at hfits
  have hcells := Lexeme.cells_append_of_fits hfits.of_append hsig
  refine ⟨gap, hgap, hoffset, ?_⟩
  rw [rowText, slice_first hsource hoffset, List.append_assoc, Text.cells_append_of_low hlow]
  exact congrArg (Text.cells gap ++ ·) hcells

theorem isBlank_cells {gap : Text} (hgap : ∀ b ∈ gap, Lexeme.isBlankByte b = true) :
    ∀ c ∈ Text.cells gap, c.isBlank = true := by
  intro c hc
  obtain ⟨b, r, hb⟩ := List.exists_cons_of_ne_nil (Text.bytes_ne_nil hc)
  have hm : b ∈ gap := by
    rw [← Text.ofCells_cells gap]
    exact List.mem_flatMap.2 ⟨c, hc, by simp [hb]⟩
  obtain ⟨hlow, hblank⟩ := Text.isBlank_of_isBlankByte b (hgap b hm)
  rw [Text.bytes_of_mem_cells hc (by simp [hb]) hlow]
  exact hblank

theorem solid_rowText (h : Row Lexeme.isBlankByte source stop ts) :
    Text.solid (rowText source stop ts) = ink ts := by
  induction ts generalizing stop with
  | nil => simp [rowText, Text.solid, Text.cells, Text.ofCells, ink]
  | cons t ts ih =>
    obtain ⟨gap, hgap, _, hcells⟩ := h.cells_rowText
    have hfilter : (Text.cells gap).filter (fun c => !c.isBlank) = [] := by
      apply List.filter_eq_nil_iff.2
      intro c hc
      simp [isBlank_cells hgap c hc]
    have ih := ih h.tail
    rw [Text.solid] at ih ⊢
    rw [hcells, List.filter_append, List.filter_append, hfilter, List.nil_append, ink_cons, ← ih]
    exact List.flatMap_append

theorem count_spanText (h : Row Lexeme.isBlankByte source stop ts) {b : UInt8} (hb : b ≠ ' ') :
    (spanText source ts).count b = (ink ts).count b := by
  cases ts with
  | nil => rfl
  | cons t ts => rw [h.spanText_cons, Text.count_collapse hb, h.own.solid_rowText]

theorem squeeze_rowText (h : Row Lexeme.isBlankByte source stop ts)
    (hfirm : ∀ t ∈ ts, Text.Firm t.text) :
    Text.squeeze false (Text.cells (rowText source stop ts)) = follow stop ts := by
  induction ts generalizing stop with
  | nil => simp [rowText, Text.cells, Text.squeeze, follow]
  | cons t ts ih =>
    obtain ⟨gap, hgap, hoffset, hcells⟩ := h.cells_rowText
    have ht := hfirm t (by simp)
    have hblank := isBlank_cells hgap
    -- a space is owed before the token exactly if a gap is there
    have howed : Text.owedAfter false (Text.cells gap) = !decide (t.pos.offset = stop) := by
      cases hlast : (Text.cells gap).getLast? with
      | none =>
        have hnil : gap = [] := by
          rw [← Text.ofCells_cells gap, List.getLast?_eq_none_iff.1 hlast]; rfl
        simp [Text.owedAfter, Text.cells, hoffset, hnil]
      | some c =>
        have hne : gap.length ≠ 0 := by
          intro hlen
          rw [List.eq_nil_of_length_eq_zero hlen, Text.cells] at hlast
          simp at hlast
        simp [Text.owedAfter, hlast, hblank c (List.mem_of_getLast? hlast), hoffset, hne]
    rw [hcells, Text.squeeze_append, Text.squeeze_of_blank hblank, howed, Text.squeeze_append,
      Text.squeeze_of_firm ht, Text.owedAfter_of_firm ht,
      ih h.tail fun u hu => hfirm u (by simp [hu]), follow]
    by_cases heq : t.pos.offset = stop <;> simp [heq]

theorem spanText_firm (h : Row Lexeme.isBlankByte source stop (t :: ts))
    (hfirm : ∀ u ∈ t :: ts, Text.Firm u.text) :
    spanText source (t :: ts) = Text.collapse t.text ++ follow t.stop ts := by
  have ht := hfirm t (by simp)
  obtain ⟨gap, _, hoffset, hcells⟩ := h.own.cells_rowText
  obtain rfl : gap = [] := List.eq_nil_of_length_eq_zero (by omega)
  obtain ⟨c, cs, hcs, hc, _⟩ := ht.exists_cells
  have hfirst : ∀ d ∈ (Text.cells (rowText source t.pos.offset (t :: ts))).head?, d.isBlank =
      false := by
    rw [hcells, hcs, Text.cells]
    intro d hd
    obtain rfl := Option.some.inj hd
    exact hc
  rw [h.spanText_cons, Text.collapse_eq_squeeze hfirst, h.own.squeeze_rowText hfirm, follow,
    if_pos rfl, List.nil_append]

end Row

end Token
end HeaderBridge
