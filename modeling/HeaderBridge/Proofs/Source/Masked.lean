import HeaderBridge.Proofs.Interface.Views
import HeaderBridge.Proofs.Source.Brace

namespace HeaderBridge

def TokenKind.isCode : TokenKind → Bool
  | ident | number | scope | punct => true
  | _ => false

namespace Lexeme

theorem Chain.fits_of_mem {l : Lexeme} {ls : List Lexeme} {rest : Text} (h : Chain ls rest)
    (hl : l ∈ ls) : ∃ rest, Fits l rest := by
  obtain ⟨ks, ms, rfl⟩ := List.append_of_mem hl
  exact ⟨_, (chain_append.1 h).2.1⟩

theorem blankByte_eq_newline {b : UInt8} : blankByte b = newline ↔ b = newline := by
  rw [← beq_iff_eq, blankByte_beq_newline, beq_iff_eq]

/-- What is written lexeme by lexeme in two ways of the same length is written so for each of
them. -/
theorem eq_of_flatMap_eq {f g : Lexeme → Text} (hlen : ∀ l, (f l).length = (g l).length)
    {ls : List Lexeme} (h : ls.flatMap f = ls.flatMap g) : ∀ l ∈ ls, f l = g l := by
  induction ls with
  | nil => simp
  | cons l ls ih =>
    rw [List.flatMap_cons, List.flatMap_cons] at h
    obtain ⟨hl, hls⟩ := List.append_inj h (hlen l)
    exact List.forall_mem_cons.2 ⟨hl, ih hls⟩

theorem mask_mask (t : Text) : mask (mask t) = mask t := by
  have hmask :=
    blankKinds_blanked (fun _ => id) isMasked_of_isComment (q := isMasked) rfl (chain_ofText t)
  simp only [Bool.or_self] at hmask
  exact hmask

theorem not_isMasked_of_mem {l : Lexeme} {t : Text} (hl : l ∈ ofText (mask t)) :
    isMasked l.kind = false := by
  obtain ⟨rest, hfits⟩ := (chain_ofText (mask t)).fits_of_mem hl
  have htwice : (ofText (mask t)).flatMap (blanked isMasked) =
      (ofText (mask t)).flatMap Lexeme.text :=
    (mask_mask t).trans (spelling_ofText (mask t)).symm
  have hsame : blanked isMasked l = l.text := eq_of_flatMap_eq (length_blanked isMasked) htwice l hl
  cases hk : isMasked l.kind with
  | false => rfl
  | true =>
    obtain ⟨a, tail, htext, ha⟩ := hfits.opening hk
    obtain ⟨_, _, hspace, hne⟩ := isOpening_facts ha
    rw [blanked_of hk, htext, List.map_cons, hspace] at hsame
    exact absurd (List.cons.inj hsame).1.symm hne

end Lexeme

namespace Token

def Covers (t : Token) (i : Nat) : Prop := t.pos.offset ≤ i ∧ i < t.stop

theorem Covers.lt {t : Token} {i : Nat} (h : t.Covers i) : i - t.pos.offset < t.text.length := by
  obtain ⟨hstart, hstop⟩ := h
  rw [stop] at hstop
  omega

theorem covers_of_mem_place {p : Pos} {ls : List Lexeme} {i : Nat} (hp : p.offset ≤ i)
    (hi : i < p.offset + (Lexeme.spelling ls).length) : ∃ t ∈ place p ls, t.Covers i := by
  induction ls generalizing p with
  | nil =>
    rw [Lexeme.spelling_nil, List.length_nil] at hi
    omega
  | cons l ls ih =>
    rw [Lexeme.spelling_cons, List.length_append] at hi
    by_cases hl : i < p.offset + l.text.length
    · exact ⟨⟨l.kind, l.text, p⟩, List.mem_cons_self, hp, hl⟩
    · obtain ⟨t, ht, hcovers⟩ := ih (p := p.advance l.text) (by rw [Pos.advance_offset]; omega)
        (by rw [Pos.advance_offset]; omega)
      exact ⟨t, List.mem_cons_of_mem _ ht, hcovers⟩

variable {s : Text} {t : Token} {i : Nat}

theorem lexeme_mem (ht : t ∈ ofText s) : t.lexeme ∈ Lexeme.ofText s := by
  obtain ⟨ks, ms, hls, _⟩ := exists_of_mem_place ht
  rw [hls]
  exact List.mem_append_right ks List.mem_cons_self

theorem exists_covers (hi : i < s.length) : ∃ t ∈ ofText s, t.Covers i := by
  have hend : i < Pos.start.offset + (Lexeme.spelling (Lexeme.ofText s)).length := by
    rw [Lexeme.spelling_ofText]
    exact Nat.lt_add_left 0 hi
  exact covers_of_mem_place (Nat.zero_le i) hend

theorem getElem?_of_covers {f : Lexeme → Text} (hf : ∀ l, (f l).length = l.text.length)
    (ht : t ∈ ofText s) (hi : t.Covers i) :
    ((Lexeme.ofText s).flatMap f)[i]? = (f t.lexeme)[i - t.pos.offset]? := by
  obtain ⟨ks, ms, hls, hpos⟩ := exists_of_mem_place ht
  have hbefore : (ks.flatMap f).length = t.pos.offset := by
    rw [hpos, Interface.offset_after_start]
    simp [Lexeme.spelling, List.length_flatMap, hf]
  have hwithin : i - t.pos.offset < (f t.lexeme).length := by
    rw [hf]
    exact hi.lt
  rw [hls, List.flatMap_append, List.flatMap_cons, List.getElem?_append_right (hbefore ▸ hi.1),
    hbefore]
  exact List.getElem?_append_left hwithin

theorem getElem?_text (ht : t ∈ ofText s) (hi : t.Covers i) :
    s[i]? = t.text[i - t.pos.offset]? := by
  have hbyte := getElem?_of_covers (f := Lexeme.text) (fun _ => rfl) ht hi
  rwa [show (Lexeme.ofText s).flatMap Lexeme.text = s from Lexeme.spelling_ofText s] at hbyte

theorem getElem?_mask (ht : t ∈ ofText s) (hi : t.Covers i) :
    (mask s)[i]? = if Lexeme.isMasked t.kind then (s[i]?).map blankByte else s[i]? := by
  rw [Lexeme.mask_eq, getElem?_of_covers (Lexeme.length_blanked _) ht hi, getElem?_text ht hi]
  cases hk : Lexeme.isMasked t.kind with
  | true =>
    rw [Lexeme.blanked_of (l := t.lexeme) hk, if_pos rfl, List.getElem?_map]
    rfl
  | false =>
    rw [Lexeme.blanked_of_not (l := t.lexeme) hk, if_neg Bool.false_ne_true]
    rfl

theorem getElem?_mask_of_le (hi : s.length ≤ i) : (mask s)[i]? = s[i]? := by
  have hlen : (mask s).length = s.length := Lexeme.length_blankKinds _ s
  rw [List.getElem?_eq_none (hlen ▸ hi), List.getElem?_eq_none hi]

theorem getElem?_mask_newline (s : Text) (i : Nat) :
    (mask s)[i]? = some newline ↔ s[i]? = some newline := by
  by_cases hi : i < s.length
  · obtain ⟨t, ht, hcovers⟩ := exists_covers hi
    rw [getElem?_mask ht hcovers]
    split
    · simp [Lexeme.blankByte_eq_newline]
    · rfl
  · rw [getElem?_mask_of_le (Nat.le_of_not_lt hi)]

theorem getElem?_mask_of_code (h : ∀ t ∈ ofText s, Lexeme.isMasked t.kind = true → ¬ t.Covers i) :
    (mask s)[i]? = s[i]? := by
  by_cases hi : i < s.length
  · obtain ⟨t, ht, hcovers⟩ := exists_covers hi
    rw [getElem?_mask ht hcovers, if_neg fun hk => h t ht hk hcovers]
  · exact getElem?_mask_of_le (Nat.le_of_not_lt hi)

theorem getElem?_mask_of_masked (ht : t ∈ ofText s) (hk : Lexeme.isMasked t.kind = true)
    (hi : t.Covers i) (hline : s[i]? ≠ some newline) : (mask s)[i]? = some (' ' : UInt8) := by
  rw [getElem?_mask ht hi, if_pos hk]
  rw [getElem?_text ht hi] at hline ⊢
  rw [List.getElem?_eq_getElem hi.lt] at hline ⊢
  rw [Option.map_some, blankByte, if_neg]
  intro hb
  exact hline (congrArg some (beq_iff_eq.1 hb))

theorem getElem?_mask_brace {b : UInt8} (hb : isBrace b = true) (s : Text) (i : Nat) :
    (mask s)[i]? = some b ↔ ∃ t ∈ ofText s, t.kind = .punct ∧ t.text = [b] ∧ t.pos.offset = i := by
  constructor
  · intro hbyte
    have hi : i < s.length := by
      obtain ⟨hi, _⟩ := List.getElem?_eq_some_iff.1 hbyte
      exact (Lexeme.length_blankKinds _ s) ▸ hi
    obtain ⟨t, ht, hcovers⟩ := exists_covers hi
    rw [Lexeme.mask_eq, getElem?_of_covers (Lexeme.length_blanked _) ht hcovers] at hbyte
    obtain ⟨rest, hfits⟩ := (Lexeme.chain_ofText s).fits_of_mem (lexeme_mem ht)
    have hlexeme : t.lexeme = ⟨.punct, [b]⟩ :=
      Lexeme.eq_of_mem_blanked hfits hb (List.mem_of_getElem? hbyte)
    obtain ⟨hkind, htext⟩ := Lexeme.mk.inj hlexeme
    refine ⟨t, ht, hkind, htext, ?_⟩
    obtain ⟨hstart, hstop⟩ := hcovers
    rw [stop, htext, List.length_singleton] at hstop
    omega
  · rintro ⟨t, ht, hkind, htext, rfl⟩
    have hcovers : t.Covers t.pos.offset := by
      refine ⟨Nat.le_refl _, ?_⟩
      rw [stop, htext]
      exact Nat.lt_succ_self _
    have hcode : Lexeme.isMasked t.kind = false := by
      rw [hkind]
      rfl
    rw [getElem?_mask ht hcovers, hcode, if_neg Bool.false_ne_true, getElem?_text ht hcovers, htext,
      Nat.sub_self]
    rfl

theorem ofText_mask (s : Text) : ((ofText (mask s)).filter (·.kind != .blank)).map flat =
    ((ofText s).filter (·.kind.isCode)).map flat := by
  have hread := readFrom_blanked (fun _ => id) Lexeme.isMasked_of_isComment (Lexeme.chain_ofText s)
    (rfl : Pos.start.flat = Pos.start.flat)
  have hcode : (fun t : Token => t.kind.isCode) = fun t => t.kind.isSignificant &&
      !Lexeme.isMasked t.kind := by
    funext t
    cases t.kind <;> rfl
  have hblank : (ofText (mask s)).filter (·.kind != .blank) = significant (ofText (mask s)) := by
    apply List.filter_congr
    intro t ht
    have hcomment : t.kind.isComment = false :=
      (Bool.or_eq_false_iff.1 (Lexeme.not_isMasked_of_mem (lexeme_mem ht))).1
    rw [TokenKind.isSignificant, hcomment, Bool.false_or]
    rfl
  rw [hblank, hcode]
  exact hread

/-- Masking keeps the code and nothing else of a text but its line breaks. -/
theorem mask_keeps_code (s : Text) :
    (mask s).length = s.length ∧
    (∀ i : Nat, (mask s)[i]? = some newline ↔ s[i]? = some newline) ∧
    (∀ i : Nat, (∀ t ∈ ofText s, Lexeme.isMasked t.kind = true → ¬ t.Covers i) →
      (mask s)[i]? = s[i]?) ∧
    (∀ t ∈ ofText s, Lexeme.isMasked t.kind = true → ∀ i, t.Covers i → s[i]? ≠ some newline →
      (mask s)[i]? = some (' ' : UInt8)) ∧
    ((ofText (mask s)).filter (·.kind != .blank)).map flat =
      ((ofText s).filter (·.kind.isCode)).map flat ∧
    mask (mask s) = mask s ∧
    (∀ b, isBrace b = true → ∀ i : Nat, (mask s)[i]? = some b ↔
      ∃ t ∈ ofText s, t.kind = .punct ∧ t.text = [b] ∧ t.pos.offset = i) :=
  ⟨Lexeme.length_blankKinds _ s, getElem?_mask_newline s, fun _ => getElem?_mask_of_code,
    fun _ ht hk _ => getElem?_mask_of_masked ht hk, ofText_mask s, Lexeme.mask_mask s,
    fun _ hb => getElem?_mask_brace hb s⟩

end Token
end HeaderBridge
