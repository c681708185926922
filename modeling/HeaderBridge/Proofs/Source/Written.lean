import HeaderBridge.Proofs.Source.Columns
import HeaderBridge.Proofs.Source.Respaced
import HeaderBridge.Proofs.Text.Folded

namespace HeaderBridge

namespace Lexeme

/-- Where every blank is a space, a lexeme that carries meaning is not a blank. -/
theorem Fits.firm_of_spaces {l : Lexeme} {rest : Text} (h : Fits l rest)
    (hl : l.kind.isSignificant = true)
    (hspace : ∀ c ∈ Text.cells l.text, c.isBlank = true → c = Text.Cell.space) :
    Text.Firm l.text := by
  rcases firm_or_blank h hl with hfirm | ⟨hsolid, -⟩
  · exact hfirm
  · exfalso
    have hbytes := Text.ofCells_cells l.text
    cases hcells : Text.cells l.text with
    | nil =>
      obtain ⟨a, tail, htext, -⟩ := h
      rw [hcells, htext] at hbytes
      cases hbytes
    | cons c cs =>
      have hc : c ∈ Text.cells l.text := hcells ▸ List.mem_cons_self
      cases hblank : c.isBlank with
      | false =>
        rw [Text.solid, hcells, List.filter_cons_of_pos (by simp [hblank]),
          Text.ofCells_cons] at hsolid
        exact Text.bytes_ne_nil hc (List.append_eq_nil_iff.1 hsolid).1
      | true =>
        rw [hcells, Text.ofCells_cons, hspace c hc hblank] at hbytes
        have hhead : l.text.head? = some (' ' : UInt8) := by
          rw [← hbytes]
          rfl
        have hnot := h.head_not_blank hl ' ' hhead
        cases hnot

theorem Fits.exists_blank_cells {l : Lexeme} {rest : Text} (h : Fits l rest)
    (hl : l.kind.isSignificant = false) (hcomment : l.kind.isComment = false) :
    ∃ c cs, Text.cells l.text = c :: cs ∧ ∀ d ∈ c :: cs, d.isBlank = true := by
  have hkind : l.kind = .blank := by simpa [TokenKind.isSignificant, hcomment] using hl
  obtain ⟨hne, hbytes⟩ : l.text ≠ [] ∧ ∀ b ∈ l.text, isBlankByte b = true := by
    simpa [Shape, hkind] using h.shape
  have hall := Token.Row.isBlank_cells hbytes
  cases hcells : Text.cells l.text with
  | nil =>
    have hnil := Text.ofCells_cells l.text
    rw [hcells] at hnil
    exact absurd hnil.symm hne
  | cons c cs => exact ⟨c, cs, rfl, hcells ▸ hall⟩

section Ends

variable {ls : List Lexeme} (h : Chain ls [])
  (hspace : ∀ c ∈ Text.cells (spelling ls), c.isBlank = true → c = Text.Cell.space)
include h hspace

theorem Chain.first_not_blank (hfirst : ∀ l ∈ ls.head?, l.kind.isSignificant = true) :
    ∀ c ∈ (Text.cells (spelling ls)).head?, c.isBlank = false := by
  cases ls with
  | nil =>
    intro c hc
    rw [spelling_nil, Text.cells] at hc
    cases hc
  | cons l ls =>
    have hcut : Text.cells (spelling (l :: ls)) = Text.cells l.text ++
        Text.cells (spelling ls) := by
      have happend := h.1.cells_append
      rwa [List.append_nil] at happend
    have hfirm := h.1.firm_of_spaces (hfirst l rfl) fun c hc =>
      hspace c (by rw [hcut]; exact List.mem_append_left _ hc)
    obtain ⟨c, cs, hcs, hc, -⟩ := hfirm.exists_cells
    intro d hd
    rw [hcut, hcs] at hd
    obtain rfl := Option.some.inj hd
    exact hc

theorem Chain.last_not_blank (hlast : ∀ l ∈ ls.getLast?, l.kind.isSignificant = true) :
    ∀ c ∈ (Text.cells (spelling ls)).getLast?, c.isBlank = false := by
  rcases List.eq_nil_or_concat ls with rfl | ⟨init, l, rfl⟩
  · intro c hc
    rw [spelling_nil, Text.cells] at hc
    cases hc
  · rw [List.concat_eq_append, chain_append] at h
    obtain ⟨hinit, hl, -⟩ := h
    have hcut : Text.cells (spelling (init.concat l)) = Text.cells (spelling init) ++
        Text.cells l.text := by
      have happend := hinit.cells_append
      simpa using happend
    have hfirm := hl.firm_of_spaces (hlast l (by simp)) fun c hc =>
      hspace c (by rw [hcut]; exact List.mem_append_right _ hc)
    obtain ⟨c, cs, hcs, -⟩ := hfirm.exists_cells
    intro d hd
    apply hfirm.last d
    rwa [hcut, List.getLast?_append_of_ne_nil _ (by simp [hcs])] at hd

end Ends
end Lexeme

namespace Token

/-- Tokens next to each other are those of lexemes next to each other, the first and the last of
which carry meaning. -/
theorem exists_run {p : Pos} {ls : List Lexeme} {before ts behind : List Token} (hne : ts ≠ [])
    (h : significant (place p ls) = before ++ ts ++ behind) :
    ∃ ks run ns, ls = ks ++ run ++ ns ∧ ts = significant (place (after p ks) run) ∧
      (∀ l ∈ run.head?, l.kind.isSignificant = true) ∧ ∀ l ∈ run.getLast?,
        l.kind.isSignificant = true := by
  have hkind : ∀ t ∈ significant (place p ls), t.kind.isSignificant = true :=
    fun t ht => (List.mem_filter.1 ht).2
  obtain ⟨t, ts, rfl⟩ := List.exists_cons_of_ne_nil hne
  have ht := hkind t (by rw [h]; simp)
  rw [List.append_assoc, List.cons_append] at h
  obtain ⟨ks, ms, rfl, hpos, hrest⟩ := significant_split h
  have hsame : ⟨t.kind, t.text, after p ks⟩ = t := by rw [← hpos]
  rcases List.eq_nil_or_concat ts with rfl | ⟨init, u, rfl⟩
  · refine ⟨ks, [⟨t.kind, t.text⟩], ms, by simp, ?_, ?_, ?_⟩
    · simp [significant, place, ht, hsame]
    · intro l hl
      obtain rfl := Option.some.inj hl
      exact ht
    · intro l hl
      obtain rfl := Option.some.inj hl
      exact ht
  · have hu := hkind u (by rw [h]; simp)
    rw [List.concat_eq_append, List.append_assoc, List.singleton_append] at hrest
    obtain ⟨ks', ns, rfl, hpos', hbehind⟩ := significant_split hrest.symm
    -- what stands between the first token and the last belongs to the lexemes between theirs
    have hinit : init = significant (place (t.pos.advance t.text) ks') := by
      rw [place_append, place_cons, significant_append, ← hpos'] at hrest
      have htail : significant (⟨u.kind, u.text, u.pos⟩ :: place (u.pos.advance u.text) ns) =
          u :: behind := by
        rw [significant, List.filter_cons, if_pos hu, hbehind]
        rfl
      rw [htail] at hrest
      exact List.append_cancel_right hrest
    refine ⟨ks, ⟨t.kind, t.text⟩ :: (ks' ++ [⟨u.kind, u.text⟩]), ns, by simp, ?_, ?_, ?_⟩
    · have hlast : significant (place u.pos [⟨u.kind, u.text⟩]) =
          [u] := by simp [significant, place, hu]
      rw [place_cons, place_append, ← hpos, ← hpos', significant, List.filter_cons, if_pos ht]
      change t :: init.concat u =
        t :: significant (place (t.pos.advance t.text) ks' ++ place u.pos [⟨u.kind, u.text⟩])
      rw [significant_append, hlast, ← hinit, List.concat_eq_append]
    · intro l hl
      obtain rfl := Option.some.inj hl
      exact ht
    · intro l hl
      rw [← List.cons_append, List.getLast?_concat] at hl
      obtain rfl := Option.some.inj hl
      exact hu

section Folded

variable {source : Text} {ts : List Token}

/-- What tokens next to each other span is the spelling of lexemes next to each other. -/
theorem exists_textOf_eq (hts : ts <:+: significant (ofText source)) (hne : ts ≠ []) :
    ∃ ks run ns, Lexeme.ofText source = ks ++ run ++ ns ∧ textOf source ts = Lexeme.spelling run ∧
    run ≠ [] ∧
      (∀ l ∈ run.head?, l.kind.isSignificant = true) ∧ ∀ l ∈ run.getLast?,
        l.kind.isSignificant = true := by
  obtain ⟨before, behind, hsplit⟩ := hts
  obtain ⟨ks, run, ns, hls, rfl, hfirst, hlast⟩ := exists_run hne hsplit.symm
  have hspelled := Lexeme.spelling_ofText source
  rw [hls, Lexeme.spelling_append, Lexeme.spelling_append] at hspelled
  refine ⟨ks, run, ns, hls,
    textOf_place hspelled.symm (Interface.offset_after_start ks) hfirst hlast, ?_, hfirst, hlast⟩
  rintro rfl
  exact hne rfl

theorem textOf_ne_nil (hts : ts <:+: significant (ofText source)) (hne : ts ≠ []) :
    textOf source ts ≠ [] := by
  obtain ⟨ks, run, ns, hls, htext, hrun, -⟩ := exists_textOf_eq hts hne
  obtain ⟨l, ls, rfl⟩ := List.exists_cons_of_ne_nil hrun
  have hchain := Lexeme.chain_ofText source
  rw [hls, List.append_assoc, Lexeme.chain_append] at hchain
  obtain ⟨a, tail, hl, -⟩ := hchain.2.1
  rw [htext, Lexeme.spelling_cons, hl]
  exact List.cons_ne_nil _ _

theorem spanText_of_folded (h : Text.collapse source = source)
    (hts : ts <:+: significant (ofText source)) : spanText source ts = textOf source ts := by
  by_cases hne : ts = []
  · subst hne
    rfl
  obtain ⟨ks, run, ns, hls, htext, -, hfirst, hlast⟩ := exists_textOf_eq hts hne
  have hspelled := Lexeme.spelling_ofText source
  have hchain := Lexeme.chain_ofText source
  rw [hls, Lexeme.spelling_append, Lexeme.spelling_append] at hspelled
  rw [hls, Lexeme.chain_append, Lexeme.chain_append, List.append_nil] at hchain
  obtain ⟨⟨hks, hrun⟩, -⟩ := hchain
  have hcells : Text.cells source =
      Text.cells (Lexeme.spelling ks) ++ Text.cells (Lexeme.spelling run) ++
        Text.cells (Lexeme.spelling ns) := by
    rw [← hspelled, List.append_assoc, hks.cells_append, hrun.cells_append, List.append_assoc]
  have hspace : ∀ c ∈ Text.cells (Lexeme.spelling run), c.isBlank = true → c = Text.Cell.space := by
    intro c hc
    apply (Text.collapse_eq_self_iff.1 h).space c
    rw [hcells]
    exact List.mem_append_left _ (List.mem_append_right _ hc)
  have hself : Lexeme.Chain run [] := by
    have hown := Lexeme.chain_ofText (Lexeme.spelling run)
    rwa [ Lexeme.ofText_infix ks run ns hls] at hown
  rw [spanText_eq, htext]
  exact Text.collapse_part h hcells (hself.first_not_blank hspace hfirst)
    (hself.last_not_blank hspace hlast)

theorem textOf_significant (h : Text.collapse source = source)
    (hcomments : ∀ l ∈ Lexeme.ofText source, l.kind.isComment = false) :
    textOf source (significant (ofText source)) = source := by
  obtain ⟨-, -, hfirst, hlast⟩ := Text.collapse_eq_self_iff.1 h
  have hspelled := Lexeme.spelling_ofText source
  have hchain := Lexeme.chain_ofText source
  have hsource : source = [] ++ Lexeme.spelling (Lexeme.ofText source) ++ [] := by simp [hspelled]
  have hwhole := textOf_place (p := Pos.start) hsource rfl
  rw [hspelled] at hwhole
  -- no lexeme at either end is a run of blanks, since no blank stands there
  apply hwhole
  · intro l hl
    cases hsig : l.kind.isSignificant with
    | true => rfl
    | false =>
      obtain ⟨ls, hls⟩ := List.head?_eq_some_iff.1 hl
      have hcomment := hcomments l (List.mem_of_head? hl)
      rw [hls] at hchain hspelled
      obtain ⟨c, cs, hcells, hall⟩ := hchain.1.exists_blank_cells hsig hcomment
      have happend := hchain.1.cells_append
      rw [List.append_nil, ← Lexeme.spelling_cons, hspelled, hcells] at happend
      have hnot := hfirst c (by rw [happend]; rfl)
      rw [hall c List.mem_cons_self] at hnot
      cases hnot
  · intro l hl
    cases hsig : l.kind.isSignificant with
    | true => rfl
    | false =>
      obtain ⟨init, hls⟩ := List.getLast?_eq_some_iff.1 hl
      rw [hls, Lexeme.chain_append] at hchain
      have hcomment := hcomments l (List.mem_of_getLast? hl)
      obtain ⟨c, cs, hcells, hall⟩ := hchain.2.1.exists_blank_cells hsig hcomment
      have happend := hchain.1.cells_append
      rw [List.append_nil, ← Lexeme.spelling_append, ← hls, hspelled] at happend
      have hend : (Text.cells source).getLast? =
          some ((c :: cs).getLast (List.cons_ne_nil c cs)) := by
        rw [happend, Lexeme.spelling_cons, Lexeme.spelling_nil, List.append_nil, hcells,
          List.getLast?_append_of_ne_nil _ (List.cons_ne_nil c cs), List.getLast?_eq_some_getLast]
      have hnot := hlast _ hend
      rw [hall _ (List.getLast_mem _)] at hnot
      cases hnot

end Folded
end Token
end HeaderBridge
