import HeaderBridge.Proofs.Interface.Members
import HeaderBridge.Proofs.Interface.Search

namespace HeaderBridge

/-- Where something at `p` in the text behind a brace at `b` stands in the whole text. -/
def Pos.behind (b p : Pos) : Pos :=
  { offset := b.offset + 1 + p.offset
    line := b.line - 1 + p.line
    column := if p.line = 1 then b.column + p.column else p.column }

namespace Token

/-- Splits at the `}` that closes `depth + 1` open braces: the tokens before it, itself, and what
follows. -/
def matchBrace : Nat → List Token → Option (List Token × Token × List Token)
  | _, [] => none
  | depth, t :: ts =>
    let step d := (matchBrace d ts).map fun r => (t :: r.1, r.2)
    if t.isPunct '{' then step (depth + 1)
    else if t.isPunct '}' then
      match depth with
      | 0 => some ([], t, ts)
      | depth + 1 => step depth
    else step depth

section Steps

variable {t : Token} (ts : List Token)

theorem matchBrace_open (ht : t.isPunct '{' = true) (depth : Nat) :
    matchBrace depth (t :: ts) = (matchBrace (depth + 1) ts).map fun r => (t :: r.1, r.2) := by
  rw [matchBrace.eq_def]
  simp [ht]

theorem matchBrace_close (ht : t.isPunct '}' = true) :
    matchBrace 0 (t :: ts) = some ([], t, ts) := by
  rw [matchBrace.eq_def]
  simp [isPunct_unique ht (d := '{') (by decide), ht]

theorem matchBrace_close_succ (ht : t.isPunct '}' = true) (depth : Nat) :
    matchBrace (depth + 1) (t :: ts) = (matchBrace depth ts).map fun r => (t :: r.1, r.2) := by
  rw [matchBrace.eq_def]
  simp [isPunct_unique ht (d := '{') (by decide), ht]

theorem matchBrace_other (hopen : t.isPunct '{' = false) (hclose : t.isPunct '}' = false)
    (depth : Nat) :
    matchBrace depth (t :: ts) = (matchBrace depth ts).map fun r => (t :: r.1, r.2) := by
  rw [matchBrace.eq_def]
  simp [hopen, hclose]

end Steps

theorem eq_of_matchBrace {depth : Nat} {ts inner after : List Token} {closer : Token}
    (h : matchBrace depth ts = some (inner, closer, after)) :
    closer.isPunct '}' = true ∧ ts = inner ++ closer :: after := by
  induction ts generalizing depth inner with
  | nil => simp [matchBrace] at h
  | cons t ts ih =>
    have hstep {d : Nat}
        (hd : (matchBrace d ts).map (fun r => (t :: r.1, r.2)) = some (inner, closer, after)) :
        closer.isPunct '}' = true ∧ t :: ts = inner ++ closer :: after := by
      obtain ⟨⟨inner', rest⟩, hr, he⟩ := Option.map_eq_some_iff.1 hd
      obtain ⟨rfl, rfl⟩ := Prod.mk.inj he
      obtain ⟨hcloser, hts⟩ := ih hr
      exact ⟨hcloser, by rw [hts, List.cons_append]⟩
    cases hopen : t.isPunct '{' with
    | true => exact hstep ((matchBrace_open ts hopen depth).symm.trans h)
    | false =>
      cases hclose : t.isPunct '}' with
      | false => exact hstep ((matchBrace_other ts hopen hclose depth).symm.trans h)
      | true =>
        cases depth with
        | succ depth => exact hstep ((matchBrace_close_succ ts hclose depth).symm.trans h)
        | zero =>
          rw [matchBrace_close ts hclose] at h
          obtain ⟨rfl, hrest⟩ := Prod.mk.inj (Option.some.inj h)
          obtain ⟨rfl, rfl⟩ := Prod.mk.inj hrest
          exact ⟨hclose, rfl⟩

theorem matchBrace_place (depth : Nat) (p : Pos) (ls : List Lexeme) :
    matchBrace depth (significant (place p ls)) = (Lexeme.splitBrace depth ls).map fun r =>
      (significant (place p r.1), closerBehind p r.1,
          significant (place ((after p r.1).advance ['}']) r.2)) := by
  induction ls generalizing depth p with
  | nil => rfl
  | cons l ls ih =>
    rw [Lexeme.splitBrace.eq_def]
    dsimp only
    rcases brace_cases p l with rfl | rfl | ⟨hopen, hclose, hts⟩
    · have hts (ls : List Lexeme) : significant (place p (Lexeme.openBrace :: ls)) =
          ⟨.punct, ['{'], p⟩ :: significant (place (p.advance ['{']) ls) := rfl
      rw [hts, if_pos rfl, matchBrace_open _ rfl, ih, Option.map_map, Option.map_map]
      rfl
    · have hts (ls : List Lexeme) : significant (place p (Lexeme.closeBrace :: ls)) =
          ⟨.punct, ['}'], p⟩ :: significant (place (p.advance ['}']) ls) := rfl
      rw [hts, if_neg (by decide), if_pos rfl]
      cases depth with
      | zero =>
        rw [matchBrace_close _ rfl]
        rfl
      | succ depth =>
        dsimp only
        rw [matchBrace_close_succ _ rfl, ih, Option.map_map, Option.map_map]
        rfl
    · have hbehind (ls : List Lexeme) : closerBehind p (l :: ls) =
          closerBehind (p.advance l.text) ls := rfl
      have hafter (ls : List Lexeme) : after p (l :: ls) = after (p.advance l.text) ls := rfl
      rw [if_neg hopen, if_neg hclose, Option.map_map]
      rcases hts with hts | ⟨t, ht, ht', hts⟩
      · simp only [hts, ih, Function.comp_def, hbehind, hafter]
      · simp only [hts, matchBrace_other _ ht ht', ih, Option.map_map, Function.comp_def, hbehind,
          hafter]

theorem significant_moved (f : Pos → Pos) (ts : List Token) :
    significant (ts.map (moved f)) = (significant ts).map (moved f) := List.filter_map

theorem place_behind {b p : Pos} (hp : 1 ≤ p.line) (ls : List Lexeme) :
    place (b.behind p) ls = (place p ls).map (moved b.behind) := by
  induction ls generalizing p with
  | nil => rfl
  | cons l ls ih =>
    have hadv : (b.behind p).advance l.text = b.behind (p.advance l.text) := by
      simp only [Pos.advance, Pos.behind, Pos.mk.injEq]
      refine ⟨by omega, by omega, ?_⟩
      by_cases hnl : newline ∈ l.text
      · have hcount : 0 < l.text.count newline := List.count_pos_iff.2 hnl
        have hline : p.line + l.text.count newline ≠ 1 := by omega
        simp [hnl, hline]
      · have hcount : l.text.count newline = 0 := List.count_eq_zero.2 hnl
        simp only [hcount, Nat.add_zero, List.contains_iff_mem, hnl, if_false]
        split <;> omega
    rw [place_cons, place_cons, hadv, ih (by rw [Pos.advance_line]; omega), List.map_cons]
    rfl

theorem behind_start {b : Pos} (hb : 1 ≤ b.line) : b.behind Pos.start = b.advance ['{'] := by
  have hcount : Text.charCount (Pos.lastLine ['{']) = 1 := by
    simp +decide [Pos.lastLine, Text.charCount, Text.cells, Text.firstChar]
  have hnl : ['{'.toUInt8].contains newline = false := by decide
  have hlines : ['{'.toUInt8].count newline = 0 := by decide
  simp only [Pos.behind, Pos.advance, hcount, hnl, hlines, Pos.start]
  simp
  omega

theorem exists_of_mem_place {p : Pos} {ls : List Lexeme} {t : Token} (h : t ∈ place p ls) :
    ∃ ks ms, ls = ks ++ ⟨t.kind, t.text⟩ :: ms ∧ t.pos = after p ks := by
  induction ls generalizing p with
  | nil => simp [place] at h
  | cons l ls ih =>
    rcases List.mem_cons.1 h with rfl | h
    · exact ⟨[], ls, rfl, rfl⟩
    · obtain ⟨ks, ms, rfl, hpos⟩ := ih h
      exact ⟨l :: ks, ms, rfl, hpos⟩

theorem line_eq {s : Text} {t : Token} (h : t ∈ ofText s) :
    t.pos.line = (s.take t.pos.offset).count newline + 1 := by
  obtain ⟨ks, ms, hls, hpos⟩ := exists_of_mem_place h
  have hoffset : t.pos.offset = (Lexeme.spelling ks).length := by
    rw [hpos, after_offset]
    exact Nat.zero_add _
  have hbefore : s.take t.pos.offset = Lexeme.spelling ks := by
    rw [hoffset, ← Lexeme.spelling_ofText s, hls, Lexeme.spelling_append, List.take_left]
  rw [hbefore, hpos, after_line]
  exact Nat.add_comm _ _

theorem pairwise_offset (s : Text) :
    (ofText s).Pairwise fun t u => t.pos.offset < u.pos.offset := by
  have hplace {ls : List Lexeme} {rest : Text} (hc : Lexeme.Chain ls rest) (p : Pos) :
      (place p ls).Pairwise fun t u => t.pos.offset < u.pos.offset := by
    induction ls generalizing p with
    | nil => exact .nil
    | cons l ls ih =>
      refine List.pairwise_cons.2 ⟨fun u hu => ?_, ih hc.2 _⟩
      obtain ⟨a, tail, htext, _⟩ := hc.1
      have := (offset_of_mem_place hu).1
      rw [Pos.advance_offset, htext, List.length_cons] at this
      dsimp only
      omega
  exact hplace (Lexeme.chain_ofText s) Pos.start

end Token

namespace Method

open Token

theorem declaration?_extend {ts : List Token} {d : Declaration} (h : declaration? ts = some d)
    (us : List Token) : declaration? (ts ++ us) = some { d with rest := d.rest ++ us } := by
  obtain ⟨s, _, rfl, hread⟩ := exists_site (rfl : virtualWord.isWord "virtual" = true) h
  obtain ⟨zero, semicolon, hmark, htokens⟩ := hread.tokens
  -- it is read from the tokens up to its semicolon
  have hends : Ends (s.written ++ [s.mark, zero, semicolon]) :=
    ⟨semicolon, by rw [List.getLast?_append]; rfl, hmark.semicolon⟩
  have hsplit : ts = (s.written ++ [s.mark, zero, semicolon]) ++ s.decl.rest := by simp [htokens]
  rw [hsplit, declaration?_append hends, Option.map_eq_some_iff] at h
  obtain ⟨d, hd, hdecl⟩ := h
  have hrest : d.rest ++ s.decl.rest = s.decl.rest := congrArg Declaration.rest hdecl
  rw [hsplit, List.append_assoc, declaration?_append hends, hd, ← hdecl, hrest]
  simp [← List.append_assoc, hrest]

namespace Site

def extend (us : List Token) (s : Site) : Site :=
  { s with decl := { s.decl with rest := s.decl.rest ++ us } }

theorem ReadFrom.extend {s : Site} {ts : List Token} (h : s.ReadFrom ts) (us : List Token) :
    (s.extend us).ReadFrom (ts ++ us) := by
  obtain ⟨zero, semicolon, hmark, htokens⟩ := h.tokens
  refine ⟨h.keyword, declaration?_extend h.read us, ⟨zero, semicolon, hmark, ?_⟩, h.type, h.name,
    h.opener, h.close, h.qualifiers⟩
  rw [htokens, List.append_assoc]
  rfl

end Site
end Method

namespace Interface

open Token

theorem Visit.StandsIn.exists_cut {s : Text} {v : Visit}
    (h : v.StandsIn (significant (Token.ofText s))) :
    ∃ ks ms, Lexeme.ofText s = ks ++ Lexeme.openBrace :: ms ∧
      v.head.brace = ⟨.punct, ['{'], after Pos.start ks⟩ ∧
      v.head.rest = significant (place ((after Pos.start ks).advance ['{']) ms) := by
  obtain ⟨before, lead, hts, _, hbrace, _⟩ := h
  have hsplit : significant (Token.ofText s) = (before ++ v.key :: lead) ++
      v.head.brace :: v.head.rest := by
    rw [hts, List.append_assoc, List.cons_append]
  obtain ⟨ks, ms, hls, hpos, hrest⟩ := significant_split hsplit
  obtain ⟨hk, ht⟩ := isPunct_iff.1 hbrace
  rw [hk, ht] at hls
  rw [hpos, ht] at hrest
  have hbrace : ∀ b : Token, b.kind = .punct → b.text = ['{'.toUInt8] → b.pos = after Pos.start ks →
      b = ⟨.punct, ['{'], after Pos.start ks⟩ := by
    rintro ⟨k, text, pos⟩ rfl rfl rfl
    rfl
  exact ⟨ks, ms, hls, hbrace _ hk ht hpos, hrest⟩

theorem offset_after_start (ks : List Lexeme) :
    (after Pos.start ks).offset = (Lexeme.spelling ks).length := by
  rw [after_offset]
  exact Nat.zero_add _

theorem offset_closer (ks inner : List Lexeme) :
    (closerBehind ((after Pos.start ks).advance ['{']) inner).pos.offset =
      (Lexeme.spelling ks).length + (Lexeme.spelling inner).length + 1 := by
  rw [closerBehind, after_offset, Pos.advance_offset, offset_after_start, List.length_singleton]
  omega

section Cut

variable {s : Text} {ks inner rest : List Lexeme}
  (h : Lexeme.ofText s = ks ++ Lexeme.openBrace :: (inner ++ Lexeme.closeBrace :: rest))
include h

theorem place_inner : place ((after Pos.start ks).advance ['{']) inner =
    (Token.ofText (Lexeme.spelling inner)).map (moved (after Pos.start ks).behind) := by
  have hline : 1 ≤ (after Pos.start ks).line := by
    rw [after_line]
    exact Nat.le_add_right _ _
  rw [← behind_start hline, place_behind (Nat.le_refl _), Token.ofText, Lexeme.ofText_inner h]

theorem stripComments_cut :
    ∃ x y, stripComments s = x ++ stripComments (Lexeme.spelling inner) ++ y ∧
    x.length = (Lexeme.spelling ks).length + 1 := by
  refine ⟨Lexeme.bare (ks ++ [Lexeme.openBrace]), Lexeme.bare (Lexeme.closeBrace :: rest), ?_, ?_⟩
  · rw [Lexeme.stripComments_eq, Lexeme.stripComments_eq, Lexeme.ofText_inner h, h,
      ← Lexeme.bare_append, ← Lexeme.bare_append]
    simp
  · rw [Lexeme.length_bare, Lexeme.spelling_append, List.length_append]
    rfl

end Cut

/-- The closer that counting bytes finds in masked text is the one that matches among the tokens; if
there is none, the scope is reported to be open. -/
theorem Visit.StandsIn.scan_eq {s : Text} {v : Visit}
    (h : v.StandsIn (significant (Token.ofText s))) : v.scan s = match matchBrace 0 v.head.rest with
      | none => .error (.unbalanced v.head.brace.pos.offset ((mask s).drop v.head.brace.pos.offset))
      | some (_, closer, _) =>
          .ok ⟨Text.slice (mask s) (v.head.brace.pos.offset + 1) closer.pos.offset,
          closer.pos.offset + 1⟩ := by
  obtain ⟨ks, ms, hls, hbrace, hrest⟩ := h.exists_cut
  have hoffset : v.head.brace.pos.offset = (Lexeme.spelling ks).length := by
    rw [hbrace, offset_after_start]
  rw [hrest, matchBrace_place, Visit.scan, hoffset, Lexeme.scanBlock_mask hls]
  cases hr : Lexeme.splitBrace 0 ms with
  | none =>
    have hlen : (ks.flatMap (Lexeme.blanked Lexeme.isMasked)).length =
        (Lexeme.spelling ks).length := by
      simp [Lexeme.spelling, List.length_flatMap]
    rw [Lexeme.mask_eq, hls, List.flatMap_append, ← hlen, List.drop_left]
    rfl
  | some r =>
    obtain ⟨inner, rest⟩ := r
    have hinner := Lexeme.slice_body (Lexeme.length_blanked Lexeme.isMasked) ks inner rest
    rw [← Lexeme.eq_of_splitBrace hr, ← hls, ← Lexeme.mask_eq] at hinner
    simp only [Option.map_some, offset_closer]
    rw [← hinner]
    rfl

/-- The body of a definition from its brace to the closer, seen in three ways. -/
structure Views (s : Text) (v : Visit) (c : Scope) (inner : List Token) (closer : Token) :
    Prop where
  matched : ∃ behind, matchBrace 0 v.head.rest = some (inner, closer, behind)
  bytes : c.stop = closer.pos.offset + 1
  /-- So do the tokens that lie before the end of the scan. -/
  inside : v.inside c = inner ++ [closer]
  /-- The body read alone has the tokens of the whole text between the two braces. -/
  text : ∃ before behind, Token.ofText s = before ++ v.head.brace ::
    ((Token.ofText (v.body s c)).map (moved v.head.brace.pos.behind) ++ closer :: behind)
  /-- Those that carry meaning are the ones between the matching braces. -/
  alone : inner = (significant (Token.ofText (v.body s c))).map (moved v.head.brace.pos.behind)
  /-- Without comments it is the same part of the whole text without comments. -/
  bare : ∃ x y, stripComments s = x ++ stripComments (v.body s c) ++ y ∧
      x.length = v.head.brace.pos.offset + 1

theorem exists_views {s : Text} {v : Visit} (h : v.StandsIn (significant (Token.ofText s)))
    {c : Scope} (hc : v.scan s = .ok c) : ∃ inner closer, Views s v c inner closer := by
  obtain ⟨ks, ms, hls, hbrace, hrest⟩ := h.exists_cut
  have hmatch := matchBrace_place 0 ((after Pos.start ks).advance ['{']) ms
  rw [← hrest] at hmatch
  rw [h.scan_eq, hmatch] at hc
  cases hr : Lexeme.splitBrace 0 ms with
  | none =>
    rw [hr] at hc
    cases hc
  | some r =>
    obtain ⟨inner, rest⟩ := r
    rw [hr] at hc hmatch
    rw [Lexeme.eq_of_splitBrace hr] at hls
    have hoffset : v.head.brace.pos.offset = (Lexeme.spelling ks).length := by
      rw [hbrace, offset_after_start]
    have hstop : c.stop = (Lexeme.spelling ks).length + (Lexeme.spelling inner).length + 2 := by
      rw [← Except.ok.inj hc]
      exact congrArg (· + 1) (offset_closer ks inner)
    have hbody : v.body s c = Lexeme.spelling inner := by
      rw [Visit.body, hoffset, hstop]
      exact Lexeme.slice_inner hls
    have hpos : v.head.brace.pos = after Pos.start ks := by rw [hbrace]
    refine ⟨_, _, ⟨_, hmatch⟩, ?_, ?_, ?_, ?_, ?_⟩
    · rw [hstop]
      exact congrArg (· + 1) (offset_closer ks inner).symm
    · rw [Visit.inside, hrest]
      refine (takeWhile_body hr ?_).1
      rw [hstop, Pos.advance_offset, offset_after_start, List.length_singleton]
      omega
    · rw [hbody, hpos, ← place_inner hls, hbrace, Token.ofText, hls, place_append, place_cons]
      exact ⟨_, _, congrArg (place Pos.start ks ++ _ :: ·) (place_append _ _ _)⟩
    · rw [hbody, hpos, ← significant_moved, ← place_inner hls]
    · rw [hbody, hoffset]
      exact stripComments_cut hls

/-- The methods that are read from the body alone are those read from the tokens between the braces,
each on its line in the whole text. -/
theorem Views.collect_eq {s : Text} {v : Visit} {c : Scope} {inner : List Token} {closer : Token}
    (h : Views s v c inner closer) :
    Method.collect (stripComments s) 0 inner =
      (Method.ofBody (v.body s c)).map (Method.lower (v.head.brace.pos.line - 1)) := by
  obtain ⟨x, y, hstrip, hx⟩ := h.bare
  have hmoves := moves_moved v.head.brace.pos.behind
  have hoffset (t : Token) : (moved v.head.brace.pos.behind t).pos.offset =
      x.length + t.pos.offset := by
    rw [hx]
    rfl
  have hspans :=
    sameSpans_within hmoves (z := y) (fun t _ => hoffset t) (stop_le_strip (v.body s c))
  rw [h.alone, hstrip]
  exact Method.collect_transfer hmoves 0 (fun t _ => Nat.add_comm _ _) hspans

theorem Views.one_le_line {s : Text} {v : Visit} {c : Scope} {inner : List Token} {closer : Token}
    (h : Views s v c inner closer) : 1 ≤ v.head.brace.pos.line := by
  obtain ⟨before, behind, hs⟩ := h.text
  rw [line_eq (s := s) (by simp [hs])]
  exact Nat.le_add_left 1 _

theorem methods_of_ofHead {scopes : List OpenScope} {key : Token} {head : Head} {body : Text}
    {i : Interface} (hline : 1 ≤ head.brace.pos.line) (h : ofHead scopes key head body = .ok i) :
    i.methods = (Method.ofBody body).map (Method.lower (head.brace.pos.line - 1)) := by
  have hlower (m : Method) : { m with line := m.line + head.brace.pos.line - 1 } =
      m.lower (head.brace.pos.line - 1) := by
    simp only [Method.lower, Int.natCast_sub hline, Int.natCast_one, Int.add_sub_assoc]
  unfold ofHead at h
  split at h
  · cases h
  · rw [← Except.ok.inj h]
    simp only [hlower]

/-- The methods of an interface are read where they stand in the whole text, one behind the
other. -/
theorem exists_sites_of_ofHead {s : Text} {v : Visit}
    (hv : v.StandsIn (significant (Token.ofText s))) {c : Scope} (hc : v.scan s = .ok c)
    {i : Interface} (hi : ofHead v.scopes v.key v.head (v.body s c) = .ok i) :
    ∃ sites : List Method.Site, i.methods = sites.map (Method.Site.method (stripComments s)) ∧
      (sites.map Method.Site.keyword).Sublist (v.inside c) ∧
      (sites.map Method.Site.keyword).Pairwise (fun t u => t.pos.offset < u.pos.offset) ∧
      ∀ σ ∈ sites, σ.keyword.pos.line = (s.take σ.keyword.pos.offset).count newline + 1 ∧
        ∃ before behind, significant (Token.ofText s) = before ++ σ.keyword :: behind ∧
        σ.ReadFrom behind := by
  obtain ⟨inner, closer, hviews⟩ := exists_views hv hc
  obtain ⟨sites, hsites, hsub, hread⟩ := Method.exists_sites (stripComments s) 0 inner
  obtain ⟨rest, hmatch⟩ := hviews.matched
  obtain ⟨before, lead, htokens, _⟩ := hv
  have hwhole : significant (Token.ofText s) =
      (before ++ v.key :: (lead ++ [v.head.brace])) ++ (inner ++ closer :: rest) := by
    rw [htokens, (eq_of_matchBrace hmatch).2]
    simp
  have hinner : inner.Sublist (significant (Token.ofText s)) := by
    rw [hwhole]
    exact (List.sublist_append_left _ _).trans (List.sublist_append_right _ _)
  have hkeywords : (sites.map Method.Site.keyword).Sublist (Token.ofText s) :=
    hsub.trans (hinner.trans List.filter_sublist)
  -- behind the closer a site goes on as far as the whole text does
  have hkeyword (us : List Token) : (Method.Site.keyword ∘ Method.Site.extend us) =
      Method.Site.keyword := rfl
  have hmethod (us : List Token) (source : Text) :
      (Method.Site.method source ∘ Method.Site.extend us) = Method.Site.method source := rfl
  refine ⟨sites.map (Method.Site.extend (closer :: rest)), ?_, ?_, ?_, ?_⟩
  · rw [List.map_map, hmethod, ← hsites, hviews.collect_eq]
    exact methods_of_ofHead hviews.one_le_line hi
  · rw [List.map_map, hkeyword, hviews.inside]
    exact hsub.trans (List.sublist_append_left _ _)
  · rw [List.map_map, hkeyword]
    exact (pairwise_offset s).sublist hkeywords
  · intro σ hσ
    obtain ⟨σ, hmem, rfl⟩ := List.mem_map.1 hσ
    have hin : σ.keyword ∈ Token.ofText s := hkeywords.subset (List.mem_map_of_mem hmem)
    refine ⟨line_eq hin, ?_⟩
    obtain ⟨front, behind, hsplit, hσ⟩ := hread σ hmem
    refine ⟨before ++ v.key :: (lead ++ [v.head.brace]) ++ front, behind ++ closer :: rest, ?_,
      hσ.extend _⟩
    rw [hwhole, hsplit]
    simp [Method.Site.extend]

/-- The three views of a class body agree, for every class definition that a search comes to and
that is closed; and the methods of an interface stand in the text on the lines they tell, one behind
the other. -/
theorem locate_views (s : Text) :
    locate s = decided s (visits s) ∧
    (∀ v ∈ visits s, ∀ c, v.scan s = .ok c → ∃ inner closer, Views s v c inner closer) ∧
    ∀ i, locate s = .ok i → ∃ v ∈ visits s, ∃ c, v.scan s = .ok c ∧ ∃ sites : List Method.Site,
      i.methods = sites.map (Method.Site.method (stripComments s)) ∧
      (sites.map Method.Site.keyword).Sublist (v.inside c) ∧
      (sites.map Method.Site.keyword).Pairwise (fun t u => t.pos.offset < u.pos.offset) ∧
      ∀ σ ∈ sites, σ.keyword.pos.line = (s.take σ.keyword.pos.offset).count newline + 1 ∧
        ∃ before behind, significant (Token.ofText s) = before ++ σ.keyword :: behind ∧
        σ.ReadFrom behind := by
  refine ⟨locate_eq_decided s, ?_, ?_⟩
  · intro v hv c hc
    exact exists_views (standsIn_of_mem_visits hv) hc
  · intro i hi
    obtain ⟨v, hv, c, hc, hhead⟩ := exists_visit_of_ok hi
    exact ⟨v, hv, c, hc, exists_sites_of_ofHead (standsIn_of_mem_visits hv) hc hhead⟩

end Interface
end HeaderBridge
