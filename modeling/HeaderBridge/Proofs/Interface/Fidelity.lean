import HeaderBridge.Proofs.Interface.Tally
import HeaderBridge.Proofs.Source.Respaced

namespace HeaderBridge

open Token

namespace Lexeme

theorem count_spelling_filter (p : Lexeme → Bool) (b : UInt8) (ls : List Lexeme) :
    (spelling ls).count b =
      (spelling (ls.filter p)).count b + (spelling (ls.filter fun l => !p l)).count b := by
  induction ls with
  | nil => rfl
  | cons l ls ih =>
    rw [spelling_cons, List.count_append, ih, List.filter_cons, List.filter_cons]
    cases p l with
    | true =>
      simp only [if_true, Bool.not_true, Bool.false_eq_true, if_false, spelling_cons,
        List.count_append]
      omega
    | false =>
      simp only [Bool.false_eq_true, if_false, Bool.not_false, if_true, spelling_cons,
        List.count_append]
      omega

end Lexeme

namespace Token

def texts (ts : List Token) : Text := ts.flatMap Token.text

theorem spelling_map_lexeme (ts : List Token) : Lexeme.spelling (ts.map lexeme) = texts ts := by
  rw [Lexeme.spelling, List.flatMap_map]
  rfl

theorem ink_sublist (ts : List Token) : (ink ts).Sublist (texts ts) :=
  List.Sublist.flatMap_right ts fun t _ => Text.solid_sublist t.text

theorem map_lexeme_significant (p : Pos) (ls : List Lexeme) :
    (significant (place p ls)).map lexeme = ls.filter (·.kind.isSignificant) := by
  induction ls generalizing p with
  | nil => rfl
  | cons l ls ih =>
    rw [place_cons, significant, List.filter_cons, List.filter_cons]
    split
    · exact congrArg (l :: ·) (ih (p.advance l.text))
    · exact ih (p.advance l.text)

section Shown

variable {text : Text} {ts : List Token} (hread : Lexeme.meaningful text = ts.map lexeme)
  (hcount : ∀ b : UInt8, b ≠ ' ' → text.count b ≤ (ink ts).count b)
include hread hcount

theorem count_of_meaningful {b : UInt8} (hb : b ≠ ' ') :
    text.count b = (texts ts).count b ∧ (ink ts).count b = (texts ts).count b ∧
      (Lexeme.spelling ((Lexeme.ofText text).filter fun l => !l.kind.isSignificant)).count b =
        0 := by
  have hsplit := Lexeme.count_spelling_filter (·.kind.isSignificant) b (Lexeme.ofText text)
  rw [← Lexeme.meaningful, hread, spelling_map_lexeme, Lexeme.spelling_ofText] at hsplit
  have hle := hcount b hb
  have hink := (ink_sublist ts).count_le b
  omega

theorem clean_of_meaningful : ∀ l ∈ Lexeme.ofText text, l.kind.isComment = false := by
  intro l hl
  cases hc : l.kind.isComment with
  | false => rfl
  | true =>
    obtain ⟨as, bs, hcut⟩ := List.append_of_mem hl
    have hchain : Lexeme.Chain (as ++ l :: bs) [] := hcut ▸ Lexeme.chain_ofText text
    have hfits := (Lexeme.chain_append.1 hchain).2.1
    obtain ⟨a, ha, hspace⟩ : ∃ a ∈ l.text, a ≠ ' ' := by
      rcases hfits.comment_cases hc with ⟨t, ht, _⟩ | ⟨a, t, ht, rfl | rfl, _⟩
      · exact ⟨'/', by simp [ht], by decide⟩
      · exact ⟨'/', by simp [ht], by decide⟩
      · exact ⟨'#', by simp [ht], by decide⟩
    have hsig : l.kind.isSignificant = false := by simp [TokenKind.isSignificant, hc]
    have hmem : a ∈ Lexeme.spelling ((Lexeme.ofText text).filter fun l => !l.kind.isSignificant) :=
      List.mem_flatMap.2 ⟨l, List.mem_filter.2 ⟨hl, by simp [hsig]⟩, ha⟩
    exact absurd hmem (List.count_eq_zero.1 (count_of_meaningful hread hcount hspace).2.2)

theorem firm_of_meaningful {p : UInt8 → Bool} {source : Text} {stop : Nat}
    (hrow : Row p source stop ts) : ∀ t ∈ ts, Text.Firm t.text := by
  intro t ht
  obtain ⟨hsig, rest, hfits⟩ := hrow.fits_of_mem ht
  rcases Lexeme.firm_or_blank hfits hsig with hfirm | ⟨hsolid, _⟩
  · exact hfirm
  · obtain ⟨a, tail, htext, _⟩ := id hfits
    have htext : t.text = a :: tail := htext
    have hspace : a ≠ ' ' := by
      rintro rfl
      have := hfits.head_not_blank hsig ' '
        (by rw [show t.lexeme.text = t.text from rfl, htext]; rfl)
      exact absurd this (by decide)
    obtain ⟨as, bs, rfl⟩ := List.append_of_mem ht
    have hsame := (count_of_meaningful hread hcount hspace).2.1
    have has := (ink_sublist as).count_le a
    have hbs := (ink_sublist bs).count_le a
    have htexts : texts (as ++ t :: bs) = texts as ++ (a :: tail ++ texts bs) := by
      simp [texts, htext]
    rw [ink_append, ink_cons, show Text.solid t.text = [] from hsolid, htexts] at hsame
    simp only [List.count_append, List.count_cons_self, List.count_nil] at hsame
    omega

end Shown

end Token

namespace Parameter

variable {source text : Text} {stop : Nat} {prev : Token} {ts rest : List Token}
    (hprev : prev.isEdge = true)
include hprev

theorem respaced_declaration (source : Text) (ts : List Token)
    (hrow : Row Lexeme.isBlankByte source stop (splitDefault {} none ts).1)
    (hfirm : ∀ t ∈ (splitDefault {} none ts).1, Text.Firm t.text)
    (h : Respaced (lastOf prev (splitDefault {} none ts).1) rest text) :
    Respaced prev ((splitDefault {} none ts).1 ++ rest) ((ofTokens source ts).declaration ++
      text) := by
  rcases declaration_ofTokens hrow with hdecl | ⟨before, name, hparts, hident, hdecl⟩
  · rw [hdecl]
    exact .span hprev hrow hfirm h
  · rw [hparts] at hrow hfirm h ⊢
    obtain ⟨_, _, hfits⟩ := hrow.fits_of_mem (t := name) (by simp)
    rw [lastOf_append, lastOf_cons] at h
    rw [hdecl, List.append_assoc, List.append_assoc, List.append_assoc, List.singleton_append]
    exact .span hprev hrow.left (fun t ht => hfirm t (by simp [ht]))
      (.word _ hident (isInk_of_isIdent hfits hident).2 h)

theorem respaced_render (hrow : Row Lexeme.isBlankByte source stop ts)
    (hfirm : ∀ t ∈ ts, Text.Firm t.text) (hlost : isLost ts = false)
    (h : Respaced (lastOf prev ts) rest text) (hne : rest ≠ []) :
    Respaced prev (ts ++ rest) ((ofTokens source ts).render true ++ text) := by
  rcases splitDefault_parts {} none ts with ⟨hnone, hts⟩ | ⟨equals, default, hequals, hsome, hts⟩
  · rcases render_ofTokens source ts with ⟨_, hrender⟩ | ⟨_, hsome, _⟩
    · rw [hrender]
      have hdecl := respaced_declaration hprev source ts (hts ▸ hrow) (hts ▸ hfirm) (hts ▸ h)
      rwa [← hts] at hdecl
    · simp [hnone] at hsome
  · rcases render_ofTokens source ts with ⟨hnone, _⟩ | ⟨default', hsome', hrender⟩
    · simp [hsome] at hnone
    · obtain rfl : default = default' := by simpa [hsome] using hsome'
      have hedge : equals.isEdge = true := by simp [isEdge, hequals]
      have hdefault : default ≠ [] := by
        rintro rfl
        simp [isLost, hsome] at hlost
      have hrow' := hrow
      have hfirm' := hfirm
      rw [hts] at hrow' hfirm' h
      rw [lastOf_append, lastOf_cons] at h
      have hspan : spanText source default ≠ [] := by
        obtain ⟨u, us, rfl⟩ := List.exists_cons_of_ne_nil hdefault
        rw [hrow'.right.tail.spanText_firm fun t ht => hfirm' t (by simp [List.mem_cons.1 ht])]
        simp [Text.collapse_ne_nil_of_firm (hfirm' u (by simp))]
      have hvalue :
          Respaced equals (default ++ rest) ((" " : Text) ++ (spanText source default ++ text)) :=
        .space (.span hedge hrow'.right.tail (fun t ht => hfirm' t (by simp [ht])) h) hedge
          (by simp [hne])
      have hsign : Respaced (lastOf prev (splitDefault {} none ts).1) (equals :: (default ++ rest))
          ((" " : Text) ++
            (('=' : UInt8) :: ((" " : Text) ++ (spanText source default ++ text)))) :=
        .sign _ " " (fun b hb => List.mem_singleton.1 hb) hedge hequals (by decide) hvalue
      have hwritten : (" = " : Text) = (" " : Text) ++ (('=' : UInt8) :: (" " : Text)) := by decide
      have hdecl :=
        respaced_declaration hprev source ts hrow'.left (fun t ht => hfirm' t (by simp [ht])) hsign
      rw [hrender, if_neg hspan, hwritten]
      have hjoin : ts ++ rest = (splitDefault {} none ts).1 ++ equals :: (default ++ rest) := by
        conv => lhs; rw [hts]
        simp
      rw [hjoin]
      simpa using hdecl

theorem respaced_list {parts : List (List Token)} (hcommas : Commas parts ts)
    (hrow : Row Lexeme.isBlankByte source stop ts) (hfirm : ∀ t ∈ ts, Text.Firm t.text)
    (hlost : ∀ part ∈ parts, isLost part = false) (h : Respaced (lastOf prev ts) rest text)
    (hne : rest ≠ []) : Respaced prev (ts ++ rest)
      (Text.join ", " (parts.map fun part => (ofTokens source part).render true) ++ text) := by
  induction hcommas generalizing prev stop with
  | last part =>
    have := respaced_render hprev hrow hfirm (hlost part (by simp)) h hne
    simpa [Text.join, List.intercalate] using this
  | @cons part ts parts comma hcomma hcommas ih =>
    have hedge : comma.isEdge = true := by simp [isEdge, hcomma]
    rw [lastOf_append, lastOf_cons] at h
    have hnext := ih hedge hrow.right.tail (fun t ht => hfirm t (by simp [ht]))
      (fun p hp => hlost p (by simp [hp])) h
    have hsign : Respaced (lastOf prev part) (comma :: (ts ++ rest))
        ([] ++ ((',' : UInt8) :: ((" " : Text) ++
        (Text.join ", " (parts.map fun part => (ofTokens source part).render true) ++ text)))) :=
      .sign _ [] (by simp) hedge hcomma (by decide) (.space hnext hedge (by simp [hne]))
    have hpart :=
      respaced_render hprev hrow.left (fun t ht => hfirm t (by simp [ht]))
        (hlost part (by simp)) hsign
      (by simp)
    have hparts : parts ≠ [] := by
      cases hcommas <;> simp
    have hwritten (x : Text) : (", " : Text) ++ x = (',' : UInt8) :: ((" " : Text) ++ x) := by
      rw [show (", " : Text) = (',' : UInt8) :: (" " : Text) by decide, List.cons_append]
    rw [Text.join, List.map_cons, Text.intercalate_cons, if_neg (by simpa using hparts),
      ← Text.join, hwritten]
    simpa using hpart

end Parameter

namespace Method

variable {source text : Text} {stop : Nat} {prev : Token} {ts rest : List Token}

theorem respaced_qualifiers {c n : Bool} (h : ts.map lexeme = qualifierWords c n) :
    Respaced prev ts
      ((if c then (" const" : Text) else []) ++ if n then (" noexcept" : Text) else []) := by
  have hword (p : Token) {t : Token} {us : List Token} {w text : Text} (ht : t.lexeme = ⟨.ident, w⟩)
      (hw : ∀ b ∈ w, Text.isInk b = true) (hus : Respaced t us text) :
      Respaced p (t :: us) ((" " : Text) ++ (w ++ text)) := by
    obtain ⟨k, _, q⟩ := t
    obtain ⟨rfl, rfl⟩ := Lexeme.mk.inj ht
    exact .word p rfl hw hus
  have hconst : (" const" : Text) = (" " : Text) ++ ("const" : Text) := by decide
  have hnoexcept : (" noexcept" : Text) = (" " : Text) ++ ("noexcept" : Text) := by decide
  rw [hconst, hnoexcept]
  cases c with
  | false =>
    cases n with
    | false =>
      obtain rfl : ts = [] := by simpa [qualifierWords] using h
      exact .nil prev
    | true =>
      obtain ⟨t, us, rfl, ht, hus⟩ := List.map_eq_cons_iff.1 h
      obtain rfl := List.map_eq_nil_iff.1 hus
      simpa using hword prev ht (by decide +kernel) (.nil t)
  | true =>
    obtain ⟨t, us, rfl, ht, hus⟩ := List.map_eq_cons_iff.1 h
    cases n with
    | false =>
      obtain rfl := List.map_eq_nil_iff.1 hus
      simpa using hword prev ht (by decide +kernel) (.nil t)
    | true =>
      obtain ⟨u, vs, rfl, hu, hvs⟩ := List.map_eq_cons_iff.1 hus
      obtain rfl := List.map_eq_nil_iff.1 hvs
      simpa using hword prev ht (by decide +kernel) (hword t hu (by decide +kernel) (.nil u))

theorem respaced_parameters (hprev : prev.isEdge = true)
    (hrow : Row Lexeme.isBlankByte source stop ts)
    (hfirm : ∀ t ∈ if Parameter.isVoidList ts then [] else ts, Text.Firm t.text)
    (hlost : ∀ part ∈ Parameter.segments ts, Parameter.isLost part = false)
    (h : Respaced (lastOf prev (if Parameter.isVoidList ts then [] else ts)) rest text)
    (hne : rest ≠ []) : Respaced prev ((if Parameter.isVoidList ts then [] else ts) ++ rest)
      (Text.join ", " ((Parameter.listOfTokens source ts).map (Parameter.render true)) ++
        text) := by
  by_cases hvoid : Parameter.isVoidList ts = true
  · simpa [Parameter.listOfTokens, hvoid, Text.join, List.intercalate, lastOf] using h
  · simp only [hvoid, if_false, Bool.false_eq_true] at hfirm h ⊢
    by_cases hempty : ts = []
    · subst hempty
      simpa [Parameter.listOfTokens, Text.join, List.intercalate, lastOf] using h
    · have hlist :=
        Parameter.respaced_list hprev (Parameter.commas_segments ts) hrow hfirm hlost h hne
      simpa [Parameter.listOfTokens, hvoid, hempty, Function.comp_def] using hlist

/-- A method is written with the tokens it was declared with, if none of them is blank and no equals
sign is lost. -/
theorem Site.respaced_signature {s : Site} (h : s.ReadFrom ts)
    (hrow : Row Lexeme.isBlankByte source stop s.written) (hfirm : ∀ t ∈ s.kept, Text.Firm t.text)
    (hlost : ∀ part ∈ Parameter.segments s.decl.params, Parameter.isLost part = false) :
    ∃ t us, s.kept = t :: us ∧ Respaced ⟨.punct, [], t.pos⟩ s.kept (s.method source).signature := by
  obtain ⟨t, us, htype⟩ := List.exists_cons_of_ne_nil h.type
  have hopen : s.opener.isEdge = true := by simp [isEdge, h.opener]
  have hclose : s.close.isEdge = true := by simp [isEdge, h.close]
  obtain ⟨_, _, hname⟩ := hrow.fits_of_mem (t := s.decl.name) (by simp [written])
  have hqualifiers : Respaced s.close s.qualifiers (s.method source).qualifiers :=
    respaced_qualifiers h.qualifiers
  have hend (p : Token) : Respaced p (s.close :: s.qualifiers)
      ([] ++ ((')' : UInt8) :: (s.method source).qualifiers)) :=
    .sign p [] (by simp) hclose h.close (by decide) hqualifiers
  have hparams := respaced_parameters hopen hrow.right.tail.tail.left
    (fun u hu => hfirm u (by simp [kept, hu])) hlost (hend _) (by simp)
  have hlist := Respaced.sign s.decl.name [] (by simp) hopen h.opener (by decide) hparams
  have hmiddle := Respaced.word (lastOf t us) h.name (isInk_of_isIdent hname h.name).2 hlist
  have hrow' : Row Lexeme.isBlankByte source stop (t :: us) := htype ▸ hrow.left
  have hseam : Seam ⟨.punct, [], t.pos⟩ t [] := .inl ⟨fun _ => rfl, fun _ => rfl⟩
  have hstart := Respaced.cons [] (by simp) hseam (.row hrow'.tail hmiddle)
  have hspan : (s.method source).returnType = Text.collapse t.text ++ follow t.stop us := by
    have := hrow'.spanText_firm fun u hu =>
      hfirm u (by rw [kept, htype]; exact List.mem_append_left _ hu)
    rwa [← htype] at this
  have hsignature : (s.method source).signature =
      [] ++ (Text.collapse t.text ++ (follow t.stop us ++
      ((" " : Text) ++ (s.decl.name.text ++ ([] ++ (('(' : UInt8) ::
        (Text.join ", "
          ((Parameter.listOfTokens source s.decl.params).map (Parameter.render true)) ++
          ([] ++ ((')' : UInt8) :: (s.method source).qualifiers))))))))) := by
    have hopen : ("(" : Text) = [('(' : UInt8)] := by decide
    have hclose : (")" : Text) = [(')' : UInt8)] := by decide
    rw [signature, hspan, hopen, hclose]
    simp [parameterList, method, ofDeclaration]
  refine ⟨t, _, by rw [kept, htype, List.cons_append], ?_⟩
  rw [hsignature, kept, htype, List.cons_append]
  exact hstart

namespace Site

variable {s : Site}

/-- The tokens to show stand in a row as well, the word that is left out being one more gap. -/
theorem row_kept (hrow : Row Lexeme.isBlankByte source stop (s.written ++ [s.mark])) :
    Row isFiller source stop (s.kept ++ [s.mark]) := by
  have hfiller : ∀ b, Lexeme.isBlankByte b = true → isFiller b = true :=
    forall_byte (by decide +kernel)
  have hrow := hrow.mono hfiller
  unfold kept
  unfold written at hrow
  split
  · rename_i hvoid
    unfold Parameter.isVoidList at hvoid
    split at hvoid
    · rename_i t hparams
      obtain ⟨_, htext⟩ := isWord_iff.1 hvoid
      rw [hparams] at hrow
      have hskip : ∀ b ∈ t.text, isFiller b = true := by
        rw [htext]
        decide +kernel
      have hrow : Row isFiller source stop
          ((s.decl.type ++ [s.decl.name, s.opener]) ++
            t :: (s.close :: s.qualifiers ++ [s.mark])) := by
        simpa using hrow
      simpa using hrow.skip hskip
    · simp at hvoid
  · exact hrow

/-- What keeps a written declaration as it was: folding its blanks changes no token, every equals
sign has a default argument behind it, and no quote finds a partner on the one line that is
written. -/
structure Intact (source : Text) (s : Site) : Prop where
  folded : ∀ t ∈ s.kept, Text.collapse t.text = t.text
  defaults : ∀ part ∈ Parameter.segments s.decl.params, Parameter.isLost part = false
  alone : ∀ t ∈ s.kept, StaysAlone source s.mark.pos.offset t

theorem meaningful_signature_iff (h : s.ReadFrom ts)
    (hrow : Row Lexeme.isBlankByte source stop (s.written ++ [s.mark])) :
    Lexeme.meaningful (s.method source).signature = s.kept.map lexeme ↔ s.Intact source := by
  have hkept := row_kept hrow
  have hown {t : Token} {us : List Token} (htokens : s.kept = t :: us) :
      Row isFiller source (Token.stop ⟨.punct, [], t.pos⟩) (s.kept ++ [s.mark]) := by
    rw [htokens] at hkept ⊢
    exact hkept.own
  constructor
  · intro hread
    have hcount (b : UInt8) (hb : b ≠ ' ') := count_signature hb h hrow.left
    have hle : ∀ b : UInt8, b ≠ ' ' → (s.method source).signature.count b ≤ (ink s.kept).count b :=
      fun b hb => Nat.le_of_add_right_le (hcount b hb)
    have hfirm := firm_of_meaningful hread hle hkept.left
    -- an equals sign that is not written would be missing among the bytes
    have hlost : (Parameter.segments s.decl.params).countP Parameter.isLost = 0 := by
      have hequals := hcount '=' (by decide)
      obtain ⟨hsame, hink, _⟩ := count_of_meaningful hread hle (b := '=') (by decide)
      rw [List.count_singleton_self] at hequals
      omega
    have hdefaults : ∀ part ∈ Parameter.segments s.decl.params, Parameter.isLost part = false := by
      intro part hpart
      simpa using List.countP_eq_zero.1 hlost part hpart
    obtain ⟨t, us, htokens, hwritten⟩ := respaced_signature h hrow.left hfirm hdefaults
    obtain ⟨hfolded, halone⟩ :=
      hwritten.folded_of_meaningful_eq (hown htokens) hfirm (clean_of_meaningful hread hle) hread
    exact ⟨hfolded, hdefaults, halone⟩
  · intro hintact
    have hfirm : ∀ t ∈ s.kept, Text.Firm t.text := by
      intro t ht
      obtain ⟨hsig, rest, hfits⟩ := hkept.left.fits_of_mem ht
      rcases Lexeme.firm_or_blank hfits hsig with hfirm | ⟨_, hnil⟩
      · exact hfirm
      · obtain ⟨a, tail, htext, _⟩ := hfits
        have hfold := hintact.folded t ht
        rw [show t.text = a :: tail from htext] at hfold
        rw [show t.lexeme.text = a :: tail from htext, hfold] at hnil
        simp at hnil
    obtain ⟨t, us, htokens, hwritten⟩ := respaced_signature h hrow.left hfirm hintact.defaults
    exact hwritten.meaningful_eq (hown htokens) hintact.folded hintact.alone

end Site

/-- Every method that is read from a class body stands at a site of its own there, and its signature
shows the tokens between the word `virtual` and the pure mark exactly if the site is intact. -/
theorem signature_tokens_iff (body : Text) : ∃ sites : List Site,
    ofBody body = sites.map (Site.method (stripComments body)) ∧
    ∀ s ∈ sites,
      (∃ before behind, significant (ofText body) = before ++ s.keyword :: behind ∧
        s.ReadFrom behind) ∧
      ((significant (ofText (s.method (stripComments body)).signature)).map lexeme =
        s.kept.map lexeme ↔ s.Intact (stripComments body)) := by
  have hrow : Row Lexeme.isBlankByte (stripComments body) 0 (significant (ofText body)) :=
    row_significant (x := []) (p := Pos.start) (Lexeme.chain_ofText body)
        (Lexeme.stripComments_eq body) rfl
  obtain ⟨sites, hbody, _, hsites⟩ :=
    exists_sites (stripComments body) 0 (significant (ofText body))
  refine ⟨sites, hbody, ?_⟩
  intro s hs
  obtain ⟨before, behind, htokens, hread⟩ := hsites s hs
  obtain ⟨zero, semicolon, _, hbehind⟩ := hread.tokens
  refine ⟨⟨before, behind, htokens, hread⟩, ?_⟩
  have hsite : Row Lexeme.isBlankByte (stripComments body) s.keyword.stop
      ((s.written ++ [s.mark]) ++ zero :: semicolon :: s.decl.rest) := by
    rw [htokens] at hrow
    simpa [hbehind] using hrow.right.tail
  rw [ofText, map_lexeme_significant]
  exact Site.meaningful_signature_iff hread hsite.left

/-- Two spaces in a literal are folded to one, so the literal is not written as it was declared. -/
theorem signature_folds_literal :
    let body : Text := "virtual void f(const char* s = \"a  b\") = 0;"
    let literal : Lexeme := ⟨.stringLiteral, "\"a  b\""⟩
    literal ∈ (significant (ofText body)).map lexeme ∧
      (ofBody body).map signature = [("void f(const char* s = \"a b\")" : Text)] ∧
      ∀ m ∈ ofBody body, literal ∉ (significant (ofText m.signature)).map lexeme := by
  refine ⟨?_, ?_, ?_⟩
  all_goals decide +kernel

end Method
end HeaderBridge
