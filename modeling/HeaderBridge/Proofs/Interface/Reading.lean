import HeaderBridge.Proofs.Interface.Printed

namespace HeaderBridge

/-- The lexemes stand at the place `p` of the text. -/
def StandsAt (source : Text) (p : Pos) (ls : List Lexeme) : Prop :=
  ∃ x y, source = x ++ Lexeme.spelling ls ++ y ∧ p.offset = x.length

namespace StandsAt

variable {source : Text} {p : Pos} {ls ms : List Lexeme}

theorem left (h : StandsAt source p (ls ++ ms)) : StandsAt source p ls := by
  obtain ⟨x, y, hs, hp⟩ := h
  exact ⟨x, Lexeme.spelling ms ++ y, by simp [hs], hp⟩

theorem right (h : StandsAt source p (ls ++ ms)) : StandsAt source (Token.after p ls) ms := by
  obtain ⟨x, y, hs, hp⟩ := h
  refine ⟨x ++ Lexeme.spelling ls, y, by simp [hs], ?_⟩
  rw [Token.after_offset, hp, List.length_append]

theorem tail {l : Lexeme} (h : StandsAt source p (l :: ls)) :
    StandsAt source (p.advance l.text) ls :=
  StandsAt.right (show StandsAt source p ([l] ++ ls) from h)

end StandsAt

open Lexeme Token

/-- What does not depend on places is the same for a field and for its tokens inside a text. -/
theorem fieldTokens_place {α : Type} (f : List Token → α) (hf : ∀ ts, f (ts.map pinned) = f ts)
    (p : Pos) (u : Text) : f (significant (place p (Lexeme.ofText u))) = f (fieldTokens u) := by
  rw [← hf, map_pinned_place p Pos.start, hf]
  rfl

theorem moves_pinned : Moves pinned := ⟨fun _ => rfl, fun _ => rfl⟩

section Field

variable {u : Text} (h : IsField u) (p : Pos)
include h

theorem spanText_field {source : Text} (hs : StandsAt source p (Lexeme.ofText u)) :
    spanText source (significant (place p (Lexeme.ofText u))) = u := by
  obtain ⟨x, y, hs, hp⟩ := hs
  rw [spanText_place hs hp, spelling_ofText, h.folded]
  · exact fun l hl => field_significant h (List.mem_of_head? hl) (field_first h l hl)
  · exact fun l hl => field_significant h (List.mem_of_getLast? hl) (field_last h l hl)

theorem field_not_semicolon :
    ∀ t ∈ significant (place p (Lexeme.ofText u)), t.isPunct ';' = false := by
  intro t ht
  obtain ⟨ks, ms, hls, _⟩ := significant_split (List.append_of_mem ht).choose_spec.choose_spec
  have hp := List.all_eq_true.1 h.plain ⟨t.kind, t.text⟩ (by simp [hls])
  cases hs : t.isPunct ';' with
  | false => rfl
  | true =>
    obtain ⟨hk, htext⟩ := isPunct_iff.1 hs
    rw [hk, htext] at hp
    exact absurd hp (by decide)

theorem field_ne_nil (hu : u ≠ []) : significant (place p (Lexeme.ofText u)) ≠ [] := by
  cases hls : Lexeme.ofText u with
  | nil =>
    have := spelling_ofText u
    rw [hls] at this
    exact absurd this.symm hu
  | cons l ls =>
    have := field_significant h (l := l) (by simp [hls]) (field_first h l (by simp [hls]))
    simp [significant, this]

theorem field_singleton {t : Token} (ht : significant (place p (Lexeme.ofText u)) = [t]) :
    u = t.text := by
  have hu := spelling_ofText u
  cases hls : Lexeme.ofText u with
  | nil => simp [hls, place, significant] at ht
  | cons l ls =>
    have hl := field_significant h (l := l) (by simp [hls]) (field_first h l (by simp [hls]))
    rw [hls, place_cons, significant, List.filter_cons, if_pos hl] at ht
    obtain ⟨rfl, hrest⟩ := List.cons.inj ht
    have hnil : ls = [] := by
      rcases List.eq_nil_or_concat ls with rfl | ⟨init, m, rfl⟩
      · rfl
      · -- the last lexeme would be a second token
        have hm := field_significant h (l := m) (by simp [hls])
          (field_last h m (by simp [hls, List.getLast?_cons]))
        rw [List.concat_eq_append, place_append, List.filter_append,
          List.append_eq_nil_iff] at hrest
        simp [place, hm] at hrest
    rw [hls, hnil, spelling_cons, spelling_nil, List.append_nil] at hu
    exact hu.symm

end Field

theorem covers_field {bar : Token → Bool} (hbar : ∀ t, bar t.pinned = bar t) (p : Pos) (u : Text)
    {prev : Option Token} (hprev : prev.any isIdent = false)
    (h : Nesting.covers bar {} none (fieldTokens u) = true) :
    Nesting.covers bar {} prev (significant (place p (Lexeme.ofText u))) = true := by
  have hnone : prev.any isIdent = (none : Option Token).any isIdent := hprev
  have hmap : ∀ ts : List Token, Nesting.covers bar {} none (ts.map pinned) =
      Nesting.covers bar {} none ts :=
    Nesting.covers_map moves_pinned hbar {} none
  rw [Nesting.covers_prev hnone, fieldTokens_place (Nesting.covers bar {} none) hmap p u]
  exact h

namespace Parameter

/-- What is known of a written parameter: its tokens around the name, and the default argument. -/
structure Written (source : Text) (p : Parameter) (type name default : List Token) : Prop where
  type_text : spanText source type = p.type
  type_nests : ∀ prev : Option Token, prev.any isIdent = false →
    Nesting.covers (fun t => t.isPunct ',' || t.isPunct '=') {} prev type = true
  type_ne_nil : type ≠ []
  type_single : ∀ t, type = [t] → p.type = t.text
  name_eq : name = [] ∧ p.name = [] ∧ findName type = none ∨
    ∃ t, name = [t] ∧ t.isIdent = true ∧ p.name = t.text ∧ p.name ≠ [] ∧
    isTrailingName type t = true
  default_eq : default = [] ∧ p.default = [] ∨
    ∃ t ts, default = t :: ts ∧ t.isPunct '=' = true ∧ spanText source ts = p.default ∧
      p.default ≠ [] ∧
      Nesting.covers (·.isPunct ',') {} (some t) ts = true
  not_semicolon : ∀ t ∈ type ++ (name ++ default), t.isPunct ';' = false

theorem exists_written {p : Parameter} (h : p.WellFormed) {source : Text} {pos : Pos}
    (hs : StandsAt source pos p.lexemes) : ∃ type name default,
      significant (place pos p.lexemes) = type ++ (name ++ default) ∧
      Written source p type name default := by
  have hbar : ∀ t : Token, (t.pinned.isPunct ',' || t.pinned.isPunct '=') =
      (t.isPunct ',' || t.isPunct '=') := fun _ => rfl
  have hfind : ∀ ts : List Token, (findName (ts.map pinned)).isNone = (findName ts).isNone := by
    intro ts
    rw [findName_map moves_pinned]
    cases findName ts <;> rfl
  have htrail (t : Token) (ts : List Token) : isTrailingName (ts.map pinned) t =
      isTrailingName ts t :=
    isTrailingName_map moves_pinned ts t
  have hname := h.name
  have hsplit := hs.right
  refine ⟨_, _, _,
    by rw [lexemes, place_append, place_append, significant_append, significant_append],
    spanText_field h.type pos hs.left,
      fun prev hprev => covers_field hbar pos p.type hprev h.type_nests,
    field_ne_nil h.type pos h.type_ne_nil, fun t ht => field_singleton h.type pos ht, ?_, ?_, ?_⟩
  · by_cases hn : p.name = []
    · rw [if_pos hn] at hname ⊢
      rw [← fieldTokens_place (fun ts => (findName ts).isNone) hfind pos] at hname
      exact .inl ⟨rfl, hn, Option.isNone_iff_eq_none.1 hname⟩
    · rw [if_neg hn] at hname ⊢
      refine .inr ⟨⟨.ident, p.name, _⟩, rfl, rfl, rfl, hn, ?_⟩
      rw [fieldTokens_place (isTrailingName · _) (htrail _)]
      exact hname.2
  · by_cases hd : p.default = []
    · rw [if_pos hd]
      exact .inl ⟨rfl, hd⟩
    · have hdefault := hsplit.right
      rw [if_neg hd] at hdefault ⊢
      have hcomma : ∀ t : Token, t.pinned.isPunct ',' = t.isPunct ',' := fun _ => rfl
      exact .inr ⟨⟨.punct, ['='], _⟩, _, rfl, rfl,
        spanText_field h.default _ hdefault.tail.tail.tail, hd,
        covers_field hcomma _ p.default rfl h.default_nests⟩
  · intro t ht
    simp only [List.mem_append] at ht
    rcases ht with ht | ht | ht
    · exact field_not_semicolon h.type pos t ht
    · by_cases hn : p.name = []
      · rw [if_pos hn] at ht
        simp [place, significant] at ht
      · rw [if_neg hn] at ht
        obtain rfl : t = ⟨.ident, p.name, _⟩ := List.mem_singleton.1 ht
        rfl
    · by_cases hd : p.default = []
      · rw [if_pos hd] at ht
        simp [place, significant] at ht
      · rw [if_neg hd] at ht
        rcases List.mem_cons.1 ht with rfl | ht
        · rfl
        · exact field_not_semicolon h.default _ t ht

theorem findName_concat {type : List Token} {t : Token} (hident : t.isIdent = true)
    (htrail : isTrailingName type t = true) : findName (type ++ [t]) = some ⟨type, t, []⟩ := by
  have hbounds : dropBounds 0 (type ++ [t]).reverse = some (t :: type.reverse) := by
    rw [List.reverse_append, List.reverse_singleton, List.singleton_append, dropBounds,
      not_isPunct_of_isIdent hident]
    rfl
  rw [findName, hbounds]
  simp [hident, htrail]

section Written

variable {source : Text} {p : Parameter} {type name default : List Token}
  (h : Written source p type name default)
include h

theorem Written.covers_declaration {prev : Option Token} (hprev : prev.any isIdent = false) :
    Nesting.covers (fun t => t.isPunct ',' || t.isPunct '=') {} prev (type ++ name) = true := by
  apply Nesting.covers_append rfl (h.type_nests prev hprev)
  rcases h.name_eq with ⟨rfl, _⟩ | ⟨t, rfl, hident, _⟩
  · rfl
  · have hsign : t.sign? = none := by
      have hk : t.kind = .ident := by simpa [isIdent] using hident
      simp [sign?, hk]
    apply Nesting.covers_singleton _ (.inl hsign)
    simp [not_isPunct_of_isIdent hident]

/-- A written parameter is balanced and has no comma outside its brackets. -/
theorem Written.covers {prev : Option Token} (hprev : prev.any isIdent = false) :
    Nesting.covers (·.isPunct ',') {} prev (type ++ (name ++ default)) = true := by
  rw [← List.append_assoc]
  apply Nesting.covers_append rfl
  · exact Nesting.covers_mono (fun t ht => by simp [ht]) (h.covers_declaration hprev)
  · rcases h.default_eq with ⟨rfl, _⟩ | ⟨t, ts, rfl, ht, _, _, hts⟩
    · rfl
    · have hfirst : Nesting.covers (·.isPunct ',') {} ((type ++ name).getLast?.or prev) [t] =
          true :=
        Nesting.covers_singleton (isPunct_unique ht (by decide))
          (.inr (.inl (sign?_of_isPunct ht (by decide)))) _
      exact Nesting.covers_append rfl hfirst hts

theorem Written.splitDefault : splitDefault {} none (type ++ (name ++ default)) =
    (type ++ name, default.head?.map fun _ => default.tail) := by
  rw [← List.append_assoc,
    splitDefault_of_covers (fun t ht => by simp [ht]) (h.covers_declaration rfl) rfl default]
  rcases h.default_eq with ⟨rfl, _⟩ | ⟨t, ts, rfl, ht, _⟩
  · simp [Parameter.splitDefault]
  · have htop : Nesting.isTop {} = true := by decide
    simp [Parameter.splitDefault, ht, htop]

theorem Written.ofTokens (hdecl : p.declarator = []) :
    ofTokens source (type ++ (name ++ default)) = p := by
  have hdefault : ((default.head?.map fun _ => default.tail).map (spanText source)).getD [] =
      p.default := by
    rcases h.default_eq with ⟨rfl, hd⟩ | ⟨t, ts, rfl, _, htext, _⟩
    · exact hd.symm
    · exact htext
  simp only [Parameter.ofTokens, h.splitDefault, hdefault]
  rcases h.name_eq with ⟨rfl, hn, hnone⟩ | ⟨t, rfl, hident, htext, _, htrail⟩
  · rw [List.append_nil, hnone]
    obtain ⟨ptype, pname, pdefault, pdecl⟩ := p
    simp_all [h.type_text]
  · have hempty : spanText source [] = [] := rfl
    rw [findName_concat hident htrail]
    obtain ⟨ptype, pname, pdefault, pdecl⟩ := p
    simp_all [h.type_text]

end Written

theorem exists_of_isVoidList {ts : List Token} (h : isVoidList ts = true) :
    ∃ t, ts = [t] ∧ t.text = "void" := by
  match ts, h with
  | [t], h =>
    simp only [isVoidList, isWord, Bool.and_eq_true, beq_iff_eq] at h
    exact ⟨t, rfl, h.2⟩

theorem Written.eq_void {source : Text} {p : Parameter} {type name default : List Token}
    (h : Written source p type name default) (hdecl : p.declarator = [])
    (hvoid : isVoidList (type ++ (name ++ default)) = true) : p = { type := "void" } := by
  obtain ⟨t, ht, htext⟩ := exists_of_isVoidList hvoid
  obtain ⟨u, us, hu⟩ := List.exists_cons_of_ne_nil h.type_ne_nil
  rw [hu, List.cons_append, List.cons.injEq, List.append_eq_nil_iff, List.append_eq_nil_iff] at ht
  obtain ⟨rfl, rfl, rfl, rfl⟩ := ht
  have htype : p.type = "void" := (h.type_single _ hu).trans htext
  have hname : p.name = [] := by
    rcases h.name_eq with ⟨_, hn, _⟩ | ⟨t, ht, _⟩
    · exact hn
    · simp at ht
  have hdefault : p.default = [] := by
    rcases h.default_eq with ⟨_, hd⟩ | ⟨t, ts, ht, _⟩
    · exact hd
    · simp at ht
  obtain ⟨ptype, pname, pdefault, pdecl⟩ := p
  simp_all

/-- The tokens of a written list: the parameters are told apart by the commas between them. -/
theorem read_list {ps : List Parameter} (hne : ps ≠ []) (h : ∀ p ∈ ps, p.WellFormed) {source : Text}
    {pos : Pos} (hs : StandsAt source pos (listLexemes ps)) {prev : Option Token}
    (hprev : prev.any isIdent = false) :
    (∃ segments, splitCommas {} prev (significant (place pos (listLexemes ps))) = (segments, {}) ∧
      segments.map (ofTokens source) = ps) ∧
    Nesting.covers (fun _ => false) {} prev (significant (place pos (listLexemes ps))) = true ∧
    (∀ t ∈ significant (place pos (listLexemes ps)), t.isPunct ';' = false) ∧
    (isVoidList (significant (place pos (listLexemes ps))) = true → ps = [{ type := "void" }]) := by
  fun_induction listLexemes ps generalizing pos prev with
  | case1 => exact absurd rfl hne
  | case2 p =>
    have hp := h p (by simp)
    obtain ⟨type, name, default, htokens, hw⟩ := exists_written hp hs
    rw [htokens]
    refine ⟨⟨[type ++ (name ++ default)], ?_, by simp [hw.ofTokens hp.declarator]⟩,
      Nesting.covers_mono (by simp) (hw.covers hprev), hw.not_semicolon, ?_⟩
    · have := splitCommas_of_covers (fun _ ht => ht) (hw.covers hprev) rfl []
      rw [List.append_nil] at this
      rw [this]
      simp [splitCommas]
    · intro hvoid
      rw [hw.eq_void hp.declarator hvoid]
  | case3 p q ps ih =>
    have hp := h p (by simp)
    obtain ⟨type, name, default, htokens, hw⟩ := exists_written hp hs.left
    obtain ⟨comma, hcomma, hident, hsemi, hrest⟩ : ∃ comma : Token, comma.isPunct ',' = true ∧
        (some comma).any isIdent = false ∧ comma.isPunct ';' = false ∧
        significant (place (after pos p.lexemes) (sign ',' :: space :: listLexemes (q :: ps))) =
          comma :: significant
            (place (((after pos p.lexemes).advance (sign ',').text).advance space.text)
            (listLexemes (q :: ps))) :=
      ⟨⟨.punct, [(',' : UInt8)], after pos p.lexemes⟩, rfl, rfl, rfl, rfl⟩
    obtain ⟨⟨segments, hsplit, hmap⟩, hcovers, hsemis, _⟩ :=
      ih (by simp) (fun r hr => h r (by simp [hr])) hs.right.tail.tail hident
    rw [place_append, significant_append, htokens, hrest]
    generalize significant (place _ (listLexemes (q :: ps))) = rest at hsplit hcovers hsemis
    refine ⟨⟨(type ++ (name ++ default)) :: segments, ?_,
      by simp [hw.ofTokens hp.declarator, hmap]⟩, ?_, ?_, ?_⟩
    · have htop : Nesting.isTop {} = true := by decide
      rw [splitCommas_of_covers (fun _ ht => ht) (hw.covers hprev) rfl]
      simp [splitCommas, hcomma, htop, hsplit]
    · apply Nesting.covers_append rfl (Nesting.covers_mono (by simp) (hw.covers hprev))
      have hfirst :
          Nesting.covers (fun _ => false) {} ((type ++ (name ++ default)).getLast?.or prev)
          [comma] = true :=
        Nesting.covers_singleton rfl (.inr (.inr (sign?_of_isPunct hcomma (by decide)))) _
      exact Nesting.covers_append rfl hfirst hcovers
    · intro t ht
      rcases List.mem_append.1 ht with ht | ht
      · exact hw.not_semicolon t ht
      · rcases List.mem_cons.1 ht with rfl | ht
        · exact hsemi
        · exact hsemis t ht
    · intro hvoid
      obtain ⟨t, ht, _⟩ := exists_of_isVoidList hvoid
      obtain ⟨u, us, hu⟩ := List.exists_cons_of_ne_nil hw.type_ne_nil
      simp [hu] at ht

theorem listOfTokens_listLexemes {ps : List Parameter} (h : ∀ p ∈ ps, p.WellFormed)
    (hvoid : ps ≠ [{ type := "void" }]) {source : Text} {pos : Pos}
    (hs : StandsAt source pos (listLexemes ps)) :
    listOfTokens source (significant (place pos (listLexemes ps))) = ps := by
  by_cases hne : ps = []
  · subst hne
    rfl
  · obtain ⟨⟨parts, hsplit, hmap⟩, _, _, hlone⟩ :=
      read_list hne h hs (rfl : (none : Option Token).any isIdent = false)
    have hlone : isVoidList (significant (place pos (listLexemes ps))) = false := by
      cases hv : isVoidList (significant (place pos (listLexemes ps))) with
      | false => rfl
      | true => exact absurd (hlone hv) hvoid
    have hempty : (significant (place pos (listLexemes ps))).isEmpty = false := by
      cases hl : significant (place pos (listLexemes ps)) with
      | nil =>
        -- an empty list would be split into one empty parameter without a type
        rw [hl] at hsplit
        obtain ⟨rfl, _⟩ := Prod.mk.inj hsplit
        obtain rfl := hmap
        have := (h _ (List.mem_singleton.2 rfl)).type_ne_nil
        exact absurd rfl this
      | cons t ts => rfl
    rw [listOfTokens, hlone, hempty]
    simp [Parameter.segments, hsplit, hmap]

theorem closeParen_listLexemes {ps : List Parameter} (h : ∀ p ∈ ps, p.WellFormed) {source : Text}
    {pos : Pos} (hs : StandsAt source pos (listLexemes ps)) {close : Token}
    (hclose : close.isPunct ')' = true) (rest : List Token) :
    closeParen 0 (significant (place pos (listLexemes ps)) ++ close :: rest) =
      some (significant (place pos (listLexemes ps)), close :: rest) := by
  have hend : closeParen 0 (close :: rest) = some ([], close :: rest) := by
    rw [closeParen.eq_def]
    simp [hclose, isPunct_unique hclose (d := '(') (by decide)]
  by_cases hne : ps = []
  · subst hne
    exact hend
  · obtain ⟨_, hcovers, hsemi, _⟩ :=
      read_list hne h hs (rfl : (none : Option Token).any isIdent = false)
    have := closeParen_of_covers hcovers (k := 0) rfl hsemi 0 (close :: rest)
    rw [this, hend]
    simp

end Parameter

namespace Method

theorem angleAfter_map {g : Token → Token} (hg : Moves g) (angle : Nat) (prev : Option Token)
    (ts : List Token) : angleAfter angle (prev.map g) (ts.map g) = angleAfter angle prev ts := by
  induction ts generalizing angle prev with
  | nil => rfl
  | cons t ts ih =>
    have hprev : (prev.map g).any isIdent = prev.any isIdent := by
      cases prev <;> simp [hg.isIdent]
    have ih := fun angle => ih angle (some t)
    rw [Option.map_some] at ih
    rw [List.map_cons, angleAfter, angleAfter]
    simp only [hg.sign?, hprev, ih]

theorem splitParams_of_angleAfter {angle angle' : Nat} {prev : Option Token} {ts : List Token}
    (h : angleAfter angle prev ts = some angle') (rest : List Token) :
    splitParams angle prev (ts ++ rest) =
      (splitParams angle' (ts.getLast?.or prev) rest).map fun r => (ts ++ r.1, r.2) := by
  induction ts generalizing angle prev with
  | nil =>
    obtain rfl := Option.some.inj h
    simp
  | cons t ts ih =>
    rw [angleAfter] at h
    rw [List.cons_append, splitParams, Nesting.getLast?_or_cons]
    generalize t.sign? = c at h ⊢
    split at h
    · simp [ih h, Function.comp_def]
    · simp [ih h, Function.comp_def]
    · split at h
      · simp at h
      · rename_i hangle
        simp [ih h, hangle, Function.comp_def]
    · simp at h
    · simp at h
    · simp at h
    · simp at h
    · simp [ih h, Function.comp_def]

theorem angleAfter_append (angle : Nat) (prev : Option Token) (ts us : List Token) :
    angleAfter angle prev (ts ++ us) =
      (angleAfter angle prev ts).bind fun a => angleAfter a (ts.getLast?.or prev) us := by
  induction ts generalizing angle prev with
  | nil => simp [angleAfter]
  | cons t ts ih =>
    rw [List.cons_append, angleAfter, angleAfter, Nesting.getLast?_or_cons]
    split
    · exact ih _ _
    · exact ih _ _
    · split
      · rfl
      · exact ih _ _
    · rfl
    · rfl
    · rfl
    · rfl
    · exact ih _ _

theorem angleAfter_of_splitParams {angle : Nat} {prev : Option Token} {ts head rest : List Token}
    (h : splitParams angle prev ts = some (head, rest)) : angleAfter angle prev head = some 0 := by
  induction ts generalizing angle prev head with
  | nil => simp [splitParams] at h
  | cons t ts ih =>
    have hstep {a : Nat}
        (ha : (splitParams a (some t) ts).map (fun r => (t :: r.1, r.2)) = some (head, rest)) :
        ∃ more, head = t :: more ∧ angleAfter a (some t) more = some 0 := by
      obtain ⟨⟨more, rest'⟩, hr, he⟩ := Option.map_eq_some_iff.1 ha
      obtain ⟨rfl, rfl⟩ := Prod.mk.inj he
      exact ⟨more, rfl, ih hr⟩
    rw [splitParams] at h
    split at h
    · rename_i hsign
      obtain ⟨more, rfl, hmore⟩ := hstep h
      rw [angleAfter, hsign]
      exact hmore
    · rename_i hsign
      obtain ⟨more, rfl, hmore⟩ := hstep h
      rw [angleAfter, hsign]
      exact hmore
    · rename_i hsign
      split at h
      · obtain ⟨rfl, rfl⟩ := Prod.mk.inj (Option.some.inj h)
        rw [angleAfter, ‹angle = 0›]
      · obtain ⟨more, rfl, hmore⟩ := hstep h
        rw [angleAfter, hsign]
        simpa [‹¬angle = 0›] using hmore
    · simp at h
    · simp at h
    · simp at h
    · simp at h
    · obtain ⟨more, rfl, hmore⟩ := hstep h
      rw [angleAfter]
      simpa using hmore

def endsType (t : Token) : Bool := t.isPunct ';' || t.isPunct '{' || t.isPunct '}' || t.isPunct '='

theorem not_endsType_of_angleAfter {angle angle' : Nat} {prev : Option Token} {ts : List Token}
    (h : angleAfter angle prev ts = some angle') : ∀ t ∈ ts, endsType t = false := by
  induction ts generalizing angle prev with
  | nil => simp
  | cons t ts ih =>
    have hfirst : endsType t = false := by
      rw [endsType, t.isPunct_eq_sign? (by decide), t.isPunct_eq_sign? (by decide),
        t.isPunct_eq_sign? (by decide), t.isPunct_eq_sign? (by decide)]
      rw [angleAfter] at h
      split at h <;> simp_all
    have hrest : ∃ a, angleAfter a (some t) ts = some angle' := by
      rw [angleAfter] at h
      split at h
      · exact ⟨_, h⟩
      · exact ⟨_, h⟩
      · split at h
        · simp at h
        · exact ⟨_, h⟩
      · simp at h
      · simp at h
      · simp at h
      · simp at h
      · exact ⟨_, h⟩
    obtain ⟨a, ha⟩ := hrest
    exact List.forall_mem_cons.2 ⟨hfirst, ih ha⟩

/-- Behind a type and a name the parameter list and the rest of the declaration are read. -/
theorem declaration?_type {type rest : List Token} {name opener : Token}
    (htype : angleAfter 0 none type = some 0) (hne : type ≠ [])
    (hend : type.getLast?.any (fun t => t.kind == .scope || t.isPunct '~') = false)
    (hident : name.isIdent = true) (hoperator : name.isWord "operator" = false)
    (husable : isUsableName name.text = true) (hopen : opener.isPunct '(' = true) :
    declaration? (type ++ name :: opener :: rest) = (closeParen 0 rest).bind fun list =>
      (readTail list.2.tail).map fun tail => ⟨type, name, list.1, tail.1, tail.2.1, tail.2.2⟩ := by
  have hsplit : splitParams 0 none (type ++ name :: opener :: rest) =
      some (type ++ [name], rest) := by
    have hsign : name.sign? = none := by
      have hk : name.kind = .ident := by simpa [isIdent] using hident
      simp [sign?, hk]
    have hlist : splitParams 0 (some name) (opener :: rest) = some ([], rest) := by
      rw [splitParams, sign?_of_isPunct hopen (by decide)]
      rfl
    rw [splitParams_of_angleAfter htype, splitParams, hsign]
    simp [hlist]
  obtain ⟨init, prev, hprev⟩ := (List.eq_nil_or_concat type).resolve_left hne
  rw [List.concat_eq_append] at hprev
  have hname : isMethodName prev name = true := by
    rw [hprev, List.getLast?_append] at hend
    have hend : (prev.kind == .scope || prev.isPunct '~') = false := hend
    rw [isMethodName, hident, hoperator, husable, hend]
    rfl
  have hreverse : (type ++ [name]).reverse = name :: prev :: init.reverse := by
    rw [hprev]
    simp
  rw [declaration?, hsplit]
  dsimp only
  rw [hreverse]
  dsimp only
  rw [hname]
  cases closeParen 0 rest with
  | none => rfl
  | some list => simp [hprev]

theorem declaration?_parts {type params tail rest : List Token} {name opener close : Token}
    {c n : Bool} (htype : angleAfter 0 none type = some 0) (hne : type ≠ [])
    (hend : type.getLast?.any (fun t => t.kind == .scope || t.isPunct '~') = false)
    (hident : name.isIdent = true) (hoperator : name.isWord "operator" = false)
    (husable : isUsableName name.text = true) (hopen : opener.isPunct '(' = true)
    (hclose : closeParen 0 (params ++ close :: tail) = some (params, close :: tail))
    (htail : readTail tail = some (c, n, rest)) :
    declaration? (type ++ name :: opener :: (params ++ close :: tail)) =
      some ⟨type, name, params, c, n, rest⟩ := by
  rw [declaration?_type htype hne hend hident hoperator husable hopen, hclose, Option.bind_some,
    List.tail_cons, htail, Option.map_some]

theorem read_tail (m : Method) (pos : Pos) : ∃ close tail,
    significant (place pos (sign ')' :: (m.qualifierLexemes ++ pureMark))) = close :: tail ∧
      close.isPunct ')' = true ∧ nests 0 tail = true ∧
        ∀ rest, readTail (tail ++ rest) = some (m.isConst, m.isNoexcept, rest) := by
  refine ⟨⟨.punct, [')'], pos⟩, _, rfl, rfl, ?_, fun rest => ?_⟩
  · rw [qualifierLexemes]
    cases m.isConst <;> cases m.isNoexcept <;> rfl
  · rw [qualifierLexemes]
    cases m.isConst <;> cases m.isNoexcept <;> rfl

/-- What stands between the word `virtual` and the next declaration. -/
def afterVirtual (m : Method) : List Lexeme :=
  Lexeme.ofText m.returnType ++ space :: word m.name :: sign '(' ::
    (Parameter.listLexemes m.parameters ++ sign ')' :: (m.qualifierLexemes ++ pureMark))

theorem tokens_afterVirtual (m : Method) {source : Text} {pos : Pos}
    (hs : StandsAt source pos m.afterVirtual) : ∃ name opener close tail listPos,
      significant (place pos m.afterVirtual) =
        significant (place pos (Lexeme.ofText m.returnType)) ++
        name :: opener :: (significant (place listPos (Parameter.listLexemes m.parameters)) ++
          close :: tail) ∧
      name.isIdent = true ∧ name.text = m.name ∧ opener.isPunct '(' = true ∧
      close.isPunct ')' = true ∧
      StandsAt source listPos (Parameter.listLexemes m.parameters) ∧ nests 0 tail = true ∧
      ∀ rest, readTail (tail ++ rest) = some (m.isConst, m.isNoexcept, rest) := by
  obtain ⟨close, tail, htail, hclose, hnests, hread⟩ := read_tail m
    (after ((((after pos (Lexeme.ofText m.returnType)).advance space.text).advance
      (word m.name).text).advance (sign '(').text) (Parameter.listLexemes m.parameters))
  have hmiddle (q : Pos)
      (ls : List Lexeme) : significant (place q (space :: word m.name :: sign '(' :: ls)) =
      ⟨.ident, m.name, q.advance space.text⟩ :: ⟨.punct, ['('],
        (q.advance space.text).advance (word m.name).text⟩ ::
        significant
          (place (((q.advance space.text).advance (word m.name).text).advance (sign '(').text)
            ls) :=
    rfl
  have htokens : significant (place pos m.afterVirtual) =
      significant (place pos (Lexeme.ofText m.returnType)) ++
        significant
          (place (after pos (Lexeme.ofText m.returnType)) (space :: word m.name :: sign '(' ::
          (Parameter.listLexemes m.parameters ++
            sign ')' :: (m.qualifierLexemes ++ pureMark)))) := by
    rw [afterVirtual, place_append, significant_append]
  rw [hmiddle, place_append, significant_append, htail] at htokens
  exact ⟨_, _, close, tail, _, htokens, rfl, rfl, rfl, hclose, hs.right.tail.tail.tail.left,
    hnests, hread⟩

/-- The tokens of a written declaration give the method, and what follows them is left over. -/
theorem read_afterVirtual {m : Method} (h : m.WellFormed) {source : Text} {pos : Pos}
    (hs : StandsAt source pos m.afterVirtual) (rest : List Token) : ∃ d,
      declaration? (significant (place pos m.afterVirtual) ++ rest) = some d ∧ d.rest = rest ∧
        ∀ line : Nat, ofDeclaration source line d = { m with line := line } := by
  have hangle : ∀ ts : List Token, angleAfter 0 none (ts.map pinned) = angleAfter 0 none ts :=
    angleAfter_map moves_pinned 0 none
  have hlast : ∀ ts : List Token,
      (ts.map pinned).getLast?.any (fun t => t.kind == .scope || t.isPunct '~') =
      ts.getLast?.any (fun t => t.kind == .scope || t.isPunct '~') := by
    intro ts
    rw [List.getLast?_map]
    cases ts.getLast? <;> rfl
  have htype : angleAfter 0 none (significant (place pos (Lexeme.ofText m.returnType))) =
      some 0 := by
    rw [fieldTokens_place _ hangle]
    exact h.type_nests
  have hend : (significant (place pos (Lexeme.ofText m.returnType))).getLast?.any
      (fun t => t.kind == .scope || t.isPunct '~') = false := by
    rw [fieldTokens_place (fun ts => ts.getLast?.any _) hlast]
    exact h.type_end
  obtain ⟨name, opener, close, tail, listPos, htokens, hident, htext, hopen, hclose, hparams,
      _, hread⟩ :=
    m.tokens_afterVirtual hs
  have hoperator : name.isWord "operator" = false := by
    simpa [isWord, htext] using fun _ => h.name_usable.2
  have hclosed := Parameter.closeParen_listLexemes h.parameters hparams hclose (tail ++ rest)
  have hparts :=
    declaration?_parts htype (field_ne_nil h.type pos h.type_ne_nil) hend hident hoperator
    (htext ▸ h.name_usable.1) hopen hclosed (hread rest)
  refine ⟨⟨significant (place pos (Lexeme.ofText m.returnType)), name,
    significant (place listPos (Parameter.listLexemes m.parameters)), m.isConst,
      m.isNoexcept, rest⟩,
    ?_, rfl, fun line => ?_⟩
  · rw [htokens, List.append_assoc, List.cons_append, List.cons_append, List.append_assoc,
      List.cons_append]
    exact hparts
  · rw [ofDeclaration, spanText_field h.type pos hs.left, htext,
      Parameter.listOfTokens_listLexemes h.parameters h.not_void hparams]

end Method
end HeaderBridge
