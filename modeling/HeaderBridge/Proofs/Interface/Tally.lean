import HeaderBridge.Proofs.Interface.Parts

namespace HeaderBridge

open Token

namespace Parameter

theorem mem_of_groupName? {inner before : List Token} {name : Token}
    (h : groupName? inner = some (before, name)) : name ∈ inner ∧ name.isIdent = true := by
  unfold groupName? at h
  split at h
  · rename_i first last prev more _ hreverse
    split at h
    · rename_i hname
      obtain ⟨_, rfl⟩ := Prod.mk.inj (Option.some.inj h)
      have hmem : last ∈ inner.reverse := by simp [hreverse]
      simp only [Bool.and_eq_true] at hname
      exact ⟨List.mem_reverse.1 hmem, hname.1.1.2⟩
    · simp at h
  · simp at h

theorem mem_of_groupedFrom {n : Nesting} {seen ts : List Token} {found : Named}
    (h : groupedFrom n seen ts = some found) : found.name ∈ ts ∧ found.name.isIdent = true := by
  fun_induction groupedFrom n seen ts with
  | case1 => simp at h
  | case2 => simp_all
  | case3 n seen t ts ht inner after hclose =>
    obtain ⟨close, tail, rfl, _, hts⟩ := eq_of_closeParen hclose
    obtain ⟨⟨before, name⟩, hg, rfl⟩ := Option.map_eq_some_iff.1 h
    obtain ⟨hmem, hident⟩ := mem_of_groupName? hg
    exact ⟨by simp [hts, hmem], hident⟩
  | case4 n seen t ts ht ih => exact ⟨List.mem_cons_of_mem t (ih h).1, (ih h).2⟩

theorem mem_of_findName {decl : List Token} {found : Named} (h : findName decl = some found) :
    found.name ∈ decl ∧ found.name.isIdent = true := by
  have hgrouped (hg : groupedName decl = some found) : found.name ∈ decl ∧
      found.name.isIdent = true := by
    cases decl with
    | nil => simp [groupedName] at hg
    | cons t ts =>
      exact ⟨List.mem_cons_of_mem t (mem_of_groupedFrom hg).1, (mem_of_groupedFrom hg).2⟩
  unfold findName at h
  split at h
  · simp at h
  · exact hgrouped h
  · rename_i last seen hbounds
    split at h
    · exact hgrouped h
    · rename_i hident
      split at h
      · obtain rfl := Option.some.inj h
        have hmem := (suffix_of_dropBounds hbounds).subset (List.mem_cons_self ..)
        exact ⟨List.mem_reverse.1 hmem, by simpa using hident⟩
      · simp at h

variable {source : Text} {stop : Nat} {ts : List Token}

theorem default_ofTokens (source : Text) (ts : List Token) :
    (ofTokens source ts).default = ((splitDefault {} none ts).2.map (spanText source)).getD [] := by
  unfold ofTokens
  dsimp only
  split <;> rfl

/-- How the declaration of a parameter is written: as it was, or with a space before its name. -/
theorem declaration_ofTokens
    (hrow : Row Lexeme.isBlankByte source stop (splitDefault {} none ts).1) :
    (ofTokens source ts).declaration = spanText source (splitDefault {} none ts).1 ∨
      ∃ before name, (splitDefault {} none ts).1 = before ++ [name] ∧ name.isIdent = true ∧
        (ofTokens source ts).declaration = spanText source before ++ (" " ++ name.text) := by
  unfold ofTokens
  dsimp only
  generalize (splitDefault {} none ts).1 = decl at hrow ⊢
  cases hfound : findName decl with
  | none =>
    left
    simp [declaration]
  | some found =>
    obtain ⟨hmem, hident⟩ := mem_of_findName hfound
    obtain ⟨_, rest, hfits⟩ := hrow.fits_of_mem hmem
    obtain ⟨hne, hink⟩ := isInk_of_isIdent hfits hident
    cases hafter : found.after with
    | nil =>
      obtain ⟨hdecl, _⟩ := eq_of_findName hfound hafter
      have hspan : spanText source [] = [] := rfl
      refine .inr ⟨found.before, found.name, hdecl, hident, ?_⟩
      simp [declaration, hafter, hne, hspan]
    | cons u us =>
      -- the text of the declaration holds the name, so it is not empty
      have hspan : spanText source decl ≠ [] := by
        intro hnil
        obtain ⟨b, r, hb⟩ := List.exists_cons_of_ne_nil hne
        have hspace : b ≠ ' ' := by
          rintro rfl
          exact absurd (hink ' ' (by simp [hb])) (by decide)
        have hcount := hrow.count_spanText hspace
        have hin : b ∈ ink decl := by
          refine List.mem_flatMap.2 ⟨found.name, hmem, ?_⟩
          rw [Text.solid_of_isInk hink, hb]
          exact List.mem_cons_self ..
        rw [hnil] at hcount
        exact List.count_eq_zero.1 hcount.symm hin
      left
      simp [declaration, hafter, hspan]

theorem render_ofTokens (source : Text) (ts : List Token) :
    (splitDefault {} none ts).2 = none ∧
      (ofTokens source ts).render true = (ofTokens source ts).declaration ∨
      ∃ rest, (splitDefault {} none ts).2 = some rest ∧ (ofTokens source ts).render true =
        (ofTokens source ts).declaration ++
          if spanText source rest = [] then [] else (" = " : Text) ++ spanText source rest := by
  have hdefault := default_ofTokens source ts
  cases hd : (splitDefault {} none ts).2 with
  | none =>
    rw [hd] at hdefault
    exact .inl ⟨rfl, by simp [render, hdefault]⟩
  | some rest =>
    rw [hd] at hdefault
    refine .inr ⟨rest, rfl, ?_⟩
    have hdefault : (ofTokens source ts).default = spanText source rest := hdefault
    rw [render, hdefault]
    by_cases hnil : spanText source rest = [] <;> simp [hnil]

/-- Whether the parameter has an equals sign with nothing behind it. -/
def isLost (ts : List Token) : Bool := (splitDefault {} none ts).2 == some []

section Tally

variable {b : UInt8} (hb : b ≠ ' ')
include hb

theorem count_space : (" " : Text).count b = 0 := by
  apply List.count_eq_zero.2
  show b ∉ [(' ' : UInt8)]
  simpa using hb

theorem count_declaration (hrow : Row Lexeme.isBlankByte source stop (splitDefault {} none ts).1) :
    (ofTokens source ts).declaration.count b = (ink (splitDefault {} none ts).1).count b := by
  rcases declaration_ofTokens hrow with h | ⟨before, name, hdecl, hident, h⟩
  · rw [h, hrow.count_spanText hb]
  · rw [hdecl] at hrow
    obtain ⟨_, rest, hfits⟩ := hrow.fits_of_mem (t := name) (by simp)
    obtain ⟨_, hink⟩ := isInk_of_isIdent hfits hident
    rw [h, hdecl, List.count_append, List.count_append, hrow.left.count_spanText hb, count_space hb,
      ink_append, List.count_append, ink_cons, Text.solid_of_isInk hink]
    simp [ink]

theorem count_render (hrow : Row Lexeme.isBlankByte source stop ts) :
    ((ofTokens source ts).render true).count b +
      (if isLost ts then [('=' : UInt8)].count b else 0) ≤ (ink ts).count b := by
  rcases splitDefault_parts {} none ts with ⟨hnone, hts⟩ | ⟨equals, rest, hequals, hsome, hts⟩
  · have hdecl := hrow
    rw [hts] at hdecl
    have hcount := count_declaration hb hdecl
    rcases render_ofTokens source ts with ⟨_, h⟩ | ⟨rest, h, _⟩
    · rw [h, hcount, ← hts, isLost, hnone]
      simp
    · simp [hnone] at h
  · have hdecl := hrow
    rw [hts] at hdecl
    have hcount := count_declaration hb hdecl.left
    have hrest := hdecl.right.tail.count_spanText hb
    have hequals := solid_of_isPunct hequals (by decide)
    have hwritten : (" = " : Text).count b = [('=' : UInt8)].count b := by
      have : (" = " : Text) = (" " : Text) ++ ([('=' : UInt8)] ++ (" " : Text)) := by decide
      rw [this, List.count_append, List.count_append, count_space hb]
      omega
    rcases render_ofTokens source ts with ⟨h, _⟩ | ⟨rest', h, hrender⟩
    · simp [hsome] at h
    · obtain rfl : rest = rest' := by simpa [hsome] using h
      have hink : (ink ts).count b =
          (ink (splitDefault {} none ts).1).count b + [('=' : UInt8)].count b +
          (spanText source rest).count b := by
        have := congrArg (fun us => (ink us).count b) hts
        simp only [ink_append, ink_cons, hequals, List.count_append] at this
        omega
      rw [hrender, List.count_append, hcount, hink, isLost, hsome]
      by_cases hnil : rest = []
      · subst hnil
        simp [spanText]
      · by_cases hempty : spanText source rest = []
        · simp [hempty, hnil]
        · simp [hempty, hnil, hwritten]
          omega

theorem count_list {parts : List (List Token)} (h : Commas parts ts)
    (hrow : Row Lexeme.isBlankByte source stop ts) :
    (Text.join ", " (parts.map fun part => (ofTokens source part).render true)).count b +
      parts.countP isLost * [('=' : UInt8)].count b ≤ (ink ts).count b := by
  have hlost (part : List Token) : (if isLost part then 1 else 0) * [('=' : UInt8)].count b =
      if isLost part then [('=' : UInt8)].count b else 0 := by
    split
    · exact Nat.one_mul _
    · exact Nat.zero_mul _
  induction h generalizing stop with
  | last part =>
    have := count_render hb hrow
    rw [List.countP_singleton, hlost]
    simpa [Text.join, List.intercalate] using this
  | @cons part ts parts comma hcomma h ih =>
    have hpart := count_render hb hrow.left
    have hrest := ih hrow.right.tail
    have hcomma := solid_of_isPunct hcomma (by decide)
    have hwritten : (", " : Text).count b = [(',' : UInt8)].count b := by
      have : (", " : Text) = [(',' : UInt8)] ++ (" " : Text) := by decide
      rw [this, List.count_append, count_space hb]
      omega
    have hne : parts ≠ [] := by
      cases h <;> simp
    rw [Text.join, List.map_cons, Text.intercalate_cons, if_neg (by simpa using hne),
      List.countP_cons, Nat.add_mul, hlost, List.count_append, List.count_append, hwritten,
      ink_append, ink_cons, hcomma, List.count_append, List.count_append]
    rw [Text.join] at hrest
    omega

end Tally

end Parameter
namespace Parameter

theorem not_isLost_of_isVoidList {ts : List Token} (h : isVoidList ts = true) :
    ∀ part ∈ segments ts, isLost part = false := by
  unfold isVoidList at h
  split at h
  · rename_i t
    have hident : t.isIdent = true := by
      simp only [isWord, Bool.and_eq_true] at h
      exact h.1
    have hsegments : segments [t] = [[t]] := by
      have hcomma := not_isPunct_of_isIdent hident ','
      have hsign : t.sign? = none := by
        have hkind : t.kind = .ident := by simpa [isIdent] using hident
        simp [sign?, hkind]
      simp [segments, splitCommas, hcomma, Nesting.step, hsign]
    rw [hsegments]
    intro part hpart
    obtain rfl := List.mem_singleton.1 hpart
    simp [isLost, splitDefault, not_isPunct_of_isIdent hident]
  · simp at h

end Parameter

namespace Method

theorem ink_qualifiers {ts : List Token} {c n : Bool} (h : ts.map lexeme = qualifierWords c n) :
    ink ts = (if c then ("const" : Text) else []) ++ if n then ("noexcept" : Text) else [] := by
  have hconst : Text.solid "const" = ("const" : Text) := Text.solid_of_isInk (by decide +kernel)
  have hnoexcept : Text.solid "noexcept" = ("noexcept" : Text) :=
    Text.solid_of_isInk (by decide +kernel)
  have hink : ink ts = (ts.map lexeme).flatMap fun l => Text.solid l.text := by
    rw [List.flatMap_map]
    rfl
  rw [hink, h, qualifierWords]
  cases c <;> cases n <;> simp [hconst, hnoexcept]

section Tally

variable {b : UInt8} (hb : b ≠ ' ') {source : Text} {stop : Nat}
include hb

theorem count_parameters {ts : List Token} (hrow : Row Lexeme.isBlankByte source stop ts) :
    (Text.join ", " ((Parameter.listOfTokens source ts).map (Parameter.render true))).count b +
      (Parameter.segments ts).countP Parameter.isLost * [('=' : UInt8)].count b ≤
        (ink (if Parameter.isVoidList ts then [] else ts)).count b := by
  by_cases hvoid : Parameter.isVoidList ts = true
  · have hlost : (Parameter.segments ts).countP Parameter.isLost = 0 := by
      apply List.countP_eq_zero.2
      intro part hpart
      simp [Parameter.not_isLost_of_isVoidList hvoid part hpart]
    rw [hlost, Parameter.listOfTokens, hvoid]
    simp [Text.join, List.intercalate]
  · by_cases hempty : ts = []
    · subst hempty
      simp [Parameter.listOfTokens, Text.join, List.intercalate, Parameter.segments,
        Parameter.splitCommas, Parameter.isLost, Parameter.splitDefault, ink]
    · have hlist := Parameter.count_list hb (Parameter.commas_segments ts) hrow
      simpa [Parameter.listOfTokens, hvoid, hempty, Function.comp_def] using hlist

theorem Site.count_signature {s : Site} {ts : List Token} (h : s.ReadFrom ts)
    (hrow : Row Lexeme.isBlankByte source stop s.written) :
    (s.method source).signature.count b +
      (Parameter.segments s.decl.params).countP Parameter.isLost * [('=' : UInt8)].count b ≤
        (ink s.kept).count b := by
  have htype := hrow.left.count_spanText hb
  have hname := hrow.right
  have hparams := count_parameters hb hrow.right.tail.tail.left
  have hspace := Parameter.count_space hb
  obtain ⟨_, _, hfits⟩ := hname.fits_of_mem (t := s.decl.name) (by simp)
  obtain ⟨_, hink⟩ := isInk_of_isIdent hfits h.name
  have hqualifiers : (s.method source).qualifiers.count b = (ink s.qualifiers).count b := by
    have hconst : (" const" : Text) = (" " : Text) ++ ("const" : Text) := by decide
    have hnoexcept : (" noexcept" : Text) = (" " : Text) ++ ("noexcept" : Text) := by decide
    have hc : (s.method source).isConst = s.decl.isConst := rfl
    have hn : (s.method source).isNoexcept = s.decl.isNoexcept := rfl
    rw [ink_qualifiers h.qualifiers, Method.qualifiers, hc, hn, hconst, hnoexcept]
    cases s.decl.isConst <;> cases s.decl.isNoexcept <;> simp [hspace]
  have hopen : ("(" : Text) = [('(' : UInt8)] := by decide
  have hclose : (")" : Text) = [(')' : UInt8)] := by decide
  have hkept : (ink s.kept).count b = (ink s.decl.type).count b + s.decl.name.text.count b +
      [('(' : UInt8)].count b +
        (ink (if Parameter.isVoidList s.decl.params then [] else s.decl.params)).count b +
        [(')' : UInt8)].count b + (ink s.qualifiers).count b := by
    rw [Site.kept, ink_append, ink_cons, ink_cons, ink_append, ink_cons, Text.solid_of_isInk hink,
      solid_of_isPunct h.opener (by decide), solid_of_isPunct h.close (by decide)]
    simp only [List.count_append]
    omega
  have hsignature : (s.method source).signature.count b = (spanText source s.decl.type).count b +
      s.decl.name.text.count b + [('(' : UInt8)].count b +
        (Text.join ", "
          ((Parameter.listOfTokens source s.decl.params).map (Parameter.render true))).count b +
          [(')' : UInt8)].count b + (s.method source).qualifiers.count b := by
    rw [signature, hopen, hclose]
    simp only [List.count_append, hspace]
    rfl
  rw [hsignature, hkept, htype, hqualifiers]
  omega

end Tally

end Method
end HeaderBridge
