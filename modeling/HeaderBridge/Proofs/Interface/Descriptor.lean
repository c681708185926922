import HeaderBridge.Bridge.Generate
import HeaderBridge.Proofs.Interface.Name
import HeaderBridge.Proofs.Interface.RoundTrip
import HeaderBridge.Proofs.Interface.Views
import HeaderBridge.Proofs.Path.Clean
import HeaderBridge.Proofs.Text.Folded

namespace HeaderBridge

namespace Text

/-- A text on one line, with its blanks folded. -/
structure IsLine (t : Text) : Prop where
  folded : collapse t = t
  line : newline ∉ t

theorem isLine_of_folded {t : Text} (h : collapse t = t) : t.IsLine :=
  ⟨h, newline_not_mem_of_folded h⟩

theorem isLine_nil : IsLine [] := isLine_of_folded collapse_nil

end Text

namespace Token

theorem isLine_spanText (source : Text) (ts : List Token) : (spanText source ts).IsLine := by
  apply Text.isLine_of_folded
  unfold spanText
  split
  · exact Text.collapse_collapse _
  · exact Text.collapse_nil

namespace Row

variable {p : UInt8 → Bool} {source : Text} {stop : Nat} {t : Token} {ts us : List Token}

theorem part (h : Row p source stop ts) (hus : us <:+: ts) : ∃ stop, Row p source stop us := by
  obtain ⟨before, behind, rfl⟩ := hus
  exact ⟨_, h.left.right⟩

theorem head?_spanText {b : UInt8} (h : Row Lexeme.isBlankByte source stop (t :: ts))
    (ht : t.text = [b]) (hb : Text.isInk b = true) :
    (spanText source (t :: ts)).head? = some b := by
  obtain ⟨hlow, hblank⟩ := Text.isInk_facts hb
  obtain ⟨gap, -, hoffset, hcells⟩ := h.own.cells_rowText
  have hgap : gap = [] := List.eq_nil_of_length_eq_zero (by omega)
  have hnil : Text.cells [] = [] := by rw [Text.cells]
  rw [hgap, ht, Text.cells_ascii hlow, hnil, List.nil_append, List.cons_append,
    List.nil_append] at hcells
  rw [h.spanText_cons, Text.collapse_eq, hcells,
    List.dropWhile_cons_of_neg (by simpa [Text.Cell.isBlank] using hblank), Text.squeeze,
    if_neg (by simpa [Text.Cell.isBlank] using hblank)]
  rfl

end Row
end Token

namespace Parameter

open Token

theorem Commas.isInfix {parts : List (List Token)} {ts : List Token} (h : Commas parts ts) :
    ∀ part ∈ parts, part <:+: ts := by
  induction h with
  | last part => simp
  | @cons part ts parts comma hcomma h ih =>
    intro u hu
    rcases List.mem_cons.1 hu with rfl | hu
    · exact ⟨[], comma :: ts, rfl⟩
    · apply (ih u hu).trans
      exact ⟨part ++ [comma], [], by simp⟩

/-- What is dropped from the end of a declaration starts with an opening bracket. -/
theorem exists_bounds_of_dropBounds {depth : Nat} {ts rest : List Token}
    (h : dropBounds depth ts = some rest) :
    ∃ bounds, ts = bounds ++ rest ∧ (bounds = [] → depth = 0) ∧ ∀ t ∈ bounds.getLast?,
      t.isPunct '[' = true := by
  have hpush {bounds : List Token} (t : Token) (hne : bounds ≠ [])
      (hlast : ∀ u ∈ bounds.getLast?, u.isPunct '[' = true) :
      ∀ u ∈ (t :: bounds).getLast?, u.isPunct '[' = true := by
    rwa [List.getLast?_cons_of_ne_nil hne]
  fun_induction dropBounds depth ts
  case case1 | case4 => exact ⟨[], Option.some.inj h, fun _ => rfl, by simp⟩
  case case2 => cases h
  case case6 depth t ts ht hopen ih =>
    obtain ⟨bounds, rfl, -, hlast⟩ := ih h
    refine ⟨t :: bounds, rfl, by simp, ?_⟩
    by_cases hnil : bounds = []
    · intro u hu
      rw [hnil] at hu
      obtain rfl := Option.some.inj hu
      exact hopen
    · exact hpush t hnil hlast
  case case3 t _ _ ih | case5 t _ _ ih | case7 t _ _ _ ih =>
    obtain ⟨bounds, rfl, hne, hlast⟩ := ih h
    refine ⟨t :: bounds, rfl, by simp, hpush t ?_ hlast⟩
    intro hnil
    exact absurd (hne hnil) (by omega)

/-- A name that may be found in a declaration: an identifier in front of nothing or of a bracket. -/
structure Named.Sound (found : Named) : Prop where
  ident : found.name.isIdent = true
  usable : isUsableName found.name.text = true
  after : ∀ t ∈ found.after.head?, t.isPunct '[' = true ∨ t.isPunct ')' = true

theorem sound_of_groupedFrom {n : Nesting} {seen ts : List Token} {found : Named}
    (h : groupedFrom n seen ts = some found) : found.Sound := by
  fun_induction groupedFrom n seen ts with
  | case1 => cases h
  | case2 => cases h
  | case3 n seen t ts ht inner after hclose =>
    obtain ⟨close, tail, rfl, hcloser, -⟩ := eq_of_closeParen hclose
    obtain ⟨⟨before, name⟩, hg, rfl⟩ := Option.map_eq_some_iff.1 h
    have hname : name.isIdent = true ∧ isUsableName name.text = true := by
      unfold groupName? at hg
      split at hg
      · split at hg
        · rename_i hgroup
          obtain ⟨-, rfl⟩ := Prod.mk.inj (Option.some.inj hg)
          simp only [Bool.and_eq_true] at hgroup
          exact ⟨hgroup.1.1.2, hgroup.1.2⟩
        · cases hg
      · cases hg
    refine ⟨hname.1, hname.2, ?_⟩
    intro u hu
    obtain rfl := Option.some.inj hu
    exact .inr hcloser
  | case4 n seen t ts ht ih => exact ih h

theorem sound_of_findName {decl : List Token} {found : Named} (h : findName decl = some found) :
    found.Sound := by
  have hgrouped (hg : groupedName decl = some found) : found.Sound := by
    cases decl with
    | nil => cases hg
    | cons t ts => exact sound_of_groupedFrom hg
  unfold findName at h
  split at h
  · cases h
  · exact hgrouped h
  · rename_i last seen hbounds
    split at h
    · exact hgrouped h
    · rename_i hident
      split at h
      · rename_i htrailing
        obtain rfl := Option.some.inj h
        obtain ⟨bounds, hdecl, -, hlast⟩ := exists_bounds_of_dropBounds hbounds
        -- the bounds are met from the right, so the bracket met last stands right behind the name
        have hafter : decl.drop (seen.length + 1) = bounds.reverse := by
          have hreverse : decl = (last :: seen).reverse ++ bounds.reverse := by
            rw [← List.reverse_append, ← hdecl, List.reverse_reverse]
          have hlength : seen.length + 1 = (last :: seen).reverse.length := by simp
          rw [hreverse, hlength, List.drop_left]
        rw [isTrailingName, Bool.and_eq_true, Bool.and_eq_true] at htrailing
        refine ⟨by simpa using hident, htrailing.1.1, ?_⟩
        intro t ht
        rw [hafter, List.head?_reverse] at ht
        exact .inl (hlast t ht)
      · cases h

/-- What every parameter of an interface is like. -/
structure Tidy (p : Parameter) : Prop where
  name : p.name = [] ∨ Text.isIdentifier p.name = true ∧ isUsableName p.name = true
  type : p.type.IsLine
  default : p.default.IsLine
  declarator : p.declarator.IsLine
  named : p.declarator ≠ [] → p.name ≠ []

theorem tidy_ofTokens {source : Text} {stop : Nat} {ts : List Token}
    (h : Row Lexeme.isBlankByte source stop ts) : (ofTokens source ts).Tidy := by
  have hdefault : (((splitDefault {} none ts).2.map (spanText source)).getD []).IsLine := by
    cases (splitDefault {} none ts).2 with
    | none => exact Text.isLine_nil
    | some rest => exact isLine_spanText source rest
  have hdecl : (splitDefault {} none ts).1 <:+: ts := by
    rcases splitDefault_parts {} none ts with ⟨-, hts⟩ | ⟨equals, rest, -, -, hts⟩
    · exact ⟨[], [], by simpa using hts.symm⟩
    · exact ⟨[], equals :: rest, hts.symm⟩
  unfold ofTokens
  dsimp only
  cases hfound : findName (splitDefault {} none ts).1 with
  | none =>
    exact ⟨.inl rfl, isLine_spanText source _, hdefault, Text.isLine_nil, fun hne => absurd rfl hne⟩
  | some found =>
    have hsound := sound_of_findName hfound
    have hparts := eq_around_name hfound
    have hname : Text.isIdentifier found.name.text = true := by
      have hmem : found.name ∈ ts :=
        hdecl.subset (hparts ▸ List.mem_append_right _ List.mem_cons_self)
      obtain ⟨-, rest, hfits⟩ := h.fits_of_mem hmem
      exact isIdentifier_of_isIdent hfits hsound.ident
    -- the second part starts with a bracket, which belongs to no character of the first
    have hlow : ∀ b ∈ (spanText source found.after).head?, Text.isHigh b = false := by
      cases hafter : found.after with
      | nil =>
        intro b hb
        cases hb
      | cons t rest =>
        have hinside : t :: rest <:+: (splitDefault {} none ts).1 :=
          ⟨found.before ++ [found.name], [], by rw [hparts, hafter]; simp⟩
        obtain ⟨stop, hrow⟩ := h.part (hinside.trans hdecl)
        intro b hb
        rcases hsound.after t (by rw [hafter]; rfl) with ht | ht
        · rw [hrow.head?_spanText (text_of_isPunct ht) (by decide)] at hb
          exact Option.some.inj hb ▸ (by decide : Text.isHigh ('[' : UInt8) = false)
        · rw [hrow.head?_spanText (text_of_isPunct ht) (by decide)] at hb
          exact Option.some.inj hb ▸ (by decide : Text.isHigh (')' : UInt8) = false)
    refine ⟨.inr ⟨hname, hsound.usable⟩, ?_, hdefault, ?_,
      fun _ => Text.ne_nil_of_isIdentifier hname⟩
    · exact Text.isLine_of_folded
        (Text.collapse_append (isLine_spanText source _).folded
          (isLine_spanText source _).folded hlow)
    · dsimp only
      split
      · exact Text.isLine_nil
      · exact isLine_spanText source _

theorem tidy_of_mem_listOfTokens {source : Text} {stop : Nat} {ts : List Token}
    (h : Row Lexeme.isBlankByte source stop ts) : ∀ p ∈ listOfTokens source ts, p.Tidy := by
  intro p hp
  unfold listOfTokens at hp
  split at hp
  · cases hp
  · obtain ⟨part, hpart, rfl⟩ := List.mem_map.1 hp
    obtain ⟨stop, hrow⟩ := h.part ((commas_segments ts).isInfix part hpart)
    exact tidy_ofTokens hrow

theorem Tidy.newline_not_mem_name {p : Parameter} (h : p.Tidy) : newline ∉ p.name := by
  rcases h.name with hnil | ⟨hident, -⟩
  · simp [hnil]
  · exact Text.newline_not_mem_identifier hident

theorem Tidy.newline_not_mem_render {p : Parameter} (h : p.Tidy) : newline ∉ p.render true := by
  have hname := h.newline_not_mem_name
  have hspace : newline ∉ (" " : Text) := by decide
  have hequals : newline ∉ (" = " : Text) := by decide
  have hdeclaration : newline ∉ p.declaration := by
    unfold declaration
    split
    · exact h.declarator.line
    · split
      · simp [h.type.line, hname, hspace]
      · exact h.type.line
  unfold render
  split
  · simp [hdeclaration, h.default.line, hequals]
  · exact hdeclaration

end Parameter

namespace Method

open Token

/-- What every method of an interface is like. -/
structure Tidy (m : Method) : Prop where
  name : Text.isIdentifier m.name = true ∧ isUsableName m.name = true ∧ m.name ≠ "operator"
  returnType : m.returnType.IsLine
  parameters : ∀ p ∈ m.parameters, p.Tidy

theorem Site.ReadFrom.tidy_method {s : Site} {ts : List Token} (h : s.ReadFrom ts) {source : Text}
    {stop : Nat} (hrow : Row Lexeme.isBlankByte source stop ts) : (s.method source).Tidy := by
  obtain ⟨zero, semicolon, -, htokens⟩ := h.tokens
  have hname : s.decl.name ∈ ts := by
    rw [htokens]
    simp [Site.written]
  have hparams : s.decl.params <:+: ts :=
    ⟨s.decl.type ++ [s.decl.name, s.opener],
      s.close :: (s.qualifiers ++ s.mark :: zero :: semicolon :: s.decl.rest),
        by rw [htokens]; simp [Site.written]⟩
  obtain ⟨-, -, prev, -, -, husable, -, -⟩ := parts_of_declaration? h.read
  simp only [isMethodName, Bool.and_eq_true, Bool.not_eq_true'] at husable
  have hoperator : s.decl.name.text ≠ "operator" := by
    intro htext
    have hword : s.decl.name.isWord "operator" = true := by
      rw [isWord, htext, beq_self_eq_true, Bool.and_true]
      exact h.name
    rw [hword] at husable
    exact absurd husable.1.1.2 (by simp)
  obtain ⟨-, rest, hfits⟩ := hrow.fits_of_mem hname
  obtain ⟨_, hlist⟩ := hrow.part hparams
  exact ⟨⟨isIdentifier_of_isIdent hfits h.name, husable.1.2, hoperator⟩, isLine_spanText source _,
    Parameter.tidy_of_mem_listOfTokens hlist⟩

theorem Tidy.newline_not_mem_signature {m : Method} (h : m.Tidy) : newline ∉ m.signature :=
  newline_not_mem_signature_of_parts h.returnType.line (Text.newline_not_mem_identifier h.name.1)
    fun p hp => (h.parameters p hp).newline_not_mem_render

end Method

theorem Recipe.eq_of_describe {r : Recipe} {i : Interface} {b : Bridge} (h : r.describe i = .ok b) :
    b.interface = i ∧ b.declarations = i.methods.map Method.declaration := by
  unfold describe at h
  dsimp only at h
  split at h
  · obtain rfl := Except.ok.inj h
    exact ⟨rfl, rfl⟩
  · cases h

namespace Interface

open Token

/-- What every interface that is read from a header is like. -/
structure Tidy (i : Interface) : Prop where
  name : Text.isIdentifier i.name = true
  methods_ne_nil : i.methods ≠ []
  methods : ∀ m ∈ i.methods, m.Tidy

theorem methods_ne_nil_of_ofHead {scopes : List OpenScope} {key : Token} {head : Head} {body : Text}
    {i : Interface} (h : ofHead scopes key head body = .ok i) : i.methods ≠ [] := by
  unfold ofHead at h
  split at h
  · cases h
  · rename_i hne
    obtain rfl := Except.ok.inj h
    simpa using hne

theorem tidy_of_locate {source : Text} {i : Interface} (h : locate source = .ok i) : i.Tidy := by
  obtain ⟨v, hv, c, hc, hhead⟩ := exists_visit_of_ok h
  obtain ⟨sites, hmethods, -, -, hsites⟩ :=
    exists_sites_of_ofHead (standsIn_of_mem_visits hv) hc hhead
  refine ⟨isIdentifier_name h, methods_ne_nil_of_ofHead hhead, ?_⟩
  intro m hm
  rw [hmethods] at hm
  obtain ⟨σ, hσ, rfl⟩ := List.mem_map.1 hm
  obtain ⟨-, before, behind, hsplit, hread⟩ := hsites σ hσ
  have hrow :=
    row_significant (x := []) (p := Pos.start) (Lexeme.chain_ofText source)
        (Lexeme.stripComments_eq source) rfl
  have hinside : behind <:+: significant (Token.ofText source) := by
    rw [hsplit]
    exact ⟨before ++ [σ.keyword], [], by simp⟩
  obtain ⟨_, hbehind⟩ := hrow.part hinside
  exact hread.tidy_method hbehind

theorem lines_methodDeclarations {i : Interface} (h : i.Tidy) {r : Recipe} {b : Bridge}
    (hb : r.describe i = .ok b) (extension : Text) :
    Text.lines (b.data extension).methodDeclarations =
      i.methods.map fun m => ("    " : Text) ++ m.signature ++ ";" := by
  have hdeclarations := (Recipe.eq_of_describe hb).2
  have hindented : b.declarations.map (("    " : Text) ++ ·) =
      i.methods.map fun m => ("    " : Text) ++ m.signature ++ ";" := by
    rw [hdeclarations, List.map_map]
    apply List.map_congr_left
    intro m _
    exact (List.append_assoc ("    " : Text) m.signature ";").symm
  have hsigns : newline ∉ ("    " : Text) ∧ newline ∉ (";" : Text) := by decide
  change Text.splitAt newline (Text.join [newline] (b.declarations.map (("    " : Text) ++ ·))) = _
  rw [hindented]
  apply Text.splitAt_join
  · simpa using h.methods_ne_nil
  · intro t ht
    obtain ⟨m, hm, rfl⟩ := List.mem_map.1 ht
    simp [(h.methods m hm).newline_not_mem_signature, hsigns]

/-- Every interface that is read from a header is tidy, and its bridge declares one method on each
line. -/
theorem locate_tidy {source : Text} {i : Interface} (h : locate source = .ok i) :
    i.Tidy ∧ ∀ (file : Text) (r : Recipe) (b : Bridge) (extension : Text),
      r.describe { i with file } = .ok b →
      Text.lines (b.data extension).methodDeclarations = i.methods.map fun m => ("    " : Text) ++
        m.signature ++ ";" := by
  have htidy := tidy_of_locate h
  refine ⟨htidy, ?_⟩
  intro file r b extension hb
  exact lines_methodDeclarations (i := { i with file }) ⟨htidy.name, htidy.methods_ne_nil,
    htidy.methods⟩ hb extension

/-- A declaration that is broken into lines, one of them inside a comment. -/
def broken : Text :=
  "class F {
  virtual char
  *get(int /* a
b */ v
[ 2 ], long k = 1
+ 1) = 0;
};"

def unbroken : Interface :=
  { name := "F", kind := "class", line := 1
    methods := [{ returnType := "char *", name := "get", line := 2
                  parameters := [{ type := "int[ 2 ]", name := "v", declarator := "int v [ 2 ]" },
                    { type := "long", name := "k", default := "1 + 1" }] }] }

theorem locate_tidy_broken : locate broken = .ok unbroken ∧ unbroken.Tidy ∧
    ∃ b, ({} : Recipe).describe unbroken = .ok b ∧
      Text.lines (b.data ".h").methodDeclarations =
        ["    char * get(int v [ 2 ], long k = 1 + 1);"] := by
  have hread : locate broken = .ok unbroken := by decide +kernel
  obtain ⟨htidy, hlines⟩ := locate_tidy hread
  have hok : (({} : Recipe).describe unbroken).isOk = true := by decide +kernel
  cases hb : ({} : Recipe).describe unbroken with
  | error fault =>
    rw [hb] at hok
    cases hok
  | ok b =>
    have hwritten : (unbroken.methods.map fun m => ("    " : Text) ++ m.signature ++ ";") =
        ["    char * get(int v [ 2 ], long k = 1 + 1);"] := by decide +kernel
    exact ⟨hread, htidy, b, rfl, (hlines [] {} b ".h" hb).trans hwritten⟩

end Interface
end HeaderBridge
