import HeaderBridge.Proofs.Bridge.Emission
import HeaderBridge.Proofs.Interface.Descriptor
import HeaderBridge.Proofs.Source.Columns

namespace HeaderBridge

namespace Text

theorem infix_join {t : Text} {ts : List Text} (h : t ∈ ts) (sep : Text) : t <:+: join sep ts := by
  induction ts with
  | nil => cases h
  | cons u ts ih =>
    rw [join, intercalate_cons]
    rcases List.mem_cons.1 h with rfl | h
    · exact (List.prefix_append _ _).isInfix
    · rw [if_neg (List.ne_nil_of_mem h)]
      exact (ih h).trans ⟨u ++ sep, [], by simp [join]⟩

end Text

namespace Style

def lead (style : Style) (returnType : Text) : Text :=
  match style with
  | .direct => if isVoid returnType then [] else "return "
  | .guarded =>
    if isVoid returnType then "if (impl_) \x7b\n    "
    else if isReference returnType then "if (impl_) \x7b\n    return "
    else "return impl_ ? "

def trail (style : Style) (returnType : Text) : Text :=
  match style with
  | .direct => ";"
  | .guarded =>
    if isVoid returnType then ";\n\x7d"
    else if isReference returnType then
      let result : Text :=
        if isRvalueReference returnType then "std::move(fallback)" else "fallback"
      ";\n\x7d\nstatic std::decay_t<" ++ Text.collapse returnType ++
        "> fallback\x7b\x7d;\nreturn " ++ result ++ ";"
    else " : " ++ fallbackValue returnType ++ ";"

end Style

namespace Method

theorem bodyText_eq (style : Style) (m : Method) (call : Text) :
    bodyText style m call = style.lead m.returnType ++ call ++ style.trail m.returnType := by
  cases style with
  | direct =>
    unfold bodyText Style.lead Style.trail
    by_cases hvoid : isVoid m.returnType = true
    · simp only [if_pos hvoid, List.nil_append]
    · simp only [if_neg hvoid]
  | guarded =>
    unfold bodyText Style.lead Style.trail
    by_cases hvoid : isVoid m.returnType = true
    · simp only [if_pos hvoid, List.append_assoc]
    · by_cases hreference : isReference m.returnType = true
      · simp only [if_neg hvoid, if_pos hreference, List.append_assoc]
      · simp only [if_neg hvoid, if_neg hreference, List.append_assoc]

theorem infix_indent {part : Text} (h : newline ∉ part) (x y : Text) :
    part <:+: indent (x ++ part ++ y) := by
  have hpart : ∀ b ∈ part, (b != newline) = true := by
    intro b hb
    have hne : b ≠ newline := by
      intro heq
      exact h (heq ▸ hb)
    simpa using hne
  have hline := Text.getElem?_lines x (part ++ y)
  rw [List.takeWhile_append_of_pos hpart, ← List.append_assoc] at hline
  let line := Pos.lastLine x ++ (part ++ y.takeWhile (· != newline))
  have hinside : part <:+: if line.isEmpty then line else "    " ++ line := by
    have hheld : part <:+: line := ⟨Pos.lastLine x, y.takeWhile (· != newline), by simp [line]⟩
    split
    · exact hheld
    · exact hheld.trans (List.suffix_append _ _).isInfix
  apply hinside.trans
  apply Text.infix_join
  exact List.mem_map.2 ⟨line, List.mem_of_getElem? hline, rfl⟩

/-- The text `t` defines `m` on the bridge: its body hands the arguments on in one call, in front of
and behind which stands what the style puts there for the return type. The call is kept in one piece
unless a name is cut. -/
def Defines (bridge : Text) (style : Style) (m : Method) (t : Text) : Prop :=
  ∃ call : Text,
    call = "impl_->" ++ m.name ++ "(" ++ Text.join ", " (m.parameters.map Parameter.name) ++ ")" ∧
    t = m.definitionHead bridge ++ " \x7b\n" ++
      indent (style.lead m.returnType ++ call ++ style.trail m.returnType) ++ "\n\x7d" ∧
    (newline ∉ m.name → (∀ p ∈ m.parameters, newline ∉ p.name) → call <:+: t)

theorem newline_not_mem_callText {m : Method} (hname : newline ∉ m.name)
    (hparameters : ∀ p ∈ m.parameters, newline ∉ p.name) : newline ∉ m.callText := by
  have harguments : newline ∉ Text.join ", " (m.parameters.map Parameter.name) := by
    intro hmem
    rcases Text.mem_join hmem with hcomma | ⟨_, hargument, hnewline⟩
    · exact absurd hcomma (by decide)
    · obtain ⟨p, hp, rfl⟩ := List.mem_map.1 hargument
      exact hparameters p hp hnewline
  have hsigns : newline ∉ ("impl_->" : Text) ∧ newline ∉ ("(" : Text) ∧ newline ∉ (")" : Text) := by
    decide
  simp [callText, hname, harguments, hsigns]

variable {m : Method} {bridge t : Text} {style : Style}

theorem defines_of_definition (h : m.definition bridge style = .ok t) :
    m.Defines bridge style t := by
  cases hunnamed : m.unnamed? with
  | some index =>
    rw [definition, body, call, hunnamed] at h
    cases h
  | none =>
    rw [definition, body, call, hunnamed] at h
    have htext : t = m.definitionHead bridge ++ " \x7b\n" ++
        indent (style.lead m.returnType ++ m.callText ++ style.trail m.returnType) ++ "\n\x7d" := by
      rw [← bodyText_eq]
      exact (Except.ok.inj h).symm
    refine ⟨m.callText, rfl, htext, fun hname hparameters => ?_⟩
    have hheld :=
      infix_indent (newline_not_mem_callText hname hparameters) (style.lead m.returnType)
      (style.trail m.returnType)
    rw [htext]
    exact hheld.trans ⟨m.definitionHead bridge ++ " \x7b\n", "\n\x7d", rfl⟩

end Method

section Culprit

theorem mapM_error {α β ε : Type} {f : α → Except ε β} {before behind : List α} {x : α} {e : ε}
    (hbefore : ∀ y ∈ before, ∃ z, f y = .ok z) (hx : f x = .error e) :
    (before ++ x :: behind).mapM f = .error e := by
  induction before with
  | nil =>
    rw [List.nil_append, List.mapM_cons, hx]
    rfl
  | cons y before ih =>
    obtain ⟨z, hz⟩ := hbefore y List.mem_cons_self
    rw [List.cons_append, List.mapM_cons, hz, ih fun w hw => hbefore w (List.mem_cons_of_mem y hw)]
    rfl

/-- A list is free of what is looked for, or is split at the first place where it stands. -/
theorem exists_first {α : Type} (p : α → Prop) [DecidablePred p] (xs : List α) :
    (∀ x ∈ xs, ¬p x) ∨ ∃ before x behind, xs = before ++ x :: behind ∧ (∀ y ∈ before, ¬p y) ∧
    p x := by
  cases hfind : xs.find? (p ·) with
  | none =>
    rw [List.find?_eq_none] at hfind
    exact .inl fun x hx => by simpa using hfind x hx
  | some x =>
    rw [List.find?_eq_some_iff_append] at hfind
    obtain ⟨hx, before, behind, hsplit, hbefore⟩ := hfind
    exact .inr ⟨before, x, behind, hsplit, fun y hy => by simpa using hbefore y hy,
      by simpa using hx⟩

/-- The parameter of `m` at `index` is the first of the interface that has no name. -/
structure Interface.Culprit (i : Interface) (m : Method) (index : Nat) : Prop where
  method : ∃ before behind, i.methods = before ++ m :: behind ∧ ∀ n ∈ before, ∀ p ∈ n.parameters,
      p.name ≠ []
  parameter : ∃ named p rest, m.parameters = named ++ p :: rest ∧ named.length = index ∧
    (∀ q ∈ named, q.name ≠ []) ∧ p.name = []

variable {i : Interface} {m : Method} {index : Nat}

theorem Interface.isNamed_or_culprit (i : Interface) :
    i.IsNamed ∨ ∃ m index, i.Culprit m index := by
  rcases exists_first (fun m : Method => ∃ p ∈ m.parameters, p.name = []) i.methods with
    hall | ⟨before, m, behind, hmethods, hbefore, hm⟩
  · left
    intro m hm p hp hname
    exact hall m hm ⟨p, hp, hname⟩
  · rcases exists_first (fun p : Parameter => p.name = []) m.parameters with
      hall | ⟨named, p, rest, hparameters, hnamed, hp⟩
    · obtain ⟨p, hp, hname⟩ := hm
      exact absurd hname (hall p hp)
    · refine .inr ⟨m, named.length, ⟨before, behind, hmethods, ?_⟩,
        ⟨named, p, rest, hparameters, rfl, hnamed, hp⟩⟩
      intro n hn q hq hname
      exact hbefore n hn ⟨q, hq, hname⟩

theorem Interface.Culprit.unnamed? (h : i.Culprit m index) : m.unnamed? = some index := by
  obtain ⟨named, p, rest, hparameters, rfl, hnamed, hp⟩ := h.parameter
  have hnone : named.findIdx? (·.name.isEmpty) = none := by
    rw [List.findIdx?_eq_none_iff]
    intro q hq
    simpa using hnamed q hq
  rw [Method.unnamed?, hparameters, List.findIdx?_append, hnone, List.findIdx?_cons, hp]
  simp

theorem Interface.Culprit.definition (h : i.Culprit m index) (bridge : Text) (style : Style) :
    m.definition bridge style = .error ⟨m, index⟩ := by
  rw [Method.definition, Method.body, Method.call, h.unnamed?]
  rfl

theorem Interface.Culprit.describe (h : i.Culprit m index) (r : Recipe) : r.describe i =
    .error (.coded (Notice.inFile (Unforwardable.notice ⟨m, index⟩) i.file) none) := by
  obtain ⟨before, behind, hmethods, hbefore⟩ := h.method
  let name := r.naming.bridgeName i.name
  have hmap : i.methods.mapM (·.definition name r.style) = .error ⟨m, index⟩ := by
    rw [hmethods]
    exact mapM_error (fun n hn => Method.exists_definition (hbefore n hn) name r.style)
      (h.definition name r.style)
  unfold Recipe.describe
  dsimp only
  rw [hmap]
  exact congrArg Except.error (Fault.inFile_ofNotice rfl i.file)

end Culprit

namespace Recipe

theorem exists_describe {i : Interface} (h : i.IsNamed) (r : Recipe) : ∃ b, r.describe i = .ok b ∧
    b.name = r.naming.bridgeName i.name ∧
    List.Forall₂ (Method.Defines b.name r.style) i.methods b.definitions := by
  let name := r.naming.bridgeName i.name
  obtain ⟨definitions, hmap, hall⟩ :=
    mapM_ok fun m hm => Method.exists_definition (h m hm) name r.style
  refine ⟨⟨name, i, i.methods.map Method.declaration, definitions⟩, ?_, rfl, ?_⟩
  · unfold describe
    dsimp only
    rw [hmap]
  · exact hall.imp fun m t => Method.defines_of_definition

theorem defines_of_describe {r : Recipe} {i : Interface} {b : Bridge} (hb : r.describe i = .ok b) :
    b.name = r.naming.bridgeName i.name ∧
      List.Forall₂ (Method.Defines b.name r.style) i.methods b.definitions := by
  rcases i.isNamed_or_culprit with hnamed | ⟨m, index, hculprit⟩
  · obtain ⟨b', hb', hdefines⟩ := exists_describe hnamed r
    obtain rfl := Except.ok.inj (hb.symm.trans hb')
    exact hdefines
  · rw [hculprit.describe] at hb
    cases hb

/-- An interface is described whole or not at all. If all its parameters have names, it gets a
declaration and a definition for each method, in order; otherwise the fault tells of the first one
that has none, before any template is looked at. -/
theorem describe_outcome (r : Recipe) (i : Interface) :
    ((∃ b, r.describe i = .ok b) ↔ i.IsNamed) ∧
    (∀ b, r.describe i = .ok b → b.interface = i ∧ b.name = r.naming.bridgeName i.name ∧
      b.declarations = i.methods.map (fun m => m.signature ++ (";" : Text)) ∧
      List.Forall₂ (Method.Defines b.name r.style) i.methods b.definitions) ∧
    ∀ fault, r.describe i = .error fault → ∃ m index notice, i.Culprit m index ∧
      fault = .coded notice none ∧
      notice.code = .unforwardable ∧ notice.detail? "method" = some (.text m.name) ∧
      notice.detail? "declaration" = some (.text (m.signature ++ ";")) ∧
      notice.detail? "parameter_index" = some (.int index) ∧
      notice.location = { file := i.file, line := m.line } ∧
      ∀ shelf reader disk, ({ r with shelf } : Recipe).generate reader disk i =
        (.error fault, reader) := by
  refine ⟨⟨?_, ?_⟩, ?_, ?_⟩
  · rintro ⟨b, hb⟩
    rcases i.isNamed_or_culprit with hnamed | ⟨m, index, hculprit⟩
    · exact hnamed
    · rw [hculprit.describe] at hb
      cases hb
  · intro hnamed
    obtain ⟨b, hb, -⟩ := exists_describe hnamed r
    exact ⟨b, hb⟩
  · intro b hb
    obtain ⟨hname, hdefinitions⟩ := defines_of_describe hb
    obtain ⟨hinterface, hdeclarations⟩ := eq_of_describe hb
    exact ⟨hinterface, hname, hdeclarations, hdefinitions⟩
  · intro fault hfault
    rcases i.isNamed_or_culprit with hnamed | ⟨m, index, hculprit⟩
    · obtain ⟨b, hb, -⟩ := exists_describe hnamed r
      rw [hb] at hfault
      cases hfault
    · have hdescribe := hculprit.describe r
      rw [hfault] at hdescribe
      obtain rfl := Except.error.inj hdescribe
      refine ⟨m, index, _, hculprit, rfl, rfl, rfl, rfl, rfl, rfl, fun shelf reader disk => ?_⟩
      unfold generate
      rw [hculprit.describe]

/-- A method whose name is cut by a newline, as no header can have it. -/
def cut : Interface := { name := "I", methods := [{ returnType := "void", name := "f\ng" }] }

/-- The second part of the name is taken for a line of its own and indented. -/
theorem describe_cut : cut.IsNamed ∧ ∃ b, ({ style := .direct } : Recipe).describe cut = .ok b ∧
    b.definitions = ["void IBridge::f\ng() \x7b\n    impl_->f\n    g();\n\x7d"] ∧
    ¬("impl_->f\ng()" : Text) <:+: "void IBridge::f\ng() \x7b\n    impl_->f\n    g();\n\x7d" := by
  have hnamed : cut.IsNamed := by
    unfold Interface.IsNamed
    decide
  have hmap : cut.methods.mapM (·.definition "IBridge" .direct) =
      .ok ["void IBridge::f\ng() \x7b\n    impl_->f\n    g();\n\x7d"] := by decide +kernel
  have hdescribe : ({ style := .direct } : Recipe).describe cut =
      .ok ⟨"IBridge", cut, cut.methods.map Method.declaration,
      ["void IBridge::f\ng() \x7b\n    impl_->f\n    g();\n\x7d"]⟩ := by
    have hname : Naming.bridgeName (.append Naming.defaultSuffix) cut.name = "IBridge" := rfl
    unfold describe
    dsimp only
    rw [hname, hmap]
  exact ⟨hnamed, _, hdescribe, rfl, by decide +kernel⟩

end Recipe

/-- The names of a header are never cut, so the definitions hold the calls as they are. -/
theorem Interface.Tidy.infix_definitions {i : Interface} (h : i.Tidy) {r : Recipe} {b : Bridge}
    (hb : r.describe i = .ok b) :
    List.Forall₂ (fun m t => m.callText <:+: t) i.methods b.definitions := by
  have hparts :=
    (List.forall₂_and_left i.methods b.definitions).2 ⟨h.methods, (Recipe.defines_of_describe hb).2⟩
  refine hparts.imp ?_
  rintro m t ⟨htidy, call, hcall, -, hheld⟩
  have hname : newline ∉ m.name := Text.newline_not_mem_identifier htidy.name.1
  have hcalled := hheld hname fun p hp => (htidy.parameters p hp).newline_not_mem_name
  rw [hcall] at hcalled
  exact hcalled

end HeaderBridge
