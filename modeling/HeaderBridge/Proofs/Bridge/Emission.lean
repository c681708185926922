import HeaderBridge.Bridge.Generate
import HeaderBridge.Proofs.Template.Substitution
import Mathlib.Data.List.Forall2

namespace HeaderBridge

open Template

namespace Bridge.Data

/-- The fields that are texts, under the names that templates use. -/
def slots (d : Data) : List (Text × Text) :=
  [("BridgeName", d.bridgeName), ("InterfaceName", d.interfaceName),
   ("QualifiedInterfaceName", d.qualifiedInterfaceName), ("Namespace", d.scope),
   ("ForwardDeclaration", d.forwardDeclaration), ("InterfaceHeader", d.interfaceHeader),
   ("BridgeHeader", d.bridgeHeader), ("GuardMacro", d.guardMacro),
   ("MethodDeclarations", d.methodDeclarations), ("MethodDefinitions", d.methodDefinitions)]

def slotNames : List Text :=
  ["BridgeName", "InterfaceName", "QualifiedInterfaceName", "Namespace", "ForwardDeclaration",
   "InterfaceHeader", "BridgeHeader", "GuardMacro", "MethodDeclarations", "MethodDefinitions"]

theorem map_fst_slots (d : Data) : d.slots.map Prod.fst = slotNames := rfl

theorem named_slots (d : Data) : Named d.slots := by
  have hnames : ∀ name ∈ slotNames, ('}' : UInt8) ∉ name := by decide
  intro f hf
  exact hnames f.1 (d.map_fst_slots ▸ List.mem_map_of_mem hf)

theorem holds_value (d : Data) : d.value.Holds d.slots := by
  have htexts : ∀ {fields : List (Text × Text)} {name value : Text}, fields.lookup name =
      some value →
      (fields.map fun f => (f.1, Value.text f.2)).lookup name = some (.text value) := by
    intro fields name value h
    induction fields with
    | nil => cases h
    | cons f fields ih =>
      rw [List.map_cons, List.lookup_cons]
      rw [List.lookup_cons] at h
      cases hname : name == f.1 with
      | true =>
        rw [hname] at h
        rw [← Option.some.inj h]
      | false =>
        rw [hname] at h
        exact ih h
  intro name value h
  -- the texts come first in the record, so what stands behind them does not count
  have hfields : ∃ more,
      d.value = .record "templates.Data" ((d.slots.map fun f => (f.1, Value.text f.2)) ++ more) :=
    ⟨_, rfl⟩
  obtain ⟨more, hvalue⟩ := hfields
  rw [hvalue, Value.field?, List.lookup_append, htexts h]
  rfl

end Bridge.Data

namespace Template

/-- Whether a template is text and fields of a bridge alone, and asks for the given one. -/
def asks (field template : Text) : Bool :=
  (pieces template).any fun ps => ps.all (Piece.isSlot Bridge.Data.slotNames) &&
    ps.flatMap Piece.written == template && ps.contains (.action [.field field])

theorem exists_slotted {field template : Text} (h : asks field template = true) (d : Bridge.Data) :
    ∃ ps, Slotted (d.slots.map Prod.fst) template ps ∧ .action [.field field] ∈ ps := by
  rw [asks, Option.any_eq_true] at h
  obtain ⟨ps, hread, h⟩ := h
  rw [Bool.and_eq_true, Bool.and_eq_true, List.all_eq_true, beq_iff_eq, List.contains_iff_mem] at h
  exact ⟨ps, ⟨hread, h.1.1, h.1.2⟩, h.2⟩

/-- The built-in templates are text and fields alone; one asks for the declarations, the other for
the definitions. -/
theorem asks_builtIn {p : Pair} (h : p ∈ Pair.builtIn) :
    asks "MethodDeclarations" p.declaration = true ∧
    asks "MethodDefinitions" p.definition = true := by
  have hall : (Pair.builtIn.all fun p =>
      asks "MethodDeclarations" p.declaration && asks "MethodDefinitions" p.definition) = true := by
        decide +kernel
  exact Bool.and_eq_true_iff.1 (List.all_eq_true.1 hall p h)

theorem marker_builtIn {p : Pair} (h : p ∈ Pair.builtIn) :
    (∃ rest, p.declaration = marker ++ rest) ∧ ∃ rest, p.definition = marker ++ rest := by
  have hpage (lines : List Text) : ∃ rest, Pair.page lines = marker ++ rest :=
    ⟨newline :: lines.flatMap (· ++ [newline]), by simp [Pair.page]⟩
  rw [Pair.builtIn, List.mem_cons, List.mem_singleton] at h
  rcases h with rfl | rfl
  · exact ⟨hpage _, hpage _⟩
  · exact ⟨hpage _, hpage _⟩

theorem Shelf.pair_builtIn {p : Pair} (h : p ∈ Pair.builtIn) (reader : Reader) (d : Disk) :
    Shelf.builtIn.pair reader d p.name = (.ok (p.declaration, p.definition), reader) := by
  rw [Pair.builtIn, List.mem_cons, List.mem_singleton] at h
  rcases h with rfl | rfl
  · rfl
  · rfl

end Template

def Interface.IsNamed (i : Interface) : Prop := ∀ m ∈ i.methods, ∀ p ∈ m.parameters, p.name ≠ []

theorem Method.exists_definition {m : Method} (h : ∀ p ∈ m.parameters, p.name ≠ []) (bridge : Text)
    (style : Style) : ∃ t, m.definition bridge style = .ok t := by
  have hnone : m.unnamed? = none := by
    rw [unnamed?, List.findIdx?_eq_none_iff]
    intro p hp
    simpa using h p hp
  have hcall : m.call = .ok m.callText := by rw [call, hnone]
  exact ⟨_, by rw [definition, body, hcall]; rfl⟩

theorem mapM_eq_ok {α β ε : Type} {f : α → Except ε β} {xs : List α} {ys : List β} :
    xs.mapM f = .ok ys ↔ List.Forall₂ (fun x y => f x = .ok y) xs ys := by
  induction xs generalizing ys with
  | nil => simp [pure, Except.pure, eq_comm]
  | cons x xs ih =>
    rw [List.mapM_cons, List.forall₂_cons_left_iff]
    cases hx : f x with
    | error e => simp [bind, Except.bind]
    | ok y =>
      cases hxs : xs.mapM f with
      | error e => simp [bind, Except.bind, ← ih, hxs]
      | ok zs => simp [bind, Except.bind, ← ih, hxs, pure, Except.pure, eq_comm]

theorem mapM_ok {α β ε : Type} {f : α → Except ε β} {xs : List α} (h : ∀ x ∈ xs, ∃ y, f x = .ok y) :
    ∃ ys, xs.mapM f = .ok ys ∧ List.Forall₂ (fun x y => f x = .ok y) xs ys := by
  simp only [mapM_eq_ok, and_self]
  induction xs with
  | nil => exact ⟨[], .nil⟩
  | cons x xs ih =>
    obtain ⟨y, hy⟩ := h x List.mem_cons_self
    obtain ⟨ys, hys⟩ := ih fun z hz => h z (List.mem_cons_of_mem _ hz)
    exact ⟨y :: ys, .cons hy hys⟩

namespace Bridge

theorem emit_builtIn {p : Pair} (h : p ∈ Pair.builtIn) (b : Bridge) (extension : Text) :
    b.emit extension p.declaration p.definition =
      .ok (substitute (b.data extension).slots p.declaration,
      substitute (b.data extension).slots p.definition) := by
  obtain ⟨hdeclaration, hdefinition⟩ := asks_builtIn h
  obtain ⟨ps, hps, -⟩ := exists_slotted hdeclaration (b.data extension)
  obtain ⟨qs, hqs, -⟩ := exists_slotted hdefinition (b.data extension)
  have hnamed := (b.data extension).named_slots
  have hholds := (b.data extension).holds_value
  unfold emit
  dsimp only
  rw [hps.fill hnamed hholds, hqs.fill hnamed hholds]
  rfl

/-- A built-in template keeps the marker in front and holds its members as they are. -/
theorem marker_substitute {p : Pair} (h : p ∈ Pair.builtIn) (d : Data) :
    marker <+: substitute d.slots p.declaration ∧ marker <+: substitute d.slots p.definition := by
  have hfront {template : Text} (hrest : ∃ rest, template = marker ++ rest) :
      marker <+: substitute d.slots template := by
    obtain ⟨rest, rfl⟩ := hrest
    rw [substitute_plain (by decide)]
    exact List.prefix_append _ _
  exact ⟨hfront (marker_builtIn h).1, hfront (marker_builtIn h).2⟩

theorem members_substitute {p : Pair} (h : p ∈ Pair.builtIn) (d : Data) :
    d.methodDeclarations <:+: substitute d.slots p.declaration ∧
      d.methodDefinitions <:+: substitute d.slots p.definition := by
  obtain ⟨hdeclaration, hdefinition⟩ := asks_builtIn h
  obtain ⟨ps, hps, hasked⟩ := exists_slotted hdeclaration d
  obtain ⟨qs, hqs, hasked'⟩ := exists_slotted hdefinition d
  exact ⟨hps.infix_substitute d.named_slots rfl hasked,
    hqs.infix_substitute d.named_slots rfl hasked'⟩

end Bridge

theorem Recipe.emit_builtIn {p : Pair} (h : p ∈ Pair.builtIn) (r : Recipe) (b : Bridge) :
    ∃ g, r.emit b (p.declaration, p.definition) = .ok g ∧
      g.declaration.content = substitute (b.data r.headerEnding).slots p.declaration ∧
      g.definition.content = substitute (b.data r.headerEnding).slots p.definition := by
  unfold emit
  rw [Bridge.emit_builtIn h]
  exact ⟨_, rfl, rfl, rfl⟩

theorem Recipe.marker_of_generate {r : Recipe} (hshelf : r.shelf = Shelf.builtIn) {p : Pair}
    (hp : p ∈ Pair.builtIn) (hpair : r.pairName = p.name) {i : Interface} {reader : Reader}
    {d : Disk} {g : Generated} (h : (r.generate reader d i).1 = .ok g) :
    marker <+: g.declaration.content ∧ marker <+: g.definition.content := by
  unfold generate at h
  split at h
  · cases h
  · rename_i b hb
    obtain ⟨g', hemit, hdeclaration, hdefinition⟩ := emit_builtIn hp r b
    rw [hshelf, hpair, Shelf.pair_builtIn hp] at h
    dsimp only at h
    rw [hemit] at h
    cases h
    rw [hdeclaration, hdefinition]
    exact Bridge.marker_substitute hp (b.data r.headerEnding)

/-- A built-in pair never fails an interface whose parameters have names. Both files are the
templates of the pair with their placeholders replaced, and nothing else: they start with the
marker, and hold one declaration and one definition for each method, in order and next to each
other. -/
theorem Recipe.generate_builtIn {r : Recipe} (hshelf : r.shelf = Shelf.builtIn) {p : Pair}
    (hp : p ∈ Pair.builtIn) (hpair : r.pairName = p.name) {i : Interface} (hnamed : i.IsNamed)
    (reader : Reader) (d : Disk) :
    ∃ definitions g, List.Forall₂ (fun m t => m.definition (r.naming.bridgeName i.name) r.style =
        .ok t) i.methods definitions ∧
      r.generate reader d i = (.ok g, reader) ∧
      let b : Bridge :=
        ⟨r.naming.bridgeName i.name, i, i.methods.map Method.declaration, definitions⟩
      g.declaration.content = substitute (b.data r.headerEnding).slots p.declaration ∧
      g.definition.content = substitute (b.data r.headerEnding).slots p.definition ∧
      marker <+: g.declaration.content ∧ marker <+: g.definition.content ∧
      Text.join "\n" (i.methods.map fun m => "    " ++ m.declaration) <:+: g.declaration.content ∧
      Text.join "\n\n" definitions <:+: g.definition.content := by
  let name := r.naming.bridgeName i.name
  obtain ⟨definitions, hmap, hall⟩ :=
    mapM_ok fun m hm => Method.exists_definition (hnamed m hm) name r.style
  let b : Bridge := ⟨name, i, i.methods.map Method.declaration, definitions⟩
  have hdescribe : r.describe i = .ok b := by
    unfold describe
    dsimp only
    rw [hmap]
  have hgenerate : r.generate reader d i = (r.emit b (p.declaration, p.definition), reader) := by
    unfold generate
    rw [hdescribe, hshelf, hpair, Shelf.pair_builtIn hp]
  obtain ⟨g, hemit, hdeclaration, hdefinition⟩ := emit_builtIn hp r b
  rw [hemit] at hgenerate
  obtain ⟨hmarker, hmarker'⟩ := Bridge.marker_substitute hp (b.data r.headerEnding)
  obtain ⟨hdeclarations, hdefinitions⟩ := Bridge.members_substitute hp (b.data r.headerEnding)
  have hjoined : (b.data r.headerEnding).methodDeclarations =
      Text.join "\n" (i.methods.map fun m => "    " ++ m.declaration) := by
    unfold Bridge.data
    dsimp only [b]
    rw [List.map_map]
    rfl
  rw [hjoined] at hdeclarations
  rw [← hdeclaration] at hmarker hdeclarations
  rw [← hdefinition] at hmarker' hdefinitions
  exact ⟨definitions, g, hall, hgenerate, hdeclaration, hdefinition, hmarker, hmarker',
    hdeclarations, hdefinitions⟩

def braced : Interface :=
  { name := "IShape"
    methods := [{ returnType := "void", name := "f", parameters :=
      [{ type := "const char*", name := "s", default := "\"\x7b\x7b.BridgeName\x7d\x7d\"" }] }] }

theorem Recipe.generate_builtIn_braced :
    braced.IsNamed ∧ ∃ g, (({} : Recipe).generate {} Disk.empty braced).1 = .ok g ∧
    marker <+: g.declaration.content ∧
    ("    void f(const char* s = \"\x7b\x7b.BridgeName\x7d\x7d\");" : Text) <:+:
      g.declaration.content := by
  have hnamed : braced.IsNamed := by
    unfold Interface.IsNamed
    decide
  have hpair : Pair.uniquePtr ∈ Pair.builtIn := by simp [Pair.builtIn]
  obtain ⟨definitions, g, -, hgenerate, -, -, hmarker, -, hdeclarations, -⟩ :=
    generate_builtIn (r := {}) rfl hpair rfl hnamed {} Disk.empty
  exact ⟨hnamed, g, congrArg Prod.fst hgenerate, hmarker, hdeclarations⟩

end HeaderBridge
