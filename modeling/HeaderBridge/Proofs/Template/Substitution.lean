import HeaderBridge.Template.Fill

namespace HeaderBridge.Template

variable {fields : List (Text × Text)}

def placeholder (name : Text) : Text := "\x7b\x7b." ++ (name ++ "\x7d\x7d")

/-- Reads on behind `skip` bytes. At each byte the first field whose placeholder starts there is put
in; a byte where none starts is kept. -/
def substituteFrom (fields : List (Text × Text)) : Nat → Text → Text
  | _, [] => []
  | skip + 1, _ :: rest => substituteFrom fields skip rest
  | 0, a :: rest =>
    match fields.find? fun f => (placeholder f.1).isPrefixOf (a :: rest) with
    | some f => f.2 ++ substituteFrom fields ((placeholder f.1).length - 1) rest
    | none => a :: substituteFrom fields 0 rest

def substitute (fields : List (Text × Text)) (t : Text) : Text := substituteFrom fields 0 t

theorem substituteFrom_length (skipped rest : Text) :
    substituteFrom fields skipped.length (skipped ++ rest) = substitute fields rest := by
  induction skipped with
  | nil => rfl
  | cons a skipped ih => exact ih

theorem not_prefix_of_single {a : UInt8} {rest : Text}
    (h : a ≠ '{' ∨ rest.head? ≠ some ('{' : UInt8)) (name : Text) :
    (placeholder name).isPrefixOf (a :: rest) = false := by
  have hstart : placeholder name =
      ('{' : UInt8) :: ('{' : UInt8) :: ('.' : UInt8) :: (name ++ "\x7d\x7d") := rfl
  rw [hstart, List.isPrefixOf_cons_cons]
  cases rest with
  | nil => simp [List.isPrefixOf]
  | cons b rest =>
    rw [List.isPrefixOf_cons_cons]
    rcases h with h | h
    · simp [Ne.symm h]
    · have hb : ('{' : UInt8) ≠ b := fun heq => h (by rw [heq]; rfl)
      simp [hb]

theorem substitute_cons {a : UInt8} {rest : Text} (h : a ≠ '{' ∨ rest.head? ≠ some ('{' : UInt8)) :
    substitute fields (a :: rest) = a :: substitute fields rest := by
  have hnone : (fields.find? fun f => (placeholder f.1).isPrefixOf (a :: rest)) = none := by
    rw [List.find?_eq_none]
    intro f _
    rw [not_prefix_of_single h]
    exact Bool.false_ne_true
  unfold substitute
  rw [substituteFrom, hnone]

/-- Text in which no placeholder can start, whatever stands behind it: no two braces stand together,
and none at the end. -/
def isPlain : Text → Bool
  | [] => true
  | [a] => a != '{'
  | a :: b :: rest => !(a == '{' && b == '{') && isPlain (b :: rest)

theorem substitute_plain {t : Text} (h : isPlain t = true) (rest : Text) :
    substitute fields (t ++ rest) = t ++ substitute fields rest := by
  fun_induction isPlain t with
  | case1 => rfl
  | case2 a =>
    rw [List.singleton_append, substitute_cons (.inl (bne_iff_ne.1 h))]
    rfl
  | case3 a b t ih =>
    rw [Bool.and_eq_true, Bool.not_eq_true', Bool.and_eq_false_iff] at h
    have hsingle : a ≠ '{' ∨ ((b :: t) ++ rest).head? ≠ some ('{' : UInt8) := by
      rcases h.1 with ha | hb
      · exact .inl (by simpa using ha)
      · exact .inr (by simpa using hb)
    rw [List.cons_append, substitute_cons hsingle, ih h.2]
    rfl

theorem name_prefix_iff {x y : Text} (hx : ('}' : UInt8) ∉ x) (hy : ('}' : UInt8) ∉ y)
    (rest : Text) : (x ++ ("\x7d\x7d" : Text)) <+: (y ++ ("\x7d\x7d" : Text)) ++ rest ↔ x = y := by
  -- on both names at once: a closing brace stands behind the shorter one, and the longer one holds
  -- none
  induction x generalizing y with
  | nil =>
    cases y with
    | nil => exact ⟨fun _ => rfl, fun _ => List.prefix_append _ _⟩
    | cons b y =>
      constructor
      · intro hprefix
        have hb : ('}' : UInt8) = b := (List.cons_prefix_cons.1 hprefix).1
        exact absurd (hb ▸ List.mem_cons_self) hy
      · intro heq
        cases heq
  | cons a x ih =>
    rw [List.mem_cons, not_or] at hx
    cases y with
    | nil =>
      constructor
      · intro hprefix
        exact absurd (List.cons_prefix_cons.1 hprefix).1.symm hx.1
      · intro heq
        cases heq
    | cons b y =>
      rw [List.mem_cons, not_or] at hy
      rw [List.cons_append, List.cons_append, List.cons_append, List.cons_prefix_cons, ih hx.2 hy.2,
        List.cons.injEq]

theorem placeholder_prefix_iff {name name' : Text} (h : ('}' : UInt8) ∉ name)
    (h' : ('}' : UInt8) ∉ name') (rest : Text) :
    (placeholder name').isPrefixOf (placeholder name ++ rest) = true ↔ name' = name := by
  rw [List.isPrefixOf_iff_prefix, ← name_prefix_iff h' h rest]
  unfold placeholder
  rw [List.append_assoc, List.prefix_append_right_inj]

def Named (fields : List (Text × Text)) : Prop := ∀ f ∈ fields, ('}' : UInt8) ∉ f.1

theorem find?_placeholder (hnamed : Named fields) {name value : Text} (hname : ('}' : UInt8) ∉ name)
    (hvalue : fields.lookup name = some value) (rest : Text) :
    (fields.find? fun f => (placeholder f.1).isPrefixOf (placeholder name ++ rest)) =
      some (name, value) := by
  induction fields with
  | nil => cases hvalue
  | cons f fields ih =>
    obtain ⟨key, v⟩ := f
    have hkey := placeholder_prefix_iff hname (hnamed _ List.mem_cons_self) rest
    rw [List.lookup_cons] at hvalue
    -- a field before the one that is asked for has another name, so its placeholder does not start
    -- here
    by_cases heq : key = name
    · subst heq
      obtain rfl : v = value := by simpa using hvalue
      rw [List.find?_cons, hkey.2 rfl]
    · have hne : (name == key) = false := by simpa using Ne.symm heq
      rw [hne] at hvalue
      rw [List.find?_cons, Bool.eq_false_iff.2 (mt hkey.1 heq)]
      exact ih (fun g hg => hnamed g (List.mem_cons_of_mem _ hg)) hvalue

theorem not_mem_of_lookup (hnamed : Named fields) {name value : Text}
    (hvalue : fields.lookup name = some value) : ('}' : UInt8) ∉ name := by
  induction fields with
  | nil => cases hvalue
  | cons f fields ih =>
    rw [List.lookup_cons] at hvalue
    split at hvalue
    · rename_i heq
      rw [beq_iff_eq.1 heq]
      exact hnamed f List.mem_cons_self
    · exact ih (fun g hg => hnamed g (List.mem_cons_of_mem _ hg)) hvalue

theorem substitute_placeholder (hnamed : Named fields) {name value : Text}
    (hvalue : fields.lookup name = some value) (rest : Text) :
    substitute fields (placeholder name ++ rest) = value ++ substitute fields rest := by
  have hfind := find?_placeholder hnamed (not_mem_of_lookup hnamed hvalue) hvalue rest
  obtain ⟨a, tail, htail⟩ : ∃ a tail, placeholder name = a :: tail := ⟨_, _, rfl⟩
  have hlength : (placeholder name).length - 1 = tail.length := by rw [htail]; rfl
  rw [htail, List.cons_append] at hfind ⊢
  rw [substitute, substituteFrom, hfind]
  dsimp only
  rw [hlength, substituteFrom_length]

def Piece.isSlot (names : List Text) : Piece → Bool
  | .text t => isPlain t
  | .action [.field name] => names.contains name
  | .action _ => false

/-- A piece as it is written. -/
def Piece.written : Piece → Text
  | .text t => t
  | .action [.field name] => placeholder name
  | .action _ => []

def Piece.filled (fields : List (Text × Text)) : Piece → Text
  | .text t => t
  | .action [.field name] => (fields.lookup name).getD []
  | .action _ => []

/-- A template of text and fields alone, with its pieces. -/
structure Slotted (names : List Text) (template : Text) (ps : List Piece) : Prop where
  read : pieces template = some ps
  slots : ∀ p ∈ ps, p.isSlot names = true
  written : ps.flatMap Piece.written = template

section Slots

variable {names : List Text} {ps : List Piece}

theorem Piece.isSlot_cases {p : Piece} (h : p.isSlot names = true) :
    (∃ t, p = .text t ∧ isPlain t = true) ∨ ∃ name, p = .action [.field name] ∧ name ∈ names := by
  match p, h with
  | .text t, h => exact .inl ⟨t, rfl, h⟩
  | .action [.field name], h => exact .inr ⟨name, rfl, List.contains_iff_mem.1 h⟩

def fieldPipeline (name : Text) : Pipeline := ⟨[], false, [[.field [name]]]⟩

/-- What a piece that is text or asks for a field is understood as. -/
def Piece.item : Piece → Item
  | .text t => .text t
  | .action [.field name] => .action (fieldPipeline name)
  | .action _ => .text []

def Piece.node : Piece → Node
  | .text t => .text t
  | .action [.field name] => .action (fieldPipeline name)
  | .action _ => .text []

theorem Item.ofPiece_slot {p : Piece} (h : p.isSlot names = true) (functions : List Text) :
    Item.ofPiece functions p = some p.item := by
  rcases p.isSlot_cases h with ⟨t, rfl, -⟩ | ⟨name, rfl, -⟩
  · rfl
  · rfl

theorem mapM_ofPiece (h : ∀ p ∈ ps, p.isSlot names = true) (functions : List Text) :
    ps.mapM (Item.ofPiece functions) = some (ps.map Piece.item) := by
  induction ps with
  | nil => rfl
  | cons p ps ih =>
    rw [List.mapM_cons, Item.ofPiece_slot (h p List.mem_cons_self),
      ih fun q hq => h q (List.mem_cons_of_mem _ hq)]
    rfl

theorem readNodes_slots (h : ∀ p ∈ ps, p.isSlot names = true) (top : Bool) (ds : List Definition)
    {fuel : Nat} (hfuel : ps.length < fuel) :
    readNodes top ds fuel (ps.map Piece.item) = some ⟨ps.map Piece.node, .all, ds, []⟩ := by
  induction ps generalizing fuel with
  | nil =>
    obtain ⟨fuel, rfl⟩ : ∃ k, fuel = k + 1 := ⟨fuel - 1, by omega⟩
    rfl
  | cons p ps ih =>
    rw [List.length_cons] at hfuel
    obtain ⟨fuel, rfl⟩ : ∃ k, fuel = k + 1 := ⟨fuel - 1, by omega⟩
    have ih := ih (fun q hq => h q (List.mem_cons_of_mem _ hq)) (show ps.length < fuel by omega)
    rw [List.map_cons, List.map_cons]
    rcases p.isSlot_cases (h p List.mem_cons_self) with ⟨t, rfl, -⟩ | ⟨name, rfl, -⟩
    all_goals
      simp only [Piece.item, Piece.node, readNodes, ih]
      rfl

theorem scopeNodes_slots (h : ∀ p ∈ ps, p.isSlot names = true) (inLoop : Bool) (known : List Text) :
    scopeNodes inLoop known (ps.map Piece.node) = some known := by
  induction ps generalizing known with
  | nil => rfl
  | cons p ps ih =>
    have ih := ih (fun q hq => h q (List.mem_cons_of_mem _ hq)) known
    rw [List.map_cons]
    rcases p.isSlot_cases (h p List.mem_cons_self) with ⟨t, rfl, -⟩ | ⟨name, rfl, -⟩
    · exact ih
    · simp [Piece.node, scopeNodes, scopeNode, scopePipeline, fieldPipeline, scopeCommands,
        scopeArguments, scopeOperand, ih]

theorem Slotted.parse {template : Text} (h : Slotted names template ps) (functions : List Text)
    (name : Text) : parse functions name template = some [(name, ps.map Piece.node)] := by
  have hread := readNodes_slots h.slots true [] (show ps.length < 3 * ps.length + 3 by omega)
  have hdefine : define name (ps.map Piece.node) [] = some [(name, ps.map Piece.node)] := rfl
  simp [Template.parse, h.read, mapM_ofPiece h.slots functions, hread, hdefine,
    scopeNodes_slots h.slots]

end Slots

section Fields

variable {template : Text} {ps : List Piece}

theorem exists_lookup {name : Text} (h : name ∈ fields.map Prod.fst) :
    ∃ value, fields.lookup name = some value := by
  induction fields with
  | nil => cases h
  | cons f fields ih =>
    rw [List.lookup_cons]
    cases hname : name == f.1 with
    | true => exact ⟨f.2, rfl⟩
    | false =>
      rw [List.map_cons, List.mem_cons] at h
      exact ih (h.resolve_left (by simpa using hname))

def Value.Holds (v : Value) (fields : List (Text × Text)) : Prop :=
  ∀ name value, fields.lookup name = some value → v.field? name = some (.text value)

theorem runNodes_slots (h : ∀ p ∈ ps, p.isSlot (fields.map Prod.fst) = true) {v : Value}
    (hv : v.Holds fields) (invoke : Text → Value → Option Text) (vars : Variables) :
    runNodes invoke v vars (ps.map Piece.node) =
      some ⟨vars, .go, ps.flatMap (Piece.filled fields)⟩ := by
  induction ps with
  | nil => rfl
  | cons p ps ih =>
    have ih := ih fun q hq => h q (List.mem_cons_of_mem _ hq)
    have hnode : runNode invoke v vars p.node = some ⟨vars, .go, p.filled fields⟩ := by
      rcases p.isSlot_cases (h p List.mem_cons_self) with ⟨t, rfl, -⟩ | ⟨name, rfl, hname⟩
      · rfl
      · obtain ⟨value, hvalue⟩ := exists_lookup hname
        have heval : evalPipeline v vars (fieldPipeline name) = some (.text value, vars) := by
          simp [evalPipeline, fieldPipeline, Pipeline.group, evalOperand, evalCommands, evalCommand,
            Value.fields?, hv name value hvalue, Variables.bind]
        simp only [Piece.node, runNode, heval, Piece.filled, hvalue]
        rfl
    rw [List.map_cons, List.flatMap_cons, runNodes, hnode]
    simp only [bind, Option.bind, ih]
    rfl

/-- What stands in the text of a template is text or a placeholder, so substitution goes piece by
piece. -/
theorem Slotted.substitute_eq (h : Slotted (fields.map Prod.fst) template ps)
    (hnamed : Named fields) : substitute fields template = ps.flatMap (Piece.filled fields) := by
  obtain ⟨-, hslots, rfl⟩ := h
  induction ps with
  | nil => rfl
  | cons p ps ih =>
    have ih := ih fun q hq => hslots q (List.mem_cons_of_mem _ hq)
    rw [List.flatMap_cons, List.flatMap_cons, ← ih]
    rcases p.isSlot_cases (hslots p List.mem_cons_self) with ⟨t, rfl, ht⟩ | ⟨name, rfl, hname⟩
    · exact substitute_plain ht _
    · obtain ⟨value, hvalue⟩ := exists_lookup hname
      rw [Piece.filled, hvalue]
      exact substitute_placeholder hnamed hvalue _

/-- A template of text and fields alone, filled from a value that has the fields, is the text with
each placeholder replaced by its field. -/
theorem Slotted.fill (h : Slotted (fields.map Prod.fst) template ps) (hnamed : Named fields)
    {v : Value} (hv : v.Holds fields) (name : Text) :
    fill name template v = .ok (substitute fields template) := by
  -- the outermost call is not made on a thread of its own
  have hsame : maxDepth % callsPerThread ≠ 1 := by decide
  have hinvoke : invoke [(name, ps.map Piece.node)] (maxDepth + 1) name v =
      some (ps.flatMap (Piece.filled fields)) := by
    simp [invoke, hsame, runNodes_slots h.slots hv]
  rw [Template.fill, h.parse functionNames name, h.substitute_eq hnamed]
  dsimp only
  rw [hinvoke]

theorem Slotted.infix_substitute (h : Slotted (fields.map Prod.fst) template ps)
    (hnamed : Named fields) {name value : Text} (hvalue : fields.lookup name = some value)
    (hasked : .action [.field name] ∈ ps) : value <:+: substitute fields template := by
  obtain ⟨front, back, rfl⟩ := List.append_of_mem hasked
  have hfilled : Piece.filled fields (.action [.field name]) = value := by
    rw [Piece.filled, hvalue]; rfl
  rw [h.substitute_eq hnamed, List.flatMap_append, List.flatMap_cons, hfilled]
  exact ⟨_, _, List.append_assoc _ _ _⟩

end Fields
end HeaderBridge.Template
