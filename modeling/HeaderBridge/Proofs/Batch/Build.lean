import HeaderBridge.Batch
import HeaderBridge.Proofs.Interface.Name
import HeaderBridge.Proofs.Reader.Current

namespace HeaderBridge

open Reader (Transparent)

variable {d : Disk} {kind : Reader → Prop}

section Transparent

variable (hread : ∀ path, Transparent kind fun r => r.read d path)

include hread

namespace Template

theorem Drawer.transparent_get (name : Text) (drawer : Drawer) :
    Transparent kind fun r => drawer.get r d name := by
  cases drawer with
  | memory ts =>
    cases hlookup : ts.lookup name with
    | none =>
      simp only [Drawer.get, hlookup]
      exact .pure _
    | some t =>
      simp only [Drawer.get, hlookup]
      exact .pure _
  | folder path =>
    unfold Drawer.get
    dsimp only
    split
    · exact .pure _
    · split
      · exact .pure _
      · refine (hread (Path.join [path, name])).bind fun a => ?_
        cases a with
        | error e => exact ⟨_, .pure (.error (.unreadable name e)), fun r r' h => by rw [h]; rfl⟩
        | ok t => exact ⟨_, .pure (.ok t), fun r r' h => by rw [h]; rfl⟩

theorem Shelf.transparent_get (name : Text) (shelf : Shelf) :
    Transparent kind fun r => shelf.get r d name := by
  induction shelf with
  | nil => exact .pure _
  | cons drawer rest ih =>
    refine (drawer.transparent_get hread name).bind fun a => ?_
    match a with
    | .ok t => exact ⟨_, .pure (.ok t), fun r r' h => by rw [Shelf.get, h]⟩
    | .error (.absent _) => exact ⟨_, ih, fun r r' h => by rw [Shelf.get, h]⟩
    | .error (.unreadable n cause) =>
      exact ⟨_, .pure (.error (.unreadable n cause)), fun r r' h => by rw [Shelf.get, h]⟩

theorem Shelf.transparent_pair (name : Text) (shelf : Shelf) :
    Transparent kind fun r => shelf.pair r d name := by
  unfold Shelf.pair
  refine (shelf.transparent_get hread (declarationName name)).bind fun a => ?_
  cases a with
  | error e => exact ⟨_, .pure (.error e), fun r r' h => by rw [h]⟩
  | ok declaration =>
    refine ⟨_, (shelf.transparent_get hread (definitionName name)).bind fun a => ?_,
      fun r r' h => by rw [h]⟩
    cases a with
    | error e => exact ⟨_, .pure (.error e), fun r r' h => by dsimp only; rw [h]⟩
    | ok definition =>
      exact ⟨_, .pure (.ok (declaration, definition)), fun r r' h => by dsimp only; rw [h]⟩

end Template

theorem Recipe.transparent_generate (recipe : Recipe) (i : Interface) :
    Transparent kind fun r => recipe.generate r d i := by
  unfold Recipe.generate
  split
  · exact .pure _
  · rename_i b _
    refine (recipe.shelf.transparent_pair hread recipe.pairName).bind fun a => ?_
    cases a with
    | error miss => exact ⟨_, .pure (.error miss.fault), fun r r' h => by rw [h]⟩
    | ok templates => exact ⟨_, .pure (recipe.emit b templates), fun r r' h => by rw [h]⟩

namespace Batch

theorem transparent_build (recipe : Recipe) (h : Header) :
    Transparent kind fun r => build recipe d h r := by
  unfold build
  refine (hread h.path).bind fun a => ?_
  cases a with
  | error f => exact ⟨_, .pure (.broken f), fun r r' h => by rw [h]⟩
  | ok source =>
    cases hparse : Interface.parse h.path source with
    | error f =>
      refine ⟨_, .pure (if f.hasCode .noInterface && !h.explicit then .skipped f else .broken f),
        ?_⟩
      intro r r' h'
      rw [h']
      dsimp only
      rw [hparse]
    | ok i =>
      refine ⟨_, (recipe.transparent_generate hread i).bind fun a => ?_, fun r r' h' => by rw [h']⟩
      cases a with
      | error f =>
        exact ⟨_, .pure (.broken f), fun r r' h => by dsimp only; rw [hparse]; dsimp only; rw [h]⟩
      | ok g =>
        exact ⟨_, .pure (.made g []), fun r r' h => by dsimp only; rw [hparse]; dsimp only; rw [h]⟩

end Batch

theorem Hallmark.transparent_bears (k : Hallmark) (path name : Text) :
    Transparent kind fun r => k.bears r d path name := by
  unfold Hallmark.bears
  split
  · refine (hread path).bind fun a => ?_
    cases a with
    | error e => exact ⟨_, .pure false, fun r r' h => by rw [h]⟩
    | ok content => exact ⟨_, .pure (k.marker.isPrefixOf content), fun r r' h => by rw [h]⟩
  · exact .pure _

theorem Hallmark.transparent_select (k : Hallmark) (wanted : Bool) (vs : List Disk.Visit) :
    Transparent kind fun r => k.select wanted d vs r := by
  induction vs with
  | nil => exact .pure _
  | cons v vs ih =>
    unfold Hallmark.select
    refine (k.transparent_bears hread v.path v.name).bind fun marked => ?_
    exact ⟨_,
      ih.map fun rest => if marked = wanted then v :: rest else rest, fun r r' h => by rw [h]⟩

namespace Scanner

theorem transparent_ungenerated (s : Scanner) (vs : List Disk.Visit) :
    Transparent kind fun r => s.ungenerated d vs r := by
  unfold ungenerated
  split
  · exact .pure _
  · exact Hallmark.transparent_select hread _ _ _

theorem transparent_folder (s : Scanner) (recursive : Bool) (root : Text) :
    Transparent kind fun r => s.folder r d recursive root := by
  unfold folder
  dsimp only
  split
  · exact .pure _
  · exact (s.transparent_ungenerated hread _).map fun vs =>
      (.ok (vs.map fun v => ⟨Path.clean v.path, false⟩) : Except Fault (List Header))

theorem transparent_pattern (s : Scanner) (p : Text) :
    Transparent kind fun r => s.pattern r d p := by
  unfold pattern
  dsimp only
  split
  · exact .pure _
  · exact (s.transparent_ungenerated hread _).map fun vs =>
      (.ok (vs.map fun v => ⟨Path.clean v.path, false⟩) : Except Fault (List Header))

theorem transparent_resolve (s : Scanner) (i : Input) :
    Transparent kind fun r => s.resolve r d i := by
  cases i with
  | tree root => exact s.transparent_folder hread true root
  | pattern p => exact s.transparent_pattern hread p
  | path path =>
    unfold resolve
    dsimp only
    split
    · split <;> exact .pure _
    · exact .pure _
    · exact s.transparent_folder hread false path

theorem transparent_gather (s : Scanner) (inputs : List Input) :
    Transparent kind fun r => s.gather d inputs r := by
  induction inputs with
  | nil => exact .pure _
  | cons i is ih =>
    unfold gather
    refine (s.transparent_resolve hread i).bind fun a => ?_
    cases a with
    | ok hs =>
      exact ⟨_, ih.map fun found => (hs ++ found.1, found.2), fun r r' h => by rw [h]⟩
    | error f =>
      exact ⟨_, ih.map fun found => (found.1, f :: found.2), fun r r' h => by rw [h]⟩

theorem transparent_scan (s : Scanner) (inputs : List Text) :
    Transparent kind fun r => s.scan r d inputs := by
  unfold scan
  exact (s.transparent_gather hread _).map fun found => (merge found.1, found.2)

end Scanner
end Transparent

/-- Each file is told by what is read of it, whatever has been read for the others. -/
theorem Hallmark.select_of_alike {r r' : Reader} (h : Reader.Alike d r r') (k : Hallmark)
    (wanted : Bool) (vs : List Disk.Visit) :
    (k.select wanted d vs r').1 = vs.filter fun v => (k.bears r d v.path v.name).1 == wanted := by
  induction vs generalizing r' with
  | nil => rfl
  | cons v vs ih =>
    have hbears := k.transparent_bears (Reader.Transparent.read_alike d r) v.path v.name
    have hstep : (k.select wanted d (v :: vs) r').1 =
        if (k.bears r' d v.path v.name).1 = wanted then
          v :: (k.select wanted d vs (k.bears r' d v.path v.name).2).1
        else (k.select wanted d vs (k.bears r' d v.path v.name).2).1 := rfl
    rw [hstep, ih (hbears.kept h), hbears.eq h (.refl d r), List.filter_cons]
    simp only [beq_iff_eq]

namespace Batch

/-- What becomes of a header, whatever has been read before. -/
def outcome (recipe : Recipe) (d : Disk) (h : Header) : Outcome := (build recipe d h {}).1

variable (wf : d.WellFormed)

include wf

theorem build_of_current {r : Reader} (hr : r.Current d) (recipe : Recipe) (h : Header) :
    (build recipe d h r).1 = outcome recipe d h ∧ (build recipe d h r).2.Current d :=
  have hbuild := transparent_build (Transparent.read wf) recipe h
  ⟨hbuild.eq hr (Reader.current_empty d), hbuild.kept hr⟩

theorem buildAll_of_current {r : Reader} (hr : r.Current d) (recipe : Recipe) (hs : List Header) :
    (buildAll recipe d hs r).1 = hs.map (fun h => ⟨h, outcome recipe d h⟩) ∧
      (buildAll recipe d hs r).2.Current d := by
  induction hs generalizing r with
  | nil => exact ⟨rfl, hr⟩
  | cons h hs ih =>
    obtain ⟨hfirst, hcurrent⟩ := build_of_current wf hr recipe h
    obtain ⟨hrest, hcurrent⟩ := ih hcurrent
    refine ⟨?_, hcurrent⟩
    change ⟨h, (build recipe d h r).1⟩ :: (buildAll recipe d hs (build recipe d h r).2).1 = _
    rw [hfirst, hrest, List.map_cons]

theorem exists_source_of_made {recipe : Recipe} {h : Header} {g : Generated} {paths : List Text}
    (hmade : outcome recipe d h = .made g paths) : paths = [] ∧ ∃ content i r,
      Reader.plain d h.path = .ok content ∧
      Interface.parse h.path content = .ok i ∧ (recipe.generate r d i).1 = .ok g := by
  have hplain := (Reader.read_of_current wf (Reader.current_empty d) h.path).1
  unfold outcome build at hmade
  split at hmade
  · cases hmade
  · rename_i content r hread
    rw [hread] at hplain
    split at hmade
    · dsimp only at hmade
      split at hmade <;> cases hmade
    · rename_i i hparse
      split at hmade
      · cases hmade
      · rename_i hgenerate
        cases hmade
        exact ⟨rfl, content, i, r, hplain.symm, hparse, congrArg Prod.fst hgenerate⟩

theorem names_of_made {recipe : Recipe} {h : Header} {g : Generated} {paths : List Text}
    (hmade : outcome recipe d h = .made g paths) : ∃ name, Text.isIdentifier name = true ∧
      g.declaration.name = recipe.naming.bridgeName name ++ recipe.headerEnding ∧
      g.definition.name = recipe.naming.bridgeName name ++ recipe.sourceEnding := by
  obtain ⟨-, content, i, r, -, hparse, hgenerate⟩ := exists_source_of_made wf hmade
  exact ⟨i.name, Interface.isIdentifier_of_parse hparse, Recipe.names_of_generate hgenerate⟩

end Batch
end HeaderBridge
