import HeaderBridge.Config
import HeaderBridge.Proofs.Interface.Name
import HeaderBridge.Proofs.Path.Clean

namespace HeaderBridge

theorem Fault.gather_eq_none {fs : List Fault} : Fault.gather fs = none ↔ fs = [] := by
  cases fs <;> simp [Fault.gather]

namespace Check

variable {α : Type} {checks : List (Check α)} {a : α}

theorem all_eq_none : all checks a = none ↔ ∀ check ∈ checks, check a = none :=
  List.findSome?_eq_none_iff

theorem test_eq_none {field problem : Text} {detail : α → Detail} {passes : α → Bool} :
    test field problem detail passes a = none ↔ passes a = true := by
  unfold test
  split <;> simp_all

end Check

namespace Config

variable {c : Config} {d : Disk} {recipe : Recipe}

/-- A recipe is made of the settings, with the naming and the style that they name. -/
theorem exists_of_recipe (h : c.recipe = .ok recipe) : ∃ naming style,
    Naming.named c.naming c.marker c.suffix = .ok naming ∧
      recipe = ⟨naming, style, c.shelf, c.template, c.headerExt, c.sourceExt⟩ := by
  unfold Config.recipe at h
  cases hnaming : Naming.named c.naming c.marker c.suffix with
  | error f => simp [hnaming, bind, Except.bind] at h
  | ok naming =>
    cases hstyle : Style.named c.style with
    | error f => simp [hnaming, hstyle, bind, Except.bind] at h
    | ok style =>
      simp only [hnaming, hstyle, bind, Except.bind, pure, Except.pure, Except.ok.injEq] at h
      exact ⟨naming, style, rfl, h.symm⟩

theorem recipe_eq (h : c.recipe = .ok recipe) : recipe.naming.suffix = c.suffix ∧
    recipe.headerExtension = c.headerExt ∧ recipe.sourceExtension = c.sourceExt := by
  obtain ⟨naming, style, hnaming, rfl⟩ := exists_of_recipe h
  refine ⟨?_, rfl, rfl⟩
  unfold Naming.named at hnaming
  split at hnaming
  · cases hnaming
    rfl
  · split at hnaming
    · cases hnaming
      rfl
    · cases hnaming

theorem outputFolder_ne_nil (c : Config) (header : Text) : c.outputFolder header ≠ [] := by
  unfold outputFolder Text.orElse
  split
  · exact Path.clean_ne_nil _
  · rename_i hne
    simpa using hne

/-- Settings that make sense put an identifier behind names and two different endings behind
that. -/
theorem of_problem_eq_none (h : c.problem d = none) : Check.isIdentifier c.suffix = true ∧
    Check.isExtension c.headerExt = true ∧ Check.isExtension c.sourceExt = true ∧
    c.headerExt ≠ c.sourceExt := by
  have hnone : c.faults d = [] := Fault.gather_eq_none.1 h
  simp only [faults, List.append_eq_nil_iff, Option.toList_eq_nil_iff,
    Option.map_eq_none_iff] at hnone
  obtain ⟨⟨⟨⟨⟨⟨⟨⟨⟨⟨-, -⟩, hsuffix⟩, -⟩, hheader⟩, hsource⟩, hdiffer⟩, -⟩, -⟩, -⟩, -⟩ := hnone
  simp only [Check.identifier, Check.extension, Check.all_eq_none, List.forall_mem_cons,
    Check.test_eq_none] at hsuffix hheader hsource
  have hne : c.headerExt ≠ c.sourceExt := by
    intro heq
    have hempty : c.headerExt.isEmpty = false := by
      have := hheader.1
      rw [Check.notEmpty, Check.test_eq_none] at this
      simpa using this
    have hnil : c.sourceExt = [] := by simpa [heq] using hdiffer
    rw [heq, hnil] at hempty
    cases hempty
  exact ⟨hsuffix.2.1, hheader.2.2.1, hsource.2.2.1, hne⟩

theorem endings_of_recipe (hvalid : c.problem d = none) (hrecipe : c.recipe = .ok recipe) :
    recipe.headerEnding = c.headerExt ∧ recipe.sourceEnding = c.sourceExt := by
  obtain ⟨-, hheader, hsource⟩ := recipe_eq hrecipe
  obtain ⟨-, hheaderExt, hsourceExt, -⟩ := of_problem_eq_none hvalid
  have hown : ∀ {ext fallback : Text}, Check.isExtension ext = true →
      ext.orElse fallback = ext := by
    intro ext fallback hext
    cases ext with
    | nil => cases hext
    | cons => rfl
  exact ⟨by rw [Recipe.headerEnding, hheader, hown hheaderExt],
    by rw [Recipe.sourceEnding, hsource, hown hsourceExt]⟩

theorem endings_ne (hvalid : c.problem d = none) (hrecipe : c.recipe = .ok recipe) :
    recipe.headerEnding ≠ recipe.sourceEnding := by
  obtain ⟨hheader, hsource⟩ := endings_of_recipe hvalid hrecipe
  rw [hheader, hsource]
  exact (of_problem_eq_none hvalid).2.2.2

end Config

theorem Template.exists_pairs_builtIn (d : Disk) : ∃ pairs, Shelf.builtIn.pairs d = .ok pairs ∧
    Pair.default ∈ pairs ∧ ∀ name ∈ pairs, ∃ p ∈ Pair.builtIn, p.name = name := by
  refine ⟨_, rfl, List.mem_filterMap.2 ⟨declarationName Pair.default, ?_, ?_⟩, fun name hname => ?_⟩
  · rw [Text.mem_sort]
    decide +kernel
  · rw [Option.filter_eq_some_iff]
    constructor
    · decide +kernel
    · rw [List.contains_iff_mem, Text.mem_sort]
      decide +kernel
  · obtain ⟨file, hfile, hbefore⟩ := List.mem_filterMap.1 hname
    rw [Text.mem_sort] at hfile
    obtain ⟨hbefore, -⟩ := Option.filter_eq_some_iff.1 hbefore
    have hnames :
        ∀ name ∈ (Pair.builtIn.flatMap fun p => [declarationName p.name,
          definitionName p.name]).filterMap
        (Text.before? declarationSuffix), name ∈ Pair.builtIn.map Pair.name := by decide +kernel
    exact List.mem_map.1 (hnames name (List.mem_filterMap.2 ⟨file, hfile, hbefore⟩))

theorem Config.templateFault_eq_none {c : Config} {d : Disk} :
    c.templateFault d = none ↔ ∃ pairs, c.shelf.pairs d = .ok pairs ∧ c.template ∈ pairs := by
  unfold templateFault
  cases c.shelf.pairs d <;> simp

theorem Config.templateFault_default {c : Config} {d : Disk} (hdir : c.templateDir = [])
    (htemplate : c.template = Template.Pair.default) : c.templateFault d = none := by
  obtain ⟨pairs, hpairs, hmem, -⟩ := Template.exists_pairs_builtIn d
  refine templateFault_eq_none.2 ⟨pairs, ?_, htemplate ▸ hmem⟩
  rw [Config.shelf, hdir]
  exact hpairs

/-- The default settings pass their checks, wherever files are written and templates are looked
for. -/
theorem Config.problem_folders {outputDir templateDir : Text} {d : Disk}
    (h : Config.templateFault { outputDir, templateDir } d = none) :
    Config.problem { outputDir, templateDir } d = none := by
  have hdefault : Config.templateFault {} d = none := templateFault_default rfl rfl
  have hsame : Config.faults { outputDir, templateDir } d = Config.faults {} d := by
    unfold faults
    rw [h, hdefault]
  rw [problem, hsame]
  unfold faults
  rw [hdefault]
  decide +kernel

theorem Config.problem_default (outputDir : Text) (d : Disk) :
    Config.problem { outputDir } d = none :=
  problem_folders (templateFault_default rfl rfl)

end HeaderBridge
