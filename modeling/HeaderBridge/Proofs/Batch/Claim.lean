import HeaderBridge.Proofs.Batch.Build
import HeaderBridge.Proofs.Output.Folder
import Mathlib.Data.List.Forall2

namespace HeaderBridge.Batch

variable {c : Config} {d : Disk} {r : Result}

/-- The places of the files that a result still has to write. -/
def places (c : Config) (d : Disk) (r : Result) : List Place :=
  match r.outcome with
  | .made g _ => [g.declaration, g.definition].map (Output.target d (c.outputFolder r.header.path))
  | _ => []

/-- The files that a result still has to write, from the root. -/
def files (c : Config) (d : Disk) (r : Result) : List Text :=
  match r.outcome with
  | .made g _ => targets c d r.header.path g
  | _ => []

/-- What may become of a result: nothing, or that its bridge is stopped. -/
inductive Kept : Result → Result → Prop
  | same (r : Result) : Kept r r
  | stopped (h : Header) (g : Generated) (paths : List Text)
    (f : Fault) : Kept ⟨h, .made g paths⟩ ⟨h, .stopped g f⟩

theorem files_eq (wf : d.WellFormed) (c : Config) (r : Result) :
    files c d r = (places c d r).map fun p => "/" ++ Text.join "/" p := by
  unfold files places
  split
  · simp only [targets, List.map_cons, List.map_nil, Disk.absolute_workPath wf.named]
    rfl
  · rfl

theorem places_congr {d' : Disk} (h : d'.work = d.work) (c : Config) (r : Result) :
    places c d' r = places c d r := by
  unfold places
  split
  · simp only [List.map_cons, List.map_nil, Output.target_congr h]
  · rfl

theorem Kept.made {r r' : Result} (h : Kept r r') {g : Generated} {paths : List Text}
    (hmade : r'.outcome = .made g paths) :
    r.outcome = .made g paths := by
  cases h with
  | same => exact hmade
  | stopped h g paths f => cases hmade

theorem Kept.header {r r' : Result} (h : Kept r r') : r'.header = r.header := by
  cases h <;> rfl

/-- A result keeps its files if nobody has claimed one of them, and is stopped if somebody has. -/
theorem claim_cons (owners : List (Text × Text)) (r : Result) (rs : List Result) :
    (∀ f ∈ files c d r, owners.lookup f = none) ∧
        claim c d owners (r :: rs) =
          r :: claim c d ((files c d r).map (·, r.header.path) ++ owners) rs ∨
      ∃ h g paths f, r = ⟨h, .made g paths⟩ ∧
        claim c d owners (r :: rs) = ⟨h, .stopped g f⟩ :: claim c d owners rs := by
  obtain ⟨h, outcome⟩ := r
  cases outcome with
  | broken f => exact .inl ⟨by simp [files], by simp [claim, files]⟩
  | skipped f => exact .inl ⟨by simp [files], by simp [claim, files]⟩
  | stopped g f => exact .inl ⟨by simp [files], by simp [claim, files]⟩
  | made g paths =>
    cases hfound : (targets c d h.path g).findSome? fun file => (owners.lookup file).map
        (file, ·) with
    | none =>
      left
      constructor
      · intro f hf
        have hnone := List.findSome?_eq_none_iff.1 hfound f hf
        simpa using hnone
      · simp [claim, hfound, files]
    | some owner =>
      exact .inr ⟨h, g, paths, .ofNotice (.collision owner.1 owner.2 h.path), rfl,
        by simp only [claim, hfound]⟩

theorem claim_kept (owners : List (Text × Text)) (rs : List Result) :
    List.Forall₂ Kept rs (claim c d owners rs) := by
  induction rs generalizing owners with
  | nil => exact .nil
  | cons r rs ih =>
    rcases claim_cons owners r rs with ⟨-, hclaim⟩ | ⟨h, g, paths, f, rfl, hclaim⟩
    · rw [hclaim]
      exact .cons (.same r) (ih _)
    · rw [hclaim]
      exact .cons (.stopped h g paths f) (ih _)

theorem claim_free {owners : List (Text × Text)} {rs : List Result} (hr : r ∈ claim c d owners rs) :
    ∀ f ∈ files c d r, owners.lookup f = none := by
  induction rs generalizing owners with
  | nil => simp [claim] at hr
  | cons r' rs ih =>
    rcases claim_cons owners r' rs with ⟨hfree, hclaim⟩ | ⟨h, g, paths, f, rfl, hclaim⟩
    · rw [hclaim] at hr
      rcases List.mem_cons.1 hr with rfl | hr
      · exact hfree
      · intro f hf
        have hlater := ih hr f hf
        rw [List.lookup_append, Option.or_eq_none_iff] at hlater
        exact hlater.2
    · rw [hclaim] at hr
      rcases List.mem_cons.1 hr with rfl | hr
      · simp [files]
      · exact ih hr

theorem claim_pairwise (owners : List (Text × Text)) (rs : List Result) :
    (claim c d owners rs).Pairwise fun r r' => ∀ f ∈ files c d r, f ∉ files c d r' := by
  induction rs generalizing owners with
  | nil => exact .nil
  | cons r rs ih =>
    rcases claim_cons owners r rs with ⟨-, hclaim⟩ | ⟨h, g, paths, f, rfl, hclaim⟩
    · rw [hclaim]
      refine .cons (fun r' hr' f hf hf' => ?_) (ih _)
      have hlater := claim_free hr' f hf'
      rw [List.lookup_append, Option.or_eq_none_iff, List.lookup_eq_none_iff] at hlater
      have howner := hlater.1 (f, r.header.path) (List.mem_map.2 ⟨f, hf, rfl⟩)
      simp at howner
    · rw [hclaim]
      exact .cons (fun r' _ f hf => by simp [files] at hf) (ih _)

theorem claim_disjoint (wf : d.WellFormed) (owners : List (Text × Text)) (rs : List Result) :
    (claim c d owners rs).Pairwise fun r r' => (places c d r).Disjoint (places c d r') := by
  refine (claim_pairwise owners rs).imp fun {r r'} h p hp hp' => ?_
  rw [files_eq wf, files_eq wf] at h
  exact h _ (List.mem_map_of_mem hp) (List.mem_map_of_mem hp')

theorem exists_of_forall₂ {α β : Type} {R : α → β → Prop} {as : List α} {bs : List β}
    (h : List.Forall₂ R as bs) {b : β} (hb : b ∈ bs) : ∃ a ∈ as, R a b := by
  induction h with
  | nil => cases hb
  | cons hab hrest ih =>
    rcases List.mem_cons.1 hb with rfl | hb
    · exact ⟨_, List.mem_cons_self, hab⟩
    · obtain ⟨a, ha, hab⟩ := ih hb
      exact ⟨a, List.mem_cons_of_mem _ ha, hab⟩

theorem map_header {R : Result → Result → Prop} (hR : ∀ r r', R r r' → r'.header = r.header)
    {rs rs' : List Result} (h : List.Forall₂ R rs rs') :
    rs'.map (·.header) = rs.map (·.header) := by
  induction h with
  | nil => rfl
  | cons hab hrest ih => rw [List.map_cons, List.map_cons, hR _ _ hab, ih]

def Apart (r : Result) : Prop :=
  ∀ g paths, r.outcome = .made g paths → g.declaration.name ≠ g.definition.name

/-- The declaration that is to be written does not go where a file may be staged. -/
def Visible (r : Result) : Prop :=
  ∀ g paths, r.outcome = .made g paths → g.declaration.name.head? ≠ some ('.' : UInt8)

section Claimed

variable {recipe : Recipe} {hs : List Header}

/-- The results of a batch once all is built and claimed, and nothing written yet. -/
def claimed (c : Config) (recipe : Recipe) (d : Disk) (hs : List Header) : List Result :=
  claim c d [] (hs.map fun h => ⟨h, outcome recipe d h⟩)

theorem map_header_claimed (c : Config) (recipe : Recipe) (d : Disk) (hs : List Header) :
    (claimed c recipe d hs).map (·.header) = hs := by
  rw [claimed, map_header (fun _ _ => Kept.header) (claim_kept _ _), List.map_map]
  exact List.map_id hs

theorem outcome_of_claimed (hr : r ∈ claimed c recipe d hs) {g : Generated} {paths : List Text}
    (hmade : r.outcome = .made g paths) :
    r.header ∈ hs ∧ outcome recipe d r.header = .made g paths := by
  obtain ⟨b, hb, hkept⟩ := exists_of_forall₂ (claim_kept _ _) hr
  obtain ⟨h, hh, rfl⟩ := List.mem_map.1 hb
  rw [hkept.header]
  exact ⟨hh, hkept.made hmade⟩

theorem apart_claimed (wf : d.WellFormed) (hends : recipe.headerEnding ≠ recipe.sourceEnding)
    (hr : r ∈ claimed c recipe d hs) : Apart r := by
  intro g paths hmade
  obtain ⟨name, -, hdeclaration, hdefinition⟩ := names_of_made wf (outcome_of_claimed hr hmade).2
  rw [hdeclaration, hdefinition]
  intro heq
  exact hends (List.append_cancel_left heq)

theorem visible_claimed (wf : d.WellFormed) (hr : r ∈ claimed c recipe d hs) : Visible r := by
  intro g paths hmade
  obtain ⟨name, hname, hdeclaration, -⟩ := names_of_made wf (outcome_of_claimed hr hmade).2
  obtain ⟨a, rest, hbridge, ha⟩ := recipe.naming.head_bridgeName hname
  rw [hdeclaration, hbridge]
  simpa using ha

end Claimed
end HeaderBridge.Batch
