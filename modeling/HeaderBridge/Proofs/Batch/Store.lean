import HeaderBridge.Proofs.Batch.Claim

namespace HeaderBridge.Batch

variable {c : Config} {d d' : Disk} {r r' : Result} {rs : List Result}

/-- What writing makes of a result: the files of a bridge that is made hold its texts. -/
inductive Stored (c : Config) (d : Disk) : Result → Result → Prop
  | same (r : Result) (h : ∀ g paths, r.outcome ≠ .made g paths) : Stored c d r r
  | stopped (h : Header) (g : Generated) (paths : List Text) (f : Fault) :
    Stored c d ⟨h, .made g paths⟩ ⟨h, .stopped g f⟩
  | made (h : Header) (g : Generated) (paths : List Text)
    (hne : Output.target d (c.outputFolder h.path) g.declaration ≠
      Output.target d (c.outputFolder h.path) g.definition)
    (hdeclaration : d.view (Output.target d (c.outputFolder h.path) g.declaration) =
      some (some g.declaration.content))
    (hdefinition : d.view (Output.target d (c.outputFolder h.path) g.definition) =
      some (some g.definition.content)) :
    Stored c d ⟨h, .made g paths⟩
      ⟨h, .made g [Path.join [c.outputFolder h.path, g.declaration.name],
        Path.join [c.outputFolder h.path, g.definition.name]]⟩

theorem Stored.edited {ps : List Place} (h : Stored c d r r') (hd : Disk.Edited ps d d')
    (hdisjoint : (places c d r).Disjoint ps) : Stored c d' r r' := by
  cases h with
  | same r h => exact .same r h
  | stopped h g paths f => exact .stopped h g paths f
  | made h g paths hne hdeclaration hdefinition =>
    have hkeep : ∀ doc ∈ [g.declaration, g.definition],
        d.view (Output.target d (c.outputFolder h.path) doc) = some (some doc.content) →
        d'.view (Output.target d' (c.outputFolder h.path) doc) = some (some doc.content) := by
      intro doc hdoc hview
      obtain ⟨stamp, hfile⟩ := Disk.view_eq_file.1 hview
      have hout : Output.target d (c.outputFolder h.path) doc ∉ ps :=
        hdisjoint (List.mem_map_of_mem hdoc)
      rw [Output.target_congr hd.work]
      exact Disk.view_eq_file.2 ⟨stamp, (hd.file_iff hout).2 hfile⟩
    refine .made h g paths ?_ (hkeep _ (by simp) hdeclaration) (hkeep _ (by simp) hdefinition)
    rw [Output.target_congr hd.work, Output.target_congr hd.work]
    exact hne

theorem Stored.spelled (h : Stored c d r r') :
    r'.outcome.written.map d.spelled = places c d r' := by
  cases h with
  | same r h =>
    obtain ⟨header, outcome⟩ := r
    cases outcome with
    | made g paths => exact absurd rfl (h g paths)
    | broken f => rfl
    | skipped f => rfl
    | stopped g f => rfl
  | stopped => rfl
  | made => rfl

theorem Stored.places_subset (h : Stored c d r r') : places c d r' ⊆ places c d r := by
  cases h with
  | same r h => exact List.Subset.refl _
  | stopped => exact List.nil_subset _
  | made => exact List.Subset.refl _

theorem Stored.places_nodup (h : Stored c d r r') : (places c d r').Nodup := by
  cases h with
  | same r h =>
    obtain ⟨header, outcome⟩ := r
    cases outcome with
    | made g paths => exact absurd rfl (h g paths)
    | broken f => exact .nil
    | skipped f => exact .nil
    | stopped g f => exact .nil
  | stopped => exact .nil
  | made h g paths hne => simpa [places] using hne

theorem Stored.header (h : Stored c d r r') : r'.header = r.header := by
  cases h <;> rfl

/-- What holds between all results of a list holds between what becomes of them. -/
theorem pairwise_of_forall₂ {α : Type} {R S T : α → α → Prop} {as bs : List α}
    (h : List.Forall₂ R as bs) (hT : ∀ a a' b b', R a b → R a' b' → S a a' → T b b')
    (has : as.Pairwise S) :
    bs.Pairwise T := by
  induction h with
  | nil => exact .nil
  | cons hab hrest ih =>
    obtain ⟨hhead, htail⟩ := List.pairwise_cons.1 has
    refine .cons (fun b' hb' => ?_) (ih htail)
    obtain ⟨a', ha', hab'⟩ := exists_of_forall₂ hrest hb'
    exact hT _ _ _ _ hab hab' (hhead a' ha')

theorem nodup_written {results : List Result} (h : List.Forall₂ (Stored c d) rs results)
    (hdisjoint : rs.Pairwise fun r r' => (places c d r).Disjoint (places c d r')) :
    (results.flatMap (·.outcome.written)).Nodup := by
  have hstored : ∀ r' ∈ results, ∃ r ∈ rs, Stored c d r r' := fun r' hr' => exists_of_forall₂ h hr'
  have hplaces : (results.flatMap (·.outcome.written)).map d.spelled =
      results.flatMap (places c d) := by
    rw [List.map_flatMap]
    apply List.flatMap_congr
    intro r' hr'
    obtain ⟨r, -, hr⟩ := hstored r' hr'
    exact hr.spelled
  apply List.Nodup.of_map d.spelled
  rw [hplaces, List.nodup_flatMap]
  constructor
  · intro r' hr'
    obtain ⟨r, -, hr⟩ := hstored r' hr'
    exact hr.places_nodup
  · apply pairwise_of_forall₂ h _ hdisjoint
    intro a a' b b' hab hab' hplaces p hp hp'
    exact hplaces (hab.places_subset hp) (hab'.places_subset hp')

section Store

variable (wf : d.WellFormed)

include wf

theorem store_edited (c : Config) (r : Result) :
    (store c d r).2.WellFormed ∧ Disk.Edited (places c d r) d (store c d r).2 := by
  obtain ⟨h, outcome⟩ := r
  cases outcome with
  | broken f => exact ⟨wf, .refl _ d⟩
  | skipped f => exact ⟨wf, .refl _ d⟩
  | stopped g f => exact ⟨wf, .refl _ d⟩
  | made g paths =>
    have hwritten :
        (Output.write d (c.outputFolder h.path) g.declaration g.definition).2.WellFormed ∧
        Disk.Edited (places c d ⟨h, .made g paths⟩) d
          (Output.write d (c.outputFolder h.path) g.declaration g.definition).2 :=
      Output.writeWith_edited Output.fresh_freshNumber wf
    unfold store
    dsimp only
    split
    · rename_i hwrite
      rw [hwrite] at hwritten
      exact hwritten
    · rename_i hwrite
      rw [hwrite] at hwritten
      exact hwritten

theorem store_stored (hne : Apart r) (hvisible : Visible r) :
    Stored c (store c d r).2 r (store c d r).1 := by
  have hwork := (store_edited wf c r).2.work
  obtain ⟨h, outcome⟩ := r
  cases outcome with
  | broken f => exact .same _ (by simp)
  | skipped f => exact .same _ (by simp)
  | stopped g f => exact .same _ (by simp)
  | made g paths =>
    unfold store at hwork ⊢
    dsimp only at hwork ⊢
    split
    · rename_i declaration definition d' hwrite
      rw [hwrite] at hwork
      obtain ⟨hpaths, htargets, hdeclaration, hdefinition⟩ :=
        Output.writeWith_ok Output.fresh_freshNumber wf (hne g paths rfl)
          (Output.not_collides_of_ok Output.fresh_freshNumber wf
            (Output.spares_of_head (hvisible g paths rfl)) hwrite) hwrite
      cases hpaths
      rw [← Output.target_congr hwork] at htargets hdeclaration
      rw [← Output.target_congr hwork] at htargets hdefinition
      exact .made h g paths htargets hdeclaration hdefinition
    · exact .stopped h g paths _

theorem storeAll_edited (c : Config) (rs : List Result) : (storeAll c d rs).2.WellFormed ∧
    Disk.Edited (rs.flatMap (places c d)) d (storeAll c d rs).2 := by
  induction rs generalizing d with
  | nil => exact ⟨wf, .refl _ d⟩
  | cons r rs ih =>
    obtain ⟨wf', hfirst⟩ := store_edited wf c r
    have hplaces : places c (store c d r).2 = places c d := funext (places_congr hfirst.work c)
    obtain ⟨wf'', hrest⟩ := ih wf'
    rw [hplaces] at hrest
    refine ⟨wf'', (hfirst.mono ?_).trans (hrest.mono ?_)⟩
    · exact List.subset_append_left _ _
    · exact List.subset_append_right _ _

/-- When all results are written, the files of each bridge hold its own texts. -/
theorem storeAll_stored (hne : ∀ r ∈ rs, Apart r) (hvisible : ∀ r ∈ rs, Visible r)
    (hdisjoint : rs.Pairwise fun r r' => (places c d r).Disjoint (places c d r')) :
    List.Forall₂ (Stored c (storeAll c d rs).2) rs (storeAll c d rs).1 := by
  induction rs generalizing d with
  | nil => exact .nil
  | cons r rs ih =>
    obtain ⟨hhead, htail⟩ := List.pairwise_cons.1 hdisjoint
    obtain ⟨wf', hfirst⟩ := store_edited wf c r
    have hplaces : places c (store c d r).2 = places c d := funext (places_congr hfirst.work c)
    have hrest := (storeAll_edited wf' c rs).2
    have hbehind := @ih _ wf' (fun r hr => hne r (List.mem_cons_of_mem _ hr))
      (fun r hr => hvisible r (List.mem_cons_of_mem _ hr)) (by rw [hplaces]; exact htail)
    refine .cons ?_ hbehind
    apply (store_stored wf (hne r List.mem_cons_self) (hvisible r List.mem_cons_self)).edited hrest
    rw [hplaces]
    intro p hp hp'
    obtain ⟨r', hr', hp'⟩ := List.mem_flatMap.1 hp'
    exact hhead r' hr' hp hp'

section Claimed

variable (c : Config) (recipe : Recipe) (hs : List Header)

theorem claimed_edited : (storeAll c d (claimed c recipe d hs)).2.WellFormed ∧
    Disk.Edited ((claimed c recipe d hs).flatMap (places c d)) d
      (storeAll c d (claimed c recipe d hs)).2 :=
  storeAll_edited wf c _

/-- When a batch is written, each header has its result, the files of each bridge hold its own texts
and no path is told twice. -/
theorem claimed_stored (hends : recipe.headerEnding ≠ recipe.sourceEnding) :
    List.Forall₂ (Stored c (storeAll c d (claimed c recipe d hs)).2) (claimed c recipe d hs)
        (storeAll c d (claimed c recipe d hs)).1 ∧
      ((storeAll c d (claimed c recipe d hs)).1.flatMap (·.outcome.written)).Nodup ∧
      (storeAll c d (claimed c recipe d hs)).1.map (·.header) = hs := by
  have hdisjoint : (claimed c recipe d hs).Pairwise fun r r' => (places c d r).Disjoint
      (places c d r') :=
    claim_disjoint wf [] _
  have hstored := storeAll_stored wf (fun _ hr => apart_claimed wf hends hr)
    (fun _ hr => visible_claimed wf hr) hdisjoint
  have hplaces : places c (storeAll c d (claimed c recipe d hs)).2 = places c d :=
    funext (places_congr (claimed_edited wf c recipe hs).2.work c)
  refine ⟨hstored, nodup_written hstored (by rw [hplaces]; exact hdisjoint), ?_⟩
  rw [map_header (fun _ _ => Stored.header) hstored, map_header_claimed]

end Claimed
end Store
end HeaderBridge.Batch
