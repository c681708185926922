import HeaderBridge.Proofs.Batch.Schedule
import HeaderBridge.Proofs.Batch.Store
import HeaderBridge.Proofs.Output.Local

namespace HeaderBridge.Batch

variable {c : Config} {d d' : Disk} {r : Result} {rs : List Result}

/-- Writes one result to what has been written so far. -/
def storeJob (c : Config) (r : Result) (d : Disk) : Result × Disk := store c d r

theorem storeAll_eq (c : Config) (d : Disk) (rs : List Result) :
    storeAll c d rs = sequential (storeJob c) rs d := by
  induction rs generalizing d with
  | nil => rfl
  | cons r rs ih =>
    rw [sequential, storeJob, ← ih]
    rfl

/-- The folder that a bridge is to be written to is there. -/
def Housed (c : Config) (d : Disk) (r : Result) : Prop :=
  ∀ g paths, r.outcome = .made g paths → d.stat (c.outputFolder r.header.path) = .ok .folder

section Store

variable (wf : d.WellFormed) (hhoused : Housed c d r)

include wf hhoused

/-- Writing a result into a folder that is there leaves all other places as they are. -/
theorem store_frame {q : Place} (hq : q ∉ places c d r) : (store c d r).2.find? q = d.find? q := by
  obtain ⟨h, outcome⟩ := r
  cases outcome with
  | broken f => rfl
  | skipped f => rfl
  | stopped g f => rfl
  | made g paths =>
    have hframe :
        (Output.write d (c.outputFolder h.path) g.declaration g.definition).2.find? q = d.find? q :=
      Output.writeWith_frame Output.fresh_freshNumber wf (hhoused g paths rfl) hq
    unfold store
    dsimp only
    split
    · rename_i hwrite
      rw [hwrite] at hframe
      exact hframe
    · rename_i hwrite
      rw [hwrite] at hframe
      exact hframe

/-- What becomes of a result, and what stands at its places afterwards, is told by what stood there
before. -/
theorem store_local (hvisible : Visible r) (wf' : d'.WellFormed) (hhoused' : Housed c d' r)
    (hwork : d'.work = d.work)
    (hview : ∀ q ∈ places c d r, d'.view q = d.view q) : (store c d' r).1 = (store c d r).1 ∧
      ∀ q ∈ places c d r, (store c d' r).2.view q = (store c d r).2.view q := by
  obtain ⟨h, outcome⟩ := r
  cases outcome with
  | broken f => exact ⟨rfl, hview⟩
  | skipped f => exact ⟨rfl, hview⟩
  | stopped g f => exact ⟨rfl, hview⟩
  | made g paths =>
    obtain ⟨hresult, hview'⟩ := Output.writeWith_local Output.fresh_freshNumber wf
      (hhoused g paths rfl) (Output.spares_of_head (hvisible g paths rfl)) wf'
      (hhoused' g paths rfl) hwork hview
    unfold store Output.write
    dsimp only
    rcases hwrite : Output.writeWith Output.freshNumber d (c.outputFolder h.path) g.declaration
        g.definition with ⟨_ | _, e⟩ <;>
      rcases hwrite' : Output.writeWith Output.freshNumber d' (c.outputFolder h.path)
        g.declaration g.definition with ⟨_ | _, e'⟩ <;>
      rw [hwrite, hwrite'] at hresult hview' <;> cases hresult <;> exact ⟨rfl, hview'⟩

end Store

/-- The disk when some of the results have been written, in whatever order: at their places stands
what each would leave there alone. -/
structure Partly (c : Config) (d : Disk) (rs : List Result) (done : List Nat)
    (d' : Disk) : Prop where
  wellFormed : d'.WellFormed
  edited : Disk.Edited (rs.flatMap (places c d)) d d'
  written : ∀ i ∈ done, ∀ r, rs[i]? = some r → ∀ q ∈ places c d r,
      d'.view q = (store c d r).2.view q
  rest : ∀ q, (∀ i ∈ done, ∀ r, rs[i]? = some r → q ∉ places c d r) → d'.view q = d.view q

namespace Partly

theorem same {d'' : Disk} {done done' : List Nat} (h : Partly c d rs done d')
    (h' : Partly c d rs done' d'') (hall : ∀ i < rs.length, i ∈ done)
    (hall' : ∀ i < rs.length, i ∈ done') :
    Disk.SameFiles d' d'' := by
  refine ⟨h'.edited.work.trans h.edited.work.symm, fun q => ?_⟩
  by_cases hq : ∃ (i : Nat) (r : Result), rs[i]? = some r ∧ q ∈ places c d r
  · obtain ⟨i, r, hr, hq⟩ := hq
    have hi := (List.getElem?_eq_some_iff.1 hr).1
    rw [h.written i (hall i hi) r hr q hq, h'.written i (hall' i hi) r hr q hq]
  · have hnone : ∀ (i : Nat) r, rs[i]? = some r → q ∉ places c d r :=
      fun i r hr hmem => hq ⟨i, r, hr, hmem⟩
    rw [h.rest q fun i _ => hnone i, h'.rest q fun i _ => hnone i]

variable (wf : d.WellFormed) (hhoused : ∀ r ∈ rs, Housed c d r) (hvisible : ∀ r ∈ rs, Visible r)
  (hdisjoint : rs.Pairwise fun r r' => (places c d r).Disjoint (places c d r'))

include wf hhoused hvisible hdisjoint

theorem step {done : List Nat} (h : Partly c d rs done d') {i : Nat} (hi : i ∉ done)
    (hr : rs[i]? = some r) :
    (store c d' r).1 = (store c d r).1 ∧ Partly c d rs (i :: done) (store c d' r).2 := by
  have hmem : r ∈ rs := List.mem_of_getElem? hr
  have hplaces : places c d' r = places c d r := places_congr h.edited.work c r
  have hhoused' : Housed c d' r :=
    fun g paths hmade => h.edited.stat_folder (hhoused r hmem g paths hmade)
  have hapart : ∀ j ∈ done, ∀ r', rs[j]? = some r' → (places c d r).Disjoint (places c d r') := by
    intro j hj r' hr'
    have hne : i ≠ j := fun heq => hi (heq ▸ hj)
    obtain ⟨hbound, rfl⟩ := List.getElem?_eq_some_iff.1 hr
    obtain ⟨hbound', rfl⟩ := List.getElem?_eq_some_iff.1 hr'
    rcases Nat.lt_or_gt_of_ne hne with hlt | hlt
    · exact List.pairwise_iff_getElem.1 hdisjoint i j hbound hbound' hlt
    · exact List.disjoint_symm (List.pairwise_iff_getElem.1 hdisjoint j i hbound' hbound hlt)
  -- so far nothing has been written where this result goes
  have hview : ∀ q ∈ places c d r, d'.view q = d.view q := fun q hq =>
    h.rest q fun j hj r' hr' hq' => hapart j hj r' hr' hq hq'
  obtain ⟨hresult, hwritten⟩ := store_local wf (hhoused r hmem) (hvisible r hmem) h.wellFormed
    hhoused' h.edited.work hview
  obtain ⟨wf', hedited⟩ := store_edited h.wellFormed c r
  have hframe : ∀ q, q ∉ places c d r → (store c d' r).2.view q = d'.view q := by
    intro q hq
    rw [Disk.view, store_frame h.wellFormed hhoused' (by rwa [hplaces]), Disk.view]
  refine ⟨hresult, wf', h.edited.trans (hedited.mono ?_), ?_, ?_⟩
  · rw [hplaces]
    exact fun q hq => List.mem_flatMap.2 ⟨r, hmem, hq⟩
  · intro j hj r' hr' q hq
    rcases List.mem_cons.1 hj with rfl | hj
    · obtain rfl : r = r' := Option.some.inj (hr.symm.trans hr')
      exact hwritten q hq
    · rw [hframe q fun hq' => hapart j hj r' hr' hq' hq]
      exact h.written j hj r' hr' q hq
  · intro q hq
    rw [hframe q (hq i List.mem_cons_self r hr)]
    exact h.rest q fun j hj => hq j (List.mem_cons_of_mem i hj)

end Partly

theorem store_of_not_made (h : ∀ g paths, r.outcome ≠ .made g paths) : store c d r = (r, d) := by
  obtain ⟨header, outcome⟩ := r
  cases outcome with
  | broken f => rfl
  | skipped f => rfl
  | stopped g f => rfl
  | made g paths => exact absurd rfl (h g paths)

theorem places_of_not_made (h : ∀ g paths, r.outcome ≠ .made g paths) : places c d r = [] := by
  obtain ⟨header, outcome⟩ := r
  cases outcome with
  | broken f => rfl
  | skipped f => rfl
  | stopped g f => rfl
  | made g paths => exact absurd rfl (h g paths)

def folderMade (c : Config) (d : Disk) (r : Result) : Option (Text × DiskError) × Disk :=
  d.makeFolders ((c.outputFolder r.header.path).length + 1) (c.outputFolder r.header.path)

theorem folderMade_grown (wf : d.WellFormed) {failure : Option (Text × DiskError)}
    (h : folderMade c d r = (failure, d')) : d'.WellFormed ∧ Disk.Grown d d' ∧
      (failure = none → d'.stat (c.outputFolder r.header.path) = .ok .folder) :=
  Disk.makeFolders_grown wf h

theorem store_of_folderMade (wf : d.WellFormed) (h : folderMade c d r = (none, d')) {g : Generated}
    {paths : List Text} (hmade : r.outcome = .made g paths) : store c d r = store c d' r := by
  unfold store
  rw [hmade]
  dsimp only
  rw [Output.write, Output.writeWith_of_makeFolders wf h]

/-- Where folders cannot be made and none comes up, writing changes nothing. -/
theorem scheduled_store_of_failure
    (hfails : ∀ r ∈ rs, ∀ g paths, r.outcome = .made g paths → ∃ failure,
      folderMade c d r = (some failure, d))
    {order : List Nat} (horder : order.Perm (List.range rs.length)) :
    (scheduled (storeJob c) rs order d).1 = rs.map (fun r => (store c d r).1) ∧
      (scheduled (storeJob c) rs order d).2 = d := by
  -- the disk stays what it was at every step
  let Reached (_ : List Nat) (d' : Disk) : Prop := d' = d
  have step : ∀ done i r d', Reached done d' → i ∉ done → rs[i]? = some r →
      (storeJob c r d').1 = (store c d r).1 ∧ Reached (i :: done) (storeJob c r d').2 := by
    intro _ _ r d' hd' _ hr
    rw [storeJob, show d' = d from hd']
    refine ⟨rfl, show (store c d r).2 = d from ?_⟩
    by_cases hmade : ∃ g paths, r.outcome = .made g paths
    · obtain ⟨g, paths, hmade⟩ := hmade
      obtain ⟨⟨path, e⟩, hfailure⟩ := hfails r (List.mem_of_getElem? hr) g paths hmade
      unfold store
      rw [hmade]
      dsimp only
      rw [Output.write, Output.writeWith_of_failure hfailure]
    · rw [store_of_not_made fun g paths h => hmade ⟨g, paths, h⟩]
  exact scheduled_spec step rfl horder

section Made

variable {d₁ : Disk} (wf : d.WellFormed) (hvisible : ∀ r ∈ rs, Visible r)
  (hdisjoint : rs.Pairwise fun r r' => (places c d r).Disjoint (places c d r'))
  (hmakes : ∀ r ∈ rs, ∀ g paths, r.outcome = .made g paths → folderMade c d r = (none, d₁))

include wf hvisible hdisjoint hmakes

/-- Where the folder can be made, each result is written as if it were the first in the folder that
is made. -/
theorem scheduled_store_of_made (hsome : ∃ r ∈ rs, ∃ g paths, r.outcome = .made g paths)
    {order : List Nat} (horder : order.Perm (List.range rs.length)) : Disk.Grown d d₁ ∧
      (scheduled (storeJob c) rs order d).1 = rs.map (fun r => (store c d₁ r).1) ∧
      Partly c d₁ rs order.reverse (scheduled (storeJob c) rs order d).2 := by
  obtain ⟨wf₁, hgrown⟩ : d₁.WellFormed ∧ Disk.Grown d d₁ := by
    obtain ⟨r, hr, g, paths, hmade⟩ := hsome
    exact (folderMade_grown wf (hmakes r hr g paths hmade)).imp_right And.left
  have hhoused : ∀ r ∈ rs, Housed c d₁ r := fun r hr g paths hmade =>
    (folderMade_grown wf (hmakes r hr g paths hmade)).2.2 rfl
  have hdisjoint₁ : rs.Pairwise fun r r' => (places c d₁ r).Disjoint (places c d₁ r') := by
    simpa only [places_congr hgrown.work] using hdisjoint
  -- as long as there was nothing to write the folder need not be there
  let Reached (done : List Nat) (d' : Disk) : Prop :=
    d' = d ∧ (∀ i ∈ done, ∀ r, rs[i]? = some r → ∀ g paths, r.outcome ≠ .made g paths) ∨
      Partly c d₁ rs done d'
  have step : ∀ done i r d', Reached done d' → i ∉ done → rs[i]? = some r →
      (storeJob c r d').1 = (store c d₁ r).1 ∧ Reached (i :: done) (storeJob c r d').2 := by
    rintro done i r d' (⟨rfl, hnone⟩ | hpartly) hi hr
    · by_cases hmade : ∃ g paths, r.outcome = .made g paths
      · obtain ⟨g, paths, hmade⟩ := hmade
        have hstore :=
          store_of_folderMade wf (hmakes r (List.mem_of_getElem? hr) g paths hmade) hmade
        have hstart : Partly c d₁ rs done d₁ := by
          refine ⟨wf₁, .refl _ d₁, ?_, fun _ _ => rfl⟩
          intro j hj r' hr' q hq
          rw [places_of_not_made (hnone j hj r' hr')] at hq
          cases hq
        obtain ⟨-, hnext⟩ := hstart.step wf₁ hhoused hvisible hdisjoint₁ hi hr
        rw [storeJob, hstore]
        exact ⟨rfl, .inr hnext⟩
      · have hnot : ∀ g paths, r.outcome ≠ .made g paths := fun g paths h => hmade ⟨g, paths, h⟩
        rw [storeJob, store_of_not_made hnot, store_of_not_made hnot]
        refine ⟨rfl, .inl ⟨rfl, fun j hj r' hr' => ?_⟩⟩
        rcases List.mem_cons.1 hj with rfl | hj
        · obtain rfl : r = r' := Option.some.inj (hr.symm.trans hr')
          exact hnot
        · exact hnone j hj r' hr'
    · obtain ⟨hresult, hnext⟩ := hpartly.step wf₁ hhoused hvisible hdisjoint₁ hi hr
      exact ⟨hresult, .inr hnext⟩
  obtain ⟨hresults, ⟨-, hnone⟩ | hpartly⟩ := scheduled_spec step (.inl ⟨rfl, by simp⟩) horder
  · -- all jobs are done, and one of them had something to write
    obtain ⟨r, hr, g, paths, hmade⟩ := hsome
    obtain ⟨i, hi, hitem⟩ := List.mem_iff_getElem.1 hr
    have hdone : i ∈ order.reverse := List.mem_reverse.2 (horder.mem_iff.2 (List.mem_range.2 hi))
    exact absurd hmade (hnone i hdone r (hitem ▸ List.getElem?_eq_getElem hi) g paths)
  · exact ⟨hgrown, hresults, hpartly⟩

end Made

/-- The first attempt to make the folder of a bridge settles all others: either it is made, the same
for all, or nothing is. -/
def Settled (c : Config) (d : Disk) (rs : List Result) : Prop :=
  (∃ d₁, ∀ r ∈ rs, ∀ g paths, r.outcome = .made g paths → folderMade c d r = (none, d₁)) ∨
    ∀ r ∈ rs, ∀ g paths, r.outcome = .made g paths → ∃ failure, folderMade c d r = (some failure, d)

/-- In whatever order results are written, the same becomes of each and the same is on the disk. -/
theorem scheduled_store (wf : d.WellFormed) (hvisible : ∀ r ∈ rs, Visible r)
    (hdisjoint : rs.Pairwise fun r r' => (places c d r).Disjoint (places c d r'))
    (hsettled : Settled c d rs) {order order' : List Nat}
    (horder : order.Perm (List.range rs.length)) (horder' : order'.Perm (List.range rs.length)) :
    (scheduled (storeJob c) rs order d).1 = (scheduled (storeJob c) rs order' d).1 ∧
      (scheduled (storeJob c) rs order d).2.WellFormed ∧
      Disk.Edited (rs.flatMap (places c d)) d (scheduled (storeJob c) rs order d).2 ∧
      Disk.SameFiles (scheduled (storeJob c) rs order' d).2
        (scheduled (storeJob c) rs order d).2 := by
  have hcases : (∀ r ∈ rs, ∀ g paths, r.outcome = .made g paths → ∃ failure,
      folderMade c d r = (some failure, d)) ∨
      ∃ d₁, (∀ r ∈ rs, ∀ g paths, r.outcome = .made g paths → folderMade c d r = (none, d₁)) ∧
        ∃ r ∈ rs, ∃ g paths, r.outcome = .made g paths := by
    rcases hsettled with ⟨d₁, hmakes⟩ | hfails
    · by_cases hsome : ∃ r ∈ rs, ∃ g paths, r.outcome = .made g paths
      · exact .inr ⟨d₁, hmakes, hsome⟩
      · exact .inl fun r hr g paths hmade => absurd ⟨r, hr, g, paths, hmade⟩ hsome
    · exact .inl hfails
  rcases hcases with hfails | ⟨d₁, hmakes, hsome⟩
  · obtain ⟨hresults, hdisk⟩ := scheduled_store_of_failure hfails horder
    obtain ⟨hresults', hdisk'⟩ := scheduled_store_of_failure hfails horder'
    rw [hresults, hresults', hdisk, hdisk']
    exact ⟨rfl, wf, .refl _ d, .refl d⟩
  · obtain ⟨hgrown, hresults, hpartly⟩ :=
      scheduled_store_of_made wf hvisible hdisjoint hmakes hsome horder
    obtain ⟨-, hresults', hpartly'⟩ :=
      scheduled_store_of_made wf hvisible hdisjoint hmakes hsome horder'
    have hedited := (hgrown.edited (rs.flatMap (places c d₁))).trans hpartly.edited
    rw [funext (places_congr hgrown.work c)] at hedited
    have hall : ∀ {order : List Nat}, order.Perm (List.range rs.length) → ∀ i < rs.length,
        i ∈ order.reverse :=
      fun horder i hi => List.mem_reverse.2 (horder.mem_iff.2 (List.mem_range.2 hi))
    rw [hresults, hresults']
    exact ⟨rfl, hpartly.wellFormed, hedited, hpartly'.same hpartly (hall horder') (hall horder)⟩

end HeaderBridge.Batch
