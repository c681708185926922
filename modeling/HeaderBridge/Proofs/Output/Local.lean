import HeaderBridge.Proofs.Output.Folder

namespace HeaderBridge.Output

variable {d d' : Disk} {dir : Text} {declaration definition : Document} {draw : Draw}

def pair (d : Disk) (dir : Text) (declaration definition : Document) : List Place :=
  [target d dir declaration, target d dir definition]

theorem obstacle?_congr (hwork : d'.work = d.work)
    (h : ∀ q ∈ pair d dir declaration definition, d'.view q = d.view q) :
    obstacle? d' dir declaration definition = obstacle? d dir declaration definition := by
  have hdeclaration := Disk.folder_congr (h _ List.mem_cons_self)
  have hdefinition := Disk.folder_congr (h (target d dir definition) (by simp [pair]))
  unfold obstacle?
  rw [target_congr hwork, target_congr hwork]
  simp only [hdeclaration, hdefinition]

section Folder

variable (hdraw : Fresh draw) (wf : d.WellFormed) (hstat : d.stat dir = .ok .folder)

include hdraw wf hstat

theorem writeWith_frame {q : Place} (hq : q ∉ pair d dir declaration definition) :
    (writeWith draw d dir declaration definition).2.find? q = d.find? q := by
  simp only [pair, List.mem_cons, List.not_mem_nil, or_false, not_or] at hq
  cases hobstacle : obstacle? d dir declaration definition with
  | none =>
    obtain ⟨d'', hwritten, -, hview⟩ := writeWith_of_free hdraw wf hstat hobstacle
    rw [hwritten, hview, if_neg hq.2, if_neg hq.1]
  | some o =>
    obtain ⟨d'', hwritten, -, hview⟩ := writeWith_of_obstacle hdraw wf hstat hobstacle
    rw [hwritten, hview, if_neg fun h => hq.1 h.2]

/-- Two disks on which the same stands at the places of a pair tell the same of its write, and the
same stands there afterwards. -/
theorem writeWith_local (hspares : Spares draw declaration definition) (wf' : d'.WellFormed)
    (hstat' : d'.stat dir = .ok .folder) (hwork : d'.work = d.work)
    (h : ∀ q ∈ pair d dir declaration definition, d'.view q = d.view q) :
    (writeWith draw d' dir declaration definition).1 =
        (writeWith draw d dir declaration definition).1 ∧
      ∀ q ∈ pair d dir declaration definition,
        (writeWith draw d' dir declaration definition).2.view q =
          (writeWith draw d dir declaration definition).2.view q := by
  -- what is in the way is seen at the two places, so both writes take the same course
  have hobstacles := obstacle?_congr hwork h
  have hplace : ∀ doc, target d' dir doc = target d dir doc := fun doc => target_congr hwork
  cases hobstacle : obstacle? d dir declaration definition with
  | none =>
    rw [hobstacle] at hobstacles
    have hapart := not_collides_of_spares wf hstat hspares hobstacle
    have hapart' := not_collides_of_spares wf' hstat' hspares hobstacles
    obtain ⟨e, hwritten, -, hview⟩ := writeWith_of_apart hdraw wf hstat hapart hobstacle
    obtain ⟨e', hwritten', -, hview'⟩ := writeWith_of_apart hdraw wf' hstat' hapart' hobstacles
    rw [hwritten, hwritten']
    refine ⟨rfl, fun q hq => ?_⟩
    rw [hplace, hplace] at hview'
    rw [Disk.view, Disk.view, hview, hview']
    split
    · rfl
    · split
      · rfl
      · exact h q hq
  | some o =>
    rw [hobstacle] at hobstacles
    obtain ⟨e, hwritten, -, hview⟩ := writeWith_of_obstacle hdraw wf hstat hobstacle
    obtain ⟨e', hwritten', -, hview'⟩ := writeWith_of_obstacle hdraw wf' hstat' hobstacles
    rw [hwritten, hwritten']
    refine ⟨rfl, fun q hq => ?_⟩
    rw [hplace] at hview'
    rw [Disk.view, Disk.view, hview, hview']
    split
    · rfl
    · exact h q hq

end Folder
end HeaderBridge.Output
