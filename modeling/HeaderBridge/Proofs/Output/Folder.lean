import HeaderBridge.Proofs.Disk.Edited
import HeaderBridge.Proofs.Disk.Same
import HeaderBridge.Proofs.Output.Write

namespace HeaderBridge

namespace Output

variable {d d' : Disk} {dir : Text} {declaration definition : Document} {draw : Draw} {f : Fault}

theorem folder_of_stat (h : d.stat dir = .ok .folder) :
    dir ≠ [] ∧ d.resolve dir = .ok (d.spelled dir) ∧ d.find? (d.spelled dir) = some .folder := by
  obtain ⟨hresolved, hfolder⟩ := Disk.stat_eq_ok.1 h
  refine ⟨?_, hresolved, hfolder⟩
  rintro rfl
  cases hresolved

theorem writeWith_of_folder (h : d.stat dir = .ok .folder) :
    writeWith draw d dir declaration definition =
      match writeInto draw d dir (d.spelled dir) declaration definition with
      | (.error f, d') => (.error f, d')
      | (.ok _, d') =>
        (.ok (Path.join [dir, declaration.name], Path.join [dir, definition.name]), d') := by
  unfold writeWith
  rw [Disk.makeFolders_of_folder h]
  dsimp only
  rewrite [(folder_of_stat h).2.1]
  rfl

/-- Once the folder is made, a pair is written as if it had always been there. -/
theorem writeWith_of_makeFolders (wf : d.WellFormed)
    (h : d.makeFolders (dir.length + 1) dir = (none, d')) :
    writeWith draw d dir declaration definition = writeWith draw d' dir declaration definition := by
  have hstat := (Disk.makeFolders_grown wf h).2.2 rfl
  unfold writeWith
  rw [h, Disk.makeFolders_of_folder hstat]

theorem writeWith_of_failure {path : Text} {e : DiskError}
    (h : d.makeFolders (dir.length + 1) dir = (some (path, e), d')) :
    writeWith draw d dir declaration definition =
      (.error (.fileSystem "create directory" dir (some (e.fault "mkdir" path))), d') := by
  unfold writeWith
  rw [h]

section Folder

variable (hdraw : Fresh draw) (wf : d.WellFormed) (hstat : d.stat dir = .ok .folder)

include hdraw wf hstat

theorem writeWith_of_free (hnone : obstacle? d dir declaration definition = none) :
    ∃ d', writeWith draw d dir declaration definition =
        (.ok (Path.join [dir, declaration.name], Path.join [dir, definition.name]), d') ∧
      Later d d' ∧ ∀ q, d'.find? q =
        if q = target d dir definition then some (moved draw d dir declaration definition)
        else if q = target d dir declaration then
          if Collides draw d dir declaration definition then none
          else some (.file declaration.content (.moment d.clock))
        else d.find? q := by
  obtain ⟨hdir, -, hfolder⟩ := folder_of_stat hstat
  obtain ⟨d', hwritten, hrest⟩ := writeInto_of_free hdraw wf hdir hfolder hnone
  exact ⟨d', by rw [writeWith_of_folder hstat, hwritten], hrest⟩

/-- Where the definition is not staged under the name of the declaration, each file is where it
belongs. -/
theorem writeWith_of_apart (hapart : ¬ Collides draw d dir declaration definition)
    (hnone : obstacle? d dir declaration definition = none) :
    ∃ d', writeWith draw d dir declaration definition =
        (.ok (Path.join [dir, declaration.name], Path.join [dir, definition.name]), d') ∧
      Later d d' ∧ ∀ q, d'.find? q =
        if q = target d dir definition then
          some (.file definition.content (.moment (d.clock + 1)))
        else if q = target d dir declaration then
          some (.file declaration.content (.moment d.clock))
        else d.find? q := by
  obtain ⟨d', hwritten, hlater, hview⟩ := writeWith_of_free hdraw wf hstat hnone
  refine ⟨d', hwritten, hlater, fun q => ?_⟩
  rw [hview, moved, if_neg hapart, if_neg hapart]

omit hdraw in
theorem not_collides_of_spares (hspares : Spares draw declaration definition)
    (hnone : obstacle? d dir declaration definition = none) :
    ¬ Collides draw d dir declaration definition := by
  obtain ⟨hdir, -, hfolder⟩ := folder_of_stat hstat
  obtain ⟨hslash, -, hfree, -⟩ := obstacle?_eq_none.1 hnone
  exact not_collides wf hdir hfolder hslash hfree hspares

theorem writeWith_of_obstacle {o : Obstacle}
    (hsome : obstacle? d dir declaration definition = some o) :
    ∃ d', writeWith draw d dir declaration definition =
        (.error (o.fault dir declaration definition), d') ∧ Later d d' ∧ ∀ q, d'.find? q =
          if o = .definition ∧ q = target d dir declaration then none else d.find? q := by
  obtain ⟨hdir, -, hfolder⟩ := folder_of_stat hstat
  obtain ⟨d', hwritten, hrest⟩ := writeInto_of_obstacle hdraw wf hdir hfolder hsome
  exact ⟨d', by rw [writeWith_of_folder hstat, hwritten], hrest⟩

theorem exists_obstacle_of_error
    (h : writeWith draw d dir declaration definition = (.error f, d')) :
    ∃ o, obstacle? d dir declaration definition = some o := by
  by_contra hnone
  have hnone := Option.eq_none_iff_forall_ne_some.2 fun o ho => hnone ⟨o, ho⟩
  obtain ⟨d'', hwritten, -⟩ := writeWith_of_free hdraw wf hstat hnone
  rw [hwritten] at h
  cases h

end Folder

section Edited

variable (hdraw : Fresh draw) (wf : d.WellFormed)

include hdraw wf

theorem edited_of_stat (hstat : d.stat dir = .ok .folder) :
    (writeWith draw d dir declaration definition).2.WellFormed ∧
      Disk.Edited [target d dir declaration, target d dir definition] d
        (writeWith draw d dir declaration definition).2 := by
  cases hobstacle : obstacle? d dir declaration definition with
  | none =>
    obtain ⟨-, -, hfree, hfree'⟩ := obstacle?_eq_none.1 hobstacle
    obtain ⟨d', hwritten, hlater, hview⟩ := writeWith_of_free hdraw wf hstat hobstacle
    have hmoved : ∃ content n, moved draw d dir declaration definition =
        .file content (.moment n) ∧ d.clock ≤ n := by
      unfold moved
      split
      · exact ⟨_, _, rfl, Nat.le_refl _⟩
      · exact ⟨_, _, rfl, Nat.le_succ _⟩
    obtain ⟨moved, n, hmoved, hn⟩ := hmoved
    rw [hwritten]
    refine ⟨hlater.wellFormed, hlater.work, hlater.clock, fun q hq => ?_, fun q hq => ?_,
      fun q content stamp hq => ?_⟩
    · rw [hview]
      grind
    · rw [hview]
      grind
    · rw [hview, hmoved] at hq
      grind
  | some o =>
    obtain ⟨d', hwritten, hlater, hview⟩ := writeWith_of_obstacle hdraw wf hstat hobstacle
    rw [hwritten]
    have hfree : o = .definition → d.find? (target d dir declaration) ≠ some .folder := by
      rintro rfl
      unfold obstacle? at hobstacle
      grind
    refine ⟨hlater.wellFormed, hlater.work, hlater.clock, fun q hq => ?_, fun q hq => ?_,
      fun q content stamp hq => ?_⟩
    · rw [hview]
      grind
    · rw [hview]
      grind
    · rw [hview] at hq
      grind

theorem writeWith_edited : (writeWith draw d dir declaration definition).2.WellFormed ∧
    Disk.Edited [target d dir declaration, target d dir definition] d
      (writeWith draw d dir declaration definition).2 := by
  rcases hmade : d.makeFolders (dir.length + 1) dir with ⟨_ | ⟨path, e⟩, d₁⟩
  · obtain ⟨wf₁, hgrown, hstat⟩ := Disk.makeFolders_grown wf hmade
    have hplace : ∀ doc, target d₁ dir doc = target d dir doc := fun doc => target_congr hgrown.work
    have hedited :=
      @edited_of_stat d₁ dir declaration definition draw hdraw wf₁ (hstat rfl)
    rw [hplace, hplace] at hedited
    rw [writeWith_of_makeFolders wf hmade]
    exact ⟨hedited.1, (hgrown.edited _).trans hedited.2⟩
  · obtain ⟨wf₁, hgrown, -⟩ := Disk.makeFolders_grown wf hmade
    rw [writeWith_of_failure hmade]
    exact ⟨wf₁, hgrown.edited _⟩

/-- A write that succeeds has made its folder and has found nothing in the way. -/
theorem exists_made_of_ok {paths : Text × Text}
    (h : writeWith draw d dir declaration definition = (.ok paths, d')) :
    ∃ d₁, d.makeFolders (dir.length + 1) dir = (none, d₁) ∧ d₁.WellFormed ∧ d₁.work = d.work ∧
      d₁.stat dir = .ok .folder ∧ obstacle? d₁ dir declaration definition = none ∧
      writeWith draw d₁ dir declaration definition = (.ok paths, d') := by
  rcases hmade : d.makeFolders (dir.length + 1) dir with ⟨_ | ⟨path, e⟩, d₁⟩
  · obtain ⟨wf₁, hgrown, hstat⟩ := Disk.makeFolders_grown wf hmade
    rw [writeWith_of_makeFolders wf hmade] at h
    refine ⟨d₁, rfl, wf₁, hgrown.work, hstat rfl, ?_, h⟩
    refine Option.eq_none_iff_forall_ne_some.2 fun o ho => ?_
    obtain ⟨d'', hwritten, -⟩ := writeWith_of_obstacle hdraw wf₁ (hstat rfl) ho
    rw [hwritten] at h
    cases h
  · rw [writeWith_of_failure hmade] at h
    cases h

/-- After a write that succeeds each of the two files holds its own text, if the definition was not
staged under the name of the declaration. -/
theorem writeWith_ok {paths : Text × Text} (hnames : declaration.name ≠ definition.name)
    (hapart :
      ¬ Collides draw (d.makeFolders (dir.length + 1) dir).2 dir declaration definition)
    (h : writeWith draw d dir declaration definition = (.ok paths, d')) :
    paths = (Path.join [dir, declaration.name], Path.join [dir, definition.name]) ∧
      target d dir declaration ≠ target d dir definition ∧
      d'.view (target d dir declaration) = some (some declaration.content) ∧
      d'.view (target d dir definition) = some (some definition.content) := by
  obtain ⟨d₁, hmade, wf₁, hwork, hstat, hnone, h⟩ := exists_made_of_ok hdraw wf h
  rw [hmade] at hapart
  obtain ⟨hslash, hslash', hfree, hfree'⟩ := obstacle?_eq_none.1 hnone
  obtain ⟨hdir, -, hfolder⟩ := folder_of_stat hstat
  have hfirst := (target_of_not_folder wf₁ hdir hfolder hslash hfree).2
  have hsecond := (target_of_not_folder wf₁ hdir hfolder hslash' hfree').2
  obtain ⟨d'', hwritten, -, hview⟩ := writeWith_of_apart hdraw wf₁ hstat hapart hnone
  have hne : target d₁ dir declaration ≠ target d₁ dir definition := by
    intro heq
    rw [hfirst, hsecond] at heq
    exact hnames (List.singleton_inj.1 (List.append_cancel_left heq))
  rw [hwritten] at h
  cases h
  rw [← target_congr hwork, ← target_congr hwork]
  refine ⟨rfl, hne, ?_, ?_⟩
  · rw [Disk.view, hview, if_neg hne, if_pos rfl]
    rfl
  · rw [Disk.view, hview, if_pos rfl]
    rfl

theorem not_collides_of_ok {paths : Text × Text} (hspares : Spares draw declaration definition)
    (h : writeWith draw d dir declaration definition = (.ok paths, d')) :
    ¬ Collides draw (d.makeFolders (dir.length + 1) dir).2 dir declaration definition := by
  obtain ⟨d₁, hmade, wf₁, -, hstat, hnone, -⟩ := exists_made_of_ok hdraw wf h
  rw [hmade]
  exact not_collides_of_spares wf₁ hstat hspares hnone

/-- What is left when a pair could not be written: folders that were made, and all that was there
but for the old declaration, which is gone only if a folder stands where the definition should
go. -/
theorem left_of_error (h : writeWith draw d dir declaration definition = (.error f, d')) :
    Later d d' ∧ ∃ d₁, Disk.Grown d d₁ ∧ ∀ q, d'.find? q = d₁.find? q ∨
      q = target d dir declaration ∧ d'.find? q = none ∧
        d'.stat (Path.join [dir, definition.name]) = .ok .folder := by
  rcases hmade : d.makeFolders (dir.length + 1) dir with ⟨_ | ⟨path, e⟩, d₁⟩
  · obtain ⟨wf₁, hgrown, hstat⟩ := Disk.makeFolders_grown wf hmade
    have hstat := hstat rfl
    have hdir := (folder_of_stat hstat).1
    rw [writeWith_of_makeFolders wf hmade] at h
    obtain ⟨o, ho⟩ := exists_obstacle_of_error hdraw wf₁ hstat h
    obtain ⟨d'', hwritten, hlater, hview⟩ := writeWith_of_obstacle hdraw wf₁ hstat ho
    rw [hwritten] at h
    cases h
    have hplace : ∀ doc, target d₁ dir doc = target d dir doc := fun doc => target_congr hgrown.work
    have hwork := hlater.work.trans hgrown.work
    rw [hplace] at hview
    refine ⟨⟨hlater.wellFormed, hwork, hgrown.clock ▸ hlater.clock⟩, d₁, hgrown, fun q => ?_⟩
    by_cases hq : o = .definition ∧ q = target d dir declaration
    · right
      have hobstacle : d₁.find? (target d dir definition) = some .folder ∧
          d₁.find? (target d dir declaration) ≠ some .folder := by
        rw [← hplace definition, ← hplace declaration]
        rw [hq.1] at ho
        unfold obstacle? at ho
        grind
      refine ⟨hq.2, by rw [hview, if_pos hq], ?_⟩
      rw [join_eq hdir, Disk.stat_clean hlater.wellFormed, ← Disk.spelled_clean, ← join_eq hdir]
      change d'.find? (target d' dir definition) = some .folder
      rw [target_congr hwork, hview, if_neg]
      · exact hobstacle.1
      · rintro ⟨-, heq⟩
        exact hobstacle.2 (heq ▸ hobstacle.1)
    · left
      rw [hview, if_neg hq]
  · obtain ⟨wf₁, hgrown, -⟩ := Disk.makeFolders_grown wf hmade
    rw [writeWith_of_failure hmade] at h
    cases h
    exact ⟨⟨wf₁, hgrown.work, Nat.le_of_eq hgrown.clock.symm⟩, _, hgrown, fun q => .inl rfl⟩

end Edited

/-- A pair that could not be written leaves no file behind that was not there before, and takes
nothing away but an old declaration, and that only if a folder stands where the definition should
go. -/
theorem write_failed (wf : d.WellFormed) (h : write d dir declaration definition = (.error f, d')) :
    (∀ q content stamp, d'.find? q = some (.file content stamp) →
      d.find? q = some (.file content stamp)) ∧
    (∀ q e, d.find? q = some e → q ≠ target d dir declaration → d'.find? q = some e) ∧
    (d'.read (Path.join [dir, definition.name])).toOption =
      (d.read (Path.join [dir, definition.name])).toOption ∧
    (d'.isFolder (Path.join [dir, definition.name]) = false →
      (d'.read (Path.join [dir, declaration.name])).toOption =
        (d.read (Path.join [dir, declaration.name])).toOption) := by
  obtain ⟨hlater, d₁, hgrown, hleft⟩ := left_of_error fresh_freshNumber wf h
  have hcontent : ∀ q, (d₁.view q).join = (d.view q).join := by
    intro q
    rcases hgrown.find? q with heq | ⟨hnone, hfolder⟩
    · rw [Disk.view, heq, Disk.view]
    · rw [Disk.view_eq_none.2 hnone, Disk.view_eq_folder.2 hfolder]
      rfl
  have hread : ∀ ps, (d'.find? (d.spelled (Path.join ps)) = d₁.find? (d.spelled (Path.join ps))) →
      (d'.read (Path.join ps)).toOption = (d.read (Path.join ps)).toOption := by
    intro ps heq
    apply Disk.read_join_congr wf hlater.wellFormed hlater.work
    rw [Disk.view, heq, ← Disk.view, hcontent]
  refine ⟨fun q content stamp hfile => ?_, fun q e hentry hq => ?_, ?_, fun hnot => ?_⟩
  · rcases hleft q with heq | ⟨-, hnone, -⟩
    · rw [heq] at hfile
      exact hgrown.file_iff.1 hfile
    · rw [hnone] at hfile
      cases hfile
  · rcases hleft q with heq | ⟨hplace, -⟩
    · rcases hgrown.find? q with heq' | ⟨hnone, -⟩
      · rw [heq, heq', hentry]
      · rw [hnone] at hentry
        cases hentry
    · exact absurd hplace hq
  · apply hread
    rcases hleft (target d dir definition) with heq | ⟨-, hnone, hstat⟩
    · exact heq
    · have hfolder : d'.find? (target d' dir definition) = some .folder :=
        (Disk.stat_eq_ok.1 hstat).2
      rw [target_congr hlater.work, hnone] at hfolder
      cases hfolder
  · apply hread
    rcases hleft (target d dir declaration) with heq | ⟨-, -, hstat⟩
    · exact heq
    · rw [Disk.isFolder_eq_true.2 hstat] at hnot
      cases hnot

/-- An old declaration in a folder, and a folder where the definition should go. -/
def blocked : Disk := (Disk.empty.install "out/A.h" "old\n" 0).install "out/A.cpp/keep" "k\n" 0

/-- All is still there but the old declaration, and the staged files are gone. -/
theorem write_failed_blocked :
    ∃ f d', write blocked "out" ⟨"A.h", "new h\n"⟩ ⟨"A.cpp", "new cpp\n"⟩ = (.error f, d') ∧
    blocked.WellFormed ∧
      (∀ q content stamp, d'.find? q = some (.file content stamp) →
        blocked.find? q = some (.file content stamp)) ∧
      d'.read "out/A.cpp/keep" = .ok "k\n" ∧
      (d'.read "out/A.cpp").toOption = (blocked.read "out/A.cpp").toOption := by
  have wf : blocked.WellFormed := by decide +kernel
  have hfails : (write blocked "out" ⟨"A.h", "new h\n"⟩ ⟨"A.cpp", "new cpp\n"⟩).1.toOption =
      none := by
    decide +kernel
  have hkept :
      (write blocked "out" ⟨"A.h", "new h\n"⟩ ⟨"A.cpp", "new cpp\n"⟩).2.read "out/A.cpp/keep" =
      .ok "k\n" := by decide +kernel
  rcases hwrite : write blocked "out" ⟨"A.h", "new h\n"⟩ ⟨"A.cpp", "new cpp\n"⟩ with ⟨f | paths, d'⟩
  · have hleft := write_failed wf hwrite
    rw [hwrite] at hkept
    exact ⟨f, d', rfl, wf, hleft.1, hkept, hleft.2.2.1⟩
  · rw [hwrite] at hfails
    cases hfails

/-- The old declaration is lost. -/
theorem write_removes_old_declaration :
    (write blocked "out" ⟨"A.h", "new h\n"⟩ ⟨"A.cpp", "new cpp\n"⟩).1.toOption = none ∧
      blocked.read "out/A.h" = .ok "old\n" ∧
      (write blocked "out" ⟨"A.h", "new h\n"⟩ ⟨"A.cpp", "new cpp\n"⟩).2.read "out/A.h" =
        .error .notFound := by
  decide +kernel

end Output
end HeaderBridge
