import HeaderBridge.Proofs.Disk.Edited
import HeaderBridge.Proofs.Output.Target

namespace HeaderBridge.Output

variable {d : Disk} {dir : Text} {doc declaration definition : Document} {draw : Draw}

def unstaged (dir : Text) (doc : Document) : Fault :=
  .fileSystem "create" (Path.join [dir, doc.name])
    (some (.plain ("createtemp ." ++ doc.name ++ ".*.tmp")
      (some (.ofText "pattern contains path separator"))))

def unsettled (dir : Text) (doc : Document) : Fault :=
  .fileSystem "rename" (Path.join [dir, doc.name])
    (some (DiskError.alreadyThere.fault ("rename " ++ stagingPath dir doc.name)
      (Path.join [dir, doc.name])))

def staging (draw : Draw) (d : Disk) (folder : Place) (doc : Document) : Place :=
  folder ++ [stagingName doc.name (draw d folder doc.name)]

/-- What may stand in the way of a pair of files. -/
inductive Obstacle
  | slash (doc : Document)
  | declaration
  /-- A folder stands where the definition should go, and none where the declaration should go. -/
  | definition
deriving DecidableEq

def Obstacle.fault (dir : Text) (declaration definition : Document) : Obstacle → Fault
  | slash doc => unstaged dir doc
  | .declaration => unsettled dir declaration
  | .definition => unsettled dir definition

def obstacle? (d : Disk) (dir : Text) (declaration definition : Document) : Option Obstacle :=
  if declaration.name.contains '/' then some (.slash declaration)
  else if definition.name.contains '/' then some (.slash definition)
  else if d.find? (target d dir declaration) = some .folder then some .declaration
  else if d.find? (target d dir definition) = some .folder then some .definition
  else none

theorem obstacle?_eq_none : obstacle? d dir declaration definition = none ↔
    ('/' : UInt8) ∉ declaration.name ∧ ('/' : UInt8) ∉ definition.name ∧
      d.find? (target d dir declaration) ≠ some .folder ∧
      d.find? (target d dir definition) ≠ some .folder := by
  unfold obstacle?
  grind

structure Later (d d' : Disk) : Prop where
  wellFormed : d'.WellFormed
  work : d'.work = d.work
  clock : d.clock ≤ d'.clock

theorem Later.refl (wf : d.WellFormed) : Later d d := ⟨wf, rfl, Nat.le_refl _⟩

theorem Later.of_view {d' : Disk} (wf : d.WellFormed) (hwork : d'.work = d.work)
    (hclock : d.clock ≤ d'.clock) (hview : ∀ q, d'.find? q = d.find? q) :
    Later d d' ∧ ∀ q, d'.find? q = d.find? q :=
  ⟨⟨wf.congr hwork hclock hview, hwork, hclock⟩, hview⟩

theorem stage_eq (draw : Draw) (d : Disk) (dir : Text) (folder : Place) (doc : Document) :
    stage draw d dir folder doc = if doc.name.contains '/' then .error (unstaged dir doc)
      else .ok (staging draw d folder doc, d.write (staging draw d folder doc) doc.content) := rfl

theorem settle_eq (wf : d.WellFormed) (hdir : dir ≠ [])
    (hfolder : d.find? (d.spelled dir) = some .folder) (hslash : ('/' : UInt8) ∉ doc.name)
    {staged : Place} {e : Entry} (hstaged : d.find? staged = some e) :
    settle d dir staged doc =
      if d.find? (target d dir doc) = some .folder then .error (unsettled dir doc)
      else .ok ((d.drop staged).put (target d dir doc) e) := by
  have hmove : d.move staged (target d dir doc) =
      if d.find? (target d dir doc) = some .folder then .error .alreadyThere
      else .ok ((d.drop staged).put (target d dir doc) e) := by
    rw [Disk.move, hstaged]
    rcases d.find? (target d dir doc) with _ | e
    · simp
    · cases e <;> simp
  have hresolved := resolve_target wf hdir hfolder hslash
  unfold settle
  simp only [hresolved, bind, Except.bind, hmove]
  split
  · rename_i h
    split at h
    · cases h
    · rename_i hfree
      cases h
      rw [if_neg hfree]
  · rename_i h
    split at h
    · rename_i htaken
      cases h
      rw [if_pos htaken]
      rfl
    · cases h

/-- The place where the definition is staged, behind the declaration. -/
def secondStaging (draw : Draw) (d : Disk) (folder : Place) (declaration definition : Document) :
    Place :=
  staging draw (d.write (staging draw d folder declaration) declaration.content) folder definition

def bothStaged (draw : Draw) (d : Disk) (folder : Place) (declaration definition : Document) :
    Disk :=
  (d.write (staging draw d folder declaration) declaration.content).write
    (secondStaging draw d folder declaration definition) definition.content

theorem writeInto_of_staged {folder : Place} (hslash : ('/' : UInt8) ∉ declaration.name)
    (hslash' : ('/' : UInt8) ∉ definition.name) :
    writeInto draw d dir folder declaration definition =
      let first := staging draw d folder declaration
      let second := secondStaging draw d folder declaration definition
      let staged := bothStaged draw d folder declaration definition
      match settle staged dir first declaration with
      | .error f => (.error f, (staged.drop first).drop second)
      | .ok d' => match settle d' dir second definition with
        | .error f => (.error f, discard (d'.drop second) (Path.join [dir, declaration.name]))
        | .ok d => (.ok (), d) := by
  have hfirst : stage draw d dir folder declaration = .ok (staging draw d folder declaration,
      d.write (staging draw d folder declaration) declaration.content) := by
    rw [stage_eq, if_neg (by simpa using hslash)]
  have hsecond : stage draw (d.write (staging draw d folder declaration) declaration.content) dir
      folder definition = .ok (secondStaging draw d folder declaration definition,
        bothStaged draw d folder declaration definition) := by
    rw [stage_eq, if_neg (by simpa using hslash')]
    rfl
  unfold writeInto
  rw [hfirst]
  dsimp only
  rewrite [hsecond]
  rfl

def firstSettled (draw : Draw) (d : Disk) (dir : Text) (declaration definition : Document) : Disk :=
  ((bothStaged draw d (d.spelled dir) declaration definition).drop
    (staging draw d (d.spelled dir) declaration)).put (target d dir declaration)
      (.file declaration.content (.moment d.clock))

/-- The disk with the declaration in place and no definition, which is staged no more. -/
def halfSettled (draw : Draw) (d : Disk) (dir : Text) (declaration definition : Document) : Disk :=
  (firstSettled draw d dir declaration definition).drop
    (secondStaging draw d (d.spelled dir) declaration definition)

/-- The definition is staged where the declaration goes, so that the declaration overwrites it. -/
def Collides (draw : Draw) (d : Disk) (dir : Text) (declaration definition : Document) : Prop :=
  secondStaging draw d (d.spelled dir) declaration definition = target d dir declaration

instance : Decidable (Collides draw d dir declaration definition) :=
  inferInstanceAs (Decidable (_ = _))

theorem collides_iff : Collides draw d dir declaration definition ↔
    secondStaging draw d (d.spelled dir) declaration definition = target d dir declaration := .rfl

def moved (draw : Draw) (d : Disk) (dir : Text) (declaration definition : Document) : Entry :=
  if Collides draw d dir declaration definition then
    .file declaration.content (.moment d.clock)
  else .file definition.content (.moment (d.clock + 1))

/-- No number is drawn that gives the staged definition the name of the declaration. -/
def Spares (draw : Draw) (declaration definition : Document) : Prop :=
  ∀ d folder, stagingName definition.name (draw d folder definition.name) ≠ declaration.name

/-- A staging name starts with a dot, so a declaration that does not is always spared. -/
theorem spares_of_head (h : declaration.name.head? ≠ some ('.' : UInt8)) :
    Spares draw declaration definition := by
  intro d folder hsame
  rw [← hsame] at h
  exact h rfl

section Staged

variable (hdraw : Fresh draw)

include hdraw

theorem find?_staging (d : Disk) (folder : Place) (doc : Document) :
    d.find? (staging draw d folder doc) = none :=
  hdraw d folder doc.name

theorem staging_ne_nil (d : Disk) (folder : Place) (doc : Document) :
    staging draw d folder doc ≠ [] :=
  Disk.ne_nil_of_find?_eq_none (find?_staging hdraw d folder doc)

/-- What is staged second stands neither where the first is staged nor where anything was. -/
theorem secondStaging_spec (d : Disk) (folder : Place) (declaration definition : Document) :
    secondStaging draw d folder declaration definition ≠ staging draw d folder declaration ∧
      d.find? (secondStaging draw d folder declaration definition) = none := by
  have hfree := find?_staging hdraw
    (d.write (staging draw d folder declaration) declaration.content) folder definition
  rw [← secondStaging, Disk.find?_write (staging_ne_nil hdraw d folder declaration)] at hfree
  split at hfree
  · cases hfree
  · rename_i hne
    exact ⟨hne, hfree⟩

theorem find?_bothStaged (d : Disk) (folder : Place) (declaration definition : Document)
    (q : Place) : (bothStaged draw d folder declaration definition).find? q =
      if q = secondStaging draw d folder declaration definition then
        some (.file definition.content (.moment (d.clock + 1)))
      else if q = staging draw d folder declaration then
        some (.file declaration.content (.moment d.clock))
      else d.find? q := by
  have hne :=
    Disk.ne_nil_of_find?_eq_none (secondStaging_spec hdraw d folder declaration definition).2
  rw [bothStaged, Disk.find?_write hne,
    Disk.find?_write (staging_ne_nil hdraw d folder declaration)]
  rfl

theorem find?_bothStaged_folder (d : Disk) (folder : Place) (declaration definition : Document)
    (q : Place) : (bothStaged draw d folder declaration definition).find? q = some .folder ↔
      d.find? q = some .folder := by
  have hfirst := find?_staging hdraw d folder declaration
  have hsecond := (secondStaging_spec hdraw d folder declaration definition).2
  rw [find?_bothStaged hdraw]
  grind

end Staged

section Folder

variable (hdraw : Fresh draw) (wf : d.WellFormed) (hdir : dir ≠ [])
  (hfolder : d.find? (d.spelled dir) = some .folder)

include hdraw wf hfolder in
theorem wellFormed_bothStaged (declaration definition : Document) :
    (bothStaged draw d (d.spelled dir) declaration definition).WellFormed := by
  have hparent : ∀ (d' : Disk) (doc : Document),
      (staging draw d' (d.spelled dir) doc).dropLast = d.spelled dir :=
    fun _ _ => List.dropLast_concat
  have hfree := find?_staging hdraw d (d.spelled dir) declaration
  have hfirst : (d.write (staging draw d (d.spelled dir) declaration)
      declaration.content).WellFormed := by
    apply wf.write
    · simp [hfree]
    · rwa [hparent]
  have hfree' := find?_staging hdraw
    (d.write (staging draw d (d.spelled dir) declaration) declaration.content) (d.spelled dir)
    definition
  apply hfirst.write
  · rw [secondStaging, hfree']
    simp
  · rw [secondStaging, hparent, Disk.find?_write (staging_ne_nil hdraw d _ declaration)]
    split
    · rename_i h
      rw [← h, hfolder] at hfree
      cases hfree
    · exact hfolder

section Free

variable (hslash : ('/' : UInt8) ∉ declaration.name)
  (hfree : d.find? (target d dir declaration) ≠ some .folder)

include wf hdir hfolder hslash hfree

theorem target_ne_nil_of_free : target d dir declaration ≠ [] := by
  rw [(target_of_not_folder wf hdir hfolder hslash hfree).2]
  simp

theorem not_collides (hspares : Spares draw declaration definition) :
    ¬ Collides draw d dir declaration definition := by
  intro hsame
  rw [Collides, (target_of_not_folder wf hdir hfolder hslash hfree).2] at hsame
  exact hspares _ _ (List.singleton_inj.1 (List.append_cancel_left hsame))

include hdraw

theorem find?_firstSettled (definition : Document) (q : Place) :
    (firstSettled draw d dir declaration definition).find? q =
      if q = target d dir declaration then some (.file declaration.content (.moment d.clock))
      else if q = secondStaging draw d (d.spelled dir) declaration definition then
        some (.file definition.content (.moment (d.clock + 1)))
      else d.find? q := by
  have hne := target_ne_nil_of_free wf hdir hfolder hslash hfree
  have hfirst := find?_staging hdraw d (d.spelled dir) declaration
  have hstagings := (secondStaging_spec hdraw d (d.spelled dir) declaration definition).1
  rw [firstSettled, Disk.find?_put hne, Disk.find?_drop (staging_ne_nil hdraw d _ declaration),
    find?_bothStaged hdraw]
  grind

theorem find?_firstSettled_folder (definition : Document) (q : Place) :
    (firstSettled draw d dir declaration definition).find? q = some .folder ↔
      d.find? q = some .folder := by
  have hsecond := (secondStaging_spec hdraw d (d.spelled dir) declaration definition).2
  rw [find?_firstSettled hdraw wf hdir hfolder hslash hfree]
  grind

theorem wellFormed_firstSettled (definition : Document) :
    (firstSettled draw d dir declaration definition).WellFormed := by
  have hstaged := wellFormed_bothStaged hdraw wf hfolder declaration definition
  have hdropped : ((bothStaged draw d (d.spelled dir) declaration definition).drop
      (staging draw d (d.spelled dir) declaration)).WellFormed := by
    apply hstaged.drop
    rw [ne_eq, find?_bothStaged_folder hdraw]
    simp [find?_staging hdraw]
  have hkeep : ∀ q, ((bothStaged draw d (d.spelled dir) declaration definition).drop
      (staging draw d (d.spelled dir) declaration)).find? q = some .folder ↔
        d.find? q = some .folder := by
    intro q
    rw [Disk.find?_drop (staging_ne_nil hdraw d _ declaration)]
    split
    · rename_i h
      simp [h, find?_staging hdraw]
    · rw [find?_bothStaged_folder hdraw]
  apply hdropped.put
  · rw [ne_eq, hkeep]
    exact hfree
  · rw [hkeep]
    exact target_parent wf hdir hfolder hslash
  · intro content n h
    cases h
    change d.clock < d.clock + 1 + 1
    omega

theorem find?_halfSettled (definition : Document) (q : Place) :
    (halfSettled draw d dir declaration definition).find? q =
      if q = secondStaging draw d (d.spelled dir) declaration definition then none
      else if q = target d dir declaration then
        some (.file declaration.content (.moment d.clock))
      else d.find? q := by
  have hne := Disk.ne_nil_of_find?_eq_none
    (secondStaging_spec hdraw d (d.spelled dir) declaration definition).2
  rw [halfSettled, Disk.find?_drop hne, find?_firstSettled hdraw wf hdir hfolder hslash hfree]
  grind

theorem find?_halfSettled_folder (definition : Document) (q : Place) :
    (halfSettled draw d dir declaration definition).find? q = some .folder ↔
      d.find? q = some .folder := by
  have hsecond := (secondStaging_spec hdraw d (d.spelled dir) declaration definition).2
  rw [find?_halfSettled hdraw wf hdir hfolder hslash hfree]
  grind

theorem wellFormed_halfSettled (definition : Document) :
    (halfSettled draw d dir declaration definition).WellFormed := by
  apply (wellFormed_firstSettled hdraw wf hdir hfolder hslash hfree definition).drop
  rw [ne_eq, find?_firstSettled_folder hdraw wf hdir hfolder hslash hfree,
    (secondStaging_spec hdraw d _ declaration definition).2]
  simp

end Free

include hdraw wf hdir hfolder

/-- The first move, decided by what stands at the place of the declaration. -/
theorem settle_first (hslash : ('/' : UInt8) ∉ declaration.name) (definition : Document) :
    settle (bothStaged draw d (d.spelled dir) declaration definition) dir
        (staging draw d (d.spelled dir) declaration) declaration =
      if d.find? (target d dir declaration) = some .folder then .error (unsettled dir declaration)
      else .ok (firstSettled draw d dir declaration definition) := by
  have hstaged := wellFormed_bothStaged hdraw wf hfolder declaration definition
  have hstagings := (secondStaging_spec hdraw d (d.spelled dir) declaration definition).1
  have hentry : (bothStaged draw d (d.spelled dir) declaration definition).find?
      (staging draw d (d.spelled dir) declaration) =
        some (.file declaration.content (.moment d.clock)) := by
    rw [find?_bothStaged hdraw, if_neg (Ne.symm hstagings), if_pos rfl]
  have hfolder' :=
    (find?_bothStaged_folder hdraw d (d.spelled dir) declaration definition _).2 hfolder
  rw [settle_eq hstaged hdir hfolder' hslash hentry]
  have hplace : target (bothStaged draw d (d.spelled dir) declaration definition) dir declaration =
      target d dir declaration := target_congr rfl
  rw [hplace]
  simp only [find?_bothStaged_folder hdraw]
  rfl

/-- The second move, after the first, decided by what stands at the place of the definition. -/
theorem settle_second (hslash : ('/' : UInt8) ∉ declaration.name)
    (hslash' : ('/' : UInt8) ∉ definition.name)
    (hfree : d.find? (target d dir declaration) ≠ some .folder) :
    settle (firstSettled draw d dir declaration definition) dir
        (secondStaging draw d (d.spelled dir) declaration definition) definition =
      if d.find? (target d dir definition) = some .folder then .error (unsettled dir definition)
      else .ok ((halfSettled draw d dir declaration definition).put (target d dir definition)
        (moved draw d dir declaration definition)) := by
  have hentry : (firstSettled draw d dir declaration definition).find?
      (secondStaging draw d (d.spelled dir) declaration definition) =
        some (moved draw d dir declaration definition) := by
    rw [find?_firstSettled hdraw wf hdir hfolder hslash hfree, moved]
    by_cases hcollides : Collides draw d dir declaration definition
    · rw [if_pos (collides_iff.1 hcollides), if_pos hcollides]
    · rw [if_neg (mt collides_iff.2 hcollides), if_neg hcollides, if_pos rfl]
  have hfolder' :=
    (find?_firstSettled_folder hdraw wf hdir hfolder hslash hfree definition _).2 hfolder
  have hsettled := wellFormed_firstSettled hdraw wf hdir hfolder hslash hfree definition
  rw [settle_eq hsettled hdir hfolder' hslash' hentry]
  have hplace : target (firstSettled draw d dir declaration definition) dir definition =
      target d dir definition := target_congr rfl
  rw [hplace]
  simp only [find?_firstSettled_folder hdraw wf hdir hfolder hslash hfree]
  rfl

/-- `writeInto` with its two moves decided by what stands at the two places. -/
theorem writeInto_eq (hslash : ('/' : UInt8) ∉ declaration.name)
    (hslash' : ('/' : UInt8) ∉ definition.name) :
    writeInto draw d dir (d.spelled dir) declaration definition =
      let first := staging draw d (d.spelled dir) declaration
      let second := secondStaging draw d (d.spelled dir) declaration definition
      if d.find? (target d dir declaration) = some .folder then
        (.error (unsettled dir declaration),
          ((bothStaged draw d (d.spelled dir) declaration definition).drop first).drop second)
      else if d.find? (target d dir definition) = some .folder then
        (.error (unsettled dir definition), discard (halfSettled draw d dir declaration definition)
          (Path.join [dir, declaration.name]))
      else
        (.ok (), (halfSettled draw d dir declaration definition).put (target d dir definition)
          (moved draw d dir declaration definition)) := by
  rw [writeInto_of_staged hslash hslash']
  dsimp only
  rw [settle_first hdraw wf hdir hfolder hslash]
  by_cases hfree : d.find? (target d dir declaration) = some .folder
  · rw [if_pos hfree, if_pos hfree]
  · rw [if_neg hfree, if_neg hfree]
    dsimp only
    rw [settle_second hdraw wf hdir hfolder hslash hslash' hfree]
    by_cases hfree' : d.find? (target d dir definition) = some .folder
    · rw [if_pos hfree', if_pos hfree']
      rfl
    · rw [if_neg hfree', if_neg hfree']

omit hdraw in
theorem discard_eq (hslash : ('/' : UInt8) ∉ doc.name)
    (hfree : d.find? (target d dir doc) ≠ some .folder) :
    Later d (discard d (Path.join [dir, doc.name])) ∧
      ∀ q, (discard d (Path.join [dir, doc.name])).find? q =
        if q = target d dir doc then none else d.find? q := by
  have hresolved := resolve_target wf hdir hfolder hslash
  have hne : target d dir doc ≠ [] := by
    intro h
    rw [h] at hfree
    exact hfree rfl
  cases hentry : d.find? (target d dir doc) with
  | none =>
    have hsame : discard d (Path.join [dir, doc.name]) = d := by
      simp [discard, Disk.remove, hresolved, hentry, bind, Except.bind, Except.toOption]
    rw [hsame]
    refine ⟨.refl wf, fun q => ?_⟩
    split
    · rename_i hq
      rw [hq, hentry]
    · rfl
  | some e =>
    cases e with
    | folder => exact absurd hentry hfree
    | file content stamp =>
      have hdropped : discard d (Path.join [dir, doc.name]) = d.drop (target d dir doc) := by
        simp [discard, Disk.remove, hresolved, hentry, bind, Except.bind, Except.toOption]
      rw [hdropped]
      exact ⟨⟨wf.drop hfree, rfl, Nat.le_refl _⟩, Disk.find?_drop hne⟩

/-- Both files are in place and nothing else has changed, unless the declaration went over the
staged definition: then it is moved on to the place of the definition. -/
theorem writeInto_of_free (hnone : obstacle? d dir declaration definition = none) :
    ∃ d', writeInto draw d dir (d.spelled dir) declaration definition = (.ok (), d') ∧
      Later d d' ∧ ∀ q, d'.find? q =
        if q = target d dir definition then some (moved draw d dir declaration definition)
        else if q = target d dir declaration then
          if Collides draw d dir declaration definition then none
          else some (.file declaration.content (.moment d.clock))
        else d.find? q := by
  obtain ⟨hslash, hslash', hfree, hfree'⟩ := obstacle?_eq_none.1 hnone
  have hview := find?_halfSettled hdraw wf hdir hfolder hslash hfree definition
  have hfolders := find?_halfSettled_folder hdraw wf hdir hfolder hslash hfree definition
  have hunstaged := (secondStaging_spec hdraw d (d.spelled dir) declaration definition).2
  have hne' := target_ne_nil_of_free wf hdir hfolder hslash' hfree'
  have hwritten := writeInto_eq hdraw wf hdir hfolder hslash hslash'
  rw [if_neg hfree, if_neg hfree'] at hwritten
  refine ⟨_, hwritten, ⟨?_, rfl, ?_⟩, ?_⟩
  · apply (wellFormed_halfSettled hdraw wf hdir hfolder hslash hfree definition).put
    · rw [ne_eq, hfolders]
      exact hfree'
    · rw [hfolders]
      exact target_parent wf hdir hfolder hslash'
    · intro content n h
      change n < d.clock + 1 + 1
      unfold moved at h
      split at h <;> cases h <;> omega
  · change d.clock ≤ d.clock + 1 + 1
    omega
  · intro q
    rw [Disk.find?_put hne', hview]
    grind [collides_iff]

omit hdir hfolder in
/-- Where the definition cannot be staged, the staged declaration is taken away again. -/
theorem writeInto_of_unstaged (hslash : ¬ declaration.name.contains '/' = true)
    (hslash' : definition.name.contains '/' = true) :
    ∃ d', writeInto draw d dir (d.spelled dir) declaration definition =
        (.error (unstaged dir definition), d') ∧ Later d d' ∧ ∀ q, d'.find? q = d.find? q := by
  have hfirst := find?_staging hdraw d (d.spelled dir) declaration
  have hne := staging_ne_nil hdraw d (d.spelled dir) declaration
  have hwritten : writeInto draw d dir (d.spelled dir) declaration definition =
      (.error (unstaged dir definition),
        (d.write (staging draw d (d.spelled dir) declaration) declaration.content).drop
          (staging draw d (d.spelled dir) declaration)) := by
    unfold writeInto
    rw [stage_eq, if_neg hslash]
    dsimp only
    rw [stage_eq, if_pos hslash']
  refine ⟨_, hwritten, Later.of_view wf rfl (Nat.le_succ d.clock) ?_⟩
  intro q
  rw [Disk.find?_drop hne, Disk.find?_write hne]
  grind

/-- Where the declaration cannot be moved, both staged files are taken away again. -/
theorem writeInto_of_declaration_taken (hslash : ('/' : UInt8) ∉ declaration.name)
    (hslash' : ('/' : UInt8) ∉ definition.name)
    (htaken : d.find? (target d dir declaration) = some .folder) :
    ∃ d', writeInto draw d dir (d.spelled dir) declaration definition =
        (.error (unsettled dir declaration), d') ∧ Later d d' ∧ ∀ q, d'.find? q = d.find? q := by
  have hfirst := find?_staging hdraw d (d.spelled dir) declaration
  have hfirstNe := staging_ne_nil hdraw d (d.spelled dir) declaration
  have hsecond := (secondStaging_spec hdraw d (d.spelled dir) declaration definition).2
  have hsecondNe := Disk.ne_nil_of_find?_eq_none hsecond
  have hwritten := writeInto_eq hdraw wf hdir hfolder hslash hslash'
  rw [if_pos htaken] at hwritten
  refine ⟨_, hwritten, Later.of_view wf rfl (Nat.le_add_right d.clock 2) ?_⟩
  intro q
  rw [Disk.find?_drop hsecondNe, Disk.find?_drop hfirstNe, find?_bothStaged hdraw]
  grind

/-- Where the definition alone cannot be moved, the declaration is taken away from its place. -/
theorem writeInto_of_definition_taken (hslash : ('/' : UInt8) ∉ declaration.name)
    (hslash' : ('/' : UInt8) ∉ definition.name)
    (hfree : d.find? (target d dir declaration) ≠ some .folder)
    (htaken : d.find? (target d dir definition) = some .folder) :
    ∃ d', writeInto draw d dir (d.spelled dir) declaration definition =
        (.error (unsettled dir definition), d') ∧ Later d d' ∧
      ∀ q, d'.find? q = if q = target d dir declaration then none else d.find? q := by
  have hsecond := (secondStaging_spec hdraw d (d.spelled dir) declaration definition).2
  have hwritten := writeInto_eq hdraw wf hdir hfolder hslash hslash'
  rw [if_neg hfree, if_pos htaken] at hwritten
  have hview := find?_halfSettled hdraw wf hdir hfolder hslash hfree definition
  have hfolders := find?_halfSettled_folder hdraw wf hdir hfolder hslash hfree definition
  have hplace : target (halfSettled draw d dir declaration definition) dir declaration =
      target d dir declaration := target_congr rfl
  have hfree' : (halfSettled draw d dir declaration definition).find? (target d dir declaration) ≠
      some .folder := by
    rwa [ne_eq, hfolders]
  have hsettled := wellFormed_halfSettled hdraw wf hdir hfolder hslash hfree definition
  obtain ⟨hlater, hdiscarded⟩ :=
    discard_eq hsettled hdir ((hfolders _).2 hfolder) hslash (hplace ▸ hfree')
  rw [hplace] at hdiscarded
  refine ⟨_, hwritten, ⟨hlater.wellFormed, hlater.work, ?_⟩, fun q => ?_⟩
  · exact Nat.le_trans (Nat.le_add_right d.clock 2) hlater.clock
  · rw [hdiscarded, hview]
    grind

/-- Nothing is left of either file. Only where the definition alone could not be moved is the old
declaration gone as well. -/
theorem writeInto_of_obstacle {o : Obstacle}
    (hsome : obstacle? d dir declaration definition = some o) :
    ∃ d', writeInto draw d dir (d.spelled dir) declaration definition =
        (.error (o.fault dir declaration definition), d') ∧ Later d d' ∧ ∀ q, d'.find? q =
          if o = .definition ∧ q = target d dir declaration then none else d.find? q := by
  unfold obstacle? at hsome
  split at hsome
  · rename_i hslash
    cases hsome
    have hwritten : writeInto draw d dir (d.spelled dir) declaration definition =
        (.error (unstaged dir declaration), d) := by
      unfold writeInto
      rw [stage_eq, if_pos hslash]
    exact ⟨d, hwritten, .refl wf, by simp⟩
  rename_i hslash
  split at hsome
  · rename_i hslash'
    cases hsome
    simpa [Obstacle.fault] using writeInto_of_unstaged hdraw wf hslash hslash'
  rename_i hslash'
  have hslash : ('/' : UInt8) ∉ declaration.name := by simpa using hslash
  have hslash' : ('/' : UInt8) ∉ definition.name := by simpa using hslash'
  split at hsome
  · rename_i htaken
    cases hsome
    simpa [Obstacle.fault] using
      writeInto_of_declaration_taken hdraw wf hdir hfolder hslash hslash' htaken
  rename_i hfree
  split at hsome
  · rename_i htaken
    cases hsome
    simpa [Obstacle.fault] using
      writeInto_of_definition_taken hdraw wf hdir hfolder hslash hslash' hfree htaken
  · cases hsome

end Folder
end HeaderBridge.Output
