import HeaderBridge.Reader
import HeaderBridge.Proofs.Disk.Follow

namespace HeaderBridge

def Entry.content? : Entry → Option Text
  | file content _ => some content
  | folder => none

namespace Disk

variable {d d' d'' : Disk} {p q : Place} {path : Text}

/-- What is seen at a place, whenever it was written: the content of a file, or no content for a
folder. -/
def view (d : Disk) (q : Place) : Option (Option Text) := (d.find? q).map Entry.content?

theorem view_eq_none : d.view q = none ↔ d.find? q = none := Option.map_eq_none_iff

theorem view_eq_folder : d.view q = some none ↔ d.find? q = some .folder := by
  rw [view]
  cases d.find? q with
  | none => simp
  | some e => cases e <;> simp [Entry.content?]

theorem view_eq_file {content : Text} :
    d.view q = some (some content) ↔ ∃ stamp, d.find? q = some (.file content stamp) := by
  rw [view]
  cases d.find? q with
  | none => simp
  | some e => cases e <;> simp [Entry.content?]

theorem stat_clean (wf : d.WellFormed) {e : Entry} :
    d.stat (Path.clean path) = .ok e ↔ d.find? (d.spelled path) = some e := by
  rw [stat_eq_ok, spelled_clean]
  constructor
  · exact And.right
  · intro h
    exact ⟨resolve_clean wf (wf.parent h), h⟩

theorem read_clean (wf : d.WellFormed) :
    (d.read (Path.clean path)).toOption = (d.view (d.spelled path)).join := by
  apply Option.ext
  intro content
  have hread : (d.read (Path.clean path)).toOption = some content ↔
      d.read (Path.clean path) = .ok content := by
    cases d.read (Path.clean path) <;> simp [Except.toOption]
  rw [hread, read_eq_ok, Option.join_eq_some_iff, view_eq_file]
  simp only [stat_clean wf]

theorem isFolder_eq_true : d.isFolder path = true ↔ d.stat path = .ok .folder := by
  rw [isFolder]
  cases d.stat path with
  | error e => simp
  | ok e => cases e <;> simp [Entry.isFolder]

theorem read_nil (d : Disk) : d.read [] = .error .notFound := rfl

theorem read_join_congr (wf : d.WellFormed) (wf' : d'.WellFormed) (hwork : d'.work = d.work)
    {ps : List Text}
    (h : (d'.view (d.spelled (Path.join ps))).join = (d.view (d.spelled (Path.join ps))).join) :
    (d'.read (Path.join ps)).toOption = (d.read (Path.join ps)).toOption := by
  unfold Path.join at h ⊢
  dsimp only at h ⊢
  split
  · rw [read_nil, read_nil]
  · rename_i hne
    rw [if_neg hne, spelled_clean] at h
    rw [read_clean wf, read_clean wf', spelled_congr hwork, h]

theorem read_join (wf : d.WellFormed) {ps : List Text} {content : Text}
    (h : d.view (d.spelled (Path.join ps)) = some (some content)) :
    d.read (Path.join ps) = .ok content := by
  unfold Path.join at h ⊢
  dsimp only at h ⊢
  split at h
  · -- the empty path spells the working folder
    have hwork := view_eq_folder.2 wf.work
    change d.view d.work = _ at h
    rw [hwork] at h
    cases h
  · rename_i hne
    rw [if_neg hne]
    rw [spelled_clean] at h
    have hread := @read_clean d (Text.join "/" (ps.filter (!·.isEmpty))) wf
    rw [h] at hread
    cases hresult : d.read (Path.clean (Text.join "/" (ps.filter (!·.isEmpty)))) with
    | error e =>
      rw [hresult] at hread
      cases hread
    | ok t =>
      rw [hresult] at hread
      exact congrArg Except.ok (Option.some.inj hread)

/-- Two disks with the same folders and the same contents of files. -/
structure SameFiles (d d' : Disk) : Prop where
  work : d'.work = d.work
  view : ∀ q, d'.view q = d.view q

theorem SameFiles.refl (d : Disk) : SameFiles d d := ⟨rfl, fun _ => rfl⟩

theorem folder_congr (h : d'.view q = d.view q) :
    d'.find? q = some .folder ↔ d.find? q = some .folder := by
  rw [← view_eq_folder, h, view_eq_folder]

theorem follow_view (d : Disk) (p : Place) (c : Text) (cs : List Text) : d.follow p (c :: cs) =
    if cs = [] then .ok (advance p c)
    else match d.view (advance p c) with
      | none => .error .notFound
      | some (some _) => .error .notFolder
      | some none => d.follow (advance p c) cs := by
  rw [follow_cons, view]
  cases d.find? (advance p c) with
  | none => rfl
  | some e => cases e <;> rfl

theorem follow_congr (h : ∀ q, d'.view q = d.view q) (p : Place) (cs : List Text) :
    d'.follow p cs = d.follow p cs := by
  induction cs generalizing p with
  | nil => rfl
  | cons c cs ih => rw [follow_view, follow_view, h, ih]

theorem resolve_congr (h : SameFiles d d') (path : Text) : d'.resolve path = d.resolve path := by
  unfold resolve
  rw [h.work, follow_congr h.view]

/-- What is at the end of a path is the same but for the time of a file. -/
theorem stat_same (h : SameFiles d d') (path : Text) :
    (∃ e, d.stat path = .error e ∧ d'.stat path = .error e) ∨
      (d.stat path = .ok .folder ∧ d'.stat path = .ok .folder) ∨
      ∃ content stamp stamp', d.stat path = .ok (.file content stamp) ∧
      d'.stat path = .ok (.file content stamp') := by
  unfold stat
  rw [resolve_congr h]
  cases d.resolve path with
  | error e => exact .inl ⟨e, rfl, rfl⟩
  | ok q =>
    simp only [bind, Except.bind]
    rcases hview : d.view q with _ | _ | content
    · rw [view_eq_none.1 hview, view_eq_none.1 ((h.view q).trans hview)]
      exact .inl ⟨.notFound, rfl, rfl⟩
    · rw [view_eq_folder.1 hview, view_eq_folder.1 ((h.view q).trans hview)]
      exact .inr (.inl ⟨rfl, rfl⟩)
    · obtain ⟨stamp, hfile⟩ := view_eq_file.1 hview
      obtain ⟨stamp', hfile'⟩ := view_eq_file.1 ((h.view q).trans hview)
      rw [hfile, hfile']
      exact .inr (.inr ⟨content, stamp, stamp', rfl, rfl⟩)

theorem read_congr (h : SameFiles d d') (path : Text) : d'.read path = d.read path := by
  unfold read
  rcases stat_same h path with ⟨e, hs, hs'⟩ | ⟨hs, hs'⟩ | ⟨content, stamp, stamp', hs, hs'⟩
  · rw [hs, hs']
  · rw [hs, hs']
  · rw [hs, hs']
    rfl

end Disk

theorem Reader.check_congr {d d' : Disk} (h : Disk.SameFiles d d') (path : Text) :
    check d' path = check d path := by
  unfold check
  dsimp only
  rcases Disk.stat_same h (Path.clean path) with
    ⟨e, hs, hs'⟩ | ⟨hs, hs'⟩ | ⟨content, stamp, stamp', hs, hs'⟩ <;> rw [hs, hs']

theorem Reader.load_congr {d d' : Disk} (h : Disk.SameFiles d d') : load d' = load d := by
  funext path
  unfold load
  rw [Disk.read_congr h]

end HeaderBridge
