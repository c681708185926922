import HeaderBridge.Proofs.Reader.Current

namespace HeaderBridge

theorem Disk.mem_of_find?_file {d : Disk} {p : Place} {content : Text} {stamp : Stamp}
    (h : d.find? p = some (.file content stamp)) : (p, .file content stamp) ∈ d.entries := by
  have hp : p ≠ [] := by
    rintro rfl
    cases h
  rw [find?_of_ne_nil hp, List.lookup_eq_some_iff] at h
  obtain ⟨before, after, heq, -⟩ := h
  rw [heq]
  simp

namespace Reader

/-- What is done with a reader, and what happens to its disk. -/
inductive Event
  | read (path : Text)
  | forget (path : Text)
  | clear
  /-- Others have been at work: from now on the disk is the given one. -/
  | change (disk : Disk)

def Event.disk? : Event → Option Disk
  | change d => some d
  | _ => none

structure Scene where
  reader : Reader
  disk : Disk

namespace Scene

def opening (d : Disk) : Scene := ⟨{}, d⟩

def step (s : Scene) : Event → Scene
  | .read path => { s with reader := (s.reader.read s.disk path).2 }
  | .forget path => { s with reader := s.reader.forget path }
  | .clear => { s with reader := {} }
  | .change d => { s with disk := d }

def run (s : Scene) (events : List Event) : Scene := events.foldl step s

def answer? (s : Scene) : Event → Option (Except Fault Text)
  | .read path => some (s.reader.read s.disk path).1
  | _ => none

def answers (s : Scene) : List Event → List (Except Fault Text)
  | [] => []
  | e :: events => (s.answer? e).toList ++ (s.step e).answers events

end Scene

def plainAnswers (d : Disk) : List Event → List (Except Fault Text)
  | [] => []
  | .read path :: events => plain d path :: plainAnswers d events
  | .change d :: events => plainAnswers d events
  | _ :: events => plainAnswers d events

def disks (d : Disk) (events : List Event) : List Disk := d :: events.filterMap Event.disk?

/-- Two different contents of a path differ in their times or in their sizes. -/
def Telltale (ds : List Disk) : Prop := ∀ d ∈ ds, ∀ d' ∈ ds, ∀ path content content' stamp,
  d.stat path = .ok (.file content stamp) → d'.stat path = .ok (.file content' stamp) →
    content.length = content'.length → content = content'

/-- Every remembered value was the content of its path on one of the disks, under the time and size
that are remembered with it. -/
def Recalls (ds : List Disk) (r : Reader) : Prop :=
    ∀ key item, r.cache.items.lookup key = some item →
  ∃ d ∈ ds, d.stat key = .ok (.file item.value item.stamp) ∧ item.size = item.value.length

variable {r : Reader} {d : Disk} {ds : List Disk} {path cleaned content : Text} {stamp : Stamp}

theorem recalls_empty (ds : List Disk) : Recalls ds {} := by
  intro key item h
  cases h

theorem Recalls.erase (h : Recalls ds r) (key : Text) : Recalls ds ⟨r.cache.erase key⟩ := by
  intro key' item hitem
  rw [lookup_erase] at hitem
  split at hitem
  · cases hitem
  · exact h key' item hitem

theorem Recalls.remember (h : Recalls ds r) (hd : d ∈ ds)
    (hstat : d.stat path = .ok (.file content stamp)) :
    Recalls ds (r.remember path content stamp) := by
  intro key item hitem
  rw [lookup_remember] at hitem
  split at hitem
  · rename_i hkey
    cases hitem
    exact ⟨d, hd, hkey ▸ hstat, rfl⟩
  · exact h key item hitem

theorem Recalls.read (h : Recalls ds r) (hd : d ∈ ds) (path : Text) :
    Recalls ds (r.read d path).2 := by
  cases hcheck : check d path with
  | error f =>
    rw [read_of_check_error hcheck]
    exact h
  | ok cleaned =>
    obtain ⟨content, stamp, hstat⟩ := check_eq_ok hcheck
    rcases read_cases r hcheck hstat with ⟨item, -, -, hread⟩ | ⟨-, hread⟩
    · rw [hread]
      exact h
    · rw [hread]
      exact h.remember hd hstat

/-- Where times and sizes tell, a file that was read is remembered as it is. -/
theorem Recalls.read_of_check (h : Recalls ds r) (hds : Telltale ds) (hd : d ∈ ds)
    (hcheck : check d path = .ok cleaned) (hstat : d.stat cleaned = .ok (.file content stamp)) :
    (r.read d path).1 = .ok content ∧
      (r.read d path).2.cache.items.lookup cleaned = some ⟨content, stamp, content.length⟩ := by
  obtain ⟨item, hread, hitem, hmark⟩ := exists_item_of_check r hcheck hstat
  obtain ⟨d', hd', hstat', hsize⟩ := h.read hd path cleaned item hitem
  obtain ⟨hstamp, hlength⟩ := Prod.mk.inj hmark
  have hvalue : content = item.value :=
    hds d hd d' hd' cleaned content item.value stamp hstat (hstamp ▸ hstat') (hlength.trans hsize)
  have heq : item = ⟨content, stamp, content.length⟩ := by rw [hvalue, hstamp, ← hsize]
  rw [hread, hitem, heq]
  exact ⟨rfl, rfl⟩

theorem Recalls.read_plain (h : Recalls ds r) (hds : Telltale ds) (hd : d ∈ ds) (path : Text) :
    (r.read d path).1 = plain d path := by
  cases hcheck : check d path with
  | error f =>
    rw [read_of_check_error hcheck, plain, hcheck]
    rfl
  | ok cleaned =>
    obtain ⟨content, stamp, hstat⟩ := check_eq_ok hcheck
    rw [(h.read_of_check hds hd hcheck hstat).1, plain, hcheck]
    exact (load_of_stat hstat).symm

theorem lookup_of_get_eq_none {c : Cache} {key : Text} (h : (c.get d key path).1 = none) :
    (c.get d key path).2.items.lookup key = none := by
  have herase : (c.erase key).items.lookup key = none := by rw [lookup_erase, if_pos rfl]
  unfold Cache.get at h ⊢
  cases hitem : c.items.lookup key with
  | none => exact hitem
  | some item =>
    rw [hitem] at h
    dsimp only at h ⊢
    cases hstat : d.stat path with
    | error e => exact herase
    | ok e =>
      rw [hstat] at h
      dsimp only at h ⊢
      split at h
      · cases h
      · rename_i hmark
        rw [if_neg hmark]
        exact herase

/-- A load that fails leaves nothing behind, not even what was there before. -/
theorem lookup_of_load_error {ε : Type} {c : Cache} {key : Text} {load : Except ε Text} {f : ε}
    (h : (c.getOrLoad d key path load).1 = .error f) :
    (c.getOrLoad d key path load).2.items.lookup key = none := by
  have hget : (c.get d key path).1 = none → (c.get d key path).2.items.lookup key = none :=
    lookup_of_get_eq_none
  unfold Cache.getOrLoad at h ⊢
  generalize c.get d key path = got at h hget
  obtain ⟨_ | value, c'⟩ := got
  · cases load with
    | error e => exact hget rfl
    | ok value =>
      dsimp only at h
      split at h <;> cases h
  · cases h

namespace Scene

variable {s : Scene} {events : List Event}

theorem recalls_step (h : Recalls ds s.reader) (hd : s.disk ∈ ds) (e : Event) :
    Recalls ds (s.step e).reader := by
  cases e with
  | read path => exact h.read hd path
  | forget path => exact h.erase (Path.clean path)
  | clear => exact recalls_empty ds
  | change d => exact h

theorem disk_step (hd : s.disk ∈ ds) {e : Event} (he : ∀ d ∈ e.disk?, d ∈ ds) :
    (s.step e).disk ∈ ds := by
  cases e with
  | change d => exact he d rfl
  | read path => exact hd
  | forget path => exact hd
  | clear => exact hd

theorem recalls_run (h : Recalls ds s.reader) (hd : s.disk ∈ ds)
    (hevents : ∀ e ∈ events, ∀ d ∈ e.disk?, d ∈ ds) :
    Recalls ds (s.run events).reader ∧ (s.run events).disk ∈ ds := by
  induction events generalizing s with
  | nil => exact ⟨h, hd⟩
  | cons e events ih =>
    obtain ⟨hfirst, hrest⟩ := List.forall_mem_cons.1 hevents
    exact ih (recalls_step h hd e) (disk_step hd hfirst) hrest

theorem answers_of_recalls (h : Recalls ds s.reader) (hds : Telltale ds) (hd : s.disk ∈ ds)
    (hevents : ∀ e ∈ events, ∀ d ∈ e.disk?, d ∈ ds) :
    s.answers events = plainAnswers s.disk events := by
  induction events generalizing s with
  | nil => rfl
  | cons e events ih =>
    obtain ⟨hfirst, hrest⟩ := List.forall_mem_cons.1 hevents
    rw [answers, ih (recalls_step h hd e) (disk_step hd hfirst) hrest]
    cases e with
    | read path =>
      rw [plainAnswers, ← h.read_plain hds hd path]
      rfl
    | forget path => rfl
    | clear => rfl
    | change d => rfl

end Scene

theorem mem_disks {events : List Event} {e : Event} (he : e ∈ events) {d' : Disk}
    (hd : d' ∈ e.disk?) :
    d' ∈ disks d events := List.mem_cons_of_mem d (List.mem_filterMap.2 ⟨e, he, hd⟩)

/-- A reader answers at all times as if it remembered nothing. A read that fails leaves the reader
as it was, and one that succeeds yields what the file holds now and remembers it as it is now; a
load that fails leaves no value. -/
theorem answers_plain {d : Disk} {events : List Event} (hds : Telltale (disks d events)) :
    (Scene.opening d).answers events = plainAnswers d events ∧
    (∀ s, (Scene.opening d).run events = s → ∀ path,
      (∀ f, (s.reader.read s.disk path).1 = .error f → (s.reader.read s.disk path).2 = s.reader) ∧
      ∀ content, (s.reader.read s.disk path).1 = .ok content → ∃ stamp,
        s.disk.stat (Path.clean path) = .ok (.file content stamp) ∧
        (s.reader.read s.disk path).2.cache.items.lookup (Path.clean path) =
          some ⟨content, stamp, content.length⟩) ∧
    ∀ (c : Cache) (d : Disk) (key path : Text) (load : Except Fault Text) (f : Fault),
      (c.getOrLoad d key path load).1 = .error f →
      (c.getOrLoad d key path load).2.items.lookup key = none := by
  have hevents : ∀ e ∈ events, ∀ d' ∈ e.disk?, d' ∈ disks d events :=
    fun e he d' hd => mem_disks he hd
  have hfirst : d ∈ disks d events := List.mem_cons_self
  refine ⟨Scene.answers_of_recalls (recalls_empty _) hds hfirst hevents, ?_, ?_⟩
  · rintro s rfl path
    obtain ⟨hrecalls, hdisk⟩ := Scene.recalls_run (s := .opening d) (recalls_empty _) hfirst hevents
    cases hcheck : check ((Scene.opening d).run events).disk path with
    | error f =>
      rw [read_of_check_error hcheck]
      exact ⟨fun _ _ => rfl, fun content hread => by cases hread⟩
    | ok cleaned =>
      obtain ⟨content, stamp, hstat⟩ := check_eq_ok hcheck
      obtain ⟨hread, hitem⟩ := hrecalls.read_of_check hds hdisk hcheck hstat
      rw [check_eq_clean hcheck] at hstat hitem
      rw [hread]
      refine ⟨fun f hf => (by cases hf), fun content' hcontent => ?_⟩
      cases hcontent
      exact ⟨stamp, hstat, hitem⟩
  · intro c d key path load f h
    exact lookup_of_load_error h

theorem telltale_of_entries (hwork : ∀ d ∈ ds, ∀ d' ∈ ds, d'.work = d.work)
    (hentries : ∀ d ∈ ds, ∀ d' ∈ ds, ∀ e ∈ d.entries, ∀ e' ∈ d'.entries,
      e.1 = e'.1 → Cache.mark e.2 = Cache.mark e'.2 → e.2 = e'.2) : Telltale ds := by
  intro d hd d' hd' path content content' stamp hstat hstat' hlength
  have hentry := (Disk.stat_eq_ok.1 hstat).2
  have hentry' := (Disk.stat_eq_ok.1 hstat').2
  rw [Disk.spelled_congr (hwork d hd d' hd')] at hentry'
  have hsame :=
    hentries d hd d' hd' _ (Disk.mem_of_find?_file hentry) _ (Disk.mem_of_find?_file hentry') rfl
    (by rw [Cache.mark, Cache.mark, hlength])
  cases hsame
  rfl

/-- A header at work: read under two spellings, rewritten within the second, removed, put back,
forgotten. -/
def edits : List Event :=
  let noted (second : Int) (content : Text) : Disk :=
    Disk.empty.install "src/IShape.h" content second
  [.read "src/IShape.h", .change (noted 0 "struct IShape;"), .read "./src//IShape.h",
    .read "src/IShape.h", .change (noted 0 "class IShape;"), .read "src/../src/IShape.h",
      .change Disk.empty, .read "src/IShape.h",
    .change (noted 0 "struct IShape;"), .forget "./src/IShape.h", .read "src/IShape.h",
    .change (noted 1 "struct IShade;"), .read "src/IShape.h", .clear, .read "src/IShape.h"]

theorem answers_plain_edits : Telltale (disks Disk.empty edits) ∧
    (Scene.opening Disk.empty).answers edits = plainAnswers Disk.empty edits ∧
    (plainAnswers Disk.empty edits).map Except.toOption = List.map (Option.map Text.ofString)
      [none, some "struct IShape;", some "struct IShape;", some "class IShape;", none,
        some "struct IShape;", some "struct IShade;", some "struct IShade;"] := by
  have htelltale : Telltale (disks Disk.empty edits) :=
    telltale_of_entries (by decide +kernel) (by decide +kernel)
  exact ⟨htelltale, (answers_plain htelltale).1, by decide +kernel⟩

end Reader
end HeaderBridge
