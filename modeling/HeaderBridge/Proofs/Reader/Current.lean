import HeaderBridge.Proofs.Disk.Edited
import HeaderBridge.Proofs.Disk.Same

namespace HeaderBridge

namespace Reader

variable {r r' : Reader} {d d' : Disk} {places : List Place}

/-- Every remembered value is that of its file as long as the file keeps its time, and times to come
are not remembered yet. -/
structure Current (r : Reader) (d : Disk) : Prop where
  value : ∀ {key item content}, r.cache.items.lookup key = some item →
    d.find? (d.spelled key) = some (.file content item.stamp) → item.value = content
  past : ∀ {key item n}, r.cache.items.lookup key = some item → item.stamp = .moment n → n < d.clock

theorem current_empty (d : Disk) : Current {} d := ⟨by simp, by simp⟩

theorem Current.edited (h : r.Current d) (hd : Disk.Edited places d d') : r.Current d' where
  value {key item content} hitem hfile := by
    rw [Disk.spelled_congr hd.work] at hfile
    rcases hd.late _ _ _ hfile with hold | ⟨n, hn, hclock⟩
    · exact h.value hitem hold
    · have hpast := h.past hitem hn
      omega
  past {key item n} hitem hn := Nat.lt_of_lt_of_le (h.past hitem hn) hd.clock

theorem lookup_erase (c : Cache) (key key' : Text) :
    (c.erase key).items.lookup key' = if key' = key then none else c.items.lookup key' :=
  Disk.lookup_filter_ne c.items key key'

theorem Current.erase (h : r.Current d) (key : Text) : Current ⟨r.cache.erase key⟩ d := by
  have hsub : ∀ {key' item}, (r.cache.erase key).items.lookup key' = some item →
      r.cache.items.lookup key' = some item := by
    intro key' item hitem
    rw [lookup_erase] at hitem
    split at hitem
    · cases hitem
    · exact hitem
  exact ⟨fun hitem => h.value (hsub hitem), fun hitem => h.past (hsub hitem)⟩

def plain (d : Disk) (path : Text) : Except Fault Text := check d path >>= load d

theorem plain_congr (h : Disk.SameFiles d d') (path : Text) : plain d' path = plain d path := by
  rw [plain, plain, check_congr h, load_congr h]

theorem check_eq_ok {path cleaned : Text} (h : check d path = .ok cleaned) :
    ∃ content stamp, d.stat cleaned = .ok (.file content stamp) := by
  unfold check at h
  split at h
  · cases h
  · dsimp only at h
    split at h
    · cases h
    · split at h
      · cases h
      · cases h
      · rename_i content stamp hstat
        cases h
        exact ⟨content, stamp, hstat⟩

theorem check_eq_clean {path cleaned : Text} (h : check d path = .ok cleaned) :
    cleaned = Path.clean path := by
  unfold check at h
  split at h
  · cases h
  · dsimp only at h
    split at h
    · cases h
    · split at h
      · cases h
      · cases h
      · cases h
        rfl

theorem read_of_check_error {path : Text} {f : Fault} (h : check d path = .error f) :
    r.read d path = (.error f, r) := by
  rw [read, h]

theorem exists_error_of_folder {path : Text} (h : d.stat (Path.clean path) = .ok .folder)
    (r : Reader) : ∃ f, (r.read d path).1 = .error f := by
  cases hcheck : check d path with
  | error f =>
    rw [read_of_check_error hcheck]
    exact ⟨f, rfl⟩
  | ok cleaned =>
    obtain ⟨content, stamp, hfile⟩ := check_eq_ok hcheck
    rw [check_eq_clean hcheck, h] at hfile
    cases hfile

theorem load_of_stat {path content : Text} {stamp : Stamp}
    (h : d.stat path = .ok (.file content stamp)) : load d path = .ok content := by
  unfold load
  rw [Disk.read_eq_ok.2 ⟨stamp, h⟩]

/-- What is read is the content of a file, under a path that is not refused. -/
theorem plain_eq_ok {path content : Text} : plain d path = .ok content ↔ path ≠ [] ∧
    isTraversal (Path.clean path) = false ∧
    ∃ stamp, d.stat (Path.clean path) = .ok (.file content stamp) := by
  have hload : ∀ {content stamp}, d.stat (Path.clean path) = .ok (.file content stamp) →
      (Except.ok (Path.clean path) >>= load d) = .ok content := fun hstat => load_of_stat hstat
  unfold plain check
  by_cases hpath : path = []
  · simp [hpath, bind, Except.bind]
  · rw [if_neg (by simpa using hpath)]
    cases htraversal : isTraversal (Path.clean path) with
    | true => simp [htraversal, bind, Except.bind]
    | false =>
      rcases hstat : d.stat (Path.clean path) with e | ⟨content', stamp⟩ | _
      · simp [htraversal, bind, Except.bind, hstat]
      · simp [htraversal, hstat, hload hstat, hpath]
      · simp [htraversal, bind, Except.bind, hstat]

def remember (r : Reader) (path content : Text) (stamp : Stamp) : Reader :=
  ⟨⟨(r.cache.erase path).items ++ [(path, ⟨content, stamp, content.length⟩)]⟩⟩

theorem lookup_remember (r : Reader) (path content : Text) (stamp : Stamp) (key : Text) :
    (r.remember path content stamp).cache.items.lookup key =
      if key = path then some ⟨content, stamp, content.length⟩ else r.cache.items.lookup key := by
  rw [remember, List.lookup_append, lookup_erase]
  grind

theorem Current.remember (h : r.Current d) (wf : d.WellFormed) {path content : Text} {stamp : Stamp}
    (hstat : d.stat path = .ok (.file content stamp)) :
    (r.remember path content stamp).Current d := by
  have hfile := (Disk.stat_eq_ok.1 hstat).2
  constructor
  · intro key item content' hlookup hfile'
    rw [lookup_remember] at hlookup
    split at hlookup
    · rename_i hkey
      cases hlookup
      rw [hkey, hfile] at hfile'
      cases hfile'
      rfl
    · exact h.value hlookup hfile'
  · intro key item n hlookup hn
    rw [lookup_remember] at hlookup
    split at hlookup
    · cases hlookup
      rw [show stamp = .moment n from hn] at hfile
      exact wf.past hfile
    · exact h.past hlookup hn

/-- Of a file the cache hands out what it remembers only under the time and size that the file
has. -/
theorem get_of_stat (c : Cache) {path content : Text} {stamp : Stamp}
    (hstat : d.stat path = .ok (.file content stamp)) : c.get d path path =
      match c.items.lookup path with
      | none => (none, c)
      | some item => if (stamp, content.length) = (item.stamp, item.size) then (some item.value, c)
        else (none, c.erase path) := by
  unfold Cache.get
  rw [hstat]
  cases c.items.lookup path with
  | none => rfl
  | some item => simp [Cache.mark]

theorem set_of_stat (c : Cache) (value : Text) {path content : Text} {stamp : Stamp}
    (hstat : d.stat path = .ok (.file content stamp)) : c.set d path value path =
      .ok ⟨(c.erase path).items ++ [(path, ⟨value, stamp, content.length⟩)]⟩ := by
  rw [Cache.set, hstat]
  rfl

theorem erase_erase (c : Cache) (key : Text) : (c.erase key).erase key = c.erase key := by
  simp [Cache.erase]

/-- What is told of a file by what is remembered of it: that, as long as the file has the same time
and size. -/
def told (content : Text) (stamp : Stamp) : Option Cached → Text
  | some item => if (stamp, content.length) = (item.stamp, item.size) then item.value else content
  | none => content

/-- A value that is remembered under the time and size of the file is told, and any other file is
read anew. -/
theorem read_cases (r : Reader) {path cleaned content : Text} {stamp : Stamp}
    (hcheck : check d path = .ok cleaned) (hstat : d.stat cleaned = .ok (.file content stamp)) :
    (∃ item, r.cache.items.lookup cleaned = some item ∧
      (stamp, content.length) = (item.stamp, item.size) ∧ r.read d path = (.ok item.value, r)) ∨
      (∀ item, r.cache.items.lookup cleaned = some item →
        (stamp, content.length) ≠ (item.stamp, item.size)) ∧
        r.read d path = (.ok content, r.remember cleaned content stamp) := by
  rw [read, hcheck]
  dsimp only
  rw [Cache.getOrLoad, get_of_stat _ hstat, load_of_stat hstat]
  cases hitem : r.cache.items.lookup cleaned with
  | none =>
    right
    dsimp only
    rw [set_of_stat _ _ hstat]
    exact ⟨by simp, rfl⟩
  | some item =>
    dsimp only
    by_cases hmark : (stamp, content.length) = (item.stamp, item.size)
    · left
      rw [if_pos hmark]
      exact ⟨item, rfl, hmark, rfl⟩
    · right
      rw [if_neg hmark]
      dsimp only
      rw [set_of_stat _ _ hstat, erase_erase]
      refine ⟨fun item' hitem' => ?_, rfl⟩
      cases hitem'
      exact hmark

/-- A file that was read is remembered with the time and the size that it has. -/
theorem exists_item_of_check (r : Reader) {path cleaned content : Text} {stamp : Stamp}
    (hcheck : check d path = .ok cleaned) (hstat : d.stat cleaned = .ok (.file content stamp)) :
    ∃ item, (r.read d path).1 = .ok item.value ∧
      (r.read d path).2.cache.items.lookup cleaned = some item ∧
      (stamp, content.length) = (item.stamp, item.size) := by
  rcases read_cases r hcheck hstat with ⟨item, hitem, hmark, hread⟩ | ⟨-, hread⟩
  · exact ⟨item, by rw [hread], by rw [hread, hitem], hmark⟩
  · refine ⟨⟨content, stamp, content.length⟩, by rw [hread], ?_, rfl⟩
    rw [hread, lookup_remember, if_pos rfl]

theorem read_of_check (r : Reader) {path cleaned content : Text} {stamp : Stamp}
    (hcheck : check d path = .ok cleaned) (hstat : d.stat cleaned = .ok (.file content stamp)) :
    r.read d path = (.ok (told content stamp (r.cache.items.lookup cleaned)), r) ∨
      told content stamp (r.cache.items.lookup cleaned) = content ∧
        r.read d path = (.ok content, r.remember cleaned content stamp) := by
  rcases read_cases r hcheck hstat with ⟨item, hitem, hmark, hread⟩ | ⟨hmark, hread⟩
  · left
    rw [hread, hitem, told, if_pos hmark]
  · right
    refine ⟨?_, hread⟩
    cases hitem : r.cache.items.lookup cleaned with
    | none => rfl
    | some item => rw [told, if_neg (hmark item hitem)]

theorem read_of_current (wf : d.WellFormed) (h : r.Current d) (path : Text) :
    (r.read d path).1 = plain d path ∧ (r.read d path).2.Current d := by
  cases hcheck : check d path with
  | error f =>
    rw [read, plain, hcheck]
    exact ⟨rfl, h⟩
  | ok cleaned =>
    obtain ⟨content, stamp, hstat⟩ := check_eq_ok hcheck
    have hplain : plain d path = .ok content := by
      rw [plain, hcheck]
      exact load_of_stat hstat
    rw [hplain]
    rcases read_of_check r hcheck hstat with hread | ⟨-, hread⟩
    · have htold : told content stamp (r.cache.items.lookup cleaned) = content := by
        cases hitem : r.cache.items.lookup cleaned with
        | none => rfl
        | some item =>
          rw [told]
          split
          · rename_i hmark
            rw [Prod.mk.injEq] at hmark
            exact h.value hitem (hmark.1 ▸ (Disk.stat_eq_ok.1 hstat).2)
          · rfl
      rw [hread, htold]
      exact ⟨rfl, h⟩
    · rw [hread]
      exact ⟨rfl, h.remember wf hstat⟩

theorem Current.read_eq_ok (hr : r.Current d) (wf : d.WellFormed) {path t : Text}
    (h : (r.read d path).1 = .ok t) : d.read (Path.clean path) = .ok t := by
  rw [(read_of_current wf hr path).1, plain_eq_ok] at h
  exact Disk.read_eq_ok.2 h.2.2

def Alike (d : Disk) (r r' : Reader) : Prop := ∀ path, (r'.read d path).1 = (r.read d path).1

theorem Alike.refl (d : Disk) (r : Reader) : Alike d r r := fun _ => rfl

/-- What is read does not change by reading, whether it is that of the file or an old value. -/
theorem alike_read (d : Disk) (r : Reader) (path : Text) : Alike d r (r.read d path).2 := by
  intro path'
  cases hcheck : check d path with
  | error f =>
    have hkept : (r.read d path).2 = r := by rw [read, hcheck]
    rw [hkept]
  | ok cleaned =>
    obtain ⟨content, stamp, hstat⟩ := check_eq_ok hcheck
    rcases read_of_check r hcheck hstat with hread | ⟨htold, hread⟩
    · rw [hread]
    rw [hread]
    cases hcheck' : check d path' with
    | error f => rw [read, hcheck', read, hcheck']
    | ok cleaned' =>
      obtain ⟨content', stamp', hstat'⟩ := check_eq_ok hcheck'
      have hvalue : ∀ r : Reader, (r.read d path').1 =
          .ok (told content' stamp' (r.cache.items.lookup cleaned')) := by
        intro r
        rcases read_of_check r hcheck' hstat' with hread' | ⟨htold', hread'⟩
        · rw [hread']
        · rw [hread', htold']
      rw [hvalue, hvalue, lookup_remember]
      split
      · rename_i hsame
        rw [hsame, hstat] at hstat'
        cases hstat'
        rw [hsame, htold, told, if_pos rfl]
      · rfl

/-- What is done with a reader comes to the same for all readers of a kind, and leaves a reader of
that kind. -/
def Transparent (kind : Reader → Prop) (f : Reader → β × Reader) : Prop :=
  ∃ b, ∀ r, kind r → (f r).1 = b ∧ kind (f r).2

namespace Transparent

variable {α β : Type} {kind : Reader → Prop}

theorem pure (b : β) : Transparent kind fun r => (b, r) := ⟨b, fun _ h => ⟨rfl, h⟩⟩

theorem read (wf : d.WellFormed) (path : Text) : Transparent (Current · d) fun r => r.read d path :=
  ⟨plain d path, fun _ h => read_of_current wf h path⟩

/-- Reading itself is transparent to all readers that read the same as one. -/
theorem read_alike (d : Disk) (r : Reader) (path : Text) :
    Transparent (Alike d r) fun r' => r'.read d path :=
  ⟨(r.read d path).1,
    fun r' h => ⟨h path, fun path' => (alike_read d r' path path').trans (h path')⟩⟩

theorem bind {f : Reader → α × Reader} {k : Reader → β × Reader} (hf : Transparent kind f)
    (hk : ∀ a, ∃ g, Transparent kind g ∧ ∀ r r', f r = (a, r') → k r = g r') :
    Transparent kind k := by
  obtain ⟨a, ha⟩ := hf
  obtain ⟨g, ⟨b, hb⟩, hg⟩ := hk a
  refine ⟨b, fun r hr => ?_⟩
  obtain ⟨hfirst, hkind⟩ := ha r hr
  rw [hg r (f r).2 (Prod.ext hfirst rfl)]
  exact hb _ hkind

theorem map {f : Reader → α × Reader} (hf : Transparent kind f) (g : α → β) :
    Transparent kind fun r => (g (f r).1, (f r).2) :=
  hf.bind fun a => ⟨_, .pure (g a), fun r r' h => by rw [h]⟩

theorem eq {f : Reader → β × Reader} (hf : Transparent kind f) (h : kind r) (h' : kind r') :
    (f r).1 = (f r').1 := by
  obtain ⟨b, hb⟩ := hf
  rw [(hb r h).1, (hb r' h').1]

theorem kept {f : Reader → β × Reader} (hf : Transparent kind f) (h : kind r) : kind (f r).2 := by
  obtain ⟨b, hb⟩ := hf
  exact (hb r h).2

end Transparent
end Reader
end HeaderBridge
