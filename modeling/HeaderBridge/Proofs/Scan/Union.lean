import HeaderBridge.Proofs.Batch.Build
import HeaderBridge.Proofs.Disk.Walk
import HeaderBridge.Proofs.Scan.Spelling
import HeaderBridge.Proofs.Text.Words

namespace HeaderBridge

namespace Scanner

variable {s : Scanner} {r r' : Reader} {d : Disk} {hs : List Header} {path : Text}

def yielded : Except Fault (List Header) → List Header
  | .ok hs => hs
  | .error _ => []

def failed : Except Fault (List Header) → List Fault
  | .ok _ => []
  | .error f => [f]

/-- What one input leads to does not depend on what has been read for others. -/
theorem resolve_of_alike (s : Scanner) (h : Reader.Alike d r r') (i : Input) :
    (s.resolve r' d i).1 = (s.resolve r d i).1 ∧ Reader.Alike d r (s.resolve r' d i).2 := by
  have hresolve := s.transparent_resolve (Reader.Transparent.read_alike d r) i
  exact ⟨hresolve.eq h (.refl d r), hresolve.kept h⟩

theorem gather_of_alike (s : Scanner) (h : Reader.Alike d r r') (inputs : List Input) :
    (s.gather d inputs r').1 =
    (inputs.flatMap fun i => yielded (s.resolve r d i).1,
      inputs.flatMap fun i => failed (s.resolve r d i).1) := by
  induction inputs generalizing r' with
  | nil => rfl
  | cons i is ih =>
    obtain ⟨hfirst, hlater⟩ := s.resolve_of_alike h i
    rw [gather, List.flatMap_cons, List.flatMap_cons, ← hfirst]
    generalize s.resolve r' d i = step at hlater
    obtain ⟨result, next⟩ := step
    have hrest := ih hlater
    generalize hgather : s.gather d is next = rest at hrest
    obtain ⟨⟨more, faults⟩, last⟩ := rest
    cases hrest
    cases result <;> simp only [hgather] <;> rfl

theorem scan_eq (s : Scanner) (r : Reader) (d : Disk) (inputs : List Text) : (s.scan r d inputs).1 =
    (merge (inputs.flatMap fun t => yielded (s.resolve r d (.ofText t)).1),
      inputs.flatMap fun t => failed (s.resolve r d (.ofText t)).1) := by
  have hgather := s.gather_of_alike (.refl d r) (inputs.map Input.ofText)
  rw [List.flatMap_map, List.flatMap_map] at hgather
  calc (s.scan r d inputs).1
      = (merge (s.gather d (inputs.map Input.ofText) r).1.1,
        (s.gather d (inputs.map Input.ofText) r).1.2) := rfl
    _ = _ := by rw [hgather]

/-- Whether a file is left out as a generated one, by what is read of it. -/
def leavesOut (s : Scanner) (r : Reader) (d : Disk) (path name : Text) : Bool :=
  s.hallmark.any fun k => (k.bears r d path name).1

theorem ungenerated_eq (s : Scanner) (r : Reader) (d : Disk) (vs : List Disk.Visit) :
    (s.ungenerated d vs r).1 = vs.filter fun v => !s.leavesOut r d v.path v.name := by
  unfold ungenerated leavesOut
  cases s.hallmark with
  | none => simp
  | some k =>
    dsimp only
    rw [k.select_of_alike (.refl d r)]
    simp only [Option.any_some, beq_false]

/-- What is taken of all that is met in and below the folder `root`. -/
structure Takes (s : Scanner) (r : Reader) (d : Disk) (root : Text) (v : Disk.Visit) : Prop where
  file : v.isFolder = false
  included : Glob.anyMatches s.included (Path.relative root v.path) = true
  excluded : Glob.anyMatches s.excluded (Path.relative root v.path) = false
  kept : s.leavesOut r d v.path v.name = false

instance {root : Text} {v : Disk.Visit} : Decidable (s.Takes r d root v) :=
  decidable_of_iff (v.isFolder = false ∧
      Glob.anyMatches s.included (Path.relative root v.path) = true ∧
      Glob.anyMatches s.excluded (Path.relative root v.path) = false ∧
      s.leavesOut r d v.path v.name = false)
    ⟨fun ⟨hfile, hincluded, hexcluded, hkept⟩ => ⟨hfile, hincluded, hexcluded, hkept⟩,
      fun h => ⟨h.file, h.included, h.excluded, h.kept⟩⟩

/-- A text that is neither a folder with all below it nor a pattern. -/
structure Plain (t : Text) : Prop where
  suffix : ¬ recursiveSuffix <:+ t
  literal : ∀ b ∈ t, Glob.isMeta b = false

/-- A text that names a file. -/
structure Names (d : Disk) (t : Text) : Prop extends Plain t where
  file : ∃ content stamp, d.stat t = .ok (.file content stamp)

theorem isFile_iff : (d.stat path matches .ok (.file _ _)) = true ↔
    ∃ content stamp, d.stat path = .ok (.file content stamp) := by
  rcases d.stat path with e | ⟨content, stamp⟩ | _ <;> simp

theorem names_iff {t : Text} : (!recursiveSuffix.isSuffixOf t && t.all (!Glob.isMeta ·) &&
    d.stat t matches .ok (.file _ _)) = true ↔ Names d t := by
  simp only [Bool.and_eq_true, Bool.not_eq_true', List.all_eq_true, isFile_iff]
  rw [← Bool.not_eq_true, List.isSuffixOf_iff_suffix]
  exact ⟨fun ⟨⟨hsuffix, hliteral⟩, hfile⟩ => ⟨⟨hsuffix, hliteral⟩, hfile⟩,
    fun h => ⟨⟨h.suffix, h.literal⟩, h.file⟩⟩

instance {t : Text} : Decidable (Names d t) := decidable_of_iff _ names_iff

/-- The clean paths that one input leads to. -/
inductive Leads (s : Scanner) (r : Reader) (d : Disk) (t : Text) : Text → Prop
  | named (hplain : Plain t) {content : Text} {stamp : Stamp}
    (hfile : d.stat t = .ok (.file content stamp)) : Leads s r d t (Path.clean t)
  | child (hplain : Plain t) (hfolder : d.stat t = .ok .folder) {vs : List Disk.Visit}
    (hwalk : d.walk (Walk.isRoot t) t = .ok vs) {v : Disk.Visit} (hmet : v ∈ vs)
    (htaken : s.Takes r d t v) : Leads s r d t (Path.clean v.path)
  /-- A file below a folder that is searched with all below it; an empty name stands for the working
  folder. -/
  | below {front root : Text} (ht : t = front ++ recursiveSuffix)
    (hroot : root = if front = [] then Path.here else front) {vs : List Disk.Visit}
    (hwalk : d.walk (Walk.isEntered root s.excluded) root = .ok vs) {v : Disk.Visit} (hmet : v ∈ vs)
    (htaken : s.Takes r d root v) : Leads s r d t (Path.clean v.path)
  /-- A file that a pattern matches, whatever is included otherwise. -/
  | matched (hsuffix : ¬ recursiveSuffix <:+ t) (hmeta : ∃ b ∈ t, Glob.isMeta b = true)
    {found : List Text} (hsearch : Glob.search d t = some found) {path : Text}
    (hfound : path ∈ found)
    {content : Text} {stamp : Stamp} (hfile : d.stat path = .ok (.file content stamp))
    (hexcluded : Glob.anyMatches s.excluded path = false)
    (hkept : s.leavesOut r d path (Path.base path) = false) : Leads s r d t (Path.clean path)

/-- Inputs that lead nowhere and are at fault: a path or a folder that is not there, and a malformed
pattern. -/
inductive Fails (d : Disk) (t : Text) : Prop
  | path (hplain : Plain t) {e : DiskError} (hstat : d.stat t = .error e)
  | tree {front root : Text} (ht : t = front ++ recursiveSuffix)
    (hroot : root = if front = [] then Path.here else front) {e : DiskError}
    (hstat : d.stat root = .error e)
  | pattern (hsuffix : ¬ recursiveSuffix <:+ t) (hmeta : ∃ b ∈ t, Glob.isMeta b = true)
    (hsearch : Glob.search d t = none)

theorem orElse_here (front : Text) :
    front.orElse Path.here = if front = [] then Path.here else front := by
  simp [Text.orElse]

theorem ofText_of_tree {t front : Text} (ht : t = front ++ recursiveSuffix) :
    Input.ofText t = .tree (if front = [] then Path.here else front) := by
  rw [Input.ofText, ht, Text.before?_append]
  exact congrArg Input.tree (orElse_here front)

theorem ofText_of_pattern {t : Text} (hsuffix : ¬ recursiveSuffix <:+ t)
    (hmeta : ∃ b ∈ t, Glob.isMeta b = true) : Input.ofText t = .pattern t := by
  rw [Input.ofText, Text.before?, if_neg (by simpa using hsuffix)]
  exact if_pos (List.any_eq_true.2 hmeta)

theorem ofText_of_plain {t : Text} (h : Plain t) : Input.ofText t = .path t := by
  rw [Input.ofText, Text.before?, if_neg (by simpa using h.suffix)]
  refine if_neg fun hmeta => ?_
  obtain ⟨b, hb, htrue⟩ := List.any_eq_true.1 hmeta
  rw [h.literal b hb] at htrue
  cases htrue

theorem input_cases (t : Text) : (∃ front, t = front ++ recursiveSuffix) ∨
    (¬ recursiveSuffix <:+ t ∧ ∃ b ∈ t, Glob.isMeta b = true) ∨ Plain t := by
  by_cases hsuffix : recursiveSuffix <:+ t
  · obtain ⟨front, ht⟩ := hsuffix
    exact .inl ⟨front, ht.symm⟩
  · by_cases hmeta : ∃ b ∈ t, Glob.isMeta b = true
    · exact .inr (.inl ⟨hsuffix, hmeta⟩)
    · exact .inr (.inr ⟨hsuffix, by simpa using hmeta⟩)

def enters (s : Scanner) (recursive : Bool) (root : Text) : Disk.Visit → Bool :=
  if recursive then Walk.isEntered root s.excluded else Walk.isRoot root

/-- A folder fails as its walk does, or yields what is taken of all that the walk meets. -/
theorem folder_cases (s : Scanner) (r : Reader) (d : Disk) (recursive : Bool) (root : Text) :
    (∃ e f, d.stat root = .error e ∧ d.walk (s.enters recursive root) root = .error e ∧
      (s.folder r d recursive root).1 = .error f) ∨
    ∃ entry vs hs, d.stat root = .ok entry ∧ d.walk (s.enters recursive root) root = .ok vs ∧
      (s.folder r d recursive root).1 = .ok hs ∧ ∀ header, header ∈ hs ↔
        header.explicit = false ∧
          ∃ v ∈ vs, s.Takes r d root v ∧ Path.clean v.path = header.path := by
  rcases d.walk_cases (s.enters recursive root) root with ⟨e, hstat, hwalk⟩ | ⟨entry, hstat, hwalk⟩
  · refine .inl ⟨e, .fileSystem "walk" root (some (e.fault "lstat" root)), hstat, hwalk, ?_⟩
    unfold folder Walk.files
    rw [← enters]
    dsimp only
    rw [hwalk]
  · generalize d.visits (s.enters recursive root) _ root _ _ = vs at hwalk
    have hfolder : (s.folder r d recursive root).1 =
        .ok ((s.ungenerated d ((vs.filter (!·.isFolder)).filter
          (Walk.isWanted root s.included s.excluded)) r).1.map fun v => ⟨Path.clean v.path,
            false⟩) := by
      unfold folder Walk.files
      rw [← enters]
      dsimp only
      rw [hwalk]
    refine .inr ⟨entry, vs, _, hstat, hwalk, hfolder, fun header => ?_⟩
    rw [ungenerated_eq]
    simp only [List.mem_map, List.mem_filter, Walk.isWanted, Bool.and_eq_true, Bool.not_eq_true']
    obtain ⟨path, explicit⟩ := header
    constructor
    · rintro ⟨v, ⟨⟨⟨hmet, hfile⟩, ⟨-, hincluded⟩, hexcluded⟩, hkept⟩, hheader⟩
      cases hheader
      exact ⟨rfl, v, hmet, ⟨hfile, hincluded, hexcluded, hkept⟩, rfl⟩
    · rintro ⟨rfl, v, hmet, htaken, rfl⟩
      exact ⟨v, ⟨⟨⟨hmet, htaken.file⟩, ⟨htaken.file, htaken.included⟩, htaken.excluded⟩,
        htaken.kept⟩, rfl⟩

theorem pattern_of_none {p : Text} (h : Glob.search d p = none) :
    ∃ f, (s.pattern r d p).1 = .error f := by
  unfold pattern
  rw [h]
  exact ⟨_, rfl⟩

/-- A pattern yields the files that it matches, but for those that are excluded or generated. -/
theorem pattern_of_some {p : Text} {found : List Text} (h : Glob.search d p = some found) :
    ∃ hs, (s.pattern r d p).1 = .ok hs ∧ ∀ header, header ∈ hs ↔
      header.explicit = false ∧ ∃ path ∈ found, (∃ content stamp,
        d.stat path = .ok (.file content stamp)) ∧ Glob.anyMatches s.excluded path = false ∧
          s.leavesOut r d path (Path.base path) = false ∧ Path.clean path = header.path := by
  unfold pattern
  rw [h]
  refine ⟨_, rfl, fun header => ?_⟩
  obtain ⟨path, explicit⟩ := header
  dsimp only
  rw [ungenerated_eq]
  simp only [List.mem_map, List.mem_filter, Bool.and_eq_true, Bool.not_eq_true']
  constructor
  · rintro ⟨v, ⟨⟨path, ⟨hfound, hfile, hexcluded⟩, rfl⟩, hkept⟩, hheader⟩
    cases hheader
    exact ⟨rfl, path, hfound, isFile_iff.1 hfile, hexcluded, hkept, rfl⟩
  · rintro ⟨rfl, path, hfound, hfile, hexcluded, hkept, rfl⟩
    exact ⟨_, ⟨⟨path, ⟨hfound, isFile_iff.2 hfile, hexcluded⟩, rfl⟩, hkept⟩, rfl⟩

section Tree

variable {t front : Text} (ht : t = front ++ recursiveSuffix)

include ht

theorem fails_tree_iff :
    Fails d t ↔ ∃ e, d.stat (if front = [] then Path.here else front) = .error e := by
  constructor
  · rintro (⟨hplain, -⟩ | ⟨hfront, rfl, hstat⟩ | ⟨hsuffix, -, -⟩)
    · exact absurd ⟨front, ht.symm⟩ hplain.suffix
    · obtain rfl := List.append_cancel_right (ht.symm.trans hfront)
      exact ⟨_, hstat⟩
    · exact absurd ⟨front, ht.symm⟩ hsuffix
  · rintro ⟨e, hstat⟩
    exact .tree ht rfl hstat

theorem leads_tree_iff {root : Text} (hroot : root = if front = [] then Path.here else front)
    {walked : Except DiskError (List Disk.Visit)}
    (hwalk : d.walk (s.enters true root) root = walked) : s.Leads r d t path ↔
      ∃ vs, walked = .ok vs ∧ ∃ v ∈ vs, s.Takes r d root v ∧ Path.clean v.path = path := by
  subst hwalk
  constructor
  · rintro (⟨hplain, -⟩ | ⟨hplain, -⟩ | ⟨hfront, rfl, hwalk, hmet, htaken⟩ | ⟨hsuffix, -⟩)
    · exact absurd ⟨front, ht.symm⟩ hplain.suffix
    · exact absurd ⟨front, ht.symm⟩ hplain.suffix
    · obtain rfl := List.append_cancel_right (ht.symm.trans hfront)
      exact ⟨_, hroot ▸ hwalk, _, hmet, hroot ▸ htaken, rfl⟩
    · exact absurd ⟨front, ht.symm⟩ hsuffix
  · rintro ⟨vs, hwalk, v, hmet, htaken, rfl⟩
    exact .below ht hroot hwalk hmet htaken

end Tree

section Pattern

variable {t : Text} (hsuffix : ¬ recursiveSuffix <:+ t) (hmeta : ∃ b ∈ t, Glob.isMeta b = true)

include hmeta

theorem not_plain_of_meta : ¬ Plain t := by
  intro hplain
  obtain ⟨b, hb, htrue⟩ := hmeta
  rw [hplain.literal b hb] at htrue
  cases htrue

include hsuffix

theorem fails_pattern_iff : Fails d t ↔ Glob.search d t = none := by
  constructor
  · rintro (⟨hplain, -⟩ | ⟨ht, -, -⟩ | ⟨-, -, hsearch⟩)
    · exact absurd hplain (not_plain_of_meta hmeta)
    · exact absurd ⟨_, ht.symm⟩ hsuffix
    · exact hsearch
  · exact .pattern hsuffix hmeta

theorem leads_pattern_iff {searched : Option (List Text)} (hsearch : Glob.search d t = searched) :
    s.Leads r d t path ↔ ∃ found, searched = some found ∧ ∃ p ∈ found,
      (∃ content stamp, d.stat p = .ok (.file content stamp)) ∧
        Glob.anyMatches s.excluded p = false ∧ s.leavesOut r d p (Path.base p) = false ∧
          Path.clean p = path := by
  subst hsearch
  constructor
  · rintro (⟨hplain, -⟩ | ⟨hplain, -⟩ | ⟨ht, -⟩ | ⟨-, -, hsearch, hfound, hfile, hexcluded, hkept⟩)
    · exact absurd hplain (not_plain_of_meta hmeta)
    · exact absurd hplain (not_plain_of_meta hmeta)
    · exact absurd ⟨_, ht.symm⟩ hsuffix
    · exact ⟨_, hsearch, _, hfound, ⟨_, _, hfile⟩, hexcluded, hkept, rfl⟩
  · rintro ⟨found, hsearch, p, hfound, ⟨content, stamp, hfile⟩, hexcluded, hkept, rfl⟩
    exact .matched hsuffix hmeta hsearch hfound hfile hexcluded hkept

end Pattern

section Plain

variable {t : Text} (hplain : Plain t)

include hplain

theorem fails_plain_iff : Fails d t ↔ ∃ e, d.stat t = .error e := by
  constructor
  · rintro (⟨-, hstat⟩ | ⟨ht, -, -⟩ | ⟨hsuffix, hmeta, -⟩)
    · exact ⟨_, hstat⟩
    · exact absurd ⟨_, ht.symm⟩ hplain.suffix
    · exact absurd hplain (not_plain_of_meta hmeta)
  · rintro ⟨e, hstat⟩
    exact .path hplain hstat

theorem leads_plain_iff {walked : Except DiskError (List Disk.Visit)}
    (hwalk : d.walk (s.enters false t) t = walked) : s.Leads r d t path ↔
      (∃ content stamp, d.stat t = .ok (.file content stamp)) ∧ Path.clean t = path ∨
        d.stat t = .ok .folder ∧
          ∃ vs, walked = .ok vs ∧ ∃ v ∈ vs, s.Takes r d t v ∧ Path.clean v.path = path := by
  subst hwalk
  constructor
  · rintro (⟨-, hfile⟩ | ⟨-, hfolder, hwalk, hmet, htaken⟩ | ⟨ht, -⟩ | ⟨hsuffix, hmeta, -⟩)
    · exact .inl ⟨⟨_, _, hfile⟩, rfl⟩
    · exact .inr ⟨hfolder, _, hwalk, _, hmet, htaken, rfl⟩
    · exact absurd ⟨_, ht.symm⟩ hplain.suffix
    · exact absurd hplain (not_plain_of_meta hmeta)
  · rintro (⟨⟨content, stamp, hfile⟩, rfl⟩ | ⟨hfolder, vs, hwalk, v, hmet, htaken, rfl⟩)
    · exact .named hplain hfile
    · exact .child hplain hfolder hwalk hmet htaken

end Plain

/-- What one input comes to: it fails, or it yields the headers that it leads to, as named ones if
it names a file. -/
theorem resolve_cases (s : Scanner) (r : Reader) (d : Disk) (t : Text) :
    (Fails d t ∧ (∀ path, ¬ s.Leads r d t path) ∧ ¬ Names d t ∧
      ∃ f, (s.resolve r d (.ofText t)).1 = .error f) ∨
    ¬ Fails d t ∧ ∃ hs, (s.resolve r d (.ofText t)).1 = .ok hs ∧
      ∀ header, header ∈ hs ↔
        s.Leads r d t header.path ∧ (header.explicit = true ↔ Names d t) := by
  rcases input_cases t with ⟨front, ht⟩ | ⟨hsuffix, hmeta⟩ | hplain
  · have hnames : ¬ Names d t := fun hnames => hnames.suffix ⟨front, ht.symm⟩
    rw [ofText_of_tree ht, resolve, fails_tree_iff ht]
    rcases s.folder_cases r d true (if front = [] then Path.here else front) with
      ⟨e, f, hstat, hwalk, hresult⟩ | ⟨entry, vs, hs, hstat, hwalk, hresult, hmem⟩
    · refine .inl ⟨⟨e, hstat⟩, fun path => ?_, hnames, f, hresult⟩
      simp [leads_tree_iff ht rfl hwalk]
    · refine .inr ⟨by simp [hstat], hs, hresult, fun header => ?_⟩
      simp [hmem, leads_tree_iff ht rfl hwalk, hnames, and_comm]
  · have hnames : ¬ Names d t := fun hnames => not_plain_of_meta hmeta hnames.toPlain
    rw [ofText_of_pattern hsuffix hmeta, resolve, fails_pattern_iff hsuffix hmeta]
    cases hsearch : Glob.search d t with
    | none =>
      refine .inl ⟨rfl, fun path => ?_, hnames, pattern_of_none hsearch⟩
      simp [leads_pattern_iff hsuffix hmeta hsearch]
    | some found =>
      obtain ⟨hs, hresult, hmem⟩ := @pattern_of_some s r d t found hsearch
      refine .inr ⟨by simp, hs, hresult, fun header => ?_⟩
      simp [hmem, leads_pattern_iff hsuffix hmeta hsearch, hnames, and_comm]
  · rw [ofText_of_plain hplain, fails_plain_iff hplain]
    rcases hstat : d.stat t with e | ⟨content, stamp⟩ | _
    · have hnames : ¬ Names d t := fun hnames => by simpa [hstat] using hnames.file
      refine .inl ⟨⟨e, rfl⟩, fun path => ?_, hnames, ?_⟩
      · simp [leads_plain_iff hplain rfl, hstat]
      · simp only [resolve, hstat]
        split <;> exact ⟨_, rfl⟩
    · have hnames : Names d t := ⟨hplain, content, stamp, hstat⟩
      refine .inr ⟨by simp, [⟨Path.clean t, true⟩], by simp only [resolve, hstat], fun header => ?_⟩
      obtain ⟨path, explicit⟩ := header
      simp [leads_plain_iff hplain rfl, hstat, hnames, eq_comm]
    · have hnames : ¬ Names d t := fun hnames => by simpa [hstat] using hnames.file
      rcases s.folder_cases r d false t with ⟨e, f, hstat', -⟩ | ⟨entry, vs, hs, -, hwalk,
        hresult, hmem⟩
      · cases hstat.symm.trans hstat'
      · refine .inr ⟨by simp, hs, by simpa only [resolve, hstat] using hresult, fun header => ?_⟩
        simp [hmem, leads_plain_iff hplain hwalk, hstat, hnames, and_comm]

theorem Fails.not_leads {t : Text} (h : Fails d t) : ¬ s.Leads r d t path := by
  rcases s.resolve_cases r d t with ⟨-, hnot, -⟩ | ⟨hnot, -⟩
  · exact hnot path
  · exact absurd h hnot

theorem mem_yielded {t : Text} {header : Header} :
    header ∈ yielded (s.resolve r d (.ofText t)).1 ↔
      s.Leads r d t header.path ∧ (header.explicit = true ↔ Names d t) := by
  rcases s.resolve_cases r d t with ⟨-, hnot, -, f, hresult⟩ | ⟨-, hs, hresult, hmem⟩
  · simp [hresult, yielded, hnot]
  · rw [hresult]
    exact hmem header

theorem leads_iff_of_names {t : Text} (h : Names d t) :
    s.Leads r d t path ↔ Path.clean t = path := by
  obtain ⟨content, stamp, hfile⟩ := h.file
  simp [leads_plain_iff h.toPlain rfl, hfile]

theorem mem_scan {inputs : List Text} {header : Header} :
    header ∈ (s.scan r d inputs).1.1 ↔ (∃ t ∈ inputs, s.Leads r d t header.path) ∧
      (header.explicit = true ↔ ∃ t ∈ inputs, Names d t ∧ Path.clean t = header.path) := by
  rw [scan_eq, mem_merge]
  simp only [List.mem_flatMap]
  refine and_congr ⟨?_, ?_⟩ (iff_congr .rfl ⟨?_, ?_⟩)
  · rintro ⟨other, ⟨t, ht, hyields⟩, hpath⟩
    exact ⟨t, ht, hpath ▸ (mem_yielded.1 hyields).1⟩
  · rintro ⟨t, ht, hleads⟩
    by_cases hnames : Names d t
    · exact ⟨⟨header.path, true⟩, ⟨t, ht, mem_yielded.2 ⟨hleads, by simp [hnames]⟩⟩, rfl⟩
    · exact ⟨⟨header.path, false⟩, ⟨t, ht, mem_yielded.2 ⟨hleads, by simp [hnames]⟩⟩, rfl⟩
  · rintro ⟨other, ⟨t, ht, hyields⟩, hpath, hexplicit⟩
    obtain ⟨hleads, hiff⟩ := mem_yielded.1 hyields
    have hnames := hiff.1 hexplicit
    exact ⟨t, ht, hnames, hpath ▸ (leads_iff_of_names hnames).1 hleads⟩
  · rintro ⟨t, ht, hnames, hclean⟩
    have hleads := (leads_iff_of_names (s := s) (r := r) hnames).2 hclean
    exact ⟨⟨header.path, true⟩, ⟨t, ht, mem_yielded.2 ⟨hleads, by simp [hnames]⟩⟩, rfl, rfl⟩

theorem exists_mem_scan {inputs : List Text} :
    (∃ h ∈ (s.scan r d inputs).1.1, h.path = path) ↔ ∃ t ∈ inputs, s.Leads r d t path := by
  simp only [mem_scan]
  constructor
  · rintro ⟨header, ⟨hleads, -⟩, rfl⟩
    exact hleads
  · intro hleads
    by_cases hnamed : ∃ t ∈ inputs, Names d t ∧ Path.clean t = path
    · exact ⟨⟨path, true⟩, ⟨hleads, by simpa using hnamed⟩, rfl⟩
    · exact ⟨⟨path, false⟩, ⟨hleads, by simpa using hnamed⟩, rfl⟩

theorem explicit_mem_scan {inputs : List Text} : ⟨path, true⟩ ∈ (s.scan r d inputs).1.1 ↔
    ∃ t ∈ inputs, Names d t ∧ Path.clean t = path := by
  rw [mem_scan]
  constructor
  · rintro ⟨-, hexplicit⟩
    exact hexplicit.1 rfl
  · rintro ⟨t, ht, hnames, hclean⟩
    exact ⟨⟨t, ht, (leads_iff_of_names hnames).2 hclean⟩, iff_of_true rfl ⟨t, ht, hnames, hclean⟩⟩

theorem scan_singleton (s : Scanner) (r : Reader) (d : Disk) (t : Text) :
    ¬ Fails d t ∧ (s.scan r d [t]).1.2 = [] ∨ Fails d t ∧ ∃ f, (s.scan r d [t]).1 = ([], [f]) := by
  rw [scan_eq, List.flatMap_singleton, List.flatMap_singleton]
  rcases s.resolve_cases r d t with ⟨hfails, -, -, f, hresult⟩ | ⟨hfails, hs, hresult, -⟩
  · exact .inr ⟨hfails, f, by rw [hresult, yielded, failed, merge_nil]⟩
  · exact .inl ⟨hfails, by rw [hresult, failed]⟩

theorem scan_of_names {inputs : List Text} (hnames : ∀ t ∈ inputs, Names d t)
    (hsorted : (inputs.map Path.clean).Pairwise (· < ·)) :
    (s.scan r d inputs).1 = (inputs.map fun t => ⟨Path.clean t, true⟩, []) := by
  have hone : ∀ t ∈ inputs, (s.resolve r d (.ofText t)).1 = .ok [⟨Path.clean t, true⟩] := by
    intro t ht
    obtain ⟨hplain, content, stamp, hfile⟩ := hnames t ht
    rw [ofText_of_plain hplain]
    simp only [resolve, hfile]
  rw [scan_eq, Prod.mk.injEq]
  constructor
  · rw [List.flatMap_congr fun t ht => congrArg yielded (hone t ht)]
    refine (congrArg merge (List.flatMap_pure_eq_map _ _)).trans (merge_of_pairwise ?_)
    rwa [List.map_map]
  · rw [List.flatMap_eq_nil_iff]
    exact fun t ht => congrArg failed (hone t ht)

/-- What a scan finds, and what fails, is told input by input. Headers stand once and in order, each
is one that an input alone leads to, those that some input names count as named, and an input that
fails leaves one fault and nothing else. So neither the order of the inputs matters to what is found
nor how often one is given. -/
theorem scan_union (s : Scanner) (r : Reader) (d : Disk) (inputs : List Text) :
    ((s.scan r d inputs).1.1.map (·.path)).Pairwise (· < ·) ∧
    (∀ h ∈ (s.scan r d inputs).1.1, Path.clean h.path = h.path) ∧
    (∀ path, (∃ h ∈ (s.scan r d inputs).1.1, h.path = path) ↔
      ∃ t ∈ inputs, ∃ h ∈ (s.scan r d [t]).1.1, h.path = path) ∧
    (∀ t path, (∃ h ∈ (s.scan r d [t]).1.1, h.path = path) ↔ s.Leads r d t path) ∧
    (∀ path, ⟨path, true⟩ ∈ (s.scan r d inputs).1.1 ↔
      ∃ t ∈ inputs, ¬ recursiveSuffix <:+ t ∧ (∀ b ∈ t, Glob.isMeta b = false) ∧
        (∃ content stamp, d.stat t = .ok (.file content stamp)) ∧ Path.clean t = path) ∧
    (s.scan r d inputs).1.2 = inputs.flatMap (fun t => (s.scan r d [t]).1.2) ∧
    (∀ t, ¬ Fails d t ∧ (s.scan r d [t]).1.2 = [] ∨
      Fails d t ∧ ∃ f, (s.scan r d [t]).1 = ([], [f])) ∧
    ∀ inputs', (∀ t, t ∈ inputs' ↔ t ∈ inputs) →
      (s.scan r d inputs').1.1 = (s.scan r d inputs).1.1 := by
  refine ⟨?_, s.clean_of_scan inputs, fun path => ?_, fun t path => ?_, fun path => ?_, ?_,
    fun t => ?_, fun inputs' hsame => ?_⟩
  · rw [scan_eq]
    exact pairwise_merge _
  · simp only [exists_mem_scan, List.mem_singleton, exists_eq_left]
  · simp only [exists_mem_scan, List.mem_singleton, exists_eq_left]
  · rw [explicit_mem_scan]
    constructor
    · rintro ⟨t, ht, hnames, hclean⟩
      exact ⟨t, ht, hnames.suffix, hnames.literal, hnames.file, hclean⟩
    · rintro ⟨t, ht, hsuffix, hliteral, hfile, hclean⟩
      exact ⟨t, ht, ⟨⟨hsuffix, hliteral⟩, hfile⟩, hclean⟩
  · simp only [scan_eq, List.flatMap_singleton]
  · exact s.scan_singleton r d t
  · rw [scan_eq, scan_eq]
    apply merge_congr
    intro header
    simp only [List.mem_flatMap, hsame]

/-- A header, and a folder with another one next to a generated file. -/
def mixed : Disk :=
  ((Disk.empty.install "a.h" [] 0).install "inc/ABridge.h" Template.marker 0).install "inc/b.h" [] 0

theorem walk_mixed : mixed.walk ((Config.scanner {}).enters false "inc") "inc" =
    .ok [⟨"inc", "inc", true⟩, ⟨"inc/ABridge.h", "ABridge.h", false⟩,
      ⟨"inc/b.h", "b.h", false⟩] := by
  have hfolder : mixed.find? ["work", "inc"] = some .folder := by decide +kernel
  have hnames : mixed.names ["work", "inc"] = [("ABridge.h" : Text), "b.h"] :=
    List.mergeSort_of_pairwise (by decide +kernel)
  rcases mixed.walk_cases ((Config.scanner {}).enters false "inc") "inc" with
    ⟨e, hstat, -⟩ | ⟨-, -, hwalk⟩
  · have hfound : mixed.stat "inc" = .ok .folder := by decide +kernel
    rw [hfound] at hstat
    cases hstat
  · have hplace : mixed.spelled "inc" = [("work" : Text), "inc"] := by decide +kernel
    rw [hwalk, Disk.visits, hplace, hfolder]
    dsimp only
    rw [hnames]
    decide +kernel

theorem leads_mixed_folder : (Config.scanner {}).Leads {} mixed "inc" path ↔ path = "inc/b.h" := by
  have hplain : Plain "inc" := ⟨by decide, by decide +kernel⟩
  have hfolder : mixed.stat "inc" = .ok .folder := by decide +kernel
  have htaken : ([⟨"inc", "inc", true⟩, ⟨"inc/ABridge.h", "ABridge.h", false⟩,
      ⟨"inc/b.h", "b.h", false⟩] : List Disk.Visit).filter
        ((Config.scanner {}).Takes {} mixed "inc" ·) = [⟨"inc/b.h", "b.h", false⟩] := by
    decide +kernel
  rw [leads_plain_iff hplain walk_mixed]
  constructor
  · rintro (⟨⟨content, stamp, hfile⟩, -⟩ | ⟨-, vs, hvs, v, hmet, htakes, rfl⟩)
    · cases hfolder.symm.trans hfile
    · cases hvs
      have hmem :
          v ∈ List.filter (fun v => decide ((Config.scanner {}).Takes {} mixed "inc" v)) _ :=
        List.mem_filter.2 ⟨hmet, decide_eq_true htakes⟩
      rw [htaken] at hmem
      rw [List.mem_singleton.1 hmem]
      decide +kernel
  · rintro rfl
    have hmem := htaken.symm ▸ List.mem_singleton_self _
    obtain ⟨hmet, htakes⟩ := List.mem_filter.1 hmem
    exact .inr ⟨hfolder, _, rfl, _, hmet, of_decide_eq_true htakes, by decide +kernel⟩

theorem leads_mixed_pattern :
    (Config.scanner {}).Leads {} mixed "\x7ba,x\x7d.h" path ↔ path = "a.h" := by
  have hsearch : Glob.search mixed "\x7ba,x\x7d.h" = some [("a.h" : Text)] := by decide +kernel
  rw [leads_pattern_iff (by decide) (by decide) hsearch]
  constructor
  · rintro ⟨found, hfound, p, hp, -, -, -, rfl⟩
    cases hfound
    rw [List.mem_singleton.1 hp]
    decide +kernel
  · rintro rfl
    have hfile : mixed.stat "a.h" = .ok (.file [] (.second 0)) := by decide +kernel
    exact ⟨_, rfl, _, List.mem_singleton_self _, ⟨_, _, hfile⟩, by decide +kernel,
      by decide +kernel, by decide +kernel⟩

/-- A file that is named, a folder with a generated file, a pattern for the file that is named as
well, a file that is missing and a malformed pattern. -/
theorem scan_union_mixed :
    let s := Config.scanner {}
    let inputs : List Text := ["inc", "\x7ba,x\x7d.h", "missing.h", "./a.h", "["]
    (s.scan {} mixed inputs).1.1.map (·.path) = [("a.h" : Text), "inc/b.h"] ∧
      ⟨"a.h", true⟩ ∈ (s.scan {} mixed inputs).1.1 ∧
      ⟨"inc/b.h", true⟩ ∉ (s.scan {} mixed inputs).1.1 ∧
      (∃ f g, (s.scan {} mixed inputs).1.2 = [f, g] ∧
        (s.scan {} mixed ["missing.h"]).1 = ([], [f]) ∧ (s.scan {} mixed ["["]).1 = ([], [g])) ∧
      (s.scan {} mixed inputs.reverse).1.1 = (s.scan {} mixed inputs).1.1 := by
  intro s inputs
  obtain ⟨hsorted, -, hfound, halone, hnamed, hfaults, hone, hsame⟩ :=
    scan_union s {} mixed inputs
  have hnames : Names mixed "./a.h" := by decide +kernel
  have hmissing : Fails mixed "missing.h" :=
    .path ⟨by decide, by decide +kernel⟩
      (show mixed.stat "missing.h" = .error .notFound by decide +kernel)
  have hmalformed : Fails mixed "[" := .pattern (by decide) (by decide) (by decide +kernel)
  have hpaths : ∀ path, (∃ t ∈ inputs, s.Leads {} mixed t path) ↔
      path ∈ [("a.h" : Text), "inc/b.h"] := by
    intro path
    rw [List.mem_cons, List.mem_singleton]
    constructor
    · rintro ⟨t, ht, hleads⟩
      simp only [inputs, List.mem_cons, List.not_mem_nil, or_false] at ht
      rcases ht with rfl | rfl | rfl | rfl | rfl
      · exact .inr (leads_mixed_folder.1 hleads)
      · exact .inl (leads_mixed_pattern.1 hleads)
      · exact absurd hleads hmissing.not_leads
      · exact .inl ((leads_iff_of_names hnames).1 hleads).symm
      · exact absurd hleads hmalformed.not_leads
    · rintro (rfl | rfl)
      · exact ⟨"./a.h", by simp [inputs], (leads_iff_of_names hnames).2 (by decide +kernel)⟩
      · exact ⟨"inc", by simp [inputs], leads_mixed_folder.2 rfl⟩
  have hfails : ∀ t, Fails mixed t → ∃ f, (s.scan {} mixed [t]).1 = ([], [f]) :=
    fun t ht => (hone t).elim (fun h => absurd ht h.1) And.right
  have hyields : ∀ t path, s.Leads {} mixed t path → (s.scan {} mixed [t]).1.2 = [] :=
    fun t path hleads => (hone t).elim And.right fun h => absurd hleads h.1.not_leads
  obtain ⟨f, hf⟩ := hfails _ hmissing
  obtain ⟨g, hg⟩ := hfails _ hmalformed
  refine ⟨?_, ?_, ?_, ⟨f, g, ?_, hf, hg⟩, ?_⟩
  · refine hsorted.eq_of_mem_iff (by decide) fun path => ?_
    rw [List.mem_map, hfound, ← hpaths]
    simp only [halone]
  · obtain ⟨⟨hsuffix, hliteral⟩, hfile⟩ := hnames
    exact (hnamed _).2 ⟨"./a.h", by simp [inputs], hsuffix, hliteral, hfile, by decide +kernel⟩
  · rw [hnamed]
    rintro ⟨t, ht, hsuffix, hliteral, hfile, hclean⟩
    have hleads := (leads_iff_of_names (s := s) (r := {}) ⟨⟨hsuffix, hliteral⟩, hfile⟩).2 hclean
    simp only [inputs, List.mem_cons, List.not_mem_nil, or_false] at ht
    rcases ht with rfl | rfl | rfl | rfl | rfl
    · obtain ⟨content, stamp, hfile⟩ := hfile
      have hfolder : mixed.stat "inc" = .ok .folder := by decide +kernel
      cases hfolder.symm.trans hfile
    · exact absurd (leads_mixed_pattern.1 hleads) (by decide)
    · exact absurd hleads hmissing.not_leads
    · exact absurd hclean (by decide +kernel)
    · exact absurd hleads hmalformed.not_leads
  · have hfolder := hyields "inc" _ (leads_mixed_folder.2 rfl)
    have hpattern := hyields "\x7ba,x\x7d.h" _ (leads_mixed_pattern.2 rfl)
    have hnamed := hyields "./a.h" _ ((leads_iff_of_names hnames).2 rfl)
    rw [hfaults]
    simp only [inputs, List.flatMap_cons, List.flatMap_nil, hfolder, hpattern, hnamed, hf, hg]
    rfl
  · exact hsame _ fun t => List.mem_reverse

end Scanner
end HeaderBridge
