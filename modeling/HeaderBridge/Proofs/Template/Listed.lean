import HeaderBridge.Proofs.Batch.Build
import HeaderBridge.Proofs.Bridge.Emission
import HeaderBridge.Proofs.Disk.Listing
import HeaderBridge.Proofs.Reader.Traversal
import HeaderBridge.Proofs.Scan.Merge
import HeaderBridge.Proofs.Session.Settings
import HeaderBridge.Proofs.Text.Words

namespace HeaderBridge

namespace Template

variable {d : Disk} {r r' : Reader} {path u t : Text} {drawer : Drawer} {s : Shelf}

namespace Drawer

def Readable (d : Disk) (drawer : Drawer) : Prop := ∃ names, drawer.names d = .ok names

def Lists (d : Disk) (u : Text) (drawer : Drawer) : Prop :=
  ∃ names, drawer.names d = .ok names ∧ u ∈ names

/-- The text of a template: in a folder what is read from the file of its name, which for a current
reader is what stands there. -/
def Holds (d : Disk) (r : Reader) (u t : Text) : Drawer → Prop
  | memory ts => ts.lookup u = some t
  | folder path =>
    (r.read d (Path.join [path, u])).1 = .ok t ∧
      (r.Current d → d.read (Path.join [path, u]) = .ok t)

/-- In a folder nothing may stand under the name, or a file whose name can be asked for and is not
refused, or a folder whose name cannot be asked for. A name with a slash leads out of the folder,
and so to nothing in it. -/
def fits (d : Disk) (u : Text) : Drawer → Bool
  | memory _ => true
  | folder path => u.contains '/' ||
    match d.stat (Path.join [path, u]) with
    | .error _ => true
    | .ok .folder => u.contains '\\'
    | .ok (.file _ _) => !u.contains '\\' && !decide (Path.Dotted (Path.join [path, u]))

/-- What is listed is handed out, and what is not listed is not there. -/
def Agrees (d : Disk) (r : Reader) (u : Text) (drawer : Drawer) : Prop :=
  (drawer.Lists d u ∧ ∃ t, drawer.Holds d r u t ∧ (drawer.get r d u).1 = .ok t) ∨
    (¬ drawer.Lists d u ∧ (drawer.get r d u).1 = .error (.absent u))

theorem isName_of_template (h : isTemplateName u = true) (hslash : ('/' : UInt8) ∉ u) :
    Path.IsName u := by
  refine ⟨⟨?_, ?_, hslash⟩, ?_⟩
  all_goals
    rintro rfl
    revert h
    decide

theorem readable_memory (d : Disk) (ts : List (Text × Text)) : (memory ts).Readable d := ⟨_, rfl⟩

theorem readable_folder : (folder path).Readable d ↔ d.stat path = .ok .folder := by
  unfold Readable Drawer.names
  dsimp only
  constructor
  · rintro ⟨names, hnames⟩
    split at hnames
    · cases hnames
    · rename_i ns hlist
      exact (Disk.list_eq_ok.1 hlist).1
  · intro hfolder
    exact ⟨_, by rw [Disk.list_eq_ok.2 ⟨hfolder, rfl⟩]⟩

theorem lists_folder (hfolder : d.stat path = .ok .folder) (named : d.Named)
    (hu : isTemplateName u = true) : (folder path).Lists d u ↔
      ('/' : UInt8) ∉ u ∧
      ∃ content stamp, d.find? (d.spelled path ++ [u]) = some (.file content stamp) := by
  have hnames : (folder path).names d = .ok ((d.names (d.spelled path)).filter fun n =>
      isTemplateName n && !d.isFolder (path ++ "/" ++ n)) := by
    rw [names, Disk.list_eq_ok.2 ⟨hfolder, rfl⟩]
  have hpath (n : Text) : path ++ "/" ++ n = path ++ ('/' : UInt8) :: n := by simp [Path.slash_eq]
  unfold Lists
  rw [hnames]
  simp only [Except.ok.injEq, exists_eq_left', List.mem_filter, Bool.and_eq_true, hu, true_and,
    hpath, Bool.not_eq_true']
  constructor
  · rintro ⟨hmem, hfile⟩
    have hname := named.isName hmem
    obtain ⟨e, he⟩ := Disk.mem_names_iff.1 hmem
    refine ⟨hname.not_mem, ?_⟩
    cases e with
    | file content stamp => exact ⟨content, stamp, he⟩
    | folder =>
      rw [(Disk.isFolder_append hfolder hname).2 he] at hfile
      cases hfile
  · rintro ⟨hslash, content, stamp, he⟩
    refine ⟨Disk.mem_names_iff.2 ⟨_, he⟩, ?_⟩
    rw [← Bool.not_eq_true, Disk.isFolder_append hfolder (isName_of_template hu hslash), he]
    simp

/-- What a folder hands out is what is read from what stands under the name. -/
theorem get_folder (hfolder : d.stat path = .ok .folder) (wf : d.WellFormed) (hname : Path.IsName u)
    (r : Reader) : ((folder path).get r d u).1 =
      if u.contains '\\' = true then .error (.absent u)
      else match d.find? (d.spelled path ++ [u]) with
        | none => .error (.absent u)
        | some _ => (r.read d (Path.join [path, u])).1.mapError (.unreadable u) := by
  have hslash : u.contains '/' = false := by
    rw [← Bool.not_eq_true, List.contains_iff_mem]
    exact hname.not_mem
  have hempty : u.isEmpty = false := by simpa using hname.ne_nil
  unfold get
  dsimp only
  rw [hslash, hempty, Bool.false_or, Bool.false_or, Disk.stat_join hfolder wf hname]
  split
  · rfl
  · cases d.find? (d.spelled path ++ [u]) with
    | none => rfl
    | some e =>
      dsimp only
      rw [if_neg (by simp)]
      rcases r.read d (Path.join [path, u]) with ⟨f | t, r'⟩ <;> rfl

theorem holds_folder (hfolder : d.stat path = .ok .folder) (wf : d.WellFormed)
    (hname : Path.IsName u) (h : (r.read d (Path.join [path, u])).1 = .ok t) :
    (folder path).Holds d r u t := by
  refine ⟨h, fun hr => ?_⟩
  rw [← Path.clean_join (Disk.ne_nil_of_stat hfolder) hname]
  exact hr.read_eq_ok wf h

theorem lists_memory {ts : List (Text × Text)} :
    (memory ts).Lists d u ↔ ∃ t, ts.lookup u = some t := by
  have hnames : (memory ts).names d = .ok (ts.map Prod.fst) := rfl
  unfold Lists
  rw [hnames, ← Option.isSome_iff_exists, List.lookup_isSome_iff]
  simp only [Except.ok.injEq, exists_eq_left', List.mem_map, beq_iff_eq]
  exact ⟨fun ⟨e, he, hu⟩ => ⟨e, he, hu.symm⟩, fun ⟨e, he, hu⟩ => ⟨e, he, hu.symm⟩⟩

/-- A file is handed out unless its name cannot be asked for or is refused. -/
theorem agrees_of_file (hfolder : d.stat path = .ok .folder) (wf : d.WellFormed) (named : d.Named)
    (hu : isTemplateName u = true) (hname : Path.IsName u) {content : Text} {stamp : Stamp}
    (hfile : d.find? (d.spelled path ++ [u]) = some (.file content stamp)) (r : Reader) :
    (folder path).Agrees d r u ↔ u.contains '\\' = false ∧ ¬ Path.Dotted (Path.join [path, u]) := by
  have hget := get_folder hfolder wf hname r
  have hlists := (lists_folder hfolder named hu).2 ⟨hname.not_mem, content, stamp, hfile⟩
  have hstat := Disk.stat_join hfolder wf hname
  rw [hfile] at hget hstat
  have hcheck := Reader.check_of_file wf hstat
  unfold Agrees
  cases hback : u.contains '\\' with
  | true =>
    rw [hget, if_pos hback]
    simp [hlists]
  | false =>
    rw [hget, if_neg (Bool.eq_false_iff.1 hback)]
    by_cases hdots : Path.Dotted (Path.join [path, u])
    · rw [if_pos hdots] at hcheck
      rw [Reader.read_of_check_error hcheck]
      simp [hlists, hdots, Except.mapError]
    · rw [if_neg hdots, Path.clean_join (Disk.ne_nil_of_stat hfolder) hname] at hcheck
      obtain ⟨item, hread, -⟩ := Reader.exists_item_of_check r hcheck hstat
      simp only [hdots, not_false_eq_true, and_self, iff_true]
      exact .inl ⟨hlists, item.value, holds_folder hfolder wf hname hread, by rw [hread]; rfl⟩

/-- A folder is not listed, and ends the search unless its name cannot be asked for. -/
theorem agrees_of_folder (hfolder : d.stat path = .ok .folder) (wf : d.WellFormed) (named : d.Named)
    (hu : isTemplateName u = true) (hname : Path.IsName u)
    (hinner : d.find? (d.spelled path ++ [u]) = some .folder) (r : Reader) :
    (folder path).Agrees d r u ↔ u.contains '\\' = true := by
  have hget := get_folder hfolder wf hname r
  have hlists : ¬ (folder path).Lists d u := by simp [lists_folder hfolder named hu, hinner]
  have hstat := Disk.stat_join hfolder wf hname
  rw [hinner] at hget hstat
  unfold Agrees
  cases hback : u.contains '\\' with
  | true =>
    rw [hget, if_pos hback]
    simp [hlists]
  | false =>
    rw [← Path.clean_join (Disk.ne_nil_of_stat hfolder) hname] at hstat
    obtain ⟨f, hread⟩ := Reader.exists_error_of_folder hstat r
    rw [hget, if_neg (Bool.eq_false_iff.1 hback), hread]
    simp [hlists, Except.mapError]

/-- The name of a template fits exactly if the list of the drawer and what it hands out agree on
it. -/
theorem fits_iff (hread : drawer.Readable d) (wf : d.WellFormed) (named : d.Named)
    (hu : isTemplateName u = true) (r : Reader) : drawer.fits d u = true ↔ drawer.Agrees d r u := by
  cases drawer with
  | memory ts =>
    simp only [fits, true_iff]
    cases hlookup : ts.lookup u with
    | none => exact .inr ⟨by simp [lists_memory, hlookup], by simp [get, hlookup]⟩
    | some t => exact .inl ⟨by simp [lists_memory, hlookup], t, hlookup, by simp [get, hlookup]⟩
  | folder path =>
    have hfolder := readable_folder.1 hread
    by_cases hslash : ('/' : UInt8) ∈ u
    · -- no name in a folder has a slash
      have hlists : ¬ (folder path).Lists d u := by simp [lists_folder hfolder named hu, hslash]
      have hget : ((folder path).get r d u).1 = .error (.absent u) := by simp [get, hslash]
      simp only [fits, List.contains_iff_mem, hslash, Bool.or_eq_true, true_or, true_iff]
      exact .inr ⟨hlists, hget⟩
    · have hname := isName_of_template hu hslash
      rw [fits, Disk.stat_join hfolder wf hname]
      rcases hfind : d.find? (d.spelled path ++ [u]) with _ | ⟨content, stamp⟩ | _
      · have hlists : ¬ (folder path).Lists d u := by simp [lists_folder hfolder named hu, hfind]
        simp only [Bool.or_true, true_iff]
        exact .inr ⟨hlists, by rw [get_folder hfolder wf hname, hfind, ite_self]⟩
      · rw [agrees_of_file hfolder wf named hu hname hfind]
        simp [hslash]
      · rw [agrees_of_folder hfolder wf named hu hname hfind]
        simp [hslash]

end Drawer

namespace Shelf

/-- A text is that of the first drawer that lists its name. -/
inductive First (d : Disk) (r : Reader) (u t : Text) : Shelf → Prop
  | here {drawer : Drawer} {rest : Shelf} (lists : drawer.Lists d u)
      (holds : drawer.Holds d r u t) : First d r u t (drawer :: rest)
  | there {drawer : Drawer} {rest : Shelf} (lacks : ¬ drawer.Lists d u)
      (first : First d r u t rest) : First d r u t (drawer :: rest)

def fits (d : Disk) (p : Text) (s : Shelf) : Bool :=
  s.all fun drawer => drawer.fits d (declarationName p) && drawer.fits d (definitionName p)

/-- Both names of a pair are listed by some drawer. -/
def Offers (d : Disk) (p : Text) (s : Shelf) : Prop :=
  (∃ drawer ∈ s, drawer.Lists d (declarationName p)) ∧ ∃ drawer ∈ s,
    drawer.Lists d (definitionName p)

theorem First.exists_lists (h : First d r u t s) : ∃ drawer ∈ s, drawer.Lists d u := by
  induction h with
  | here hlists _ => exact ⟨_, List.mem_cons_self, hlists⟩
  | there _ _ ih =>
    obtain ⟨drawer, hmem, hlists⟩ := ih
    exact ⟨drawer, List.mem_cons_of_mem _ hmem, hlists⟩

/-- A shelf hands out the text of the first drawer that lists its name, and no other. -/
theorem get_cases (hagrees : ∀ drawer ∈ s, drawer.Agrees d r u) (hr : Reader.Alike d r r') :
    (∃ t, First d r u t s ∧ (s.get r' d u).1 = .ok t) ∨
      (∀ drawer ∈ s, ¬ drawer.Lists d u) ∧ (s.get r' d u).1 = .error (.absent u) := by
  induction s generalizing r' with
  | nil => exact .inr ⟨by simp, rfl⟩
  | cons drawer rest ih =>
    have htransparent := drawer.transparent_get (Reader.Transparent.read_alike d r) u
    have hfirst := htransparent.eq hr (Reader.Alike.refl d r)
    have hkept := htransparent.kept hr
    rw [get]
    rcases hresult : drawer.get r' d u with ⟨result, r''⟩
    rw [hresult] at hfirst hkept
    dsimp only at hfirst hkept
    rcases hagrees drawer List.mem_cons_self with ⟨hlists, t, hholds, hget⟩ | ⟨hlacks, hget⟩
    · rw [hfirst, hget]
      exact .inl ⟨t, .here hlists hholds, rfl⟩
    · rw [hfirst, hget]
      dsimp only
      rcases ih (fun drawer hmem => hagrees drawer (List.mem_cons_of_mem _ hmem)) hkept with
        ⟨t, ht, hrest⟩ | ⟨hnone, hrest⟩
      · exact .inl ⟨t, .there hlacks ht, hrest⟩
      · refine .inr ⟨?_, hrest⟩
        rw [List.forall_mem_cons]
        exact ⟨hlacks, hnone⟩

theorem isTemplateName_declaration (p : Text) :
    Drawer.isTemplateName (declarationName p) = true := by
  simp [Drawer.isTemplateName, declarationName]

theorem isTemplateName_definition (p : Text) : Drawer.isTemplateName (definitionName p) = true := by
  simp [Drawer.isTemplateName, definitionName]

section Readable

variable (hread : ∀ drawer ∈ s, drawer.Readable d) (wf : d.WellFormed) (named : d.Named)

include hread

theorem exists_names : ∃ names, s.names d = .ok names ∧ names.Nodup ∧
    ∀ u, u ∈ names ↔ ∃ drawer ∈ s, drawer.Lists d u := by
  obtain ⟨found, hfound, hall⟩ := mapM_ok hread
  refine ⟨Text.sort found.flatten.eraseDups, ?_, ?_, fun u => ?_⟩
  · rw [names, hfound]
    rfl
  · exact (List.mergeSort_perm _ _).nodup_iff.2 (nodup_eraseDups _)
  · rw [Text.mem_sort, List.mem_eraseDups, List.mem_flatten]
    clear hfound hread
    induction hall with
    | nil => simp
    | cons hnames _ ih => simp [ih, Drawer.Lists, hnames]

theorem exists_pairs :
    ∃ pairs, s.pairs d = .ok pairs ∧ pairs.Nodup ∧ ∀ p, p ∈ pairs ↔ s.Offers d p := by
  obtain ⟨names, hnames, hnodup, hmem⟩ := exists_names hread
  refine ⟨_, by rw [pairs, hnames]; rfl, ?_, fun p => ?_⟩
  · apply hnodup.filterMap
    intro n n' p hn hn'
    rw [Option.mem_def, Option.filter_eq_some_iff, Text.before?_eq_some] at hn hn'
    rw [hn.1, hn'.1]
  · rw [List.mem_filterMap, Offers, ← hmem, ← hmem]
    constructor
    · rintro ⟨n, hn, hp⟩
      rw [Option.filter_eq_some_iff, Text.before?_eq_some, List.contains_iff_mem] at hp
      obtain ⟨rfl, hdefinition⟩ := hp
      exact ⟨hn, hdefinition⟩
    · rintro ⟨hdeclaration, hdefinition⟩
      refine ⟨_, hdeclaration, ?_⟩
      rw [Option.filter_eq_some_iff, Text.before?_eq_some, List.contains_iff_mem]
      exact ⟨rfl, hdefinition⟩

include wf named

theorem pair_cases {p : Text} (hfits : s.fits d p = true) (r : Reader) :
    (∃ units, First d r (declarationName p) units.1 s ∧ First d r (definitionName p) units.2 s ∧
      (s.pair r d p).1 = .ok units) ∨
    (¬ s.Offers d p ∧ ∃ miss, (s.pair r d p).1 = .error miss) := by
  have hagrees : ∀ drawer ∈ s, drawer.Agrees d r (declarationName p) ∧
      drawer.Agrees d r (definitionName p) := by
    intro drawer hmem
    have hboth := List.all_eq_true.1 hfits drawer hmem
    rw [Bool.and_eq_true] at hboth
    have hiff := fun u hu => Drawer.fits_iff (u := u) (hread drawer hmem) wf named hu r
    exact ⟨(hiff _ (isTemplateName_declaration p)).1 hboth.1,
      (hiff _ (isTemplateName_definition p)).1 hboth.2⟩
  have hdeclaration :=
    get_cases (fun drawer hmem => (hagrees drawer hmem).1) (Reader.Alike.refl d r)
  have hkept := (transparent_get (Reader.Transparent.read_alike d r) (declarationName p) s).kept
    (Reader.Alike.refl d r)
  have hdefinition := get_cases (fun drawer hmem => (hagrees drawer hmem).2) hkept
  unfold pair
  rcases hresult : s.get r d (declarationName p) with ⟨result, r'⟩
  rw [hresult] at hdeclaration hdefinition
  rcases hdeclaration with ⟨declaration, hfirst, rfl⟩ | ⟨hnone, rfl⟩
  · dsimp only at hdefinition ⊢
    rcases hresult' : s.get r' d (definitionName p) with ⟨result, r''⟩
    rw [hresult'] at hdefinition
    rcases hdefinition with ⟨definition, hsecond, rfl⟩ | ⟨hnone, rfl⟩
    · exact .inl ⟨(declaration, definition), hfirst, hsecond, rfl⟩
    · exact .inr ⟨fun ⟨_, drawer, hmem, hlists⟩ => hnone drawer hmem hlists, _, rfl⟩
  · exact .inr ⟨fun ⟨⟨drawer, hmem, hlists⟩, _⟩ => hnone drawer hmem hlists, _, rfl⟩

end Readable

theorem readable_of_pairs {names : List Text} (h : s.pairs d = .ok names) :
    ∀ drawer ∈ s, drawer.Readable d := by
  cases hfound : s.mapM (Drawer.names d) with
  | error f => simp [pairs, Shelf.names, hfound, bind, Except.bind] at h
  | ok found =>
    intro drawer hmem
    have hall := (mapM_eq_ok.1 hfound).imp fun drawer names hnames =>
      (⟨⟨names, hnames⟩, hnames⟩ : drawer.Readable d ∧ drawer.names d = .ok names)
    exact ((List.forall₂_and_left s found).1 hall).1 drawer hmem

theorem mem_pairs {names : List Text} (h : s.pairs d = .ok names) {p : Text} :
    p ∈ names ↔ s.Offers d p := by
  obtain ⟨pairs, hpairs, -, hmem⟩ := exists_pairs (readable_of_pairs h)
  obtain rfl : names = pairs := Except.ok.inj (h.symm.trans hpairs)
  exact hmem p

theorem mem_pairs_mono {s' : Shelf} (hs : s ⊆ s') {names names' : List Text}
    (h : s.pairs d = .ok names) (h' : s'.pairs d = .ok names') {p : Text} (hp : p ∈ names) :
    p ∈ names' := by
  obtain ⟨⟨drawer, hmem, hdeclaration⟩, drawer', hmem', hdefinition⟩ := (mem_pairs h).1 hp
  exact (mem_pairs h').2 ⟨⟨drawer, hs hmem, hdeclaration⟩, drawer', hs hmem', hdefinition⟩

end Shelf
end Template

open Template (Shelf Drawer declarationName definitionName)

theorem Template.Shelf.builtIn_subset_withFolder (path : Text) :
    Shelf.builtIn ⊆ Shelf.withFolder path := by
  unfold withFolder
  split
  · exact List.Subset.refl _
  · exact List.subset_cons_self _ _

/-- Settings that pass name a pair that is listed; no pair named means the default one, which always
is. -/
theorem Config.mem_pairs_of_templateFault {c : Config} {d : Disk} {recipe : Recipe}
    (hfault : c.templateFault d = none) (hrecipe : c.recipe = .ok recipe) :
    recipe.shelf = c.shelf ∧ ∃ pairs, c.shelf.pairs d = .ok pairs ∧ recipe.pairName ∈ pairs := by
  obtain ⟨naming, style, -, rfl⟩ := exists_of_recipe hrecipe
  refine ⟨rfl, ?_⟩
  obtain ⟨pairs, hpairs, hmem⟩ := templateFault_eq_none.1 hfault
  refine ⟨pairs, hpairs, ?_⟩
  unfold Recipe.pairName Text.orElse
  dsimp only
  split
  · obtain ⟨builtIn, hbuiltIn, hdefault, -⟩ := Template.exists_pairs_builtIn d
    exact Shelf.mem_pairs_mono (Shelf.builtIn_subset_withFolder _) hbuiltIn hpairs hdefault
  · exact hmem

/-- Once a bridge is described, what comes of it depends on its templates. -/
theorem Recipe.generate_eq {recipe : Recipe} {i : Interface} {b : Bridge}
    (hb : recipe.describe i = .ok b) (r : Reader) (d : Disk) : (recipe.generate r d i).1 =
      match (recipe.shelf.pair r d recipe.pairName).1 with
      | .error miss => .error miss.fault
      | .ok units => recipe.emit b units := by
  unfold generate
  rw [hb]
  dsimp only
  rcases recipe.shelf.pair r d recipe.pairName with ⟨miss | units, r'⟩ <;> rfl

/-- Where the names of a pair fit, the pair is listed, once, exactly if it is handed out, and both
of its texts are those of the first drawer that lists their names; so settings that pass never miss
their pair. That a name fits is no more than that its drawer hands out what it lists, and lists what
it hands out. -/
theorem Template.Shelf.mem_pairs_iff_pair {d : Disk} (wf : d.WellFormed) (named : d.Named)
    (r : Reader) : (∀ s : Shelf, (∀ drawer ∈ s, drawer.Readable d) →
      ∃ names, s.pairs d = .ok names ∧ names.Nodup ∧
        (∀ p, s.fits d p = true → (p ∈ names ↔ ∃ units, (s.pair r d p).1 = .ok units)) ∧
        (∀ p units, s.fits d p = true → (s.pair r d p).1 = .ok units →
          s.First d r (declarationName p) units.1 ∧ s.First d r (definitionName p) units.2) ∧
        ∀ drawer ∈ s, ∀ u, Drawer.isTemplateName u = true →
        (drawer.fits d u = true ↔ drawer.Agrees d r u)) ∧
    ∀ (c : Config) (recipe : Recipe), c.templateFault d = none → c.recipe = .ok recipe →
      c.shelf.fits d recipe.pairName = true →
        ∃ units, (c.shelf.pair r d recipe.pairName).1 = .ok units ∧
          ∀ i b, recipe.describe i = .ok b → (recipe.generate r d i).1 = recipe.emit b units := by
  refine ⟨fun s hread => ?_, fun c recipe hfault hrecipe hfits => ?_⟩
  · obtain ⟨names, hnames, hnodup, hmem⟩ := Shelf.exists_pairs hread
    refine ⟨names, hnames, hnodup, fun p hfits => ?_, fun p units hfits hunits => ?_,
      fun drawer hdrawer u hu => Drawer.fits_iff (hread drawer hdrawer) wf named hu r⟩
    · rw [hmem]
      rcases Shelf.pair_cases hread wf named hfits r with
        ⟨units, hdeclaration, hdefinition, hpair⟩ | ⟨hnone, miss, hpair⟩
      · exact iff_of_true ⟨hdeclaration.exists_lists, hdefinition.exists_lists⟩ ⟨units, hpair⟩
      · exact iff_of_false hnone (by simp [hpair])
    · rcases Shelf.pair_cases hread wf named hfits r with
        ⟨units', hdeclaration, hdefinition, hpair⟩ | ⟨-, miss, hpair⟩
      · rw [hpair] at hunits
        cases hunits
        exact ⟨hdeclaration, hdefinition⟩
      · rw [hpair] at hunits
        cases hunits
  · obtain ⟨hshelf, names, hnames, hmem⟩ := Config.mem_pairs_of_templateFault hfault hrecipe
    have hread := Shelf.readable_of_pairs hnames
    rcases Shelf.pair_cases hread wf named hfits r with ⟨units, -, -, hpair⟩ | ⟨hnone, -⟩
    · exact ⟨units, hpair, fun i b hb => by rw [Recipe.generate_eq hb, hshelf, hpair]⟩
    · exact absurd ((Shelf.mem_pairs hnames).1 hmem) hnone

namespace Template

theorem Shelf.readable_withFolder {d : Disk} {path : Text} (h : d.stat path = .ok .folder) :
    ∀ drawer ∈ Shelf.withFolder path, drawer.Readable d := by
  unfold Shelf.withFolder Shelf.builtIn
  split
  · simp [Drawer.readable_memory]
  · simp [Drawer.readable_memory, Drawer.readable_folder, h]

theorem Shelf.mem_pairs_withFolder {d : Disk} (named : d.Named) {path : Text}
    (hfolder : d.stat path = .ok .folder)
    {names : List Text} (h : (Shelf.withFolder path).pairs d = .ok names) {p : Text}
    (hslash : ('/' : UInt8) ∉ p)
    (hdeclaration : ∃ content stamp, d.find? (d.spelled path ++ [declarationName p]) =
      some (.file content stamp))
    (hdefinition : ∃ content stamp, d.find? (d.spelled path ++ [definitionName p]) =
      some (.file content stamp)) :
    p ∈ names := by
  have hmem : Drawer.folder path ∈ Shelf.withFolder path := by
    have hpath := Disk.ne_nil_of_stat hfolder
    simp [Shelf.withFolder, hpath]
  have hlists {u : Text} (hu : Drawer.isTemplateName u = true) (hslash : ('/' : UInt8) ∉ u)
      (hfile : ∃ content stamp, d.find? (d.spelled path ++ [u]) = some (.file content stamp)) :
      ∃ drawer ∈ Shelf.withFolder path, drawer.Lists d u :=
    ⟨_, hmem, (Drawer.lists_folder hfolder named hu).2 ⟨hslash, hfile⟩⟩
  have hending (ending : Text) (h : ('/' : UInt8) ∉ ending) : ('/' : UInt8) ∉ p ++ ending := by
    simp [hslash, h]
  rw [mem_pairs h]
  exact ⟨hlists (isTemplateName_declaration p) (hending _ (by decide)) hdeclaration,
    hlists (isTemplateName_definition p) (hending _ (by decide)) hdefinition⟩

theorem Shelf.default_mem_pairs {d : Disk} {path : Text} {names : List Text}
    (h : (Shelf.withFolder path).pairs d = .ok names) : Pair.default ∈ names := by
  obtain ⟨builtIn, hbuiltIn, hdefault, -⟩ := exists_pairs_builtIn d
  exact mem_pairs_mono (builtIn_subset_withFolder path) hbuiltIn h hdefault

/-- A folder with a pair of its own, and with one half of a built-in pair. -/
def overridden : Disk :=
  ((Disk.empty.install "t/plain.h.tmpl" "h" 0).install "t/plain.cpp.tmpl" "cpp" 0).install
    "t/unique-ptr.h.tmpl" "own" 0

theorem Shelf.mem_pairs_iff_pair_overridden : overridden.WellFormed ∧ overridden.Named ∧
    ∃ names, (Shelf.withFolder "t").pairs overridden = .ok names ∧ names.Nodup ∧
      (("plain" : Text) ∈ names ∧
        ∃ units, ((Shelf.withFolder "t").pair {} overridden "plain").1 = .ok units) ∧
      ∃ units, (({ templateDir := "t" } : Config).shelf.pair {} overridden Pair.default).1 =
        .ok units ∧
        (Shelf.withFolder "t").First overridden {} (declarationName Pair.default) units.1 ∧
        (Shelf.withFolder "t").First overridden {} (definitionName Pair.default) units.2 := by
  have wf : overridden.WellFormed := by decide +kernel
  have named : overridden.Named := by decide +kernel
  have hfolder : overridden.stat "t" = .ok .folder := by decide +kernel
  obtain ⟨hshelf, hconfig⟩ := Shelf.mem_pairs_iff_pair wf named {}
  obtain ⟨names, hnames, hnodup, hiff, hfirst, -⟩ :=
    hshelf (Shelf.withFolder "t") (Shelf.readable_withFolder hfolder)
  have hplain : ("plain" : Text) ∈ names :=
    Shelf.mem_pairs_withFolder named hfolder hnames (by decide +kernel) ⟨"h", .second 0,
      by decide +kernel⟩ ⟨"cpp", .second 0, by decide +kernel⟩
  have hdefault := Shelf.default_mem_pairs hnames
  obtain ⟨units, hunits, -⟩ := hconfig { templateDir := "t" } _
    (Config.templateFault_eq_none.2 ⟨names, hnames, hdefault⟩) rfl (by decide +kernel)
  exact ⟨wf, named, names, hnames, hnodup, ⟨hplain, (hiff _ (by decide +kernel)).1 hplain⟩,
    units, hunits, hfirst _ units (by decide +kernel) hunits⟩

/-- A folder with a pair that has two dots in its name, and with a folder that is named like a
built-in template. -/
def hidden : Disk :=
  ((Disk.empty.install "t/a..b.h.tmpl" "h" 0).install "t/a..b.cpp.tmpl" "cpp" 0).installFolder
    "t/unique-ptr.h.tmpl"

/-- Both pairs are listed and pass as a setting, and neither can be had. -/
theorem Shelf.lists_pair_refused : hidden.WellFormed ∧ hidden.Named ∧
    hidden.stat "t" = .ok .folder ∧ ∃ names, (Shelf.withFolder "t").pairs hidden = .ok names ∧
      ∀ p ∈ [("a..b" : Text), Pair.default], p ∈ names ∧
        (∃ miss, ((Shelf.withFolder "t").pair {} hidden p).1 = .error miss) ∧
        let c : Config := { templateDir := "t", template := p }
        c.templateFault hidden = none ∧ ∃ recipe, c.recipe = .ok recipe ∧
          ∃ b f, recipe.describe { name := "IShape" } = .ok b ∧
            (recipe.generate {} hidden { name := "IShape" }).1 = .error f := by
  have named : hidden.Named := by decide +kernel
  have hfolder : hidden.stat "t" = .ok .folder := by decide +kernel
  obtain ⟨names, hnames, -⟩ := exists_pairs (Shelf.readable_withFolder hfolder)
  have hdots : ("a..b" : Text) ∈ names :=
    Shelf.mem_pairs_withFolder named hfolder hnames (by decide +kernel) ⟨"h", .second 0,
      by decide +kernel⟩ ⟨"cpp", .second 0, by decide +kernel⟩
  have herror {ε α : Type} {x : Except ε α} (h : x.toOption.isNone = true) : ∃ e, x = .error e := by
    cases x with
    | error e => exact ⟨e, rfl⟩
    | ok a => cases h
  refine ⟨by decide +kernel, named, hfolder, names, hnames, fun p hp => ?_⟩
  obtain ⟨hlisted, hown, hnone⟩ : p ∈ names ∧ p.orElse Pair.default = p ∧
      ((Shelf.withFolder "t").pair {} hidden p).1.toOption.isNone = true := by
    rw [List.mem_cons, List.mem_singleton] at hp
    rcases hp with rfl | rfl
    · exact ⟨hdots, rfl, by decide +kernel⟩
    · exact ⟨Shelf.default_mem_pairs hnames, rfl, by decide +kernel⟩
  obtain ⟨miss, hmiss⟩ := herror hnone
  refine ⟨hlisted, ⟨miss, hmiss⟩, Config.templateFault_eq_none.2 ⟨names, hnames, hlisted⟩, _, rfl,
    _, miss.fault, rfl, ?_⟩
  rw [Recipe.generate_eq rfl, Recipe.pairName, hown]
  dsimp only [Config.shelf]
  rw [hmiss]

end Template
end HeaderBridge
