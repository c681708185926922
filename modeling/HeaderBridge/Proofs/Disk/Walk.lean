import HeaderBridge.Proofs.Disk.Enclosing
import HeaderBridge.Proofs.Output.Target

namespace HeaderBridge

namespace Path

variable {path n : Text}

theorem foldl_push_concat {rooted : Bool} {cs : List Text} (hn : IsName n) :
    ((cs ++ [n]).foldl (push rooted) []).reverse = (cs.foldl (push rooted) []).reverse ++ [n] := by
  rw [List.foldl_append]
  simp [push, hn.ne_up]

theorem cleanParts_append (hpath : path ≠ []) (hn : IsName n) :
    cleanParts (path ++ ('/' : UInt8) :: n) = cleanParts path ++ [n] := by
  rw [cleanParts, parts_append, parts_of_isPart hn.toIsPart, isRooted_append hpath,
    foldl_push_concat hn]
  rfl

theorem cleanParts_clean (path : Text) : cleanParts (clean path) = cleanParts path := by
  rw [← parts_clean (clean path), clean_clean, parts_clean]

theorem join_name (hpath : path ≠ []) (hn : IsName n) :
    join [path, n] = clean (path ++ ('/' : UInt8) :: n) := by
  rw [Output.join_eq hpath, if_neg hn.ne_nil]

theorem clean_join (hpath : path ≠ []) (hn : IsName n) :
    clean (join [path, n]) = join [path, n] := by
  rw [join_name hpath hn, clean_clean]

theorem tail_join (hpath : path ≠ []) (hn : IsName n) : tail (join [path, n]) = n := by
  have hparts := cleanParts_append hpath hn
  have hne : cleanParts (path ++ ('/' : UInt8) :: n) ≠ [] := by simp [hparts]
  rw [join_name hpath hn, tail_clean hne]
  simp [hparts]

/-- A cleaned path is put together again from its folder and its last part. -/
theorem join_dir (hclean : clean path = path) (hname : IsName (tail path)) :
    join [dir path, tail path] = path := by
  have hdir : dir path ≠ [] := clean_ne_nil _
  obtain ⟨hroot, hparts⟩ := split_tail hname
  have hrooted : isRooted (dir path) = isRooted path := by rw [dir, isRooted_clean, hroot]
  have hwhole : cleanParts (dir path) ++ [tail path] = cleanParts path := by
    rw [dir, cleanParts_clean, cleanParts, cleanParts, hroot, hparts, foldl_push_concat hname]
  calc join [dir path, tail path]
      = spell (isRooted path) (cleanParts path) := by
        rw [join_name hdir hname, clean_eq, isRooted_append hdir, hrooted,
          cleanParts_append hdir hname, hwhole]
    _ = path := by rw [← clean_eq, hclean]

/-- A cleaned path that ends in a name is its folder, a slash and the name, unless one of the two
goes unsaid. -/
theorem dir_cases (hclean : clean path = path) (hname : IsName (tail path)) :
    dir path = here ∨ dir path = "/" ∨ path = dir path ++ ('/' : UInt8) :: tail path := by
  rcases take_tail path with ⟨-, htake⟩ | ⟨front, hpath, htake⟩
  · left
    rw [dir, htake]
    rfl
  · by_cases hfront : front = []
    · right
      left
      rw [dir, htake, hfront]
      decide
    · right
      right
      have hslash : clean (front ++ [('/' : UInt8)]) = clean front := by
        rw [clean_eq, clean_eq, cleanParts, cleanParts, isRooted_append hfront, parts_slash]
      rw [dir, htake, hslash, clean_of_append hfront hname (by rw [← hpath]; exact hclean)]
      exact hpath

end Path

namespace Disk

open HeaderBridge.Path (turn)

variable {d : Disk} {path : Text} {p q : Place}

theorem spelled_join {n : Text} (hpath : path ≠ []) (hn : Path.IsName n) :
    d.spelled (Path.join [path, n]) = d.spelled path ++ [n] := by
  rw [Path.join_name hpath hn, spelled_clean, spelled_eq, spelled_eq, Path.parts_append,
    Path.isRooted_append hpath, Path.parts_of_isPart hn.toIsPart, List.foldl_append,
    List.foldl_cons, List.foldl_nil, Path.turn_name hn]

theorem exists_name_of_follow (wf : d.WellFormed) {cs : List Text} (h : d.follow p cs = .ok q)
    (hp : d.find? p = some .folder) (hq : d.find? q ≠ some .folder) :
    ∃ front c, cs = front ++ [c] ∧ c ≠ Path.here ∧ c ≠ Path.up := by
  induction cs generalizing p with
  | nil =>
    cases h
    exact absurd hp hq
  | cons c cs ih =>
    by_cases hcs : cs = []
    · -- the last part: a dot stays in the folder, and two dots lead to the one above
      rw [follow_cons, if_pos hcs] at h
      cases h
      refine ⟨[], c, by rw [hcs]; rfl, ?_, ?_⟩
      · rintro rfl
        exact hq hp
      · rintro rfl
        have hparent := wf.parent hp
        exact hq (by simpa [advance_part Path.isPart_up, turn] using hparent)
    · rw [follow_cons_ok hcs] at h
      obtain ⟨front, last, rfl, hlast⟩ := ih h.2 h.1
      exact ⟨c :: front, last, rfl, hlast⟩

theorem isName_tail_of_resolve (wf : d.WellFormed) (h : d.resolve path = .ok q)
    (hq : d.find? q ≠ some .folder) : Path.IsName (Path.tail path) := by
  have hpath : path ≠ [] := by
    rintro rfl
    cases h
  rw [resolve, if_neg (by simpa using hpath)] at h
  obtain ⟨front, c, hsteps, hhere, hup⟩ := exists_name_of_follow wf h (start_folder wf path) hq
  let cs := (Text.splitAt '/' path).filter (!·.isEmpty)
  have hcs : cs = front ++ [c] := by
    unfold steps at hsteps
    dsimp only at hsteps
    split at hsteps
    · exact absurd (List.append_inj' hsteps rfl).2 (by simpa using Ne.symm hhere)
    · exact hsteps
  -- no slash stands at the end, so the last part is not empty
  have htail : Path.tail path ≠ [] := by
    intro hnil
    have hslash : path.getLast? = some ('/' : UInt8) := by
      rcases Path.tail_cases path with heq | ⟨front', heq⟩
      · exact absurd (heq.symm.trans hnil) hpath
      · rw [heq, hnil]
        simp
    have hends : steps path = cs ++ [Path.here] := by
      unfold steps
      dsimp only
      rw [if_pos]
      simp [hslash, cs, hcs]
    rw [hends] at hsteps
    exact hhere (by simpa using (List.append_inj' hsteps rfl).2.symm)
  have hlast : Path.tail path = c := by
    have hsplit : Text.splitAt '/' path = (Text.splitAt '/' path).dropLast ++ [Path.tail path] := by
      have hne := Text.splitAt_ne_nil '/' path
      rw [Path.tail, List.getLast?_eq_some_getLast hne, Option.getD_some,
        List.dropLast_append_getLast]
    have hfilter : cs = ((Text.splitAt '/' path).dropLast.filter (!·.isEmpty)) ++
        [Path.tail path] := by
      conv_lhs => rw [show cs = (Text.splitAt '/' path).filter (!·.isEmpty) from rfl, hsplit]
      rw [List.filter_append]
      simp [htail]
    exact (List.append_inj' (hfilter.symm.trans hcs) rfl).2 |> List.singleton_inj.1
  have hmem : Path.tail path ∈ Text.splitAt '/' path := by
    have hne := Text.splitAt_ne_nil '/' path
    rw [Path.tail, List.getLast?_eq_some_getLast hne]
    exact List.getLast_mem hne
  exact ⟨⟨htail, hlast ▸ hhere, Text.not_mem_of_mem_splitAt hmem⟩, hlast ▸ hup⟩

theorem base_of_resolve (wf : d.WellFormed) (h : d.resolve path = .ok q)
    (hq : d.find? q ≠ some .folder) : (d.spelled path).getLast? = some (Path.base path) := by
  have hname := isName_tail_of_resolve wf h hq
  rw [spelled_tail hname, base_of_isName hname]
  simp

def Named (d : Disk) : Prop := ∀ e ∈ d.entries, ∀ c ∈ e.1, Path.IsName c

instance : DecidablePred Named :=
  fun d => inferInstanceAs (Decidable (∀ e ∈ d.entries, ∀ c ∈ e.1, Path.IsName c))

theorem mem_names {n : Text} : n ∈ d.names p ↔ ∃ e, (p ++ [n], e) ∈ d.entries := by
  rw [names, Text.mem_sort, List.mem_filterMap]
  constructor
  · rintro ⟨⟨place, e⟩, hmem, hlast⟩
    split at hlast
    · rename_i hbelow
      simp only [Bool.and_eq_true, decide_eq_true_eq, List.isPrefixOf_iff_prefix] at hbelow
      obtain ⟨hlength, rest, rfl⟩ := hbelow
      obtain ⟨c, rfl⟩ : ∃ c, rest = [c] := List.length_eq_one_iff.1 (by simpa using hlength)
      obtain rfl : c = n := by simpa using hlast
      exact ⟨e, hmem⟩
    · cases hlast
  · rintro ⟨e, hmem⟩
    exact ⟨_, hmem, by simp⟩

def below (path : Text) (names : List Text) : Text :=
  names.foldl (fun path n => Path.join [path, n]) path

/-- A place that a walk meets, by the names that lead to it from where the walk starts. -/
structure Met (d : Disk) (path name : Text) (p : Place) (v : Visit) (names : List Text) : Prop where
  named : ∀ n ∈ names, Path.IsName n
  path_eq : v.path = below path names
  path_ne_nil : v.path ≠ []
  place : d.spelled v.path = p ++ names
  name_eq : v.name = names.getLastD name
  entry : (d.find? (p ++ names)).map Entry.isFolder = some v.isFolder

theorem below_concat (path : Text) (names : List Text) (n : Text) :
    below path (names ++ [n]) = Path.join [below path names, n] := by
  rw [below, List.foldl_append]
  rfl

theorem below_ne_nil {names : List Text} (hpath : path ≠ []) (hnames : ∀ n ∈ names, Path.IsName n) :
    below path names ≠ [] := by
  induction names using List.reverseRecOn with
  | nil => exact hpath
  | append_singleton names n ih =>
    rw [below_concat,
      Path.join_name (ih fun c hc => hnames c (List.mem_append_left _ hc)) (hnames n (by simp))]
    exact Path.clean_ne_nil _

theorem spelled_below {names : List Text} (hpath : path ≠ [])
    (hnames : ∀ n ∈ names, Path.IsName n) :
    d.spelled (below path names) = d.spelled path ++ names := by
  induction names using List.reverseRecOn with
  | nil =>
    rw [List.append_nil]
    rfl
  | append_singleton names n ih =>
    have hfront : ∀ c ∈ names, Path.IsName c := fun c hc => hnames c (List.mem_append_left _ hc)
    rw [below_concat, spelled_join (below_ne_nil hpath hfront) (hnames n (by simp)), ih hfront,
      List.append_assoc]

theorem Met.here {name : Text} {isFolder : Bool} (hpath : path ≠ []) (hplace : d.spelled path = p)
    (hentry : (d.find? p).map Entry.isFolder = some isFolder) :
    d.Met path name p ⟨path, name, isFolder⟩ [] :=
  ⟨by simp, rfl, hpath, by rw [hplace, List.append_nil], rfl, by rw [List.append_nil, hentry]⟩

theorem Met.cons {n name : Text} {v : Visit} {names : List Text} (hn : Path.IsName n)
    (h : d.Met (Path.join [path, n]) n (p ++ [n]) v names) : d.Met path name p v (n :: names) where
  named := List.forall_mem_cons.2 ⟨hn, h.named⟩
  path_eq := h.path_eq
  path_ne_nil := h.path_ne_nil
  place := by rw [h.place, List.append_assoc, List.singleton_append]
  name_eq := by rw [h.name_eq, List.getLastD_cons]
  entry := by
    have hentry := h.entry
    rwa [List.append_assoc, List.singleton_append] at hentry

theorem exists_entered {enter : Visit → Bool} {fuel : Nat} {name : Text} {v : Visit}
    (hnamed : d.Named) (hpath : path ≠ []) (hplace : d.spelled path = p)
    (h : v ∈ d.visits enter fuel path name p) : ∃ names, d.Met path name p v names ∧
      ∀ front, front <+: names → front ≠ names →
      enter ⟨below path front, front.getLastD name, true⟩ = true := by
  induction fuel generalizing path name p with
  | zero => cases h
  | succ fuel ih =>
    rw [visits] at h
    split at h
    · cases h
    · rename_i hfile
      rw [List.mem_singleton.1 h]
      exact ⟨[], .here hpath hplace (by rw [hfile]; rfl),
        fun front hfront hne => absurd (List.prefix_nil.1 hfront) hne⟩
    · rename_i hfolder
      dsimp only at h
      split at h
      · rename_i henter
        rcases List.mem_cons.1 h with rfl | h
        · exact ⟨[], .here hpath hplace (by rw [hfolder]; rfl),
            fun front hfront hne => absurd (List.prefix_nil.1 hfront) hne⟩
        · -- what is met in a folder is met below one of its names
          obtain ⟨n, hn, h⟩ := List.mem_flatMap.1 h
          obtain ⟨e, he⟩ := mem_names.1 hn
          have hisName := hnamed _ he n (by simp)
          have hjoin : Path.join [path, n] ≠ [] := by
            rw [Path.join_name hpath hisName]
            exact Path.clean_ne_nil _
          have hspelled : d.spelled (Path.join [path, n]) = p ++ [n] := by
            rw [spelled_join hpath hisName, hplace]
          obtain ⟨names, hmet, hentered⟩ := ih hjoin hspelled h
          refine ⟨n :: names, hmet.cons hisName, fun front hfront hne => ?_⟩
          rcases List.prefix_cons_iff.1 hfront with rfl | ⟨rest, rfl, hrest⟩
          · exact henter
          · rw [List.getLastD_cons]
            exact hentered rest hrest fun heq => hne (by rw [heq])
      · cases h

theorem exists_met {enter : Visit → Bool} {fuel : Nat} {name : Text} {v : Visit} (hnamed : d.Named)
    (hpath : path ≠ []) (hplace : d.spelled path = p) (h : v ∈ d.visits enter fuel path name p) :
    ∃ names, d.Met path name p v names :=
  (exists_entered hnamed hpath hplace h).imp fun _ => And.left

section Walk

variable {enter : Visit → Bool} {root : Text} {vs : List Visit} {v : Visit}

/-- A walk starts at a path that leads somewhere, and fails as the path does. -/
theorem walk_cases (d : Disk) (enter : Visit → Bool) (root : Text) :
    (∃ e, d.stat root = .error e ∧ d.walk enter root = .error e) ∨
      ∃ e, d.stat root = .ok e ∧
        d.walk enter root =
          .ok (d.visits enter (d.entries.length + 2) root (Path.base root) (d.spelled root)) := by
  unfold walk stat
  cases hr : d.resolve root with
  | error e => exact .inl ⟨e, rfl, rfl⟩
  | ok q =>
    obtain rfl := eq_spelled_of_resolve hr
    cases hq : d.find? (d.spelled root) with
    | none => exact .inl ⟨.notFound, by simp [bind, Except.bind, hq]⟩
    | some e => exact .inr ⟨e, by simp [bind, Except.bind, hq]⟩

theorem walk_eq_ok (h : d.walk enter root = .ok vs) : d.resolve root = .ok (d.spelled root) ∧
    root ≠ [] ∧
    vs = d.visits enter (d.entries.length + 2) root (Path.base root) (d.spelled root) := by
  rcases walk_cases d enter root with ⟨e, -, hwalk⟩ | ⟨e, hstat, hwalk⟩
  · rw [hwalk] at h
    cases h
  · rw [hwalk] at h
    cases h
    refine ⟨(stat_eq_ok.1 hstat).1, ?_, rfl⟩
    rintro rfl
    cases hstat

theorem file_of_walk (wf : d.WellFormed) (hnamed : d.Named) (h : d.walk enter root = .ok vs)
    (hv : v ∈ vs) (hfile : v.isFolder = false) : v.path ≠ [] ∧
      d.find? (d.spelled v.path) ≠ some .folder ∧
      (d.spelled v.path).getLast? = some v.name := by
  obtain ⟨hresolved, hroot, rfl⟩ := walk_eq_ok h
  obtain ⟨names, hmet⟩ := exists_met hnamed hroot rfl hv
  have hnot : d.find? (d.spelled v.path) ≠ some .folder := by
    intro hfolder
    have hentry := hmet.entry
    rw [← hmet.place, hfolder, hfile] at hentry
    cases hentry
  refine ⟨hmet.path_ne_nil, hnot, ?_⟩
  rw [hmet.name_eq]
  rcases List.eq_nil_or_concat names with rfl | ⟨front, c, rfl⟩
  · have hpath : v.path = root := hmet.path_eq
    rw [hpath] at hnot ⊢
    exact base_of_resolve wf hresolved hnot
  · rw [hmet.place]
    simp

/-- What stands in the folder that a walk starts from is met, if the walk enters the folder. -/
theorem mem_visits {fuel : Nat} {name n : Text} {content : Text} {stamp : Stamp}
    (hfolder : d.find? p = some .folder) (henter : enter ⟨path, name, true⟩ = true)
    (hfile : d.find? (p ++ [n]) = some (.file content stamp)) :
    (⟨Path.join [path, n], n, false⟩ : Visit) ∈ d.visits enter (fuel + 2) path name p := by
  have hn : n ∈ d.names p := by
    rcases exists_mem_of_find? hfile with hnil | hmem
    · simp at hnil
    · exact mem_names.2 hmem
  rw [visits, hfolder]
  dsimp only
  rw [if_pos henter, List.mem_cons, List.mem_flatMap]
  refine .inr ⟨n, hn, ?_⟩
  rw [visits, hfile]
  exact List.mem_singleton_self _

end Walk
end Disk
end HeaderBridge
