import HeaderBridge.Clean
import HeaderBridge.Proofs.Disk.Shrunk
import HeaderBridge.Proofs.Scan.Marked

namespace HeaderBridge

namespace Cleaning

variable {c : Cleaning} {d : Disk} {path : Text} {paths : List Text}

theorem remove_of_file {content : Text} {stamp : Stamp}
    (hpath : c.disk.resolve path = .ok (c.disk.spelled path))
    (hfile : c.disk.find? (c.disk.spelled path) = some (.file content stamp)) :
    c.remove path =
      ⟨c.disk.drop (c.disk.spelled path), c.reader.forget path, c.removed ++ [path], c.faults⟩ := by
  have hdrop : c.disk.remove path = .ok (c.disk.drop (c.disk.spelled path)) := by
    simp [Disk.remove, hpath, hfile, bind, Except.bind]
  rw [remove, hdrop]

theorem remove_of_none (hpath : c.disk.resolve path = .ok (c.disk.spelled path))
    (hnone : c.disk.find? (c.disk.spelled path) = none) :
    c.remove path =
      c.fail (.fileSystem "remove" path (some (DiskError.notFound.fault "remove" path))) := by
  have hfail : c.disk.remove path = .error .notFound := by
    simp [Disk.remove, hpath, hnone, bind, Except.bind]
  rw [remove, hfail]

/-- Removing what is no folder takes away nothing but what stands at its place. -/
theorem remove_spec (hfile : c.disk.find? (c.disk.spelled path) ≠ some .folder) :
    c.disk.Shrunk (c.remove path).disk ∧ c.removed <+: (c.remove path).removed ∧
      ∀ q, q ≠ c.disk.spelled path → (c.remove path).disk.find? q = c.disk.find? q := by
  rcases hentry : c.disk.stat path with e | ⟨content, stamp⟩ | _
  · -- where nothing stands, nothing happens but a fault
    have hkept : ∃ e, c.disk.remove path = .error e := by
      unfold Disk.stat at hentry
      unfold Disk.remove
      cases hr : c.disk.resolve path with
      | error e => exact ⟨e, rfl⟩
      | ok q =>
        rw [hr] at hentry
        cases hq : c.disk.find? q with
        | none => exact ⟨.notFound, by simp [hq, bind, Except.bind]⟩
        | some entry => simp [hq, bind, Except.bind] at hentry
    obtain ⟨e, hkept⟩ := hkept
    have hfail : c.remove path =
        c.fail (.fileSystem "remove" path (some (e.fault "remove" path))) := by
      rw [remove, hkept]
    rw [hfail]
    exact ⟨.refl _, List.prefix_refl _, fun _ _ => rfl⟩
  · obtain ⟨hpath, hthere⟩ := Disk.stat_eq_ok.1 hentry
    have hne : c.disk.spelled path ≠ [] := by
      intro hnil
      rw [hnil] at hfile
      exact hfile rfl
    rw [remove_of_file hpath hthere]
    exact ⟨.drop hfile, List.prefix_append _ _, fun q hq => by rw [Disk.find?_drop hne, if_neg hq]⟩
  · exact absurd (Disk.stat_eq_ok.1 hentry).2 hfile

theorem shrunk_foldl_remove (hfiles : ∀ q ∈ paths, c.disk.find? (c.disk.spelled q) ≠ some .folder) :
    c.disk.Shrunk (paths.foldl remove c).disk ∧ c.removed <+: (paths.foldl remove c).removed := by
  induction paths generalizing c with
  | nil => exact ⟨.refl _, List.prefix_refl _⟩
  | cons path paths ih =>
    obtain ⟨hstep, htold, -⟩ := remove_spec (hfiles path List.mem_cons_self)
    obtain ⟨hshrunk, htold'⟩ :=
      ih fun q hq => hstep.not_folder (hfiles q (List.mem_cons_of_mem path hq))
    exact ⟨hstep.trans hshrunk, htold.trans htold'⟩

/-- A listed file is removed in the end, if no other listed path leads to it. -/
theorem foldl_remove_of_mem {content : Text} {stamp : Stamp}
    (hfiles : ∀ q ∈ paths, c.disk.find? (c.disk.spelled q) ≠ some .folder)
    (honly : ∀ q ∈ paths, c.disk.spelled q = c.disk.spelled path → q = path) (hmem : path ∈ paths)
    (hpath : c.disk.resolve path = .ok (c.disk.spelled path))
    (hfile : c.disk.find? (c.disk.spelled path) = some (.file content stamp)) :
    path ∈ (paths.foldl remove c).removed ∧
    (paths.foldl remove c).disk.find? (c.disk.spelled path) = none := by
  induction paths generalizing c with
  | nil => cases hmem
  | cons q paths ih =>
    obtain ⟨hstep, -, hothers⟩ := remove_spec (hfiles q List.mem_cons_self)
    have hspelled := Disk.spelled_congr hstep.work
    have hrest : ∀ q' ∈ paths, (c.remove q).disk.find? ((c.remove q).disk.spelled q') ≠
        some .folder :=
      fun q' hq' => hstep.not_folder (hfiles q' (List.mem_cons_of_mem q hq'))
    by_cases hq : q = path
    · -- its own turn: the file goes, and what comes later does not bring it back
      subst hq
      have hne : c.disk.spelled q ≠ [] := by
        intro hnil
        rw [hnil] at hfile
        cases hfile
      obtain ⟨hshrunk, hkept⟩ := shrunk_foldl_remove hrest
      have hgone : (c.remove q).disk.find? (c.disk.spelled q) = none := by
        rw [remove_of_file hpath hfile, Disk.find?_drop hne, if_pos rfl]
      have htold : q ∈ (c.remove q).removed := by
        rw [remove_of_file hpath hfile]
        exact List.mem_append_right _ (List.mem_singleton_self q)
      exact ⟨hkept.subset htold, hshrunk.none hgone⟩
    · have hplace : c.disk.spelled path ≠ c.disk.spelled q :=
        fun heq => hq (honly q List.mem_cons_self heq.symm)
      have hmem' : path ∈ paths := (List.mem_cons.1 hmem).resolve_left (Ne.symm hq)
      have honly' : ∀ q' ∈ paths, (c.remove q).disk.spelled q' = (c.remove q).disk.spelled path →
          q' = path := by
        intro q' hq' heq
        rw [hspelled, hspelled] at heq
        exact honly q' (List.mem_cons_of_mem q hq') heq
      have hfound := ih hrest honly' hmem' (by rw [hspelled]; exact hstep.resolve hpath)
        (by rw [hspelled, hothers _ hplace, hfile])
      rwa [hspelled] at hfound

theorem base_dir (hclean : Path.clean path = path) (hname : Path.IsName (Path.tail path))
    (hdots : Text.hasBlock ".." path = false) : base (Path.dir path) = Path.dir path := by
  have hne : Path.dir path ≠ [] := Path.clean_ne_nil _
  have hends : ¬ recursiveSuffix <:+ Path.dir path := by
    intro hends
    rcases Path.dir_cases hclean hname with hdir | hdir | hdir
    · rw [hdir] at hends
      exact absurd hends (by decide)
    · rw [hdir] at hends
      exact absurd hends (by decide)
    · have hpart : (".." : Text) <:+: recursiveSuffix := by decide
      have hblock : (".." : Text) <:+: path := by
        rw [hdir]
        exact (hpart.trans hends.isInfix).trans (List.prefix_append _ _).isInfix
      rw [Text.hasBlock_iff.2 hblock] at hdots
      cases hdots
  have hwithout : Text.withoutEnding recursiveSuffix (Path.dir path) = Path.dir path := by
    rw [Text.withoutEnding, Text.before?, if_neg (by simpa using hends), Option.getD_none]
  rw [base, hwithout, Text.orElse, if_neg (by simpa using hne)]

section Folder

variable {k : Hallmark} (wf : d.WellFormed) (hnamed : d.Named) (hclean : Path.clean path = path)
  (hname : Path.IsName (Path.tail path))

include wf hnamed hclean hname

/-- What is listed in the folder of a marked file: the file, under one path, and nothing but
files. -/
theorem candidates_dir (hmarks : k.Marks d (d.spelled path))
    (htraversal : Reader.isTraversal path = false) :
    ∃ paths r, candidates k {} d (Path.dir path) = (.ok paths, r) ∧ path ∈ paths ∧
      ∀ q ∈ paths, d.find? (d.spelled q) ≠ some .folder ∧
      (d.spelled q = d.spelled path → q = path) := by
  obtain ⟨content, stamp, hfile, -⟩ := hmarks.content
  have hfolder : d.stat (Path.dir path) = .ok .folder := Disk.stat_dir wf hname hfile
  obtain ⟨hresolved, hentry⟩ := Disk.stat_eq_ok.1 hfolder
  have hdir : Path.dir path ≠ [] := Path.clean_ne_nil _
  have hplace : d.spelled path = d.spelled (Path.dir path) ++ [Path.tail path] :=
    Disk.spelled_tail hname
  let enter := Walk.isEntered (Path.dir path) []
  let vs := d.visits enter (d.entries.length + 2) (Path.dir path) (Path.base (Path.dir path))
    (d.spelled (Path.dir path))
  have hwalk : d.walk enter (Path.dir path) = .ok vs := by
    simp [Disk.walk, hresolved, hentry, bind, Except.bind, vs]
  have hfiles : Walk.files d enter (Path.dir path) = .ok (vs.filter (!·.isFolder)) := by
    rw [Walk.files, hwalk]
  have hfound : (⟨path, Path.tail path, false⟩ : Disk.Visit) ∈ vs := by
    have henter : enter ⟨Path.dir path, Path.base (Path.dir path), true⟩ = true := by
      simp [enter, Walk.isEntered]
    rw [hplace] at hfile
    have hmet : (⟨Path.join [Path.dir path, Path.tail path], Path.tail path, false⟩ : Disk.Visit) ∈
        vs :=
      Disk.mem_visits hentry henter hfile
    rwa [Path.join_dir hclean hname] at hmet
  have hselect :=
    Hallmark.select_of_current wf (Reader.current_empty d) k true (vs.filter (!·.isFolder))
  have hlisted : candidates k {} d (Path.dir path) =
      (.ok (Walk.paths (k.select true d (vs.filter (!·.isFolder)) {}).1),
      (k.select true d (vs.filter (!·.isFolder)) {}).2) := by
    rw [candidates, hfolder]
    simp only [enter] at hfiles
    rw [hfiles]
  refine ⟨_, _, hlisted, ?_, ?_⟩
  · rw [Walk.mem_paths, hselect]
    refine ⟨⟨path, Path.tail path, false⟩, List.mem_filter.2 ⟨List.mem_filter.2 ⟨hfound, rfl⟩, ?_⟩,
      rfl⟩
    have hpath : path ≠ [] := by
      rintro rfl
      exact hname.ne_nil rfl
    have hlast : (d.spelled path).getLast? = some (Path.tail path) := by
      rw [hplace, List.getLast?_concat]
    rw [Hallmark.isBorne_of_marks wf hmarks hpath (by rw [hclean]; exact htraversal) hlast]
    rfl
  · intro q hq
    rw [Walk.mem_paths, hselect] at hq
    obtain ⟨v, hv, rfl⟩ := hq
    obtain ⟨hv, hnot⟩ := List.mem_filter.1 (List.mem_filter.1 hv).1
    refine ⟨(Disk.file_of_walk wf hnamed hwalk hv (by simpa using hnot)).2.1, fun heq => ?_⟩
    -- the names that lead to the same place are the same
    obtain ⟨names, hmet⟩ := Disk.exists_met hnamed hdir rfl hv
    rw [hmet.place, hplace] at heq
    rw [hmet.path_eq, List.append_cancel_left heq]
    exact Path.join_dir hclean hname

end Folder

theorem removed_of_marks {endings : List Text} (wf : d.WellFormed) (hnamed : d.Named)
    (hclean : Path.clean path = path) (hname : Path.IsName (Path.tail path))
    (hdots : Text.hasBlock ".." path = false)
    (hmarks : (⟨Template.marker, endings⟩ : Hallmark).Marks d (d.spelled path)) :
    path ∈ (ofInputs endings d [Path.dir path]).removed ∧
      (ofInputs endings d [Path.dir path]).disk.read path = .error .notFound := by
  have htraversal : Reader.isTraversal path = false := by
    rw [Reader.isTraversal, hdots, Bool.false_and]
  obtain ⟨paths, r, hlisted, hmem, hpaths⟩ :=
    candidates_dir wf hnamed hclean hname hmarks htraversal
  obtain ⟨content, stamp, hfile, -⟩ := hmarks.content
  have hstat : d.stat path = .ok (.file content stamp) := by
    have := (Disk.stat_clean wf).2 hfile
    rwa [hclean] at this
  obtain ⟨hresolved, -⟩ := Disk.stat_eq_ok.1 hstat
  let c : Cleaning := { disk := d, reader := r }
  have hrun : ofInputs endings d [Path.dir path] = paths.foldl remove c := by
    have hsweep : ofInputs endings d [Path.dir path] =
        sweep ⟨Template.marker, endings⟩ { disk := d, reader := {} } (base (Path.dir path)) := rfl
    rw [hsweep, base_dir hclean hname hdots, sweep, hlisted]
  have hshrunk : c.disk.Shrunk (paths.foldl remove c).disk :=
    (shrunk_foldl_remove fun q hq => (hpaths q hq).1).1
  obtain ⟨htold, hgone⟩ :=
    foldl_remove_of_mem (c := c) (fun q hq => (hpaths q hq).1) (fun q hq => (hpaths q hq).2) hmem
    hresolved hfile
  rw [hrun]
  refine ⟨htold, ?_⟩
  have hthere := hshrunk.resolve hresolved
  simp [Disk.read, Disk.stat, hthere, hgone, c, bind, Except.bind]

end Cleaning
end HeaderBridge
