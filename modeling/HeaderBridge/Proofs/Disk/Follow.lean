import HeaderBridge.Proofs.Disk.Entry
import Mathlib.Data.List.TakeWhile

namespace HeaderBridge

namespace Text

theorem dropTrailing_append (b : UInt8) (t : Text) :
    ∃ n, t = dropTrailing b t ++ List.replicate n b := by
  refine ⟨(t.reverse.takeWhile (· == b)).length, ?_⟩
  have hall : ∀ a ∈ t.reverse.takeWhile (· == b), a = b := by
    intro a ha
    simpa using List.mem_takeWhile_imp ha
  calc t = (t.reverse.takeWhile (· == b) ++ t.reverse.dropWhile (· == b)).reverse := by
        rw [List.takeWhile_append_dropWhile, List.reverse_reverse]
    _ = dropTrailing b t ++ (t.reverse.takeWhile (· == b)).reverse := List.reverse_append
    _ = _ := by rw [List.eq_replicate_of_mem hall, List.reverse_replicate, List.length_replicate]

end Text

namespace Path

theorem isRooted_dropTrailing (t : Text) :
    isRooted ((Text.dropTrailing '/' t).orElse t) = isRooted t := by
  unfold Text.orElse
  split
  · rfl
  · rename_i hne
    obtain ⟨n, hn⟩ := Text.dropTrailing_append '/' t
    obtain ⟨b, rest, hb⟩ := List.exists_cons_of_ne_nil (mt List.isEmpty_iff.2 hne)
    have hhead : (Text.dropTrailing '/' t).head? = t.head? := by
      rw [hb] at hn
      rw [hb, hn]
      rfl
    rw [isRooted, isRooted, hhead]

/-- Parts, the last one first, that go up first and then from folder to folder. -/
def Climbs (seen : List Text) : Prop :=
  ∃ n names, seen.reverse = List.replicate n up ++ names ∧ ∀ c ∈ names, IsName c

theorem Climbs.push {seen : List Text} {part : Text} (h : Climbs seen) (hpart : IsPart part)
    (rooted : Bool) : Climbs (push rooted seen part) := by
  obtain ⟨n, names, hseen, hnames⟩ := h
  unfold Path.push
  split
  · split
    · split
      · exact ⟨0, [], rfl, by simp⟩
      · exact ⟨1, [], rfl, by simp⟩
    · rename_i last rest
      split
      · rename_i hlast
        obtain rfl : last = up := by simpa using hlast
        -- all that stands before a `..` is a `..`
        have hnil : names = [] := by
          rcases List.eq_nil_or_concat names with rfl | ⟨names', c, rfl⟩
          · rfl
          · rw [List.reverse_cons, List.concat_eq_append, ← List.append_assoc,
              List.append_singleton_inj] at hseen
            have := hnames c (by simp)
            exact absurd hseen.2.symm this.ne_up
        refine ⟨n + 1, [], ?_, by simp⟩
        rw [List.reverse_cons, hseen, hnil, List.replicate_succ']
        simp
      · rename_i hlast
        have hlast : last ≠ up := by simpa using hlast
        rcases List.eq_nil_or_concat names with rfl | ⟨names', c, rfl⟩
        · have hmem : last ∈ List.replicate n up := by
            rw [List.append_nil] at hseen
            rw [← hseen]
            simp
          exact absurd (List.eq_of_mem_replicate hmem) hlast
        · rw [List.reverse_cons, List.concat_eq_append, ← List.append_assoc,
            List.append_singleton_inj] at hseen
          exact ⟨n, names', hseen.1, fun c hc => hnames c (by simp [hc])⟩
  · rename_i hup
    refine ⟨n, names ++ [part], by rw [List.reverse_cons, hseen, List.append_assoc], fun c hc => ?_⟩
    rcases List.mem_append.1 hc with hc | hc
    · exact hnames c hc
    · obtain rfl := List.mem_singleton.1 hc
      exact ⟨hpart, by simpa using hup⟩

theorem exists_cleanParts (p : Text) :
    ∃ n names, cleanParts p = List.replicate n up ++ names ∧ ∀ c ∈ names, IsName c := by
  have hstart : Climbs [] := ⟨0, [], rfl, by simp⟩
  exact List.foldlRecOn (parts p) _ hstart fun _ h _ hpart => h.push (isPart_of_mem_parts hpart) _

end Path

namespace Disk

open HeaderBridge.Path (turn)

variable {d d' : Disk} {p q : Place}

theorem spelled_eq (d : Disk) (path : Text) :
    d.spelled path = (Path.parts path).foldl turn (if Path.isRooted path then [] else d.work) := rfl

theorem spelled_congr (h : d'.work = d.work) (path : Text) : d'.spelled path = d.spelled path := by
  rw [spelled_eq, spelled_eq, h]

theorem spelled_clean (d : Disk) (path : Text) : d.spelled (Path.clean path) = d.spelled path := by
  rw [spelled_eq, spelled_eq, Path.parts_clean, Path.isRooted_clean]
  apply Path.foldl_turn_cleanParts
  intro h
  simp [h]

theorem absolute_workPath (h : ∀ c ∈ d.work, Path.IsName c) (path : Text) :
    Path.absolute d.workPath path = "/" ++ Text.join "/" (d.spelled path) := by
  have hwork : Path.parts d.workPath = d.work := by
    rw [workPath, Path.slash_eq, List.singleton_append, Path.parts_cons_slash, ← Path.slash_eq]
    exact Path.parts_join fun c hc => (h c hc).toIsPart
  have hclean : ∀ t : Text, Path.isRooted t = true →
      Path.clean t = "/" ++ Text.join "/" ((Path.parts t).foldl turn []) := by
    intro t ht
    rw [Path.clean, if_pos ht, Path.cleanParts_of_isRooted ht]
  unfold Path.absolute
  split
  · rename_i hroot
    rw [hclean path hroot, spelled_eq, if_pos hroot]
  · rename_i hroot
    rw [spelled_eq, if_neg hroot]
    have hne : d.workPath ≠ [] := by simp [workPath, Path.slash_eq]
    have hrooted : ∀ t : Text, Path.isRooted (d.workPath ++ t) = true := fun t => rfl
    by_cases hp : path = []
    · have hjoin : Path.join [d.workPath, path] = Path.clean d.workPath := by
        simp [Path.join, hp, hne, Text.join, List.intercalate]
      rw [hjoin, hclean _ rfl, hwork, Path.foldl_turn_names h, hp]
      rfl
    · have hjoin : Path.join [d.workPath, path] =
          Path.clean (d.workPath ++ ('/' : UInt8) :: path) := by
        simp [Path.join, hp, hne, Text.join, List.intercalate, Path.slash_eq]
      rw [hjoin, hclean _ (hrooted _), Path.parts_append, hwork, List.foldl_append,
        Path.foldl_turn_names h]
      rfl

def advance (p : Place) (c : Text) : Place := if c == Path.here then p else turn p c

theorem advance_part {c : Text} (h : Path.IsPart c) (p : Place) : advance p c = turn p c := by
  simp [advance, h.ne_here]

theorem follow_cons (d : Disk) (p : Place) (c : Text) (cs : List Text) : d.follow p (c :: cs) =
    if cs = [] then .ok (advance p c)
    else match d.find? (advance p c) with
      | none => .error .notFound
      | some (.file _ _) => .error .notFolder
      | some .folder => d.follow (advance p c) cs := by
  cases cs with
  | nil => rfl
  | cons c' cs =>
    rw [if_neg (by simp)]
    have hnext : (if c == Path.here then p else if c == Path.up then p.dropLast else p ++ [c]) =
        advance p c := rfl
    conv_lhs => unfold follow
    dsimp only
    rw [hnext]
    rcases d.find? (advance p c) with _ | e
    · rfl
    · cases e <;> rfl

theorem follow_cons_ok {c : Text} {cs : List Text} (hcs : cs ≠ []) : d.follow p (c :: cs) = .ok q ↔
    d.find? (advance p c) = some .folder ∧ d.follow (advance p c) cs = .ok q := by
  rw [follow_cons, if_neg hcs]
  split <;> simp_all

theorem follow_concat {cs : List Text} {c : Text} : d.follow p (cs ++ [c]) = .ok q ↔
    ∃ q', d.follow p cs = .ok q' ∧ (cs ≠ [] → d.find? q' = some .folder) ∧ q = advance q' c := by
  induction cs generalizing p with
  | nil => simp [follow_cons, follow, eq_comm]
  | cons a cs ih =>
    rw [List.cons_append, follow_cons_ok (by simp), ih]
    by_cases hcs : cs = []
    · simp [hcs, follow_cons, follow]
    · simp only [follow_cons_ok hcs, ne_eq, hcs, reduceCtorEq, not_false_eq_true, forall_const]
      constructor
      · rintro ⟨hfolder, q', hfollow, hq'⟩
        exact ⟨q', ⟨hfolder, hfollow⟩, hq'⟩
      · rintro ⟨q', ⟨hfolder, hfollow⟩, hq'⟩
        exact ⟨hfolder, q', hfollow, hq'⟩

theorem eq_of_follow {cs : List Text} (h : d.follow p cs = .ok q) :
    q = (cs.filter (· != Path.here)).foldl turn p := by
  induction cs generalizing p with
  | nil =>
    cases h
    rfl
  | cons c cs ih =>
    have hstep : ((c :: cs).filter (· != Path.here)).foldl turn p =
        (cs.filter (· != Path.here)).foldl turn (advance p c) := by
      by_cases hc : c = Path.here
      · simp [hc, advance]
      · simp [hc, advance]
    rw [hstep]
    by_cases hcs : cs = []
    · rw [follow_cons, if_pos hcs] at h
      cases h
      rw [hcs]
      rfl
    · exact ih ((follow_cons_ok hcs).1 h).2

theorem filter_steps (path : Text) : (steps path).filter (· != Path.here) = Path.parts path := by
  have hparts : ((Text.splitAt '/' path).filter (!·.isEmpty)).filter (· != Path.here) =
      Path.parts path := by
    rw [List.filter_filter, Path.parts]
    apply List.filter_congr
    intro c _
    exact Bool.and_comm _ _
  unfold steps
  dsimp only
  split
  · rw [List.filter_append, hparts]
    simp
  · exact hparts

theorem eq_spelled_of_resolve {path : Text} (h : d.resolve path = .ok q) : q = d.spelled path := by
  unfold resolve at h
  split at h
  · cases h
  · rw [eq_of_follow h, filter_steps]
    rfl

theorem stat_eq_ok {path : Text} {e : Entry} :
    d.stat path = .ok e ↔ d.resolve path = .ok (d.spelled path) ∧
    d.find? (d.spelled path) = some e := by
  cases hr : d.resolve path with
  | error failure => simp [stat, hr, bind, Except.bind]
  | ok q =>
    obtain rfl := eq_spelled_of_resolve hr
    cases hf : d.find? (d.spelled path) <;> simp [stat, hr, hf, bind, Except.bind]

theorem read_eq_ok {path content : Text} :
    d.read path = .ok content ↔ ∃ stamp, d.stat path = .ok (.file content stamp) := by
  cases hs : d.stat path with
  | error failure => simp [read, hs, bind, Except.bind]
  | ok e => cases e <;> simp [read, hs, bind, Except.bind]

theorem follow_mono (hfolder : ∀ q, d.find? q = some .folder → d'.find? q = some .folder)
    {cs : List Text} (h : d.follow p cs = .ok q) : d'.follow p cs = .ok q := by
  induction cs generalizing p with
  | nil => exact h
  | cons c cs ih =>
    by_cases hcs : cs = []
    · rw [follow_cons, if_pos hcs] at h ⊢
      exact h
    · rw [follow_cons_ok hcs] at h ⊢
      exact ⟨hfolder _ h.1, ih h.2⟩

theorem resolve_mono (hwork : d'.work = d.work)
    (hfolder : ∀ q, d.find? q = some .folder → d'.find? q = some .folder) {path : Text}
    (h : d.resolve path = .ok q) : d'.resolve path = .ok q := by
  unfold resolve at h ⊢
  split at h
  · cases h
  · rename_i hpath
    rw [if_neg hpath, hwork]
    exact follow_mono hfolder h

section WellFormed

variable (wf : d.WellFormed)

include wf

theorem follow_parent {cs : List Text} (hp : d.find? p = some .folder) (h : d.follow p cs = .ok q) :
    d.find? q.dropLast = some .folder := by
  induction cs generalizing p with
  | nil =>
    cases h
    exact wf.parent hp
  | cons c cs ih =>
    by_cases hcs : cs = []
    · rw [follow_cons, if_pos hcs] at h
      cases h
      unfold advance turn
      split
      · exact wf.parent hp
      · split
        · exact wf.parent (wf.parent hp)
        · rwa [List.dropLast_concat]
    · rw [follow_cons_ok hcs] at h
      exact ih h.1 h.2

theorem start_folder (path : Text) :
    d.find? (if Path.isRooted path then [] else d.work) = some .folder := by
  split
  · rfl
  · exact wf.work

theorem resolve_parent {path : Text} (h : d.resolve path = .ok q) :
    d.find? q.dropLast = some .folder := by
  unfold resolve at h
  split at h
  · cases h
  · exact follow_parent wf (start_folder wf path) h

theorem follow_names {names : List Text} (hnames : ∀ c ∈ names, Path.IsName c)
    (hparent : d.find? (p ++ names).dropLast = some .folder) :
    d.follow p names = .ok (p ++ names) := by
  induction names generalizing p with
  | nil => simp [follow]
  | cons c cs ih =>
    have hstep : advance p c = p ++ [c] := by
      have hc := hnames c List.mem_cons_self
      rw [advance_part hc.toIsPart, Path.turn_name hc]
    have hsplit : p ++ c :: cs = p ++ [c] ++ cs := by simp
    by_cases hcs : cs = []
    · rw [follow_cons, if_pos hcs, hstep, hcs]
    · rw [follow_cons_ok hcs, hstep, hsplit]
      rw [hsplit] at hparent
      constructor
      · apply wf.folder hparent
        rw [List.dropLast_append_of_ne_nil hcs]
        exact List.prefix_append _ _
      · exact ih (fun t ht => hnames t (List.mem_cons_of_mem c ht)) hparent

theorem follow_ups {n : Nat} {names : List Text} (hnames : ∀ c ∈ names, Path.IsName c)
    (hp : d.find? p = some .folder)
    (hparent : d.find? ((List.replicate n Path.up ++ names).foldl turn p).dropLast = some .folder) :
    d.follow p (List.replicate n Path.up ++ names) =
      .ok ((List.replicate n Path.up ++ names).foldl turn p) := by
  induction n generalizing p with
  | zero =>
    rw [List.replicate_zero, List.nil_append, Path.foldl_turn_names hnames] at hparent ⊢
    exact follow_names wf hnames hparent
  | succ n ih =>
    rw [List.replicate_succ, List.cons_append] at hparent ⊢
    rw [List.foldl_cons] at hparent ⊢
    have hstep : advance p Path.up = turn p Path.up := advance_part Path.isPart_up p
    have hup : d.find? (turn p Path.up) = some .folder := by
      have hparent := wf.parent hp
      simpa [turn] using hparent
    by_cases hcs : List.replicate n Path.up ++ names = []
    · rw [follow_cons, if_pos hcs, hstep, hcs]
      rfl
    · rw [follow_cons_ok hcs, hstep]
      exact ⟨hup, ih hup hparent⟩

end WellFormed

theorem steps_join {cs : List Text} (hne : cs ≠ []) (h : ∀ c ∈ cs, Path.IsPart c) :
    steps (Text.join "/" cs) = cs := by
  have hcut : Text.splitAt '/' (Text.join "/" cs) = cs := by
    rw [Path.slash_eq]
    exact Text.splitAt_join hne fun t ht => (h t ht).not_mem
  have hall : (Text.splitAt '/' (Text.join "/" cs)).filter (!·.isEmpty) = cs := by
    rw [hcut]
    apply List.filter_eq_self.2
    intro t ht
    simp [(h t ht).ne_nil]
  -- behind a slash at the end stands an empty part
  have hlast : (Text.join "/" cs).getLast? ≠ some ('/' : UInt8) := by
    intro hslash
    obtain ⟨front, hfront⟩ := List.getLast?_eq_some_iff.1 hslash
    rw [hfront, Text.splitAt_append] at hcut
    have hempty : ([] : Text) ∈ cs := by
      rw [← hcut]
      simp [Text.splitAt]
    exact (h [] hempty).ne_nil rfl
  unfold steps
  dsimp only
  rw [hall, if_neg]
  simp [hlast]

theorem steps_slash (path : Text) (h : path ≠ []) : steps (('/' : UInt8) :: path) = steps path := by
  obtain ⟨b, rest, rfl⟩ := List.exists_cons_of_ne_nil h
  unfold steps
  have hcut : (Text.splitAt '/' (('/' : UInt8) :: b :: rest)).filter (!·.isEmpty) =
      (Text.splitAt '/' (b :: rest)).filter (!·.isEmpty) := rfl
  rw [hcut, List.getLast?_cons_cons]

theorem join_parts_ne_nil {cs : List Text} (hne : cs ≠ []) (h : ∀ c ∈ cs, Path.IsPart c) :
    Text.join "/" cs ≠ [] := by
  obtain ⟨c, rest, rfl⟩ := List.exists_cons_of_ne_nil hne
  have hc := (h c List.mem_cons_self).ne_nil
  rw [Text.join, Text.intercalate_cons]
  simp [hc]

theorem steps_clean (path : Text) : steps (Path.clean path) =
    if Path.isRooted path = false ∧ Path.cleanParts path = [] then [Path.here]
    else Path.cleanParts path := by
  have hparts := fun c (hc : c ∈ Path.cleanParts path) => Path.isPart_of_mem_cleanParts hc
  by_cases hne : Path.cleanParts path = []
  · unfold Path.clean
    dsimp only
    rw [hne]
    cases Path.isRooted path <;> decide
  · rw [if_neg (by simp [hne])]
    have hjoin := join_parts_ne_nil hne hparts
    unfold Path.clean Text.orElse
    dsimp only
    split
    · rw [Path.slash_eq, List.singleton_append, ← Path.slash_eq, steps_slash _ hjoin,
        steps_join hne hparts]
    · rw [if_neg (by simpa using hjoin), steps_join hne hparts]

/-- A cleaned path can be followed wherever the folder of its place is there. -/
theorem resolve_clean (wf : d.WellFormed) {path : Text}
    (h : d.find? (d.spelled path).dropLast = some .folder) :
    d.resolve (Path.clean path) = .ok (d.spelled path) := by
  have hstart := start_folder wf path
  have hplace : (Path.cleanParts path).foldl turn (if Path.isRooted path then [] else d.work) =
      d.spelled path := by
    rw [spelled_eq]
    apply Path.foldl_turn_cleanParts
    intro hroot
    simp [hroot]
  rw [resolve, if_neg (by simpa using Path.clean_ne_nil path), Path.isRooted_clean, steps_clean]
  by_cases hhere : Path.isRooted path = false ∧ Path.cleanParts path = []
  · rw [if_pos hhere]
    rw [hhere.2] at hplace
    exact congrArg Except.ok hplace
  · rw [if_neg hhere]
    obtain ⟨n, names, hparts, hnames⟩ := Path.exists_cleanParts path
    rw [hparts] at hplace ⊢
    rw [← hplace] at h ⊢
    exact follow_ups wf hnames hstart h

end Disk
end HeaderBridge
