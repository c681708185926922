import HeaderBridge.Proofs.Disk.Grown
import HeaderBridge.Proofs.Disk.Same

namespace HeaderBridge

namespace Path

theorem tail_cases (p : Text) : tail p = p ∨ ∃ front, p = front ++ ('/' : UInt8) :: tail p := by
  by_cases hslash : ('/' : UInt8) ∈ p
  · obtain ⟨after, before, hp, hafter⟩ := List.eq_append_cons_of_mem (List.mem_reverse.2 hslash)
    have hsplit : p = before.reverse ++ ('/' : UInt8) :: after.reverse := by
      rw [← List.reverse_reverse p, hp]
      simp
    have hcut : Text.splitAt '/' after.reverse = [after.reverse] :=
      Text.splitAt_of_not_mem (by simpa using hafter)
    have htail : tail p = after.reverse := by
      rw [tail, hsplit, Text.splitAt_append, hcut]
      simp
    exact .inr ⟨before.reverse, by rw [htail]; exact hsplit⟩
  · left
    rw [tail, Text.splitAt_of_not_mem hslash]
    rfl

theorem take_tail (p : Text) :
    tail p = p ∧ p.take (p.length - (tail p).length) = [] ∨
      ∃ front, p = front ++ ('/' : UInt8) :: tail p ∧
        p.take (p.length - (tail p).length) = front ++ [('/' : UInt8)] := by
  rcases tail_cases p with h | ⟨front, h⟩
  · left
    simp [h]
  · right
    have hlength : p.length - (tail p).length = (front ++ [('/' : UInt8)]).length := by
      have := congrArg List.length h
      simp only [List.length_append, List.length_cons, List.length_nil] at this ⊢
      omega
    refine ⟨front, h, ?_⟩
    calc p.take (p.length - (tail p).length)
        = (front ++ [('/' : UInt8)] ++ tail p).take (front ++ [('/' : UInt8)]).length := by
          rw [hlength, List.append_assoc, List.singleton_append, ← h]
      _ = front ++ [('/' : UInt8)] := List.take_left

/-- A path that ends in a name is what `dir` cleans, with the name behind it. -/
theorem split_tail {p : Text} (h : IsName (tail p)) :
    isRooted (p.take (p.length - (tail p).length)) = isRooted p ∧
      parts p = parts (p.take (p.length - (tail p).length)) ++ [tail p] := by
  rcases take_tail p with ⟨htail, htake⟩ | ⟨front, hpath, htake⟩
  · -- a name by itself stands in the folder that the program works in
    have hroot : isRooted p = false := by
      rw [htail] at h
      rw [isRooted, beq_eq_false_iff_ne]
      exact fun hslash => h.not_mem (List.mem_of_head? hslash)
    have hparts : parts p = [tail p] := by
      conv_lhs => rw [← htail]
      exact parts_of_isPart h.toIsPart
    rw [htake, hroot, hparts]
    exact ⟨rfl, rfl⟩
  · have hparts : parts p = parts front ++ [tail p] := by
      conv_lhs => rw [hpath]
      rw [parts_append, parts_of_isPart h.toIsPart]
    rw [htake, parts_slash]
    refine ⟨?_, hparts⟩
    conv_rhs => rw [hpath]
    exact (isRooted_slash front (tail p)).symm

theorem tail_clean {p : Text} (h : cleanParts p ≠ []) :
    tail (clean p) = (cleanParts p).getLast h := by
  have hparts : ∀ c ∈ cleanParts p, ('/' : UInt8) ∉ c :=
    fun c hc => (isPart_of_mem_cleanParts hc).not_mem
  have hjoin : Text.splitAt '/' (Text.join "/" (cleanParts p)) = cleanParts p := by
    rw [slash_eq]
    exact Text.splitAt_join h hparts
  have hne : Text.join "/" (cleanParts p) ≠ [] := by
    intro hnil
    rw [hnil] at hjoin
    have hempty : ([] : Text) ∈ cleanParts p := by
      rw [← hjoin]
      simp [Text.splitAt]
    exact (isPart_of_mem_cleanParts hempty).ne_nil rfl
  have hlast : (cleanParts p).getLast? = some ((cleanParts p).getLast h) :=
    List.getLast?_eq_some_getLast h
  unfold clean Text.orElse tail
  dsimp only
  split
  · rw [slash_eq, List.singleton_append, ← slash_eq]
    have hcut : Text.splitAt '/' (('/' : UInt8) :: Text.join "/" (cleanParts p)) =
        [] :: cleanParts p := by
      rw [Text.splitAt, if_pos rfl, hjoin]
    rw [hcut, List.getLast?_cons_of_ne_nil h, hlast]
    rfl
  · rw [if_neg (by simpa using hne), hjoin, hlast]
    rfl

/-- Parts with nothing to resolve: those that go up come first, and from the root none goes up. -/
def Resolved (rooted : Bool) (cs : List Text) : Prop :=
  ∃ n names, cs = List.replicate n up ++ names ∧ (rooted = true → n = 0) ∧ ∀ c ∈ names, IsName c

theorem up_not_mem_foldl_turn {cs p : List Text} (h : up ∉ p) : up ∉ cs.foldl turn p := by
  induction cs generalizing p with
  | nil => exact h
  | cons c cs ih =>
    apply ih
    unfold turn
    split
    · exact fun hmem => h (List.dropLast_subset p hmem)
    · rename_i hc
      rw [List.mem_append, List.mem_singleton, not_or]
      exact ⟨h, fun heq => hc (by simp [heq])⟩

theorem resolved_cleanParts (p : Text) : Resolved (isRooted p) (cleanParts p) := by
  obtain ⟨n, names, hparts, hnames⟩ := exists_cleanParts p
  refine ⟨n, names, hparts, fun hroot => ?_, hnames⟩
  have hnot : up ∉ cleanParts p := by
    rw [cleanParts_of_isRooted hroot]
    exact up_not_mem_foldl_turn (by simp)
  rw [hparts] at hnot
  by_contra hn
  exact hnot (List.mem_append_left _ (List.mem_replicate.2 ⟨hn, rfl⟩))

theorem Resolved.foldl_push {rooted : Bool} {cs : List Text} (h : Resolved rooted cs) :
    (cs.foldl (push rooted) []).reverse = cs := by
  obtain ⟨n, names, rfl, hroot, hnames⟩ := h
  have hups : ∀ k m, rooted = false →
      (List.replicate m up).foldl (push rooted) (List.replicate k up) =
      List.replicate (m + k) up := by
    -- parts that go up pile up: only in front of the root they would vanish
    intro k m hr
    induction m generalizing k with
    | zero => simp
    | succ m ih =>
      have hpush : push rooted (List.replicate k up) up = List.replicate (k + 1) up := by
        cases k with
        | zero => simp [push, hr]
        | succ k => simp [push, List.replicate_succ]
      rw [List.replicate_succ, List.foldl_cons, hpush, ih]
      congr 1
      omega
  have hnamed : ∀ (names seen : List Text), (∀ c ∈ names, IsName c) →
      names.foldl (push rooted) seen = names.reverse ++ seen := by
    intro names
    induction names with
    | nil => simp
    | cons c names ih =>
      intro seen hnames
      have hpush : push rooted seen c = c :: seen := by
        simp [push, (hnames c List.mem_cons_self).ne_up]
      rw [List.foldl_cons, hpush, ih _ fun t ht => hnames t (List.mem_cons_of_mem c ht)]
      simp
  have hfront : (List.replicate n up).foldl (push rooted) [] = List.replicate n up := by
    cases hr : rooted with
    | true => simp [hroot hr]
    | false =>
      rw [← hr]
      exact hups 0 n hr
  rw [List.foldl_append, hfront, hnamed names _ hnames]
  simp

theorem Resolved.dropLast {rooted : Bool} {cs : List Text} (h : Resolved rooted cs) :
    Resolved rooted cs.dropLast := by
  obtain ⟨n, names, rfl, hroot, hnames⟩ := h
  by_cases hnil : names = []
  · refine ⟨n - 1, [], by simp [hnil], fun hr => by simp [hroot hr], by simp⟩
  · exact ⟨n, names.dropLast, List.dropLast_append_of_ne_nil hnil, hroot,
      fun c hc => hnames c (List.dropLast_subset names hc)⟩

/-- A path is clean if nothing is left to resolve in its parts, as far as they are spelled as a
cleaned path. -/
theorem cleanParts_of_resolved {p : Text} (h : Resolved (isRooted p) (parts p)) :
    cleanParts p = parts p :=
  h.foldl_push

def spell (rooted : Bool) (cs : List Text) : Text :=
  if rooted then "/" ++ Text.join "/" cs else (Text.join "/" cs).orElse here

theorem clean_eq (p : Text) : clean p = spell (isRooted p) (cleanParts p) := rfl

theorem clean_clean (p : Text) : clean (clean p) = clean p := by
  have hparts : cleanParts (clean p) = cleanParts p := by
    rw [cleanParts_of_resolved, parts_clean]
    rw [isRooted_clean, parts_clean]
    exact resolved_cleanParts p
  rw [clean_eq, isRooted_clean, hparts, ← clean_eq]

theorem join_concat {cs : List Text} (hne : cs ≠ []) (c : Text) :
    Text.join "/" (cs ++ [c]) = Text.join "/" cs ++ ('/' : UInt8) :: c := by
  induction cs with
  | nil => exact absurd rfl hne
  | cons a cs ih =>
    rw [List.cons_append, Text.join, Text.join, Text.intercalate_cons, Text.intercalate_cons,
      if_neg (by simp)]
    by_cases hcs : cs = []
    · simp [hcs, slash_eq]
    · rw [if_neg hcs, ← Text.join, ih hcs, ← Text.join]
      simp

theorem clean_of_append {front c : Text} (hfront : front ≠ []) (hc : IsName c)
    (h : clean (front ++ ('/' : UInt8) :: c) = front ++ ('/' : UInt8) :: c) :
    clean front = front := by
  let path := front ++ ('/' : UInt8) :: c
  have hroot : isRooted front = isRooted path := (isRooted_append hfront _).symm
  have hparts : cleanParts path = parts front ++ [c] := by
    rw [← parts_clean, show clean path = path from h, parts_append, parts_of_isPart hc.toIsPart]
  have hresolved : Resolved (isRooted front) (parts front) := by
    have := (resolved_cleanParts path).dropLast
    rwa [hparts, List.dropLast_concat, ← hroot] at this
  have hpath : front ++ ('/' : UInt8) :: c = spell (isRooted front) (parts front ++ [c]) := by
    rw [hroot, ← hparts, ← clean_eq]
    exact h.symm
  have hspelled : front = spell (isRooted front) (parts front) := by
    by_cases hnil : parts front = []
    · -- only the root could stand before the name, and it would leave no part there
      exfalso
      have hone : Text.join "/" [c] = c := by simp [Text.join]
      rw [hnil, List.nil_append, spell, hone] at hpath
      split at hpath
      · rw [slash_eq, List.singleton_append, ← List.nil_append (('/' : UInt8) :: c),
          ← List.append_assoc]
            at hpath
        exact hfront (by simpa using List.append_cancel_right hpath)
      · rw [Text.orElse, if_neg (by simpa using hc.ne_nil)] at hpath
        exact hc.not_mem (by rw [← hpath]; simp)
    · rw [spell, join_concat hnil] at hpath
      rw [spell]
      split at hpath
      · rename_i hr
        rw [← List.append_assoc] at hpath
        rw [if_pos hr]
        exact List.append_cancel_right hpath
      · rename_i hr
        rw [Text.orElse, if_neg (by simp)] at hpath
        have hfront' := List.append_cancel_right hpath
        rw [if_neg hr, Text.orElse, ← hfront', if_neg (by simpa using hfront)]
  rw [clean_eq, cleanParts_of_resolved hresolved, ← hspelled]

end Path

namespace Disk

open HeaderBridge.Path (turn)

variable {d d' : Disk} {path : Text}

theorem isName_of_mem_spelled (h : ∀ c ∈ d.work, Path.IsName c) :
    ∀ c ∈ d.spelled path, Path.IsName c := by
  have hfold : ∀ cs p : List Text, (∀ c ∈ cs, Path.IsPart c) → (∀ c ∈ p, Path.IsName c) →
      ∀ c ∈ cs.foldl turn p, Path.IsName c := by
    intro cs
    induction cs with
    | nil =>
      intro p _ hp
      exact hp
    | cons c cs ih =>
      intro p hcs hp
      apply ih _ fun t ht => hcs t (List.mem_cons_of_mem c ht)
      intro t ht
      by_cases hup : c = Path.up
      · rw [turn, if_pos (by simpa using hup)] at ht
        exact hp t (List.dropLast_subset p ht)
      · have hc : Path.IsName c := ⟨hcs c List.mem_cons_self, hup⟩
        rw [Path.turn_name hc] at ht
        rcases List.mem_append.1 ht with ht | ht
        · exact hp t ht
        · rw [List.mem_singleton.1 ht]
          exact hc
  apply hfold _ _ fun c hc => Path.isPart_of_mem_parts hc
  split
  · simp
  · exact h

theorem spelled_of_absolute (h : ∀ c ∈ d.work, Path.IsName c) {path' : Text}
    (heq : Path.absolute d.workPath path = Path.absolute d.workPath path') :
    d.spelled path = d.spelled path' := by
  rw [absolute_workPath h, absolute_workPath h] at heq
  have hparts := congrArg Path.parts (List.append_cancel_left heq)
  rwa [Path.parts_join fun c hc => (isName_of_mem_spelled h c hc).toIsPart,
    Path.parts_join fun c hc => (isName_of_mem_spelled h c hc).toIsPart] at hparts

/-- A path that ends in a name spells that name in the folder that it stands in. -/
theorem spelled_tail (h : Path.IsName (Path.tail path)) :
    d.spelled path = d.spelled (Path.dir path) ++ [Path.tail path] := by
  obtain ⟨hroot, hparts⟩ := Path.split_tail h
  rw [Path.dir, spelled_clean, spelled_eq, spelled_eq, hroot, hparts, List.foldl_append,
    List.foldl_cons, List.foldl_nil, Path.turn_name h]

theorem spelled_dir (h : Path.IsName (Path.tail path)) :
    d.spelled (Path.dir path) = (d.spelled path).dropLast := by
  rw [spelled_tail h, List.dropLast_concat]

theorem stat_dir (wf : d.WellFormed) (h : Path.IsName (Path.tail path)) {e : Entry}
    (he : d.find? (d.spelled path) = some e) : d.stat (Path.dir path) = .ok .folder := by
  have hfolder := wf.parent he
  rw [← spelled_dir h, Path.dir, spelled_clean] at hfolder
  exact (stat_clean wf).2 hfolder

theorem find?_ups (wf : d.WellFormed) {p : Place} (hp : d.find? p = some .folder) (n : Nat) :
    d.find? ((List.replicate n Path.up).foldl turn p) = some .folder := by
  induction n generalizing p with
  | zero => exact hp
  | succ n ih =>
    apply ih
    have hparent := wf.parent hp
    simpa [turn] using hparent

theorem isName_tail (wf : d.WellFormed) (hclean : Path.clean path = path)
    (hnot : d.find? (d.spelled path) ≠ some .folder) : Path.IsName (Path.tail path) := by
  obtain ⟨n, names, hparts, hnames⟩ := Path.exists_cleanParts path
  have hplace : d.spelled path =
      (List.replicate n Path.up ++ names).foldl turn
        (if Path.isRooted path then [] else d.work) := by
    rw [← hparts, ← Path.parts_clean, hclean]
    rfl
  rcases List.eq_nil_or_concat names with rfl | ⟨front, c, rfl⟩
  · -- a path that only goes up leads to a folder
    rw [hplace, List.append_nil] at hnot
    exact absurd (find?_ups wf (start_folder wf path) n) hnot
  · have hne : Path.cleanParts path ≠ [] := by simp [hparts]
    have hlast : (Path.cleanParts path).getLast hne = c := by
      simp [hparts]
    rw [← hclean, Path.tail_clean hne, hlast]
    exact hnames c (by simp)

theorem dropTrailing_of_isName (h : Path.IsName (Path.tail path)) :
    Text.dropTrailing '/' path = path := by
  obtain ⟨n, hn⟩ := Text.dropTrailing_append '/' path
  cases n with
  | zero =>
    rw [List.replicate_zero, List.append_nil] at hn
    exact hn.symm
  | succ n =>
    have htail : Path.tail path = [] := by
      rw [List.replicate_succ', ← List.append_assoc] at hn
      rw [Path.tail, hn, Text.splitAt_append]
      simp [Text.splitAt]
    exact absurd htail h.ne_nil

theorem base_of_isName (h : Path.IsName (Path.tail path)) : Path.base path = Path.tail path := by
  have hne : path ≠ [] := by
    rintro rfl
    exact h.ne_nil rfl
  unfold Path.base Text.orElse
  rw [if_neg (by simpa using hne), dropTrailing_of_isName h, if_neg (by simpa using h.ne_nil)]

theorem parentText_eq (h : Path.IsName (Path.tail path)) :
    parentText path = (path.take (path.length - (Path.tail path).length)).dropLast := by
  unfold parentText
  rw [dropTrailing_of_isName h]

theorem find?_parent (wf : d.WellFormed) (h : Path.IsName (Path.tail path))
    (hparent : parentText path ≠ [] → d.stat (parentText path) = .ok .folder) :
    d.find? (d.spelled path).dropLast = some .folder := by
  have heq := parentText_eq h
  rw [← spelled_dir h, Path.dir, spelled_clean]
  rcases Path.take_tail path with ⟨-, htake⟩ | ⟨front, -, htake⟩
  · -- a name by itself stands in the folder that the program works in
    rw [htake]
    exact wf.work
  · rw [htake, List.dropLast_concat] at heq
    rw [htake]
    by_cases hfront : front = []
    · rw [hfront]
      rfl
    · have hplace : d.spelled (front ++ [('/' : UInt8)]) = d.spelled front := by
        rw [spelled_eq, spelled_eq, Path.isRooted_append hfront, Path.parts_slash]
      rw [hplace]
      rw [heq] at hparent
      exact (stat_eq_ok.1 (hparent hfront)).2

theorem clean_parentText (h : Path.IsName (Path.tail path)) (hclean : Path.clean path = path)
    (hne : parentText path ≠ []) : Path.clean (parentText path) = parentText path := by
  have heq := parentText_eq h
  rcases Path.take_tail path with ⟨-, htake⟩ | ⟨front, hpath, htake⟩
  · rw [htake] at heq
    exact absurd heq hne
  · rw [htake, List.dropLast_concat] at heq
    rw [heq] at hne ⊢
    exact Path.clean_of_append hne h (by rw [← hpath]; exact hclean)

/-- Where the folders above a path have been made, nothing stands in the way of one at the path: it
can be made, or it has been made with them. -/
theorem makeFolder_below {d₁ : Disk} (wf₁ : d₁.WellFormed) (hgrown : Grown d d₁)
    (hclean : Path.clean path = path) (hname : Path.IsName (Path.tail path))
    (hnone : d.find? (d.spelled path) = none)
    (hfolder : parentText path ≠ [] → d₁.stat (parentText path) = .ok .folder) :
    d₁.makeFolder path = .ok (d₁.put (d₁.spelled path) .folder) ∨
      d₁.makeFolder path = .error .alreadyThere ∧ d₁.isFolder path = true := by
  have hresolved : d₁.resolve path = .ok (d₁.spelled path) := by
    have := resolve_clean wf₁ (find?_parent wf₁ hname hfolder)
    rwa [hclean] at this
  have hplace : (Text.dropTrailing '/' path).orElse path = path := by
    rw [dropTrailing_of_isName hname, Text.orElse]
    split <;> rfl
  rcases hgrown.find? (d.spelled path) with hsame | ⟨-, hcame⟩
  · rw [hnone, ← spelled_congr hgrown.work] at hsame
    exact .inl (by simp [makeFolder, hplace, hresolved, hsame, bind, Except.bind])
  · rw [← spelled_congr hgrown.work] at hcame
    refine .inr ⟨by simp [makeFolder, hplace, hresolved, hcame, bind, Except.bind], ?_⟩
    exact isFolder_eq_true.2 (stat_eq_ok.2 ⟨hresolved, hcame⟩)

/-- A folder under a cleaned path is made, with all folders above it, or none of them is. -/
theorem makeFolders_of_clean (wf : d.WellFormed) {fuel : Nat} (hclean : Path.clean path = path)
    {failure : Text × DiskError} (h : d.makeFolders fuel path = (some failure, d')) : d' = d := by
  -- on the way up, as the folders are tried: the paths above stay clean
  induction fuel generalizing path failure d' with
  | zero =>
    cases h
    rfl
  | succ fuel ih =>
    rw [makeFolders] at h
    split at h
    · cases h
    · cases h
      rfl
    · rename_i e hstat
      have hnone : d.find? (d.spelled path) = none := by
        by_contra hsome
        obtain ⟨entry, hentry⟩ := Option.ne_none_iff_exists'.1 hsome
        rw [← hclean, (stat_clean wf).2 hentry] at hstat
        cases hstat
      have hname := isName_tail wf hclean (by simp [hnone])
      dsimp only at h
      split at h
      · rename_i habove
        cases h
        split at habove
        · cases habove
        · rename_i hne
          exact ih (clean_parentText hname hclean (by simpa using hne)) habove
      · -- once the folders above are there, nothing stands in the way of this one
        rename_i d₁ habove
        exfalso
        have hmade : d₁.WellFormed ∧ Grown d d₁ ∧
            (parentText path ≠ [] → d₁.stat (parentText path) = .ok .folder) := by
          split at habove
          · rename_i hnil
            cases habove
            exact ⟨wf, .refl d, fun hne => absurd (by simpa using hnil) hne⟩
          · obtain ⟨wf₁, hgrown, hfolder⟩ := makeFolders_grown wf habove
            exact ⟨wf₁, hgrown, fun _ => hfolder rfl⟩
        obtain ⟨wf₁, hgrown, hfolder⟩ := hmade
        rcases makeFolder_below wf₁ hgrown hclean hname hnone hfolder with hfree | ⟨htaken, hthere⟩
        · rw [hfree] at h
          cases h
        · rw [htaken] at h
          simp [hthere] at h

end Disk
end HeaderBridge
