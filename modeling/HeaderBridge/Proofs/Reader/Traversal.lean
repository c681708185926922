import HeaderBridge.Proofs.Disk.Enclosing
import HeaderBridge.Proofs.Reader.Current

namespace HeaderBridge

namespace Text

variable {b : UInt8} {part : Text} {ts : List Text}

theorem infix_append_cons (hb : b ∉ part) (x y : Text) :
    part <:+: x ++ b :: y ↔ part <:+: x ∨ part <:+: y := by
  rw [List.infix_append_iff]
  constructor
  · rintro (h | h | ⟨front, last, rfl, hfront, hlast⟩)
    · exact .inl h
    · rcases List.infix_cons_iff.1 h with hprefix | h
      · rcases List.prefix_cons_iff.1 hprefix with rfl | ⟨rest, rfl, -⟩
        · exact .inl List.nil_infix
        · exact absurd List.mem_cons_self hb
      · exact .inr h
    · -- what reaches over the cut has the separator in it
      rcases List.prefix_cons_iff.1 hlast with rfl | ⟨rest, rfl, -⟩
      · rw [List.append_nil]
        exact .inl hfront.isInfix
      · exact absurd (List.mem_append_right front List.mem_cons_self) hb
  · rintro (h | h)
    · exact .inl h
    · exact .inr (.inl (List.infix_cons h))

/-- What has no separator in it stands in one of the texts that are joined. -/
theorem infix_join_iff (hb : b ∉ part) (hpart : part ≠ []) :
    part <:+: join [b] ts ↔ ∃ t ∈ ts, part <:+: t := by
  induction ts with
  | nil => simp [join, List.intercalate, hpart]
  | cons t ts ih =>
    rw [join, intercalate_cons]
    by_cases hts : ts = []
    · simp [hts]
    · rw [if_neg hts, List.singleton_append, infix_append_cons hb, ← join, ih]
      simp

end Text

namespace Path

variable {p : Text}

theorem eq_up_of_mem_cleanParts {before behind : List Text}
    (h : cleanParts p = before ++ up :: behind) : ∀ c ∈ before, c = up := by
  obtain ⟨n, names, hparts, hnames⟩ := exists_cleanParts p
  rw [hparts] at h
  intro c hc
  rcases List.append_eq_append_iff.1 h with ⟨rest, rfl, hnamed⟩ | ⟨rest, hups, -⟩
  · -- the part that goes up would be a name
    have hmem : up ∈ names := by simp [hnamed]
    exact absurd rfl (hnames up hmem).ne_up
  · have hmem : c ∈ List.replicate n up := by simp [hups, hc]
    exact List.eq_of_mem_replicate hmem

/-- Two dots in a row stand in some part of the cleaned path, and the path does not begin with two
dots. -/
def Dotted (p : Text) : Prop :=
  (∃ c ∈ cleanParts p, up <:+: c) ∧ (isRooted p = true ∨ ∀ c ∈ (cleanParts p).head?, ¬ up <+: c)

instance : DecidablePred Dotted := fun _ => inferInstanceAs (Decidable (_ ∧ (_ ∨ _)))

theorem up_eq : up = [('.' : UInt8), ('.' : UInt8)] := by decide

theorem here_eq : here = [('.' : UInt8)] := by decide

theorem slash_not_mem_up : ('/' : UInt8) ∉ up := by decide

theorem infix_clean : up <:+: clean p ↔ ∃ c ∈ cleanParts p, up <:+: c := by
  have hjoin : up <:+: Text.join "/" (cleanParts p) ↔ ∃ c ∈ cleanParts p, up <:+: c := by
    rw [slash_eq]
    exact Text.infix_join_iff slash_not_mem_up (by decide)
  rw [clean_eq, spell, ← hjoin]
  split
  · have hnil : ¬ up <:+: ([] : Text) := by decide
    have hcut := Text.infix_append_cons slash_not_mem_up [] (Text.join "/" (cleanParts p))
    rw [slash_eq] at hcut ⊢
    exact hcut.trans (or_iff_right hnil)
  · unfold Text.orElse
    split
    · rename_i hempty
      rw [List.isEmpty_iff.1 hempty]
      decide
    · rfl

/-- What a step up begins with is not a part, unless it is the whole of it. -/
theorem eq_up_of_prefix_up {c : Text} (hc : IsPart c) (h : c <+: up) : c = up := by
  have hne := hc.ne_here
  rw [up_eq] at h ⊢
  rw [here_eq] at hne
  rcases List.prefix_cons_iff.1 h with rfl | ⟨rest, rfl, hrest⟩
  · exact absurd rfl hc.ne_nil
  · rcases List.prefix_cons_iff.1 hrest with rfl | ⟨more, rfl, hmore⟩
    · exact absurd rfl hne
    · rw [List.prefix_nil.1 hmore]

theorem prefix_clean :
    up <+: clean p ↔ isRooted p = false ∧ ∃ c ∈ (cleanParts p).head?, up <+: c := by
  have hparts : ∀ c ∈ cleanParts p, IsPart c := fun c hc => isPart_of_mem_cleanParts hc
  rw [clean_eq, spell]
  cases hroot : isRooted p with
  | true =>
    refine iff_of_false (fun h => ?_) (by simp)
    rw [up_eq, slash_eq] at h
    exact absurd (List.cons_prefix_cons.1 h).1 (by decide)
  | false =>
    rw [if_neg (by simp)]
    cases hcs : cleanParts p with
    | nil => simp [Text.join, List.intercalate, Text.orElse, up_eq, here_eq]
    | cons c rest =>
      rw [hcs] at hparts
      have hc := hparts c List.mem_cons_self
      have hjoin : Text.orElse (Text.join "/" (c :: rest)) here = Text.join "/" (c :: rest) := by
        rw [Text.orElse, if_neg (by simpa using Disk.join_parts_ne_nil (by simp) hparts)]
      rw [hjoin, Text.join, Text.intercalate_cons]
      simp only [true_and, List.head?_cons, Option.mem_some_iff, exists_eq_left']
      constructor
      · intro h
        rcases List.prefix_or_prefix_of_prefix h (List.prefix_append c _) with h | h
        · exact h
        · obtain rfl := eq_up_of_prefix_up hc h
          exact List.prefix_rfl
      · intro h
        exact h.trans (List.prefix_append c _)

theorem isTraversal_clean : Reader.isTraversal (clean p) = true ↔ Dotted p := by
  rw [Reader.isTraversal, Bool.and_eq_true, Bool.not_eq_true', ← Bool.not_eq_true,
    List.isPrefixOf_iff_prefix, Text.hasBlock_iff, prefix_clean, Dotted]
  change up <:+: clean p ∧ _ ↔ _
  rw [infix_clean, not_and_or, Bool.not_eq_false]
  simp

end Path

namespace Reader

variable {d : Disk} {path content : Text} {stamp : Stamp}

def refusal (path : Text) : Fault :=
  .ofNotice <|
    Notice.note { code := .fileSystem, message := "path traversal not allowed in file path: " ++
      path }
    "path" (.text path)

theorem message_refusal (path : Text) :
    (refusal path).message = "path traversal not allowed in file path: " ++ path := rfl

theorem check_of_file (wf : d.WellFormed) (h : d.stat path = .ok (.file content stamp)) :
    check d path = if Path.Dotted path then .error (refusal path) else .ok (Path.clean path) := by
  have hpath : path ≠ [] := by
    rintro rfl
    cases h
  have hclean : d.stat (Path.clean path) = .ok (.file content stamp) :=
    (Disk.stat_clean wf).2 (Disk.stat_eq_ok.1 h).2
  rw [check, if_neg (by simpa using hpath)]
  dsimp only
  rw [hclean]
  by_cases hdots : Path.Dotted path
  · rw [if_pos hdots, if_pos (Path.isTraversal_clean.2 hdots)]
    rfl
  · rw [if_neg hdots, if_neg (mt Path.isTraversal_clean.1 hdots)]

/-- A file is refused exactly if two dots in a row stand in a part of its cleaned path that does not
begin with two dots, although no cleaned path goes up behind a part that does not; every other file
is read. -/
theorem read_refused_iff (wf : d.WellFormed) (h : d.stat path = .ok (.file content stamp))
    (r : Reader) : (∀ before behind, Path.parts (Path.clean path) = before ++ Path.up :: behind →
      ∀ c ∈ before, c = Path.up) ∧
    ((∃ f, (r.read d path).1 = .error f ∧
      f.message = "path traversal not allowed in file path: " ++ path) ↔ Path.Dotted path) ∧
    (¬ Path.Dotted path → plain d path = .ok content ∧ ∃ t, (r.read d path).1 = .ok t) := by
  have hcheck := check_of_file wf h
  have hread : ¬ Path.Dotted path → plain d path = .ok content ∧
      ∃ t, (r.read d path).1 = .ok t := by
    intro hdots
    rw [if_neg hdots] at hcheck
    have hclean : d.stat (Path.clean path) = .ok (.file content stamp) :=
      (Disk.stat_clean wf).2 (Disk.stat_eq_ok.1 h).2
    obtain ⟨item, hitem, -⟩ := exists_item_of_check r hcheck hclean
    rw [plain, hcheck]
    exact ⟨load_of_stat hclean, item.value, hitem⟩
  refine ⟨fun before behind hparts => ?_, ⟨?_, fun hdots => ?_⟩, hread⟩
  · rw [Path.parts_clean] at hparts
    exact Path.eq_up_of_mem_cleanParts hparts
  · rintro ⟨f, hf, -⟩
    by_contra hdots
    obtain ⟨-, t, ht⟩ := hread hdots
    rw [ht] at hf
    cases hf
  · rw [if_pos hdots] at hcheck
    rw [read_of_check_error hcheck]
    exact ⟨refusal path, rfl, message_refusal path⟩

/-- Three headers with dots in their names or in those of their folders. -/
def dottedHeaders : Disk :=
  ((Disk.empty.install "a..b.h" "first" 0).install "v1/x..y/../IShape.h" "second" 0).install
    "..lib/c..d.h" "third" 0

theorem read_refused_iff_headers : dottedHeaders.WellFormed ∧
    dottedHeaders.stat "/work/..lib//c..d.h" = .ok (.file "third" (.second 0)) ∧
    (∃ f, (({} : Reader).read dottedHeaders "/work/..lib//c..d.h").1 = .error f) ∧
    dottedHeaders.stat "v1/../v1/IShape.h" = .ok (.file "second" (.second 0)) ∧
    plain dottedHeaders "v1/../v1/IShape.h" = .ok "second" ∧
    dottedHeaders.stat "./..lib/c..d.h" = .ok (.file "third" (.second 0)) ∧
    plain dottedHeaders "./..lib/c..d.h" = .ok "third" := by
  have wf : dottedHeaders.WellFormed := by decide +kernel
  have hrooted : dottedHeaders.stat "/work/..lib//c..d.h" = .ok (.file "third" (.second 0)) := by
    decide +kernel
  have hup : dottedHeaders.stat "v1/../v1/IShape.h" = .ok (.file "second" (.second 0)) := by
    decide +kernel
  have hleading : dottedHeaders.stat "./..lib/c..d.h" = .ok (.file "third" (.second 0)) := by
    decide +kernel
  obtain ⟨f, hf, -⟩ := (read_refused_iff wf hrooted {}).2.1.2 (by decide +kernel)
  exact ⟨wf, hrooted, ⟨f, hf⟩, hup, ((read_refused_iff wf hup {}).2.2 (by decide +kernel)).1,
    hleading, ((read_refused_iff wf hleading {}).2.2 (by decide +kernel)).1⟩

/-- A header whose only part is a name is refused as if its path went up. -/
theorem read_refuses_name : dottedHeaders.stat "a..b.h" = .ok (.file "first" (.second 0)) ∧
    Path.parts (Path.clean "a..b.h") = [("a..b.h" : Text)] ∧ Path.IsName "a..b.h" ∧
    ∃ f, (({} : Reader).read dottedHeaders "a..b.h").1 = .error f ∧
      f.message = "path traversal not allowed in file path: a..b.h" :=
  ⟨by decide +kernel, by decide +kernel, by decide +kernel, refusal "a..b.h", by rfl,
    by decide +kernel⟩

end Reader
end HeaderBridge
