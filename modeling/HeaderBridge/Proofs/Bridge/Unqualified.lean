import HeaderBridge.Bridge.Forwarding
import HeaderBridge.Proofs.Text.Words
import Mathlib.Logic.Relation

namespace HeaderBridge

variable {t u v : Text}

/-- What may stand between a type and a qualifier behind it: a space, or nothing where the type ends
in a sign, as in `Foo*const`. -/
def Gap (t gap : Text) : Prop :=
  gap = [(' ' : UInt8)] ∨ gap = [] ∧ ∃ b ∈ t.getLast?, Text.isNameByte b = false ∧ b ≠ ' '

/-- One qualifier is shed, at the front or at the back. -/
inductive Sheds : Text → Text → Prop
  | front {q : Text} (hq : q ∈ leadingQualifiers) (t : Text) : Sheds (q ++ (' ' : UInt8) :: t) t
  | back {q t gap : Text} (hq : q ∈ trailingQualifiers) (hgap : Gap t gap) : Sheds (t ++ gap ++ q) t

theorem space_not_mem : ∀ q ∈ leadingQualifiers, (' ' : UInt8) ∉ q := by decide

theorem ne_nil_of_leading : ∀ q ∈ leadingQualifiers, q ≠ [] := by decide

theorem trailing_subset : trailingQualifiers ⊆ leadingQualifiers := by decide

theorem trailing_suffix : ∀ q ∈ trailingQualifiers, ∀ q' ∈ leadingQualifiers, q <:+ q' →
    q = q' := by decide

theorem not_high_of_trailing : ∀ q ∈ trailingQualifiers, ∀ b ∈ q.head?, Text.isHigh b = false := by
  intro q hq b hb
  obtain rfl | rfl := List.mem_pair.mp hq <;> cases hb <;> rfl

namespace Sheds

theorem length_lt (h : Sheds t u) : u.length < t.length := by
  cases h with
  | front hq t => simp only [List.length_append, List.length_cons]; omega
  | back hq hgap =>
    have := List.length_pos_iff.2 (ne_nil_of_leading _ (trailing_subset hq))
    simp only [List.length_append]
    omega

theorem folded (h : Sheds t u) (hfold : Text.collapse t = t) : Text.collapse u = u := by
  cases h with
  | front hq t => exact (Text.collapse_gap hfold).2.1
  | @back q t gap hq hgap =>
    rcases hgap with rfl | ⟨rfl, b, hb, -, hspace⟩
    · rw [List.append_assoc, List.singleton_append] at hfold
      exact (Text.collapse_gap hfold).1.1
    · rw [List.append_nil] at hfold
      refine Text.collapse_front hfold (not_high_of_trailing q hq) ?_
      rw [Option.mem_def.1 hb]
      exact fun h => hspace (Option.some.inj h)

theorem not_of_qualifier (ht : t ∈ leadingQualifiers) : ¬ Sheds t u := by
  intro h
  cases h with
  | front hq u => exact space_not_mem _ ht (by simp)
  | @back q u gap hq hgap =>
    have heq := trailing_suffix q hq _ ht (List.suffix_append _ _)
    have hnil : u ++ gap = [] := List.append_left_eq_self.1 heq.symm
    obtain ⟨rfl, rfl⟩ := List.append_eq_nil_iff.1 hnil
    rcases hgap with hgap | ⟨-, b, hb, -⟩
    · cases hgap
    · cases hb

/-- A qualifier at the front and one at the back do not see each other, if there is anything between
them. -/
theorem meet_front_back {q q' gap : Text} (hq : q ∈ leadingQualifiers)
    (hq' : q' ∈ trailingQualifiers) (hgap : Gap v gap)
    (h : q ++ (' ' : UInt8) :: u = v ++ gap ++ q') (hfold : Text.collapse v = v) :
    (∃ w, Sheds u w ∧ Sheds v w) ∨ u ∈ leadingQualifiers ∧ v ∈ leadingQualifiers := by
  have hplain : ∀ {x y : Text}, q' ≠ x ++ (' ' : UInt8) :: y := fun {x y} heq =>
    space_not_mem q' (trailing_subset hq') (heq ▸ by simp)
  rw [List.append_assoc] at h
  rcases List.append_eq_append_iff.1 h with ⟨rest, hv, hrest⟩ | ⟨rest, hv, hrest⟩
  · cases rest with
    | nil =>
      -- nothing is between the two: the text is a qualifier, a gap and a qualifier
      rw [List.nil_append] at hrest
      rw [List.append_nil] at hv
      rcases hgap with rfl | ⟨rfl, -⟩
      · obtain ⟨-, rfl⟩ := List.cons.inj hrest
        exact .inr ⟨trailing_subset hq', hv ▸ hq⟩
      · exact absurd hrest.symm (hplain (x := []))
    | cons b rest =>
      obtain ⟨rfl, rfl⟩ := List.cons.inj hrest
      subst hv
      obtain ⟨-, -, hne⟩ := Text.collapse_gap hfold
      left
      refine ⟨rest, ?_, .front hq rest⟩
      have hback : Sheds (rest ++ gap ++ q') rest := by
        refine .back hq' ?_
        rcases hgap with hgap | ⟨hgap, b, hb, hb'⟩
        · exact .inl hgap
        · refine .inr ⟨hgap, b, ?_, hb'⟩
          rw [List.getLast?_append, List.getLast?_cons_of_ne_nil hne] at hb
          cases hlast : rest.getLast? with
          | none => exact absurd (List.getLast?_eq_none_iff.1 hlast) hne
          | some b' => rwa [hlast] at hb
      rwa [List.append_assoc] at hback
  · rcases hgap with rfl | ⟨rfl, -⟩
    · cases rest with
      | nil =>
        obtain ⟨-, rfl⟩ := List.cons.inj hrest
        rw [List.append_nil] at hv
        exact .inr ⟨trailing_subset hq', hv ▸ hq⟩
      | cons b rest =>
        obtain ⟨rfl, -⟩ := List.cons.inj hrest
        exact absurd (by rw [hv]; simp) (space_not_mem q hq)
    · exact absurd hrest hplain

theorem meet_front_front {q q' : Text} (hq : q ∈ leadingQualifiers) (hq' : q' ∈ leadingQualifiers)
    (h : q ++ (' ' : UInt8) :: u = q' ++ (' ' : UInt8) :: v) : u = v := by
  rcases List.append_eq_append_iff.1 h with ⟨rest, hrest, heq⟩ | ⟨rest, hrest, heq⟩
  · cases rest with
    | nil => exact (List.cons.inj heq).2
    | cons b rest =>
      obtain ⟨rfl, -⟩ := List.cons.inj heq
      exact absurd (by rw [hrest]; simp) (space_not_mem q' hq')
  · cases rest with
    | nil => exact (List.cons.inj heq).2.symm
    | cons b rest =>
      obtain ⟨rfl, -⟩ := List.cons.inj heq
      exact absurd (by rw [hrest]; simp) (space_not_mem q hq)

theorem meet_back_back {q q' gap gap' : Text} (hq : q ∈ trailingQualifiers)
    (hq' : q' ∈ trailingQualifiers) (hgap : Gap u gap) (hgap' : Gap v gap')
    (h : u ++ gap ++ q = v ++ gap' ++ q') : u = v := by
  have hsuffix : q <:+ u ++ gap ++ q := List.suffix_append _ _
  have hsuffix' : q' <:+ u ++ gap ++ q := h ▸ List.suffix_append _ _
  have hsame : q = q' := by
    rcases List.suffix_or_suffix_of_suffix hsuffix hsuffix' with hs | hs
    · exact trailing_suffix q hq q' (trailing_subset hq') hs
    · exact (trailing_suffix q' hq' q (trailing_subset hq) hs).symm
  rw [hsame] at h
  have hfront := List.append_cancel_right h
  -- a type that ends in a sign has no space at its end
  have hends : ∀ {x y : Text}, (∃ b ∈ x.getLast?, Text.isNameByte b = false ∧ b ≠ ' ') →
      x ≠ y ++ [(' ' : UInt8)] := by
    rintro x y ⟨b, hb, -, hspace⟩ rfl
    rw [List.getLast?_concat] at hb
    exact hspace (Option.some.inj hb).symm
  rcases hgap with rfl | ⟨rfl, hsign⟩ <;> rcases hgap' with rfl | ⟨rfl, hsign'⟩
  · exact List.append_cancel_right hfront
  · exact absurd (by simpa using hfront.symm) (hends (y := u) hsign')
  · exact absurd (by simpa using hfront) (hends (y := v) hsign)
  · simpa using hfront

/-- Two ways to shed a qualifier lead to the same text, at once or after one more, unless nothing
but two qualifiers was there. -/
theorem meet (hfold : Text.collapse t = t) (hu : Sheds t u) (hv : Sheds t v) :
    u = v ∨ (∃ w, Sheds u w ∧ Sheds v w) ∨ u ∈ leadingQualifiers ∧ v ∈ leadingQualifiers := by
  have hfoldu := hu.folded hfold
  have hfoldv := hv.folded hfold
  cases hu with
  | @front q hq =>
    generalize ht : q ++ (' ' : UInt8) :: u = t at hv
    cases hv with
    | @front q' hq' => exact .inl (meet_front_front hq hq' ht)
    | @back q' v gap hq' hgap => exact .inr (meet_front_back hq hq' hgap ht hfoldv)
  | @back q u gap hq hgap =>
    generalize ht : u ++ gap ++ q = t at hv
    cases hv with
    | @front q' hq' =>
      rcases meet_front_back hq' hq hgap ht.symm hfoldu with ⟨w, hw, hw'⟩ | ⟨hv, hu⟩
      · exact .inr (.inl ⟨w, hw', hw⟩)
      · exact .inr (.inr ⟨hu, hv⟩)
    | @back q' v gap' hq' hgap' => exact .inl (meet_back_back hq hq' hgap hgap' ht)

open Relation (ReflTransGen)

theorem folded_run (h : ReflTransGen Sheds t u) (hfold : Text.collapse t = t) :
    Text.collapse u = u := by
  induction h with
  | refl => exact hfold
  | tail _ hstep ih => exact hstep.folded ih

theorem length_le (h : ReflTransGen Sheds t u) : u.length ≤ t.length := by
  induction h with
  | refl => exact Nat.le_refl _
  | tail _ hstep ih => exact Nat.le_trans (Nat.le_of_lt hstep.length_lt) ih

def Bare (t : Text) : Prop := ∀ u, ¬ Sheds t u

theorem eq_of_bare (ht : Bare t) (h : ReflTransGen Sheds t u) : u = t := by
  rcases h.cases_head with rfl | ⟨w, hw, -⟩
  · rfl
  · exact absurd hw (ht w)

/-- Whatever is shed first, the same is left in the end, unless that is a qualifier. -/
theorem confluent {s : Text} (hfold : Text.collapse t = t) (hs : Bare s)
    (hplain : s ∉ leadingQualifiers) (h : ReflTransGen Sheds t s) (hu : ReflTransGen Sheds t u) :
    ReflTransGen Sheds u s := by
  -- on the length of the text: where two ways part they meet again in a shorter text
  induction hn : t.length using Nat.strong_induction_on generalizing t u with
  | _ n ih =>
    subst hn
    have hstep : ∀ {v}, Sheds t v → ReflTransGen Sheds v s := by
      intro v hv
      rcases h.cases_head with rfl | ⟨w, hw, hws⟩
      · exact absurd hv (hs v)
      · rcases meet hfold hw hv with rfl | ⟨x, hwx, hvx⟩ | ⟨hq, -⟩
        · exact hws
        · exact .head hvx (ih _ hw.length_lt (hw.folded hfold) hws (.single hwx) rfl)
        · rw [eq_of_bare (fun _ => not_of_qualifier hq) hws] at hplain
          exact absurd hq hplain
    rcases hu.cases_head with rfl | ⟨v, hv, hvu⟩
    · exact h
    · exact ih _ hv.length_lt (hv.folded hfold) (hstep hv) hvu rfl

end Sheds
open Relation (ReflTransGen)

theorem dropLeading_cases {q : Text} (hq : q ∈ leadingQualifiers) :
    dropLeading t q = t ∨ Sheds t (dropLeading t q) := by
  unfold dropLeading
  by_cases hprefix : q ++ (" " : Text) <+: t
  · obtain ⟨rest, rfl⟩ := hprefix
    right
    rw [Text.after?_append, Option.getD_some, List.append_assoc]
    exact .front hq rest
  · left
    rw [Text.after?, if_neg (by simpa using hprefix), Option.getD_none]

theorem dropTrailing_cases (hfold : Text.collapse t = t) {q : Text} (hq : q ∈ trailingQualifiers) :
    dropTrailing t q = t ∨ Sheds t (dropTrailing t q) := by
  unfold dropTrailing
  by_cases hsuffix : q <:+ t
  · obtain ⟨rest, rfl⟩ := hsuffix
    rw [Text.before?_append]
    dsimp only
    split
    · rename_i hends
      right
      rcases List.eq_nil_or_concat rest with rfl | ⟨front, b, rfl⟩
      · cases hends
      rw [List.concat_eq_append] at hfold hends ⊢
      have hname : Text.isNameByte b = false := by simpa using hends
      by_cases hspace : b = ' '
      · rw [hspace, List.append_assoc, List.singleton_append] at hfold
        obtain ⟨⟨hfront, hne⟩, -⟩ := Text.collapse_gap hfold
        rw [hspace, Text.trim_space hfront hne]
        exact .back hq (.inl rfl)
      · have hlast : (front ++ [b]).getLast? = some b := List.getLast?_concat
        have hrest : Text.collapse (front ++ [b]) = front ++ [b] := by
          apply Text.collapse_front hfold (not_high_of_trailing q hq)
          rw [hlast]
          exact fun h => hspace (Option.some.inj h)
        rw [Text.trim_of_folded hrest]
        have hback : Sheds (front ++ [b] ++ [] ++ q) (front ++ [b]) :=
          .back hq (.inr ⟨rfl, b, hlast, hname, hspace⟩)
        rwa [List.append_nil] at hback
    · exact .inl rfl
  · left
    rw [Text.before?, if_neg (by simpa using hsuffix)]

def rules : List (Text → Text) :=
  (leadingQualifiers.map fun q t => dropLeading t q) ++ trailingQualifiers.map fun q t =>
    dropTrailing t q

theorem dropQualifiers_eq (t : Text) : dropQualifiers t = rules.foldl (fun t rule => rule t) t := by
  rw [rules, List.foldl_append, List.foldl_map, List.foldl_map]
  rfl

theorem rule_cases (hfold : Text.collapse t = t) :
    ∀ rule ∈ rules, rule t = t ∨ Sheds t (rule t) := by
  intro rule hrule
  rcases List.mem_append.1 hrule with hrule | hrule
  · obtain ⟨q, hq, rfl⟩ := List.mem_map.1 hrule
    exact dropLeading_cases hq
  · obtain ⟨q, hq, rfl⟩ := List.mem_map.1 hrule
    exact dropTrailing_cases hfold hq

theorem Sheds.exists_rule (h : Sheds t u) (hfold : Text.collapse t = t) :
    ∃ rule ∈ rules, rule t = u := by
  have hu := h.folded hfold
  cases h with
  | @front q hq =>
    refine ⟨fun t => dropLeading t q, List.mem_append_left _ (List.mem_map.2 ⟨q, hq, rfl⟩), ?_⟩
    have hsplit : q ++ (' ' : UInt8) :: u = (q ++ (" " : Text)) ++ u := by
      rw [List.append_assoc]
      rfl
    change (Text.after? (q ++ " ") (q ++ (' ' : UInt8) :: u)).getD _ = u
    rw [hsplit, Text.after?_append, Option.getD_some]
  | @back q u gap hq hgap =>
    refine ⟨fun t => dropTrailing t q, List.mem_append_right _ (List.mem_map.2 ⟨q, hq, rfl⟩), ?_⟩
    change dropTrailing (u ++ gap ++ q) q = u
    unfold dropTrailing
    rw [Text.before?_append]
    dsimp only
    rcases hgap with rfl | ⟨rfl, b, hb, hname, -⟩
    · rw [List.append_assoc, List.singleton_append] at hfold
      rw [if_pos (by simp; decide), Text.trim_space hu (Text.collapse_gap hfold).1.2]
    · rw [List.append_nil, Option.mem_def.1 hb, if_pos (by simp [hname]), Text.trim_of_folded hu]

theorem run_foldl {fs : List (Text → Text)} (hfs : fs ⊆ rules) (hfold : Text.collapse t = t) :
    ReflTransGen Sheds t (fs.foldl (fun t rule => rule t) t) := by
  induction fs generalizing t with
  | nil => exact .refl
  | cons rule fs ih =>
    have hrest : fs ⊆ rules := fun f hf => hfs (List.mem_cons_of_mem _ hf)
    rw [List.foldl_cons]
    rcases rule_cases hfold rule (hfs List.mem_cons_self) with heq | hstep
    · rw [heq]
      exact ih hrest hfold
    · exact .head hstep (ih hrest (hstep.folded hfold))

theorem run_dropQualifiers (hfold : Text.collapse t = t) :
    ReflTransGen Sheds t (dropQualifiers t) := by
  rw [dropQualifiers_eq]
  exact run_foldl (List.Subset.refl _) hfold

theorem bare_of_pass (hfold : Text.collapse t = t)
    (hpass : ¬ (dropQualifiers t).length < t.length) : Sheds.Bare t := by
  intro u hu
  obtain ⟨rule, hrule, rfl⟩ := hu.exists_rule hfold
  obtain ⟨before, behind, hrules⟩ := List.append_of_mem hrule
  apply hpass
  rw [dropQualifiers_eq, hrules, List.foldl_append, List.foldl_cons]
  have hbefore : before ⊆ rules := by
    rw [hrules]
    exact List.subset_append_left _ _
  have hbehind : behind ⊆ rules := by
    rw [hrules]
    exact fun f hf => List.mem_append_right _ (List.mem_cons_of_mem _ hf)
  have hfirst := run_foldl hbefore hfold
  -- the rules before it leave the text as it is, or have shortened it already
  rcases hfirst.cases_head with heq | ⟨v, hv, hrest⟩
  · rw [← heq]
    exact Nat.lt_of_le_of_lt (Sheds.length_le (run_foldl hbehind (hu.folded hfold))) hu.length_lt
  · have hmiddle := Sheds.folded_run hfirst hfold
    have hlater : ReflTransGen Sheds (before.foldl (fun t rule => rule t) t)
        (behind.foldl (fun t rule => rule t) (rule (before.foldl (fun t rule => rule t) t))) := by
      have hrun := run_foldl (List.cons_subset.2 ⟨hrule, hbehind⟩) hmiddle
      rwa [List.foldl_cons] at hrun
    exact Nat.lt_of_le_of_lt (Sheds.length_le (hrest.trans hlater)) hv.length_lt

theorem dropAllQualifiers_spec (hfold : Text.collapse t = t) :
    ReflTransGen Sheds t (dropAllQualifiers t) ∧ Sheds.Bare (dropAllQualifiers t) := by
  fun_induction dropAllQualifiers t with
  | case1 t hshorter ih =>
    have hpass := run_dropQualifiers hfold
    obtain ⟨hrun, hbare⟩ := ih (Sheds.folded_run hpass hfold)
    exact ⟨hpass.trans hrun, hbare⟩
  | case2 t hpass => exact ⟨.refl, bare_of_pass hfold hpass⟩

theorem dropQualifiers_of_bare (hfold : Text.collapse t = t) (hbare : Sheds.Bare t) :
    dropQualifiers t = t :=
  Sheds.eq_of_bare hbare (run_dropQualifiers hfold)

theorem exists_passes (t : Text) : ∃ n, dropAllQualifiers t = dropQualifiers^[n] t := by
  fun_induction dropAllQualifiers t with
  | case1 t hshorter ih =>
    obtain ⟨n, hn⟩ := ih
    exact ⟨n + 1, by rw [hn, Function.iterate_succ_apply]⟩
  | case2 t hpass => exact ⟨0, rfl⟩

theorem stripQualifiers_spec (type : Text) :
    ReflTransGen Sheds (Text.collapse type) (stripQualifiers type) ∧
    Sheds.Bare (stripQualifiers type) :=
  dropAllQualifiers_spec (Text.collapse_collapse type)

theorem collapse_stripQualifiers (type : Text) :
    Text.collapse (stripQualifiers type) = stripQualifiers type :=
  Sheds.folded_run (stripQualifiers_spec type).1 (Text.collapse_collapse type)

theorem stripQualifiers_strip (type : Text) :
    stripQualifiers (stripQualifiers type) = stripQualifiers type := by
  have hrun := (stripQualifiers_spec (stripQualifiers type)).1
  rw [collapse_stripQualifiers] at hrun
  exact Sheds.eq_of_bare (stripQualifiers_spec type).2 hrun

theorem run_front {qs ws : List Text} (hqs : ∀ q ∈ qs, q ∈ leadingQualifiers) (hws : ws ≠ []) :
    ReflTransGen Sheds (Text.join " " (qs ++ ws)) (Text.join " " ws) := by
  induction qs with
  | nil => exact .refl
  | cons q qs ih =>
    have hq : Sheds (Text.join " " (q :: (qs ++ ws))) (Text.join " " (qs ++ ws)) := by
      rw [← List.singleton_append, Text.join_append " " (by simp) (by simp [hws])]
      have hone : Text.join " " [q] = q := by simp [Text.join]
      rw [hone, List.append_assoc]
      exact .front (hqs q List.mem_cons_self) _
    exact .head hq (ih fun q' hq' => hqs q' (List.mem_cons_of_mem _ hq'))

theorem run_back {qs ws : List Text} (hqs : ∀ q ∈ qs, q ∈ trailingQualifiers) (hws : ws ≠ []) :
    ReflTransGen Sheds (Text.join " " (ws ++ qs)) (Text.join " " ws) := by
  induction qs using List.reverseRecOn with
  | nil => rw [List.append_nil]
  | append_singleton qs q ih =>
    have hq : Sheds (Text.join " " (ws ++ qs ++ [q])) (Text.join " " (ws ++ qs)) := by
      rw [Text.join_append " " (by simp [hws]) (by simp)]
      have hone : Text.join " " [q] = q := by simp [Text.join]
      rw [hone]
      exact .back (hqs q (by simp)) (.inl rfl)
    rw [← List.append_assoc]
    exact .head hq (ih fun q' hq' => hqs q' (by simp [hq']))

theorem stripQualifiers_around {type before after : Text} (hne : stripQualifiers type ≠ [])
    (hplain : stripQualifiers type ∉ leadingQualifiers)
    (hbefore : ∀ q ∈ Text.words before, q ∈ leadingQualifiers)
    (hafter : ∀ q ∈ Text.words after, q ∈ trailingQualifiers) :
    stripQualifiers (before ++ " " ++ type ++ " " ++ after) = stripQualifiers type := by
  have hwords : Text.words (before ++ " " ++ type ++ " " ++ after) =
      Text.words before ++ (Text.words type ++ Text.words after) := by
    have hsplit : before ++ " " ++ type ++ " " ++ after =
        before ++ (' ' : UInt8) :: (type ++ (' ' : UInt8) :: after) := by
      simp only [List.append_assoc]
      rfl
    rw [hsplit, Text.words_append, Text.words_append]
  obtain ⟨hrun, hbare⟩ := stripQualifiers_spec type
  have htype : Text.words type ≠ [] := by
    intro hnil
    apply hne
    have hempty : Text.collapse type = [] := by rw [Text.collapse, hnil]; rfl
    rw [hempty] at hrun
    have := Sheds.length_le hrun
    exact List.length_eq_zero_iff.1 (Nat.le_zero.1 this)
  have hdropped : ReflTransGen Sheds (Text.collapse (before ++ " " ++ type ++ " " ++ after))
      (Text.collapse type) := by
    rw [Text.collapse, Text.collapse, hwords]
    exact (run_front hbefore (by simp [htype])).trans (run_back hafter htype)
  obtain ⟨hrun', hbare'⟩ := stripQualifiers_spec (before ++ " " ++ type ++ " " ++ after)
  have hmeet := Sheds.confluent (Text.collapse_collapse _) hbare hplain (hdropped.trans hrun) hrun'
  exact (Sheds.eq_of_bare hbare' hmeet).symm

theorem fallbackValue_eq_nil (type : Text) : fallbackValue type = [] ↔ isVoid type = true := by
  unfold fallbackValue isVoid
  dsimp only
  have hbraces : ∀ x : Text, x ++ ("\x7b\x7d" : Text) ≠ [] := fun x =>
    List.append_ne_nil_of_right_ne_nil x (by decide)
  have hdecay : ∀ x : Text, x ++ (">\x7b\x7d" : Text) ≠ [] := fun x =>
    List.append_ne_nil_of_right_ne_nil x (by decide)
  have hwords : ∀ x ∈ (["nullptr", "false", "0.0f", "0.0", "0"] : List Text), x ≠ [] := by decide
  simp only [List.mem_cons, List.not_mem_nil, or_false, forall_eq_or_imp, forall_eq] at hwords
  obtain ⟨hpointer, hbool, hfloat, hdouble, hinteger⟩ := hwords
  constructor
  · intro h
    by_contra hvoid
    rw [if_neg hvoid] at h
    split_ifs at h
    · exact hdecay _ h
    · exact hpointer h
    · exact hbool h
    · exact hfloat h
    · exact hdouble h
    · exact hinteger h
    · exact hbraces _ h
  · intro h
    rw [if_pos h]

/-- The fallback of a type that is no reference is told by the type without its qualifiers. -/
theorem fallbackValue_congr {type type' : Text} (h : stripQualifiers type' = stripQualifiers type)
    (href : isReference (stripQualifiers type) = false) :
    fallbackValue type' = fallbackValue type := by
  unfold fallbackValue
  simp only [h, href, Bool.false_eq_true, if_false]

/-- The fallback of a return type depends on the type without its qualifiers: passes over the text
come to an end at a text that a further pass, or stripping it once more, leaves as it is; only
`void` has no fallback; and qualifiers around a type that is no reference and no qualifier itself
change neither the fallback nor whether there is one. -/
theorem fallbackValue_unqualified (type : Text) :
    ((∃ n, stripQualifiers type = dropQualifiers^[n] (Text.collapse type)) ∧
      dropQualifiers (stripQualifiers type) = stripQualifiers type) ∧
    stripQualifiers (stripQualifiers type) = stripQualifiers type ∧
    (∀ type', Text.collapse type' = Text.collapse type →
      stripQualifiers type' = stripQualifiers type) ∧
    (fallbackValue type = [] ↔ isVoid type = true) ∧
    (∀ (m : Method) (call : Text), m.returnType = type → isVoid type = false →
      isReference type = false →
      m.bodyText .guarded call = "return impl_ ? " ++ call ++ " : " ++ fallbackValue type ++ ";" ∧
        fallbackValue type ≠ []) ∧
    (stripQualifiers type ≠ [] → stripQualifiers type ∉ leadingQualifiers →
      isReference (stripQualifiers type) = false → ∀ before after : Text,
      (∀ q ∈ Text.words before, q ∈ leadingQualifiers) →
      (∀ q ∈ Text.words after, q ∈ trailingQualifiers) →
        fallbackValue (before ++ " " ++ type ++ " " ++ after) = fallbackValue type ∧
          isVoid (before ++ " " ++ type ++ " " ++ after) = isVoid type) := by
  obtain ⟨-, hbare⟩ := stripQualifiers_spec type
  refine ⟨⟨exists_passes _, dropQualifiers_of_bare (collapse_stripQualifiers type) hbare⟩,
    stripQualifiers_strip type,
    fun type' h => by rw [stripQualifiers, h, ← stripQualifiers], fallbackValue_eq_nil type, ?_, ?_⟩
  · intro m call hm hvoid href
    refine ⟨?_, fun hnil => ?_⟩
    · simp only [Method.bodyText, hm, hvoid, href, Bool.false_eq_true, if_false]
    · rw [(fallbackValue_eq_nil type).1 hnil] at hvoid
      cases hvoid
  · intro hne hplain href before after hbefore hafter
    have hstrip := stripQualifiers_around hne hplain hbefore hafter
    exact ⟨fallbackValue_congr hstrip href, by rw [isVoid, isVoid, hstrip]⟩

/-- Qualifiers on both sides of a constant pointer, over several lines. -/
theorem fallbackValue_unqualified_pointer : stripQualifiers "Foo *const" = ("Foo *" : Text) ∧
    fallbackValue ("static const\n" ++ " " ++ "Foo *const" ++ " " ++ "volatile\tconst") =
      "nullptr" := by
  have hstrip : stripQualifiers "Foo *const" = ("Foo *" : Text) := by decide +kernel
  have hvalue : fallbackValue "Foo *const" = ("nullptr" : Text) := by decide +kernel
  obtain ⟨-, -, -, -, -, haround⟩ := fallbackValue_unqualified "Foo *const"
  rw [hstrip, hvalue] at haround
  refine ⟨hstrip, (haround (by decide) (by decide) (by decide +kernel) _ _ ?_ ?_).1⟩
  · decide +kernel
  · decide +kernel

end HeaderBridge
