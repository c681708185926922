import HeaderBridge.Proofs.Interface.Moves
import HeaderBridge.Proofs.Interface.Parts

namespace HeaderBridge

open Token

/-- The tokens, put where `g` puts them, span the same folded texts in `source'` as they do in
`source`. -/
def Token.SameSpans (g : Token → Token) (source source' : Text) (ts : List Token) : Prop :=
  ∀ us, us ⊆ ts → spanText source' (us.map g) = spanText source us

theorem Token.SameSpans.mono {g : Token → Token} {source source' : Text} {ts us : List Token}
    (h : SameSpans g source source' ts) (hus : us ⊆ ts) : SameSpans g source source' us :=
  fun vs hvs => h vs (List.Subset.trans hvs hus)

theorem Token.stop_le_strip (t : Text) :
    ∀ u ∈ significant (ofText t), u.stop ≤ (stripComments t).length := by
  intro u hu
  rw [stripComments, Lexeme.length_blankKinds]
  exact stop_le_length hu

theorem Text.slice_within {x y z : Text} {first last : Nat} (h : last ≤ y.length) :
    slice (x ++ y ++ z) (x.length + first) (x.length + last) = slice y first last := by
  have hlength : x.length + last - (x.length + first) = last - first := by omega
  have hnone : last - first - (y.length - first) = 0 := by omega
  rw [slice, slice, hlength, List.append_assoc, List.drop_length_add_append, List.drop_append,
    List.take_append, List.length_drop, hnone, List.take_zero, List.append_nil]

theorem Token.sameSpans_within {g : Token → Token} (hg : Moves g) {x y z : Text} {ts : List Token}
    (hoffset : ∀ t ∈ ts, (g t).pos.offset = x.length + t.pos.offset)
    (hstop : ∀ t ∈ ts, t.stop ≤ y.length) : SameSpans g y (x ++ y ++ z) ts := by
  intro us hus
  rw [spanText, spanText, List.head?_map, List.getLast?_map]
  cases hfirst : us.head? with
  | none => rfl
  | some first =>
    cases hlast : us.getLast? with
    | none => rfl
    | some last =>
      have hfirst := hoffset first (hus (List.mem_of_head? hfirst))
      have hlast := hus (List.mem_of_getLast? hlast)
      have hmoved : (g last).stop = x.length + last.stop := by
        rw [stop, stop, hg.text, hoffset last hlast, Nat.add_assoc]
      dsimp only [Option.map_some]
      rw [hfirst, hmoved, Text.slice_within (hstop last hlast)]

/-- Only where the bytes of the tokens stand matters for what they span. -/
theorem Token.sameSpans_of_offset {g : Token → Token} (hg : Moves g)
    (ho : ∀ t, (g t).pos.offset = t.pos.offset) (source : Text) (ts : List Token) :
    SameSpans g source source ts := by
  intro us _
  rw [spanText, spanText, List.head?_map, List.getLast?_map]
  cases us.head? with
  | none => rfl
  | some first =>
    cases us.getLast? with
    | none => rfl
    | some last => simp [stop, ho, hg.text]

namespace Parameter

theorem Commas.subset {parts : List (List Token)} {ts : List Token} (h : Commas parts ts) :
    ∀ part ∈ parts, part ⊆ ts :=
  fun part hpart => (h.sublist part hpart).subset

theorem splitDefault_subset (n : Nesting) (prev : Option Token) (ts : List Token) :
    (splitDefault n prev ts).1 ⊆ ts ∧ ∀ us ∈ (splitDefault n prev ts).2, us ⊆ ts := by
  rcases splitDefault_parts n prev ts with ⟨hnone, hts⟩ | ⟨equals, rest, _, hsome, hts⟩
  · refine ⟨fun t ht => hts ▸ ht, fun us hus => ?_⟩
    simp [hnone] at hus
  · refine ⟨fun t ht => hts ▸ List.mem_append_left _ ht, fun us hus => ?_⟩
    obtain rfl : rest = us := by simpa [hsome] using hus
    intro t ht
    rw [hts]
    exact List.mem_append_right _ (List.mem_cons_of_mem equals ht)

theorem eq_of_groupName? {inner before : List Token} {name : Token}
    (h : groupName? inner = some (before, name)) : inner = before ++ [name] := by
  unfold groupName? at h
  split at h
  · rename_i first last prev more _ hreverse
    split at h
    · obtain ⟨rfl, rfl⟩ := Prod.mk.inj (Option.some.inj h)
      rw [← List.reverse_reverse inner, hreverse, List.reverse_cons]
    · simp at h
  · simp at h

theorem eq_of_groupedFrom {n : Nesting} {seen ts : List Token} {found : Named}
    (h : groupedFrom n seen ts = some found) :
    seen.reverse ++ ts = found.before ++ found.name :: found.after := by
  fun_induction groupedFrom n seen ts with
  | case1 => simp at h
  | case2 => simp_all
  | case3 n seen t ts ht inner after hclose =>
    obtain ⟨close, tail, rfl, _, hts⟩ := eq_of_closeParen hclose
    obtain ⟨⟨before, name⟩, hg, rfl⟩ := Option.map_eq_some_iff.1 h
    simp [hts, eq_of_groupName? hg]
  | case4 n seen t ts ht ih => simpa using ih h

theorem eq_around_name {decl : List Token} {found : Named} (h : findName decl = some found) :
    decl = found.before ++ found.name :: found.after := by
  have hgrouped (hg : groupedName decl = some found) : decl = found.before ++
      found.name :: found.after := by
    cases decl with
    | nil => simp [groupedName] at hg
    | cons t ts => simpa using eq_of_groupedFrom hg
  unfold findName at h
  split at h
  · simp at h
  · exact hgrouped h
  · rename_i last seen hbounds
    split at h
    · exact hgrouped h
    · split at h
      · obtain rfl := Option.some.inj h
        -- the bounds behind the name are what the reversed list lost
        obtain ⟨bounds, hdecl⟩ := suffix_of_dropBounds hbounds
        have hdecl : decl = seen.reverse ++ last :: bounds.reverse := by
          rw [← List.reverse_reverse decl, ← hdecl]
          simp
        have hlen : seen.length + 1 = (seen.reverse ++ [last]).length := by simp
        have hdrop : decl.drop (seen.length + 1) = bounds.reverse := by
          rw [hdecl, hlen, List.append_cons seen.reverse last bounds.reverse, List.drop_left]
        rw [hdrop]
        exact hdecl
      · simp at h

section Transfer

variable {g : Token → Token} (hg : Moves g) {source source' : Text} {ts : List Token}
include hg

theorem ofTokens_transfer (h : SameSpans g source source' ts) :
    ofTokens source' (ts.map g) = ofTokens source ts := by
  obtain ⟨hdecl, hdefault⟩ := splitDefault_subset {} none ts
  have hcut := splitDefault_map hg {} none ts
  rw [Option.map_none] at hcut
  have hvalue : ((splitDefault {} none ts).2.map (List.map g)).map (spanText source') =
      (splitDefault {} none ts).2.map (spanText source) := by
    cases hd : (splitDefault {} none ts).2 with
    | none => rfl
    | some us => exact congrArg some (h us (hdefault us hd))
  simp only [ofTokens, hcut, hvalue, findName_map hg, h _ hdecl]
  cases hfound : findName (splitDefault {} none ts).1 with
  | none => rfl
  | some found =>
    have hparts := eq_around_name hfound
    have hbefore : found.before ⊆ ts := fun t ht => hdecl (hparts ▸ List.mem_append_left _ ht)
    have hafter : found.after ⊆ ts := fun t ht =>
      hdecl (hparts ▸ List.mem_append_right _ (List.mem_cons_of_mem found.name ht))
    simp [Named.map, h _ hbefore, h _ hafter, hg.text]

theorem listOfTokens_transfer (h : SameSpans g source source' ts) :
    listOfTokens source' (ts.map g) = listOfTokens source ts := by
  have hvoid : isVoidList (ts.map g) = isVoidList ts := by
    match ts with
    | [] => rfl
    | [t] => exact hg.isWord t "void"
    | _ :: _ :: _ => rfl
  have hparts : (segments ts).map (fun part => ofTokens source' (part.map g)) =
      (segments ts).map (ofTokens source) :=
    List.map_congr_left fun part hpart =>
      ofTokens_transfer hg (h.mono ((commas_segments ts).subset part hpart))
  simp only [listOfTokens, hvoid, List.isEmpty_map, segments_map hg, List.map_map,
    Function.comp_def, hparts]

end Transfer

end Parameter

namespace Method

def lower (n : Nat) (m : Method) : Method := { m with line := m.line + n }

def virtualWord : Token := ⟨.ident, "virtual", Pos.start⟩

theorem declaration?_subset {ts : List Token} {d : Declaration} (h : declaration? ts = some d) :
    d.type ⊆ ts ∧ d.params ⊆ ts ∧ d.rest ⊆ ts := by
  obtain ⟨s, _, rfl, hread⟩ := exists_site (rfl : virtualWord.isWord "virtual" = true) h
  obtain ⟨zero, semicolon, _, htokens⟩ := hread.tokens
  refine ⟨fun t ht => ?_, fun t ht => ?_, fun t ht => ?_⟩
  all_goals
    rw [htokens]
    simp [Site.written, ht]

@[simp] theorem lower_zero : lower 0 = id := by
  funext m
  simp [lower]

theorem suffix_of_declaration? {ts : List Token} {d : Declaration} (h : declaration? ts = some d) :
    d.rest <:+ ts := by
  obtain ⟨s, _, rfl, hread⟩ := exists_site (rfl : virtualWord.isWord "virtual" = true) h
  obtain ⟨zero, semicolon, _, htokens⟩ := hread.tokens
  exact ⟨s.written ++ [s.mark, zero, semicolon], by simp [htokens]⟩

section Transfer

variable {g : Token → Token} (hg : Moves g) {source source' : Text}
include hg

theorem ofDeclaration_transfer {d : Declaration} (htype : SameSpans g source source' d.type)
    (hparams : SameSpans g source source' d.params) (line : Nat) :
    ofDeclaration source' line (d.map g) = ofDeclaration source line d := by
  simp [ofDeclaration, Declaration.map, htype d.type (List.Subset.refl _), hg.text,
    Parameter.listOfTokens_transfer hg hparams]

/-- The same methods are read from the same tokens in another text, `n` lines further down. -/
theorem collect_transfer {n : Nat} (depth : Nat) {ts : List Token}
    (hline : ∀ t ∈ ts, (g t).pos.line = t.pos.line + n) (h : SameSpans g source source' ts) :
    collect source' depth (ts.map g) = (collect source depth ts).map (lower n) := by
  induction depth, ts using collect_induction with
  | done => simp [collect]
  | passed depth t ts hnone ih =>
    have hdepth : openAfter '{' '}' depth (g t) = openAfter '{' '}' depth t := by
      rw [openAfter, openAfter, hg.isPunct, hg.isPunct]
    rw [List.map_cons, collect_step, collect_step, declared?_map hg, hnone, hdepth]
    exact ih (fun u hu => hline u (List.mem_cons_of_mem t hu)) (h.mono (List.subset_cons_self t ts))
  | declared t ts d hd ih =>
    obtain ⟨_, _, hread⟩ := declared?_eq_some.1 hd
    obtain ⟨htype, hparams, hrest⟩ := declaration?_subset hread
    have hspans := h.mono (List.subset_cons_self t ts)
    have hmethod : ofDeclaration source' (g t).pos.line (d.map g) =
        (ofDeclaration source t.pos.line d).lower n := by
      rw [ofDeclaration_transfer hg (hspans.mono htype) (hspans.mono hparams),
        hline t (List.mem_cons_self ..)]
      simp [ofDeclaration, lower]
    have hbehind := ih (fun u hu => hline u (List.mem_cons_of_mem t (hrest hu))) (hspans.mono hrest)
    rw [List.map_cons, collect_step, collect_step, declared?_map hg, hd]
    dsimp only [Option.map_some, List.map_cons]
    rw [hmethod]
    exact congrArg (List.cons _) hbehind

end Transfer

end Method
end HeaderBridge
