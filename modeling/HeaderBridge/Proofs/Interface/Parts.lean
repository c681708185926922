import HeaderBridge.Proofs.Interface.Collector
import HeaderBridge.Proofs.Interface.Nesting
import HeaderBridge.Proofs.Source.Row

namespace HeaderBridge

open Token

namespace Parameter

/-- The parts, with commas between them, are the tokens. -/
inductive Commas : List (List Token) → List Token → Prop
  | last (part : List Token) : Commas [part] part
  | cons {part ts : List Token} {parts : List (List Token)} {comma : Token}
      (hcomma : comma.isPunct ',' = true)
      (h : Commas parts ts) : Commas (part :: parts) (part ++ comma :: ts)

theorem Commas.push {parts : List (List Token)} {ts : List Token} (t : Token)
    (h : Commas parts ts) : Commas (parts.modifyHead (t :: ·)) (t :: ts) := by
  cases h with
  | last => exact .last _
  | cons hcomma h => exact .cons hcomma h

theorem commas_splitCommas (n : Nesting) (prev : Option Token) (ts : List Token) :
    Commas (splitCommas n prev ts).1 ts := by
  induction ts generalizing n prev with
  | nil => exact .last []
  | cons t ts ih =>
    rw [splitCommas]
    split
    · rename_i hcomma
      exact .cons (Bool.and_eq_true_iff.1 hcomma).1 (ih _ _)
    · exact (ih _ _).push t

theorem commas_segments (ts : List Token) : Commas (segments ts) ts := by
  unfold segments
  dsimp only
  split
  · exact commas_splitCommas _ _ ts
  · exact commas_splitCommas _ _ ts

theorem Commas.sublist {parts : List (List Token)} {ts : List Token} (h : Commas parts ts) :
    ∀ part ∈ parts, part.Sublist ts := by
  induction h with
  | last part => simp
  | @cons part ts parts comma hcomma h ih =>
    intro p hp
    rcases List.mem_cons.1 hp with rfl | hp
    · exact List.sublist_append_left _ _
    · exact ((ih p hp).cons comma).trans (List.sublist_append_right part _)

/-- A parameter is its declaration, with an equals sign and a default argument behind it if it has
one. -/
theorem splitDefault_parts (n : Nesting) (prev : Option Token) (ts : List Token) :
    (splitDefault n prev ts).2 = none ∧ ts = (splitDefault n prev ts).1 ∨
      ∃ equals rest, equals.isPunct '=' = true ∧ (splitDefault n prev ts).2 = some rest ∧
        ts = (splitDefault n prev ts).1 ++ equals :: rest := by
  induction ts generalizing n prev with
  | nil => exact .inl ⟨rfl, rfl⟩
  | cons t ts ih =>
    rw [splitDefault]
    split
    · rename_i hequals
      exact .inr ⟨t, ts, (Bool.and_eq_true_iff.1 hequals).1, rfl, rfl⟩
    · rcases ih (n.step prev t) (some t) with ⟨hnone, hts⟩ | ⟨equals, rest, hequals, hsome, hts⟩
      · exact .inl ⟨hnone, congrArg (t :: ·) hts⟩
      · exact .inr ⟨equals, rest, hequals, hsome, congrArg (t :: ·) hts⟩

theorem suffix_of_dropBounds {depth : Nat} {ts rest : List Token}
    (h : dropBounds depth ts = some rest) : rest <:+ ts := by
  fun_induction dropBounds depth ts with
  | case1 =>
    obtain rfl := Option.some.inj h
    exact List.suffix_rfl
  | case2 => simp at h
  | case3 t ts ht ih => exact (ih h).trans (List.suffix_cons t ts)
  | case4 t ts ht =>
    obtain rfl := Option.some.inj h
    exact List.suffix_rfl
  | case5 depth t ts ht ih => exact (ih h).trans (List.suffix_cons t ts)
  | case6 depth t ts ht ht' ih => exact (ih h).trans (List.suffix_cons t ts)
  | case7 depth t ts ht ht' ih => exact (ih h).trans (List.suffix_cons t ts)

theorem after_ne_nil_of_groupedFrom {n : Nesting} {seen ts : List Token} {found : Named}
    (h : groupedFrom n seen ts = some found) : found.after ≠ [] := by
  fun_induction groupedFrom n seen ts with
  | case1 => simp at h
  | case2 => simp_all
  | case3 n seen t ts ht inner after hclose =>
    obtain ⟨close, tail, rfl, _⟩ := eq_of_closeParen hclose
    obtain ⟨g, _, rfl⟩ := Option.map_eq_some_iff.1 h
    simp
  | case4 n seen t ts ht ih => exact ih h

theorem eq_of_findName {decl : List Token} {found : Named} (h : findName decl = some found)
    (hafter : found.after = []) :
    decl = found.before ++ [found.name] ∧ found.name.isIdent = true := by
  have hgrouped : groupedName decl ≠ some found := by
    intro hg
    cases decl with
    | nil => simp [groupedName] at hg
    | cons t ts => exact after_ne_nil_of_groupedFrom hg hafter
  unfold findName at h
  split at h
  · simp at h
  · exact absurd h hgrouped
  · rename_i last seen hbounds
    split at h
    · exact absurd h hgrouped
    · rename_i hident
      split at h
      · obtain rfl := Option.some.inj h
        have hsuffix := suffix_of_dropBounds hbounds
        have hlen : decl.length ≤ seen.length + 1 := List.drop_eq_nil_iff.1 hafter
        have heq : last :: seen = decl.reverse :=
          hsuffix.eq_of_length_le (by simpa using hlen)
        refine ⟨?_, by simpa using hident⟩
        rw [← List.reverse_reverse decl, ← heq, List.reverse_cons]
      · simp at h

end Parameter
namespace Method

theorem eq_of_splitParams {angle : Nat} {prev : Option Token} {ts head rest : List Token}
    (h : splitParams angle prev ts = some (head, rest)) :
    ∃ opener, opener.isPunct '(' = true ∧ ts = head ++ opener :: rest := by
  induction ts generalizing angle prev head with
  | nil => simp [splitParams] at h
  | cons t ts ih =>
    have hstep {a : Nat}
        (ha : (splitParams a (some t) ts).map (fun r => (t :: r.1, r.2)) = some (head, rest)) :
        ∃ opener, opener.isPunct '(' = true ∧ t :: ts = head ++ opener :: rest := by
      obtain ⟨⟨head', rest'⟩, hr, he⟩ := Option.map_eq_some_iff.1 ha
      obtain ⟨rfl, rfl⟩ := Prod.mk.inj he
      obtain ⟨opener, hopen, hts⟩ := ih hr
      exact ⟨opener, hopen, by rw [hts, List.cons_append]⟩
    rw [splitParams] at h
    split at h
    · exact hstep h
    · exact hstep h
    · rename_i hsign
      split at h
      · obtain ⟨rfl, rfl⟩ := Prod.mk.inj (Option.some.inj h)
        exact ⟨t, isPunct_of_sign? hsign, rfl⟩
      · exact hstep h
    · simp at h
    · simp at h
    · simp at h
    · simp at h
    · exact hstep h

def qualifierWords (isConst isNoexcept : Bool) : List Lexeme :=
  (if isConst then [⟨.ident, "const"⟩] else []) ++ if isNoexcept then [⟨.ident, "noexcept"⟩] else []

theorem takeWord_parts (w : String) (ts : List Token) : ∃ words, ts = words ++ (takeWord w ts).2 ∧
    words.map lexeme = if (takeWord w ts).1 then [⟨.ident, (w : Text)⟩] else [] := by
  cases ts with
  | nil => exact ⟨[], rfl, rfl⟩
  | cons t ts =>
    rw [takeWord]
    split
    · rename_i hw
      obtain ⟨hk, ht⟩ := isWord_iff.1 hw
      exact ⟨[t], rfl, by simp [lexeme, hk, ht]⟩
    · exact ⟨[], rfl, rfl⟩

/-- What makes a declaration pure stands between its qualifiers and the next declaration. -/
structure PureMark (mark zero semicolon : Token) : Prop where
  mark : mark.isPunct '=' = true
  zero : zero.lexeme = ⟨.number, "0"⟩
  semicolon : semicolon.isPunct ';' = true

theorem eq_of_afterPureMark {ts rest : List Token} (h : afterPureMark ts = some rest) :
    ∃ mark zero semicolon, PureMark mark zero semicolon ∧
    ts = mark :: zero :: semicolon :: rest := by
  unfold afterPureMark at h
  split at h
  · rename_i a b c r
    split at h
    · rename_i hmark
      obtain rfl := Option.some.inj h
      simp only [Bool.and_eq_true, beq_iff_eq] at hmark
      obtain ⟨⟨ha, hb⟩, hc⟩ := hmark
      exact ⟨a, b, c, ⟨ha, by rw [lexeme, hb.1, hb.2], hc⟩, rfl⟩
    · simp at h
  · simp at h

theorem eq_of_readTail {ts rest : List Token} {c n : Bool} (h : readTail ts = some (c, n, rest)) :
    ∃ qualifiers mark zero semicolon, qualifiers.map lexeme = qualifierWords c n ∧
      PureMark mark zero semicolon ∧ ts = qualifiers ++ mark :: zero :: semicolon :: rest := by
  simp only [readTail, Option.map_eq_some_iff, Prod.mk.injEq] at h
  obtain ⟨r, hr, rfl, rfl, rfl⟩ := h
  obtain ⟨mark, zero, semicolon, hmark, hrest⟩ := eq_of_afterPureMark hr
  obtain ⟨consts, hconst, hconstWords⟩ := takeWord_parts "const" ts
  obtain ⟨noexcepts, hnoexcept, hnoexceptWords⟩ := takeWord_parts "noexcept" (takeWord "const" ts).2
  refine ⟨consts ++ noexcepts, mark, zero, semicolon, ?_, hmark, ?_⟩
  · rw [List.map_append, hconstWords, hnoexceptWords, qualifierWords]
  · rw [List.append_assoc, ← hrest, ← hnoexcept, ← hconst]

/-- A declaration with the tokens around its parts. -/
structure Site where
  keyword : Token
  decl : Declaration
  opener : Token
  close : Token
  qualifiers : List Token
  mark : Token

namespace Site

/-- The tokens between the word `virtual` and the mark. -/
def written (s : Site) : List Token :=
  s.decl.type ++ s.decl.name :: s.opener :: (s.decl.params ++ s.close :: s.qualifiers)

/-- The tokens that a written method has to show: a list that is only the word `void` is left
out. -/
def kept (s : Site) : List Token :=
  s.decl.type ++ s.decl.name :: s.opener ::
    ((if Parameter.isVoidList s.decl.params then [] else s.decl.params) ++ s.close :: s.qualifiers)

/-- The site was read from the tokens behind its keyword. -/
structure ReadFrom (s : Site) (ts : List Token) : Prop where
  keyword : s.keyword.isWord "virtual" = true
  read : declaration? ts = some s.decl
  tokens : ∃ zero semicolon, PureMark s.mark zero semicolon ∧
    ts = s.written ++ s.mark :: zero :: semicolon :: s.decl.rest
  type : s.decl.type ≠ []
  name : s.decl.name.isIdent = true
  opener : s.opener.isPunct '(' = true
  close : s.close.isPunct ')' = true
  qualifiers : s.qualifiers.map lexeme = qualifierWords s.decl.isConst s.decl.isNoexcept

end Site

theorem parts_of_declaration? {ts : List Token} {d : Declaration} (h : declaration? ts = some d) :
    ∃ afterOpen close prev, splitParams 0 none ts = some (d.type ++ [d.name], afterOpen) ∧
      d.type.getLast? = some prev ∧ isMethodName prev d.name = true ∧
      closeParen 0 afterOpen = some (d.params, close) ∧
      readTail close.tail = some (d.isConst, d.isNoexcept, d.rest) := by
  unfold declaration? at h
  split at h
  · simp at h
  · rename_i head afterOpen hsplit
    split at h
    · rename_i name prev more hhead
      split at h
      · simp at h
      · rename_i hname
        split at h
        · simp at h
        · rename_i params close hclose
          obtain ⟨⟨c, n, rest⟩, htail, rfl⟩ := Option.map_eq_some_iff.1 h
          have hdecl : head = (prev :: more).reverse ++ [name] := by
            rw [← List.reverse_reverse head, hhead, List.reverse_cons]
          exact ⟨afterOpen, close, prev, hdecl ▸ hsplit, by simp, by simpa using hname,
            hclose, htail⟩
    · simp at h

theorem exists_site {keyword : Token} (hkeyword : keyword.isWord "virtual" = true) {ts : List Token}
    {d : Declaration} (h : declaration? ts = some d) :
    ∃ s : Site, s.keyword = keyword ∧ s.decl = d ∧ s.ReadFrom ts := by
  obtain ⟨afterOpen, close, prev, hsplit, hprev, hname, hclose, htail⟩ := parts_of_declaration? h
  obtain ⟨opener, hopen, hts⟩ := eq_of_splitParams hsplit
  obtain ⟨closer, tail, rfl, hcloser, hparams⟩ := eq_of_closeParen hclose
  obtain ⟨qualifiers, mark, zero, semicolon, hwords, hmark, htokens⟩ := eq_of_readTail htail
  have hident : d.name.isIdent = true := by
    simp only [isMethodName, Bool.and_eq_true] at hname
    exact hname.1.1.1
  have htype : d.type ≠ [] := by
    intro hnil
    simp [hnil] at hprev
  have hwritten : ts = d.type ++ d.name :: opener ::
      (d.params ++ closer :: (qualifiers ++ mark :: zero :: semicolon :: d.rest)) := by
    rw [List.tail_cons] at htokens
    rw [hts, hparams, ← htokens]
    simp
  refine ⟨⟨keyword, d, opener, closer, qualifiers, mark⟩, rfl, rfl, ?_⟩
  exact ⟨hkeyword, h, ⟨zero, semicolon, hmark, by simpa [Site.written] using hwritten⟩, htype,
    hident, hopen, hcloser, hwords⟩

/-- The method that the declaration at a site describes. -/
def Site.method (source : Text) (s : Site) : Method :=
  ofDeclaration source s.keyword.pos.line s.decl

/-- The methods of a list of tokens are those of the sites in it, in order. -/
theorem exists_sites (source : Text) (depth : Nat) (ts : List Token) :
    ∃ sites : List Site, collect source depth ts = sites.map (Site.method source) ∧
      (sites.map Site.keyword).Sublist ts ∧
      ∀ s ∈ sites, ∃ before behind, ts = before ++ s.keyword :: behind ∧ s.ReadFrom behind := by
  induction depth, ts using collect_induction with
  | done => exact ⟨[], by simp [collect], by simp, by simp⟩
  | passed depth t ts hnone ih =>
    obtain ⟨sites, hcollect, horder, hsites⟩ := ih
    refine ⟨sites, by rw [collect_step, hnone, hcollect], horder.cons t, fun s hs => ?_⟩
    obtain ⟨before, behind, rfl, hread⟩ := hsites s hs
    exact ⟨t :: before, behind, rfl, hread⟩
  | declared t ts d hd ih =>
    obtain ⟨_, hvirtual, hdecl⟩ := declared?_eq_some.1 hd
    obtain ⟨s, rfl, rfl, hread⟩ := exists_site hvirtual hdecl
    obtain ⟨zero, semicolon, _, htokens⟩ := hread.tokens
    obtain ⟨sites, hcollect, horder, hsites⟩ := ih
    have hts : ts = (s.written ++ [s.mark, zero, semicolon]) ++ s.decl.rest := by simp [htokens]
    refine ⟨s :: sites, ?_, ?_, List.forall_mem_cons.2 ⟨?_, fun s' hs' => ?_⟩⟩
    · rw [collect_step, hd]
      exact congrArg (List.cons _) hcollect
    · rw [List.map_cons, hts]
      exact (horder.trans (List.sublist_append_right _ _)).cons_cons s.keyword
    · exact ⟨[], ts, rfl, hread⟩
    · -- what stands behind the rest of one declaration stands behind the declaration
      obtain ⟨before, behind, hrest, hread'⟩ := hsites s' hs'
      refine ⟨s.keyword :: (s.written ++ [s.mark, zero, semicolon] ++ before), behind, ?_, hread'⟩
      simp [hts, hrest]

end Method
end HeaderBridge
