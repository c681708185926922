import HeaderBridge.Proofs.Interface.Views

namespace HeaderBridge

namespace Token

/-- The tokens before each brace that has no closer among the tokens, the outermost brace first and
the nearest token first. The tokens `seen` stand before all of them. -/
def openBraces : List Token → List Token → List (List Token)
  | _, [] => []
  | seen, t :: ts =>
    if t.isPunct '{' && (matchBrace 0 ts).isNone then seen :: openBraces (t :: seen) ts
    else openBraces (t :: seen) ts

/-- The braces as a machine keeps them that reads one token after the other, the innermost first.
The tokens read come last one first. -/
def braceStack : List Token → List (List Token)
  | [] => []
  | t :: seen =>
    if t.isPunct '{' then seen :: braceStack seen
    else if t.isPunct '}' then (braceStack seen).tail
    else braceStack seen

def unmatched : List Token → Nat
  | [] => 0
  | t :: ts =>
    if t.isPunct '{' then unmatched ts - 1 else if t.isPunct '}' then unmatched ts + 1
    else unmatched ts

theorem matchBrace_eq_none {depth : Nat} {ts : List Token} :
    matchBrace depth ts = none ↔ unmatched ts ≤ depth := by
  induction ts generalizing depth with
  | nil => simp [matchBrace, unmatched]
  | cons t ts ih =>
    rw [unmatched]
    cases hopen : t.isPunct '{' with
    | true =>
      rw [matchBrace_open ts hopen, Option.map_eq_none_iff, ih, if_pos rfl]
      omega
    | false =>
      cases hclose : t.isPunct '}' with
      | true =>
        rw [if_neg (by simp), if_pos rfl]
        cases depth with
        | zero => simp [matchBrace_close ts hclose]
        | succ depth =>
          rw [matchBrace_close_succ ts hclose, Option.map_eq_none_iff, ih]
          omega
      | false =>
        rw [matchBrace_other ts hopen hclose, Option.map_eq_none_iff, ih, if_neg (by simp),
          if_neg (by simp)]

/-- What is read leaves its own open braces on the stack, and takes off it what it closes. -/
theorem braceStack_append (ts seen : List Token) :
    braceStack (ts.reverse ++ seen) = (openBraces seen ts).reverse ++
      (braceStack seen).drop (unmatched ts) := by
  induction ts generalizing seen with
  | nil => rfl
  | cons t ts ih =>
    rw [List.reverse_cons, List.append_assoc, List.singleton_append, ih, braceStack, openBraces,
      unmatched]
    cases hopen : t.isPunct '{' with
    | true =>
      simp only [Bool.true_and, if_true]
      -- the brace stays open if nothing behind it closes it
      split
      · rename_i hnone
        have hzero : unmatched ts = 0 :=
          Nat.le_zero.1 (matchBrace_eq_none.1 (Option.isNone_iff_eq_none.1 hnone))
        simp [hzero]
      · rename_i hsome
        have hpos : ¬unmatched ts ≤ 0 := by
          rw [← matchBrace_eq_none, ← Option.isNone_iff_eq_none]
          exact hsome
        obtain ⟨n, hn⟩ : ∃ n, unmatched ts = n + 1 := ⟨unmatched ts - 1, by omega⟩
        rw [hn, List.drop_succ_cons, Nat.add_sub_cancel]
    | false =>
      simp only [Bool.false_and, Bool.false_eq_true, if_false]
      split
      · rw [List.drop_tail]
      · rfl

theorem braceStack_reverse (ts : List Token) :
    braceStack ts.reverse = (openBraces [] ts).reverse := by
  have := braceStack_append ts []
  rwa [List.append_nil, braceStack, List.drop_nil, List.append_nil] at this

theorem braceStack_of_nests {depth : Nat} {ts : List Token} (h : nests depth ts = true)
    (seen : List Token) : braceStack (ts.reverse ++ seen) = (braceStack seen).drop depth := by
  induction ts generalizing depth seen with
  | nil =>
    obtain rfl : depth = 0 := by simpa [nests] using h
    rfl
  | cons t ts ih =>
    rw [nests] at h
    rw [List.reverse_cons, List.append_assoc, List.singleton_append]
    split at h
    · rw [ih h, braceStack, if_pos ‹_›, List.drop_succ_cons]
    · split at h
      · rw [Bool.and_eq_true, bne_iff_ne] at h
        obtain ⟨d, rfl⟩ : ∃ d, depth = d + 1 := ⟨depth - 1, by omega⟩
        rw [ih h.2, braceStack, if_neg ‹_›, if_pos ‹_›, List.drop_tail, Nat.add_sub_cancel]
      · rw [ih h, braceStack, if_neg ‹_›, if_neg ‹_›]

theorem nests_of_matchBrace {depth : Nat} {ts inner after : List Token} {closer : Token}
    (h : matchBrace depth ts = some (inner, closer, after)) :
    nests (depth + 1) (inner ++ [closer]) = true := by
  induction ts generalizing depth inner with
  | nil => simp [matchBrace] at h
  | cons t ts ih =>
    have hstep {d : Nat}
        (hd : (matchBrace d ts).map (fun r => (t :: r.1, r.2)) = some (inner, closer, after)) :
        ∃ more, inner = t :: more ∧ nests (d + 1) (more ++ [closer]) = true := by
      obtain ⟨⟨more, rest⟩, hr, he⟩ := Option.map_eq_some_iff.1 hd
      obtain ⟨rfl, rfl⟩ := Prod.mk.inj he
      exact ⟨more, rfl, ih hr⟩
    cases hopen : t.isPunct '{' with
    | true =>
      obtain ⟨more, rfl, hmore⟩ := hstep ((matchBrace_open ts hopen depth).symm.trans h)
      rw [List.cons_append, nests, if_pos hopen, hmore]
    | false =>
      cases hclose : t.isPunct '}' with
      | false =>
        obtain ⟨more, rfl, hmore⟩ := hstep ((matchBrace_other ts hopen hclose depth).symm.trans h)
        rw [List.cons_append, nests, hopen, hclose]
        exact hmore
      | true =>
        cases depth with
        | succ depth =>
          obtain ⟨more, rfl, hmore⟩ := hstep ((matchBrace_close_succ ts hclose depth).symm.trans h)
          rw [List.cons_append, nests, hopen, hclose]
          exact hmore
        | zero =>
          rw [matchBrace_close ts hclose] at h
          obtain ⟨rfl, hrest⟩ := Prod.mk.inj (Option.some.inj h)
          obtain ⟨rfl, rfl⟩ := Prod.mk.inj hrest
          simp [nests, hopen, hclose]

end Token

namespace Interface

open Token

def inNamespaceName (t : Token) : Bool := t.isIdent || t.kind == .scope

/-- The names of the namespace whose brace stands behind the tokens, which come last one first: only
words and `::` stand between the word `namespace` and the brace. -/
def namespaceNames? (seen : List Token) : Option (List Text) :=
  match (seen.takeWhile inNamespaceName).reverse.dropWhile (!·.isWord "namespace") with
  | [] => none
  | _ :: names => some ((names.filter isIdent).map text)

/-- The names of the namespaces among open braces, joined from the outermost to the innermost. -/
def scopeName (braces : List (List Token)) : Text :=
  Text.join "::" (((braces.filterMap namespaceNames?).map (Text.join "::")).filter (!·.isEmpty))

/-- The scopes that a search keeps for a stack of braces. -/
def scopesOf : List (List Token) → List OpenScope
  | [] => []
  | seen :: stack =>
    match namespaceNames? seen with
    | none => scopesOf stack
    | some names => ⟨Text.join "::" names, stack.length + 1⟩ :: scopesOf stack

theorem depth_le_of_mem_scopesOf {stack : List (List Token)} :
    ∀ s ∈ scopesOf stack, s.depth ≤ stack.length := by
  induction stack with
  | nil => simp [scopesOf]
  | cons seen stack ih =>
    intro s hs
    rw [List.length_cons]
    rw [scopesOf] at hs
    split at hs
    · exact Nat.le_succ_of_le (ih s hs)
    · rcases List.mem_cons.1 hs with rfl | hs
      · exact Nat.le_refl _
      · exact Nat.le_succ_of_le (ih s hs)

theorem closeScope_scopesOf (stack : List (List Token)) :
    closeScope stack.length (scopesOf stack) = scopesOf stack.tail := by
  cases stack with
  | nil => rfl
  | cons seen stack =>
    rw [List.tail_cons, List.length_cons, scopesOf]
    split
    · -- the scopes further out lie less deep
      cases hscopes : scopesOf stack with
      | nil => rfl
      | cons s scopes =>
        have := depth_le_of_mem_scopesOf s (hscopes ▸ List.mem_cons_self ..)
        rw [closeScope, if_neg (by omega)]
    · rw [closeScope, if_pos rfl]

theorem joinScopes_scopesOf (stack : List (List Token)) :
    joinScopes (scopesOf stack) = scopeName stack.reverse := by
  have hnames : (scopesOf stack).map OpenScope.name =
      (stack.filterMap namespaceNames?).map (Text.join "::") := by
    induction stack with
    | nil => rfl
    | cons seen stack ih =>
      rw [scopesOf, List.filterMap_cons]
      split <;> simp_all
  rw [joinScopes, scopeName, List.map_reverse, hnames, List.filterMap_reverse, List.map_reverse]

/-- What is read as a namespace: the names are the words up to the brace. -/
theorem eq_of_namespaceHead? {ts rest : List Token} {names : List Text} {brace : Token}
    (h : namespaceHead? ts = some (names, brace, rest)) :
    brace.isPunct '{' = true ∧ ∃ lead, ts = lead ++ brace :: rest ∧
      (∀ t ∈ lead, inNamespaceName t = true) ∧
      names = (lead.filter isIdent).map text := by
  induction ts generalizing names with
  | nil => simp [namespaceHead?] at h
  | cons t ts ih =>
    rw [namespaceHead?] at h
    split at h
    · simp only [Option.some.injEq, Prod.mk.injEq] at h
      obtain ⟨rfl, rfl, rfl⟩ := h
      exact ⟨‹_›, [], rfl, by simp, rfl⟩
    · split at h
      · rename_i hident
        obtain ⟨⟨names', r⟩, hr, he⟩ := Option.map_eq_some_iff.1 h
        obtain ⟨rfl, rfl⟩ := Prod.mk.inj he
        obtain ⟨hbrace, lead, rfl, hlead, rfl⟩ := ih hr
        refine ⟨hbrace, t :: lead, rfl, List.forall_mem_cons.2 ⟨by simp [inNamespaceName, hident],
          hlead⟩, ?_⟩
        simp [hident]
      · rename_i hident
        split at h
        · rename_i hscope
          obtain ⟨hbrace, lead, rfl, hlead, rfl⟩ := ih h
          refine ⟨hbrace, t :: lead, rfl, List.forall_mem_cons.2 ⟨by simp [inNamespaceName, hscope],
            hlead⟩, ?_⟩
          simp [hident]
        · simp at h

theorem namespaceHead?_of_inNamespaceName {t : Token} (ht : inNamespaceName t = true)
    {ts : List Token} (h : namespaceHead? (t :: ts) = none) : namespaceHead? ts = none := by
  have hbrace : t.isPunct '{' = false := by
    cases hpunct : t.isPunct '{' with
    | false => rfl
    | true =>
      have hkind := (isPunct_iff.1 hpunct).1
      simp [inNamespaceName, isIdent, hkind] at ht
  rw [namespaceHead?, hbrace] at h
  split at h
  · simp_all
  · split at h
    · simpa using h
    · simp_all [inNamespaceName]

theorem namespaceNames?_of_run {lead seen : List Token} {word : Token}
    (hlead : ∀ t ∈ lead, inNamespaceName t = true) (hword : word.isWord "namespace" = true)
    (hrun : ∀ t ∈ seen.takeWhile inNamespaceName, t.isWord "namespace" = false) :
    namespaceNames? (lead.reverse ++ word :: seen) = some ((lead.filter isIdent).map text) := by
  have hin : inNamespaceName word = true := by
    rw [inNamespaceName, isIdent_of_isWord hword]
    rfl
  have htake : (lead.reverse ++ word :: seen).takeWhile inNamespaceName =
      lead.reverse ++ word :: seen.takeWhile inNamespaceName := by
    rw [List.takeWhile_append_of_pos (fun t ht => hlead t (List.mem_reverse.1 ht)),
      List.takeWhile_cons, if_pos hin]
  have hdrop : ((seen.takeWhile inNamespaceName).reverse ++ word :: lead).dropWhile
      (!·.isWord "namespace") = word :: lead := by
    rw [List.dropWhile_append_of_pos (fun t ht => by simp [hrun t (List.mem_reverse.1 ht)]),
      List.dropWhile_cons]
    simp [hword]
  have hreverse : (lead.reverse ++ word :: seen.takeWhile inNamespaceName).reverse =
      (seen.takeWhile inNamespaceName).reverse ++ word :: lead := by simp
  rw [namespaceNames?, htake, hreverse, hdrop]

theorem namespaceNames?_eq_none {seen : List Token}
    (hrun : ∀ t ∈ seen.takeWhile inNamespaceName, t.isWord "namespace" = false) :
    namespaceNames? seen = none := by
  have hdrop : ((seen.takeWhile inNamespaceName).reverse ++ []).dropWhile
      (fun t : Token => !t.isWord "namespace") = [] := by
    rw [List.dropWhile_append_of_pos (fun t ht => by simp [hrun t (List.mem_reverse.1 ht)])]
    rfl
  rw [List.append_nil] at hdrop
  rw [namespaceNames?, hdrop]

/-- A search knows what is open: `seen` are the tokens that it has read, the last one first. -/
structure Tracks (seen : List Token) (scopes : List OpenScope) (depth : Nat) (ts : List Token) :
    Prop where
  scopes : scopes = scopesOf (braceStack seen)
  depth : depth = (braceStack seen).length
  /-- A word `namespace` that may belong to the next brace has been looked at, and no namespace was
  read there. -/
  run : (∀ t ∈ seen.takeWhile inNamespaceName, t.isWord "namespace" = false) ∨
      namespaceHead? ts = none

namespace Tracks

theorem start (ts : List Token) : Tracks [] [] 0 ts := ⟨rfl, rfl, .inl (by simp)⟩

variable {seen ts : List Token} {scopes : List OpenScope} {depth : Nat} {t : Token}

theorem takeWhile_cons_of_isPunct {c : Char} (ht : t.isPunct c = true) (seen : List Token) :
    (t :: seen).takeWhile inNamespaceName = [] := by
  have hkind := (isPunct_iff.1 ht).1
  simp [inNamespaceName, isIdent, hkind]

theorem opened (h : Tracks seen scopes depth (t :: ts)) (ht : t.isPunct '{' = true) :
    Tracks (t :: seen) scopes (depth + 1) ts := by
  have hstack : braceStack (t :: seen) = seen :: braceStack seen := by rw [braceStack, if_pos ht]
  -- a namespace could be read right here, so no word before it was passed over
  have hread : namespaceHead? (t :: ts) ≠ none := by
    rw [namespaceHead?, if_pos ht]
    simp
  refine ⟨?_, by rw [hstack, h.depth, List.length_cons],
    .inl (by simp [takeWhile_cons_of_isPunct ht])⟩
  rw [hstack, scopesOf, namespaceNames?_eq_none (h.run.resolve_right hread)]
  exact h.scopes

theorem closed (h : Tracks seen scopes depth (t :: ts)) (ht : t.isPunct '}' = true) :
    Tracks (t :: seen) (closeScope depth scopes) (depth - 1) ts := by
  have hstack : braceStack (t :: seen) = (braceStack seen).tail := by
    rw [braceStack, isPunct_unique ht (d := '{') (by decide), if_pos ht]
    rfl
  refine ⟨?_, by rw [hstack, h.depth, List.length_tail],
    .inl (by simp [takeWhile_cons_of_isPunct ht])⟩
  rw [hstack, h.depth, h.scopes, closeScope_scopesOf]

theorem passed (h : Tracks seen scopes depth (t :: ts)) (hopen : t.isPunct '{' = false)
    (hclose : t.isPunct '}' = false)
    (hword : t.isWord "namespace" = true → namespaceHead? ts = none) :
    Tracks (t :: seen) scopes depth ts := by
  have hstack : braceStack (t :: seen) = braceStack seen := by
    rw [braceStack, hopen, hclose]
    rfl
  refine ⟨hstack ▸ h.scopes, hstack ▸ h.depth, ?_⟩
  cases hin : inNamespaceName t with
  | false => exact .inl (by simp [hin])
  | true =>
    rcases h.run with hrun | hnone
    · cases hw : t.isWord "namespace" with
      | true => exact .inr (hword hw)
      | false =>
        rw [List.takeWhile_cons, if_pos hin]
        exact .inl (List.forall_mem_cons.2 ⟨hw, hrun⟩)
    · exact .inr (namespaceHead?_of_inNamespaceName hin hnone)

theorem entered {lead rest : List Token} {brace : Token}
    (h : Tracks seen scopes depth (t :: (lead ++ brace :: rest))) (ht : t.isWord "namespace" = true)
    (hlead : ∀ u ∈ lead, inNamespaceName u = true) (hbrace : brace.isPunct '{' = true)
    (hread : namespaceHead? (lead ++ brace :: rest) ≠ none) :
    Tracks (brace :: (lead.reverse ++ t :: seen))
      (⟨Text.join "::" ((lead.filter isIdent).map text), depth + 1⟩ :: scopes)
        (depth + 1) rest := by
  have hin : inNamespaceName t = true := by
    rw [inNamespaceName, isIdent_of_isWord ht]
    rfl
  -- the word is the first of its kind before the brace
  have hrun : ∀ u ∈ seen.takeWhile inNamespaceName, u.isWord "namespace" = false :=
    h.run.resolve_right fun hnone => hread (namespaceHead?_of_inNamespaceName hin hnone)
  have hplain {us : List Token} (hus : ∀ u ∈ us, inNamespaceName u = true) : nests 0 us = true := by
    refine nests_of_no_brace fun u hu => ?_
    have hkind : u.kind ≠ .punct := by
      intro hkind
      have := hus u hu
      simp [inNamespaceName, isIdent, hkind] at this
    simp [isPunct, hkind]
  have hstack : braceStack (brace :: (lead.reverse ++ t :: seen)) =
      (lead.reverse ++ t :: seen) :: braceStack seen := by
    have hlead' : braceStack ((t :: lead).reverse ++ seen) = braceStack seen :=
      braceStack_of_nests (hplain (List.forall_mem_cons.2 ⟨hin, hlead⟩)) seen
    rw [List.reverse_cons, List.append_assoc, List.singleton_append] at hlead'
    rw [braceStack, if_pos hbrace, hlead']
  refine ⟨?_, by rw [hstack, h.depth, List.length_cons],
    .inl (by simp [takeWhile_cons_of_isPunct hbrace])⟩
  rw [hstack, scopesOf, namespaceNames?_of_run hlead ht hrun, ← h.scopes, ← h.depth]

theorem skipped {us : List Token} {closer : Token} (h : Tracks seen scopes depth ts)
    (hus : nests 0 (us ++ [closer]) = true) (hcloser : closer.isPunct '}' = true)
    (rest : List Token) : Tracks ((us ++ [closer]).reverse ++ seen) scopes depth rest := by
  have hstack : braceStack ((us ++ [closer]).reverse ++ seen) = braceStack seen :=
    braceStack_of_nests hus seen
  refine ⟨hstack ▸ h.scopes, hstack ▸ h.depth, .inl ?_⟩
  simp [takeWhile_cons_of_isPunct hcloser]

/-- The braces of a definition that is passed over nest, if those in its head do. -/
theorem behind_definition {key brace closer : Token} {lead inner : List Token}
    (h : Tracks seen scopes depth ts) (hkey : isClassKey key = true)
    (hbrace : brace.isPunct '{' = true) (hcloser : closer.isPunct '}' = true)
    (hlead : nests 0 lead = true) (hbody : nests 1 (inner ++ [closer]) = true) (rest : List Token) :
    Tracks ((key :: (lead ++ brace :: (inner ++ [closer]))).reverse ++ seen) scopes depth rest := by
  have hident := isIdent_of_isClassKey hkey
  have hopened : nests 0 (brace :: (inner ++ [closer])) = true := by
    rw [nests, if_pos hbrace, hbody]
  have hhead : nests (0 + 0) (lead ++ brace :: (inner ++ [closer])) = true :=
    (nests_append hlead).trans hopened
  have hnest : nests 0 (key :: (lead ++ brace :: (inner ++ [closer]))) = true := by
    rw [nests, not_isPunct_of_isIdent hident, not_isPunct_of_isIdent hident]
    exact hhead
  have hlast : key :: (lead ++ brace :: (inner ++ [closer])) = (key :: (lead ++ brace :: inner)) ++
      [closer] := by simp
  rw [hlast] at hnest ⊢
  exact h.skipped hnest hcloser rest

theorem onward {prev : Option Token} {next : Stage} (h : Tracks seen scopes depth (t :: ts))
    (hturn : turn scopes depth prev t ts = .onward next) : ∃ passed, ts = passed ++ next.ahead ∧
      Tracks (passed.reverse ++ t :: seen) next.scopes next.depth next.ahead := by
  cases onward_of_turn hturn with
  | opened hopen => exact ⟨[], rfl, h.opened hopen⟩
  | closed _ hclose => exact ⟨[], rfl, h.closed hclose⟩
  | passed hopen hclose hname => exact ⟨[], rfl, h.passed hopen hclose hname⟩
  | @entered _ brace _ hword hread =>
    obtain ⟨hbrace, lead, rfl, hlead, rfl⟩ := eq_of_namespaceHead? hread
    have hentered := h.entered hword hlead hbrace (by simp [hread])
    exact ⟨lead ++ [brace], by simp, by simpa using hentered⟩

end Tracks

/-- Whether a token stands in the head of a definition, between its keyword and the brace of its
body. -/
def Visit.holds (v : Visit) (t : Token) : Bool :=
  decide (v.key.pos.offset < t.pos.offset) && decide (t.pos.offset < v.head.brace.pos.offset)

theorem key_mem_of_mem_visitsFrom {source : Text} {scopes : List OpenScope} {depth : Nat}
    {prev : Option Token} {ts : List Token} {v : Visit}
    (hv : v ∈ visitsFrom source scopes depth prev ts) : v.key ∈ ts := by
  induction scopes, depth, prev, ts using search_induction with
  | done => simp [visitsFrom] at hv
  | onward scopes depth prev t ts next hturn ih =>
    obtain ⟨passed, rfl, _⟩ := exists_passed_of_turn hturn
    rw [visitsFrom_turn, hturn] at hv
    exact List.mem_cons_of_mem t (List.mem_append_right passed (ih hv))
  | visit scopes depth prev t ts w hturn ih =>
    obtain ⟨_, rfl, _, _⟩ := eq_of_turn_visit hturn
    obtain ⟨_, lead, rfl⟩ := exists_lead_of_turn hturn
    rcases mem_visitsFrom_of_visit hturn hv with rfl | ⟨c, _, _, hv⟩
    · exact List.mem_cons_self ..
    · have hrest : v.key ∈ w.head.rest := (List.dropWhile_suffix _).subset (ih c hv)
      simp [hrest]

namespace Visit

theorem holds_before {v : Visit} {t : Token} (h : t.pos.offset ≤ v.key.pos.offset) :
    v.holds t = false := by
  rw [holds, decide_eq_false (by omega), Bool.false_and]

theorem holds_behind {v : Visit} {t : Token} (h : v.head.brace.pos.offset ≤ t.pos.offset) :
    v.holds t = false := by
  rw [holds, decide_eq_false (p := t.pos.offset < v.head.brace.pos.offset) (by omega),
    Bool.and_false]

theorem filter_holds {v : Visit} {before lead rest : List Token}
    (h : (before ++ v.key :: (lead ++ v.head.brace :: rest)).Pairwise fun t u => t.pos.offset <
      u.pos.offset) :
    (before ++ v.key :: (lead ++ v.head.brace :: rest)).filter v.holds = lead := by
  obtain ⟨_, hkey, hbefore⟩ := List.pairwise_append.1 h
  obtain ⟨hfirst, hrest⟩ := List.pairwise_cons.1 hkey
  obtain ⟨_, hbrace, hlead⟩ := List.pairwise_append.1 hrest
  obtain ⟨hlast, _⟩ := List.pairwise_cons.1 hbrace
  have hnot {us : List Token} (hus : ∀ u ∈ us, v.holds u = false) : us.filter v.holds = [] :=
    List.filter_eq_nil_iff.2 fun u hu => by simp [hus u hu]
  have hall : lead.filter v.holds = lead := by
    refine List.filter_eq_self.2 fun u hu => ?_
    have := hfirst u (by simp [hu])
    have := hlead u hu v.head.brace (by simp)
    simp only [holds, Bool.and_eq_true, decide_eq_true_eq]
    omega
  rw [List.filter_append, List.filter_cons, List.filter_append, List.filter_cons, hall,
    hnot fun u hu => holds_before (Nat.le_of_lt (hbefore u hu v.key (by simp))),
    hnot fun u hu => holds_behind (Nat.le_of_lt (hlast u hu)), holds_before (Nat.le_refl _),
    holds_behind (Nat.le_refl _)]
  simp

end Visit

/-- A choice of tokens that leaves out some of those in heads only, and no brace without its
partner. -/
structure Keeps (source : Text) (p : Token → Bool) (vs : List Visit) (ts : List Token) : Prop where
  stands : ∀ v ∈ vs, v.StandsIn (significant (ofText source))
  nested : ∀ v ∈ vs, nests 0 (((significant (ofText source)).filter v.holds).filter p) = true
  outside : ∀ t ∈ ts, (∀ v ∈ vs, v.holds t = false) → p t = true

theorem pairwise_significant (source : Text) :
    (significant (ofText source)).Pairwise fun t u => t.pos.offset < u.pos.offset :=
  (pairwise_offset source).filter _

namespace Keeps

variable {source : Text} {p : Token → Bool} {vs : List Visit} {before : List Token}

theorem behind {us rest : List Token} (h : Keeps source p vs (us ++ rest))
    (hts : significant (ofText source) = before ++ (us ++ rest)) (hkeys : ∀ v ∈ vs, v.key ∈ rest) :
    significant (ofText source) = (before ++ us) ++ rest ∧
      ((before ++ us).filter p).reverse = us.reverse ++ (before.filter p).reverse ∧
      Keeps source p vs rest := by
  have hpair := pairwise_significant source
  rw [hts] at hpair
  have horder := (List.pairwise_append.1 (List.pairwise_append.1 hpair).2.1).2.2
  have hkept : us.filter p = us := by
    refine List.filter_eq_self.2 fun u hu => h.outside u (by simp [hu]) fun v hv => ?_
    exact Visit.holds_before (Nat.le_of_lt (horder u hu v.key (hkeys v hv)))
  refine ⟨by rw [hts, List.append_assoc], ?_, h.stands, h.nested,
    fun t ht => h.outside t (by simp [ht])⟩
  rw [List.filter_append, hkept, List.reverse_append]

/-- Of a definition that is passed over, tokens of the head are left out at most. -/
theorem behind_aggregate {v : Visit} {lead body rest : List Token}
    (h : Keeps source p (v :: vs) (v.key :: (lead ++ v.head.brace :: (body ++ rest))))
    (hts : significant (ofText source) =
      before ++ v.key :: (lead ++ v.head.brace :: (body ++ rest)))
    (hkeys : ∀ w ∈ vs, w.key ∈ rest) :
    (before ++ v.key :: (lead ++ v.head.brace :: body)).filter p =
      before.filter p ++ v.key :: (lead.filter p ++ v.head.brace :: body) ∧
      nests 0 (lead.filter p) = true ∧ Keeps source p vs rest := by
  have hpair := pairwise_significant source
  have hnest := h.nested v (List.mem_cons_self ..)
  rw [hts] at hpair
  rw [hts, Visit.filter_holds hpair] at hnest
  obtain ⟨_, hdefinition, _⟩ := List.pairwise_append.1 hpair
  obtain ⟨hkey, hhead⟩ := List.pairwise_cons.1 hdefinition
  obtain ⟨_, hbrace, hlead⟩ := List.pairwise_append.1 hhead
  obtain ⟨hbehind, hbody⟩ := List.pairwise_cons.1 hbrace
  have horder := (List.pairwise_append.1 hbody).2.2
  -- what stands before the next definitions and not in this head is kept
  have hkept {u : Token} (hu : u = v.key ∨ u = v.head.brace ∨ u ∈ body) : p u = true := by
    have hmem : u ∈ v.key :: (lead ++ v.head.brace :: (body ++ rest)) := by
      rcases hu with rfl | rfl | hu <;> simp [*]
    refine h.outside u hmem (List.forall_mem_cons.2 ⟨?_, fun w hw => Visit.holds_before ?_⟩)
    · rcases hu with rfl | rfl | hu
      · exact Visit.holds_before (Nat.le_refl _)
      · exact Visit.holds_behind (Nat.le_refl _)
      · exact Visit.holds_behind (Nat.le_of_lt (hbehind u (by simp [hu])))
    · have hw := hkeys w hw
      rcases hu with rfl | rfl | hu
      · exact Nat.le_of_lt (hkey w.key (by simp [hw]))
      · exact Nat.le_of_lt (hbehind w.key (by simp [hw]))
      · exact Nat.le_of_lt (horder u hu w.key hw)
  refine ⟨?_, hnest, fun w hw => h.stands w (List.mem_cons_of_mem v hw),
    fun w hw => h.nested w (List.mem_cons_of_mem v hw), fun u hu hvs => ?_⟩
  · have hbody : body.filter p = body := List.filter_eq_self.2 fun u hu => hkept (.inr (.inr hu))
    rw [List.filter_append, List.filter_cons, if_pos (hkept (.inl rfl)), List.filter_append,
      List.filter_cons, if_pos (hkept (.inr (.inl rfl))), hbody]
  · refine h.outside u (by simp [hu]) (List.forall_mem_cons.2 ⟨?_, hvs⟩)
    exact Visit.holds_behind (Nat.le_of_lt (hbehind u (by simp [hu])))

end Keeps

/-- At each definition that a search comes to, it has the namespaces whose braces are open there. -/
theorem scopes_of_mem_visitsFrom {source : Text} {p : Token → Bool} {scopes : List OpenScope}
    {depth : Nat} {prev : Option Token} {before ts : List Token}
    (hts : significant (ofText source) = before ++ ts)
    (hkeeps : Keeps source p (visitsFrom source scopes depth prev ts) ts)
    (h : Tracks (before.filter p).reverse scopes depth ts) {v : Visit}
    (hv : v ∈ visitsFrom source scopes depth prev ts) :
    ∃ front behind, significant (ofText source) = front ++ v.key :: behind ∧
      v.scopes = scopesOf (braceStack (front.filter p).reverse) := by
  induction scopes, depth, prev, ts using search_induction generalizing before with
  | done => simp [visitsFrom] at hv
  | onward scopes depth prev t ts next hturn ih =>
    -- the tokens passed stand before the next definition, so all of them are kept
    obtain ⟨passed, rfl, htracks⟩ := h.onward hturn
    rw [visitsFrom_turn, hturn] at hv hkeeps
    rw [← List.cons_append] at hts hkeeps
    obtain ⟨hts, hseen, hrest⟩ := hkeeps.behind hts fun v hv => key_mem_of_mem_visitsFrom hv
    refine ih hts hrest ?_ hv
    rw [hseen]
    simpa using htracks
  | visit scopes depth prev t ts w hturn ih =>
    obtain ⟨hscopes, rfl, hkey, hhead⟩ := eq_of_turn_visit hturn
    rcases mem_visitsFrom_of_visit hturn hv with rfl | ⟨c, hscan, hskip, hbehind⟩
    · exact ⟨before, ts, hts, hscopes.trans h.scopes⟩
    · have hvisits : visitsFrom source scopes depth prev (w.key :: ts) =
          w :: (w.next depth c).visits source := by
        rw [visitsFrom_turn, hturn]
        simp [hscan, hskip]
      rw [hvisits] at hkeeps
      obtain ⟨inner, closer, hviews⟩ := exists_views (hkeeps.stands w (List.mem_cons_self ..)) hscan
      obtain ⟨_, hmatch⟩ := hviews.matched
      obtain ⟨hbrace, lead, rfl⟩ := exists_lead_of_turn hturn
      rw [← w.inside_append_behind c] at hts hkeeps
      obtain ⟨hfilter, hlead, hrest⟩ :=
        hkeeps.behind_aggregate hts fun v hv => key_mem_of_mem_visitsFrom hv
      have htracks :=
        h.behind_definition hkey hbrace (eq_of_matchBrace hmatch).1 hlead
          (nests_of_matchBrace hmatch)
        (w.behind c)
      refine @ih c (before ++ w.key :: (lead ++ w.head.brace :: w.inside c)) (by simp [hts]) hrest
        ?_ hbehind
      rw [hfilter, List.reverse_append, hviews.inside, hscopes]
      exact htracks

theorem takeWhile_eq_front {source : Text} {front behind : List Token} {key : Token}
    (h : significant (ofText source) = front ++ key :: behind) :
    (significant (ofText source)).takeWhile (·.pos.offset < key.pos.offset) = front := by
  have hpair := pairwise_significant source
  rw [h] at hpair ⊢
  obtain ⟨_, hkey, hfront⟩ := List.pairwise_append.1 hpair
  have hin : ∀ t ∈ front, decide (t.pos.offset < key.pos.offset) = true :=
    fun t ht => decide_eq_true (hfront t ht key (by simp))
  have hout : ∀ t ∈ key :: behind, decide (t.pos.offset < key.pos.offset) = false := by
    refine List.forall_mem_cons.2 ⟨decide_eq_false (Nat.lt_irrefl _), fun t ht => ?_⟩
    exact decide_eq_false (Nat.not_lt_of_gt ((List.pairwise_cons.1 hkey).1 t ht))
  exact (split_while hin hout).1

/-- At each definition that `locate` comes to, it has the namespaces whose braces are open there,
whichever tokens of the heads are left out. -/
theorem joinScopes_of_mem_visits {source : Text} {p : Token → Bool}
    (hkeeps : Keeps source p (visits source) (significant (ofText source))) {v : Visit}
    (hv : v ∈ visits source) :
    ∃ behind, significant (ofText source) =
        (significant (ofText source)).takeWhile (·.pos.offset < v.key.pos.offset) ++
          v.key :: behind ∧
      joinScopes v.scopes = scopeName (openBraces []
        (((significant (ofText source)).takeWhile (·.pos.offset < v.key.pos.offset)).filter
          p)) := by
  have hstart : Tracks (([] : List Token).filter p).reverse [] 0 (significant (ofText source)) :=
    Tracks.start _
  obtain ⟨front, behind, hsplit, hscopes⟩ := scopes_of_mem_visitsFrom rfl hkeeps hstart hv
  refine ⟨behind, ?_, ?_⟩
  · rw [takeWhile_eq_front hsplit]
    exact hsplit
  · rw [takeWhile_eq_front hsplit, hscopes, joinScopes_scopesOf, braceStack_reverse,
      List.reverse_reverse]

theorem scope_of_ofHead {scopes : List OpenScope} {key : Token} {head : Head} {body : Text}
    {i : Interface} (h : ofHead scopes key head body = .ok i) : i.scope = joinScopes scopes := by
  unfold ofHead at h
  split at h
  · cases h
  · rw [← Except.ok.inj h]

/-- The scope of an interface is made of the namespaces whose braces are open at its keyword, if the
tokens in the heads of the definitions passed over are left out. They need not be left out where the
braces in each head nest. -/
theorem locate_scope {s : Text} {i : Interface} (h : locate s = .ok i) :
    ∃ v ∈ visits s, v.outcome s = some (.ok i) ∧ ∃ before behind,
      significant (ofText s) = before ++ v.key :: behind ∧
      i.scope = scopeName (openBraces [] (before.filter fun t => !(visits s).any (·.holds t))) ∧
      ((∀ w ∈ visits s, nests 0 ((significant (ofText s)).filter w.holds) = true) →
        i.scope = scopeName (openBraces [] before)) := by
  obtain ⟨v, hv, houtcome⟩ : ∃ v ∈ visits s, v.outcome s = some (.ok i) := by
    rw [locate_eq_decided] at h
    rcases decided_cases s (visits s) with ⟨v, hv, houtcome⟩ | hnone
    · exact ⟨v, hv, h ▸ houtcome⟩
    · rw [h] at hnone
      cases hnone
  have hscope : i.scope = joinScopes v.scopes := by
    unfold Visit.outcome at houtcome
    split at houtcome
    · cases Option.some.inj houtcome
    · split at houtcome
      · cases houtcome
      · exact scope_of_ofHead (Option.some.inj houtcome)
  have hstands : ∀ w ∈ visits s, w.StandsIn (significant (ofText s)) :=
    fun w hw => standsIn_of_mem_visits hw
  -- nothing is left of a head whose tokens are left out
  have houtside : Keeps s (fun t => !(visits s).any (·.holds t)) (visits s)
      (significant (ofText s)) := by
    refine ⟨hstands, fun w hw => ?_, fun t _ ht => by simpa using ht⟩
    have hnil : ((significant (ofText s)).filter w.holds).filter
        (fun t => !(visits s).any (·.holds t)) = [] := by
      rw [List.filter_filter, List.filter_eq_nil_iff]
      intro t _ ht
      rw [Bool.and_eq_true, Bool.not_eq_true'] at ht
      simp [List.any_eq_false.1 ht.1 w hw] at ht
    rw [hnil]
    rfl
  obtain ⟨behind, hsplit, houter⟩ := joinScopes_of_mem_visits houtside hv
  refine ⟨v, hv, houtcome, _, behind, hsplit, hscope.trans houter, fun hnest => ?_⟩
  have hself (ts : List Token) : ts.filter (fun _ => true) = ts :=
    List.filter_eq_self.2 fun _ _ => rfl
  have hall : Keeps s (fun _ => true) (visits s) (significant (ofText s)) :=
    ⟨hstands, fun w hw => (hself _).symm ▸ hnest w hw, fun _ _ _ => rfl⟩
  obtain ⟨_, _, hinner⟩ := joinScopes_of_mem_visits hall hv
  rw [hself] at hinner
  exact hscope.trans hinner

/-- Stray closers, an alias, a directive, closed namespaces, aggregates, enumerations and bodies
change nothing. -/
theorem locate_scope_nested :
    let s : Text :=
      "namespace x \x7b \x7d \x7d namespace a::b \x7b using namespace std; namespace n = std;" ++
      "namespace \x7b struct alignas(f(\x7b \x7d)) P \x7b int x; \x7d; enum E \x7b e \x7d; " ++
      "void g() \x7b \x7dclass Q \x7b virtual void f() = 0; \x7d; \x7d \x7d"
    ∃ i, locate s = .ok i ∧ i.scope = "a::b" ∧ ∃ before key behind,
      significant (ofText s) = before ++ key :: behind ∧
      i.scope = scopeName (openBraces [] before) := by
  intro s
  have hread : (locate s).map Interface.scope = .ok "a::b" := by decide +kernel
  cases hi : locate s with
  | error e => simp [hi, Except.map] at hread
  | ok i =>
    rw [hi] at hread
    obtain ⟨v, _, _, before, behind, hsplit, _, hscope⟩ := locate_scope hi
    exact ⟨i, rfl, Except.ok.inj hread, before, v.key, behind, hsplit, hscope (by decide +kernel)⟩

/-- A closing brace in the argument list of a head leaves the namespace around it open. -/
theorem locate_scope_unnested :
    let s : Text :=
      "namespace a \x7b struct alignas(\x7d) X \x7b \x7d;\nclass Q \x7b virtual void f() = 0; \x7d;"
    (locate s).map (fun i => (i.name, i.line, i.scope)) = .ok (("Q" : Text), 2, ("a" : Text)) ∧
      ∃ before key behind, significant (ofText s) = before ++ key :: behind ∧
        key.isWord "class" = true ∧
        key.pos.line = 2 ∧ scopeName (openBraces [] before) = "" := by
  intro s
  refine ⟨by decide +kernel, (significant (ofText s)).take 12, ⟨.ident, "class", ⟨39, 2, 1⟩⟩,
    (significant (ofText s)).drop 13, ?_⟩
  decide +kernel

end Interface
end HeaderBridge
