import HeaderBridge.Proofs.Interface.Lookahead
import HeaderBridge.Proofs.Interface.Reading
import HeaderBridge.Proofs.Interface.Relocation
import HeaderBridge.Proofs.Interface.Transfer

namespace HeaderBridge

open Token

namespace Method

/-- The depth at which the collector stands behind the tokens. A declaration it accepts is passed as
a whole, braces in its default arguments included. -/
def depthBehind : Nat → List Token → Nat
  | depth, [] => depth
  | depth, t :: ts =>
    if t.isPunct '{' then depthBehind (depth + 1) ts
    else if t.isPunct '}' then depthBehind (depth - 1) ts
    else if depth = 0 ∧ t.isWord "virtual" then
      match h : declaration? ts with
      | some d =>
        have := declaration?_length h
        depthBehind 0 d.rest
      | none => depthBehind depth ts
    else depthBehind depth ts
termination_by _ ts => ts.length
decreasing_by all_goals simp_wf; try omega

theorem depthBehind_cons (depth : Nat) (t : Token) (ts : List Token) :
    depthBehind depth (t :: ts) =
      if t.isPunct '{' then depthBehind (depth + 1) ts
      else if t.isPunct '}' then depthBehind (depth - 1) ts
      else if depth = 0 ∧ t.isWord "virtual" then
        match declaration? ts with
        | some d => depthBehind 0 d.rest
        | none => depthBehind depth ts
      else depthBehind depth ts := by
  rw [depthBehind]
  split
  · rfl
  · split
    · rfl
    · split
      · split <;> simp_all
      · rfl

theorem depthBehind_step (depth : Nat) (t : Token) (ts : List Token) :
    depthBehind depth (t :: ts) =
      match declared? depth t ts with
      | some d => depthBehind 0 d.rest
      | none => depthBehind (openAfter '{' '}' depth t) ts :=
  (depthBehind_cons depth t ts).trans (branch_eq depth t ts _ (depthBehind · ts))

section Append

variable {ts : List Token} (h : Ends ts) (us : List Token)
include h

theorem splitParams_append (angle : Nat) (prev : Option Token) :
    splitParams angle prev (ts ++ us) = (splitParams angle prev ts).map fun r =>
      (r.1, r.2 ++ us) := by
  induction ts generalizing angle prev with
  | nil => exact absurd rfl h.ne_nil
  | cons t ts ih =>
    rw [List.cons_append, splitParams, splitParams]
    cases hsemi : t.isPunct ';' with
    | true =>
      rw [sign?_of_isPunct hsemi (by decide)]
      rfl
    | false =>
      simp only [ih (h.tail hsemi), Option.map_map, Function.comp_def]
      split
      · simp [Function.comp_def]
      · simp [Function.comp_def]
      · split
        · rfl
        · simp [Function.comp_def]
      · rfl
      · rfl
      · rfl
      · rfl
      · simp [Function.comp_def]

theorem takeWord_append (w : String) :
    takeWord w (ts ++ us) = ((takeWord w ts).1, (takeWord w ts).2 ++ us) ∧
    Ends (takeWord w ts).2 := by
  cases ts with
  | nil => exact absurd rfl h.ne_nil
  | cons t ts =>
    rw [List.cons_append, takeWord, takeWord]
    split
    · rename_i hw
      exact ⟨rfl, h.tail (not_isPunct_of_isIdent (isIdent_of_isWord hw) ';')⟩
    · exact ⟨rfl, h⟩

theorem afterPureMark_append : afterPureMark (ts ++ us) = (afterPureMark ts).map (· ++ us) := by
  -- the semicolon that ends a shorter list is neither an equals sign nor a number
  rcases ts with _ | ⟨a, _ | ⟨b, _ | ⟨c, ts⟩⟩⟩
  · exact absurd rfl h.ne_nil
  · have ha : a.isPunct '=' = false := by
      rcases ends_cons h with ⟨_, hsemi⟩ | hnil
      · exact isPunct_unique hsemi (by decide)
      · exact absurd rfl hnil.ne_nil
    rcases us with _ | ⟨b, _ | ⟨c, us⟩⟩
    · rfl
    · rfl
    · simp [afterPureMark, ha]
  · have hb : b.kind ≠ .number := by
      obtain ⟨last, hlast, hsemi⟩ := h
      obtain rfl : b = last := Option.some.inj hlast
      obtain ⟨hk, _⟩ := isPunct_iff.1 hsemi
      simp [hk]
    cases us with
    | nil => rfl
    | cons c us => simp [afterPureMark, hb]
  · rw [List.cons_append, List.cons_append, List.cons_append, afterPureMark, afterPureMark]
    split <;> rfl

theorem readTail_append :
    readTail (ts ++ us) = (readTail ts).map fun r => (r.1, r.2.1, r.2.2 ++ us) := by
  obtain ⟨hconst, hends⟩ := takeWord_append h us "const"
  obtain ⟨hnoexcept, hends⟩ := takeWord_append hends us "noexcept"
  simp only [readTail, hconst, hnoexcept, afterPureMark_append hends, Option.map_map,
    Function.comp_def]

/-- A declaration is read, or not, from what stands before the last semicolon. -/
theorem declaration?_append :
    declaration? (ts ++ us) = (declaration? ts).map fun d => { d with rest := d.rest ++ us } := by
  rw [declaration?, declaration?, splitParams_append h]
  cases hs : splitParams 0 none ts with
  | none => rfl
  | some r =>
    obtain ⟨head, afterOpen⟩ := r
    obtain ⟨opener, hopener, hts⟩ := eq_of_splitParams hs
    have hafter : Ends afterOpen :=
      (h.of_suffix ⟨head, hts.symm⟩ (by simp)).tail (isPunct_unique hopener (by decide))
    simp only [Option.map_some]
    rcases head.reverse with _ | ⟨name, _ | ⟨prev, more⟩⟩
    · rfl
    · rfl
    · simp only [closeParen_append hafter]
      split
      · rfl
      · cases hc : closeParen 0 afterOpen with
        | none => rfl
        | some r =>
          obtain ⟨params, rest⟩ := r
          obtain ⟨close, tail, rfl, hclose, hparams⟩ := eq_of_closeParen hc
          have htail : Ends tail :=
            (hafter.of_suffix ⟨params, hparams.symm⟩ (by simp)).tail
              (isPunct_unique hclose (by decide))
          simp [readTail_append htail, Function.comp_def]

end Append

theorem declared?_append {depth : Nat} {t : Token} {ts : List Token} (h : Ends (t :: ts))
    (us : List Token) : declared? depth t (ts ++ us) = (declared? depth t ts).map fun d =>
      { d with rest := d.rest ++ us } := by
  unfold declared?
  split
  · rename_i hvirtual
    exact declaration?_append (h.tail (not_isPunct_of_isIdent (isIdent_of_isWord hvirtual.2) ';'))
      us
  · rfl

/-- The collector goes on behind a semicolon as it would start there, at the depth it has
reached. -/
theorem collect_append {ts : List Token} (h : ts ≠ [] → Ends ts) (source : Text) (depth : Nat)
    (us : List Token) : collect source depth (ts ++ us) =
      collect source depth ts ++ collect source (depthBehind depth ts) us := by
  induction depth, ts using collect_induction with
  | done => simp [collect, depthBehind]
  | passed depth t ts hnone ih =>
    rw [List.cons_append, collect_step, collect_step, depthBehind_step,
      declared?_append (h (by simp)), hnone]
    exact ih fun hne => (h (by simp)).of_suffix (List.suffix_cons t ts) hne
  | declared t ts d hd ih =>
    have hrest : d.rest <:+ t :: ts :=
      (suffix_of_declaration? (declared?_eq_some.1 hd).2.2).trans (List.suffix_cons t ts)
    rw [List.cons_append, collect_step, collect_step, depthBehind_step,
      declared?_append (h (by simp)), hd]
    exact congrArg (List.cons _) (ih fun hne => (h (by simp)).of_suffix hrest hne)

end Method

namespace Token

theorem nests_map {g : Token → Token} (hg : Moves g) (depth : Nat) (ts : List Token) :
    nests depth (ts.map g) = nests depth ts := by
  induction ts generalizing depth with
  | nil => rfl
  | cons t ts ih => simp only [List.map_cons, nests, hg.isPunct, ih]

end Token

namespace Lexeme

theorem leavesComment_cons {l : Lexeme} (hl : l ≠ slash) (ls : List Lexeme) :
    leavesComment (l :: ls) = leavesComment ls := by
  cases ls with
  | nil => rfl
  | cons m ls => rw [leavesComment, beq_false_of_ne hl, Bool.false_and, Bool.false_or]

theorem leavesComment_gap (w : Text) (ls : List Lexeme) :
    leavesComment (gap w ++ ls) = leavesComment ls := by
  unfold gap
  split
  · rfl
  · exact leavesComment_cons (fun h => by cases h) ls

/-- Two parts leave no comment open if the second one does not start with a star. -/
theorem leavesComment_append {ls ms : List Lexeme} {m : Lexeme} (hls : leavesComment ls = false)
    (hm : m ≠ star) (hms : leavesComment (m :: ms) = false) :
    leavesComment (ls ++ m :: ms) = false := by
  match ls with
  | [] => exact hms
  | [l] =>
    rw [List.singleton_append, leavesComment, beq_false_of_ne hm, Bool.and_false, Bool.false_or]
    exact hms
  | l :: l' :: ls =>
    obtain ⟨hl, hls⟩ := Bool.or_eq_false_iff.1 hls
    exact Bool.or_eq_false_iff.2 ⟨hl, leavesComment_append hls hm hms⟩

theorem LineEnds.indent {x : Text} (h : LineEnds x) : LineEnds ((' ' : UInt8) :: x) := by
  constructor
  · obtain ⟨u, v, rfl, hu, hv⟩ := exists_blankRun x
    have hcomment := h.comment
    rw [ofText_blankRun hu hv, leavesComment_gap] at hcomment
    have hindent : ∀ b ∈ (' ' : UInt8) :: u, isBlankByte b = true := by simpa using ⟨by decide, hu⟩
    rw [← List.cons_append, ofText_blankRun hindent hv, leavesComment_gap]
    exact hcomment
  · cases x with
    | nil => decide
    | cons a x => rw [List.getLast?_cons_cons]; exact h.line

end Lexeme

namespace Method

theorem lower_lower (n k : Nat) (m : Method) : lower n (lower k m) = lower (k + n) m := by
  simp only [lower, Int.natCast_add, Int.add_assoc]

/-- A body whose members are complete: behind its last semicolon no brace and no comment is open. -/
structure Settled (b : Text) : Prop where
  last : (Lexeme.ofText b).getLast? = some Lexeme.semicolon
  level : depthBehind 0 (significant (Token.ofText b)) = 0
  comment : Lexeme.leavesComment (Lexeme.ofText b) = false

theorem Settled.lineEnds {b : Text} (h : Settled b) : Lexeme.LineEnds b :=
  Lexeme.lineEnds_of_semicolon (fun _ hl => (Option.some.inj (h.last.symm.trans hl)).symm) h.comment

theorem Settled.ends {b : Text} (h : Settled b) : Ends (significant (Token.ofText b)) :=
  ends_of_last h.last

section Joined

variable {b : Text} (h : Lexeme.LineEnds b) (c : Text)
include h

theorem stripComments_newline :
    stripComments (b ++ newline :: c) = (stripComments b ++ [newline]) ++ stripComments c := by
  rw [List.append_assoc]
  exact Lexeme.blankKinds_newline rfl h c

/-- The members before a new line are read as if nothing stood behind them. -/
theorem collect_before :
    collect (stripComments (b ++ newline :: c)) 0 (significant (Token.ofText b)) = ofBody b := by
  have hid : Moves id := ⟨fun _ => rfl, fun _ => rfl⟩
  have hspans :=
    sameSpans_within hid (x := []) (z := newline :: stripComments c) (fun _ _ => by simp)
      (stop_le_strip b)
  rw [List.nil_append] at hspans
  have := collect_transfer hid (n := 0) 0 (fun _ _ => rfl) hspans
  have hstrip : stripComments (b ++ newline :: c) = stripComments b ++ newline :: stripComments c :=
    Lexeme.blankKinds_newline rfl h c
  rw [List.map_id] at this
  rw [hstrip, this]
  simp [ofBody]

theorem collect_behind :
    collect (stripComments (b ++ newline :: c)) 0
      ((significant (Token.ofText c)).map
        (moved (Pos.lower (b.length + 1) (b.count newline + 1)))) =
        (ofBody c).map (lower (b.count newline + 1)) := by
  have hlength : (stripComments b ++ [newline]).length = b.length + 1 := by
    rw [List.length_append, stripComments, Lexeme.length_blankKinds, List.length_singleton]
  have hmoves := moves_moved (Pos.lower (b.length + 1) (b.count newline + 1))
  have hoffset (t : Token) : (moved (Pos.lower (b.length + 1) (b.count newline + 1)) t).pos.offset =
      (stripComments b ++ [newline]).length + t.pos.offset := by
    rw [hlength]
    exact Nat.add_comm _ _
  have hspans := sameSpans_within hmoves (z := []) (fun t _ => hoffset t) (stop_le_strip c)
  rw [List.append_nil, ← stripComments_newline h c] at hspans
  exact collect_transfer (moves_moved _) 0 (fun _ _ => rfl) hspans

end Joined

/-- Behind complete members another body declares what it declares alone. -/
theorem Settled.ofBody_append {b : Text} (h : Settled b) (c : Text) :
    ofBody (b ++ newline :: c) = ofBody b ++ (ofBody c).map (lower (b.count newline + 1)) := by
  rw [ofBody, significant_join h.lineEnds, collect_append (fun _ => h.ends), h.level,
    collect_before h.lineEnds]
  exact congrArg (ofBody b ++ ·) (collect_behind h.lineEnds c)

/-- A nested type on lines of its own, with the given text in its body. -/
def nestedType (name x : Text) : Text := "struct " ++ name ++ " \x7b " ++ x ++ "\n\x7d;"

/-- A text that may be the body of a nested type: its braces nest, no comment is left open and its
last line is not continued. -/
structure IsBody (x : Text) : Prop where
  nest : nests 0 (significant (Token.ofText x)) = true
  lineEnds : Lexeme.LineEnds x

theorem collect_of_nests {depth : Nat} {ts : List Token} (h : nests depth ts = true) (source : Text)
    (outer : Nat) (us : List Token) :
    collect source (outer + 1 + depth) (ts ++ us) = collect source (outer + 1) us ∧
      depthBehind (outer + 1 + depth) (ts ++ us) = depthBehind (outer + 1) us := by
  induction ts generalizing depth with
  | nil =>
    obtain rfl : depth = 0 := by simpa [nests] using h
    exact ⟨rfl, rfl⟩
  | cons t ts ih =>
    have hnone : declared? (outer + 1 + depth) t (ts ++ us) = none := by
      rw [declared?, if_neg (by simp)]
    rw [nests] at h
    rw [List.cons_append, collect_step, depthBehind_step, hnone]
    dsimp only
    rw [openAfter]
    split
    · rw [if_pos ‹_›] at h
      exact ih h
    · rw [if_neg ‹_›] at h
      split
      · rw [if_pos ‹_›, Bool.and_eq_true, bne_iff_ne] at h
        rw [Nat.add_sub_assoc (Nat.pos_of_ne_zero h.1)]
        exact ih h.2
      · rw [if_neg ‹_›] at h
        exact ih h

def typeLead (name : Text) : List Lexeme :=
  [Lexeme.word "struct", Lexeme.space, Lexeme.word name, Lexeme.space, Lexeme.openBrace]

theorem chain_typeLead {name : Text} (hname : Text.isIdentifier name = true) (y : Text) :
    Lexeme.Chain (typeLead name) y := by
  have hspace : ∀ z : Text, ∀ b ∈ (' ' :: z : Text).head?, Text.isNameByte b = false := by
    intro z b hb
    obtain rfl := Option.some.inj hb
    decide
  refine ⟨Lexeme.fits_word (by decide) (hspace _), Lexeme.fits_blank (by decide) fun b hb => ?_,
    Lexeme.fits_word hname (hspace _), Lexeme.fits_blank (by decide) fun b hb => ?_,
    Lexeme.fits_sign (by decide) (by decide) y, trivial⟩
  · exact Lexeme.not_isBlankByte_word hname _ _ b hb
  · obtain rfl := Option.some.inj hb
    decide

theorem exists_ofText_nestedType {name x : Text} (hname : Text.isIdentifier name = true)
    (hx : IsBody x) : ∃ ls w, Lexeme.ofText ((' ' : UInt8) :: x) = ls ++ Lexeme.gap w ∧
      Lexeme.ofText (nestedType name x) =
        typeLead name ++
          (ls ++ [⟨.blank, w ++ [newline]⟩, Lexeme.closeBrace, Lexeme.semicolon]) := by
  obtain ⟨ls, w, hls, hw, hchain⟩ := Lexeme.exists_cut hx.lineEnds.indent
  have htext : (' ' : UInt8) :: x = Lexeme.spelling ls ++ w := by
    rw [← Lexeme.spelling_ofText ((' ' : UInt8) :: x), hls, Lexeme.spelling_append,
      Lexeme.spelling_gap]
  refine ⟨ls, w, hls,
    Lexeme.ofText_eq_iff.2 ⟨?_, Lexeme.chain_append.2 ⟨chain_typeLead hname _, ?_⟩⟩⟩
  · have hlead : nestedType name x =
        "struct" ++ [(' ' : UInt8)] ++ name ++ [(' ' : UInt8), ('{' : UInt8)] ++
          ((' ' : UInt8) :: x) ++ [newline, ('}' : UInt8), (';' : UInt8)] := by
      have h1 : ("struct " : Text) = "struct" ++ [(' ' : UInt8)] := by decide
      have h2 : (" \x7b " : Text) = [(' ' : UInt8), ('{' : UInt8), (' ' : UInt8)] := by decide
      have h3 : ("\n\x7d;" : Text) = [newline, ('}' : UInt8), (';' : UInt8)] := by decide
      rw [nestedType, h1, h2, h3]
      simp
    rw [hlead, htext]
    simp [typeLead, Lexeme.word, Lexeme.space, Lexeme.openBrace, Lexeme.closeBrace,
      Lexeme.semicolon]
  · refine Lexeme.chain_append.2 ⟨?_, ?_, ?_, ?_, trivial⟩
    · simpa using hchain _
    · refine (Lexeme.Shape.fits_iff (l := ⟨.blank, w ++ [newline]⟩) ⟨by simp, fun b hb => ?_⟩ _).2
        fun b hb => ?_
      · rcases List.mem_append.1 hb with hb | hb
        · exact hw b hb
        · obtain rfl := List.mem_singleton.1 hb
          decide
      · obtain rfl := Option.some.inj hb
        decide
    · exact Lexeme.fits_sign (by decide) (by decide) _
    · exact Lexeme.fits_sign (by decide) (by decide) _

theorem nests_place (depth : Nat) (p q : Pos) (ls : List Lexeme) :
    nests depth (significant (place p ls)) = nests depth (significant (place q ls)) := by
  rw [← nests_map moves_pinned, map_pinned_place p q, nests_map moves_pinned]

/-- The tokens of a nested type are those of its head, its body and its end. -/
theorem exists_significant_nestedType {name x : Text} (hname : Text.isIdentifier name = true)
    (hx : IsBody x) : ∃ keyword ident opener closer semicolon : Token, ∃ inner,
      significant (Token.ofText (nestedType name x)) =
        keyword :: ident :: opener :: (inner ++ [closer, semicolon]) ∧
      keyword.isWord "struct" = true ∧ ident.isIdent = true ∧ opener.isPunct '{' = true ∧
      closer.isPunct '}' = true ∧ semicolon.isPunct ';' = true ∧ nests 0 inner = true := by
  obtain ⟨ls, w, hls, hlexemes⟩ := exists_ofText_nestedType hname hx
  have hinner (p : Pos) : nests 0 (significant (place p ls)) = true := by
    have hblank : ∀ b ∈ [(' ' : UInt8)], Lexeme.isBlankByte b = true :=
      List.forall_mem_singleton.2 rfl
    have hread : significant (place p ls) =
        significant (place (p.advance [(' ' : UInt8)]) (Lexeme.ofText x)) := by
      have := readFrom_blanks hblank p x
      rw [List.singleton_append, readFrom, hls, place_append, significant_append, significant_gap,
        List.append_nil] at this
      exact this
    rw [hread, nests_place 0 _ Pos.start]
    exact hx.nest
  rw [Token.ofText, hlexemes, place_append, significant_append, place_append, significant_append]
  exact ⟨_, _, _, _, _, _, rfl, rfl, rfl, rfl, rfl, rfl, hinner _⟩

theorem declaration?_brace {t : Token} (ht : t.isPunct '{' = true) (ts : List Token) :
    declaration? (t :: ts) = none := by
  have hsplit : splitParams 0 none (t :: ts) = none := by
    rw [splitParams, sign?_of_isPunct ht (by decide)]
    rfl
  rw [declaration?, hsplit]

/-- The collector passes over a token that is no brace and starts no declaration. -/
theorem collect_pass {t : Token} (ts : List Token) (hopen : t.isPunct '{' = false)
    (hclose : t.isPunct '}' = false) (hpass : t.isWord "virtual" = true → declaration? ts = none)
    (source : Text) (depth : Nat) :
    collect source depth (t :: ts) = collect source depth ts ∧
      depthBehind depth (t :: ts) = depthBehind depth ts := by
  have hnone : declared? depth t ts = none := by
    rw [declared?]
    split
    · exact hpass ‹_ ∧ _›.2
    · rfl
  rw [collect_step, depthBehind_step, hnone]
  dsimp only
  rw [openAfter, hopen, hclose]
  exact ⟨rfl, rfl⟩

theorem collect_nestedType {name x : Text} (hname : Text.isIdentifier name = true) (hx : IsBody x)
    (source : Text) : collect source 0 (significant (Token.ofText (nestedType name x))) = [] ∧
      depthBehind 0 (significant (Token.ofText (nestedType name x))) = 0 := by
  obtain ⟨keyword, ident, opener, closer, semicolon, inner, htokens, hkeyword, hident, hopener,
    hcloser, hsemicolon, hnest⟩ := exists_significant_nestedType hname hx
  have hword : keyword.isWord "virtual" = false := isWord_unique hkeyword (by decide)
  have hstruct := isIdent_of_isWord hkeyword
  have hsemi : semicolon.isWord "virtual" = false := by
    obtain ⟨hk, _⟩ := isPunct_iff.1 hsemicolon
    rw [isWord, hk]
    rfl
  have hfirst := collect_pass (ident :: opener :: (inner ++ [closer, semicolon]))
    (not_isPunct_of_isIdent hstruct _) (not_isPunct_of_isIdent hstruct _) (by simp [hword]) source 0
  have hsecond := collect_pass _ (not_isPunct_of_isIdent hident _) (not_isPunct_of_isIdent hident _)
    (fun _ => declaration?_brace hopener (inner ++ [closer, semicolon])) source 0
  have hinside := collect_of_nests hnest source 0 [closer, semicolon]
  have hlast :=
    collect_pass [] (isPunct_unique hsemicolon (by decide)) (isPunct_unique hsemicolon (by decide))
    (by simp [hsemi]) source 0
  rw [htokens, hfirst.1, hfirst.2, hsecond.1, hsecond.2, collect_cons, depthBehind_cons, hopener]
  simp only [if_true, Nat.zero_add, Nat.add_zero] at hinside ⊢
  rw [hinside.1, hinside.2, collect_cons, depthBehind_cons, hcloser,
    isPunct_unique hcloser (by decide)]
  simp [hlast, collect, depthBehind]

theorem settled_nestedType {name x : Text} (hname : Text.isIdentifier name = true) (hx : IsBody x) :
    Settled (nestedType name x) := by
  obtain ⟨ls, w, hls, hlexemes⟩ := exists_ofText_nestedType hname hx
  have hcomment := hx.lineEnds.indent.comment
  rw [hls] at hcomment
  refine ⟨by rw [hlexemes]; simp, (collect_nestedType hname hx []).2, ?_⟩
  have hlead (ms : List Lexeme) : Lexeme.leavesComment (typeLead name ++ ms) =
      Lexeme.leavesComment ms := by
    simp only [typeLead, List.cons_append, List.nil_append]
    have hwords : ∀ l ∈ [Lexeme.word "struct", Lexeme.space, Lexeme.word name],
        l ≠ Lexeme.slash := by
      simp [Lexeme.word, Lexeme.space, Lexeme.slash]
    rw [Lexeme.leavesComment_cons (hwords _ (by simp)),
      Lexeme.leavesComment_cons (hwords _ (by simp)),
      Lexeme.leavesComment_cons (hwords _ (by simp)),
      Lexeme.leavesComment_cons (hwords _ (by simp)), Lexeme.leavesComment_cons (by decide)]
  rw [hlexemes, hlead]
  refine Lexeme.leavesComment_append (Lexeme.leavesComment_of_append hcomment)
    (fun h => by cases h) ?_
  rw [Lexeme.leavesComment_cons (by simp [Lexeme.slash])]
  decide

/-- A body whose members are complete declares what it declares alone, whatever follows on the next
line, and so does what follows: on lower lines, in order, with nothing lost and nothing added. A
nested type on lines of its own between them declares nothing. -/
theorem ofBody_newline {b : Text} (h : Settled b) (c : Text) :
    ofBody (b ++ newline :: c) = ofBody b ++ (ofBody c).map (lower (b.count newline + 1)) ∧
    ∀ name x, Text.isIdentifier name = true → IsBody x →
      ofBody (b ++ newline :: (nestedType name x ++ newline :: c)) =
        ofBody b ++
          (ofBody c).map (lower ((b ++ newline :: nestedType name x).count newline + 1)) := by
  refine ⟨h.ofBody_append c, fun name x hname hx => ?_⟩
  have hnone : ofBody (nestedType name x) = [] := (collect_nestedType hname hx _).1
  have hlines : (b ++ newline :: nestedType name x).count newline + 1 =
      (nestedType name x).count newline + 1 + (b.count newline + 1) := by
    rw [List.count_append, List.count_cons_self]
    omega
  rw [h.ofBody_append, (settled_nestedType hname hx).ofBody_append, hnone, List.nil_append,
    List.map_map, hlines]
  congr 2
  funext m
  exact lower_lower _ _ m

/-- An overload, a destructor and an inline body are complete members; a nested type may hold
literals with braces. -/
theorem ofBody_newline_overload :
    let b : Text :=
      "virtual int f(int n) const = 0;\nvirtual ~A() = 0; virtual void g() \x7b h(); \x7d\n;"
    let x : Text := "virtual void hidden() = 0; char c = '\x7d';"
    let c : Text := "virtual void f(double d = 1.5) = 0;"
    ofBody (b ++ newline :: c) = ofBody b ++ (ofBody c).map (lower (b.count newline + 1)) ∧
      ofBody (b ++ newline :: (nestedType "X" x ++ newline :: c)) =
        ofBody b ++ (ofBody c).map (lower ((b ++ newline :: nestedType "X" x).count newline + 1)) ∧
      (ofBody b).length = 1 ∧ (ofBody c).length = 1 := by
  intro b x c
  have hb : Settled b := ⟨by decide +kernel, by decide +kernel, by decide +kernel⟩
  have hx : IsBody x := ⟨by decide +kernel, by decide +kernel, by decide +kernel⟩
  obtain ⟨hnext, hnested⟩ := ofBody_newline hb c
  exact ⟨hnext, hnested "X" x (by decide) hx, by decide +kernel, by decide +kernel⟩

end Method
end HeaderBridge
