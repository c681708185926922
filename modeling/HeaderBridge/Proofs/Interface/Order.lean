import HeaderBridge.Proofs.Interface.Relocation
import HeaderBridge.Proofs.Interface.Scopes
import HeaderBridge.Proofs.Source.Joined

namespace HeaderBridge

def ScanFailure.lower (bytes : Nat) : ScanFailure → ScanFailure
  | invalidStart index found => invalidStart (index + bytes) found
  | unbalanced offset region => unbalanced (offset + bytes) region

def LocateFailure.lower (bytes lines : Nat) : LocateFailure → LocateFailure
  | scan failure brace => scan (failure.lower bytes) (brace.lower bytes lines)
  | noPureVirtual name body keyword => noPureVirtual name body (keyword.lower bytes lines)
  | noInterface => noInterface

theorem length_mask (t : Text) : (mask t).length = t.length := Lexeme.length_blankKinds _ t

theorem scanFrom_drop (opener closer : UInt8) (x y : Text) (index : Nat) :
    scanFrom opener closer (x ++ y) (index + x.length) = match scanFrom opener closer y index with
      | .ok c => .ok { c with stop := c.stop + x.length }
      | .error e => .error (e.lower x.length) := by
  have hdrop : (x ++ y).drop (index + x.length) = y.drop index := by
    rw [Nat.add_comm, List.drop_append, List.drop_eq_nil_of_le (by omega), Nat.add_sub_cancel_left,
      List.nil_append]
  rw [scanFrom, scanFrom, hdrop]
  cases y.drop index with
  | nil => simp [ScanFailure.lower]
  | cons a rest =>
    dsimp only
    split
    · simp [ScanFailure.lower]
    · cases closerLength opener closer 0 rest with
      | none => rfl
      | some n =>
        simp only [Except.ok.injEq, Scope.mk.injEq, true_and]
        omega

theorem slice_drop (x y : Text) (first last : Nat) :
    Text.slice (x ++ y) (first + x.length) (last + x.length) = Text.slice y first last := by
  have hdrop : (x ++ y).drop (first + x.length) = y.drop first := by
    rw [Nat.add_comm, List.drop_append, List.drop_eq_nil_of_le (by omega), Nat.add_sub_cancel_left,
      List.nil_append]
  rw [Text.slice, Text.slice, hdrop, Nat.add_sub_add_right]

namespace Token

open Lexeme

theorem leftOpen_place (depth : Nat) (p : Pos) (l : Lexeme) (ls : List Lexeme) :
    leftOpen '{' '}' depth (significant (place p (l :: ls))) =
      leftOpen '{' '}'
        (if l = openBrace then depth + 1 else if l = closeBrace then depth - 1 else depth)
        (significant (place (p.advance l.text) ls)) := by
  rcases brace_cases p l with rfl | rfl | ⟨hopen, hclose, hts | ⟨t, ht, ht', hts⟩⟩
  · rfl
  · rfl
  · rw [hts, if_neg hopen, if_neg hclose]
  · rw [hts, leftOpen_cons, openAfter, ht, ht', if_neg hopen, if_neg hclose]
    rfl

theorem leftOpen_inner {depth : Nat} {ms inner rest : List Lexeme}
    (h : splitBrace depth ms = some (inner, rest)) (outer : Nat) (p : Pos) :
    leftOpen '{' '}' (outer + depth + 1) (significant (place p inner)) = outer + 1 := by
  induction ms generalizing depth inner p with
  | nil => simp [splitBrace] at h
  | cons l ms ih =>
    rw [splitBrace.eq_def] at h
    dsimp only at h
    split at h
    · obtain ⟨⟨inner', rest'⟩, hr, he⟩ := Option.map_eq_some_iff.1 h
      obtain ⟨rfl, rfl⟩ := Prod.mk.inj he
      rw [leftOpen_place, if_pos ‹_›]
      exact ih hr (p.advance l.text)
    · split at h
      · cases depth with
        | zero =>
          obtain ⟨rfl, rfl⟩ := Prod.mk.inj (Option.some.inj h)
          rfl
        | succ depth =>
          obtain ⟨⟨inner', rest'⟩, hr, he⟩ := Option.map_eq_some_iff.1 h
          obtain ⟨rfl, rfl⟩ := Prod.mk.inj he
          rw [leftOpen_place, if_neg ‹_›, if_pos ‹_›]
          exact ih hr (p.advance l.text)
      · obtain ⟨⟨inner', rest'⟩, hr, he⟩ := Option.map_eq_some_iff.1 h
        obtain ⟨rfl, rfl⟩ := Prod.mk.inj he
        rw [leftOpen_place, if_neg ‹_›, if_neg ‹_›]
        exact ih hr (p.advance l.text)

theorem exists_splitBrace {depth : Nat} {ms : List Lexeme} {p : Pos}
    (h : leftOpen '{' '}' (depth + 1) (significant (place p ms)) = 0) :
    ∃ r, splitBrace depth ms = some r := by
  induction ms generalizing depth p with
  | nil => simp [significant, place] at h
  | cons l ms ih =>
    rw [leftOpen_place] at h
    rw [splitBrace.eq_def]
    dsimp only
    split
    · rw [if_pos ‹_›] at h
      obtain ⟨r, hr⟩ := ih h
      exact ⟨_, by rw [hr, Option.map_some]⟩
    · rw [if_neg ‹_›] at h
      split
      · rw [if_pos ‹_›] at h
        cases depth with
        | zero => exact ⟨_, rfl⟩
        | succ depth =>
          obtain ⟨r, hr⟩ := ih h
          exact ⟨(l :: r.1, r.2), by simp [hr]⟩
      · rw [if_neg ‹_›] at h
        obtain ⟨r, hr⟩ := ih h
        exact ⟨_, by rw [hr, Option.map_some]⟩

theorem leftOpen_of_nests {depth : Nat} {ts : List Token} (h : nests depth ts = true)
    (outer : Nat) : leftOpen '{' '}' (outer + depth) ts = outer := by
  induction ts generalizing depth with
  | nil =>
    have : depth = 0 := by simpa [nests] using h
    simp [this]
  | cons t ts ih =>
    rw [nests] at h
    rw [leftOpen_cons, openAfter]
    split
    · rw [if_pos ‹_›] at h
      exact ih h
    · rw [if_neg ‹_›] at h
      split
      · rw [if_pos ‹_›, Bool.and_eq_true, bne_iff_ne] at h
        have := ih h.2
        rwa [← Nat.add_sub_assoc (Nat.pos_of_ne_zero h.1)] at this
      · rw [if_neg ‹_›] at h
        exact ih h

end Token

namespace Interface

open Token

/-- The scopes are open at growing depths, the innermost at `depth` at most. -/
def Stacked : Nat → List OpenScope → Prop
  | _, [] => True
  | depth, s :: scopes => 1 ≤ s.depth ∧ s.depth ≤ depth ∧ Stacked (s.depth - 1) scopes

theorem Stacked.mono {d e : Nat} {scopes : List OpenScope} (h : Stacked d scopes) (hde : d ≤ e) :
    Stacked e scopes := by
  cases scopes with
  | nil => trivial
  | cons s scopes => exact ⟨h.1, Nat.le_trans h.2.1 hde, h.2.2⟩

theorem Stacked.closeScope {depth : Nat} {scopes : List OpenScope} (h : Stacked depth scopes) :
    Stacked (depth - 1) (closeScope depth scopes) := by
  cases scopes with
  | nil => trivial
  | cons s scopes =>
    obtain ⟨h1, h2, h3⟩ := h
    rw [Interface.closeScope]
    split
    · rename_i heq
      exact heq ▸ h3
    · exact ⟨h1, by omega, h3⟩

theorem Stacked.eq_nil {scopes : List OpenScope} (h : Stacked 0 scopes) : scopes = [] := by
  cases scopes with
  | nil => rfl
  | cons s scopes =>
    obtain ⟨h1, h2, _⟩ := h
    omega

/-- A header that ends what it starts: its last token is a semicolon, and it leaves neither braces
nor square brackets nor a comment open. -/
structure Closed (p : Text) : Prop where
  last : (Lexeme.ofText p).getLast? = some Lexeme.semicolon
  braces : leftOpen '{' '}' 0 (significant (Token.ofText p)) = 0
  brackets : leftOpen '[' ']' 0 (significant (Token.ofText p)) = 0
  comment : Lexeme.leavesComment (Lexeme.ofText p) = false

theorem Closed.ends_in_semicolon {p : Text} (h : Closed p) :
    ∀ l ∈ (Lexeme.ofText p).getLast?, l = Lexeme.semicolon :=
  fun _ hl => Option.some.inj (hl.symm.trans h.last)

theorem leftOpen_of_namespaceHead? {ts rest : List Token} {names : List Text} {brace : Token}
    (h : namespaceHead? ts = some (names, brace, rest)) (depth : Nat) :
    leftOpen '{' '}' depth ts = leftOpen '{' '}' (depth + 1) rest := by
  induction ts generalizing names with
  | nil => simp [namespaceHead?] at h
  | cons t ts ih =>
    rw [namespaceHead?] at h
    rw [leftOpen_cons, openAfter]
    split
    · rw [if_pos ‹_›] at h
      simp only [Option.some.injEq, Prod.mk.injEq] at h
      rw [h.2.2]
    · rename_i hopen
      rw [if_neg hopen] at h
      have hclose : t.isPunct '}' = true → False := by
        intro hc
        obtain ⟨hk, _⟩ := isPunct_iff.1 hc
        simp [isIdent, hk] at h
      rw [if_neg hclose]
      split at h
      · obtain ⟨⟨names', r⟩, hr, he⟩ := Option.map_eq_some_iff.1 h
        obtain ⟨_, rfl⟩ := Prod.mk.inj he
        exact ih hr
      · split at h
        · exact ih h
        · simp at h

/-- A body inside a closed header is cut out alike whatever follows the header. -/
theorem scan_closed {p : Text} (h : Closed p) (q : Text) {before rest : List Token} {b : Token}
    (hts : significant (Token.ofText p) = before ++ b :: rest) (hb : b.isPunct '{' = true) :
    ∃ c c', scanBlock (mask p) b.pos.offset = .ok c ∧
      scanBlock (mask (p ++ newline :: q)) b.pos.offset = .ok c' ∧ c'.stop = c.stop ∧
      c.stop ≤ p.length ∧ Text.slice (p ++ newline :: q) (b.pos.offset + 1) (c.stop - 1) =
        Text.slice p (b.pos.offset + 1) (c.stop - 1) ∧
      ∀ depth, leftOpen '{' '}' (depth + 1) (rest.takeWhile (·.pos.offset < c.stop)) = depth := by
  obtain ⟨ks, ms, hls, ho, hrest⟩ := split_at_brace hts hb
  have hopen : leftOpen '{' '}' 1 rest = 0 := by
    have := leftOpen_suffix ⟨before, hts.symm⟩ 0 h.braces
    rwa [leftOpen_cons, openAfter, if_pos hb] at this
  rw [hrest] at hopen
  obtain ⟨⟨inner, after⟩, hr⟩ := exists_splitBrace hopen
  have hlast := h.ends_in_semicolon
  have hls' : Lexeme.ofText (p ++ newline :: q) =
      ks ++ Lexeme.openBrace :: (ms ++ Lexeme.ofText (newline :: q)) := by
    rw [Lexeme.ofText_newline hlast h.comment, hls, List.append_assoc, List.cons_append]
  have hr' := Lexeme.splitBrace_append hr (Lexeme.ofText (newline :: q))
  have hscan := Lexeme.scanBlock_mask hls
  have hscan' := Lexeme.scanBlock_mask hls'
  rw [hr] at hscan
  rw [hr'] at hscan'
  have hp : p =
      Lexeme.spelling (ks ++ Lexeme.openBrace :: (inner ++ Lexeme.closeBrace :: after)) := by
    rw [← Lexeme.spelling_ofText p, hls, Lexeme.eq_of_splitBrace hr]
  rw [ho]
  refine ⟨_, _, hscan, hscan', rfl, ?_, ?_, ?_⟩
  · rw [hp]
    simp [Lexeme.openBrace, Lexeme.closeBrace]
    omega
  · rw [Lexeme.eq_of_splitBrace hr] at hls
    rw [Lexeme.eq_of_splitBrace hr'] at hls'
    exact (Lexeme.slice_inner hls').trans (Lexeme.slice_inner hls).symm
  · intro depth
    have hstop : (Lexeme.spelling ks).length + (Lexeme.spelling inner).length + 2 =
        (b.pos.advance b.text).offset + (Lexeme.spelling inner).length + 1 := by
      have hlen : b.text.length = 1 := by
        obtain ⟨_, ht⟩ := isPunct_iff.1 hb
        rw [ht, List.length_singleton]
      rw [Pos.advance_offset, ho]
      omega
    have hclose : (closerBehind (b.pos.advance b.text) inner).isPunct '}' = true := rfl
    obtain ⟨htake, _⟩ := takeWhile_body hr hstop
    have hin := leftOpen_inner hr depth (b.pos.advance b.text)
    dsimp only
    rw [hrest, htake, leftOpen_append, Nat.add_zero] at *
    rw [hin, leftOpen_cons, openAfter, isPunct_unique hclose (by decide), hclose]
    rfl

theorem locateFrom_prev (s : Text) (scopes : List OpenScope) (depth : Nat)
    {prev prev' : Option Token} (h : prev.any barsHead = prev'.any barsHead) (ts : List Token) :
    locateFrom s scopes depth prev ts = locateFrom s scopes depth prev' ts := by
  cases ts with
  | nil => rw [locateFrom, locateFrom]
  | cons t ts =>
    have hhead : head? prev ts = head? prev' ts := by rw [head?, head?, h]
    rw [locateFrom_cons, locateFrom_cons, hhead]

theorem Closed.ends {p : Text} (h : Closed p) : Ends (significant (Token.ofText p)) :=
  ends_of_last h.last

theorem split_while_append {q : Token → Bool} {us : List Token} (hus : ∀ u ∈ us, q u = false)
    (ts : List Token) : (ts ++ us).takeWhile q = ts.takeWhile q ∧
      (ts ++ us).dropWhile q = ts.dropWhile q ++ us := by
  induction ts with
  | nil =>
    cases us with
    | nil => simp
    | cons u us => simp [hus u (by simp)]
  | cons t ts ih =>
    rw [List.cons_append, List.takeWhile_cons, List.takeWhile_cons, List.dropWhile_cons,
      List.dropWhile_cons, ih.1, ih.2]
    split <;> simp

/-- What a search ends with if, where it finds nothing, it goes on with `next`. -/
def orNext (next : Except LocateFailure Interface) :
    Except LocateFailure Interface → Except LocateFailure Interface
  | .error .noInterface => next
  | r => r

theorem ofHead_orNext (next : Except LocateFailure Interface) (scopes : List OpenScope)
    (key : Token) (head : Head) (body : Text) :
    orNext next (ofHead scopes key head body) = ofHead scopes key head body := by
  unfold ofHead
  split <;> rfl

section Turns

variable {scopes : List OpenScope} {depth : Nat} {prev : Option Token} {t : Token} {ts : List Token}

def Visit.append (v : Visit) (us : List Token) : Visit :=
  { v with head := { v.head with rest := v.head.rest ++ us } }

def Stage.append (s : Stage) (us : List Token) : Stage := { s with ahead := s.ahead ++ us }

def Turn.append (us : List Token) : Turn → Turn
  | onward next => onward (next.append us)
  | visit v => visit (v.append us)

/-- What a search comes to at a token does not depend on what stands behind a closed header. -/
theorem turn_append (hends : Ends (t :: ts)) (hsquare : leftOpen '[' ']' 0 ts = 0)
    (us : List Token) :
    turn scopes depth prev t (ts ++ us) = (turn scopes depth prev t ts).append us := by
  have htail (hident : t.isIdent = true) : Ends ts := hends.tail (not_isPunct_of_isIdent hident ';')
  unfold turn
  split
  · rfl
  · split
    · rfl
    · split
      · rename_i hword
        rw [namespaceHead?_append (htail (isIdent_of_isWord hword))]
        cases namespaceHead? ts <;> rfl
      · split
        · rename_i hkey
          rw [head?_append (htail (isIdent_of_isClassKey hkey)) hsquare]
          cases head? prev ts <;> rfl
        · rfl

theorem Closed.turn_append {p : Text} (h : Closed p) {before : List Token}
    (hts : significant (Token.ofText p) = before ++ t :: ts) (us : List Token) :
    turn scopes depth prev t (ts ++ us) = (turn scopes depth prev t ts).append us := by
  have hsuffix : t :: ts <:+ significant (Token.ofText p) := ⟨before, hts.symm⟩
  have hsquare := leftOpen_suffix ((List.suffix_cons t ts).trans hsuffix) 0 h.brackets
  exact Interface.turn_append (h.ends.of_suffix hsuffix (by simp)) hsquare us

/-- A search keeps count of the open braces, and takes no scope for open that is closed. -/
theorem stacked_of_turn {next : Stage} (h : turn scopes depth prev t ts = .onward next)
    (hstack : Stacked depth scopes) : Stacked next.depth next.scopes ∧
      leftOpen '{' '}' next.depth next.ahead = leftOpen '{' '}' depth (t :: ts) := by
  rw [leftOpen_cons, openAfter]
  cases onward_of_turn h with
  | opened hopen =>
    rw [if_pos hopen]
    exact ⟨hstack.mono (Nat.le_succ depth), rfl⟩
  | closed hopen hclose =>
    rw [hopen, hclose]
    exact ⟨hstack.closeScope, rfl⟩
  | entered hword hread =>
    have hident := isIdent_of_isWord hword
    rw [not_isPunct_of_isIdent hident, not_isPunct_of_isIdent hident]
    exact ⟨⟨Nat.le_add_left 1 depth, Nat.le_refl _, hstack⟩,
      (leftOpen_of_namespaceHead? hread depth).symm⟩
  | passed hopen hclose =>
    rw [hopen, hclose]
    exact ⟨hstack, rfl⟩

/-- A definition that a search passes over leaves as many braces open as before, if they nest in its
head. -/
theorem leftOpen_behind {v : Visit} {lead : List Token} (hkey : isClassKey v.key = true)
    (hbrace : v.head.brace.isPunct '{' = true) (hlead : nests 0 lead = true) {c : Scope}
    {depth : Nat} (hbody : leftOpen '{' '}' (depth + 1) (v.inside c) = depth) :
    leftOpen '{' '}' depth (v.key :: (lead ++ v.head.brace :: v.head.rest)) =
      leftOpen '{' '}' depth (v.behind c) := by
  have hident := isIdent_of_isClassKey hkey
  have hpassed : leftOpen '{' '}' depth lead = depth := leftOpen_of_nests hlead depth
  rw [leftOpen_cons, openAfter, not_isPunct_of_isIdent hident, not_isPunct_of_isIdent hident,
    if_neg (by simp), if_neg (by simp), leftOpen_append, hpassed, leftOpen_cons, openAfter,
    if_pos hbrace, ← v.inside_append_behind c, leftOpen_append, hbody]

/-- A definition in a closed header is read alike whatever follows the header. -/
theorem visit_append {p q : Text} (h : Closed p) {v : Visit} {before us : List Token}
    (hts : significant (Token.ofText p) = before ++ v.head.brace :: v.head.rest)
    (hbrace : v.head.brace.isPunct '{' = true) (hus : ∀ u ∈ us, p.length ≤ u.pos.offset) :
    ∃ c c', v.scan p = .ok c ∧ (v.append us).scan (p ++ newline :: q) = .ok c' ∧
      (v.append us).isAggregate c' = v.isAggregate c ∧
      (v.append us).body (p ++ newline :: q) c' = v.body p c ∧
      (∀ depth, (v.append us).next depth c' = (v.next depth c).append us) ∧
      ∀ depth, leftOpen '{' '}' (depth + 1) (v.inside c) = depth := by
  obtain ⟨c, c', hc, hc', hstop, hle, hslice, hbody⟩ := scan_closed h q hts hbrace
  have hout : ∀ u ∈ us, decide (u.pos.offset < c.stop) = false := fun u hu =>
    decide_eq_false (Nat.not_lt.2 (Nat.le_trans hle (hus u hu)))
  obtain ⟨htake, hdrop⟩ := split_while_append hout v.head.rest
  have hinside : (v.append us).inside c' = v.inside c := by rw [Visit.inside, hstop]; exact htake
  have hbehind : (v.append us).behind c' = v.behind c ++ us := by
    rw [Visit.behind, hstop]; exact hdrop
  refine ⟨c, c', hc, hc', ?_, ?_, fun depth => ?_, hbody⟩
  · rw [Visit.isAggregate, hinside]
    rfl
  · rw [Visit.body, hstop]
    exact hslice
  · rw [Visit.next, hinside, hbehind]
    rfl

end Turns

/-- The search through a closed header and what follows it: the header decides, unless nothing is
found in it. Then the search is back outside of all braces, if they nest in the heads that it has
come to. -/
theorem locateFrom_newline {p q : Text} (h : Closed p) {us : List Token}
    (hus : ∀ u ∈ us, p.length ≤ u.pos.offset) (before ts : List Token)
    (hts : significant (Token.ofText p) = before ++ ts) (scopes : List OpenScope) (depth : Nat) :
    ∃ scopes' depth', locateFrom (p ++ newline :: q) scopes depth before.getLast? (ts ++ us) =
        orNext (locateFrom (p ++ newline :: q) scopes' depth' none us)
          (locateFrom p scopes depth before.getLast? ts) ∧
      (Stacked depth scopes → leftOpen '{' '}' depth ts = 0 →
        (∀ v ∈ visitsFrom p scopes depth before.getLast? ts,
          nests 0 ((significant (Token.ofText p)).filter v.holds) = true) →
            scopes' = [] ∧ depth' = 0) := by
  have hends := h.ends
  generalize hprev : before.getLast? = prev
  induction scopes, depth, prev, ts using search_induction generalizing before with
  | done scopes depth prev =>
    rw [List.append_nil] at hts
    rw [List.nil_append, locateFrom.eq_1]
    refine ⟨scopes, depth, ?_, fun hstack hdepth _ => ?_⟩
    · obtain ⟨last, hlast, hsemi⟩ := hts ▸ hends
      refine locateFrom_prev _ _ _ ?_ us
      obtain ⟨hk, ht⟩ := isPunct_iff.1 hsemi
      rw [← hprev, Option.mem_def.1 hlast]
      simp +decide [barsHead, isWord, isPunct, hk, ht]
    · obtain rfl : depth = 0 := hdepth
      exact ⟨hstack.eq_nil, rfl⟩
  | onward scopes depth prev t ts next hturn ih =>
    obtain ⟨passed, hpassed, hlast⟩ := exists_passed_of_turn hturn
    have hts' : significant (Token.ofText p) = (before ++ t :: passed) ++ next.ahead := by
      rw [hts, hpassed, List.append_assoc, List.cons_append]
    rw [List.cons_append, locateFrom_turn, locateFrom_turn, visitsFrom_turn, h.turn_append hts,
      hturn]
    obtain ⟨scopes', depth', hresult, hback⟩ := ih _ hts' (by rw [getLast?_behind, hlast])
    refine ⟨scopes', depth', hresult, fun hstack hdepth hnest => ?_⟩
    obtain ⟨hstack, hleft⟩ := stacked_of_turn hturn hstack
    exact hback hstack (hleft.trans hdepth) hnest
  | visit scopes depth prev t ts v hturn ih =>
    obtain ⟨hscopes, rfl, hkey, -⟩ := eq_of_turn_visit hturn
    obtain ⟨hbrace, lead, rfl⟩ := exists_lead_of_turn hturn
    have hts' : significant (Token.ofText p) =
        (before ++ v.key :: lead) ++ v.head.brace :: v.head.rest := by
      rw [hts, List.append_assoc, List.cons_append]
    obtain ⟨c, c', hc, hc', haggregate, hslice, hnext, hbody⟩ :=
      visit_append (q := q) h hts' hbrace hus
    rw [List.cons_append, locateFrom_turn, locateFrom_turn, visitsFrom_turn, h.turn_append hts,
      hturn]
    dsimp only [Turn.append]
    rw [hc, hc']
    dsimp only
    rw [haggregate, hslice, hnext]
    split
    · have hbehind : significant (Token.ofText p) =
          (before ++ v.key :: (lead ++ v.head.brace :: v.inside c)) ++ v.behind c := by
        rw [hts', ← v.inside_append_behind c]
        simp
      obtain ⟨scopes', depth', hresult, hback⟩ := ih c _ hbehind (by
        rw [getLast?_behind, getLast?_behind, Option.or_assoc, Option.some_or]
        rfl)
      refine ⟨scopes', depth', hresult, fun hstack hdepth hnest => ?_⟩
      -- the definition that is passed over is one that the search comes to
      have hlead : nests 0 lead = true := by
        have hhead := hnest v List.mem_cons_self
        have hpair := pairwise_significant p
        rw [hts] at hpair
        rwa [hts, Visit.filter_holds hpair] at hhead
      rw [leftOpen_behind hkey hbrace hlead (hbody depth)] at hdepth
      exact hback (hscopes ▸ hstack) hdepth fun w hw => hnest w (List.mem_cons_of_mem v hw)
    · exact ⟨[], 0, (ofHead_orNext _ v.scopes v.key v.head _).symm, fun _ _ _ => ⟨rfl, rfl⟩⟩

def lowerResult (bytes lines : Nat) : Except LocateFailure Interface →
    Except LocateFailure Interface
  | .ok i => .ok (i.lower lines)
  | .error e => .error (e.lower bytes lines)

theorem eq_lowerResult {bytes lines : Nat} {a b : Except LocateFailure Interface}
    (h : Agree lines (fun e f => f = e.lower bytes lines) a b) : b = lowerResult bytes lines a := by
  match a, b, h with
  | .ok i, .ok j, h => exact congrArg Except.ok h
  | .error e, .error f, h => exact congrArg Except.error h

theorem sameBody_lower {x q : Text} (hmask : mask (x ++ q) = mask x ++ mask q) (lines : Nat)
    (ts : List Token) (b : Pos) :
    SameBody q (x ++ q) (Pos.lower x.length lines) (fun e f => f = e.lower x.length lines)
      ts b := by
  have hscan : scanBlock (mask (x ++ q)) (b.lower x.length lines).offset =
      match scanBlock (mask q) b.offset with
      | .ok c => .ok { c with stop := c.stop + x.length }
      | .error e => .error (e.lower x.length) := by
    have := scanFrom_drop '{' '}' (mask x) (mask q) b.offset
    rw [length_mask, ← hmask] at this
    exact this
  unfold SameBody
  rw [hscan]
  cases hq : scanBlock (mask q) b.offset with
  | error e => exact rfl
  | ok c =>
    have hslice : Text.slice (x ++ q) ((b.lower x.length lines).offset + 1)
        (c.stop + x.length - 1) = Text.slice q (b.offset + 1) (c.stop - 1) := by
      have hlt : b.offset < c.stop := lt_stop_of_scanFrom hq
      have hfirst : (b.lower x.length lines).offset + 1 = b.offset + 1 + x.length := by
        change b.offset + x.length + 1 = _
        omega
      have hlast : c.stop + x.length - 1 = c.stop - 1 + x.length := by omega
      rw [hfirst, hlast, slice_drop]
    dsimp only
    rw [hslice]
    refine ⟨fun t _ => ?_, rfl, fun _ _ => rfl⟩
    simp [Pos.lower]

theorem locateFrom_lower {p : Text} (h : Closed p) (q : Text) :
    locateFrom (p ++ newline :: q) [] 0 none ((significant (Token.ofText q)).map
        (Token.moved (Pos.lower (p.length + 1) (p.count newline + 1)))) =
      lowerResult (p.length + 1) (p.count newline + 1) (locate q) := by
  have hlast := h.ends_in_semicolon
  have hmask : mask ((p ++ [newline]) ++ q) = mask (p ++ [newline]) ++ mask q := by
    have hnil : mask ([] : Text) = [] := by simp [mask, blankKinds, Lexeme.ofText]
    rw [Lexeme.mask_newline hlast h.comment [], hnil, List.append_assoc, List.singleton_append,
      Lexeme.mask_newline hlast h.comment q, List.append_assoc, List.singleton_append]
  have hrelocation : Relocation q ((p ++ [newline]) ++ q)
      (Pos.lower (p ++ [newline]).length (p.count newline + 1)) (p.count newline + 1)
      (fun e f => f = e.lower (p ++ [newline]).length (p.count newline + 1))
      (significant (Token.ofText q)) :=
    ⟨fun _ => rfl, rfl, fun b _ _ => sameBody_lower hmask _ _ b.pos⟩
  have hq := eq_lowerResult (locateFrom_agree hrelocation [] 0 none _ List.suffix_rfl)
  rwa [List.append_assoc, List.singleton_append, List.length_append, List.length_singleton] at hq

/-- The first declaration that qualifies is found, in document order. A closed header decides what
is found in it and anything behind it. If it declares nothing, and braces nest in the heads that the
search comes to, the rest is searched as if it stood alone. -/
theorem locate_newline {p : Text} (h : Closed p) (q : Text) :
    (locate p ≠ .error .noInterface → locate (p ++ newline :: q) = locate p) ∧
    (locate p = .error .noInterface →
      (∀ v ∈ visits p, nests 0 ((significant (Token.ofText p)).filter v.holds) = true) →
        locate (p ++ newline :: q) =
          lowerResult (p.length + 1) (p.count newline + 1) (locate q)) := by
  let behind := (significant (Token.ofText q)).map
    (Token.moved (Pos.lower (p.length + 1) (p.count newline + 1)))
  have hbehind : ∀ u ∈ behind, p.length ≤ u.pos.offset := by
    intro u hu
    obtain ⟨t, _, rfl⟩ := List.mem_map.1 hu
    change p.length ≤ t.pos.offset + (p.length + 1)
    omega
  obtain ⟨scopes, depth, hresult, hback⟩ :=
    locateFrom_newline (q := q) h hbehind [] (significant (Token.ofText p)) rfl [] 0
  have hlocate : locate (p ++ newline :: q) =
      orNext (locateFrom (p ++ newline :: q) scopes depth none behind) (locate p) := by
    rw [locate, significant_newline h.ends_in_semicolon h.comment q]
    exact hresult
  rw [hlocate]
  constructor
  · intro hne
    cases hr : locate p with
    | ok i => rfl
    | error e =>
      cases e with
      | noInterface => exact absurd hr hne
      | scan failure brace => rfl
      | noPureVirtual name body key => rfl
  · intro hnone hnest
    obtain ⟨rfl, rfl⟩ := hback trivial h.braces hnest
    rw [hnone]
    exact locateFrom_lower h q

/-- A class behind a namespace that a brace in a head leaves open is found first and for good.
Nothing is found in a plain aggregate with an attribute, so the class behind it is. -/
theorem locate_newline_aggregate :
    let p : Text :=
      "namespace a \x7b struct alignas(\x7d) X \x7b \x7d; class B \x7b virtual void f() = 0; \x7d;"
    let p' : Text := "struct alignas(f(\x7b \x7d)) P \x7b int x; \x7d;"
    let q : Text := "class Q \x7b virtual void g() = 0; \x7d;"
    (locate p ≠ .error .noInterface ∧ locate (p ++ newline :: q) = locate p) ∧
      locate p' = .error .noInterface ∧ (visits p').map (·.head.name) = [("P" : Text)] ∧
      locate (p' ++ newline :: q) =
        lowerResult (p'.length + 1) (p'.count newline + 1) (locate q) := by
  intro p p' q
  have hp : Closed p := by
    refine ⟨?_, ?_, ?_, ?_⟩
    all_goals decide +kernel
  have hp' : Closed p' := by
    refine ⟨?_, ?_, ?_, ?_⟩
    all_goals decide +kernel
  have hfound : locate p ≠ .error .noInterface := by decide +kernel
  have hnone : locate p' = .error .noInterface := by decide +kernel
  exact ⟨⟨hfound, (locate_newline hp q).1 hfound⟩, hnone, by decide +kernel,
    (locate_newline hp' q).2 hnone (by decide +kernel)⟩

/-- A closing brace in the argument list of a head counts for the balance of the header and not for
the search, which then takes the namespace to be open still. -/
theorem locate_newline_unnested :
    let p : Text := "namespace a \x7b struct alignas(\x7d) X \x7b \x7d;"
    let q : Text := "class Q \x7b virtual void f() = 0; \x7d;"
    Closed p ∧ locate p = .error .noInterface ∧
      locate (p ++ newline :: q) ≠ lowerResult (p.length + 1) (p.count newline + 1) (locate q) := by
  refine ⟨⟨?_, ?_, ?_, ?_⟩, ?_, ?_⟩
  all_goals decide +kernel

end Interface
end HeaderBridge
