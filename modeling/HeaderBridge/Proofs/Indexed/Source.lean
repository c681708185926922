import HeaderBridge.Proofs.Indexed.Cursor

namespace HeaderBridge
namespace Checked

open Token

/-- Blanks the bytes from index `i` up to index `stop`, as far as there are any. -/
def blankRun (stop : Nat) (buf : Text) (i : Nat) : Checked Text := do
  if i < stop ∧ i < buf.length then
    let b ← at? buf i
    if b == newline then blankRun stop buf (i + 1)
    else
      let blanked ← set? buf i ' '
      blankRun stop blanked (i + 1)
  else return buf
termination_by stop - i

/-- Blanks the tokens whose kind satisfies `p`, one after the other. -/
def blankTokens (p : TokenKind → Bool) : Text → List Token → Checked Text
  | buf, [] => return buf
  | buf, t :: ts => do
    if p t.kind then
      let blanked ← blankRun t.stop buf t.pos.offset
      blankTokens p blanked ts
    else blankTokens p buf ts

def blankKinds (p : TokenKind → Bool) (t : Text) : Checked Text := blankTokens p t (Token.ofText t)

theorem blankRun_eq {buf x t y : Text} {i : Nat} (h : Cursor buf x (t ++ y) i) :
    blankRun (i + t.length) buf i = some (x ++ (t.map blankByte ++ y)) := by
  induction t generalizing buf x i with
  | nil =>
    rw [blankRun, if_neg (by simp)]
    exact congrArg some h.split
  | cons b t ih =>
    have hlen : i + (b :: t).length = i + 1 + t.length := by rw [List.length_cons]; omega
    have hstep : Cursor (x ++ blankByte b :: (t ++ y)) (x ++ [blankByte b]) (t ++ y) (i + 1) := by
      refine ⟨by simp, ?_⟩
      rw [h.index, List.length_append, List.length_singleton]
    have hrun := ih hstep
    rw [List.append_assoc, List.singleton_append] at hrun
    rw [blankRun, if_pos ⟨by simp, h.lt⟩, h.at?, some_bind, hlen]
    by_cases hb : b = newline
    · -- a newline stays
      have hbuf : buf = x ++ blankByte b :: (t ++ y) := by
        rw [h.split, blankByte, if_pos (beq_iff_eq.2 hb)]
        rfl
      rw [if_pos (beq_iff_eq.2 hb), hbuf]
      exact hrun
    · have hblank : blankByte b = ' ' := if_neg (mt beq_iff_eq.1 hb)
      rw [if_neg (mt beq_iff_eq.1 hb), h.set?, some_bind, ← hblank]
      exact hrun

theorem blankTokens_eq (p : TokenKind → Bool) (x : Text) (ls : List Lexeme) (start : Pos)
    (hstart : start.offset = x.length) :
    blankTokens p (x ++ Lexeme.spelling ls) (place start ls) =
      some (x ++ ls.flatMap (Lexeme.blanked p)) := by
  induction ls generalizing x start with
  | nil => rfl
  | cons l ls ih =>
    have hnext : (start.advance l.text).offset = (x ++ Lexeme.blanked p l).length := by
      rw [Pos.advance_offset, hstart, List.length_append, Lexeme.length_blanked]
    have hrest := ih (x ++ Lexeme.blanked p l) (start.advance l.text) hnext
    rw [List.append_assoc, List.append_assoc] at hrest
    rw [place_cons, blankTokens, Lexeme.spelling_cons, List.flatMap_cons]
    dsimp only
    split
    · rename_i hl
      have hcut : Cursor (x ++ (l.text ++ Lexeme.spelling ls)) x (l.text ++ Lexeme.spelling ls)
          start.offset :=
        ⟨rfl, hstart⟩
      have hblanked : Lexeme.blanked p l = l.text.map blankByte := if_pos hl
      rw [Token.stop, blankRun_eq hcut, some_bind, ← hblanked]
      exact hrest
    · rename_i hl
      have hblanked : Lexeme.blanked p l = l.text := if_neg hl
      rw [hblanked] at hrest ⊢
      exact hrest

theorem blankKinds_eq (p : TokenKind → Bool) (t : Text) :
    blankKinds p t = some (HeaderBridge.blankKinds p t) := by
  have h := blankTokens_eq p [] (Lexeme.ofText t) Pos.start rfl
  rw [Lexeme.spelling_ofText] at h
  exact h

/-- Counts delimiters from index `i` on until no scope is open. Tells how many still are, and the
index behind. -/
def closeScopes (opener closer : UInt8) (text : Text) (depth i : Nat) : Checked (Nat × Nat) := do
  if i < text.length ∧ 0 < depth then
    let a ← at? text i
    if a == opener then closeScopes opener closer text (depth + 1) (i + 1)
    else if a == closer then closeScopes opener closer text (depth - 1) (i + 1)
    else closeScopes opener closer text depth (i + 1)
  else return (depth, i)
termination_by text.length - i

def scanDelimited (opener closer : UInt8) (text : Text) (index : Int) :
    Checked (Except ScanFailure Scope) := do
  if index < 0 ∨ text.length ≤ index then return .error (.invalidStart index none)
  else
    let a ← at? text index
    if a != opener then return .error (.invalidStart index (some a))
    else
      let (depth, stop) ← closeScopes opener closer text 1 (index.toNat + 1)
      if depth ≠ 0 then
        let region ← slice? text index text.length
        return .error (.unbalanced index.toNat region)
      else
        let inner ← slice? text (index + 1) (stop - 1)
        return .ok ⟨inner, stop⟩

theorem closerLength_bounds {opener closer : UInt8} {depth n : Nat} {t : Text}
    (h : closerLength opener closer depth t = some n) : 0 < n ∧ n ≤ t.length := by
  fun_induction closerLength opener closer depth t generalizing n <;> grind [Option.map_eq_some_iff]

/-- A closer is found where counting from the front finds it, and else some scope stays open. -/
theorem closeScopes_eq (opener closer : UInt8) {text passed ahead : Text} {i : Nat}
    (h : Cursor text passed ahead i) (depth : Nat) :
    ∃ r, closeScopes opener closer text (depth + 1) i = some r ∧
      match closerLength opener closer depth ahead with
      | some n => r = (0, i + n)
      | none => r.1 ≠ 0 := by
  induction ahead generalizing passed i depth with
  | nil =>
    refine ⟨(depth + 1, i), ?_, Nat.succ_ne_zero depth⟩
    rw [closeScopes, if_neg fun hi => h.not_lt hi.1]
    rfl
  | cons a ahead ih =>
    have hstep (depth : Nat) : ∃ r, closeScopes opener closer text (depth + 1) (i + 1) = some r ∧
        match (closerLength opener closer depth ahead).map (· + 1) with
        | some n => r = (0, i + n)
        | none => r.1 ≠ 0 := by
      obtain ⟨r, hr, hfound⟩ := ih h.next depth
      refine ⟨r, hr, ?_⟩
      cases hlen : closerLength opener closer depth ahead with
      | none =>
        rw [hlen] at hfound
        exact hfound
      | some n =>
        rw [hlen] at hfound
        rw [hfound]
        exact congrArg (Prod.mk 0) (Nat.succ_add_eq_add_succ i n)
    rw [closeScopes, if_pos ⟨h.lt, Nat.succ_pos depth⟩, h.at?, some_bind, closerLength.eq_def]
    dsimp only
    split
    · exact hstep (depth + 1)
    · split
      · cases depth with
        | zero =>
          refine ⟨(0, i + 1), ?_, rfl⟩
          rw [closeScopes, if_neg fun hi => Nat.lt_irrefl 0 hi.2]
          rfl
        | succ depth => exact hstep depth
      · exact hstep depth

theorem scanDelimited_eq (opener closer : UInt8) (text : Text) (index : Int) :
    scanDelimited opener closer text index =
      some (HeaderBridge.scanDelimited opener closer text index) := by
  unfold scanDelimited
  cases index with
  | negSucc n => rw [if_pos (.inl (Int.negSucc_lt_zero n))]; rfl
  | ofNat index =>
    change _ = some (scanFrom opener closer text index)
    cases hdrop : text.drop index with
    | nil =>
      have hlen := List.drop_eq_nil_iff.1 hdrop
      rw [if_pos (.inr (Int.ofNat_le.2 hlen)), scanFrom, hdrop]
      rfl
    | cons a rest =>
      have hlt : index < text.length := by
        rw [← Nat.not_le, ← List.drop_eq_nil_iff, hdrop]
        exact List.cons_ne_nil a rest
      have hcut : Cursor text (text.take index) (a :: rest) index :=
        hdrop ▸ Cursor.ofIndex (Nat.le_of_lt hlt)
      have hin : ¬ (Int.ofNat index < 0 ∨ (text.length : Int) ≤ Int.ofNat index) := by
        simp only [Int.ofNat_eq_natCast]
        omega
      have hat : at? text (Int.ofNat index) = some a := hcut.at?
      rw [if_neg hin, hat, scanFrom, hdrop]
      simp only [some_bind]
      split
      · rfl
      · obtain ⟨⟨depth, stop⟩, hloop, hfound⟩ := closeScopes_eq opener closer hcut.next 0
        have htoNat : (Int.ofNat index).toNat = index := rfl
        rw [htoNat, hloop, some_bind]
        cases hlen : closerLength opener closer 0 rest with
        | none =>
          have hregion : slice? text (Int.ofNat index) text.length = some (text.drop index) := by
            rw [Int.ofNat_eq_natCast, slice?_of_le (Nat.le_of_lt hlt) (Nat.le_refl _),
              ← List.length_drop, List.take_length]
          rw [hlen] at hfound
          dsimp only at hfound ⊢
          rw [if_pos hfound, hregion, hdrop]
          rfl
        | some n =>
          obtain ⟨hpos, hle⟩ := closerLength_bounds hlen
          have hlast : (stop : Int) - 1 =
              ((index + 1 : Nat) : Int) + ((rest.take (n - 1)).length : Nat) := by
            rw [hlen] at hfound
            obtain ⟨-, rfl⟩ := Prod.mk.inj hfound
            rw [List.length_take]
            omega
          have hinner : slice? text (Int.ofNat index + 1) ((stop : Int) - 1) =
              some (rest.take (n - 1)) := by
            have hnext := hcut.next
            rw [← List.take_append_drop (n - 1) rest] at hnext
            exact hnext.slice? hlast
          rw [hlen] at hfound
          obtain ⟨rfl, rfl⟩ := Prod.mk.inj hfound
          dsimp only
          rw [if_neg (not_not_intro rfl), hinner]
          rfl

def spanText (source : Text) (ts : List Token) : Checked Text := do
  if ts.length = 0 then return []
  else
    let first ← at? ts 0
    let last ← at? ts ((ts.length : Int) - 1)
    let span ← slice? source first.pos.offset (last.pos.offset + last.text.length)
    return Text.collapse span

/-- Tokens stand in a text in order, and end within it. -/
structure Within (source : Text) (ts : List Token) : Prop where
  order : ts.Pairwise fun t u => t.pos.offset < u.pos.offset
  stop : ∀ t ∈ ts, t.stop ≤ source.length

theorem Within.sublist {source : Text} {ts us : List Token} (h : Within source ts)
    (hus : us.Sublist ts) : Within source us :=
  ⟨h.order.sublist hus, fun t ht => h.stop t (hus.subset ht)⟩

theorem within_stripComments (t : Text) : Within (stripComments t) (significant (Token.ofText t)) :=
  ⟨(pairwise_offset t).sublist List.filter_sublist, stop_le_strip t⟩

theorem spanText_eq {source : Text} {ts : List Token} (h : Within source ts) :
    spanText source ts = some (Token.spanText source ts) := by
  cases ts with
  | nil => rfl
  | cons first ts =>
    obtain ⟨init, last, hinit⟩ :=
      (List.eq_nil_or_concat (first :: ts)).resolve_left (List.cons_ne_nil first ts)
    rw [List.concat_eq_append] at hinit
    have hfirst : at? (first :: ts) 0 = some first := (Cursor.start (first :: ts)).at?
    have hmem : last ∈ first :: ts := by
      rw [hinit]
      exact List.mem_append_right _ (List.mem_singleton_self last)
    -- the last token is the first one or stands behind it
    have horder : first.pos.offset ≤ last.stop := by
      rw [Token.stop]
      rcases List.mem_cons.1 hmem with rfl | hlast
      · omega
      · have := List.rel_of_pairwise_cons h.order hlast
        omega
    have hspan := slice?_of_le horder (h.stop last hmem)
    have hlast? : (first :: ts).getLast? = some last := by rw [hinit, List.getLast?_concat]
    have hne : ¬ (first :: ts).length = 0 := Nat.succ_ne_zero ts.length
    rw [spanText, if_neg hne, hfirst, at?_last hinit, Token.spanText, List.head?_cons, hlast?]
    simp only [some_bind]
    rw [← Int.natCast_add, ← Token.stop, hspan]
    rfl

end Checked
end HeaderBridge
