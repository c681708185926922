import HeaderBridge.Proofs.Interface.Head
import HeaderBridge.Proofs.Source.Joined

namespace HeaderBridge
namespace Token

/-- How many brackets are open behind a token, if `depth` are open before it. A closer without an
opener does not count. -/
def openAfter (opener closer : Char) (depth : Nat) (t : Token) : Nat :=
  if t.isPunct opener then depth + 1 else if t.isPunct closer then depth - 1 else depth

/-- How many brackets are open behind the tokens, if `depth` are open before them. -/
def leftOpen (opener closer : Char) (depth : Nat) (ts : List Token) : Nat :=
  ts.foldl (openAfter opener closer) depth

section LeftOpen

variable {opener closer : Char}

@[simp] theorem leftOpen_nil (depth : Nat) : leftOpen opener closer depth [] = depth := rfl

@[simp] theorem leftOpen_cons (depth : Nat) (t : Token) (ts : List Token) :
    leftOpen opener closer depth (t :: ts) =
      leftOpen opener closer (openAfter opener closer depth t) ts :=
  rfl

@[simp] theorem leftOpen_append (depth : Nat) (ts us : List Token) :
    leftOpen opener closer depth (ts ++ us) =
      leftOpen opener closer (leftOpen opener closer depth ts) us := List.foldl_append

theorem leftOpen_mono (opener closer : Char) {d e : Nat} (h : d ≤ e) (ts : List Token) :
    leftOpen opener closer d ts ≤ leftOpen opener closer e ts := by
  induction ts generalizing d e with
  | nil => exact h
  | cons t ts ih =>
    refine ih ?_
    unfold openAfter
    split
    · omega
    · split
      · omega
      · exact h

/-- Nothing stays open in an end part of a list that leaves nothing open. -/
theorem leftOpen_suffix {ts us : List Token} (h : us <:+ ts) (depth : Nat)
    (hts : leftOpen opener closer depth ts = 0) : leftOpen opener closer 0 us = 0 := by
  obtain ⟨before, rfl⟩ := h
  rw [leftOpen_append] at hts
  have := leftOpen_mono opener closer (Nat.zero_le (leftOpen opener closer depth before)) us
  omega

/-- Tokens that are no brackets of a kind leave as many of them open as before. -/
theorem leftOpen_of_forall {ts : List Token}
    (h : ∀ t ∈ ts, t.isPunct opener = false ∧ t.isPunct closer = false) (depth : Nat) :
    leftOpen opener closer depth ts = depth := by
  induction ts with
  | nil => rfl
  | cons t ts ih =>
    obtain ⟨⟨hopen, hclose⟩, hts⟩ := List.forall_mem_cons.1 h
    rw [leftOpen_cons, openAfter, hopen, hclose]
    exact ih hts

end LeftOpen

def Ends (ts : List Token) : Prop := ∃ last ∈ ts.getLast?, last.isPunct ';' = true

theorem ends_cons {t : Token} {ts : List Token} (h : Ends (t :: ts)) :
    ts = [] ∧ t.isPunct ';' = true ∨ Ends ts := by
  obtain ⟨last, hlast, hl⟩ := h
  cases ts with
  | nil =>
    obtain rfl := Option.some.inj hlast
    exact .inl ⟨rfl, hl⟩
  | cons u us => exact .inr ⟨last, by simpa [List.getLast?_cons] using hlast, hl⟩

theorem Ends.ne_nil {ts : List Token} (h : Ends ts) : ts ≠ [] := by
  rintro rfl
  obtain ⟨last, hlast, _⟩ := h
  simp at hlast

theorem Ends.of_suffix {ts us : List Token} (h : Ends ts) (hs : us <:+ ts) (hne : us ≠ []) :
    Ends us := by
  obtain ⟨last, hlast, hl⟩ := h
  obtain ⟨before, rfl⟩ := hs
  obtain ⟨u, hu⟩ := Option.isSome_iff_exists.1 (List.getLast?_isSome.2 hne)
  rw [List.getLast?_append, hu, Option.some_or] at hlast
  exact ⟨last, hu ▸ hlast, hl⟩

theorem Ends.tail {t : Token} {ts : List Token} (h : Ends (t :: ts)) (ht : t.isPunct ';' = false) :
    Ends ts := by
  rcases ends_cons h with ⟨_, h⟩ | h
  · simp [ht] at h
  · exact h

theorem ends_of_last {p : Text} (h : (Lexeme.ofText p).getLast? = some Lexeme.semicolon) :
    Ends (significant (Token.ofText p)) := by
  obtain ⟨init, hinit⟩ := List.getLast?_eq_some_iff.1 h
  rw [Token.ofText, hinit, place_append, significant_append]
  refine ⟨⟨.punct, [';'], after Pos.start init⟩, ?_, rfl⟩
  rw [List.getLast?_append]
  rfl

theorem isPunct_unique {t : Token} {c d : Char} (h : t.isPunct c = true)
    (hcd : (c.toUInt8 == d.toUInt8) = false) : t.isPunct d = false := by
  obtain ⟨k, text, p⟩ := t
  obtain ⟨rfl, rfl⟩ := isPunct_iff.1 h
  simpa [isPunct] using hcd

theorem not_isPunct_of_isIdent {t : Token} (h : t.isIdent = true) (c : Char) :
    t.isPunct c = false := by
  simp only [isIdent, beq_iff_eq] at h
  simp [isPunct, h]

theorem isIdent_of_isWord {t : Token} {w : String} (h : t.isWord w = true) : t.isIdent = true :=
  (Bool.and_eq_true_iff.1 h).1

theorem isWord_unique {t : Token} {v w : String} (h : t.isWord v = true)
    (hvw : (Text.ofString v == Text.ofString w) = false) : t.isWord w = false := by
  obtain ⟨hkind, htext⟩ := isWord_iff.1 h
  rw [isWord, hkind, htext, hvw]
  rfl

theorem closeParen_append {depth : Nat} {ts : List Token} (h : Ends ts) (us : List Token) :
    closeParen depth (ts ++ us) = (closeParen depth ts).map fun r => (r.1, r.2 ++ us) := by
  induction ts generalizing depth with
  | nil => exact absurd rfl h.ne_nil
  | cons t ts ih =>
    rw [List.cons_append, closeParen.eq_def, closeParen.eq_def]
    dsimp only
    cases hsemi : t.isPunct ';' with
    | true =>
      simp [isPunct_unique hsemi (d := '(') (by decide),
        isPunct_unique hsemi (d := ')') (by decide)]
    | false =>
      simp only [ih (h.tail hsemi), Option.map_map, Function.comp_def]
      split
      · simp [Function.comp_def]
      · split
        · cases depth <;> simp [Function.comp_def]
        · simp [Function.comp_def]

end Token

namespace Interface

open Token

theorem isIdent_of_isClassKey {t : Token} (h : isClassKey t = true) : t.isIdent = true :=
  (Bool.or_eq_true_iff.1 h).elim isIdent_of_isWord isIdent_of_isWord

theorem afterBrackets_append {depth : Nat} {ts : List Token}
    (h : leftOpen '[' ']' (depth + 1) ts = 0) (us : List Token) :
    afterBrackets depth (ts ++ us) = (afterBrackets depth ts).map (· ++ us) := by
  induction ts generalizing depth with
  | nil => simp at h
  | cons t ts ih =>
    rw [leftOpen_cons, openAfter] at h
    rw [List.cons_append, afterBrackets.eq_def, afterBrackets.eq_def]
    dsimp only
    split
    · rw [if_pos ‹_›] at h
      exact ih h
    · rw [if_neg ‹_›] at h
      split
      · rw [if_pos ‹_›] at h
        cases depth with
        | zero => rfl
        | succ depth => exact ih h
      · rw [if_neg ‹_›] at h
        exact ih h

theorem headName_append (name : Text) {ts : List Token} (h : Ends ts)
    (hopen : leftOpen '[' ']' 0 ts = 0) (us : List Token) :
    headName name (ts ++ us) = (headName name ts).map (fun r => (r.1, r.2 ++ us)) ∧
      ∀ r ∈ headName name ts, r.2 ≠ [] := by
  induction hn : ts.length using Nat.strongRecOn generalizing name ts with
  | ind n ih =>
    subst hn
    cases ts with
    | nil => exact absurd rfl h.ne_nil
    | cons t ts =>
      have ih (name : Text) {vs : List Token} (hvs : vs <:+ ts) (hne : vs ≠ []) :=
        ih vs.length (Nat.lt_succ_of_le hvs.length_le) name
          (h.of_suffix (hvs.trans (List.suffix_cons t ts)) hne)
          (leftOpen_suffix (hvs.trans (List.suffix_cons t ts)) 0 hopen) rfl
      rw [List.cons_append, headName_cons, headName_cons]
      rcases ends_cons h with ⟨rfl, hsemi⟩ | hts
      · have hident : t.isIdent = false := by
          cases hi : t.isIdent with
          | false => rfl
          | true => simp [not_isPunct_of_isIdent hi] at hsemi
        have hfinal : t.isWord "final" = false := by simp_all [isWord, isIdent]
        simp [isPunct_unique hsemi (d := '[') (by decide), hident, hfinal]
      · have hhead : (ts ++ us).head? = ts.head? := by
          obtain ⟨u, vs, rfl⟩ := List.exists_cons_of_ne_nil hts.ne_nil
          rfl
        have htail : (ts ++ us).tail = ts.tail ++ us := List.tail_append_of_ne_nil hts.ne_nil
        rw [hhead, htail]
        split
        · rename_i hb
          simp only [Bool.and_eq_true] at hb
          have hafter : leftOpen '[' ']' 1 ts = 0 := by simpa [openAfter, hb.1] using hopen
          rw [afterBrackets_append hafter]
          cases hr : afterBrackets 0 ts with
          | none => simp
          | some rest =>
            obtain ⟨inner, close, _, hclose, heq⟩ := eq_of_afterBrackets hr
            have hrest : Ends rest :=
              (hts.of_suffix ⟨inner, heq.symm⟩ (by simp)).tail (isPunct_unique hclose (by decide))
            exact ih name (suffix_of_afterBrackets hr) hrest.ne_nil
        · split
          · simp
          · split
            · split
              · rename_i hparen
                obtain ⟨u, vs, rfl⟩ := List.exists_cons_of_ne_nil hts.ne_nil
                have hvs : Ends vs := hts.tail (isPunct_unique (by simpa using hparen) (by decide))
                rw [List.tail_cons, closeParen_append hvs]
                cases hr : closeParen 0 vs with
                | none => simp
                | some r =>
                  obtain ⟨inner, rest⟩ := r
                  obtain ⟨close, tail, rfl, hclose, heq⟩ := eq_of_closeParen hr
                  have htail : Ends tail :=
                    (hvs.of_suffix ⟨inner, heq.symm⟩ (by simp)).tail
                      (isPunct_unique hclose (by decide))
                  have hsuffix : tail <:+ u :: vs :=
                    (suffix_of_closeParen hr).trans (List.suffix_cons u vs)
                  exact ih name hsuffix htail.ne_nil
              · split
                · simp
                · exact ih t.text List.suffix_rfl hts.ne_nil
            · simp

theorem headBrace_append {angle : Nat} {ts : List Token} (h : Ends ts) (us : List Token) :
    headBrace angle (ts ++ us) = (headBrace angle ts).map fun r => (r.1, r.2 ++ us) := by
  induction ts generalizing angle with
  | nil => exact absurd rfl h.ne_nil
  | cons t ts ih =>
    rw [List.cons_append, headBrace, headBrace]
    cases hsemi : t.isPunct ';' with
    | true =>
      rw [sign?_of_isPunct hsemi (by decide)]
      rfl
    | false =>
      simp only [ih (h.tail hsemi)]
      split
      · rfl
      · rfl
      · rfl
      · split <;> rfl
      · split <;> rfl
      · rfl
      · rfl
      · rfl
      · split <;> rfl

theorem head?_append {prev : Option Token} {ts : List Token} (h : Ends ts)
    (hopen : leftOpen '[' ']' 0 ts = 0) (us : List Token) :
    head? prev (ts ++ us) = (head? prev ts).map fun r => { r with rest := r.rest ++ us } := by
  obtain ⟨hname, hne⟩ := headName_append [] h hopen us
  rw [head?, head?, hname]
  split
  · rfl
  · cases hr : headName [] ts with
    | none => rfl
    | some r =>
      obtain ⟨name, rest⟩ := r
      have hrest : Ends rest := h.of_suffix (suffix_of_headName hr) (hne _ hr)
      simp only [Option.map_some]
      split
      · rfl
      · simp [headBrace_append hrest, Function.comp_def]

theorem namespaceHead?_append {ts : List Token} (h : Ends ts) (us : List Token) :
    namespaceHead? (ts ++ us) = (namespaceHead? ts).map fun r => (r.1, r.2.1, r.2.2 ++ us) := by
  induction ts with
  | nil => exact absurd rfl h.ne_nil
  | cons t ts ih =>
    rw [List.cons_append, namespaceHead?, namespaceHead?]
    cases hsemi : t.isPunct ';' with
    | true =>
      obtain ⟨hk, _⟩ := isPunct_iff.1 hsemi
      simp [isPunct_unique hsemi (d := '{') (by decide), isIdent, hk]
    | false =>
      simp only [ih (h.tail hsemi), Option.map_map, Function.comp_def]
      split
      · rfl
      · split
        · simp [Function.comp_def]
        · split <;> rfl

end Interface
end HeaderBridge
