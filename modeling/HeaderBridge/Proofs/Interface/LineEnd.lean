import HeaderBridge.Proofs.Interface.Comments
import HeaderBridge.Proofs.Interface.Views
import HeaderBridge.Proofs.Source.LineEnd

namespace HeaderBridge

open Text

/-- Places keep their order when a carriage return is put in before each newline. -/
theorem Text.crlf_offset_lt (t : Text) (a b : Nat) :
    a + (t.take a).count newline < b + (t.take b).count newline ↔ a < b := by
  have hcount {a b : Nat} (h : a ≤ b) : (t.take a).count newline ≤ (t.take b).count newline :=
    (List.take_sublist_take_left h).count_le newline
  constructor
  · intro h
    rcases Nat.lt_or_ge a b with hab | hba
    · exact hab
    · have := hcount hba
      omega
  · intro h
    have := hcount (Nat.le_of_lt h)
    omega

namespace Lexeme

theorem count_take_blankKinds (p : TokenKind → Bool) (t : Text) (n : Nat) :
    ((blankKinds p t).take n).count newline = (t.take n).count newline := by
  have hblanked (l : Lexeme) : (blanked p l).map (· == newline) = l.text.map (· == newline) := by
    unfold blanked
    split
    · rw [List.map_map]
      exact List.map_congr_left fun b _ => blankByte_beq_newline b
    · rfl
  have hmap : (blankKinds p t).map (· == newline) = t.map (· == newline) := by
    have hspelling : (blankKinds p t).map (· == newline) =
        (spelling (ofText t)).map (· == newline) := by
      rw [blankKinds_eq, spelling, List.map_flatMap, List.map_flatMap]
      simp only [hblanked]
    rwa [spelling_ofText] at hspelling
  have hcount (u : Text) : u.count newline = (u.map (· == newline)).countP id := by
    rw [List.countP_map]
    rfl
  rw [hcount, hcount, List.map_take, List.map_take, hmap]

end Lexeme

namespace Token

variable {t : Text} {u : Token}

theorem exists_around (h : u ∈ significant (ofText t)) :
    ∃ x y, t = x ++ u.text ++ y ∧ u.pos.offset = x.length ∧ newline ∉ u.text := by
  obtain ⟨hmem, hk⟩ := List.mem_filter.1 h
  obtain ⟨ks, ms, hls, hpos⟩ := exists_of_mem_place hmem
  have hchain := Lexeme.chain_ofText t
  rw [hls] at hchain
  have hf := (Lexeme.chain_append.1 hchain).2.1
  refine ⟨Lexeme.spelling ks, Lexeme.spelling ms, ?_, ?_, hf.newline_not_mem hk⟩
  · rw [← Lexeme.spelling_ofText t, hls, Lexeme.spelling_append, Lexeme.spelling_cons,
      List.append_assoc]
  · rw [hpos, after_offset]
    exact Nat.zero_add _

theorem widen_offset (h : u ∈ significant (ofText t)) :
    u.pos.widen.offset = u.pos.offset + (t.take u.pos.offset).count newline := by
  have hline := line_eq (List.mem_filter.1 h).1
  rw [Pos.widen, hline, Nat.add_sub_cancel]

theorem widen_stop (h : u ∈ significant (ofText t)) :
    (u.moved Pos.widen).stop = u.stop + (t.take u.stop).count newline := by
  obtain ⟨x, y, ht, hoffset, hline⟩ := exists_around h
  have hbefore : t.take u.pos.offset = x := by rw [ht, hoffset, List.append_assoc, List.take_left]
  have hthrough : t.take u.stop = x ++ u.text := by
    rw [stop, ht, hoffset, ← List.length_append, List.take_left]
  have hwiden := widen_offset h
  rw [hbefore] at hwiden
  rw [hthrough, List.count_append, List.count_eq_zero.2 hline]
  change u.pos.widen.offset + u.text.length = u.pos.offset + u.text.length + _
  omega

theorem sameSpans_crlf (h : Uncontinued t) :
    SameSpans (moved Pos.widen) (stripComments t) (stripComments (crlf t))
      (significant (ofText t)) := by
  intro us hus
  rw [spanText, spanText, List.head?_map, List.getLast?_map]
  cases hfirst : us.head? with
  | none => rfl
  | some first =>
    cases hlast : us.getLast? with
    | none => rfl
    | some last =>
      have hfirst := hus (List.mem_of_head? hfirst)
      have hlast := hus (List.mem_of_getLast? hlast)
      have hstart : (first.moved Pos.widen).pos.offset =
          first.pos.offset + ((stripComments t).take first.pos.offset).count newline := by
        rw [stripComments, Lexeme.count_take_blankKinds]
        exact widen_offset hfirst
      have hstop : (last.moved Pos.widen).stop =
          last.stop + ((stripComments t).take last.stop).count newline := by
        rw [stripComments, Lexeme.count_take_blankKinds]
        exact widen_stop hlast
      have hwidened : Widened (stripComments t) (stripComments (crlf t)) :=
        (Lexeme.returned_ofText h).widened rfl
      dsimp only [Option.map_some]
      rw [hstart, hstop]
      by_cases hle : first.pos.offset ≤ last.stop
      · exact (hwidened.slice hle (stop_le_strip t last hlast)).collapse
      · -- the tokens may be listed in any order, and then they span nothing
        have hlt :=
          (crlf_offset_lt (stripComments t) last.stop first.pos.offset).2 (Nat.lt_of_not_le hle)
        rw [Text.slice, Text.slice, Nat.sub_eq_zero_of_le (Nat.le_of_lt hlt),
          Nat.sub_eq_zero_of_le (Nat.le_of_lt (Nat.lt_of_not_le hle)), List.take_zero,
          List.take_zero]

end Token

/-- A body declares the same methods on the same lines under both line ends. -/
theorem Method.ofBody_crlf {body : Text} (h : Uncontinued body) :
    ofBody (crlf body) = ofBody body := by
  have hlower (ms : List Method) : ms.map (lower 0) = ms := by simp
  have hcollect := collect_transfer (Token.moves_moved Pos.widen) (n := 0) 0 (fun _ _ => rfl)
    (Token.sameSpans_crlf h)
  rw [hlower] at hcollect
  rw [ofBody, ofBody, Token.significant_crlf h]
  exact hcollect

theorem LocateFailure.outline_unbalanced (offset : Nat) (region : Text) (brace : Pos) :
    (scan (.unbalanced offset region) brace).outline = (.unbalanced, (brace.line : Int)) := rfl

namespace Interface

theorem sameBody_crlf {s : Text} (h : Uncontinued s) {b : Token}
    (hb : b ∈ Token.significant (Token.ofText s)) (hbrace : b.isPunct '{') :
    SameBody s (crlf s) Pos.widen SameOutline (Token.significant (Token.ofText s)) b.pos := by
  obtain ⟨before, rest, hls, ho⟩ := Token.exists_of_brace hb hbrace
  obtain ⟨before', rest', hms, hbefore, hrest⟩ := (Lexeme.returned_ofText h).exists_openBrace hls
  have hbytes : Lexeme.spelling (before ++ Lexeme.openBrace :: rest) = s := by
    rw [← hls, Lexeme.spelling_ofText]
  have hbehind : (Pos.widen b.pos).offset = (Lexeme.spelling before').length := by
    have htake : s.take (Lexeme.spelling before).length = Lexeme.spelling before := by
      rw [← hbytes, Lexeme.spelling_append, List.take_left]
    rw [Token.widen_offset hb, ho, htake, hbefore.spelling, length_crlf]
  unfold SameBody
  rw [hbehind, ho, Lexeme.scanBlock_mask hls, Lexeme.scanBlock_mask hms]
  have hrel := hrest.splitBrace 0
  generalize hr : Lexeme.splitBrace 0 rest = r at hrel ⊢
  generalize hr' : Lexeme.splitBrace 0 rest' = r' at hrel ⊢
  cases hrel with
  | none =>
    exact (LocateFailure.outline_unbalanced _ _ b.pos).trans
      (LocateFailure.outline_unbalanced _ _ b.pos.widen).symm
  | @some r r' hinner =>
    obtain ⟨inner, after⟩ := r
    obtain ⟨inner', after'⟩ := r'
    have hinner : Lexeme.Returned inner inner' := hinner
    rw [Lexeme.eq_of_splitBrace hr] at hls hbytes
    rw [Lexeme.eq_of_splitBrace hr'] at hms
    have hplain : Uncontinued (Lexeme.spelling inner) := by
      intro l hl
      rw [Lexeme.ofText_inner hls] at hl
      refine h l ?_
      rw [hls]
      simp [hl]
    -- the closer too stands a byte further on for each line before it
    have hstop : (Lexeme.spelling before').length + (Lexeme.spelling inner').length + 2 =
        (Lexeme.spelling before).length + (Lexeme.spelling inner).length + 2 +
          (s.take ((Lexeme.spelling before).length + (Lexeme.spelling inner).length + 2)).count
            newline := by
      rw [Lexeme.take_stop hls, hbefore.spelling, hinner.spelling, length_crlf, length_crlf]
      simp +decide [Lexeme.openBrace, Lexeme.closeBrace]
      omega
    refine ⟨fun t ht => ?_, ?_, fun _ _ => rfl⟩
    · have hwiden : (Pos.widen t.pos).offset = t.pos.offset + (s.take t.pos.offset).count newline :=
        Token.widen_offset ht
      rw [decide_eq_decide]
      dsimp only
      rw [hstop, hwiden]
      exact crlf_offset_lt s _ _
    · dsimp only
      rw [Lexeme.slice_inner hls, Lexeme.slice_inner hms, hinner.spelling]
      exact Method.ofBody_crlf hplain

/-- A header without continued directives declares the same interface under both line ends, or fails
alike. -/
theorem locate_crlf (s : Text) (h : Uncontinued s) :
    (locate (crlf s)).mapError LocateFailure.outline =
      (locate s).mapError LocateFailure.outline := by
  have hcrlf : Relocation s (crlf s) Pos.widen 0 SameOutline (Token.significant (Token.ofText s)) :=
    ⟨fun _ => rfl, rfl, fun b hb hbrace => sameBody_crlf h hb hbrace⟩
  have hagree := mapError_of_agree (locateFrom_agree hcrlf [] 0 none _ List.suffix_rfl)
  rw [locate, locate, ← hagree, Token.significant_crlf h]
  rfl

theorem locate_crlf_guarded :
    let s : Text :=
      "#pragma once\nclass A \x7b // open\n  virtual int f(int n\n    = 0) = 0;\n\x7d;\n"
    Uncontinued s ∧
    (locate (crlf s)).mapError LocateFailure.outline = (locate s).mapError LocateFailure.outline ∧
      (locate (crlf s)).map (fun i => (i.name, i.line, i.methods.map (·.line))) =
        .ok ("A", 2, [3]) := by
  refine ⟨?_, locate_crlf _ ?_, ?_⟩
  all_goals decide +kernel

/-- A directive that is continued on the next line hides the class that stands there only if the
lines end with newlines alone. -/
theorem locate_continued :
    let s : Text := "#define S \\\nclass A \x7b virtual void f() = 0; \x7d;\n" ++
      "class B \x7b virtual void g() = 0; \x7d;\n"
    (locate s).map (fun i => (i.name, i.line)) = .ok ("B", 3) ∧
      (locate (crlf s)).map (fun i => (i.name, i.line)) = .ok ("A", 2) ∧
      (locate (crlf s)).mapError LocateFailure.outline ≠
        (locate s).mapError LocateFailure.outline := by
  refine ⟨?_, ?_, ?_⟩
  all_goals decide +kernel

end Interface
end HeaderBridge
