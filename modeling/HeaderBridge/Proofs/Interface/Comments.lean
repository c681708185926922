import HeaderBridge.Proofs.Interface.Relocation
import HeaderBridge.Proofs.Interface.Transfer
import HeaderBridge.Proofs.Source.Brace

namespace HeaderBridge

def LocateFailure.outline (e : LocateFailure) : Code × Int :=
  (e.notice.code, e.notice.location.line)

theorem Method.ofBody_stripComments (body : Text) : ofBody (stripComments body) = ofBody body := by
  have hg : Token.Moves Token.flat := ⟨fun _ => rfl, fun _ => rfl⟩
  have hflat (ts : List Token) : collect (stripComments body) 0 (ts.map Token.flat) =
      collect (stripComments body) 0 ts := by
    have hspans := Token.sameSpans_of_offset hg (fun _ => rfl) (stripComments body) ts
    simpa using collect_transfer hg (n := 0) 0 (fun _ _ => rfl) hspans
  rw [ofBody, ofBody, Lexeme.stripComments_stripComments, ← hflat, Token.readFrom_stripComments,
    hflat]

namespace Interface

/-- Failures of the same kind on the same line. -/
def SameOutline (e f : LocateFailure) : Prop := e.outline = f.outline

theorem mapError_of_agree {a b : Except LocateFailure Interface} (h : Agree 0 SameOutline a b) :
    b.mapError LocateFailure.outline = a.mapError LocateFailure.outline := by
  have hlower (i : Interface) : i.lower 0 = i := by simp [lower]
  cases a with
  | ok i =>
    cases b with
    | error f => exact h.elim
    | ok j =>
      have hsame : j = i.lower 0 := h
      rw [hsame, hlower]
  | error e =>
    cases b with
    | ok j => exact h.elim
    | error f =>
      have hsame : e.outline = f.outline := h
      exact congrArg Except.error hsame.symm

theorem sameBody_flat (s : Text) (ts : List Token) (b : Pos) :
    SameBody s s Pos.flat SameOutline ts b := by
  have hflat : b.flat.offset = b.offset := rfl
  unfold SameBody
  rw [hflat]
  cases scanBlock (mask s) b.offset with
  | error e => exact rfl
  | ok c => exact ⟨fun _ _ => rfl, rfl, fun _ _ => rfl⟩

theorem sameBody_stripComments (t : Text) {b : Token} (hb : b ∈ Token.significant (Token.ofText t))
    (hbrace : b.isPunct '{') :
    SameBody t (stripComments t) Pos.flat SameOutline (Token.significant (Token.ofText t))
      b.pos := by
  obtain ⟨before, rest, hls, ho⟩ := Token.exists_of_brace hb hbrace
  have hscan := Lexeme.scanBlock_mask hls
  have hflat : (Pos.flat b.pos).offset = b.pos.offset := rfl
  unfold SameBody
  rw [Lexeme.mask_stripComments, hflat, ho, hscan]
  cases hr : Lexeme.splitBrace 0 rest with
  | none => exact rfl
  | some r =>
    obtain ⟨inner, after⟩ := r
    rw [Lexeme.eq_of_splitBrace hr] at hls
    have hbare := Lexeme.slice_body (Lexeme.length_blanked TokenKind.isComment) before inner after
    rw [← hls] at hbare
    change Text.slice (stripComments t) _ _ = Lexeme.bare inner at hbare
    refine ⟨fun _ _ => rfl, ?_, fun _ _ => rfl⟩
    dsimp only
    rw [Lexeme.slice_inner hls, hbare, ← Method.ofBody_stripComments (Lexeme.spelling inner),
      Lexeme.stripComments_eq, Lexeme.ofText_inner hls]

/-- A header without its comments and directives declares the same interface, or fails alike. -/
theorem locate_stripComments (t : Text) :
    (locate (stripComments t)).mapError LocateFailure.outline =
      (locate t).mapError LocateFailure.outline := by
  have hbare : Relocation t (stripComments t) Pos.flat 0 SameOutline
      (Token.significant (Token.ofText t)) :=
    ⟨fun _ => rfl, rfl, fun b hb hbrace => sameBody_stripComments t hb hbrace⟩
  have hflat : Relocation (stripComments t) (stripComments t) Pos.flat 0 SameOutline
      (Token.significant (Token.ofText (stripComments t))) :=
    ⟨fun _ => rfl, rfl, fun b _ _ => sameBody_flat _ _ b.pos⟩
  have h := mapError_of_agree (locateFrom_agree hbare [] 0 none _ List.suffix_rfl)
  have h' := mapError_of_agree (locateFrom_agree hflat [] 0 none _ List.suffix_rfl)
  have htokens := Token.readFrom_stripComments t
  change List.map (Token.moved Pos.flat) _ = List.map (Token.moved Pos.flat) _ at htokens
  rw [locate, locate, ← h, ← h', htokens]

end Interface
end HeaderBridge
