import HeaderBridge.Proofs.Source.Place
import HeaderBridge.Proofs.Source.Seam
import HeaderBridge.Proofs.Text.Collapse

namespace HeaderBridge
namespace Token

def pinned (t : Token) : Token := { t with pos := Pos.start }

theorem map_pinned_place (p q : Pos) (ls : List Lexeme) :
    (significant (place p ls)).map pinned = (significant (place q ls)).map pinned := by
  induction ls generalizing p q with
  | nil => rfl
  | cons l ls ih =>
    rw [place_cons, place_cons, significant, significant, List.filter_cons, List.filter_cons]
    dsimp only
    split
    · exact congrArg (pinned ⟨l.kind, l.text, p⟩ :: ·) (ih (p.advance l.text) (q.advance l.text))
    · exact ih (p.advance l.text) (q.advance l.text)

/-- The text from the first token to the last as it is written, the blanks in it not folded. -/
def textOf (source : Text) (ts : List Token) : Text :=
  match ts.head?, ts.getLast? with
  | some first, some last => Text.slice source first.pos.offset last.stop
  | _, _ => []

theorem spanText_eq (source : Text) (ts : List Token) :
    spanText source ts = Text.collapse (textOf source ts) := by
  rw [spanText, textOf]
  cases ts.head? with
  | none => exact Text.collapse_nil.symm
  | some first =>
    cases ts.getLast? with
    | none => exact Text.collapse_nil.symm
    | some last => rfl

section Place

variable {source x y : Text} {ls : List Lexeme} {p : Pos}
    (hs : source = x ++ Lexeme.spelling ls ++ y)
  (hp : p.offset = x.length) (hfirst : ∀ l ∈ ls.head?, l.kind.isSignificant = true)
  (hlast : ∀ l ∈ ls.getLast?, l.kind.isSignificant = true)
include hs hp hfirst hlast

/-- The text of the tokens of lexemes that neither start nor end with one that carries no
meaning. -/
theorem textOf_place : textOf source (significant (place p ls)) = Lexeme.spelling ls := by
  by_cases hnil : ls = []
  · subst hnil
    rfl
  · have hhead : ∃ t ∈ (significant (place p ls)).head?, t.pos.offset = x.length := by
      obtain ⟨l, rest, rfl⟩ := List.exists_cons_of_ne_nil hnil
      have hl := hfirst l rfl
      exact ⟨⟨l.kind, l.text, p⟩, by simp [significant, hl], hp⟩
    have hend : ∃ t ∈ (significant (place p ls)).getLast?,
        t.stop = x.length + (Lexeme.spelling ls).length := by
      obtain ⟨init, l, rfl⟩ := List.eq_nil_or_concat ls |>.resolve_left hnil
      have hl := hlast l (by simp)
      refine ⟨⟨l.kind, l.text, after p init⟩, ?_, ?_⟩
      · rw [List.concat_eq_append, place_append, significant_append]
        simp [significant, place, hl]
      · have := after_offset p init
        simp only [stop, this, hp, List.concat_eq_append, Lexeme.spelling_append,
          Lexeme.spelling_cons, Lexeme.spelling_nil, List.length_append, List.append_nil]
        omega
    obtain ⟨first, hf, hoff⟩ := hhead
    obtain ⟨last, hl, hstop⟩ := hend
    have hslice : Text.slice source x.length (x.length + (Lexeme.spelling ls).length) =
        Lexeme.spelling ls := by
      rw [hs, Text.slice, Nat.add_sub_cancel_left, List.append_assoc, List.drop_left,
        List.take_left]
    rw [textOf, Option.mem_def.1 hf, Option.mem_def.1 hl]
    dsimp only
    rw [hoff, hstop, hslice]

theorem spanText_place :
    spanText source (significant (place p ls)) = Text.collapse (Lexeme.spelling ls) := by
  rw [spanText_eq, textOf_place hs hp hfirst hlast]

end Place

end Token
end HeaderBridge
