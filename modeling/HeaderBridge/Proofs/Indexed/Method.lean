import HeaderBridge.Proofs.Indexed.Parameter

namespace HeaderBridge
namespace Checked

open Token

/-- The index of the `(` that opens the parameter list, from index `j` on, in a declaration that
starts at index `start`. -/
def paramsFrom (toks : List Token) (start angle j : Nat) : Checked (Option Nat) := do
  if j < toks.length then
    let t ← at? toks j
    match t.sign? with
    | some '<' =>
      if start < j then
        let prev ← at? toks ((j : Int) - 1)
        paramsFrom toks start (if prev.isIdent then angle + 1 else angle) (j + 1)
      else paramsFrom toks start angle (j + 1)
    | some '>' => paramsFrom toks start (angle - 1) (j + 1)
    | some '(' => if angle = 0 then return some j else paramsFrom toks start angle (j + 1)
    | some ';' | some '{' | some '}' | some '=' => return none
    | _ => paramsFrom toks start angle (j + 1)
  else return none
termination_by toks.length - j

theorem paramsFrom_eq {toks passed seen ahead : List Token} {start j : Nat}
    (h : Cursor toks passed (seen ++ ahead) start) (hj : j = start + seen.length) (angle : Nat) :
    paramsFrom toks start angle j =
      some ((Method.splitParams angle seen.getLast? ahead).map fun r => j + r.1.length) := by
  induction ahead generalizing seen j angle with
  | nil =>
    have hhere := h.skip
    rw [← hj] at hhere
    rw [paramsFrom, if_neg hhere.not_lt]
    rfl
  | cons t ahead ih =>
    have hhere := h.skip
    rw [← hj] at hhere
    have hnext : Cursor toks passed ((seen ++ [t]) ++ ahead) start := by simpa using h
    have hstep (angle : Nat) : paramsFrom toks start angle (j + 1) =
        some (((Method.splitParams angle (some t) ahead).map fun r => (t :: r.1, r.2)).map fun r =>
          j + r.1.length) := by
      have hlen : j + 1 = start + (seen ++ [t]).length := by
        rw [hj, List.length_append, List.length_singleton, Nat.add_assoc]
      rw [ih hnext hlen, List.getLast?_concat, Option.map_map]
      simp only [Function.comp_def, List.length_cons, Nat.add_assoc, Nat.add_comm 1]
    rw [paramsFrom, if_pos hhere.lt, hhere.at?, some_bind, Method.splitParams]
    generalize t.sign? = sign
    split
    · -- a token before counts only inside the declaration
      rcases List.eq_nil_or_concat seen with rfl | ⟨init, prev, rfl⟩
      · rw [if_neg (by rw [hj]; exact Nat.lt_irrefl start)]
        exact hstep angle
      · rw [List.concat_eq_append] at *
        have hlt : start < j := by
          rw [hj, List.length_append, List.length_singleton]
          omega
        rw [← List.append_assoc] at hhere
        rw [if_pos hlt, hhere.before, some_bind, List.getLast?_concat]
        exact hstep _
    · exact hstep (angle - 1)
    · split
      · rfl
      · exact hstep angle
    · rfl
    · rfl
    · rfl
    · rfl
    · -- no other sign matters to either reader
      have hrest := hstep angle
      grind

/-- Whether a word stands at an index, and the index behind it or the same one. -/
def takeWord (w : String) (toks : List Token) (i : Nat) : Checked (Bool × Nat) := do
  if i < toks.length then
    let t ← at? toks i
    return if t.isWord w then (true, i + 1) else (false, i)
  else return (false, i)

/-- Reads the mark `= 0 ;` at index `i`, and tells the index behind it. -/
def markAt (toks : List Token) (i : Nat) : Checked (Option Nat) := do
  if toks.length ≤ i + 2 then return none
  else
    let mark ← at? toks i
    let zero ← at? toks (i + 1)
    let semicolon ← at? toks (i + 2)
    if mark.isPunct '=' && (zero.kind == .number && zero.text == ("0" : Text)) &&
        semicolon.isPunct ';' then
      return some (i + 3)
    else return none

def readTail (toks : List Token) (i : Nat) : Checked (Option (Bool × Bool × Nat)) := do
  let c ← takeWord "const" toks i
  let n ← takeWord "noexcept" toks c.2
  let stop ← markAt toks n.2
  return stop.map fun stop => (c.1, n.1, stop)

theorem takeWord_eq {toks passed ahead : List Token} {i : Nat} (h : Cursor toks passed ahead i)
    (w : String) : ∃ passed' i', takeWord w toks i = some ((Method.takeWord w ahead).1, i') ∧
      Cursor toks passed' (Method.takeWord w ahead).2 i' := by
  cases ahead with
  | nil =>
    refine ⟨passed, i, ?_, h⟩
    rw [takeWord, if_neg h.not_lt]
    rfl
  | cons t ahead =>
    rw [takeWord, if_pos h.lt, h.at?, some_bind, Method.takeWord]
    split
    · exact ⟨_, i + 1, rfl, h.next⟩
    · exact ⟨passed, i, rfl, h⟩

theorem markAt_eq {toks passed ahead : List Token} {i : Nat} (h : Cursor toks passed ahead i) :
    markAt toks i =
      some ((Method.afterPureMark ahead).map fun rest => toks.length - rest.length) := by
  have hlen : toks.length = i + ahead.length := by rw [h.split, h.index, List.length_append]
  have hshort (hahead : ahead.length ≤ 2) : markAt toks i = some none := by
    rw [markAt, if_pos (by omega)]
    rfl
  match ahead with
  | [] => exact hshort (Nat.zero_le 2)
  | [_] => exact hshort (Nat.le_succ 1)
  | [_, _] => exact hshort (Nat.le_refl 2)
  | mark :: zero :: semicolon :: rest =>
    have hnot : ¬ toks.length ≤ i + 2 := by
      rw [hlen, List.length_cons, List.length_cons, List.length_cons]
      omega
    have hzero : at? toks ((i : Int) + 1) = some zero := h.next.at?
    have hsemicolon : at? toks ((i : Int) + 2) = some semicolon := h.next.next.at?
    have hbehind : toks.length - rest.length = i + 3 := by
      rw [hlen, List.length_cons, List.length_cons, List.length_cons]
      omega
    rw [markAt, if_neg hnot, h.at?, some_bind, hzero, some_bind, hsemicolon, some_bind,
      Method.afterPureMark]
    split
    · rw [Option.map_some, hbehind]
      rfl
    · rfl

theorem readTail_eq {toks passed ahead : List Token} {i : Nat} (h : Cursor toks passed ahead i) :
    readTail toks i =
      some ((Method.readTail ahead).map fun r => (r.1, r.2.1, toks.length - r.2.2.length)) := by
  obtain ⟨_, j, hconst, hbehindConst⟩ := takeWord_eq h "const"
  obtain ⟨_, k, hnoexcept, hbehind⟩ := takeWord_eq hbehindConst "noexcept"
  rw [readTail, hconst, some_bind, hnoexcept, some_bind, markAt_eq hbehind, some_bind,
    Method.readTail, Option.map_map, Option.map_map]
  rfl

/-- Reads the declaration from index `start` on, right behind its first word, and tells the index
behind it. -/
def method (source : Text) (toks : List Token) (line : Nat) (start : Nat) :
    Checked (Option (Method × Nat)) := do
  match ← paramsFrom toks start 0 start with
  | none => return none
  | some opener =>
    let nameIndex : Int := (opener : Int) - 1
    if nameIndex ≤ start then return none
    else
      let name ← at? toks nameIndex
      let prev ← at? toks (nameIndex - 1)
      if !Method.isMethodName prev name then return none
      else
        match ← matchParen toks opener with
        | none => return none
        | some close =>
          let type ← slice? toks start nameIndex
          let returnType ← spanText source type
          let inner ← slice? toks (opener + 1) close
          let parameters ← parameters source inner
          let tail ← readTail toks (close + 1)
          return tail.map fun r =>
            ({ returnType, name := name.text, parameters,
               isConst := r.1, isNoexcept := r.2.1, line }, r.2.2)

/-- A declaration is read from slices of the tokens, whether it fits or not. -/
theorem method_eq {source : Text} {toks passed ahead : List Token} (hw : Within source toks)
    {start : Nat} (h : Cursor toks passed ahead start) (line : Nat) :
    method source toks line start = some ((Method.declaration? ahead).map fun d =>
      (Method.ofDeclaration source line d, toks.length - d.rest.length)) := by
  have hhere : Cursor toks passed ([] ++ ahead) start := h
  have hopen := paramsFrom_eq hhere (Nat.add_zero start).symm 0
  rw [List.getLast?_nil] at hopen
  rw [method, hopen, some_bind, Method.declaration?]
  cases hsplit : Method.splitParams 0 none ahead with
  | none => rfl
  | some r =>
    obtain ⟨head, afterOpen⟩ := r
    obtain ⟨opener, hparen, rfl⟩ := Method.eq_of_splitParams hsplit
    dsimp only [Option.map_some]
    have hopener := h.skip
    rcases List.eq_nil_or_concat head with rfl | ⟨before, name, rfl⟩
    · have hempty : ((start + ([] : List Token).length : Nat) : Int) - 1 ≤ start := by
        rw [List.length_nil]
        omega
      rw [if_pos hempty]
      rfl
    rcases List.eq_nil_or_concat before with rfl | ⟨init, prev, rfl⟩
    · rw [if_pos (by simp)]
      rfl
    -- a name and at least one token of a type stand before the parenthesis
    rw [List.concat_eq_append, List.concat_eq_append] at *
    have hlen : (init ++ [prev] ++ [name]).length = (init ++ [prev]).length + 1 :=
      List.length_append
    have hpos : 0 < (init ++ [prev]).length := by
      rw [List.length_append, List.length_singleton]
      exact Nat.succ_pos _
    have hname := hopener
    rw [← List.append_assoc] at hname
    obtain ⟨k, hk, hname⟩ := hname.back
    have htype : Cursor toks passed ((init ++ [prev]) ++ name :: opener :: afterOpen) start := by
      simpa using h
    have hindex : ((start + (init ++ [prev] ++ [name]).length : Nat) : Int) - 1 = k := by omega
    have hreverse : (init ++ [prev] ++ [name]).reverse = name :: prev :: init.reverse := by simp
    have hprev : at? toks ((k : Int) - 1) = some prev := by
      rw [← List.append_assoc] at hname
      exact hname.before
    rw [hindex, if_neg (by omega), hname.at?, some_bind, hprev, some_bind, hreverse]
    dsimp only
    split
    · rfl
    rw [matchParen_eq hparen hopener, some_bind]
    cases hclose : closeParen 0 afterOpen with
    | none => rfl
    | some r =>
      obtain ⟨params, behind⟩ := r
      obtain ⟨closer, tail, rfl, -, rfl⟩ := eq_of_closeParen hclose
      have hparams := hopener.next
      have htail := hparams.skip.next
      have hslice : slice? toks ((start + (init ++ [prev] ++ [name]).length : Nat) + 1 : Int)
          ((start + (init ++ [prev] ++ [name]).length + 1 + params.length : Nat) : Int) =
            some params :=
        hparams.slice? (by omega)
      dsimp only [Option.map_some]
      rw [htype.slice? (by omega), some_bind, spanText_eq (hw.sublist htype.sublist), some_bind,
        hslice, some_bind, parameters_eq (hw.sublist hparams.sublist), some_bind, readTail_eq htail,
        some_bind, Option.map_map, Option.map_map, List.tail_cons, List.reverse_cons,
        List.reverse_reverse]
      rfl

def collectFrom (source : Text) (toks : List Token) (depth i : Nat) : Checked (List Method) := do
  if i < toks.length then
    let t ← at? toks i
    if t.isPunct '{' then collectFrom source toks (depth + 1) (i + 1)
    else if t.isPunct '}' then collectFrom source toks (depth - 1) (i + 1)
    else if depth = 0 ∧ t.isWord "virtual" then
      match ← method source toks t.pos.line (i + 1) with
      | none => collectFrom source toks depth (i + 1)
      | some (m, next) =>
        let ⟨_⟩ ← nearer? i next
        let methods ← collectFrom source toks depth next
        return m :: methods
    else collectFrom source toks depth (i + 1)
  else return []
termination_by toks.length - i

theorem collectFrom_eq {source : Text} {toks passed ahead : List Token} (hw : Within source toks)
    {i : Nat} (h : Cursor toks passed ahead i) (depth : Nat) :
    collectFrom source toks depth i = some (Method.collect source depth ahead) := by
  induction depth, ahead using Method.collect_induction generalizing passed i with
  | done =>
    rw [collectFrom, if_neg h.not_lt, Method.collect]
    rfl
  | passed depth t ahead hnone ih =>
    have hnext := ih h.next
    rw [collectFrom, if_pos h.lt, h.at?, some_bind, Method.collect_step, hnone]
    dsimp only
    cases hopen : t.isPunct '{' with
    | true => simpa [openAfter, hopen] using hnext
    | false =>
      cases hclose : t.isPunct '}' with
      | true => simpa [openAfter, hopen, hclose] using hnext
      | false =>
        have hdepth : openAfter '{' '}' depth t = depth := by simp [openAfter, hopen, hclose]
        rw [hdepth] at hnext ⊢
        rw [if_neg (by simp), if_neg (by simp)]
        split
        · rename_i hvirtual
          rw [Method.declared?, if_pos hvirtual] at hnone
          rw [method_eq hw h.next, hnone, some_bind]
          exact hnext
        · exact hnext
  | declared t ahead d hd ih =>
    obtain ⟨_, hvirtual, hread⟩ := Method.declared?_eq_some.1 hd
    have hident := isIdent_of_isWord hvirtual
    have hrest : d.rest <:+ toks :=
      (Method.suffix_of_declaration? hread).trans ⟨passed ++ [t], h.next.split.symm⟩
    obtain ⟨_, hbehind⟩ := Cursor.ofSuffix hrest
    have hnear : i < toks.length - d.rest.length := by
      have := h.next.index_eq
      have := Method.declaration?_length hread
      omega
    rw [collectFrom, if_pos h.lt, h.at?, some_bind, not_isPunct_of_isIdent hident,
      not_isPunct_of_isIdent hident, if_neg (by simp), if_neg (by simp), if_pos ⟨rfl, hvirtual⟩,
      method_eq hw h.next, hread, some_bind, Method.collect_step, hd]
    dsimp only [Option.map_some]
    rw [nearer?_of_lt hnear, some_bind, ih hbehind]
    rfl

def ofBody (body : Text) : Checked (List Method) := do
  let source ← blankKinds TokenKind.isComment body
  collectFrom source (significant (Token.ofText body)) 0 0

theorem ofBody_eq (body : Text) : ofBody body = some (Method.ofBody body) := by
  rw [ofBody, blankKinds_eq, some_bind]
  exact collectFrom_eq (within_stripComments body) (Cursor.start _) 0

end Checked
end HeaderBridge
