import HeaderBridge.Proofs.Indexed.Source
import HeaderBridge.Proofs.Interface.Tally

namespace HeaderBridge
namespace Checked

open Token

/-- The index of the `)` that closes the `(` at index `j`, from where `depth` of them are open. -/
def parenFrom (toks : List Token) (depth : Int) (j : Nat) : Checked (Option Nat) := do
  if j < toks.length then
    let t ← at? toks j
    if t.isPunct '(' then parenFrom toks (depth + 1) (j + 1)
    else if t.isPunct ')' then
      if depth - 1 = 0 then return some j else parenFrom toks (depth - 1) (j + 1)
    else if t.isPunct ';' then return none
    else parenFrom toks depth (j + 1)
  else return none
termination_by toks.length - j

def matchParen (toks : List Token) (opener : Nat) : Checked (Option Nat) := parenFrom toks 0 opener

theorem parenFrom_eq {toks passed ahead : List Token} {j : Nat} (h : Cursor toks passed ahead j)
    (depth : Nat) :
    parenFrom toks (depth + 1) j = some ((closeParen depth ahead).map fun r => j + r.1.length) := by
  induction ahead generalizing passed j depth with
  | nil =>
    rw [parenFrom, if_neg h.not_lt]
    rfl
  | cons t ahead ih =>
    have hstep (depth : Nat) : parenFrom toks (depth + 1) (j + 1) =
        some (((closeParen depth ahead).map fun r => (t :: r.1, r.2)).map fun r =>
          j + r.1.length) := by
      rw [ih h.next depth, Option.map_map]
      simp only [Function.comp_def, List.length_cons, Nat.add_assoc, Nat.add_comm 1]
    rw [parenFrom, if_pos h.lt, h.at?, some_bind, closeParen.eq_def]
    dsimp only
    split
    · exact hstep (depth + 1)
    · split
      · cases depth with
        | zero => rfl
        | succ depth =>
          rw [if_neg (by omega), Int.natCast_add, Int.add_sub_cancel]
          exact hstep depth
      · split
        · rfl
        · exact hstep depth

theorem matchParen_eq {toks passed ahead : List Token} {j : Nat} {t : Token}
    (ht : t.isPunct '(' = true) (h : Cursor toks passed (t :: ahead) j) :
    matchParen toks j = some ((closeParen 0 ahead).map fun r => j + 1 + r.1.length) := by
  rw [matchParen, parenFrom, if_pos h.lt, h.at?, some_bind, if_pos ht]
  exact parenFrom_eq h.next 0

/-- The nesting after the token at index `j`, given the nesting before it. -/
def stepAt (toks : List Token) (n : Nesting) (j : Nat) : Checked Nesting := do
  let t ← at? toks j
  let prev ← before? toks j
  return n.step prev t

theorem stepAt_eq {toks passed ahead : List Token} {t : Token} {j : Nat}
    (h : Cursor toks passed (t :: ahead) j) (n : Nesting) :
    stepAt toks n j = some (n.step passed.getLast? t) := by
  rw [stepAt, h.at?, some_bind, h.before?_eq]
  rfl

/-- Cuts at commas outside all brackets from index `j` on; the part that is being read began at
index `first`. -/
def splitFrom (toks : List Token) (n : Nesting) (first j : Nat) :
    Checked (List (List Token) × Nesting) := do
  if j < toks.length then
    let t ← at? toks j
    if t.isPunct ',' && n.isTop then
      let part ← slice? toks first j
      let r ← splitFrom toks { n with inDefault := false } (j + 1) (j + 1)
      return (part :: r.1, r.2)
    else
      let n ← stepAt toks n j
      splitFrom toks n first (j + 1)
  else
    let part ← slice? toks first toks.length
    return ([part], n)
termination_by toks.length - j

def segments (toks : List Token) : Checked (List (List Token)) := do
  let r ← splitFrom toks {} 0 0
  if r.2.angle > 0 then
    let r ← splitFrom toks { literal := true } 0 0
    return r.1
  else return r.1

theorem modifyHead_nil_append (parts : List (List Token)) : parts.modifyHead ([] ++ ·) = parts := by
  cases parts <;> rfl

theorem splitFrom_eq {toks passed part ahead : List Token} {first j : Nat}
    (h : Cursor toks passed (part ++ ahead) first) (hj : j = first + part.length) (n : Nesting) :
    splitFrom toks n first j = some (
      (Parameter.splitCommas n (passed ++ part).getLast? ahead).1.modifyHead (part ++ ·),
      (Parameter.splitCommas n (passed ++ part).getLast? ahead).2) := by
  induction ahead generalizing passed part first j n with
  | nil =>
    have hhere := h.skip
    rw [← hj] at hhere
    have hlen : toks.length = j := by
      rw [hhere.split, hhere.index, List.append_nil]
    rw [splitFrom, if_neg hhere.not_lt, h.slice? (by omega)]
    simp [Parameter.splitCommas]
  | cons t ahead ih =>
    have hhere := h.skip
    rw [← hj] at hhere
    rw [splitFrom, if_pos hhere.lt, hhere.at?, some_bind, Parameter.splitCommas]
    split
    · have hnext : Cursor toks (passed ++ part ++ [t]) ([] ++ ahead) (j + 1) := hhere.next
      have hrest := ih hnext (Nat.add_zero (j + 1)).symm { n with inDefault := false }
      rw [List.append_nil, List.getLast?_concat, modifyHead_nil_append] at hrest
      rw [h.slice? (by omega), some_bind, hrest]
      simp
    · have hnext : Cursor toks passed ((part ++ [t]) ++ ahead) first := by simpa using h
      rw [stepAt_eq hhere, some_bind, ih hnext (by simp; omega)]
      simp [Function.comp_def]

theorem segments_eq (toks : List Token) : segments toks = some (Parameter.segments toks) := by
  have hsplit (n : Nesting) : splitFrom toks n 0 0 = some (Parameter.splitCommas n none toks) := by
    have hstart : Cursor toks [] ([] ++ toks) 0 := Cursor.start toks
    have hsplit := splitFrom_eq hstart (Nat.add_zero 0).symm n
    rwa [modifyHead_nil_append] at hsplit
  rw [segments, hsplit, hsplit, Parameter.segments]
  simp only [some_bind]
  split <;> rfl

/-- The index of the first equals sign outside all brackets, from index `j` on. -/
def defaultFrom (toks : List Token) (n : Nesting) (j : Nat) : Checked (Option Nat) := do
  if j < toks.length then
    let t ← at? toks j
    if t.isPunct '=' && n.isTop then return some j
    else
      let n ← stepAt toks n j
      defaultFrom toks n (j + 1)
  else return none
termination_by toks.length - j

theorem defaultFrom_eq {toks passed ahead : List Token} {j : Nat} (h : Cursor toks passed ahead j)
    (n : Nesting) :
    defaultFrom toks n j = some ((Parameter.splitDefault n passed.getLast? ahead).2.map fun _ =>
      j + (Parameter.splitDefault n passed.getLast? ahead).1.length) := by
  induction ahead generalizing passed j n with
  | nil =>
    rw [defaultFrom, if_neg h.not_lt]
    rfl
  | cons t ahead ih =>
    rw [defaultFrom, if_pos h.lt, h.at?, some_bind, Parameter.splitDefault]
    split
    · rfl
    · rw [stepAt_eq h, some_bind, ih h.next, List.getLast?_concat]
      simp only [List.length_cons, Nat.add_assoc, Nat.add_comm 1]

/-- The index of the `[` that is closed at index `j`, looked for backwards while `depth` brackets
are open. -/
def bracketFrom (toks : List Token) (depth : Int) (j : Int) : Checked (Option Nat) := do
  if 0 ≤ j then
    let t ← at? toks j
    if t.isPunct ']' then bracketFrom toks (depth + 1) (j - 1)
    else if t.isPunct '[' then
      if depth - 1 = 0 then return some j.toNat else bracketFrom toks (depth - 1) (j - 1)
    else bracketFrom toks depth (j - 1)
  else return none
termination_by (j + 1).toNat

/-- The index behind which only bracketed groups stand before index `stop`; `none` if one is never
opened. -/
def boundsFrom (toks : List Token) (stop : Nat) : Checked (Option Nat) := do
  if 0 < stop then
    let t ← at? toks ((stop : Int) - 1)
    if t.isPunct ']' then
      match ← bracketFrom toks 0 ((stop : Int) - 1) with
      | none => return none
      | some opener =>
        let ⟨_⟩ ← nearer? opener stop
        boundsFrom toks opener
    else return some stop
  else return some stop
termination_by stop

/-- A bracket is opened where it is when the tokens are read backwards, or it never is. -/
theorem bracketFrom_eq {toks seen ahead : List Token} {stop : Nat}
    (h : Cursor toks seen.reverse ahead stop) (depth : Nat) :
    ∃ r, bracketFrom toks (depth + 1) ((stop : Int) - 1) = some r ∧
      match r with
      | none => Parameter.dropBounds (depth + 1) seen = none
      | some opener =>
          ∃ left behind, Cursor toks left.reverse behind opener ∧ left.length < seen.length ∧
          Parameter.dropBounds (depth + 1) seen = Parameter.dropBounds 0 left := by
  induction seen generalizing ahead stop depth with
  | nil =>
    refine ⟨none, ?_, rfl⟩
    rw [bracketFrom, if_neg (by have := h.index; simp at this; omega)]
    rfl
  | cons t seen ih =>
    rw [List.reverse_cons] at h
    obtain ⟨j, rfl, hj⟩ := h.back
    have hcast : ((j + 1 : Nat) : Int) - 1 = j := by omega
    have hstep {depth' : Nat}
        (hd : Parameter.dropBounds (depth + 1) (t :: seen) =
          Parameter.dropBounds (depth' + 1) seen) :
        ∃ r, bracketFrom toks (depth' + 1) ((j : Int) - 1) = some r ∧
          match r with
          | none => Parameter.dropBounds (depth + 1) (t :: seen) = none
          | some opener => ∃ left behind,
              Cursor toks left.reverse behind opener ∧ left.length < (t :: seen).length ∧
              Parameter.dropBounds (depth + 1) (t :: seen) = Parameter.dropBounds 0 left := by
      obtain ⟨r, hr, hfound⟩ := ih hj depth'
      refine ⟨r, hr, ?_⟩
      rw [hd]
      cases r with
      | none => exact hfound
      | some opener =>
        obtain ⟨left, behind, hleft, hlen, hdrop⟩ := hfound
        exact ⟨left, behind, hleft, Nat.lt_succ_of_lt hlen, hdrop⟩
    rw [hcast, bracketFrom, if_pos (Int.natCast_nonneg j), hj.at?, some_bind]
    split
    · exact hstep (by rw [Parameter.dropBounds, if_pos ‹_›])
    · split
      · cases depth with
        | zero =>
          have hopen : Parameter.dropBounds 1 (t :: seen) = Parameter.dropBounds 0 seen := by
            rw [Parameter.dropBounds, if_neg ‹_›, if_pos ‹_›]
          exact ⟨some j, rfl, seen, _, hj, Nat.lt_succ_self _, hopen⟩
        | succ depth =>
          rw [if_neg (by omega), Int.natCast_add, Int.natCast_one, Int.add_sub_cancel]
          exact hstep (by rw [Parameter.dropBounds, if_neg ‹_›, if_pos ‹_›])
      · exact hstep (by rw [Parameter.dropBounds, if_neg ‹_›, if_neg ‹_›])

theorem boundsFrom_eq {toks seen ahead : List Token} {stop : Nat}
    (h : Cursor toks seen.reverse ahead stop) :
    boundsFrom toks stop = some ((Parameter.dropBounds 0 seen).map List.length) := by
  induction hn : seen.length using Nat.strongRecOn generalizing seen ahead stop with
  | ind n ih =>
    subst hn
    cases seen with
    | nil =>
      obtain rfl : stop = 0 := h.index
      rw [boundsFrom, if_neg (Nat.lt_irrefl 0)]
      rfl
    | cons t seen =>
      rw [List.reverse_cons] at h
      obtain ⟨j, rfl, hj⟩ := h.back
      rw [boundsFrom, if_pos (Nat.succ_pos j), h.before, some_bind, Parameter.dropBounds]
      split
      · rename_i ht
        have hcast : ((j + 1 : Nat) : Int) - 1 = j := by omega
        obtain ⟨r, hr, hfound⟩ := bracketFrom_eq hj 0
        rw [hcast, bracketFrom, if_pos (Int.natCast_nonneg j), hj.at?, some_bind, if_pos ht]
        change (bracketFrom toks ((0 : Nat) + 1) ((j : Int) - 1) >>= _) = _
        rw [hr, some_bind]
        cases r with
        | none =>
          rw [hfound]
          rfl
        | some opener =>
          obtain ⟨left, behind, hleft, hlen, hdrop⟩ := hfound
          have hnear : opener < j + 1 := by
            rw [hleft.index, hj.index, List.length_reverse, List.length_reverse]
            exact Nat.lt_succ_of_lt hlen
          rw [hdrop]
          dsimp only
          rw [nearer?_of_lt hnear, some_bind]
          exact ih left.length (Nat.lt_succ_of_lt hlen) hleft rfl
      · have := hj.index
        rw [List.length_reverse] at this
        rw [this]
        rfl

/-- Whether the last token names the parameter and does not end its type. -/
def isTrailingName (decl : List Token) : Checked Bool := do
  if decl.length < 2 then return false
  else
    let last ← at? decl ((decl.length : Int) - 1)
    let prev ← at? decl ((decl.length : Int) - 2)
    if !isUsableName last.text || prev.kind == .scope then return false
    else
      let before ← slice? decl 0 ((decl.length : Int) - 1)
      return before.any fun t => !(t.isIdent && typeElaborators.contains t.text)

theorem isTrailingName_eq {decl before : List Token} {last : Token} (h : decl = before ++ [last]) :
    isTrailingName decl = some (Parameter.isTrailingName before last) := by
  have hlen : decl.length = before.length + 1 := by
    rw [h, List.length_append, List.length_singleton]
  rcases List.eq_nil_or_concat before with rfl | ⟨init, prev, rfl⟩
  · rw [isTrailingName, if_pos (by rw [hlen]; exact Nat.lt_succ_self 1), Parameter.isTrailingName,
      List.any_nil, Bool.and_false]
    rfl
  · rw [List.concat_eq_append] at *
    have htwo : ¬ decl.length < 2 := by
      rw [hlen, List.length_append, List.length_singleton]
      omega
    rw [isTrailingName, if_neg htwo, at?_last h, some_bind, at?_prev h, some_bind, slice?_init h,
      Parameter.isTrailingName, List.getLast?_concat, Option.any_some]
    cases isUsableName last.text <;> cases prev.kind == .scope <;> rfl

def isGroup (inner : List Token) : Checked Bool := do
  if inner.length < 2 then return false
  else
    let first ← at? inner 0
    if first.isPunct '*' || first.isPunct '&' then
      let last ← at? inner ((inner.length : Int) - 1)
      let prev ← at? inner ((inner.length : Int) - 2)
      return last.isIdent && isUsableName last.text && prev.kind != .scope
    else return false

theorem isGroup_eq (inner : List Token) :
    isGroup inner = some (Parameter.groupName? inner).isSome := by
  rcases List.eq_nil_or_concat inner with rfl | ⟨before, last, rfl⟩
  · rfl
  rcases List.eq_nil_or_concat before with rfl | ⟨init, prev, rfl⟩
  · rfl
  obtain ⟨inner, hinner⟩ : ∃ inner, inner = init ++ [prev] ++ [last] := ⟨_, rfl⟩
  rw [List.concat_eq_append, List.concat_eq_append, ← hinner]
  obtain ⟨first, rest, hfirst⟩ := List.exists_cons_of_ne_nil (show inner ≠ [] by simp [hinner])
  have hat : at? inner 0 = some first := by
    rw [hfirst]
    exact (Cursor.start (first :: rest)).at?
  have htwo : ¬ inner.length < 2 := by
    rw [hinner, List.length_append, List.length_append, List.length_singleton,
      List.length_singleton]
    omega
  have hreverse : inner.reverse = last :: prev :: init.reverse := by simp [hinner]
  have hhead : inner.head? = some first := by rw [hfirst, List.head?_cons]
  rw [isGroup, if_neg htwo, hat, some_bind, at?_last hinner, some_bind, at?_prev hinner, some_bind,
    Parameter.groupName?, hreverse, hhead]
  dsimp only
  cases first.isPunct '*' || first.isPunct '&' with
  | false => rfl
  | true =>
    rw [if_pos rfl, Bool.true_and]
    cases last.isIdent && isUsableName last.text && prev.kind != .scope <;> rfl

/-- The index of the name in the first group outside all brackets, from index `j` on. -/
def groupedFrom (decl : List Token) (n : Nesting) (j : Nat) : Checked (Option Int) := do
  if j < decl.length then
    let t ← at? decl j
    if t.isPunct '(' && n.isTop then
      match ← matchParen decl j with
      | none => return none
      | some close =>
        let inner ← slice? decl (j + 1) close
        let named ← isGroup inner
        return if named then some ((close : Int) - 1) else none
    else
      let n ← stepAt decl n j
      groupedFrom decl n (j + 1)
  else return none
termination_by decl.length - j

theorem groupedFrom_eq {decl seen ahead : List Token} {j : Nat}
    (h : Cursor decl seen.reverse ahead j) (n : Nesting) :
    groupedFrom decl n j =
      some ((Parameter.groupedFrom n seen ahead).map fun f => (f.before.length : Int)) := by
  induction ahead generalizing seen j n with
  | nil =>
    rw [groupedFrom, if_neg h.not_lt]
    rfl
  | cons t ahead ih =>
    rw [groupedFrom, if_pos h.lt, h.at?, some_bind, Parameter.groupedFrom]
    split
    · rename_i ht
      rw [matchParen_eq (Bool.and_eq_true_iff.1 ht).1 h, some_bind]
      cases hclose : closeParen 0 ahead with
      | none => rfl
      | some r =>
        obtain ⟨inner, after⟩ := r
        obtain ⟨close, tail, rfl, -, rfl⟩ := eq_of_closeParen hclose
        have hinner : slice? decl ((j : Int) + 1) ((j + 1 + inner.length : Nat) : Int) =
            some inner :=
          h.next.slice? (by omega)
        dsimp only [Option.map_some]
        rw [hinner, some_bind, isGroup_eq, some_bind]
        cases hgroup : Parameter.groupName? inner with
        | none => rfl
        | some g =>
          have hj := h.index
          rw [List.length_reverse] at hj
          have hlast : ((j + 1 + inner.length : Nat) : Int) - 1 =
              ((seen.reverse ++ t :: g.1).length : Nat) := by
            rw [Parameter.eq_of_groupName? hgroup]
            simp
            omega
          rw [hlast]
          rfl
    · have hnext : Cursor decl (t :: seen).reverse ahead (j + 1) := by
        rw [List.reverse_cons]
        exact h.next
      rw [stepAt_eq h, some_bind, ih hnext, List.getLast?_reverse]

def groupedName (decl : List Token) : Checked (Option Int) := groupedFrom decl {} 1

theorem groupedName_eq (decl : List Token) :
    groupedName decl =
      some ((Parameter.groupedName decl).map fun f => (f.before.length : Int)) := by
  cases decl with
  | nil =>
    have hend : ¬ 1 < ([] : List Token).length := Nat.not_lt_zero 1
    rw [groupedName, groupedFrom, if_neg hend]
    rfl
  | cons t ts => exact groupedFrom_eq (Cursor.start (t :: ts)).next {}

def nameIndex (decl : List Token) : Checked (Option Int) := do
  match ← boundsFrom decl decl.length with
  | none => return none
  | some stop =>
    if 0 < stop then
      let last ← at? decl ((stop : Int) - 1)
      if last.isIdent then
        let head ← slice? decl 0 stop
        let named ← isTrailingName head
        return if named then some ((stop : Int) - 1) else none
      else groupedName decl
    else groupedName decl

theorem nameIndex_eq (decl : List Token) :
    nameIndex decl = some ((Parameter.findName decl).map fun f => (f.before.length : Int)) := by
  have hend : Cursor decl decl.reverse.reverse [] decl.length := by
    rw [List.reverse_reverse]
    exact ⟨(List.append_nil decl).symm, rfl⟩
  rw [nameIndex, boundsFrom_eq hend, some_bind, Parameter.findName]
  cases hbounds : Parameter.dropBounds 0 decl.reverse with
  | none => rfl
  | some rest =>
    cases rest with
    | nil => exact groupedName_eq decl
    | cons last seen =>
      -- the bounds stand behind the index
      obtain ⟨bounds, hreverse⟩ := Parameter.suffix_of_dropBounds hbounds
      have hdecl : decl = (seen.reverse ++ [last]) ++ bounds.reverse := by
        rw [← List.reverse_reverse decl, ← hreverse]
        simp
      have hcut : Cursor decl (seen.reverse ++ [last]) bounds.reverse (last :: seen).length :=
        ⟨hdecl, by simp⟩
      have hpos : 0 < (last :: seen).length := Nat.succ_pos seen.length
      dsimp only [Option.map_some]
      rw [if_pos hpos, hcut.before, some_bind]
      cases last.isIdent with
      | false => exact groupedName_eq decl
      | true =>
        rw [if_pos rfl, hcut.passed_eq, some_bind, isTrailingName_eq rfl, some_bind]
        cases Parameter.isTrailingName seen.reverse last with
        | false => rfl
        | true => simp

def declared (source : Text) (decl : List Token) (default : Text) : Checked Parameter := do
  if decl.length = 0 then return { type := [], default }
  else
    match ← nameIndex decl with
    | none =>
      let type ← spanText source decl
      return { type, default }
    | some i =>
      let name ← at? decl i
      let before ← slice? decl 0 i
      let type ← spanText source before
      if i < (decl.length : Int) - 1 then
        let after ← slice? decl (i + 1) decl.length
        let rest ← spanText source after
        let declarator ← spanText source decl
        return { type := type ++ rest, name := name.text, default, declarator }
      else return { type, name := name.text, default }

/-- Reads one written parameter: its type, its name and its default argument. -/
def parameter (source : Text) (toks : List Token) : Checked Parameter := do
  match ← defaultFrom toks {} 0 with
  | none => declared source toks []
  | some equals =>
    let decl ← slice? toks 0 equals
    let value ← slice? toks (equals + 1) toks.length
    let default ← spanText source value
    declared source decl default

theorem declared_eq {source : Text} {decl : List Token} (h : Within source decl) (default : Text) :
    declared source decl default = some (match Parameter.findName decl with
      | none => { type := Token.spanText source decl, default }
      | some found =>
        { type := Token.spanText source found.before ++ Token.spanText source found.after
          name := found.name.text
          default
          declarator := if found.after.isEmpty then [] else Token.spanText source decl }) := by
  unfold declared
  rcases List.eq_nil_or_concat decl with rfl | ⟨_, _, hne⟩
  · rfl
  have hlen : ¬ decl.length = 0 := by simp [hne]
  rw [if_neg hlen, nameIndex_eq, some_bind]
  cases hfound : Parameter.findName decl with
  | none =>
    dsimp only [Option.map_none]
    rw [spanText_eq h]
    rfl
  | some found =>
    obtain ⟨before, name, after⟩ := found
    have hdecl : decl = before ++ name :: after := Parameter.eq_around_name hfound
    have hcut : Cursor decl before (name :: after) before.length := ⟨hdecl, rfl⟩
    have hbefore : Within source before := h.sublist hcut.passed_sublist
    have hafter : Within source after := h.sublist hcut.next.ahead_sublist
    have hcount : decl.length = before.length + (after.length + 1) := by
      rw [hdecl, List.length_append, List.length_cons]
    dsimp only [Option.map_some]
    rw [hcut.at?, some_bind, hcut.passed_eq, some_bind, spanText_eq hbefore, some_bind]
    split
    · rename_i hbehind
      have hsome : after.isEmpty = false := by
        cases after with
        | nil => simp at hcount; omega
        | cons => rfl
      have hslice : slice? decl ((before.length : Int) + 1) decl.length = some after :=
        hcut.next.ahead_eq
      rw [hslice, some_bind, spanText_eq hafter, some_bind, spanText_eq h, some_bind, hsome]
      rfl
    · rename_i hlast
      obtain rfl : after = [] := List.eq_nil_of_length_eq_zero (by omega)
      simp [Token.spanText]

theorem parameter_eq {source : Text} {toks : List Token} (h : Within source toks) :
    parameter source toks = some (Parameter.ofTokens source toks) := by
  have hdefault := defaultFrom_eq (Cursor.start toks) {}
  rw [List.getLast?_nil] at hdefault
  rw [parameter, hdefault, some_bind, Parameter.ofTokens]
  rcases Parameter.splitDefault_parts {} none toks with
    ⟨hnone, htoks⟩ | ⟨equals, value, -, hsome, htoks⟩
  · rw [hnone, ← htoks]
    exact declared_eq h []
  · have hcut : Cursor toks (Parameter.splitDefault {} none toks).1 (equals :: value)
        (Parameter.splitDefault {} none toks).1.length := ⟨htoks, rfl⟩
    have hdecl : Within source (Parameter.splitDefault {} none toks).1 :=
      h.sublist hcut.passed_sublist
    have hvalue : Within source value := h.sublist hcut.next.ahead_sublist
    have hslice : slice? toks (((0 + (Parameter.splitDefault {} none toks).1.length : Nat) : Int) +
        1) toks.length = some value := by
      rw [Nat.zero_add]
      exact hcut.next.ahead_eq
    rw [hsome]
    dsimp only [Option.map_some]
    rw [hslice, Nat.zero_add, hcut.passed_eq, some_bind, some_bind, spanText_eq hvalue, some_bind]
    exact declared_eq hdecl _

def isVoidList (toks : List Token) : Checked Bool := do
  if toks.length = 1 then
    let t ← at? toks 0
    return t.isWord "void"
  else return false

/-- Reads what stands between the parentheses of a parameter list. -/
def parameters (source : Text) (toks : List Token) : Checked (List Parameter) := do
  if toks.length = 0 then return []
  else
    let void ← isVoidList toks
    if void then return []
    else
      let parts ← segments toks
      parts.mapM (parameter source)

theorem isVoidList_eq (toks : List Token) : isVoidList toks = some (Parameter.isVoidList toks) := by
  match toks with
  | [] => rfl
  | [t] => rfl
  | _ :: _ :: _ => rfl

theorem parameters_eq {source : Text} {toks : List Token} (h : Within source toks) :
    parameters source toks = some (Parameter.listOfTokens source toks) := by
  rw [parameters, isVoidList_eq, segments_eq, Parameter.listOfTokens]
  cases toks with
  | nil => rfl
  | cons t ts =>
    have hlen : ¬ (t :: ts).length = 0 := Nat.succ_ne_zero ts.length
    rw [if_neg hlen, some_bind, some_bind]
    cases Parameter.isVoidList (t :: ts) with
    | true => rfl
    | false =>
      -- every part is read within the text
      have hparts : ∀ part ∈ Parameter.segments (t :: ts),
          parameter source part = some (Parameter.ofTokens source part) :=
        fun part hpart =>
          parameter_eq (h.sublist ((Parameter.commas_segments (t :: ts)).sublist part hpart))
      exact mapM_eq_map hparts

end Checked
end HeaderBridge
