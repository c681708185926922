import HeaderBridge.Interface.Explain
import HeaderBridge.Proofs.Indexed.Locate
import HeaderBridge.Proofs.Source.Columns

namespace HeaderBridge

namespace Text

theorem chars_append_of_ascii {x : Text} (h : ∀ b ∈ x, isHigh b = false) (y : Text) :
    chars (x ++ y) = chars x ++ chars y := by
  rw [chars, cells_append_of_all_ascii h, List.map_append]
  rfl

theorem length_chars_of_ascii {x : Text} (h : ∀ b ∈ x, isHigh b = false) :
    (chars x).length = x.length := by
  induction x with
  | nil =>
    rw [chars, cells]
    rfl
  | cons a x ih =>
    have hx := ih fun b hb => h b (List.mem_cons_of_mem a hb)
    rw [chars, cells_ascii (h a List.mem_cons_self), List.map_cons, List.length_cons,
      List.length_cons]
    exact congrArg (· + 1) hx

theorem chars_append_key {key : Text} (hne : key ≠ []) (hkey : ∀ b ∈ key, isHigh b = false)
    (x y : Text) : chars (x ++ (key ++ y)) = chars x ++ (chars key ++ chars y) := by
  have hfirst : ∀ b ∈ (key ++ y).head?, isHigh b = false := by
    intro b hb
    obtain ⟨a, tail, rfl⟩ := List.exists_cons_of_ne_nil hne
    obtain rfl := Option.some.inj hb
    exact hkey _ List.mem_cons_self
  rw [← chars_append_of_ascii hkey, chars, cells_append_of_ascii hfirst, List.map_append]
  rfl

theorem isDigitByte_of_mem_ofNat {n : Nat} {b : UInt8} (h : b ∈ ofNat n) :
    isDigitByte b = true := by
  rw [ofNat, ofString, ofChars, Nat.toString_eq_ofList_toDigits, String.toList_ofList,
    List.mem_flatMap] at h
  obtain ⟨c, hc, hb⟩ := h
  have hdigit := Nat.isDigit_of_mem_toDigits (by omega) (by omega) hc
  obtain ⟨hlow, hhigh⟩ : 48 ≤ c.val.toNat ∧ c.val.toNat ≤ 57 := by
    simpa [Char.isDigit, UInt32.le_iff_toNat_le] using hdigit
  have hsize : c.utf8Size = 1 := by
    rw [Char.utf8Size_eq_one_iff, UInt32.le_iff_toNat_le]
    exact Nat.le_trans hhigh (by decide)
  rw [ofChar, String.utf8EncodeChar_eq_singleton hsize, List.mem_singleton] at hb
  have hnat : b.toNat = c.val.toNat := by
    rw [hb, UInt32.toNat_toUInt8]
    omega
  rw [isDigitByte, Bool.and_eq_true, decide_eq_true_eq, decide_eq_true_eq, UInt8.le_iff_toNat_le,
    UInt8.le_iff_toNat_le, hnat]
  exact ⟨hlow, hhigh⟩

theorem dropTrailing_append_of_getLast? {b : UInt8} {x : Text} (hx : ∀ a ∈ x.getLast?, a ≠ b)
    (y : Text) : dropTrailing b (x ++ y) = x ++ dropTrailing b y := by
  have hkept : x.reverse.dropWhile (· == b) = x.reverse := by
    apply dropWhile_of_head?
    intro a ha
    rw [List.head?_reverse] at ha
    simpa using hx a ha
  rw [dropTrailing, dropTrailing, List.reverse_append, List.dropWhile_append, hkept]
  cases hrest : y.reverse.dropWhile (· == b) with
  | nil => simp
  | cons a r => simp

/-- Lines that end in newlines are the lines of the text that they make. -/
theorem lines_rows {rows : List Text} (h : ∀ r ∈ rows, newline ∉ r) (t : Text) :
    lines (rows.flatMap (· ++ [newline]) ++ t) = rows ++ lines t := by
  induction rows with
  | nil => rfl
  | cons r rows ih =>
    have hrest := ih fun u hu => h u (List.mem_cons_of_mem r hu)
    have hrow := splitAt_append newline r (rows.flatMap (· ++ [newline]) ++ t)
    rw [splitAt_of_not_mem (h r List.mem_cons_self)] at hrow
    have hbehind : (r :: rows).flatMap (· ++ [newline]) ++ t =
        r ++ newline :: (rows.flatMap (· ++ [newline]) ++ t) := by
      rw [List.flatMap_cons, List.append_assoc, List.append_assoc]
      rfl
    rw [hbehind, List.cons_append, ← hrest]
    exact hrow

/-- The text `key` stands at `p`: at its offset among the bytes, and at its line and column among
the characters. -/
structure IsAt (key s : Text) (p : Pos) (line : Text) : Prop where
  bytes : key <+: s.drop p.offset
  one_le_line : 1 ≤ p.line
  isLine : (lines s)[p.line - 1]? = some line
  /-- The line up to the place is the end of what stands before it. -/
  cut : ∃ front behind, line = front ++ (key ++ behind) ∧ front <:+ s.take p.offset ∧
      p.column = (chars front).length + 1
  column : chars key <+: (chars line).drop (p.column - 1)

end Text

namespace Token

open Text

theorem exists_isAt {s : Text} {t : Token} (h : t ∈ ofText s) (hne : t.text ≠ [])
    (hkey : ∀ b ∈ t.text, isHigh b = false ∧ b ≠ newline) : ∃ line, IsAt t.text s t.pos line := by
  have hpos := pos_eq h
  have hline : t.pos.line = (s.take t.pos.offset).count newline + 1 := line_eq h
  have hcolumn : t.pos.column = (chars (Pos.lastLine (s.take t.pos.offset))).length + 1 := by
    have hcount := congrArg Pos.column hpos
    rw [hcount, Pos.advance, chars, List.length_map]
    dsimp only [Pos.start]
    rw [ite_self, Nat.add_comm]
    rfl
  obtain ⟨rest, hrest⟩ := text_prefix_drop h
  have hnewline : ∀ b ∈ t.text, (b != newline) = true := by
    intro b hb
    simpa using (hkey b hb).2
  have hcut : (s.drop t.pos.offset).takeWhile (· != newline) =
      t.text ++ rest.takeWhile (· != newline) := by
    rw [← hrest, List.takeWhile_append_of_pos hnewline]
  have hlines := getElem?_lines (s.take t.pos.offset) (s.drop t.pos.offset)
  rw [List.take_append_drop, hcut] at hlines
  obtain ⟨x, hx, -⟩ := Pos.exists_eq_append_lastLine (s.take t.pos.offset)
  let front := Pos.lastLine (s.take t.pos.offset)
  let behind := rest.takeWhile (· != newline)
  refine ⟨front ++ (t.text ++ behind), ⟨rest, hrest⟩, by omega, ?_,
    ⟨front, behind, rfl, ⟨x, hx.symm⟩, hcolumn⟩, ?_⟩
  · rw [hline, Nat.add_sub_cancel]
    exact hlines
  · rw [chars_append_key hne fun b hb => (hkey b hb).1, hcolumn, Nat.add_sub_cancel, List.drop_left]
    exact List.prefix_append _ _

end Token

section Shown

open Text

def gutter (last n : Nat) : Text := alignRight (Text.ofNat last).length (Text.ofNat n) ++ " | "

def sourceRow (source : Text) (last n : Nat) : Text :=
  gutter last n ++ Text.dropTrailing '\r' ((lines source).getD (n - 1) [])

def caretRow (p : Pos) : Text :=
  spaces (Text.ofNat p.line).length ++ " | " ++ spaces (p.column - 1) ++ "^"

/-- The text `shown` is made of the lines up to `p` and of a caret under what stands there. Less
than no lines of context are none. -/
structure Shows (source key : Text) (p : Pos) (context : Int) (shown : Text) : Prop where
  rows : lines shown =
    (List.range' (max 1 (p.line - context.toNat)) (p.line + 1 - max 1 (p.line - context.toNat))).map
      (sourceRow source p.line) ++ [caretRow p, []]
  above : chars key <+: (chars (sourceRow source p.line p.line)).drop
    ((chars (gutter p.line p.line)).length + (p.column - 1))
  caret : (chars (caretRow p)).drop ((chars (gutter p.line p.line)).length + (p.column - 1)) = ['^']

theorem plain_spaces {n : Nat} {b : UInt8} (h : b ∈ spaces n) : isHigh b = false ∧ b ≠ newline := by
  rw [List.eq_of_mem_replicate h]
  decide

theorem plain_gutter {last n : Nat} {b : UInt8} (h : b ∈ gutter last n) :
    isHigh b = false ∧ b ≠ newline := by
  have hdigit : ∀ b, isDigitByte b = true → isHigh b = false ∧ b ≠ newline :=
    forall_byte (by decide +kernel)
  have hbar : ∀ b ∈ (" | " : Text), isHigh b = false ∧ b ≠ newline := by decide +kernel
  rw [gutter, alignRight, List.mem_append, List.mem_append] at h
  rcases h with (h | h) | h
  · exact plain_spaces h
  · exact hdigit b (isDigitByte_of_mem_ofNat h)
  · exact hbar b h

theorem newline_not_mem_sourceRow (source : Text) (last n : Nat) :
    newline ∉ sourceRow source last n := by
  have hline : newline ∉ (lines source).getD (n - 1) [] := by
    rw [List.getD_eq_getElem?_getD]
    cases hget : (lines source)[n - 1]? with
    | none => exact List.not_mem_nil
    | some line => exact not_mem_of_mem_splitAt (List.mem_of_getElem? hget)
  intro h
  rcases List.mem_append.1 h with h | h
  · exact (plain_gutter h).2 rfl
  · apply hline
    rw [Text.dropTrailing, List.mem_reverse] at h
    exact List.mem_reverse.1 ((List.dropWhile_sublist _).mem h)

theorem plain_caretRow {p : Pos} {b : UInt8} (h : b ∈ caretRow p) :
    isHigh b = false ∧ b ≠ newline := by
  have hsigns : ∀ b ∈ (" | " : Text) ++ "^", isHigh b = false ∧ b ≠ newline := by decide +kernel
  simp only [caretRow, List.mem_append] at h
  rcases h with ((h | h) | h) | h
  · exact plain_spaces h
  · exact hsigns b (List.mem_append_left _ h)
  · exact plain_spaces h
  · exact hsigns b (List.mem_append_right _ h)

variable {source key line : Text} {p : Pos} {notice : Notice} {cause : Option Fault}

theorem Text.IsAt.line_le (h : IsAt key source p line) : p.line ≤ (lines source).length := by
  obtain ⟨hlt, -⟩ := List.getElem?_eq_some_iff.1 h.isLine
  have := h.one_le_line
  omega

theorem Text.IsAt.lines_snippet (h : IsAt key source p line) (hline : notice.location.line = p.line)
    (hcolumn : notice.location.column = p.column) (context : Int) :
    lines (snippet context (some (.coded notice cause)) source) =
      (List.range' (max 1 (p.line - context.toNat))
        (p.line + 1 - max 1 (p.line - context.toNat))).map
        (sourceRow source p.line) ++ [caretRow p, []] := by
  have hlow := h.one_le_line
  have hhigh := h.line_le
  obtain ⟨front, behind, -, -, hcount⟩ := h.cut
  have hcaret : caretLine (Text.ofNat p.line).length p.column = caretRow p ++ [newline] := by
    rw [caretLine, if_pos (by omega), Int.toNat_natCast]
    exact (List.append_assoc _ ("^" : Text) [newline]).symm
  have hshown : snippet context (some (.coded notice cause)) source =
      ((List.range' (max 1 (p.line - context.toNat))
        (p.line + 1 - max 1 (p.line - context.toNat))).map
        (sourceRow source p.line)).flatMap (· ++ [newline]) ++ (caretRow p ++ [newline]) := by
    have hinside : ¬((p.line : Int) ≤ 0 || decide ((p.line : Int) > (lines source).length)) =
        true := by
      simp only [Bool.or_eq_true, decide_eq_true_eq]
      omega
    rw [snippet]
    simp only [Option.bind_some, Fault.firstCoded, hline, hcolumn]
    rw [if_neg hinside, Int.toNat_natCast, hcaret, List.flatMap_map]
    rfl
  have hlast : lines (caretRow p ++ [newline]) = [caretRow p, []] := by
    have hsplit := splitAt_append newline (caretRow p) []
    rwa [splitAt_of_not_mem fun hmem => (plain_caretRow hmem).2 rfl] at hsplit
  rw [hshown, lines_rows, hlast]
  intro r hr
  obtain ⟨n, -, rfl⟩ := List.mem_map.1 hr
  exact newline_not_mem_sourceRow source p.line n

theorem Text.IsAt.shows (h : IsAt key source p line) (hne : key ≠ [])
    (hkey : ∀ b ∈ key, isHigh b = false ∧ b ≠ '\r') (hline : notice.location.line = p.line)
    (hcolumn : notice.location.column = p.column) (context : Int) :
    Shows source key p context (snippet context (some (.coded notice cause)) source) := by
  obtain ⟨front, behind, hcut, -, hcount⟩ := h.cut
  refine ⟨h.lines_snippet hline hcolumn context, ?_, ?_⟩
  · have hlast : ∀ a ∈ (front ++ key).getLast?, a ≠ ('\r' : UInt8) := by
      intro a ha
      obtain ⟨init, b, rfl⟩ := (List.eq_nil_or_concat key).resolve_left hne
      rw [List.concat_eq_append, ← List.append_assoc, List.getLast?_concat] at ha
      obtain rfl := Option.some.inj ha
      exact (hkey _ (by simp)).2
    have hrow : sourceRow source p.line p.line = gutter p.line p.line ++
        (front ++ (key ++ Text.dropTrailing '\r' behind)) := by
      rw [sourceRow, List.getD_eq_getElem?_getD, h.isLine, Option.getD_some, hcut,
        ← List.append_assoc, dropTrailing_append_of_getLast? hlast, List.append_assoc]
    rw [hrow, chars_append_of_ascii fun b hb => (plain_gutter hb).1,
      chars_append_key hne fun b hb => (hkey b hb).1, List.drop_length_add_append, hcount,
      Nat.add_sub_cancel, List.drop_left]
    exact List.prefix_append _ _
  · have hlead : ∀ b ∈ spaces (Text.ofNat p.line).length ++ " | " ++ spaces (p.column - 1),
        isHigh b = false := by
      intro b hb
      exact (plain_caretRow (List.mem_append_left _ hb)).1
    -- the number of the last line fills its column, so spaces of that width stand below it
    have hwidth : (chars (gutter p.line p.line)).length + (p.column - 1) =
        (chars (spaces (Text.ofNat p.line).length ++ " | " ++ spaces (p.column - 1))).length := by
      rw [length_chars_of_ascii hlead, length_chars_of_ascii fun b hb => (plain_gutter hb).1,
        gutter, alignRight, Nat.sub_self]
      simp [spaces, Nat.add_assoc]
    have hmark : chars "^" = ['^'] := by decide +kernel
    rw [caretRow, chars_append_of_ascii hlead, hwidth, List.drop_left, hmark]

end Shown

/-- A notice points at the text `key`, which stands in the source at `p`. -/
structure Notice.PointsAt (notice : Notice) (file source key : Text) (p : Pos) : Prop where
  location : notice.location = ⟨file, p.line, p.column⟩
  place : ∃ line, key.IsAt source p line
  shows : ∀ context, Shows source key p context (snippet context (some (.coded notice none)) source)

namespace Interface

open Token

theorem outcome_locate (s : Text) : Outcome s (locate s) := by
  rw [locate_eq_decided]
  rcases decided_cases s (visits s) with ⟨v, hv, hvisit⟩ | hnone
  · exact outcome_visit hv hvisit
  · rw [hnone]
    exact .noInterface

def keys : List Text := [['{'], "class", "struct"]

theorem pointsAt_of_mem {source : Text} {t : Token} (h : t ∈ significant (Token.ofText source))
    (ht : t.text ∈ keys) {notice : Notice} {file : Text}
    (hlocation : notice.location = ⟨file, t.pos.line, t.pos.column⟩) :
    notice.PointsAt file source t.text t.pos := by
  have hkeys : ∀ key ∈ keys, key ≠ [] ∧ ∀ b ∈ key, Text.isHigh b = false ∧ b ≠ newline ∧
      b ≠ '\r' := by decide +kernel
  obtain ⟨hne, hkey⟩ := hkeys t.text ht
  obtain ⟨line, hline⟩ :=
    exists_isAt (List.mem_filter.1 h).1 hne fun b hb => ⟨(hkey b hb).1, (hkey b hb).2.1⟩
  refine ⟨hlocation, ⟨line, hline⟩, fun context => hline.shows hne ?_ ?_ ?_ context⟩
  · exact fun b hb => ⟨(hkey b hb).1, (hkey b hb).2.2⟩
  · rw [hlocation]
  · rw [hlocation]

theorem text_of_isClassKey {t : Token} (h : isClassKey t = true) :
    t.text = "class" ∨ t.text = "struct" := by
  rw [isClassKey, Bool.or_eq_true] at h
  simp only [isWord, Bool.and_eq_true, beq_iff_eq] at h
  exact h.imp And.right And.right

/-- A fault of a header points at the character that it is about: at the brace of a class definition
that no brace closes, or at the keyword of a class definition from whose body no method is read. -/
theorem parse_points {file source : Text} {fault : Fault} (h : parse file source = .error fault) :
    ∃ notice, fault = .coded notice none ∧
      (notice.code = .unbalanced →
        ∃ v ∈ visits source, v.StandsIn (significant (Token.ofText source)) ∧
        matchBrace 0 v.head.rest = none ∧
        notice.detail? "offset" = some (.int v.head.brace.pos.offset) ∧
        notice.PointsAt file source ['{'] v.head.brace.pos) ∧
      (notice.code = .noPureVirtual → ∃ v ∈ visits source,
        v.StandsIn (significant (Token.ofText source)) ∧
        (v.key.text = "class" ∨ v.key.text = "struct") ∧
        notice.PointsAt file source v.key.text v.key.pos) := by
  obtain ⟨failure, hfailure, rfl⟩ : ∃ failure, locate source = .error failure ∧
      fault = (Fault.ofNotice failure.notice).inFile file := by
    unfold parse at h
    split at h
    · cases h
    · rename_i failure hfailure
      exact ⟨failure, hfailure, (Except.error.inj h).symm⟩
  have hfile : failure.notice.location.file = [] := by
    cases failure <;> rfl
  let notice := failure.notice.inFile file
  have hnotice : (Fault.ofNotice failure.notice).inFile file = .coded notice none :=
    Fault.inFile_ofNotice hfile file
  have hended := outcome_locate source
  rw [hfailure] at hended
  refine ⟨notice, hnotice, ?_, ?_⟩
  · intro hunbalanced
    cases hended with
    | @unbalanced v hv hhead hopen =>
      obtain ⟨before, lead, hsplit, -, hbrace, -⟩ := id hhead
      have hmem : v.head.brace ∈ significant (Token.ofText source) := by
        rw [hsplit]
        simp
      have htext := text_of_isPunct hbrace
      refine ⟨v, hv, hhead, hopen, rfl, ?_⟩
      rw [← htext]
      exact pointsAt_of_mem hmem (by simp [htext, keys]) rfl
    | noPureVirtual => cases hunbalanced
    | noInterface => cases hunbalanced
  · intro hnone
    cases hended with
    | unbalanced => cases hnone
    | @noPureVirtual v hv c hc hbody =>
      have hhead := standsIn_of_mem_visits hv
      obtain ⟨before, lead, hsplit, hkey, -, -⟩ := id hhead
      have hmem : v.key ∈ significant (Token.ofText source) := by
        rw [hsplit]
        simp
      have htext := text_of_isClassKey hkey
      have hkeys : v.key.text ∈ keys := by
        rcases htext with htext | htext <;> simp [htext, keys]
      exact ⟨v, hv, hhead, htext, pointsAt_of_mem hmem hkeys rfl⟩
    | noInterface => cases hnone

/-- A class that is left open behind a comment of two lines that is not ASCII. -/
def wide : Text := "/* \u00e9\n\u00e9 */ class A \x7b\r\n"

/-- The brace is the 14th character of its line, but the 15th byte. -/
theorem parse_points_wide : ∃ notice, parse "w.h" wide = .error (.coded notice none) ∧
    notice.code = .unbalanced ∧ notice.PointsAt "w.h" wide ['{'] ⟨20, 2, 14⟩ := by
  have hread : (match parse "w.h" wide with
      | .error (.coded n _) => some (n.code, n.location, n.detail? "offset")
      | .error (.plain ..) | .error (.refused _) | .error (.relayed _) | .error (.many _) | .ok _ =>
        none) = some (.unbalanced, ⟨"w.h", 2, 14⟩, some (.int 20)) := by decide +kernel
  cases h : parse "w.h" wide with
  | ok i =>
    rw [h] at hread
    cases hread
  | error fault =>
    obtain ⟨notice, rfl, hunbalanced, -⟩ := parse_points h
    rw [h] at hread
    obtain ⟨hcode, hlocation, hoffset⟩ : notice.code = .unbalanced ∧
        notice.location = ⟨"w.h", 2, 14⟩ ∧
        notice.detail? "offset" = some (.int 20) := by simpa using hread
    obtain ⟨v, -, -, -, hdetail, hpoints⟩ := hunbalanced hcode
    refine ⟨notice, rfl, hcode, ?_⟩
    -- the fault tells all three coordinates of the brace
    have hplace := hpoints.location
    rw [hlocation, Location.mk.injEq] at hplace
    rw [hoffset] at hdetail
    have hpos : v.head.brace.pos = ⟨20, 2, 14⟩ := by
      cases hp : v.head.brace.pos with
      | mk offset line column =>
        rw [hp] at hplace hdetail
        rw [Option.some.injEq, Detail.int.injEq] at hdetail
        rw [Pos.mk.injEq]
        dsimp only at hplace hdetail
        omega
    rwa [hpos] at hpoints

end Interface
end HeaderBridge
