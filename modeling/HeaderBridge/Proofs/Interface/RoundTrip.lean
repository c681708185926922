import HeaderBridge.Proofs.Interface.Collector
import HeaderBridge.Proofs.Interface.Reading

namespace HeaderBridge

open Lexeme Token

namespace Text

theorem newline_not_mem_identifier {w : Text} (h : isIdentifier w = true) : newline ∉ w := by
  have hname : isNameByte newline = false := by decide
  cases w with
  | nil => simp
  | cons a t =>
    simp only [isIdentifier, Bool.and_eq_true, List.all_eq_true] at h
    intro hm
    rcases List.mem_cons.1 hm with rfl | hm
    · simp [isNameByte, h.1] at hname
    · simp [h.2 _ hm] at hname

theorem ne_nil_of_isIdentifier {w : Text} (h : isIdentifier w = true) : w ≠ [] := by
  rintro rfl
  simp [isIdentifier] at h

theorem mem_join {b : UInt8} {sep : Text} {ts : List Text} (h : b ∈ join sep ts) :
    b ∈ sep ∨ ∃ t ∈ ts, b ∈ t := by
  induction ts with
  | nil => simp [join, List.intercalate] at h
  | cons t ts ih =>
    rw [join, intercalate_cons, List.mem_append] at h
    rcases h with h | h
    · exact .inr ⟨t, by simp, h⟩
    · split at h
      · simp at h
      · rcases List.mem_append.1 h with h | h
        · exact .inl h
        · rcases ih h with h | ⟨u, hu, hb⟩
          · exact .inl h
          · exact .inr ⟨u, by simp [hu], hb⟩

end Text

theorem Parameter.newline_not_mem_render {p : Parameter} (h : p.WellFormed) :
    newline ∉ p.render true := by
  have htype := Text.newline_not_mem_of_folded h.type.folded
  have hdefault := Text.newline_not_mem_of_folded h.default.folded
  have hspace : newline ∉ (" " : Text) := by decide
  have hequals : newline ∉ (" = " : Text) := by decide
  have hname : newline ∉ p.name := by
    have := h.name
    split at this
    · simp_all
    · exact Text.newline_not_mem_identifier this.1
  have hdeclaration : newline ∉ p.declaration := by
    rw [declaration, h.declarator]
    simp only [List.isEmpty_nil, Bool.not_true, Bool.false_eq_true, if_false]
    split <;> simp [htype, hname, hspace]
  rw [render]
  split
  · simp [hdeclaration, hdefault, hequals]
  · exact hdeclaration

theorem bare_field {u : Text} (h : IsField u) :
    bare (Lexeme.ofText u) = spelling (Lexeme.ofText u) := by
  have hplain := List.all_eq_true.1 h.plain
  rw [bare, spelling, List.flatMap_def, List.flatMap_def]
  refine congrArg List.flatten (List.map_congr_left fun l hl => blanked_of_not ?_)
  have := hplain l hl
  simp only [isPlain, Bool.and_eq_true, Bool.not_eq_true'] at this
  exact this.1.1.1

namespace Parameter

theorem bare_lexemes {p : Parameter} (h : p.WellFormed) : bare p.lexemes = spelling p.lexemes := by
  rw [lexemes, bare_append, bare_append, spelling_append, spelling_append, bare_field h.type]
  congr 2
  · split <;> rfl
  · split
    · rfl
    · rw [bare_cons, bare_cons, bare_cons, bare_field h.default]
      rfl

theorem bare_listLexemes {ps : List Parameter} (h : ∀ p ∈ ps, p.WellFormed) :
    bare (listLexemes ps) = spelling (listLexemes ps) := by
  fun_induction listLexemes ps with
  | case1 => rfl
  | case2 p => exact bare_lexemes (h p (by simp))
  | case3 p q ps ih =>
    rw [bare_append, bare_cons, bare_cons, bare_lexemes (h p (by simp)),
      ih fun r hr => h r (by simp [hr])]
    simp only [spelling_append]
    rfl

end Parameter

namespace Method

theorem newline_not_mem_signature_of_parts {m : Method} (htype : newline ∉ m.returnType)
    (hname : newline ∉ m.name) (hparameters : ∀ p ∈ m.parameters, newline ∉ p.render true) :
    newline ∉ m.signature := by
  have hlist : newline ∉ m.parameterList true := by
    intro hm
    rcases Text.mem_join hm with hm | ⟨t, ht, hm⟩
    · exact absurd hm (by decide)
    · obtain ⟨p, hp, rfl⟩ := List.mem_map.1 ht
      exact hparameters p hp hm
  have hqualifiers : newline ∉ m.qualifiers := by
    rw [qualifiers]
    cases m.isConst <;> cases m.isNoexcept <;> decide
  have hsigns : newline ∉ (" " : Text) ∧ newline ∉ ("(" : Text) ∧ newline ∉ (")" : Text) := by
    decide
  simp [signature, htype, hname, hlist, hqualifiers, hsigns]

theorem newline_not_mem_signature {m : Method} (h : m.WellFormed) : newline ∉ m.signature :=
  newline_not_mem_signature_of_parts (Text.newline_not_mem_of_folded h.type.folded)
    (Text.newline_not_mem_identifier h.name) fun p hp => Parameter.newline_not_mem_render
      (h.parameters p hp)

theorem count_newline {m : Method} (h : m.WellFormed) : (spelling m.lexemes).count newline = 1 := by
  have hsignature := List.count_eq_zero.2 (newline_not_mem_signature h)
  have hvirtual : ("virtual " : Text).count newline = 0 := by decide
  have hmark : (" = 0;\n" : Text).count newline = 1 := by decide
  rw [spelling_lexemes h, declarationLine, List.count_append, List.count_append, hsignature,
    hvirtual, hmark]

theorem bare_lexemes {m : Method} (h : m.WellFormed) : bare m.lexemes = spelling m.lexemes := by
  have hqualifiers : bare (m.qualifierLexemes ++ pureMark) =
      spelling (m.qualifierLexemes ++ pureMark) := by
    rw [qualifierLexemes]
    cases m.isConst <;> cases m.isNoexcept <;> rfl
  simp only [lexemes, bare_cons, bare_append, spelling_cons, spelling_append, bare_field h.type,
    Parameter.bare_listLexemes h.parameters] at hqualifiers ⊢
  rw [hqualifiers]
  rfl

theorem collect_lexemes {ms : List Method} (h : ∀ m ∈ ms, m.WellFormed) {source : Text} {pos : Pos}
    (hs : StandsAt source pos (ms.flatMap lexemes)) :
    collect source 0 (significant (place pos (ms.flatMap lexemes))) =
      ms.mapIdx fun i m => { m with line := ((pos.line + i : Nat) : Int) } := by
  induction ms generalizing pos with
  | nil => simp [place, significant, collect]
  | cons m ms ih =>
    have hm := h m (by simp)
    rw [List.flatMap_cons] at hs
    have ih := ih (fun m' hm' => h m' (by simp [hm'])) hs.right
    have hline : (after pos m.lexemes).line = pos.line + 1 := by
      rw [after_line, count_newline hm]
    have htokens : significant (place pos m.lexemes) = ⟨.ident, "virtual", pos⟩ ::
      significant (place ((pos.advance (word "virtual").text).advance space.text) m.afterVirtual) :=
    rfl
    obtain ⟨d, hd, hrest, hmethod⟩ := read_afterVirtual hm hs.left.tail.tail
      (significant (place (after pos m.lexemes) (ms.flatMap lexemes)))
    rw [List.flatMap_cons, place_append, significant_append, htokens, List.cons_append,
      collect_step, declared?_eq_some.2 ⟨rfl, rfl, hd⟩]
    dsimp only
    rw [hmethod, hrest, ih, hline, List.mapIdx_cons]
    simp only [Nat.add_zero, Nat.add_assoc, Nat.add_comm 1]

theorem not_brace_of_angleAfter (angle : Nat) {angle' : Nat} (prev : Option Token) {ts : List Token}
    (h : angleAfter angle prev ts = some angle') :
    ∀ t ∈ ts, t.isPunct '{' = false ∧ t.isPunct '}' = false := by
  intro t ht
  have := not_endsType_of_angleAfter h t ht
  simp only [endsType, Bool.or_eq_false_iff] at this
  exact ⟨this.1.1.2, this.1.2⟩

theorem nests_lexemes {m : Method} (h : m.WellFormed) {source : Text} {pos : Pos}
    (hs : StandsAt source pos m.lexemes) : nests 0 (significant (place pos m.lexemes)) = true := by
  have hangle : ∀ ts : List Token, angleAfter 0 none (ts.map pinned) = angleAfter 0 none ts :=
    angleAfter_map moves_pinned 0 none
  obtain ⟨name, opener, close, tail, listPos, htokens, hident, _, hopen, hclose, hparams,
      htail, _⟩ :=
    m.tokens_afterVirtual hs.tail.tail
  have hstart : significant (place pos m.lexemes) = [⟨.ident, "virtual", pos⟩] ++
    significant (place ((pos.advance (word "virtual").text).advance space.text) m.afterVirtual) :=
  rfl
  have hlist : nests 0 (significant (place listPos (Parameter.listLexemes m.parameters))) =
      true := by
    by_cases hne : m.parameters = []
    · rw [hne]
      rfl
    · obtain ⟨_, hcovers, _⟩ := Parameter.read_list hne h.parameters hparams
        (rfl : (none : Option Token).any isIdent = false)
      exact nests_of_covers hcovers rfl
  have htype : nests 0 (significant (place ((pos.advance (word "virtual").text).advance space.text)
      (Lexeme.ofText m.returnType))) = true := by
    apply nests_of_no_brace
    apply not_brace_of_angleAfter 0 none
    rw [fieldTokens_place _ hangle]
    exact h.type_nests
  have hname : nests 0 [name, opener] = true := by
    apply nests_of_no_brace
    intro t ht
    rcases List.mem_cons.1 ht with rfl | ht
    · exact ⟨not_isPunct_of_isIdent hident _, not_isPunct_of_isIdent hident _⟩
    · obtain rfl := List.mem_singleton.1 ht
      exact ⟨isPunct_unique hopen (by decide), isPunct_unique hopen (by decide)⟩
  have hend : nests 0 [close] = true := by
    apply nests_of_no_brace
    intro t ht
    obtain rfl := List.mem_singleton.1 ht
    exact ⟨isPunct_unique hclose (by decide), isPunct_unique hclose (by decide)⟩
  have hjoin {ts us : List Token} (ht : nests 0 ts = true) (hu : nests 0 us = true) :
      nests 0 (ts ++ us) = true := (nests_append ht).trans hu
  rw [hstart, htokens]
  exact hjoin rfl (hjoin htype (hjoin hname (hjoin hlist (hjoin hend htail))))

theorem bare_flatMap_lexemes {ms : List Method} (h : ∀ m ∈ ms, m.WellFormed) :
    bare (ms.flatMap lexemes) = spelling (ms.flatMap lexemes) := by
  induction ms with
  | nil => rfl
  | cons m ms ih =>
    rw [List.flatMap_cons, bare_append, spelling_append, bare_lexemes (h m (by simp)),
      ih fun m' hm' => h m' (by simp [hm'])]

theorem nests_flatMap_lexemes {ms : List Method} (h : ∀ m ∈ ms, m.WellFormed) {source : Text}
    {pos : Pos} (hs : StandsAt source pos (ms.flatMap lexemes)) :
    nests 0 (significant (place pos (ms.flatMap lexemes))) = true := by
  induction ms generalizing pos with
  | nil => rfl
  | cons m ms ih =>
    rw [List.flatMap_cons] at hs
    have ih := ih (fun m' hm' => h m' (by simp [hm'])) hs.right
    rw [List.flatMap_cons, place_append, significant_append]
    exact (nests_append (nests_lexemes (h m (by simp)) hs.left)).trans ih

end Method

namespace Interface

def leadLexemes (name : Text) : List Lexeme := [word "class", space, word name, space]

theorem head?_lead {name : Text} (hne : name ≠ [])
    (hkeys : name ≠ "class" ∧ name ≠ "struct" ∧ name ≠ "final") (t brace : Token)
    (ht : t.isIdent = true) (htext : t.text = name) (hbrace : brace.isPunct '{' = true)
    (rest : List Token) : head? none (t :: brace :: rest) = some ⟨name, brace, rest⟩ := by
  have hword (w : String) (hw : name ≠ w) : t.isWord w = false := by
    simpa [isWord, htext] using fun _ => hw
  have hkind : brace.kind = .punct := by
    simp only [isPunct, Bool.and_eq_true, beq_iff_eq] at hbrace
    exact hbrace.1
  have hname : headName [] (t :: brace :: rest) = headName name (brace :: rest) := by
    have hparen : (brace :: rest).head?.any (·.isPunct '(') = false :=
      isPunct_unique hbrace (by decide)
    have hkey : isClassKey t = false := by rw [isClassKey, hword _ hkeys.1, hword _ hkeys.2.1]; rfl
    rw [headName_cons, not_isPunct_of_isIdent ht, hword _ hkeys.2.2, ht, hparen, hkey, htext]
    rfl
  have hend : headName name (brace :: rest) = some (name, brace :: rest) := by
    have hfinal : brace.isWord "final" = false := by simp [isWord, hkind]
    have hident : brace.isIdent = false := by simp [isIdent, hkind]
    rw [headName_cons, isPunct_unique hbrace (d := '[') (by decide), hfinal, hident]
    rfl
  refine head?_eq_some.2 ⟨rfl, hne, brace :: rest, hname.trans hend, ?_⟩
  rw [headBrace, sign?_of_isPunct hbrace (by decide)]
  rfl

theorem ofHead_of_ne_nil (scopes : List OpenScope) (key : Token) (head : Head) {body : Text}
    (h : Method.ofBody body ≠ []) : ofHead scopes key head body = .ok
      { name := head.name
        kind := key.text
        scope := joinScopes scopes
        line := key.pos.line
        methods :=
          (Method.ofBody body).map fun m =>
              { m with line := m.line + head.brace.pos.line - 1 } } := by
  unfold ofHead
  split
  · contradiction
  · rfl

section Body

variable {ms : List Method} (h : ∀ m ∈ ms, m.WellFormed)
include h

theorem splitBrace_bodyLexemes (rest : List Lexeme) :
    splitBrace 0 (bodyLexemes ms ++ closeBrace :: rest) = some (bodyLexemes ms, rest) := by
  have hs : StandsAt (spelling (bodyLexemes ms)) (Pos.start.advance lineEnd.text)
      (ms.flatMap Method.lexemes) :=
    ⟨lineEnd.text, [], by simp [bodyLexemes], rfl⟩
  have hnests : nests 0 (significant (place Pos.start (bodyLexemes ms))) = true :=
    Method.nests_flatMap_lexemes h hs
  have hend : splitBrace 0 (closeBrace :: rest) = some ([], rest) := rfl
  rw [splitBrace_of_nests hnests 0, hend]
  simp

/-- The methods of a body that was written are those it was written from. -/
theorem ofBody_bodyLexemes (hcut : Lexeme.ofText (spelling (bodyLexemes ms)) = bodyLexemes ms) :
    Method.ofBody (spelling (bodyLexemes ms)) =
      ms.mapIdx fun i m => { m with line := (i : Int) + 2 } := by
  have hbare := Method.bare_flatMap_lexemes h
  have hs : StandsAt (spelling (bodyLexemes ms)) (Pos.start.advance lineEnd.text)
      (ms.flatMap Method.lexemes) :=
    ⟨lineEnd.text, [], by simp [bodyLexemes], rfl⟩
  have hstrip : stripComments (spelling (bodyLexemes ms)) = spelling (bodyLexemes ms) := by
    rw [stripComments_eq, hcut, bodyLexemes, bare_cons, hbare]
    rfl
  rw [Method.ofBody, hstrip, Token.ofText, hcut]
  refine (Method.collect_lexemes h hs).trans ?_
  have hline : (Pos.start.advance lineEnd.text).line = 2 := rfl
  have hindex (i : Nat) : ((2 + i : Nat) : Int) = (i : Int) + 2 := by omega
  simp only [hline, hindex]

end Body

/-- A written class is found and its methods are those that were written. -/
theorem locate_classText {name : Text} (hname : Text.isIdentifier name = true)
    (hkeys : name ≠ "class" ∧ name ≠ "struct" ∧ name ≠ "final") {ms : List Method} (hne : ms ≠ [])
    (h : ∀ m ∈ ms, m.WellFormed) :
    locate (classText name ms) = .ok
      { name
        kind := "class"
        line := 1
        methods := ms.mapIdx fun i m => { m with line := (i : Int) + 2 } } := by
  have hcut := ofText_classText hname h
  have htokens : significant (Token.ofText (classText name ms)) = ⟨.ident, "class", Pos.start⟩ ::
      ⟨.ident, name, (Pos.start.advance ("class" : Text)).advance space.text⟩ ::
      ⟨.punct, ['{'], after Pos.start (leadLexemes name)⟩ ::
      significant (place ((after Pos.start (leadLexemes name)).advance ['{'])
        (bodyLexemes ms ++ closeBrace :: [semicolon, lineEnd])) := by
    rw [Token.ofText, hcut]
    rfl
  have hline : (after Pos.start (leadLexemes name)).line = 1 := by
    have hlead : newline ∉ spelling (leadLexemes name) := by
      have hword := Text.newline_not_mem_identifier hname
      have hclass : newline ∉ ("class" : Text) := by decide
      have hspace : newline ≠ ' ' := by decide
      simp [leadLexemes, word, space, hword, hclass, hspace]
    rw [after_line, List.count_eq_zero.2 hlead]
    rfl
  have hoffset : (after Pos.start (leadLexemes name)).offset =
      (spelling (leadLexemes name)).length := by
    rw [after_offset]
    exact Nat.zero_add _
  change Lexeme.ofText _ =
    leadLexemes name ++ openBrace :: (bodyLexemes ms ++ closeBrace :: [semicolon, lineEnd]) at hcut
  have hscan := scanBlock_mask hcut
  rw [splitBrace_bodyLexemes h] at hscan
  have hhead := head?_lead (Text.ne_nil_of_isIdentifier hname) hkeys
    ⟨.ident, name, (Pos.start.advance ("class" : Text)).advance space.text⟩
    ⟨.punct, ['{'], after Pos.start (leadLexemes name)⟩ rfl rfl rfl
    (significant (place ((after Pos.start (leadLexemes name)).advance ['{'])
        (bodyLexemes ms ++ closeBrace :: [semicolon, lineEnd])))
  rw [locate, htokens, locateFrom_cons, hhead]
  dsimp only
  rw [hoffset, hscan]
  dsimp only
  rw [slice_inner hcut]
  have hmethods := ofBody_bodyLexemes h (ofText_inner hcut)
  refine (ofHead_of_ne_nil [] _ _ (by simpa [hmethods] using hne)).trans ?_
  -- the brace stands on the first line
  have hsame (m : Method) : { m with line := m.line + ((1 : Nat) : Int) - 1 } = m := by simp
  simp only [hmethods, hline, hsame, List.map_id']
  rfl

/-- A class that declares the methods, one on each line, is read back as it was written. -/
theorem parse_classText (file : Text) {name : Text} (hname : Text.isIdentifier name = true)
    (hkeys : name ≠ "class" ∧ name ≠ "struct" ∧ name ≠ "final") {ms : List Method} (hne : ms ≠ [])
    (h : ∀ m ∈ ms, m.WellFormed) :
    parse file (classText name ms) = .ok
      { name
        kind := "class"
        scope := []
        file
        line := 1
        methods := ms.mapIdx fun i m => { m with line := (i : Int) + 2 } } := by
  rw [parse, locate_classText hname hkeys hne h]

/-- A class whose methods have template types, function types and default arguments. -/
def sampleMethods : List Method :=
  [{ returnType := "std::map<int, void (*)(int)>", name := "find"
     parameters := [{ type := "const std::string&", name := "key" },
       { type := "std::function<int(int, int)>", name := "step", default := "pick<a, b>(1)" }]
     isConst := true },
    { returnType := "unsigned long", name := "size"
      parameters := [{ type := "int" }, { type := "char", name := "c", default := "','" }]
      isNoexcept := true },
    { returnType := "void", name := "clear" }]

theorem parse_sampleMethods : parse "store.hpp" (classText "Store" sampleMethods) = .ok
    { name := "Store", kind := "class", scope := [], file := "store.hpp", line := 1
      methods := sampleMethods.mapIdx fun i m => { m with line := (i : Int) + 2 } } :=
  parse_classText "store.hpp" (by decide) (by decide) (by decide) (by decide +kernel)

end Interface
end HeaderBridge
