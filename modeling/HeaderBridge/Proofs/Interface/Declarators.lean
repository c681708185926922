import HeaderBridge.Proofs.Interface.Groups
import HeaderBridge.Proofs.Source.Written

namespace HeaderBridge

open Token Nesting

/-- Array bounds: groups in square brackets, each of them closed. -/
inductive Bounds : List Token → Prop
  | nil : Bounds []
  | cons {opener closer : Token} {inner bounds : List Token} (hopen : opener.isPunct '[' = true)
      (hinner : closes '[' ']' 0 inner = true) (hclose : closer.isPunct ']' = true)
      (h : Bounds bounds) : Bounds (opener :: (inner ++ closer :: bounds))

/-- A parameter list: one group in parentheses, which is closed. -/
def IsList (ts : List Token) : Prop :=
  ∃ opener inner closer, ts = opener :: (inner ++ [closer]) ∧ opener.isPunct '(' = true ∧
    closes '(' ')' 0 inner = true ∧ closer.isPunct ')' = true

namespace Parameter

def isQualifier (t : Token) : Bool := t.isWord "const" || t.isWord "volatile"

inductive Inside : List Token → List Token → Prop
  /-- The name stands behind a type and in front of array bounds. -/
  | array {type bounds : List Token} (hscope : type.getLast?.any (·.kind == .scope) = false)
      (htype : (type.any fun t => !(t.isIdent && typeElaborators.contains t.text)) = true)
      (hbounds : Bounds bounds) (hne : bounds ≠ []) : Inside type bounds
  /-- The name stands in a group behind a type, with a parameter list or array bounds behind the
  group. A parenthesis of the type stands inside other brackets. -/
  | grouped {first opener sign closer : Token} {type qualifiers tail : List Token}
      (hfirst : first.isIdent = true)
      (htype : covers (·.isPunct '(') {} none (first :: type) = true)
      (hopen : opener.isPunct '(' = true)
      (hsign : sign.isPunct '*' = true ∨ sign.isPunct '&' = true)
      (hqualifiers : ∀ t ∈ qualifiers, isQualifier t = true) (hclose : closer.isPunct ')' = true)
      (htail : IsList tail ∨ Bounds tail) :
      Inside (first :: (type ++ opener :: sign :: qualifiers)) (closer :: tail)

theorem dropBounds_close {t : Token} (ht : t.isPunct ']' = true) (depth : Nat) (ts : List Token) :
    dropBounds depth (t :: ts) = dropBounds (depth + 1) ts := by
  cases depth with
  | zero => rw [dropBounds, if_pos ht]
  | succ depth => rw [dropBounds, if_pos ht]

theorem dropBounds_open {t : Token} (ht : t.isPunct '[' = true) (depth : Nat) (ts : List Token) :
    dropBounds (depth + 1) (t :: ts) = dropBounds depth ts := by
  rw [dropBounds, if_neg (by simp [isPunct_unique ht (d := ']') (by decide)]), if_pos ht]

theorem dropBounds_of_closes {pending : Nat} {inner : List Token}
    (h : closes '[' ']' pending inner = true) (depth : Nat) (ts : List Token) :
    dropBounds (depth + 1) (inner.reverse ++ ts) = dropBounds (depth + 1 + pending) ts := by
  induction inner generalizing pending ts with
  | nil =>
    obtain rfl : pending = 0 := by simpa [closes] using h
    rfl
  | cons t inner ih =>
    rw [closes] at h
    rw [List.reverse_cons, List.append_assoc, List.singleton_append]
    split at h
    · rename_i hopen
      rw [ih h]
      exact dropBounds_open hopen (depth + 1 + pending) ts
    · rename_i hopen
      split at h
      · rename_i hclose
        obtain ⟨hpos, hinner⟩ := Bool.and_eq_true_iff.1 h
        rw [bne_iff_ne] at hpos
        have hdepth : depth + 1 + (pending - 1) + 1 = depth + 1 + pending := by omega
        rw [ih hinner, dropBounds_close hclose, hdepth]
      · rename_i hclose
        have hdepth : depth + 1 + pending = depth + pending + 1 := by omega
        rw [ih h, hdepth, dropBounds, if_neg hclose, if_neg hopen]

theorem dropBounds_of_bounds {bounds : List Token} (h : Bounds bounds) (ts : List Token) :
    dropBounds 0 (bounds.reverse ++ ts) = dropBounds 0 ts := by
  induction h generalizing ts with
  | nil => rfl
  | @cons opener closer inner bounds hopen hinner hclose h ih =>
    have hreverse : (opener :: (inner ++ closer :: bounds)).reverse ++ ts =
        bounds.reverse ++ (closer :: (inner.reverse ++ opener :: ts)) := by simp
    rw [hreverse, ih, dropBounds_close hclose, dropBounds_of_closes hinner, dropBounds_open hopen]

/-- The first group outside all brackets is looked for behind tokens that have none. -/
theorem groupedFrom_of_covers {n : Nesting} {seen ts : List Token} (hn : n.isFirst = true)
    (h : covers (·.isPunct '(') n seen.head? ts = true) (rest : List Token) :
    groupedFrom n seen (ts ++ rest) = groupedFrom {} (ts.reverse ++ seen) rest := by
  induction ts generalizing n seen with
  | nil =>
    obtain rfl := eq_of_isClosed h hn
    rfl
  | cons t ts ih =>
    rw [covers, Bool.and_eq_true, Bool.and_eq_true, Bool.not_eq_true'] at h
    obtain ⟨⟨hbar, -⟩, hcovers⟩ := h
    rw [List.cons_append, groupedFrom, if_neg (by simp [hbar]), ih (isFirst_step hn _ t) hcovers,
      List.reverse_cons, List.append_assoc]
    rfl

theorem isIdent_of_isQualifier {t : Token} (h : isQualifier t = true) : t.isIdent = true := by
  simp only [isQualifier, isWord, Bool.or_eq_true, Bool.and_eq_true] at h
  exact h.elim And.left And.left

theorem groupName?_of_qualifiers {sign name : Token} {qualifiers : List Token}
    (hsign : sign.isPunct '*' = true ∨ sign.isPunct '&' = true)
    (hqualifiers : ∀ t ∈ qualifiers, isQualifier t = true) (hname : name.isIdent = true)
    (husable : isUsableName name.text = true) :
    groupName? (sign :: (qualifiers ++ [name])) = some (sign :: qualifiers, name) := by
  have hscope : ∀ t ∈ sign :: qualifiers, (t.kind != .scope) = true := by
    intro t ht
    rcases List.mem_cons.1 ht with rfl | ht
    · have hkind : t.kind = .punct := by
        simp only [isPunct, Bool.and_eq_true, beq_iff_eq] at hsign
        exact hsign.elim And.left And.left
      rw [hkind]
      rfl
    · have hkind : t.kind =
          .ident := by simpa [isIdent] using isIdent_of_isQualifier (hqualifiers t ht)
      rw [hkind]
      rfl
  obtain ⟨prev, more, hreverse⟩ : ∃ prev more, (sign :: qualifiers).reverse = prev :: more :=
    List.exists_cons_of_ne_nil (by simp)
  have hprev : prev ∈ sign :: qualifiers := List.mem_reverse.1 (hreverse ▸ List.mem_cons_self)
  have hinner : (sign :: (qualifiers ++ [name])).reverse = name :: prev :: more := by
    rw [← List.cons_append, List.reverse_append, hreverse]
    rfl
  have hgroup : ((sign.isPunct '*' || sign.isPunct '&') && name.isIdent && isUsableName name.text &&
      prev.kind != .scope) = true := by
    rw [hname, husable, hscope prev hprev, Bool.and_true, Bool.and_true, Bool.and_true,
      Bool.or_eq_true]
    exact hsign
  rw [groupName?, hinner, List.head?_cons]
  dsimp only
  rw [if_pos hgroup, ← hreverse, List.reverse_reverse]

theorem closeParen_of_qualifiers {sign name closer : Token} {qualifiers : List Token}
    (hsign : sign.isPunct '*' = true ∨ sign.isPunct '&' = true)
    (hqualifiers : ∀ t ∈ qualifiers, isQualifier t = true) (hname : name.isIdent = true)
    (hclose : closer.isPunct ')' = true) (tail : List Token) :
    closeParen 0 (sign :: (qualifiers ++ name :: closer :: tail)) =
      some (sign :: (qualifiers ++ [name]), closer :: tail) := by
  have hplain : ∀ t ∈ sign :: (qualifiers ++ [name]),
      t.isPunct '(' = false ∧ t.isPunct ')' = false ∧ t.isPunct ';' = false := by
    intro t ht
    rcases List.mem_cons.1 ht with rfl | ht
    · rcases hsign with hsign | hsign
      · exact ⟨isPunct_unique hsign (by decide), isPunct_unique hsign (by decide),
          isPunct_unique hsign (by decide)⟩
      · exact ⟨isPunct_unique hsign (by decide), isPunct_unique hsign (by decide),
          isPunct_unique hsign (by decide)⟩
    · have hident : t.isIdent = true := by
        rcases List.mem_append.1 ht with ht | ht
        · exact isIdent_of_isQualifier (hqualifiers t ht)
        · rwa [List.mem_singleton.1 ht]
      exact ⟨not_isPunct_of_isIdent hident _, not_isPunct_of_isIdent hident _,
        not_isPunct_of_isIdent hident _⟩
  have hcloses : ∀ ts : List Token, (∀ t ∈ ts, t.isPunct '(' = false ∧ t.isPunct ')' = false ∧
      t.isPunct ';' = false) → closes '(' ')' 0 ts = true := by
    intro ts hts
    induction ts with
    | nil => rfl
    | cons t ts ih =>
      obtain ⟨hopen, hclosing, -⟩ := hts t List.mem_cons_self
      rw [closes, if_neg (by simp [hopen]), if_neg (by simp [hclosing])]
      exact ih fun u hu => hts u (List.mem_cons_of_mem t hu)
  have hcut := closeParen_of_closes (hcloses _ hplain) (fun t ht => (hplain t ht).2.2) hclose tail
  rwa [List.cons_append, List.append_assoc] at hcut

/-- Behind a group that holds the name no identifier ends the declaration. -/
theorem exists_closer_of_tail {closer : Token} {tail : List Token}
    (hclose : closer.isPunct ')' = true) (htail : IsList tail ∨ Bounds tail) (front : List Token) :
    ∃ last seen, dropBounds 0 (front ++ closer :: tail).reverse = some (last :: seen) ∧
    last.isIdent = false := by
  have hstop {t : Token} (ht : t.isPunct ')' = true) (ts : List Token) :
      dropBounds 0 (t :: ts) = some (t :: ts) ∧ t.isIdent = false := by
    refine ⟨by rw [dropBounds, if_neg (by simp [isPunct_unique ht (d := ']') (by decide)])], ?_⟩
    cases hident : t.isIdent with
    | false => rfl
    | true => rw [not_isPunct_of_isIdent hident] at ht; cases ht
  rcases htail with ⟨opener, inner, last, rfl, -, -, hlast⟩ | hbounds
  · have hreverse : (front ++ closer :: opener :: (inner ++ [last])).reverse =
        last :: (front ++ closer :: opener :: inner).reverse := by simp
    rw [hreverse]
    exact ⟨last, _, hstop hlast _⟩
  · have hreverse : (front ++ closer :: tail).reverse = tail.reverse ++
        (closer :: front.reverse) := by simp
    rw [hreverse, dropBounds_of_bounds hbounds]
    exact ⟨closer, _, hstop hclose _⟩

theorem findName_of_inside {before after : List Token} {name : Token} (hname : name.isIdent = true)
    (husable : isUsableName name.text = true) (h : Inside before after) :
    findName (before ++ name :: after) = some ⟨before, name, after⟩ := by
  cases h with
  | array hscope htype hbounds hne =>
    have hreverse : (before ++ name :: after).reverse = after.reverse ++
        (name :: before.reverse) := by simp
    have hdropped : dropBounds 0 (before ++ name :: after).reverse =
        some (name :: before.reverse) := by
      rw [hreverse, dropBounds_of_bounds hbounds, dropBounds,
        if_neg (by simp [not_isPunct_of_isIdent hname])]
    have htrailing : isTrailingName before.reverse.reverse name = true := by
      rw [List.reverse_reverse, isTrailingName, husable, hscope, htype]
      rfl
    have hlength : before.reverse.length + 1 = (before ++ [name]).length := by simp
    rw [findName, hdropped]
    dsimp only
    rw [if_neg (by simp [hname]), if_pos htrailing, List.reverse_reverse, hlength,
      List.append_cons before name after, List.drop_left]
  | @grouped first opener sign closer type qualifiers tail hfirst htype hopen hsign hqualifiers
      hclose htail =>
    have hdecl : first :: (type ++ opener :: sign :: qualifiers) ++ name :: closer :: tail =
        (first :: (type ++ opener :: sign :: (qualifiers ++ [name]))) ++ closer :: tail := by simp
    obtain ⟨last, seen, hdropped, hlast⟩ := exists_closer_of_tail hclose htail
      (first :: (type ++ opener :: sign :: (qualifiers ++ [name])))
    rw [← hdecl] at hdropped
    -- the first token is no bracket
    have htype' : covers (·.isPunct '(') {} (some first) type = true := by
      have hstep : step {} none first = {} := by
        have hkind : first.kind = .ident := by simpa [isIdent] using hfirst
        unfold step sign?
        rw [hkind]
      rw [covers, hstep, Bool.and_eq_true] at htype
      exact htype.2
    have hwhole : first :: (type ++ opener :: sign :: qualifiers) ++ name :: closer :: tail =
        first :: (type ++ opener :: sign :: (qualifiers ++ name :: closer :: tail)) := by simp
    rw [findName, hdropped]
    dsimp only
    rw [if_pos (by simp [hlast]), hwhole, groupedName, groupedFrom_of_covers rfl htype',
      groupedFrom, if_pos (by simp [hopen, isTop]),
      closeParen_of_qualifiers hsign hqualifiers hname hclose]
    dsimp only
    rw [groupName?_of_qualifiers hsign hqualifiers hname husable]
    simp

theorem Inside.after_ne_nil {before after : List Token} (h : Inside before after) : after ≠ [] := by
  cases h with
  | array _ _ _ hne => exact hne
  | grouped => exact List.cons_ne_nil _ _

/-- A declaration without an equals sign outside its brackets, and the default argument behind
it. -/
theorem splitDefault_of_declaration {decl rest : List Token}
    (h : covers (·.isPunct '=') {} none decl = true)
    (hrest : ∀ t ∈ rest.head?, t.isPunct '=' = true) :
    splitDefault {} none (decl ++ rest) = (decl, if rest = [] then none else some rest.tail) := by
  rw [splitDefault_of_covers (fun _ => id) h rfl]
  cases rest with
  | nil => simp [splitDefault]
  | cons equals default =>
    have hequals : (equals.isPunct '=' && ({} : Nesting).isTop) = true := by
      rw [hrest equals rfl]
      rfl
    rw [splitDefault, if_pos hequals, List.append_nil]
    rfl

/-- The parts of a parameter whose name stands inside its type are cut from the tokens around the
name. -/
theorem ofTokens_of_inside (source : Text) {before after rest : List Token} {name : Token}
    (hname : name.isIdent = true) (husable : isUsableName name.text = true)
    (hinside : Inside before after)
    (hnests : covers (·.isPunct '=') {} none (before ++ name :: after) = true)
    (hrest : ∀ t ∈ rest.head?, t.isPunct '=' = true) :
    ofTokens source (before ++ name :: after ++ rest) =
      { type := spanText source before ++ spanText source after
        name := name.text
        default := spanText source rest.tail
        declarator := spanText source (before ++ name :: after) } := by
  have hkept : after.isEmpty = false := by simpa using hinside.after_ne_nil
  have hvalue : ((if rest = [] then none else some rest.tail).map (spanText source)).getD [] =
      spanText source rest.tail := by
    cases rest with
    | nil => rfl
    | cons equals default => rfl
  rw [ofTokens, splitDefault_of_declaration hnests hrest]
  dsimp only
  rw [findName_of_inside hname husable hinside, hvalue]
  dsimp only
  rw [hkept]
  rfl

theorem declaration_of_declarator {p : Parameter} (h : p.declarator ≠ []) :
    p.declaration = p.declarator := by
  rw [declaration, if_pos (by simpa using h)]

theorem render_of_declarator {p : Parameter} (h : p.declarator ≠ []) :
    p.render true = p.declarator ++ if p.default = [] then [] else (" = " : Text) ++ p.default := by
  rw [render, declaration_of_declarator h]
  by_cases hdefault : p.default = []
  · simp [hdefault]
  · rw [if_neg hdefault, if_pos (by simpa using hdefault), List.append_assoc]

/-- A parameter whose name stands inside its type is told apart into what is written around the
name, the name, and the default argument, and it is written back as it was. -/
theorem ofTokens_inside {source : Text} (hfolded : Text.collapse source = source)
    {before after rest : List Token} {name : Token}
    (htokens : significant (ofText source) = before ++ name :: after ++ rest)
    (hname : name.isIdent = true) (husable : isUsableName name.text = true)
    (hinside : Inside before after)
    (hnests : covers (·.isPunct '=') {} none (before ++ name :: after) = true)
    (hrest : ∀ t ∈ rest.head?, t.isPunct '=' = true) :
    let p := ofTokens source (significant (ofText source))
    p = { type := textOf source before ++ textOf source after
          name := name.text
          default := textOf source rest.tail
          declarator := textOf source (before ++ name :: after) } ∧
      p.render false = textOf source (before ++ name :: after) ∧
      p.render true = textOf source (before ++ name :: after) ++
        (if rest.tail = [] then [] else (" = " : Text) ++ textOf source rest.tail) ∧
      (rest = [] → (∀ l ∈ Lexeme.ofText source, l.kind.isComment = false) →
        p.render true = source) := by
  have hspan {ts : List Token} (hts : ts <:+: significant (ofText source)) :=
    spanText_of_folded hfolded hts
  have hdecl : before ++ name :: after <:+: significant (ofText source) := ⟨[], rest, htokens.symm⟩
  have hbefore : before <:+: significant (ofText source) :=
    ⟨[], name :: after ++ rest, by rw [htokens]; simp⟩
  have hafter : after <:+: significant (ofText source) :=
    ⟨before ++ [name], rest, by rw [htokens]; simp⟩
  have hdefault : rest.tail <:+: significant (ofText source) := by
    rw [htokens]
    exact ((List.tail_suffix rest).trans (List.suffix_append _ rest)).isInfix
  have hparameter : ofTokens source (significant (ofText source)) =
      { type := textOf source before ++ textOf source after
        name := name.text
        default := textOf source rest.tail
        declarator := textOf source (before ++ name :: after) } := by
    rw [← hspan hbefore, ← hspan hafter, ← hspan hdefault, ← hspan hdecl, htokens]
    exact ofTokens_of_inside source hname husable hinside hnests hrest
  have hwritten : textOf source (before ++ name :: after) ≠ [] := textOf_ne_nil hdecl (by simp)
  have hvalue : textOf source rest.tail = [] ↔ rest.tail = [] := by
    refine ⟨fun hnil => ?_, fun hnil => by rw [hnil]; rfl⟩
    by_contra hne
    exact textOf_ne_nil hdefault hne hnil
  have hplain : (ofTokens source (significant (ofText source))).render false =
      textOf source (before ++ name :: after) := by
    rw [hparameter]
    exact declaration_of_declarator hwritten
  have hfull : (ofTokens source (significant (ofText source))).render true =
      textOf source (before ++ name :: after) ++
        (if rest.tail = [] then [] else (" = " : Text) ++ textOf source rest.tail) := by
    rw [hparameter, render_of_declarator hwritten]
    dsimp only
    simp only [hvalue]
  refine ⟨hparameter, hplain, hfull, ?_⟩
  rintro rfl hcomments
  have hall : before ++ name :: after = significant (ofText source) := by
    rw [htokens, List.append_nil]
  rw [hfull, hall, textOf_significant hfolded hcomments]
  simp

/-- A pointer to a function, whose own type has parentheses in its template arguments. -/
def callback : Text := "A<int()> (*const cb)(int[2]) = f"

def tokenAt (offset : Nat) (kind : TokenKind) (text : Text) : Token :=
  ⟨kind, text, ⟨offset, 1, offset + 1⟩⟩

theorem ofTokens_inside_callback : ofTokens callback (significant (ofText callback)) =
    { type := "A<int()> (*const)(int[2])", name := "cb", default := "f",
      declarator := "A<int()> (*const cb)(int[2])" } ∧
    (ofTokens callback (significant (ofText callback))).render true = callback := by
  let type :=
    [tokenAt 1 .punct "<", tokenAt 2 .ident "int", tokenAt 5 .punct "(", tokenAt 6 .punct ")",
    tokenAt 7 .punct ">"]
  let before :=
    tokenAt 0 .ident "A" :: (type ++ [tokenAt 9 .punct "(", tokenAt 10 .punct "*",
      tokenAt 11 .ident "const"])
  let parameters := [tokenAt 21 .ident "int", tokenAt 24 .punct "[", tokenAt 25 .number "2",
    tokenAt 26 .punct "]"]
  let tail := tokenAt 20 .punct "(" :: (parameters ++ [tokenAt 27 .punct ")"])
  have hinside : Inside before (tokenAt 19 .punct ")" :: tail) :=
    .grouped (by decide) (by decide) (by decide) (.inl (by decide)) (by decide) (by decide)
      (.inl ⟨_, parameters, _, rfl, by decide, by decide, by decide⟩)
  have htokens : significant (ofText callback) =
      before ++ tokenAt 17 .ident "cb" :: (tokenAt 19 .punct ")" :: tail) ++
        [tokenAt 29 .punct "=", tokenAt 31 .ident "f"] := by decide +kernel
  obtain ⟨hparts, -, hfull, -⟩ :=
    ofTokens_inside (by decide +kernel) htokens (by decide) (by decide) hinside (by decide)
    (by decide)
  refine ⟨hparts.trans (by decide +kernel), hfull.trans (by decide +kernel)⟩

end Parameter
end HeaderBridge
