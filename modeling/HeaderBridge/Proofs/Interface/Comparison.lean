import HeaderBridge.Proofs.Interface.Reading

namespace HeaderBridge

theorem Token.not_isIdent_of_isPunct {t : Token} {c : Char} (h : t.isPunct c = true) :
    t.isIdent = false := by
  simp [isIdent, (isPunct_iff.1 h).1]

namespace Nesting

def walk : Nesting → Option Token → List Token → Nesting
  | n, _, [] => n
  | n, prev, t :: ts => (n.step prev t).walk (some t) ts

def uncut : Nesting → Option Token → List Token → Bool
  | _, _, [] => true
  | n, prev, t :: ts => !(t.isPunct ',' && n.isTop) && uncut (n.step prev t) (some t) ts

theorem walk_append (n : Nesting) (prev : Option Token) (ts us : List Token) :
    n.walk prev (ts ++ us) = (n.walk prev ts).walk (ts.getLast?.or prev) us := by
  induction ts generalizing n prev with
  | nil => rfl
  | cons t ts ih => rw [List.cons_append, walk, walk, ih, getLast?_or_cons]

theorem uncut_append (n : Nesting) (prev : Option Token) (ts us : List Token) :
    n.uncut prev (ts ++ us) =
      (n.uncut prev ts && (n.walk prev ts).uncut (ts.getLast?.or prev) us) := by
  induction ts generalizing n prev with
  | nil => rfl
  | cons t ts ih => rw [List.cons_append, uncut, uncut, walk, ih, getLast?_or_cons, Bool.and_assoc]

/-- Inside a default argument: after the equals sign, where `<` and `>` may be read literally. -/
def inside (literal : Bool) : Nesting := { literal, inDefault := literal }

/-- The brackets that are no angle brackets are counted the same, whatever is made of `<` and
`>`. -/
def SameBrackets (n m : Nesting) : Prop := n.paren = m.paren ∧ n.square = m.square ∧
    n.brace = m.brace

theorem sameBrackets_inside (literal literal' : Bool) :
    (inside literal).SameBrackets (inside literal') :=
  ⟨rfl, rfl, rfl⟩

theorem SameBrackets.step {n m : Nesting} (h : n.SameBrackets m) (prev : Option Token) (t : Token) :
    (n.step prev t).SameBrackets (m.step prev t) := by
  obtain ⟨hparen, hsquare, hbrace⟩ := h
  unfold Nesting.step
  split
  case h_8 => split <;> split <;> exact ⟨hparen, hsquare, hbrace⟩
  case h_9 => split <;> split <;> exact ⟨hparen, hsquare, hbrace⟩
  all_goals simp [SameBrackets, hparen, hsquare, hbrace]

/-- Tokens that are balanced but for angle brackets stand for themselves exactly if they leave no
angle bracket open and have no comma outside all brackets. -/
theorem covers_comma_iff {n m : Nesting} (h : n.SameBrackets m) {prev : Option Token}
    {ts : List Token} (hm : covers (fun _ => false) m prev ts = true) :
    covers (·.isPunct ',') n prev ts = true ↔ n.uncut prev ts = true ∧
    (n.walk prev ts).angle = 0 := by
  induction ts generalizing n m prev with
  | nil =>
    obtain ⟨hparen, hsquare, hbrace⟩ := h
    simp only [covers, isClosed, Bool.and_eq_true, beq_iff_eq] at hm ⊢
    simp only [uncut, walk, hparen, hsquare, hbrace, hm, true_and]
  | cons t ts ih =>
    have hstep := h.step prev t
    rw [covers, Bool.and_eq_true, Bool.and_eq_true] at hm
    -- whether the nesting is sound does not depend on angle brackets
    have hsound : (n.step prev t).isSound = true := by
      obtain ⟨hparen, hsquare, hbrace⟩ := hstep
      rw [isSound, hparen, hsquare, hbrace]
      exact hm.1.2
    rw [covers, uncut, walk, hsound, Bool.and_true, Bool.and_eq_true, Bool.and_eq_true,
      ih hstep hm.2, and_assoc]

/-- Behind balanced tokens the brackets are closed, but perhaps for angle brackets. -/
theorem brackets_walk {n m : Nesting} (h : n.SameBrackets m) {prev : Option Token} {ts : List Token}
    (hm : covers (fun _ => false) m prev ts = true) : (n.walk prev ts).SameBrackets {} := by
  induction ts generalizing n m prev with
  | nil =>
    obtain ⟨hparen, hsquare, hbrace⟩ := h
    simp only [covers, isClosed, Bool.and_eq_true, beq_iff_eq] at hm
    exact ⟨hparen.trans hm.1.1.1, hsquare.trans hm.1.1.2, hbrace.trans hm.1.2⟩
  | cons t ts ih =>
    rw [covers, Bool.and_eq_true] at hm
    exact ih (h.step prev t) hm.2

theorem walk_prev {prev prev' : Option Token} (h : prev.any Token.isIdent = prev'.any Token.isIdent)
    (n : Nesting) (ts : List Token) :
    n.walk prev ts = n.walk prev' ts ∧ n.uncut prev ts = n.uncut prev' ts := by
  cases ts with
  | nil => exact ⟨rfl, rfl⟩
  | cons t ts =>
    rw [walk, walk, uncut, uncut, step_congr h]
    exact ⟨rfl, rfl⟩

/-- The mode is kept, no more angle brackets are closed than were opened, and none is opened where
they are read literally. -/
theorem walk_angle {n : Nesting} (h : 0 ≤ n.angle) (prev : Option Token) (ts : List Token) :
    (n.walk prev ts).literal = n.literal ∧ 0 ≤ (n.walk prev ts).angle ∧
      (n.inDefault = true → (n.walk prev ts).angle = n.angle) := by
  induction ts generalizing n prev with
  | nil => exact ⟨rfl, h, fun _ => rfl⟩
  | cons t ts ih =>
    have hstep : (n.step prev t).literal = n.literal ∧ 0 ≤ (n.step prev t).angle ∧
        (n.inDefault = true → (n.step prev t).inDefault = true ∧
          (n.step prev t).angle = n.angle) := by
      unfold step
      split
      case h_8 => grind
      case h_9 => grind
      all_goals simp_all
    obtain ⟨hliteral, hangle, hdefault⟩ := hstep
    obtain ⟨hliteral', hangle', hdefault'⟩ := ih hangle (some t)
    refine ⟨hliteral'.trans hliteral, hangle', fun hin => ?_⟩
    exact (hdefault' (hdefault hin).1).trans (hdefault hin).2

theorem step_literal {n : Nesting} (hn : n.isFirst = true) {t : Token}
    (ht : (t.isPunct '=' && n.isTop) = false) (literal : Bool) (prev : Option Token) :
    ({ n with literal } : Nesting).step prev t = { n.step prev t with literal } := by
  obtain ⟨p, s, b, a, l, d⟩ := n
  obtain ⟨rfl, rfl⟩ : l = false ∧ d = false := by simpa [isFirst] using hn
  have hequals := t.isPunct_eq_sign? (c := '=') (by decide)
  unfold step
  split
  case h_7 hs =>
    -- only an equals sign at the top would start a default argument, where the mode matters
    have htop : isTop ⟨p, s, b, a, false, false⟩ = false := by simpa [hequals, hs] using ht
    have htop' : isTop ⟨p, s, b, a, literal, false⟩ = false := htop
    simp [htop']
  case h_8 => split <;> simp_all
  case h_9 => split <;> simp_all
  all_goals rfl

/-- The tokens of a type leave no trace, also when defaults are read literally. -/
theorem walk_type {n : Nesting} (hn : n.isFirst = true) {prev : Option Token} {ts : List Token}
    (h : covers (fun t => t.isPunct ',' || t.isPunct '=') n prev ts = true) (literal : Bool) :
    ({ n with literal } : Nesting).walk prev ts = { literal } ∧
      ({ n with literal } : Nesting).uncut prev ts = true := by
  induction ts generalizing n prev with
  | nil =>
    obtain rfl := eq_of_isClosed h hn
    exact ⟨rfl, rfl⟩
  | cons t ts ih =>
    rw [covers, Bool.and_eq_true, Bool.and_eq_true, Bool.not_eq_true', Bool.and_or_distrib_right,
      Bool.or_eq_false_iff] at h
    obtain ⟨⟨⟨hcomma, hequals⟩, -⟩, hrest⟩ := h
    have htop : isTop ({ n with literal } : Nesting) = n.isTop := rfl
    rw [walk, uncut, step_literal hn hequals literal prev, htop, hcomma]
    exact ih (isFirst_step hn prev t) hrest

end Nesting

namespace Parameter

open Nesting

section Split

variable {n : Nesting} {prev : Option Token} {ts rest : List Token} {comma : Token}

theorem splitCommas_of_uncut (h : n.uncut prev ts = true) :
    splitCommas n prev ts = ([ts], n.walk prev ts) := by
  induction ts generalizing n prev with
  | nil => rfl
  | cons t ts ih =>
    rw [uncut, Bool.and_eq_true, Bool.not_eq_true'] at h
    simp [splitCommas, h.1, ih h.2, walk]

theorem splitCommas_append (h : n.uncut prev ts = true) (htop : (n.walk prev ts).isTop = true)
    (hcomma : comma.isPunct ',' = true) : splitCommas n prev (ts ++ comma :: rest) =
      (ts :: (splitCommas { n.walk prev ts with inDefault := false } (some comma) rest).1,
        (splitCommas { n.walk prev ts with inDefault := false } (some comma) rest).2) := by
  induction ts generalizing n prev with
  | nil =>
    have htop : n.isTop = true := htop
    simp [splitCommas, hcomma, htop, walk]
  | cons t ts ih =>
    rw [uncut, Bool.and_eq_true, Bool.not_eq_true'] at h
    rw [List.cons_append, splitCommas, h.1, if_neg Bool.false_ne_true, ih h.2 htop]
    rfl

/-- A segment that ends before the tokens do has no cut in it and one behind it. -/
theorem cut_of_head? (h : (splitCommas n prev (ts ++ rest)).1.head? = some ts) :
    n.uncut prev ts = true ∧ (rest ≠ [] → (n.walk prev ts).isTop = true) := by
  induction ts generalizing n prev with
  | nil =>
    refine ⟨rfl, fun hne => ?_⟩
    obtain ⟨t, rest, rfl⟩ := List.exists_cons_of_ne_nil hne
    rw [List.nil_append, splitCommas] at h
    split at h
    · rename_i hcut
      rw [Bool.and_eq_true] at hcut
      exact hcut.2
    · simp at h
  | cons t ts ih =>
    rw [List.cons_append, splitCommas] at h
    split at h
    · simp at h
    · rename_i hcut
      rw [List.head?_modifyHead, Option.map_eq_some_iff] at h
      obtain ⟨head, hhead, heq⟩ := h
      obtain rfl : head = ts := (List.cons.inj heq).2
      obtain ⟨huncut, htop⟩ := ih hhead
      refine ⟨?_, htop⟩
      rw [uncut, huncut, Bool.and_true, Bool.not_eq_true']
      exact Bool.not_eq_true _ ▸ hcut

end Split

/-- How many `<` behind an identifier are still open at the end, where each `>` closes one of
them. -/
def leftOpen : Nat → Option Token → List Token → Nat
  | k, _, [] => k
  | k, prev, t :: ts =>
    let k' :=
      if t.isPunct '<' && prev.any Token.isIdent then k + 1 else if t.isPunct '>' then k - 1 else k
    leftOpen k' (some t) ts

theorem angle_splitCommas {n : Nesting} (hn : n.isFirst = true) {k : Nat} (hk : n.angle = k)
    (prev : Option Token) (ts : List Token) :
    (splitCommas n prev ts).2.angle = leftOpen k prev ts := by
  induction ts generalizing n prev k with
  | nil => exact hk
  | cons t ts ih =>
    have hfirst : ({ n with inDefault := false } : Nesting) = n := by
      obtain ⟨p, s, b, a, l, d⟩ := n
      obtain ⟨rfl, rfl⟩ : l = false ∧ d = false := by simpa [isFirst] using hn
      rfl
    rw [splitCommas, leftOpen]
    split
    · rename_i hcomma
      rw [Bool.and_eq_true] at hcomma
      rw [hfirst, Token.isPunct_unique hcomma.1 (by decide),
        Token.isPunct_unique hcomma.1 (by decide)]
      exact ih hn hk _
    · refine ih (isFirst_step hn prev t) ?_ _
      obtain ⟨p, s, b, a, l, d⟩ := n
      obtain ⟨rfl, rfl⟩ : l = false ∧ d = false := by simpa [isFirst] using hn
      obtain rfl : a = k := hk
      rw [t.isPunct_eq_sign? (by decide), t.isPunct_eq_sign? (by decide)]
      unfold step
      split
      all_goals simp_all
      · split <;> simp_all
      · split <;> dsimp only <;> omega

/-- A written parameter: a type, a name and perhaps a default argument. The brackets of the default
argument are balanced, but a `<` or `>` in it may be an operator. -/
structure Declared where
  type : List Token
  name : Token
  default : Option (Token × List Token)
  /-- Each bracket of the type is closed, and all commas and equals signs stand in brackets. -/
  type_balanced : Nesting.covers (fun t => t.isPunct ',' || t.isPunct '=') {} none type = true
  type_ends : (type.getLast?.any (·.kind == .scope)) = false
  type_holds : type.any (fun t => !(t.isIdent && typeElaborators.contains t.text)) = true
  name_ident : name.isIdent = true
  name_usable : isUsableName name.text = true
  default_equals : ∀ d ∈ default, d.1.isPunct '=' = true
  default_balanced : ∀ d ∈ default, Nesting.covers (fun _ => false) (inside true) none d.2 = true

namespace Declared

def tokens (w : Declared) : List Token :=
  w.type ++ w.name :: (w.default.map fun d => d.1 :: d.2).getD []

def read (source : Text) (w : Declared) : Parameter :=
  { type := Token.spanText source w.type
    name := w.name.text
    default := (w.default.map fun d => Token.spanText source d.2).getD [] }

/-- The default argument, its `<` and `>` read as brackets or, if `literal`, as operators, leaves no
bracket open and has its commas in brackets. -/
def stands (literal : Bool) (w : Declared) : Bool :=
  w.default.all fun d => Nesting.covers (·.isPunct ',') (inside literal) none d.2

theorem type_ne_nil (w : Declared) : w.type ≠ [] := by
  intro hnil
  have := w.type_holds
  rw [hnil] at this
  cases this

theorem covers_declaration (w : Declared) :
    Nesting.covers (fun t => t.isPunct ',' || t.isPunct '=') {} none (w.type ++ [w.name]) =
      true := by
  apply Nesting.covers_append rfl w.type_balanced
  have hkind : w.name.kind = .ident := by simpa [Token.isIdent] using w.name_ident
  apply Nesting.covers_singleton _ (.inl (by simp [Token.sign?, hkind]))
  simp [Token.not_isPunct_of_isIdent w.name_ident]

theorem tokens_eq (w : Declared) :
    w.tokens = (w.type ++ [w.name]) ++ (w.default.map fun d => d.1 :: d.2).getD [] := by
  simp [tokens]

theorem ofTokens_tokens (source : Text) (w : Declared) :
    ofTokens source w.tokens = w.read source := by
  have htrail : isTrailingName w.type w.name = true := by
    rw [isTrailingName, w.name_usable, w.type_ends, w.type_holds]
    rfl
  have hcut : splitDefault {} none w.tokens = (w.type ++ [w.name], w.default.map (·.2)) := by
    rw [tokens_eq, splitDefault_of_covers (fun t ht => by simp [ht]) w.covers_declaration rfl]
    have hequals := w.default_equals
    cases hdefault : w.default with
    | none => simp [splitDefault]
    | some d =>
      have htop : isTop {} = true := by decide
      simp [splitDefault, hequals d hdefault, htop]
  simp only [ofTokens, hcut, findName_concat w.name_ident htrail, read, List.isEmpty_nil, if_true,
    Option.map_map]
  rw [show Token.spanText source [] = [] from rfl, List.append_nil]
  rfl

/-- Over a written parameter the nesting changes as over its default argument. -/
theorem walk_tokens (w : Declared) (literal : Bool) {prev : Option Token}
    (hprev : prev.any Token.isIdent = false) :
    ({ literal } : Nesting).uncut prev w.tokens =
      w.default.all (fun d => (inside literal).uncut none d.2) ∧
      ({ literal } : Nesting).walk prev w.tokens =
        (w.default.map fun d => (inside literal).walk none d.2).getD { literal } := by
  have hnone : prev.any Token.isIdent = (none : Option Token).any Token.isIdent := hprev
  have hcovers := w.covers_declaration
  rw [← covers_prev hnone] at hcovers
  obtain ⟨hwalk, huncut⟩ : ({ literal } : Nesting).walk prev (w.type ++ [w.name]) = { literal } ∧
      ({ literal } : Nesting).uncut prev (w.type ++ [w.name]) = true :=
    walk_type rfl hcovers literal
  rw [tokens_eq, walk_append, uncut_append, hwalk, huncut, Bool.true_and]
  have hequals := w.default_equals
  cases hdefault : w.default with
  | none => exact ⟨rfl, rfl⟩
  | some d =>
    have hsign := hequals d hdefault
    have hcomma : d.1.isPunct ',' = false := Token.isPunct_unique hsign (by decide)
    have hstep (p : Option Token) : ({ literal } : Nesting).step p d.1 = inside literal := by
      rw [step, Token.sign?_of_isPunct hsign (by decide)]
      cases literal <;> rfl
    have hident : (some d.1).any Token.isIdent = (none : Option Token).any Token.isIdent :=
      Token.not_isIdent_of_isPunct hsign
    obtain ⟨hafter, hafter'⟩ := walk_prev hident (inside literal) d.2
    rw [Option.map_some, Option.getD_some, walk, uncut, hcomma, hstep, hafter, hafter']
    exact ⟨rfl, rfl⟩

variable {literal : Bool} {prev : Option Token}

/-- Behind a written parameter no bracket is open, but perhaps a `<` of its default argument. -/
theorem brackets_walk_tokens (w : Declared) (literal : Bool)
    (hprev : prev.any Token.isIdent = false) :
    let n := ({ literal } : Nesting).walk prev w.tokens
    n.SameBrackets {} ∧ n.literal = literal ∧ 0 ≤ n.angle ∧ (literal = true → n.angle = 0) := by
  have hbalanced := w.default_balanced
  dsimp only
  rw [(w.walk_tokens literal hprev).2]
  cases hdefault : w.default with
  | none => exact ⟨⟨rfl, rfl, rfl⟩, rfl, Int.le_refl 0, fun _ => rfl⟩
  | some d =>
    obtain ⟨hliteral, hangle, hsame⟩ := walk_angle (n := inside literal) (Int.le_refl 0) none d.2
    exact ⟨brackets_walk (sameBrackets_inside literal true) (hbalanced d hdefault), hliteral,
      hangle, hsame⟩

theorem isTop_walk_tokens (w : Declared) (hprev : prev.any Token.isIdent = false) :
    (({ literal } : Nesting).walk prev w.tokens).isTop = true ↔
      (({ literal } : Nesting).walk prev w.tokens).angle = 0 := by
  obtain ⟨⟨hparen, hsquare, hbrace⟩, -, hangle, -⟩ := w.brackets_walk_tokens literal hprev
  rw [isTop, hparen, hsquare, hbrace]
  simp only [Int.le_refl, decide_true, Bool.true_and, decide_eq_true_eq]
  omega

theorem stands_iff (w : Declared) (hprev : prev.any Token.isIdent = false) :
    w.stands literal = true ↔ ({ literal } : Nesting).uncut prev w.tokens = true ∧
      (({ literal } : Nesting).walk prev w.tokens).angle = 0 := by
  have hbalanced := w.default_balanced
  obtain ⟨huncut, hwalk⟩ := w.walk_tokens literal hprev
  rw [huncut, hwalk, stands]
  cases hdefault : w.default with
  | none => exact ⟨fun _ => ⟨rfl, rfl⟩, fun _ => rfl⟩
  | some d => exact covers_comma_iff (sameBrackets_inside literal true) (hbalanced d hdefault)

/-- Behind a written parameter that stands for itself the next one starts. -/
theorem next_of_stands {w : Declared} (h : w.stands literal = true)
    (hprev : prev.any Token.isIdent = false) :
    ({ ({ literal } : Nesting).walk prev w.tokens with inDefault := false } : Nesting) =
      { literal } := by
  obtain ⟨⟨hparen, hsquare, hbrace⟩, hliteral, -, -⟩ := w.brackets_walk_tokens literal hprev
  have hangle := ((w.stands_iff hprev).1 h).2
  generalize ({ literal } : Nesting).walk prev w.tokens = n at *
  obtain ⟨p, s, b, a, l, d⟩ := n
  subst hparen hsquare hbrace hangle hliteral
  rfl

end Declared

/-- The tokens of written parameters with commas between them. -/
inductive Separated : List Token → List Declared → Prop
  | nil : Separated [] []
  | one (w : Declared) : Separated w.tokens [w]
  | cons (w : Declared) {comma : Token} {ts : List Token} {ws : List Declared}
    (hcomma : comma.isPunct ',' = true)
    (hne : ws ≠ []) (h : Separated ts ws) : Separated (w.tokens ++ comma :: ts) (w :: ws)

section Separated

variable {ts : List Token} {ws : List Declared} {literal : Bool} {prev : Option Token}

/-- If all default arguments stand for themselves, the parameters are told apart and no angle
bracket is left open. -/
theorem splitCommas_of_stands (h : Separated ts ws) (hne : ws ≠ [])
    (hprev : prev.any Token.isIdent = false) (hstands : ∀ w ∈ ws, w.stands literal = true) :
    (splitCommas { literal } prev ts).1 = ws.map Declared.tokens ∧
      (splitCommas { literal } prev ts).2.angle = 0 := by
  induction h generalizing prev with
  | nil => exact absurd rfl hne
  | one w =>
    obtain ⟨huncut, hangle⟩ := (w.stands_iff hprev).1 (hstands w (by simp))
    rw [splitCommas_of_uncut huncut]
    exact ⟨rfl, hangle⟩
  | @cons w comma ts ws hcomma hne' h ih =>
    have hw := hstands w (by simp)
    obtain ⟨huncut, hangle⟩ := (w.stands_iff hprev).1 hw
    rw [splitCommas_append huncut ((w.isTop_walk_tokens hprev).2 hangle) hcomma,
      Declared.next_of_stands hw hprev]
    have hident : (some comma).any Token.isIdent = false := Token.not_isIdent_of_isPunct hcomma
    obtain ⟨hsegments, hlast⟩ := ih hne' hident fun v hv => hstands v (by simp [hv])
    exact ⟨by rw [hsegments, List.map_cons], hlast⟩

/-- If the parameters are told apart and no angle bracket is left open, all default arguments stand
for themselves. -/
theorem stands_of_splitCommas (h : Separated ts ws) (hprev : prev.any Token.isIdent = false)
    (hsegments : (splitCommas { literal } prev ts).1 = ws.map Declared.tokens)
    (hlast : literal = true ∨ (splitCommas { literal } prev ts).2.angle = 0) :
    ∀ w ∈ ws, w.stands literal = true := by
  induction h generalizing prev with
  | nil => simp
  | one w =>
    have hhead : (splitCommas { literal } prev (w.tokens ++ [])).1.head? = some w.tokens := by
      rw [List.append_nil, hsegments]
      rfl
    obtain ⟨huncut, -⟩ := cut_of_head? hhead
    rw [splitCommas_of_uncut huncut] at hlast
    -- where `<` is an operator none is ever open
    have hangle := hlast.elim (w.brackets_walk_tokens literal hprev).2.2.2 id
    simpa using (w.stands_iff hprev).2 ⟨huncut, hangle⟩
  | @cons w comma ts ws hcomma hne' h ih =>
    have hhead : (splitCommas { literal } prev (w.tokens ++ comma :: ts)).1.head? =
        some w.tokens := by
      rw [hsegments]
      rfl
    obtain ⟨huncut, hbehind⟩ := cut_of_head? hhead
    have htop := hbehind (by simp)
    have hw := (w.stands_iff hprev).2 ⟨huncut, (w.isTop_walk_tokens hprev).1 htop⟩
    rw [splitCommas_append huncut htop hcomma, Declared.next_of_stands hw hprev] at hsegments hlast
    have hident : (some comma).any Token.isIdent = false := Token.not_isIdent_of_isPunct hcomma
    have hrest := ih hident (List.cons.inj hsegments).2 hlast
    exact List.forall_mem_cons.2 ⟨hw, hrest⟩

/-- No default argument takes the next parameter in or is cut: each closes the angle brackets that
it opens and has its commas in brackets, or some `<` is open at the end of the list and no comma of
a default argument stands in angle brackets only. -/
def ToldApart (ts : List Token) (ws : List Declared) : Prop :=
  (∀ w ∈ ws, w.stands false = true) ∨ 0 < leftOpen 0 none ts ∧ ∀ w ∈ ws, w.stands true = true

theorem segments_eq_iff (h : Separated ts ws) (hne : ws ≠ []) :
    segments ts = ws.map Declared.tokens ↔ ToldApart ts ws := by
  have hopen := angle_splitCommas (n := {}) rfl (k := 0) rfl none ts
  unfold segments ToldApart
  dsimp only
  rw [hopen]
  -- the list is cut a second time, with `<` and `>` as operators, if one of them is left open by
  -- the first cut
  by_cases hpos : 0 < leftOpen 0 none ts
  · have hnot : ¬ ∀ w ∈ ws, w.stands false = true := by
      intro hstands
      have hclosed :=
        (splitCommas_of_stands h hne (show Option.any Token.isIdent none = false from rfl)
          hstands).2
      rw [hopen] at hclosed
      omega
    rw [if_pos (by omega)]
    constructor
    · intro hsegments
      exact .inr ⟨hpos, stands_of_splitCommas h rfl hsegments (.inl rfl)⟩
    · rintro (hstands | ⟨-, hstands⟩)
      · exact absurd hstands hnot
      · exact (splitCommas_of_stands h hne rfl hstands).1
  · rw [if_neg (by omega)]
    constructor
    · intro hsegments
      exact .inl (stands_of_splitCommas h rfl hsegments (.inr (by rw [hopen]; omega)))
    · rintro (hstands | ⟨hpos', -⟩)
      · exact (splitCommas_of_stands h hne rfl hstands).1
      · exact absurd hpos' hpos

theorem length_of_separated (h : Separated ts ws) (hne : ws ≠ []) : 2 ≤ ts.length := by
  have htokens (w : Declared) : 2 ≤ w.tokens.length := by
    have := List.length_pos_iff.2 w.type_ne_nil
    simp only [Declared.tokens, List.length_append, List.length_cons]
    omega
  cases h with
  | nil => exact absurd rfl hne
  | one w => exact htokens w
  | cons w hcomma hne' h =>
    have := htokens w
    rw [List.length_append]
    omega

/-- A list of parameters is cut at the commas between them exactly if no default argument takes the
next parameter in or is cut; then each parameter is read as it was written. -/
theorem listOfTokens_separated (source : Text) (h : Separated ts ws) :
    (ws ≠ [] → (segments ts = ws.map Declared.tokens ↔ ToldApart ts ws)) ∧
      (ToldApart ts ws → listOfTokens source ts = ws.map (·.read source)) := by
  refine ⟨segments_eq_iff h, fun htold => ?_⟩
  by_cases hne : ws = []
  · subst hne
    cases h
    rfl
  · have hlength := length_of_separated h hne
    have hvoid : isVoidList ts = false := by
      match ts, hlength with
      | _ :: _ :: _, _ => rfl
    have hempty : ts.isEmpty = false := by
      match ts, hlength with
      | _ :: _, _ => rfl
    rw [listOfTokens, hempty, hvoid, (segments_eq_iff h hne).2 htold, List.map_map]
    exact List.map_congr_left fun w _ => w.ofTokens_tokens source

end Separated

def onLine (kind : TokenKind) (text : Text) (offset : Nat) : Token :=
  ⟨kind, text, ⟨offset, 1, offset + 1⟩⟩

def lesser : Declared where
  type := [onLine .ident "int" 0]
  name := onLine .ident "a" 4
  default :=
    some (onLine .punct "=" 6, [onLine .ident "x" 8, onLine .punct "<" 10, onLine .ident "y" 12])
  type_balanced := by decide
  type_ends := by decide
  type_holds := by decide
  name_ident := by decide
  name_usable := by decide
  default_equals := by decide
  default_balanced := by decide

/-- The parameter `int b` behind it, with or without the default argument `y > z`. -/
def greater (compares : Bool) : Declared where
  type := [onLine .ident "int" 15]
  name := onLine .ident "b" 19
  default := if compares then
    some (onLine .punct "=" 21,
      [onLine .ident "y" 23, onLine .punct ">" 25, onLine .ident "z" 27]) else none
  type_balanced := by decide
  type_ends := by decide
  type_holds := by decide
  name_ident := by decide
  name_usable := by decide
  default_equals := by cases compares <;> decide
  default_balanced := by cases compares <;> decide

/-- A comparison whose `<` stays open until the end of the list is read as one. -/
theorem listOfTokens_lesser :
    let source : Text := "int a = x < y, int b"
    let ts := Token.significant (Token.ofText source)
    Separated ts [lesser, greater false] ∧ ToldApart ts [lesser, greater false] ∧
    listOfTokens source ts =
      [{ type := "int", name := "a", default := "x < y" }, { type := "int", name := "b" }] := by
  intro source ts
  have hts : ts = lesser.tokens ++ onLine .punct "," 13 :: (greater false).tokens := by
    decide +kernel
  have hseparated : Separated ts [lesser, greater false] := by
    rw [hts]
    exact .cons lesser (by decide) (by simp) (.one (greater false))
  have htold : ToldApart ts [lesser, greater false] := by
    refine .inr ⟨?_, ?_⟩
    · decide +kernel
    · decide
  refine ⟨hseparated, htold, ?_⟩
  rw [(listOfTokens_separated source hseparated).2 htold]
  decide +kernel

/-- A `>` in a later default argument closes the `<` of a comparison, and takes the parameters in
between in. -/
theorem listOfTokens_merged :
    let source : Text := "int a = x < y, int b = y > z"
    let ts := Token.significant (Token.ofText source)
    Separated ts [lesser, greater true] ∧ [lesser, greater true].map (·.read source) =
        [{ type := "int", name := "a", default := "x < y" },
          { type := "int", name := "b", default := "y > z" }] ∧
      listOfTokens source ts =
        [{ type := "int", name := "a", default := "x < y, int b = y > z" }] := by
  intro source ts
  have hts : ts = lesser.tokens ++ onLine .punct "," 13 :: (greater true).tokens := by
    decide +kernel
  refine ⟨?_, by decide +kernel, by decide +kernel⟩
  rw [hts]
  exact .cons lesser (by decide) (by simp) (.one (greater true))

end Parameter
end HeaderBridge
