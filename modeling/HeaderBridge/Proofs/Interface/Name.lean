import HeaderBridge.Bridge.Generate
import HeaderBridge.Proofs.Interface.HeadGrammar
import HeaderBridge.Proofs.Interface.Search
import HeaderBridge.Proofs.Source.Row

namespace HeaderBridge

namespace Token

theorem isIdentifier_of_isIdent {t : Token} {rest : Text} (hfits : Lexeme.Fits t.lexeme rest)
    (h : t.isIdent = true) : Text.isIdentifier t.text = true := by
  have hkind : t.kind = .ident := by simpa [isIdent] using h
  obtain ⟨a, tail, htext, hstart, hname⟩ : ∃ (a : UInt8) (tail : Text), t.text = a :: tail ∧
      Text.isNameStart a = true ∧ ∀ b ∈ tail, Text.isNameByte b = true := by
    simpa [Lexeme.Shape, lexeme, hkind] using hfits.shape
  rw [htext, Text.isIdentifier, hstart, Bool.true_and, List.all_eq_true]
  exact hname

end Token

namespace Interface

open Token

theorem exists_ident_of_headName {name name' : Text} {ts rest : List Token}
    (h : headName name ts = some (name', rest)) :
    name' = name ∨ ∃ t ∈ ts, t.isIdent = true ∧ t.text = name' := by
  rcases (exists_of_headName h).2 with ⟨_, _, _, rfl⟩ | ⟨lead, t, behind, _, ht, _, rfl, rfl⟩
  · exact .inl rfl
  · exact .inr ⟨t, by simp, ht.ident, rfl⟩

theorem isIdentifier_name {source : Text} {i : Interface} (h : locate source = .ok i) :
    Text.isIdentifier i.name = true := by
  obtain ⟨v, hv, c, -, hhead⟩ := exists_visit_of_ok h
  obtain ⟨before, lead, hsplit, -, -, hread⟩ := standsIn_of_mem_visits hv
  obtain ⟨-, hne, rest, hname, -⟩ := head?_eq_some.1 hread
  have hin : i.name = v.head.name := by
    unfold ofHead at hhead
    split at hhead
    · cases hhead
    · cases hhead
      rfl
  rcases exists_ident_of_headName hname with hnil | ⟨t, ht, hident, htext⟩
  · exact absurd hnil hne
  · have hsig : t ∈ significant (Token.ofText source) := by
      rw [hsplit]
      exact List.mem_append_right before (List.mem_cons_of_mem v.key ht)
    obtain ⟨-, rest, hfits⟩ :=
      (row_significant (x := []) (Lexeme.chain_ofText source) rfl rfl).fits_of_mem hsig
    rw [hin, ← htext]
    exact isIdentifier_of_isIdent hfits hident

theorem isIdentifier_of_parse {file source : Text} {i : Interface} (h : parse file source = .ok i) :
    Text.isIdentifier i.name = true := by
  unfold parse at h
  split at h
  · rename_i i' hi
    cases h
    change Text.isIdentifier i'.name = true
    exact isIdentifier_name hi
  · cases h

end Interface

theorem Naming.head_bridgeName {name : Text} (h : Text.isIdentifier name = true) (n : Naming) :
    ∃ a rest, n.bridgeName name = a :: rest ∧ a ≠ ('.' : UInt8) := by
  have hown : ∀ suffix : Text, ∃ a rest, name ++ suffix = a :: rest ∧ a ≠ ('.' : UInt8) := by
    intro suffix
    cases name with
    | nil => cases h
    | cons a tail =>
      rw [Text.isIdentifier, Bool.and_eq_true] at h
      refine ⟨a, tail ++ suffix, rfl, ?_⟩
      rintro rfl
      exact absurd h.1 (by decide)
  cases n with
  | append suffix => exact hown suffix
  | strip marker suffix =>
    cases hafter : Text.after? marker name with
    | none =>
      simp only [bridgeName, hafter]
      exact hown suffix
    | some rest =>
      simp only [bridgeName, hafter]
      split
      · rename_i hupper
        rw [Bool.and_eq_true] at hupper
        cases rest with
        | nil => exact absurd hupper.2 (by decide)
        | cons a tail =>
          refine ⟨a, tail ++ suffix, rfl, ?_⟩
          rintro rfl
          have hdot : (Text.firstChar ('.' : UInt8) tail).1 = '.' := rfl
          rw [startsUpper, hdot] at hupper
          exact absurd hupper.2 (by decide)
      · exact hown suffix

theorem Text.slash_not_mem_of_isIdentifier {name : Text} (h : isIdentifier name = true) :
    ('/' : UInt8) ∉ name := by
  cases name with
  | nil => simp
  | cons a tail =>
    rw [isIdentifier, Bool.and_eq_true, List.all_eq_true] at h
    intro hslash
    rcases List.mem_cons.1 hslash with rfl | hslash
    · exact absurd h.1 (by decide)
    · exact absurd (h.2 _ hslash) (by decide)

def Naming.suffix : Naming → Text
  | append suffix => suffix
  | strip _ suffix => suffix

/-- A bridge is named after its interface, with the suffix behind it: something of the name is
always left. -/
theorem Naming.exists_bridgeName {name : Text} (h : Text.isIdentifier name = true) (n : Naming) :
    ∃ front, n.bridgeName name = front ++ n.suffix ∧ front ≠ [] ∧ ('/' : UInt8) ∉ front := by
  have hslash := Text.slash_not_mem_of_isIdentifier h
  have hname : name ≠ [] := by
    rintro rfl
    cases h
  cases n with
  | append suffix => exact ⟨name, rfl, hname, hslash⟩
  | strip marker suffix =>
    cases hafter : Text.after? marker name with
    | none => exact ⟨name, by simp only [bridgeName, hafter, Naming.suffix], hname, hslash⟩
    | some rest =>
      have hrest : ('/' : UInt8) ∉ rest := by
        unfold Text.after? at hafter
        split at hafter
        · cases hafter
          exact fun hmem => hslash (List.drop_subset _ _ hmem)
        · cases hafter
      simp only [bridgeName, hafter, Naming.suffix]
      split
      · -- the marker is dropped in front of an upper-case letter, which is left
        rename_i hupper
        refine ⟨rest, rfl, ?_, hrest⟩
        rintro rfl
        rw [startsUpper, Bool.and_false] at hupper
        cases hupper
      · exact ⟨name, rfl, hname, hslash⟩

namespace Recipe

variable {recipe : Recipe} {i : Interface} {g : Generated}

/-- The files of a bridge bear its name, each with an ending of its own. -/
theorem names_of_emit {b : Bridge} {templates : Text × Text} (h : recipe.emit b templates = .ok g) :
    g.declaration.name = b.name ++ recipe.headerEnding ∧
    g.definition.name = b.name ++ recipe.sourceEnding := by
  unfold emit at h
  cases hfilled : b.emit recipe.headerEnding templates.1 templates.2 with
  | error f => simp [hfilled, bind, Except.bind] at h
  | ok texts =>
    simp only [hfilled, bind, Except.bind, pure, Except.pure, Except.ok.injEq] at h
    rw [← h]
    exact ⟨rfl, rfl⟩

theorem names_of_generate {r : Reader} {d : Disk} (h : (recipe.generate r d i).1 = .ok g) :
    g.declaration.name = recipe.naming.bridgeName i.name ++ recipe.headerEnding ∧
      g.definition.name = recipe.naming.bridgeName i.name ++ recipe.sourceEnding := by
  unfold generate at h
  split at h
  · cases h
  · rename_i b hb
    have hname : b.name = recipe.naming.bridgeName i.name := by
      unfold describe at hb
      dsimp only at hb
      split at hb
      · cases hb
        rfl
      · cases hb
    split at h
    · cases h
    · rw [← hname]
      exact names_of_emit h

end Recipe
end HeaderBridge
