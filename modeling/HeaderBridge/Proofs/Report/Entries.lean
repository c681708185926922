import HeaderBridge.Report
import Mathlib.Data.List.Forall2

namespace HeaderBridge

namespace Fault

variable {f g : Fault} {fs ps : List Fault}

mutual

/-- The faults that are left when the collections around them are opened. -/
def entries : Fault → List Fault
  | many fs => listEntries fs
  | f => [f]

def listEntries : List Fault → List Fault
  | [] => []
  | f :: fs => entries f ++ listEntries fs

end

mutual

def held : Fault → List Fault
  | many fs => many fs :: listHeld fs
  | f => [f]

def listHeld : List Fault → List Fault
  | [] => []
  | f :: fs => held f ++ listHeld fs

end

/-- What a fault itself says: its notice, if it is coded, and its message without its place. -/
def own : Fault → Option Notice × Text
  | coded n cause => (some n, chain n.message (causeMessage cause))
  | f => (none, f.message)

def told (f : Fault) : Option Notice × Text :=
  match f.firstCoded with
  | some (n, cause) => (some n, chain n.message (causeMessage cause))
  | none => (none, f.message)

def IsCollection (f : Fault) : Prop := ∃ fs, f = many fs

/-- Nothing is hidden: a fault other than a collection has no collection of several among its
causes, and no coded one unless it is coded itself; a collection is not empty, and holds no
collection of several if it holds one fault. -/
inductive Orderly : Fault → Prop
  | coded {n : Notice} {cause : Option Fault}
    (alone : (coded n cause).parts? = none) : Orderly (coded n cause)
  | uncoded {f : Fault} (single : ¬ f.IsCollection) (alone : f.parts? = none)
    (plain : f.firstCoded = none) : Orderly f
  | one {f : Fault} (orderly : Orderly f) (alone : f.parts? = none) : Orderly (many [f])
  | several {fs : List Fault} (length : 1 < fs.length)
    (orderly : ∀ f ∈ fs, Orderly f) : Orderly (many fs)

theorem listEntries_eq (fs : List Fault) : listEntries fs = fs.flatMap entries := by
  induction fs with
  | nil => rfl
  | cons f fs ih => rw [listEntries, ih, List.flatMap_cons]

theorem listHeld_eq (fs : List Fault) : listHeld fs = fs.flatMap held := by
  induction fs with
  | nil => rfl
  | cons f fs ih => rw [listHeld, ih, List.flatMap_cons]

theorem listParts_eq (fs : List Fault) : listParts fs = fs.flatMap reported := by
  induction fs with
  | nil => rfl
  | cons f fs ih => rw [listParts, ih, List.flatMap_cons, reported]

theorem entries_many (fs : List Fault) : (many fs).entries = fs.flatMap entries := by
  rw [entries, listEntries_eq]

theorem held_many (fs : List Fault) : (many fs).held = many fs :: fs.flatMap held := by
  rw [held, listHeld_eq]

theorem entries_of_single (h : ¬ f.IsCollection) : f.entries = [f] := by
  cases f with
  | many fs => exact absurd ⟨fs, rfl⟩ h
  | _ => rfl

theorem held_of_single (h : ¬ f.IsCollection) : f.held = [f] := by
  cases f with
  | many fs => exact absurd ⟨fs, rfl⟩ h
  | _ => rfl

theorem mem_held_self (f : Fault) : f ∈ f.held := by
  cases f <;> simp [held]

theorem reported_of_alone (h : f.parts? = none) : f.reported = [f] := by
  rw [reported, h, Option.getD_none]

theorem reported_of_several (h : 1 < fs.length) : (many fs).reported = fs.flatMap reported := by
  rw [reported, parts?, if_pos h, Option.getD_some, listParts_eq]

theorem reported_one (f : Fault) : (many [f]).reported = [many [f]] := by
  rw [reported, parts?, if_neg (by simp), Option.getD_none]

mutual

theorem two_le_parts : ∀ (f : Fault) {ps : List Fault}, f.parts? = some ps → 2 ≤ ps.length
  | .coded _ none, _, h | .plain _ none, _, h | .refused _, _, h => by cases h
  | .coded _ (some f), _, h | .plain _ (some f), _, h | .relayed f, _, h => two_le_parts f h
  | .many fs, ps, h => by
    rw [parts?] at h
    split at h
    · rename_i hlength
      cases h
      exact Nat.le_trans hlength (length_le_listParts fs)
    · cases h

theorem length_le_listParts : ∀ fs : List Fault, fs.length ≤ (listParts fs).length
  | [] => Nat.le_refl 0
  | f :: fs => by
    have hrest := length_le_listParts fs
    have hfirst : 1 ≤ (f.parts?.getD [f]).length := by
      cases h : f.parts? with
      | none => exact Nat.le_refl 1
      | some ps => exact Nat.le_of_succ_le (two_le_parts f h)
    rw [listParts, List.length_append, List.length_cons]
    omega

end

mutual

/-- Induction over what collections hold: all other faults are taken as they are. -/
theorem induction_held {P : Fault → Prop} (single : ∀ f, ¬ f.IsCollection → P f)
    (collection : ∀ fs : List Fault, (∀ f ∈ fs, P f) → P (many fs)) : ∀ f, P f
  | .many fs => collection fs (forall_of_held single collection fs)
  | .coded n cause => single (.coded n cause) (by simp [IsCollection])
  | .plain m cause => single (.plain m cause) (by simp [IsCollection])
  | .refused r => single (.refused r) (by simp [IsCollection])
  | .relayed f => single (.relayed f) (by simp [IsCollection])

theorem forall_of_held {P : Fault → Prop} (single : ∀ f, ¬ f.IsCollection → P f)
    (collection : ∀ fs : List Fault, (∀ f ∈ fs, P f) → P (many fs)) : ∀ fs : List Fault,
      ∀ f ∈ fs, P f
  | [] => by simp
  | f :: fs =>
    List.forall_mem_cons.2 ⟨induction_held single collection f, forall_of_held single collection fs⟩

end

theorem told_one (f : Fault) : (many [f]).told = f.told := by
  rw [told, told, firstCoded, listFirstCoded, listFirstCoded, Option.or_none, message, messages,
    messages, collected]

theorem told_coded (n : Notice) (cause : Option Fault) :
    (coded n cause).told = (coded n cause).own := rfl

theorem own_uncoded (single : ¬ f.IsCollection) (plain : f.firstCoded = none) :
    f.own = (none, f.message) := by
  cases f with
  | coded n cause => cases plain
  | _ => rfl

theorem told_uncoded (plain : f.firstCoded = none) : f.told = (none, f.message) := by
  rw [told, plain]

/-- What is reported of an orderly fault are its entries, each in its own words. -/
theorem Orderly.forall₂ (h : f.Orderly) :
    List.Forall₂ (fun entry shown => shown.told = entry.own ∧ shown.entries = [entry]) f.entries
      f.reported := by
  induction h with
  | @coded n cause alone =>
    rw [reported_of_alone alone]
    exact .cons ⟨told_coded n cause, rfl⟩ .nil
  | uncoded single alone plain =>
    rw [reported_of_alone alone, entries_of_single single]
    exact .cons ⟨by rw [told_uncoded plain, own_uncoded single plain],
      entries_of_single single⟩ .nil
  | @one f orderly alone ih =>
    rw [reported_of_alone alone, List.forall₂_cons_right_iff] at ih
    obtain ⟨entry, rest, hentry, hnil, hentries⟩ := ih
    rw [List.forall₂_nil_right_iff.1 hnil] at hentries
    have hone : (many [f]).entries = [entry] := by
      rw [entries_many, List.flatMap_singleton, hentries]
    rw [reported_one, hone]
    exact .cons ⟨by rw [told_one, hentry.1], hone⟩ .nil
  | @several fs hlength orderly ih =>
    rw [reported_of_several hlength, entries_many]
    clear hlength orderly
    induction fs with
    | nil => exact .nil
    | cons f fs ih' =>
      rw [List.flatMap_cons, List.flatMap_cons]
      exact List.rel_append (ih f List.mem_cons_self)
        (ih' fun g hg => ih g (List.mem_cons_of_mem f hg))

theorem Orderly.reported_entries (h : f.Orderly) : f.reported.map told = f.entries.map own := by
  rw [← List.forall₂_eq_eq_eq, List.forall₂_map_left_iff, List.forall₂_map_right_iff]
  exact h.forall₂.flip.imp fun shown entry hshown => hshown.1

theorem Orderly.of_held (h : f.Orderly) : ∀ g ∈ f.held, g.Orderly := by
  induction h with
  | coded alone => simpa [held] using .coded alone
  | uncoded single alone plain => simpa [held_of_single single] using .uncoded single alone plain
  | one orderly alone ih =>
    rw [held_many, List.flatMap_singleton, List.forall_mem_cons]
    exact ⟨.one orderly alone, ih⟩
  | several hlength orderly ih =>
    rw [held_many, List.forall_mem_cons]
    refine ⟨.several hlength orderly, fun g hg => ?_⟩
    obtain ⟨f, hf, hg⟩ := List.mem_flatMap.1 hg
    exact ih f hf g hg

theorem length_reported (f : Fault) : f.parts? = none ∨ 2 ≤ f.reported.length := by
  rw [reported]
  cases h : f.parts? with
  | none => exact .inl rfl
  | some ps => exact .inr (two_le_parts f h)

/-- A fault is orderly exactly if it, and all that its collections hold, is reported entry by
entry. -/
theorem orderly_iff : f.Orderly ↔ ∀ g ∈ f.held, g.reported.map told = g.entries.map own := by
  refine ⟨fun h g hg => (h.of_held g hg).reported_entries, ?_⟩
  induction f using induction_held with
  | single f hsingle =>
    intro h
    have hself := h f (mem_held_self f)
    have halone : f.parts? = none := by
      rcases length_reported f with halone | hlength
      · exact halone
      · have := congrArg List.length hself
        simp [entries_of_single hsingle] at this
        omega
    rw [reported_of_alone halone, entries_of_single hsingle] at hself
    have htold : f.told = f.own := by simpa using hself
    cases hcoded : f.firstCoded with
    | none => exact .uncoded hsingle halone hcoded
    | some found =>
      -- only a coded fault tells a notice as its own
      cases f with
      | coded n cause => exact .coded halone
      | many fs => exact absurd ⟨fs, rfl⟩ hsingle
      | _ =>
        rw [told, hcoded] at htold
        cases htold
  | collection fs ih =>
    intro h
    have hself := h _ (mem_held_self _)
    have horderly : ∀ f ∈ fs, f.Orderly := by
      intro f hf
      refine ih f hf fun g hg => h g ?_
      rw [held_many]
      exact List.mem_cons_of_mem _ (List.mem_flatMap.2 ⟨f, hf, hg⟩)
    match fs with
    | [] => cases hself
    | [f] =>
      have hone := h f (by simp [held_many, mem_held_self])
      rcases length_reported f with halone | hlength
      · exact .one (horderly f List.mem_cons_self) halone
      · rw [reported_one, entries_many, List.flatMap_singleton, ← hone] at hself
        have := congrArg List.length hself
        simp only [List.length_map, List.length_singleton] at this
        omega
    | f :: g :: fs => exact .several (by simp) horderly

theorem causeMessage_eq (cause : Option Fault) : causeMessage cause = cause.map message := by
  cases cause <;> rfl

end Fault

namespace Report

variable {terminal verbose : Bool} {f : Fault}

def placeLine (l : Location) : Text := if l.isEmpty then [] else "Location: " ++ l.text ++ "\n"

/-- The block of a fault that says the given: its code in the heading, its place and message, and
its details. -/
def entryBlock (terminal : Bool) : Option Notice × Text → Text
  | (none, message) => headingBlock terminal .unknown ++ "Message: " ++ message ++ "\n\n"
  | (some n, message) =>
    headingBlock terminal n.code ++ placeLine n.location ++ "Message: " ++ message ++ "\n\n" ++
      contextBlock n.context ++ hintBlock n.hints

/-- What follows the block: the causes, where they are shown, of a coded fault. -/
def behind (verbose : Bool) (f : Fault) : Text :=
  if verbose && f.firstCoded.isSome then chainBlock f else []

theorem faultBlock_eq (terminal verbose : Bool) (f : Fault) :
    faultBlock terminal verbose f [] [] = entryBlock terminal f.told ++ behind verbose f := by
  unfold faultBlock Fault.told behind
  cases f.firstCoded with
  | none => simp [entryBlock, fileLine]
  | some found =>
    obtain ⟨n, cause⟩ := found
    simp [entryBlock, placeLine, fileLine, Fault.causeMessage_eq]

end Report

namespace Console

variable {c : Console}

theorem complain_complain (c : Console) (s t : Text) :
    (c.complain s).complain t = c.complain (s ++ t) := by
  simp [complain]

theorem reportHeader_eq (hshows : c.shows .error = true) (path : Text) (f : Fault) (source : Text) :
    c.reportHeader path f source =
      c.complain (Report.faultBlock c.terminal (c.shows .verbose) f path source) :=
  if_pos hshows

theorem report_eq (hshows : c.shows .error = true) (f : Fault) : c.report f =
    c.complain (f.reported.flatMap fun g => Report.faultBlock c.terminal (c.shows .verbose) g
      [] []) := by
  unfold report
  generalize f.reported = gs
  induction gs generalizing c with
  | nil => simp [complain]
  | cons g gs ih =>
    rw [List.foldl_cons, reportHeader_eq hshows, ih (c := c.complain _) hshows, complain_complain,
      List.flatMap_cons]
    rfl

end Console

/-- Every entry of an orderly fault is reported once and in order, under its own code and with its
own message. That a fault is orderly is no more than that this is so for it and for all that its
collections hold. -/
theorem Console.report_entries (f : Fault) :
    (f.Orderly → ∀ c : Console, c.shows .error = true → ∃ blocks,
      c.report f = c.complain blocks.flatten ∧
      List.Forall₂ (fun entry block => ∃ shown : Fault, shown.entries = [entry] ∧
        block = Report.entryBlock c.terminal entry.own ++ Report.behind (c.shows .verbose) shown)
          f.entries blocks) ∧
    (f.Orderly ↔ ∀ g ∈ f.held, g.reported.map Fault.told = g.entries.map Fault.own) := by
  refine ⟨fun h c hshows => ?_, Fault.orderly_iff⟩
  let block (g : Fault) : Text := Report.faultBlock c.terminal (c.shows .verbose) g [] []
  refine ⟨f.reported.map block, ?_, ?_⟩
  · rw [report_eq hshows, List.flatMap_def]
  · rw [List.forall₂_map_right_iff]
    refine h.forall₂.imp fun entry shown hshown => ⟨shown, hshown.2, ?_⟩
    dsimp only [block]
    rw [Report.faultBlock_eq, hshown.1]

namespace Fault

def unmade : Fault := .ofNotice { code := .generation, message := "a" }

def unfilled : Fault := .ofNotice { code := .template, message := "b" }

/-- Four entries: a fault with a cause, one in collections of one, and two in a collection inside of
another. -/
def mixture : Fault :=
  .many [.coded { code := .fileSystem, message := "c" } (some (.ofText "disk full")),
    .many [.many [.plain "d" (some (.ofText "e"))]], .many [unmade, unfilled]]

end Fault

theorem Console.report_entries_mixture : Fault.mixture.Orderly ∧
    ({} : Console).shows .error = true ∧ Fault.mixture.entries.length = 4 ∧
    ∃ blocks, ({} : Console).report Fault.mixture = ({} : Console).complain blocks.flatten ∧
      List.Forall₂ (fun entry block => ∃ shown : Fault, shown.entries = [entry] ∧
        block = Report.entryBlock false entry.own ++
          Report.behind false shown) Fault.mixture.entries blocks := by
  have hplain : (Fault.plain "d" (some (.ofText "e"))).Orderly :=
    .uncoded (by simp [Fault.IsCollection]) rfl rfl
  have hpair : (Fault.many [Fault.unmade, Fault.unfilled]).Orderly := by
    refine .several (by decide) ?_
    simp only [List.forall_mem_cons]
    exact ⟨.coded rfl, .coded rfl, by simp⟩
  have horderly : Fault.mixture.Orderly := by
    refine .several (by decide) ?_
    simp only [List.forall_mem_cons]
    exact ⟨.coded rfl, .one (.one hplain rfl) rfl, hpair, by simp⟩
  exact ⟨horderly, rfl, rfl, (Console.report_entries Fault.mixture).1 horderly {} rfl⟩

/-- Of two faults in a collection of one collection the second is lost. A collection that is a cause
takes the place of the fault that it is a cause of, and so does a coded cause of one without a code;
an empty collection is reported. -/
theorem Console.report_drops_entry :
    (Fault.many [.many [Fault.unmade, Fault.unfilled]]).entries = [Fault.unmade, Fault.unfilled] ∧
    (({} : Console).report (.many [.many [Fault.unmade, Fault.unfilled]])).err =
      Report.entryBlock false Fault.unmade.own ∧
    (({} : Console).report (.coded { code := .fileSystem, message := "c" }
        (some (.many [Fault.unmade, Fault.unfilled])))).err =
      Report.entryBlock false Fault.unmade.own ++ Report.entryBlock false Fault.unfilled.own ∧
    (({} : Console).report (.plain "c" (some Fault.unmade))).err =
      Report.entryBlock false Fault.unmade.own ∧
    (Fault.many []).entries = [] ∧
    (({} : Console).report (.many [])).err = Report.entryBlock false (none, "no errors") :=
  ⟨rfl, by decide +kernel, by decide +kernel, by decide +kernel, rfl, by decide +kernel⟩

end HeaderBridge
