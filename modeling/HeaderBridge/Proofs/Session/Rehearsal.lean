import HeaderBridge.Proofs.Session.Run
import HeaderBridge.Proofs.Template.Listed

namespace HeaderBridge

open Batch

section Foretells

variable {c : Config} {d : Disk} {foretold results : List Result}

/-- What a run that only prints foretells of a result: the header comes to the same end, or its
bridge is made and the two files that were printed are there under their names, or they could not be
written. -/
inductive Result.Foretells (c : Config) (d : Disk) : Result → Result → Prop
  | same (r : Result) (h : ∀ g paths, r.outcome ≠ .made g paths) : Foretells c d r r
  | failed (h : Header) (g : Generated)
    (f : Fault) : Foretells c d ⟨h, .made g []⟩ ⟨h, .stopped g f⟩
  | written (h : Header) (g : Generated)
    (hdeclaration : d.read (Path.join [c.outputFolder h.path, g.declaration.name]) =
      .ok g.declaration.content)
    (hdefinition : d.read (Path.join [c.outputFolder h.path, g.definition.name]) =
      .ok g.definition.content) :
    Foretells c d ⟨h, .made g []⟩
      ⟨h, .made g [Path.join [c.outputFolder h.path, g.declaration.name],
        Path.join [c.outputFolder h.path, g.definition.name]]⟩

/-- The bridge of a result that was foretold and could not be written. -/
def Result.failedWrite? (foretold real : Result) : Option Generated :=
  match foretold.outcome, real.outcome with
  | .made g _, .stopped _ _ => some g
  | _, _ => none

/-- The bridges that were foretold and could not be written. -/
def failedWrites (foretold results : List Result) : List Generated :=
  (foretold.zip results).filterMap fun r => r.1.failedWrite? r.2

/-- Two summaries that differ in the bridges that could not be written and in the files that are
told. -/
structure Summary.Foretells (foretold real : Summary) (failed : List Generated) : Prop where
  headers : foretold.headers = real.headers
  skipped : foretold.skipped = real.skipped
  bridges : foretold.bridges = real.bridges + failed.length
  failures : real.failures = foretold.failures + failed.length
  methods : foretold.methods = real.methods + (failed.map (·.methodCount)).sum
  files : foretold.files = []

namespace Result.Foretells

theorem tally {r r' : Result} (h : Foretells c d r r') :
    r.outcome.reason?.isSome = r'.outcome.reason?.isSome ∧
      r.outcome.isMade.toNat = r'.outcome.isMade.toNat + (r.failedWrite? r').toList.length ∧
      r'.outcome.fault?.isSome.toNat =
        r.outcome.fault?.isSome.toNat + (r.failedWrite? r').toList.length ∧
      r.outcome.methods =
        r'.outcome.methods + ((r.failedWrite? r').toList.map (·.methodCount)).sum := by
  cases h with
  | same r h =>
    obtain ⟨header, outcome⟩ := r
    cases outcome with
    | made g paths => exact absurd rfl (h g paths)
    | broken f => exact ⟨rfl, rfl, rfl, rfl⟩
    | skipped f => exact ⟨rfl, rfl, rfl, rfl⟩
    | stopped g f => exact ⟨rfl, rfl, rfl, rfl⟩
  | failed h g f => exact ⟨rfl, rfl, rfl, (Nat.zero_add _).symm⟩
  | written => exact ⟨rfl, rfl, rfl, rfl⟩

theorem total (h : List.Forall₂ (Foretells c d) foretold results) :
    foretold.countP (·.outcome.reason?.isSome) = results.countP (·.outcome.reason?.isSome) ∧
      foretold.countP (·.outcome.isMade) =
        results.countP (·.outcome.isMade) + (failedWrites foretold results).length ∧
      results.countP (·.outcome.fault?.isSome) =
        foretold.countP (·.outcome.fault?.isSome) + (failedWrites foretold results).length ∧
      (foretold.map (·.outcome.methods)).sum = (results.map (·.outcome.methods)).sum +
        ((failedWrites foretold results).map (·.methodCount)).sum := by
  induction h with
  | nil => exact ⟨rfl, rfl, rfl, rfl⟩
  | @cons r r' rs rs' hr _ ih =>
    obtain ⟨hskipped, hmade, hfailed, hmethods⟩ := ih
    obtain ⟨hskipped', hmade', hfailed', hmethods'⟩ := hr.tally
    have hwrites : failedWrites (r :: rs) (r' :: rs') = (r.failedWrite? r').toList ++
        failedWrites rs rs' := by
      unfold failedWrites
      rw [List.zip_cons_cons, List.filterMap_cons]
      cases r.failedWrite? r' <;> rfl
    have hone : ∀ b : Bool, (if b = true then 1 else 0) = b.toNat := by decide
    rw [hwrites]
    simp only [List.countP_cons, List.map_cons, List.sum_cons, List.length_append, List.map_append,
      List.sum_append, hone, hskipped, hskipped', true_and]
    omega

end Result.Foretells

end Foretells

namespace Console

/-- Something was printed, and nothing of how the console prints has changed. -/
def Wrote (c c' : Console) (t : Text) : Prop :=
  ∃ err progress, c' = { c with out := c.out ++ t, err, progress }

variable {c c' c'' : Console} {t t' : Text}

theorem Wrote.refl (c : Console) : c.Wrote c [] := ⟨c.err, c.progress, by rw [List.append_nil]⟩

theorem Wrote.trans (h : c.Wrote c' t) (h' : c'.Wrote c'' t') : c.Wrote c'' (t ++ t') := by
  obtain ⟨err, progress, rfl⟩ := h
  obtain ⟨err', progress', rfl⟩ := h'
  exact ⟨err', progress', by rw [List.append_assoc]⟩

end Console

namespace Session

variable {s : Session}

/-- What is printed of a result when nothing is written: the two files of a bridge. -/
def printed (c : Console) (r : Result) : Text :=
  match r.outcome with
  | .made g _ =>
    (if c.shows .debug then
      c.message "DEBUG" .magenta (r.header.path ++ " processed in " ++ elapsed) else []) ++
      (printedDocument g.declaration ++ printedDocument g.definition)
  | _ => []

def results (s : Session) (cancelled : Bool) (inputs : List Text) : List Result :=
  let (headers, _, s) := { s with summary := {} }.scan inputs
  (s.process cancelled headers).1.toOption.getD []

theorem summary_cancelled (hs : s.Ready) (inputs : List Text) :
    (s.run true inputs).2.summary = {} := by
  obtain ⟨reader, console, -, hscan⟩ := scan_ready hs inputs
  rw [run, hscan]
  dsimp only
  split
  · split <;> rfl
  · rename_i hsome
    rw [process, if_pos (by simpa using hsome)]

/-- Two headers, a folder with short templates, and another where the source file of the first
bridge would be. -/
def blocked : Disk :=
  (((lone.install "b.h" "class B \x7b virtual void g() = 0; \x7d;\n" 0).install
    "t/unique-ptr.h.tmpl" "class \x7b\x7b.BridgeName\x7d\x7d;\n" 0).install
    "t/unique-ptr.cpp.tmpl" "// \x7b\x7b.InterfaceName\x7d\x7d" 0).installFolder "out/ABridge.cpp"

end Session
end HeaderBridge
