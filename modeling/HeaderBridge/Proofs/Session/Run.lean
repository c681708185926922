import HeaderBridge.Session
import HeaderBridge.Proofs.Batch.Store
import HeaderBridge.Proofs.Scan.Union
import HeaderBridge.Proofs.Session.Settings
import Mathlib.Algebra.GroupWithZero.Nat

namespace HeaderBridge

open Batch

namespace Outcome

def isMade : Outcome → Bool
  | made _ _ => true
  | _ => false

def methods : Outcome → Nat
  | made g _ => g.methodCount
  | _ => 0

end Outcome

structure Summary.Counts (s : Summary) (results : List Result) : Prop where
  headers : s.headers = results.length
  bridges : s.bridges = results.countP (·.outcome.isMade)
  skipped : s.skipped = results.countP (·.outcome.reason?.isSome)
  failures : s.failures = results.countP (·.outcome.fault?.isSome)
  methods : s.methods = (results.map (·.outcome.methods)).sum
  files : s.files = results.flatMap (·.outcome.written)

theorem Summary.counts_nil : Summary.Counts {} [] := ⟨rfl, rfl, rfl, rfl, rfl, rfl⟩

theorem Summary.Counts.timed {s : Summary} {results : List Result} (h : s.Counts results)
    (duration : Text) : Summary.Counts { s with duration } results :=
  ⟨h.headers, h.bridges, h.skipped, h.failures, h.methods, h.files⟩

theorem Summary.Counts.total {s : Summary} {results : List Result} (h : s.Counts results) :
    s.headers = s.bridges + s.skipped + s.failures := by
  rw [h.headers, h.bridges, h.skipped, h.failures]
  clear h
  induction results with
  | nil => rfl
  | cons r results ih =>
    have hkind : (if r.outcome.isMade = true then 1 else 0) +
        (if r.outcome.reason?.isSome = true then 1 else 0) +
        (if r.outcome.fault?.isSome = true then 1 else 0) = 1 := by
      cases r.outcome <;> rfl
    simp only [List.length_cons, List.countP_cons]
    omega

namespace Session

variable {s s' : Session}

/-- A session whose reader knows its disk and whose recipe is that of its settings. -/
structure Ready (s : Session) : Prop where
  wellFormed : s.disk.WellFormed
  current : s.reader.Current s.disk
  recipe : s.config.recipe = .ok s.recipe

theorem ready_start {c : Config} {console : Console} {d : Disk} (wf : d.WellFormed)
    (h : start c console d = .ok s) : s.Ready := by
  unfold start at h
  cases hrecipe : c.recipe with
  | error f => simp [hrecipe, bind, Except.bind] at h
  | ok recipe =>
    simp only [hrecipe, bind, Except.bind, pure, Except.pure, Except.ok.injEq] at h
    rw [← h]
    exact ⟨wf, Reader.current_empty d, hrecipe⟩

theorem disk_record (s : Session) (r : Result) : (s.record r).disk = s.disk := by
  obtain ⟨header, outcome⟩ := r
  cases outcome with
  | made g paths =>
    unfold record
    dsimp only
    split <;> rfl
  | _ => rfl

theorem dryRun_record (s : Session) (r : Result) : (s.record r).dryRun = s.dryRun := by
  obtain ⟨header, outcome⟩ := r
  cases outcome with
  | made g paths =>
    unfold record
    dsimp only
    split <;> rfl
  | _ => rfl

theorem disk_foldl_record (s : Session) (rs : List Result) : (rs.foldl record s).disk = s.disk := by
  induction rs generalizing s with
  | nil => rfl
  | cons r rs ih => exact (ih _).trans (disk_record s r)

/-- A result is counted when it is told. Nothing is written by a run that only prints, whose files
are not told. -/
theorem counts_record {results : List Result} (h : s.summary.Counts results) {r : Result}
    (hdry : s.dryRun = true → r.outcome.written = []) :
    (s.record r).summary.Counts (results ++ [r]) := by
  obtain ⟨header, outcome⟩ := r
  obtain ⟨hheaders, hbridges, hskipped, hfailures, hmethods, hfiles⟩ := h
  unfold record
  cases outcome with
  | broken f | skipped f | stopped g f =>
    constructor <;> simp [*, Outcome.isMade, Outcome.reason?, Outcome.fault?, Outcome.methods,
      Outcome.written]
  | made g paths =>
    by_cases hprints : s.dryRun = true
    · obtain rfl : paths = [] := hdry hprints
      dsimp only
      rw [if_pos hprints]
      constructor <;> simp [*, tell, Outcome.isMade, Outcome.reason?, Outcome.fault?,
        Outcome.methods, Outcome.written]
    · dsimp only
      rw [if_neg hprints]
      constructor <;> simp [*, Outcome.isMade, Outcome.reason?, Outcome.fault?, Outcome.methods,
        Outcome.written]

theorem counts_foldl {results : List Result} (h : s.summary.Counts results) {rs : List Result}
    (hdry : s.dryRun = true → ∀ r ∈ rs, r.outcome.written = []) :
    (rs.foldl record s).summary.Counts (results ++ rs) := by
  induction rs generalizing s results with
  | nil => simpa using h
  | cons r rs ih =>
    have hcounts := counts_record h fun hd => hdry hd r List.mem_cons_self
    have hrest := ih hcounts fun hd r' hr' =>
      hdry (dryRun_record s r ▸ hd) r' (List.mem_cons_of_mem _ hr')
    rwa [List.append_assoc, List.singleton_append] at hrest

/-- The headers that inputs lead to, and the faults of those that lead nowhere. -/
def found (s : Session) (inputs : List Text) : List Header × List Fault :=
  (s.config.scanner.scan s.reader s.disk inputs).1

theorem found_of_names {inputs : List Text} (hnames : ∀ t ∈ inputs, Scanner.Names s.disk t)
    (hsorted : (inputs.map Path.clean).Pairwise (· < ·)) :
    s.found inputs = (inputs.map fun t => ⟨Path.clean t, true⟩, []) :=
  Scanner.scan_of_names hnames hsorted

/-- At the start of a run the summary is empty; looking for headers reads and tells, and changes
nothing else. -/
theorem scan_ready (hs : s.Ready) (inputs : List Text) : ∃ reader console,
    Ready { s with summary := {}, reader, console } ∧ scan { s with summary := {} } inputs =
      ((s.found inputs).1, Fault.gather (s.found inputs).2,
        { s with summary := {}, reader, console }) := by
  have hcurrent :=
    (Scanner.transparent_scan (Reader.Transparent.read hs.wellFormed) s.config.scanner inputs).kept
      hs.current
  have hscan : ∃ console, scan { s with summary := {} } inputs =
      ((s.config.scanner.scan s.reader s.disk inputs).1.1,
        Fault.gather (s.config.scanner.scan s.reader s.disk inputs).1.2,
        { s with
          summary := {}
          reader := (s.config.scanner.scan s.reader s.disk inputs).2
          console }) := by
    unfold scan
    dsimp only [tell]
    split
    · rename_i hgather
      exact ⟨_, by rw [hgather]⟩
    · rename_i hgather
      exact ⟨_, by rw [hgather]⟩
  obtain ⟨console, hscan⟩ := hscan
  exact ⟨_, console, ⟨hs.wellFormed, hcurrent, hs.recipe⟩, hscan⟩

/-- A bridge that is made is that of its own header, and both its files are there. -/
def MadeOf (s : Session) (d : Disk) (r : Result) : Prop := ∀ g paths, r.outcome = .made g paths →
  Batch.outcome s.recipe s.disk r.header = .made g [] ∧
    ∃ declaration definition, paths = [declaration, definition] ∧
      declaration = Path.join [s.config.outputFolder r.header.path, g.declaration.name] ∧
      definition = Path.join [s.config.outputFolder r.header.path, g.definition.name] ∧
      d.read declaration = .ok g.declaration.content ∧ d.read definition = .ok g.definition.content

/-- What has been read before makes no difference to what a session does with headers. -/
theorem process_eq (hs : s.Ready) (headers : List Header) : ∃ reader, reader.Current s.disk ∧
    s.process false headers =
      let claimed := Batch.claimed s.config s.recipe s.disk headers
      let stored := if s.dryRun then (claimed, s.disk) else storeAll s.config s.disk claimed
      (.ok stored.1, stored.1.foldl record { s with reader, disk := stored.2 }) := by
  obtain ⟨hbuilt, hcurrent⟩ := buildAll_of_current hs.wellFormed hs.current s.recipe headers
  refine ⟨_, hcurrent, ?_⟩
  unfold process Batch.claimed
  rw [Bool.false_and, if_neg Bool.false_ne_true, ← hbuilt]

/-- The bridges of a batch are made of their own headers, and their files are there when all is
written. -/
theorem madeOf_of_stored (hs : s.Ready) {headers : List Header} {results : List Result} {d : Disk}
    (wf : d.WellFormed)
    (hstored :
      List.Forall₂ (Stored s.config d) (Batch.claimed s.config s.recipe s.disk headers) results)
    {r : Result} (hr : r ∈ results) : s.MadeOf d r := by
  intro g paths hmade
  obtain ⟨claimed, hclaimed, hstored⟩ := exists_of_forall₂ hstored hr
  cases hstored with
  | same r h => exact absurd hmade (h g paths) -- what was not written was not to be made
  | stopped => cases hmade
  | made h g' paths' hne hdeclaration hdefinition =>
    cases hmade
    obtain ⟨-, houtcome⟩ := outcome_of_claimed hclaimed rfl
    obtain ⟨rfl, -⟩ := exists_source_of_made hs.wellFormed houtcome
    exact ⟨houtcome, _, _, rfl, rfl, rfl, Disk.read_join wf hdeclaration,
      Disk.read_join wf hdefinition⟩

/-- A run writes what is claimed for the headers that were found, and counts what becomes of
them. -/
theorem run_spec (hs : s.Ready) (hdry : s.dryRun = false) {inputs : List Text}
    {fault : Option Fault} (hrun : s.run false inputs = (fault, s')) :
    let stored :=
      storeAll s.config s.disk (Batch.claimed s.config s.recipe s.disk (s.found inputs).1)
    s'.disk = stored.2 ∧ s'.summary.Counts stored.1 ∧
      fault = Fault.gather ((Fault.gather (s.found inputs).2).toList ++
        stored.1.filterMap (·.outcome.fault?)) := by
  obtain ⟨reader, console, hready, hscan⟩ := scan_ready hs inputs
  rw [run, hscan] at hrun
  dsimp only at hrun
  split at hrun
  · -- with no header to work on a run ends before anything is made
    rename_i hempty
    cases hrun
    rw [List.isEmpty_iff] at hempty
    rw [hempty]
    refine ⟨?_, ?_, congrArg Fault.gather (List.append_nil _).symm⟩
    · split <;> rfl
    · split <;> exact Summary.counts_nil
  · obtain ⟨reader, -, hprocess⟩ := process_eq hready (s.found inputs).1
    rw [hprocess] at hrun
    dsimp only at hrun
    rw [if_neg (by simp [hdry])] at hrun
    cases hrun
    let stored :=
      storeAll s.config s.disk (Batch.claimed s.config s.recipe s.disk (s.found inputs).1)
    -- telling the results starts with an empty summary, on the disk that all was written to
    let written : Session := { s with summary := {}, reader, console, disk := stored.2 }
    have hcounts : (stored.1.foldl record written).summary.Counts ([] ++ stored.1) :=
      counts_foldl Summary.counts_nil (by simp [written, hdry])
    exact ⟨disk_foldl_record written stored.1, hcounts.timed elapsed, rfl⟩

theorem record_ready (hs : s.Ready) (r : Result) : (s.record r).Ready := by
  obtain ⟨header, outcome⟩ := r
  have hread := (Reader.read_of_current hs.wellFormed hs.current header.path).2
  unfold record
  cases outcome with
  | broken f => exact ⟨hs.wellFormed, hread, hs.recipe⟩
  | skipped f => exact ⟨hs.wellFormed, hs.current, hs.recipe⟩
  | stopped g f => exact ⟨hs.wellFormed, hread, hs.recipe⟩
  | made g paths =>
    dsimp only
    split
    · exact ⟨hs.wellFormed, hs.current, hs.recipe⟩
    · exact ⟨hs.wellFormed, hs.current, hs.recipe⟩

theorem foldl_record_ready (hs : s.Ready) (rs : List Result) : (rs.foldl record s).Ready := by
  induction rs generalizing s with
  | nil => exact hs
  | cons r rs ih => exact ih (record_ready hs r)

/-- Whatever becomes of a run, the session is ready for the next one, and all that was written is
what was claimed for the headers that were found. -/
theorem run_ready (hs : s.Ready) (cancelled : Bool) (inputs : List Text) :
    (s.run cancelled inputs).2.Ready ∧
    ((s.run cancelled inputs).2.disk = s.disk ∨ (s.run cancelled inputs).2.disk =
      (storeAll s.config s.disk
        (Batch.claimed s.config s.recipe s.disk (s.found inputs).1)).2) := by
  obtain ⟨reader, console, hready, hscan⟩ := scan_ready hs inputs
  rw [run, hscan]
  dsimp only
  split
  · refine ⟨?_, .inl ?_⟩
    · split
      · exact hready
      · exact ⟨hready.wellFormed, hready.current, hready.recipe⟩
    · split <;> rfl
  · rename_i hsome
    cases cancelled with
    | true =>
      have hstopped : ∀ u : Session, u.process true (s.found inputs).1 =
          (.error cancellation, u) := by
        intro u
        simp [process, hsome]
      rw [hstopped]
      exact ⟨hready, .inl rfl⟩
    | false =>
      obtain ⟨reader, hcurrent, hprocess⟩ := process_eq hready (s.found inputs).1
      obtain ⟨hwf, hedited⟩ := claimed_edited hs.wellFormed s.config s.recipe (s.found inputs).1
      rw [hprocess]
      dsimp only
      split
      · let told : Session := { s with summary := {}, reader, console }
        have hready' := @foldl_record_ready told ⟨hs.wellFormed, hcurrent, hs.recipe⟩
          (Batch.claimed s.config s.recipe s.disk (s.found inputs).1)
        exact ⟨⟨hready'.wellFormed, hready'.current, hready'.recipe⟩,
          .inl (disk_foldl_record told _)⟩
      · let stored :=
          storeAll s.config s.disk (Batch.claimed s.config s.recipe s.disk (s.found inputs).1)
        let told : Session := { s with summary := {}, reader, console, disk := stored.2 }
        have hready' := @foldl_record_ready told ⟨hwf, hcurrent.edited hedited, hs.recipe⟩ stored.1
        exact ⟨⟨hready'.wellFormed, hready'.current, hready'.recipe⟩,
          .inr (disk_foldl_record told _)⟩

/-- What a run reports: each header that was found is counted once, the files of the bridges that
were made are told without repetition, each holds what was made of its own header, and the run is
free of faults if all inputs led somewhere and no header failed. -/
theorem run_report (hs : s.Ready) (hvalid : s.config.problem s.disk = none)
    (hdry : s.dryRun = false) {inputs : List Text} {fault : Option Fault}
    (hrun : s.run false inputs = (fault, s')) :
    ∃ results : List Result, results.map (·.header) = (s.found inputs).1 ∧
      s'.summary.Counts results ∧
      s'.summary.headers = s'.summary.bridges + s'.summary.skipped + s'.summary.failures ∧
      (∀ r ∈ results, s.MadeOf s'.disk r) ∧ s'.summary.files.Nodup ∧
      (fault = none ↔ (s.found inputs).2 = [] ∧ s'.summary.failures = 0) := by
  obtain ⟨hdisk, hcounts, hfault⟩ := run_spec hs hdry hrun
  obtain ⟨hstored, hnodup, hheaders⟩ :=
    claimed_stored hs.wellFormed s.config s.recipe (s.found inputs).1
      (Config.endings_ne hvalid hs.recipe)
  have hwf := (claimed_edited hs.wellFormed s.config s.recipe (s.found inputs).1).1
  refine ⟨_, hheaders, hcounts, hcounts.total, ?_, ?_, ?_⟩
  · intro r hr
    rw [hdisk]
    exact madeOf_of_stored hs hwf hstored hr
  · rw [hcounts.files]
    exact hnodup
  · rw [hfault, hcounts.failures, Fault.gather_eq_none, List.append_eq_nil_iff,
      Option.toList_eq_nil_iff, Fault.gather_eq_none, List.filterMap_eq_nil_iff,
      Int.natCast_eq_zero, List.countP_eq_zero]
    simp

def lone : Disk := Disk.empty.install "a.h" "class A \x7b virtual void f() = 0; \x7d;\n" 0

/-- Two headers, and one that declares the interface of the first again. -/
def three : Disk :=
  (lone.install "b.h"
    "class B \x7b virtual void g() = 0; virtual void h() = 0; \x7d;\n" 0).install "c/a.h"
    "class A \x7b virtual void k() = 0; \x7d;\n" 0

/-- The bridges of the first two are written into one folder. That of the third would overwrite the
first, and is not. -/
theorem run_report_three : ∃ s, start { outputDir := "out" } {} three = .ok s ∧ s.Ready ∧
    s.config.problem s.disk = none ∧ s.dryRun = false ∧ s.disk = three ∧
    (s.found ["a.h", "b.h", "c/a.h"]).1 = [⟨"a.h", true⟩, ⟨"b.h", true⟩, ⟨"c/a.h", true⟩] ∧
    (s.run false ["a.h", "b.h", "c/a.h"]).2.summary.files =
      [("out/ABridge.h" : Text), "out/ABridge.cpp", "out/BBridge.h", "out/BBridge.cpp"] ∧
    (s.run false ["a.h", "b.h", "c/a.h"]).2.summary.failures = 1 ∧
    (s.run false ["a.h", "b.h", "c/a.h"]).2.summary.methods = 3 ∧
    (s.run false ["a.h", "b.h", "c/a.h"]).1 ≠ none ∧
    ∃ results : List Result, results.map (·.header) = (s.found ["a.h", "b.h", "c/a.h"]).1 ∧
      (s.run false ["a.h", "b.h", "c/a.h"]).2.summary.Counts results ∧
      ∀ r ∈ results, s.MadeOf (s.run false ["a.h", "b.h", "c/a.h"]).2.disk r := by
  have wf : three.WellFormed := by decide +kernel
  have hvalid : Config.problem { outputDir := "out" } three = none := Config.problem_default _ _
  obtain ⟨s, hs, hconfig, hdry, hdisk, hclaimed⟩ : ∃ s,
      start { outputDir := "out" } {} three = .ok s ∧ s.config = { outputDir := "out" } ∧
      s.dryRun = false ∧ s.disk = three ∧
      let stored := storeAll s.config s.disk (Batch.claimed s.config s.recipe s.disk
        [⟨"a.h", true⟩, ⟨"b.h", true⟩, ⟨"c/a.h", true⟩])
      stored.1.flatMap (·.outcome.written) =
          [("out/ABridge.h" : Text), "out/ABridge.cpp", "out/BBridge.h", "out/BBridge.cpp"] ∧
        stored.1.countP (·.outcome.fault?.isSome) = 1 ∧
        (stored.1.map (·.outcome.methods)).sum = 3 := by
    refine ⟨_, rfl, rfl, rfl, rfl, ?_⟩
    decide +kernel
  have hready : s.Ready := ready_start wf hs
  rw [← hconfig, ← hdisk] at hvalid
  have hfound : s.found ["a.h", "b.h", "c/a.h"] =
      ([⟨"a.h", true⟩, ⟨"b.h", true⟩, ⟨"c/a.h", true⟩], []) := by
    rw [found_of_names (hdisk ▸ by decide +kernel) (by decide), Prod.mk.injEq]
    exact ⟨by decide +kernel, rfl⟩
  obtain ⟨-, hcounts, -⟩ :=
    run_spec hready hdry (Prod.eta (s.run false ["a.h", "b.h", "c/a.h"])).symm
  rw [hfound] at hcounts
  obtain ⟨hfiles, hfailures, hmethods⟩ := hclaimed
  obtain ⟨results, hheaders, hcounted, -, hmade, -, hnone⟩ :=
    run_report hready hvalid hdry (Prod.eta (s.run false ["a.h", "b.h", "c/a.h"])).symm
  have hfailed : (s.run false ["a.h", "b.h", "c/a.h"]).2.summary.failures = 1 := by
    rw [hcounts.failures, hfailures]
    rfl
  refine ⟨s, hs, hready, hvalid, hdry, hdisk, congrArg Prod.fst hfound,
    hcounts.files.trans hfiles, hfailed, ?_, ?_, results, hheaders, hcounted, hmade⟩
  · rw [hcounts.methods, hmethods]
    rfl
  · rw [ne_eq, hnone, hfailed]
    rintro ⟨-, hzero⟩
    cases hzero

end Session
end HeaderBridge
