import HeaderBridge.Proofs.Batch.Commute
import HeaderBridge.Proofs.Scan.Spelling
import HeaderBridge.Proofs.Session.Run

namespace HeaderBridge

theorem Reader.exists_file_of_plain {d : Disk} {path content : Text}
    (h : Reader.plain d path = .ok content) :
    ∃ content stamp, d.find? (d.spelled path) = some (.file content stamp) := by
  unfold plain at h
  cases hcheck : check d path with
  | error f =>
    rw [hcheck] at h
    cases h
  | ok cleaned =>
    obtain ⟨content, stamp, hstat⟩ := check_eq_ok hcheck
    have hcleaned : cleaned = Path.clean path := by
      unfold check at hcheck
      grind
    rw [hcleaned, Disk.stat_eq_ok, Disk.spelled_clean] at hstat
    exact ⟨content, stamp, hstat.2⟩

namespace Batch

variable {c : Config} {d : Disk} {recipe : Recipe} {hs : List Header}

theorem length_claim (owners : List (Text × Text)) (rs : List Result) :
    (claim c d owners rs).length = rs.length :=
  (claim_kept owners rs).length_eq.symm

/-- Next to its header, or in a folder that is made at once or not at all, a bridge finds its folder
the same whatever was written before. -/
theorem settled_claimed (wf : d.WellFormed)
    (hclean : c.outputDir = [] → ∀ h ∈ hs, Path.clean h.path = h.path)
    (hmake : ∀ failure d', d.makeFolders (c.outputDir.length + 1) c.outputDir = (some failure, d') →
      d' = d) :
    Settled c d (claimed c recipe d hs) := by
  by_cases hdir : c.outputDir = []
  · -- a header that could be read stands in a folder, and nothing has to be made
    refine .inl ⟨d, fun r hr g paths hmade => Disk.makeFolders_of_folder ?_ _⟩
    obtain ⟨hheader, houtcome⟩ := outcome_of_claimed hr hmade
    obtain ⟨-, content, -, -, hplain, -⟩ := exists_source_of_made wf houtcome
    obtain ⟨content, stamp, hfile⟩ := Reader.exists_file_of_plain hplain
    have hfolder : c.outputFolder r.header.path = Path.dir r.header.path := by
      rw [Config.outputFolder, hdir]
      rfl
    rw [hfolder]
    exact Disk.stat_dir wf (Disk.isName_tail wf (hclean hdir _ hheader) (by simp [hfile])) hfile
  · -- all bridges share one folder
    have hfolder : ∀ r, folderMade c d r = d.makeFolders (c.outputDir.length + 1) c.outputDir := by
      intro r
      have hout : c.outputFolder r.header.path = c.outputDir := by
        rw [Config.outputFolder, Text.orElse, if_neg (by simpa using hdir)]
      rw [folderMade, hout]
    rcases hmade : d.makeFolders (c.outputDir.length + 1) c.outputDir with ⟨_ | failure, d'⟩
    · exact .inl ⟨d', fun r _ _ _ _ => (hfolder r).trans hmade⟩
    · obtain rfl := hmake failure d' hmade
      exact .inr fun r _ _ _ _ => ⟨failure, (hfolder r).trans hmade⟩

end Batch

namespace Session

open Batch

variable {s s' : Session}

/-- Makes the bridges of headers, and writes them, in given orders. -/
def processIn (s : Session) (builds writes : List Nat) (cancelled : Bool) (hs : List Header) :
    Except Fault (List Result) × Session :=
  if cancelled && !hs.isEmpty then (.error cancellation, s)
  else
    let (built, reader) := scheduled (buildJob s.recipe s.disk) hs builds s.reader
    let claimed := claim s.config s.disk [] built
    let (results, disk) :=
      if s.dryRun then (claimed, s.disk) else scheduled (storeJob s.config) claimed writes s.disk
    (.ok results, results.foldl record { s with reader, disk })

theorem process_eq_processIn (s : Session) (cancelled : Bool) (hs : List Header) :
    s.process cancelled hs =
    s.processIn (List.range hs.length) (List.range hs.length) cancelled hs := by
  have hlength : ∀ r, (claim s.config s.disk [] (buildAll s.recipe s.disk hs r).1).length =
      hs.length := by
    intro r
    rw [length_claim]
    induction hs generalizing r with
    | nil => rfl
    | cons h hs ih => exact congrArg Nat.succ (ih _)
  have hwrites := hlength s.reader
  unfold process processIn
  rw [scheduled_range, ← buildAll_eq]
  dsimp only
  rw [← hwrites, scheduled_range, ← storeAll_eq]

/-- Sessions that have told the same and hold the same files. -/
structure Alike (s s' : Session) : Prop where
  console : s'.console = s.console
  summary : s'.summary = s.summary
  dryRun : s'.dryRun = s.dryRun
  files : Disk.SameFiles s.disk s'.disk

theorem record_alike (hs : s.Ready) (hs' : s'.Ready) (h : Alike s s') (r : Result) :
    Alike (s.record r) (s'.record r) := by
  obtain ⟨hconsole, hsummary, hdry, hfiles⟩ := h
  obtain ⟨header, outcome⟩ := r
  have hsource : (s'.reader.read s'.disk header.path).1 = (s.reader.read s.disk header.path).1 := by
    rw [(Reader.read_of_current hs.wellFormed hs.current _).1,
      (Reader.read_of_current hs'.wellFormed hs'.current _).1, Reader.plain_congr hfiles]
  unfold record
  cases outcome with
  | broken f =>
    dsimp only
    exact ⟨by rw [hconsole, hsource], by rw [hsummary], hdry, hfiles⟩
  | skipped f =>
    dsimp only
    exact ⟨by rw [hconsole], by rw [hsummary], hdry, hfiles⟩
  | stopped g f =>
    dsimp only
    exact ⟨by rw [hconsole, hsource], by rw [hsummary], hdry, hfiles⟩
  | made g paths =>
    dsimp only
    rw [hdry]
    split
    · exact ⟨by simp only [tell, hconsole], by simp only [tell, hsummary], rfl, hfiles⟩
    · exact ⟨by simp only [hconsole], by simp only [hsummary], rfl, hfiles⟩

theorem foldl_record_alike (hs : s.Ready) (hs' : s'.Ready) (h : Alike s s') (rs : List Result) :
    Alike (rs.foldl record s) (rs.foldl record s') := by
  induction rs generalizing s s' with
  | nil => exact h
  | cons r rs ih => exact ih (record_ready hs r) (record_ready hs' r) (record_alike hs hs' h r)

theorem processIn_eq (hs : s.Ready) {headers : List Header} {builds : List Nat}
    (hbuilds : builds.Perm (List.range headers.length)) (writes : List Nat) :
    ∃ reader, reader.Current s.disk ∧
      s.processIn builds writes false headers =
        let claimed := Batch.claimed s.config s.recipe s.disk headers
        let stored :=
          if s.dryRun then (claimed, s.disk)
          else scheduled (storeJob s.config) claimed writes s.disk
        (.ok stored.1, stored.1.foldl record { s with reader, disk := stored.2 }) := by
  obtain ⟨hbuilt, hcurrent⟩ := scheduled_build hs.wellFormed hs.current s.recipe hbuilds
  refine ⟨_, hcurrent, ?_⟩
  unfold processIn Batch.claimed
  rw [Bool.false_and, if_neg Bool.false_ne_true, ← hbuilt]

/-- In whatever orders the bridges are made and written, the same is told and the same files are
there. -/
theorem processIn_alike (hs : s.Ready) (cancelled : Bool) {headers : List Header}
    (hsettled : Settled s.config s.disk (Batch.claimed s.config s.recipe s.disk headers))
    {builds builds' writes writes' : List Nat} (hbuilds : builds.Perm (List.range headers.length))
    (hbuilds' : builds'.Perm (List.range headers.length))
    (hwrites : writes.Perm (List.range headers.length))
    (hwrites' : writes'.Perm (List.range headers.length)) :
    (s.processIn builds writes cancelled headers).1 =
      (s.processIn builds' writes' cancelled headers).1 ∧
      Alike (s.processIn builds' writes' cancelled headers).2
        (s.processIn builds writes cancelled headers).2 := by
  by_cases hcancelled : (cancelled && !headers.isEmpty) = true
  · -- what was called off does nothing on any schedule
    unfold processIn
    rw [if_pos hcancelled, if_pos hcancelled]
    exact ⟨rfl, rfl, rfl, rfl, .refl _⟩
  have hstart : ∀ builds writes, s.processIn builds writes cancelled headers =
      s.processIn builds writes false headers := by
    intro builds writes
    unfold processIn
    rw [if_neg hcancelled, Bool.false_and, if_neg Bool.false_ne_true]
  let claimed := Batch.claimed s.config s.recipe s.disk headers
  have hlength : claimed.length = headers.length := (length_claim _ _).trans (List.length_map _)
  rw [← hlength] at hwrites hwrites'
  have hdisjoint : claimed.Pairwise fun r r' => (places s.config s.disk r).Disjoint
      (places s.config s.disk r') :=
    claim_disjoint hs.wellFormed [] _
  have hvisible : ∀ r ∈ claimed, Visible r := fun _ => visible_claimed hs.wellFormed
  obtain ⟨hresults, hwf, hedited, hsame⟩ :=
    scheduled_store hs.wellFormed hvisible hdisjoint hsettled hwrites hwrites'
  obtain ⟨-, hwf', hedited', -⟩ :=
    scheduled_store hs.wellFormed hvisible hdisjoint hsettled hwrites' hwrites
  obtain ⟨reader, hcurrent, hprocess⟩ := processIn_eq hs hbuilds writes
  obtain ⟨reader', hcurrent', hprocess'⟩ := processIn_eq hs hbuilds' writes'
  rw [hstart, hstart, hprocess, hprocess']
  dsimp only
  split
  · refine ⟨rfl, foldl_record_alike ?_ ?_ ?_ _⟩
    · exact ⟨hs.wellFormed, hcurrent', hs.recipe⟩
    · exact ⟨hs.wellFormed, hcurrent, hs.recipe⟩
    · exact ⟨rfl, rfl, rfl, .refl _⟩
  · -- the readers differ, but each knows the disk that it is left with
    rw [← hresults]
    refine ⟨rfl, foldl_record_alike ?_ ?_ ?_ _⟩
    · exact ⟨hwf', hcurrent'.edited hedited', hs.recipe⟩
    · exact ⟨hwf, hcurrent.edited hedited, hs.recipe⟩
    · exact ⟨rfl, rfl, rfl, hsame⟩

/-- No schedule is seen in what a run does with the headers that it finds, next to the headers or in
a folder under a clean path. -/
theorem run_schedule (hs : s.Ready) (cancelled : Bool) (inputs : List Text)
    (hdir : s.config.outputDir = [] ∨ Path.clean s.config.outputDir = s.config.outputDir)
    {builds writes : List Nat} (hbuilds : builds.Perm (List.range (s.found inputs).1.length))
    (hwrites : writes.Perm (List.range (s.found inputs).1.length)) :
    (s.processIn builds writes cancelled (s.found inputs).1).1 =
      (s.process cancelled (s.found inputs).1).1 ∧
      Alike (s.process cancelled (s.found inputs).1).2
        (s.processIn builds writes cancelled (s.found inputs).1).2 := by
  rw [process_eq_processIn]
  refine processIn_alike hs cancelled (settled_claimed hs.wellFormed ?_ ?_) hbuilds
    (.refl _) hwrites (.refl _)
  · exact fun _ => s.config.scanner.clean_of_scan inputs
  · intro failure d hmake
    rcases hdir with hnil | hclean
    · rw [hnil] at hmake
      cases hmake
      rfl
    · exact Disk.makeFolders_of_clean hs.wellFormed hclean hmake

section Jobs

variable (jobs : Int)

end Jobs

def two : Disk :=
  ((Disk.empty.install "a.h" "class A \x7b virtual void f() = 0; \x7d;\n" 0).install "b.h"
    "class B \x7b virtual void g() = 0; \x7d;\n" 0).install "file" [] 0

def failures (results : Except Fault (List Result)) : List (Option Text) :=
  (results.toOption.getD []).map (·.outcome.fault?.map Fault.message)

end Session
end HeaderBridge
