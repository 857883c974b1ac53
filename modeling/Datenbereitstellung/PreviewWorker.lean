import Datenbereitstellung.AppState
import Datenbereitstellung.ProjectManager

namespace Datenbereitstellung.PreviewWorker

open Strings AppState Lib.Program
open ProjectManager (toInt32)

/-- Where in the loop a status is set, with the number of the job it is about. -/
inductive Site
  | notFound
  | progress (job : Nat)
  | final (job : Nat)
  deriving DecidableEq

/-- What a command is drawn with: as the others, as the current one or as a done one. -/
inductive Progress
  | params
  | liveP
  | doneP
  deriving DecidableEq

/-- The accesses of the worker to the shared state, and what else decides how it goes on.
`commands` parses, flattens and fits a file and answers with the number of commands;
`bumpGeneration` answers with the number that the job gets. -/
inductive Req
  | running
  | takeCommand
  | listProjects (maxCount : Int)
  | setProjects (folder : Text) (projects : List Text)
  | getProjectInfo (projectName : Text)
  | bumpGeneration
  | commands (filePath : Text)
  | setStatus (site : Site) (st : Status)
  | takeStop
  | renderRange (first last : Int) (progress : Progress)
  | baseImage (total : Int)
  | pushMirrored (full : Bool)
  | pushTime

@[reducible] def Ans : Req → Type
  | .takeCommand => Option PreviewCommand
  | .listProjects _ => Except Text (List Text)
  | .getProjectInfo _ => Except Text (Option Text)
  | .bumpGeneration => Nat
  | .commands _ => Except Text Nat
  | .running | .takeStop | .pushTime => Bool
  | .setProjects _ _ | .setStatus _ _ | .renderRange _ _ _ | .baseImage _ | .pushMirrored _ => Unit

/-- An exception leaves the thread and ends the process. -/
abbrev M (α : Type) := Prog Req Ans Text α

structure Config where
  folderPath : Text
  maxProjects : Int

structure Job where
  number : Nat
  project : Text
  total : Int
  interval : Int

structure Sweep where
  k : Int := 0
  prevK : Int := -1
  lastK : Int := 0
  lastPushK : Int := 0
  stopped : Bool := false

/-- The heads of the loops; `nap` is the waiting between two steps of the sweep. -/
inductive Stage
  | start
  | work
  | sweep (job : Job) (s : Sweep)
  | nap (job : Job) (s : Sweep) (slept : Int)

def running : M Bool := Prog.perform Req.running

def takeCommand : M (Option PreviewCommand) := Prog.perform Req.takeCommand

def takeStop : M Bool := Prog.perform Req.takeStop

def previewStatus (site : Site) (running : Bool) (step total : Int) (project : Text)
    (msg : Text := []) : M Unit :=
  Prog.perform (Req.setStatus site ⟨running, step, total, project, msg⟩)

def renderRange (first last : Int) (progress : Progress) : M Unit :=
  Prog.perform (Req.renderRange first last progress)

def pushMirrored (full : Bool := true) : M Unit := Prog.perform (Req.pushMirrored full)

def orThrow {α : Type} : Except Text α → M α
  | .ok a => pure a
  | .error e => throw e

def listProjects (cfg : Config) : M Unit := do
  match ← Prog.perform (Req.listProjects cfg.maxProjects) with
  | .ok projects => Prog.perform (Req.setProjects cfg.folderPath projects)
  | .error _ => Prog.perform (Req.setProjects cfg.folderPath [])

def renderJob (job : Job) : M (Stage ⊕ Unit) := do
  previewStatus (.progress job.number) true 0 job.total job.project (lit "Rendere ...")
  renderRange 0 job.total .params
  pushMirrored
  previewStatus (.final job.number) false job.total job.total job.project
  pure (.inl .work)

def testrunJob (job : Job) : M (Stage ⊕ Unit) := do
  let _ ← takeStop
  previewStatus (.progress job.number) true 0 job.total job.project
  let _ ← Prog.perform (Req.baseImage job.total)
  pushMirrored
  pure (.inl (.sweep job {}))

def previewJob (cmd : PreviewCommand) (run : Job → M (Stage ⊕ Unit)) : M (Stage ⊕ Unit) := do
  let info ← Prog.perform (Req.getProjectInfo cmd.project)
  match ← orThrow info with
  | none =>
    previewStatus .notFound false 0 0 cmd.project (lit "Projekt nicht gefunden")
    pure (.inl .work)
  | some filePath =>
    let number ← Prog.perform Req.bumpGeneration
    let commands ← Prog.perform (Req.commands filePath)
    let size ← orThrow commands
    run ⟨number, cmd.project, toInt32 size, cmd.intervalMs⟩

def workBody (cfg : Config) : M (Stage ⊕ Unit) := do
  if !(← running) then pure (.inr ())
  else match ← takeCommand with
    | none => pure (.inl .work)
    | some cmd => match cmd.action with
      | .list => do
        listProjects cfg
        pure (.inl .work)
      | .render => previewJob cmd renderJob
      | .testrun => previewJob cmd testrunJob
      | .other => pure (.inl .work)

def stepChunk (total : Int) : Int := max 1 (total.tdiv 60)

def nextStep (job : Job) (s : Sweep) : M (Stage ⊕ Unit) :=
  pure (.inl (.sweep job { s with k := s.k + 1 }))

def waitStep (job : Job) (s : Sweep) : M (Stage ⊕ Unit) := do
  if job.interval > 0 then pure (.inl (.nap job s 0))
  else if s.k.tmod 128 = 0 then
    let stop ← takeStop
    nextStep job { s with stopped := stop }
  else nextStep job s

def sweepStep (job : Job) (s : Sweep) : M (Stage ⊕ Unit) := do
  if s.prevK ≥ 0 then renderRange s.prevK (s.prevK + 1) .doneP
  renderRange s.k (s.k + 1) .liveP
  let s := { s with prevK := s.k, lastK := s.k + 1 }
  if (← Prog.perform Req.pushTime) || s.k - s.lastPushK ≥ stepChunk job.total then
    pushMirrored false
    previewStatus (.progress job.number) true (s.k + 1) job.total job.project
    waitStep job { s with lastPushK := s.k }
  else waitStep job s

def finishSweep (job : Job) (s : Sweep) : M (Stage ⊕ Unit) := do
  if !s.stopped && s.prevK ≥ 0 then renderRange s.prevK (s.prevK + 1) .doneP
  pushMirrored
  previewStatus (.final job.number) false s.lastK job.total job.project
    (if s.stopped then lit "Gestoppt" else [])
  pure (.inl .work)

def sweepBody (job : Job) (s : Sweep) : M (Stage ⊕ Unit) := do
  if !(s.k < job.total) then finishSweep job s
  else if !(← running) then finishSweep job s
  else if s.stopped then finishSweep job s
  else sweepStep job s

def napBody (job : Job) (s : Sweep) (slept : Int) : M (Stage ⊕ Unit) := do
  if !(slept < job.interval) then nextStep job s
  else if !(← running) then nextStep job s
  else if ← takeStop then nextStep job { s with stopped := true }
  else pure (.inl (.nap job s (slept + min 50 (job.interval - slept))))

def previewWorkerLoop (cfg : Config) : Process Req Ans Text Stage Unit
  | .start => do
    listProjects cfg
    pure (.inl .work)
  | .work => workBody cfg
  | .sweep job s => sweepBody job s
  | .nap job s slept => napBody job s slept

section Sweeping

def liveStep (job : Job) (s : Sweep) : M (Stage ⊕ Unit) := do
  renderRange s.k (s.k + 1) .liveP
  let s := { s with prevK := s.k, lastK := s.k + 1 }
  if (← Prog.perform Req.pushTime) || s.k - s.lastPushK ≥ stepChunk job.total then
    pushMirrored false
    previewStatus (.progress job.number) true (s.k + 1) job.total job.project
    waitStep job { s with lastPushK := s.k }
  else waitStep job s

def endSweep (job : Job) (s : Sweep) : M (Stage ⊕ Unit) := do
  pushMirrored
  previewStatus (.final job.number) false s.lastK job.total job.project
    (if s.stopped then lit "Gestoppt" else [])
  pure (.inl .work)

theorem sweepStep_eq (job : Job) (s : Sweep) :
    sweepStep job s =
      if s.prevK ≥ 0 then renderRange s.prevK (s.prevK + 1) .doneP >>= fun _ => liveStep job s
      else liveStep job s := by
  unfold sweepStep
  by_cases h : s.prevK ≥ 0
  · rw [if_pos h, if_pos h]
    rfl
  · rw [if_neg h, if_neg h]
    rfl

theorem finishSweep_eq (job : Job) (s : Sweep) :
    finishSweep job s =
      if !s.stopped && s.prevK ≥ 0 then
        renderRange s.prevK (s.prevK + 1) .doneP >>= fun _ => endSweep job s
      else endSweep job s := by
  unfold finishSweep
  by_cases h : (!s.stopped && s.prevK ≥ 0) = true
  · rw [if_pos h, if_pos h]
    rfl
  · rw [if_neg h, if_neg h]
    rfl

end Sweeping

section Drawing

variable {job : Job}

def Drawing : Req → Prop
  | .running | .setStatus _ _ | .takeStop | .renderRange _ _ _ | .baseImage _ | .pushMirrored _
  | .pushTime => True
  | _ => False

theorem drawing_renderJob : (renderJob job).Only Drawing :=
  ⟨trivial, fun _ => ⟨trivial, fun _ => ⟨trivial, fun _ => ⟨trivial, fun _ => trivial⟩⟩⟩⟩

theorem drawing_testrunJob : (testrunJob job).Only Drawing :=
  ⟨trivial, fun _ => ⟨trivial, fun _ => ⟨trivial, fun _ => ⟨trivial, fun _ => trivial⟩⟩⟩⟩

theorem drawing_waitStep (s : Sweep) : (waitStep job s).Only Drawing := by
  rw [waitStep]
  split
  · trivial
  split
  · exact ⟨trivial, fun _ => trivial⟩
  · trivial

theorem drawing_liveStep (s : Sweep) : (liveStep job s).Only Drawing := by
  refine ⟨trivial, fun _ => ⟨trivial, fun due => ?_⟩⟩
  simp only [Prog.bind]
  split
  · exact ⟨trivial, fun _ => ⟨trivial, fun _ => drawing_waitStep _⟩⟩
  · exact drawing_waitStep _

theorem drawing_sweepStep (s : Sweep) : (sweepStep job s).Only Drawing := by
  rw [sweepStep_eq]
  split
  · exact ⟨trivial, fun _ => drawing_liveStep s⟩
  · exact drawing_liveStep s

theorem drawing_endSweep (s : Sweep) : (endSweep job s).Only Drawing :=
  ⟨trivial, fun _ => ⟨trivial, fun _ => trivial⟩⟩

theorem drawing_finishSweep (s : Sweep) : (finishSweep job s).Only Drawing := by
  rw [finishSweep_eq]
  split
  · exact ⟨trivial, fun _ => drawing_endSweep s⟩
  · exact drawing_endSweep s

theorem drawing_sweepBody (s : Sweep) : (sweepBody job s).Only Drawing := by
  rw [sweepBody]
  split
  · exact drawing_finishSweep s
  refine ⟨trivial, fun run => ?_⟩
  cases run with
  | false => exact drawing_finishSweep s
  | true =>
    cases s.stopped with
    | true => exact drawing_finishSweep s
    | false => exact drawing_sweepStep s

theorem drawing_napBody (s : Sweep) (slept : Int) : (napBody job s slept).Only Drawing := by
  rw [napBody]
  split
  · trivial
  refine ⟨trivial, fun run => ?_⟩
  cases run with
  | false => trivial
  | true =>
    refine ⟨trivial, fun stop => ?_⟩
    cases stop with
    | true => trivial
    | false => trivial

end Drawing

section Runs

variable {job : Job} {s : Sweep} {qs : List Req} {next : Stage ⊕ Unit}

def draws : Req → Bool
  | .renderRange _ _ _ | .baseImage _ => true
  | _ => false

/-- The head of a loop behind the step at `k`, where the command at `prevK` was drawn last. -/
def BehindStep (job : Job) (k prevK : Int) (next : Stage ⊕ Unit) : Prop :=
  ∃ s : Sweep, s.prevK = prevK ∧
    (s.k = k + 1 ∧ next = .inl (.sweep job s) ∨ s.k = k ∧ next = .inl (.nap job s 0))

theorem runs_waitStep (h : Prog.Runs (waitStep job s) qs next) :
    qs.filter draws = [] ∧ BehindStep job s.k s.prevK next := by
  unfold waitStep at h
  split at h
  · cases h
    exact ⟨rfl, s, rfl, .inr ⟨rfl, rfl⟩⟩
  split at h
  · obtain ⟨stop, qs₁, rfl, h₁⟩ := Prog.runs_call h
    cases h₁
    exact ⟨rfl, { s with k := s.k + 1, stopped := stop }, rfl, .inl ⟨rfl, rfl⟩⟩
  · cases h
    exact ⟨rfl, { s with k := s.k + 1 }, rfl, .inl ⟨rfl, rfl⟩⟩

theorem runs_liveStep (h : Prog.Runs (liveStep job s) qs next) :
    qs.filter draws = [.renderRange s.k (s.k + 1) .liveP] ∧ BehindStep job s.k s.k next := by
  obtain ⟨_, qs₁, rfl, h₁⟩ := Prog.runs_call h
  obtain ⟨due, qs₂, rfl, h₂⟩ := Prog.runs_call h₁
  simp only [Prog.bind] at h₂
  split at h₂
  · obtain ⟨_, qs₃, rfl, h₃⟩ := Prog.runs_call h₂
    obtain ⟨_, qs₄, rfl, h₄⟩ := Prog.runs_call h₃
    obtain ⟨hqs, hnext⟩ := runs_waitStep h₄
    exact ⟨congrArg (_ :: ·) hqs, hnext⟩
  · obtain ⟨hqs, hnext⟩ := runs_waitStep h₂
    exact ⟨congrArg (_ :: ·) hqs, hnext⟩

theorem runs_sweepStep (h : Prog.Runs (sweepStep job s) qs next) :
    qs.filter draws =
        (if s.prevK ≥ 0 then [.renderRange s.prevK (s.prevK + 1) .doneP] else []) ++
          [.renderRange s.k (s.k + 1) .liveP] ∧
      BehindStep job s.k s.k next := by
  rw [sweepStep_eq] at h
  split at h
  · rename_i hprev
    obtain ⟨_, qs₁, rfl, h₁⟩ := Prog.runs_call h
    obtain ⟨hqs, hnext⟩ := runs_liveStep h₁
    rw [if_pos hprev]
    exact ⟨congrArg (_ :: ·) hqs, hnext⟩
  · rename_i hprev
    rw [if_neg hprev]
    exact runs_liveStep h

theorem runs_endSweep (h : Prog.Runs (endSweep job s) qs next) :
    qs.filter draws = [] ∧ next = .inl .work := by
  obtain ⟨_, qs₁, rfl, h₁⟩ := Prog.runs_call h
  obtain ⟨_, qs₂, rfl, h₂⟩ := Prog.runs_call h₁
  cases h₂
  exact ⟨rfl, rfl⟩

theorem runs_finishSweep (h : Prog.Runs (finishSweep job s) qs next) :
    qs.filter draws = (if !s.stopped && s.prevK ≥ 0 then
        [.renderRange s.prevK (s.prevK + 1) .doneP] else []) ∧
      next = .inl .work := by
  rw [finishSweep_eq] at h
  split at h
  · rename_i hend
    obtain ⟨_, qs₁, rfl, h₁⟩ := Prog.runs_call h
    obtain ⟨hqs, hnext⟩ := runs_endSweep h₁
    rw [if_pos hend]
    exact ⟨congrArg (_ :: ·) hqs, hnext⟩
  · rename_i hend
    rw [if_neg hend]
    exact runs_endSweep h

theorem runs_sweepBody (h : Prog.Runs (sweepBody job s) qs next) :
    ∃ qs', qs.filter draws = qs'.filter draws ∧
      (s.k < job.total ∧ Prog.Runs (sweepStep job s) qs' next ∨
        Prog.Runs (finishSweep job s) qs' next) := by
  unfold sweepBody at h
  split at h
  · exact ⟨qs, rfl, .inr h⟩
  rename_i hlt
  obtain ⟨up, qs', rfl, h'⟩ := Prog.runs_call h
  refine ⟨qs', rfl, ?_⟩
  cases up with
  | false => exact .inr h'
  | true =>
    simp only [Prog.bind] at h'
    cases hs : s.stopped with
    | true =>
      rw [hs] at h'
      exact .inr h'
    | false =>
      rw [hs] at h'
      exact .inl ⟨by simpa using hlt, h'⟩

theorem runs_napBody {slept : Int} (h : Prog.Runs (napBody job s slept) qs next) :
    qs.filter draws = [] ∧
      ((∃ s' : Sweep, s'.prevK = s.prevK ∧ s'.k = s.k + 1 ∧ next = .inl (.sweep job s')) ∨
        slept < job.interval ∧
          next = .inl (.nap job s (slept + min 50 (job.interval - slept)))) := by
  unfold napBody at h
  split at h
  · cases h
    exact ⟨rfl, .inl ⟨{ s with k := s.k + 1 }, rfl, rfl, rfl⟩⟩
  rename_i hlt
  obtain ⟨up, qs₁, rfl, h₁⟩ := Prog.runs_call h
  cases up with
  | false =>
    cases h₁
    exact ⟨rfl, .inl ⟨{ s with k := s.k + 1 }, rfl, rfl, rfl⟩⟩
  | true =>
    obtain ⟨stop, qs₂, rfl, h₂⟩ := Prog.runs_call h₁
    cases stop with
    | true =>
      cases h₂
      exact ⟨rfl, .inl ⟨{ s with stopped := true, k := s.k + 1 }, rfl, rfl, rfl⟩⟩
    | false =>
      cases h₂
      exact ⟨rfl, .inr ⟨by simpa using hlt, rfl⟩⟩

theorem runs_testrunJob (h : Prog.Runs (testrunJob job) qs next) :
    qs.filter draws = [.baseImage job.total] ∧ next = .inl (.sweep job {}) := by
  obtain ⟨_, qs₁, rfl, h₁⟩ := Prog.runs_call h
  obtain ⟨_, qs₂, rfl, h₂⟩ := Prog.runs_call h₁
  obtain ⟨_, qs₃, rfl, h₃⟩ := Prog.runs_call h₂
  obtain ⟨_, qs₄, rfl, h₄⟩ := Prog.runs_call h₃
  cases h₄
  exact ⟨rfl, rfl⟩

end Runs

end Datenbereitstellung.PreviewWorker
