import Datenbereitstellung.Lib.Rely
import Datenbereitstellung.PreviewWorker

namespace Datenbereitstellung.PreviewGeneration

open Strings AppState PreviewWorker Lib.Program Lib.Rely

section Snapshots

inductive Event
  | bump (job : Nat)
  | status (site : Site) (st : Status)

/-- `reading` is what a call of `status()` has read that holds `mtx_` and is about to load
`gen_`; `log` lists what the worker did to the status and the counter, newest first. -/
structure World where
  app : State := {}
  reading : Option Status := none
  log : List Event := []

inductive Http : World → World → Prop
  | enqueue (w : World) (cmd : PreviewCommand) (h : w.reading = none) :
      Http w { w with app := w.app.enqueue cmd }
  | requestStop (w : World) (h : w.reading = none) : Http w { w with app := w.app.requestStop }
  | lock (w : World) (h : w.reading = none) : Http w { w with reading := some w.app.status }
  | load (w : World) (st : Status) (h : w.reading = some st) : Http w { w with reading := none }

/-- Only the counter is changed without `mtx_`. -/
def system : System Req Ans World where
  exec
    | .takeCommand, w, cmd, w' =>
      w.reading = none ∧ cmd = w.app.takeCommand.1 ∧ w' = { w with app := w.app.takeCommand.2 }
    | .takeStop, w, stop, w' =>
      w.reading = none ∧ stop = w.app.takeStop.1 ∧ w' = { w with app := w.app.takeStop.2 }
    | .setProjects folder projects, w, _, w' =>
      w.reading = none ∧ w' = { w with app := w.app.setProjects folder projects }
    | .bumpGeneration, w, number, w' =>
      number = w.app.gen + 1 ∧
        w' = { w with app := w.app.bumpGeneration, log := .bump number :: w.log }
    | .setStatus site st, w, _, w' =>
      w.reading = none ∧
        w' = { w with app := w.app.setStatus st, log := .status site st :: w.log }
    | _, w, _, w' => w' = w
  rely := Http

/-- The job has set its final status, which has the step, the total and the project of `st`. -/
def Reported (job : Nat) (st : Status) (log : List Event) : Prop :=
  ∃ fin, .status (.final job) fin ∈ log ∧
    st.step = fin.step ∧ st.total = fin.total ∧ st.project = fin.project

/-- The status that a job last set while it was running. -/
def announced : List Event → Option Status
  | [] => none
  | .status (.progress _) st :: _ => some st
  | _ :: log => announced log

/-- A status has been set since the last job got its number. If the newest one is about an unknown
project, then the last job was about one of the same name, and without commands. -/
def Unmixed : List Event → Prop
  | .bump _ :: _ => False
  | .status .notFound st :: log =>
    ∃ ann, announced log = some ann ∧ ann.total = 0 ∧ ann.project = st.project
  | _ => True

end Snapshots

section Phases

variable {st : Status} {gen n : Nat} {log : List Event} {job : Job} {site : Site}

abbrev Phase := Status → Nat → List Event → Prop

def Reliable : Phase := fun st gen log =>
  1 ≤ gen → st.running = false → (Reported gen st log ↔ Unmixed log)

def EndedBefore (n : Nat) (log : List Event) : Prop :=
  ∀ job fin, .status (.final job) fin ∈ log → job < n

def Numbered (number : Nat) : Phase := fun _ gen log =>
  gen = number ∧ log.head? = some (.bump number) ∧ EndedBefore number log

structure Running (job : Job) (st : Status) (gen : Nat) (log : List Event) : Prop where
  number : gen = job.number
  running : st.running = true
  before : EndedBefore job.number log
  announced : ∃ ann, announced log = some ann ∧ ann.total = job.total ∧ ann.project = job.project

structure Over (fin ann : Status) (st : Status) (gen : Nat) (log : List Event) : Prop where
  final : .status (.final gen) fin ∈ log
  unique : ∀ fin', .status (.final gen) fin' ∈ log → fin' = fin
  announced : announced log = some ann
  total : fin.total = ann.total
  project : fin.project = ann.project
  step : ann.total = 0 → fin.step = 0
  newest : (log.head? = some (.status (.final gen) st) ∧ st = fin) ∨
    log.head? = some (.status .notFound st) ∧ st.step = 0 ∧ st.total = 0

def AtRest : Phase := fun st gen log =>
  EndedBefore (gen + 1) log ∧ (gen = 0 ∨ ∃ fin ann, Over fin ann st gen log)

theorem EndedBefore.mono (h : EndedBefore n log) (hn : n ≤ gen) : EndedBefore gen log :=
  fun job fin hf => (h job fin hf).trans_le hn

theorem EndedBefore.bump (h : EndedBefore n log) (job : Nat) :
    EndedBefore n (.bump job :: log) := by
  intro job' fin hf
  obtain hf | hf := List.mem_cons.mp hf
  · cases hf
  · exact h job' fin hf

theorem EndedBefore.status (h : EndedBefore n log) (hs : ∀ job, site = .final job → job < n)
    (st : Status) : EndedBefore n (.status site st :: log) := by
  intro job fin hf
  obtain hf | hf := List.mem_cons.mp hf
  · cases hf
    exact hs job rfl
  · exact h job fin hf

theorem not_reported (h : EndedBefore gen log) : ¬Reported gen st log := by
  rintro ⟨fin, hf, -⟩
  exact (h gen fin hf).ne rfl

theorem reliable_of_numbered (h : Numbered n st gen log) : Reliable st gen log := by
  obtain ⟨rfl, hhead, hbefore⟩ := h
  intro _ _
  apply iff_of_false (not_reported hbefore)
  cases log with
  | nil => cases hhead
  | cons e log =>
    cases hhead
    exact id

theorem reliable_of_running (h : Running job st gen log) : Reliable st gen log := by
  intro _ hrun
  rw [h.running] at hrun
  cases hrun

theorem Over.reliable {fin ann : Status} (h : Over fin ann st gen log) : Reliable st gen log := by
  intro _ _
  obtain ⟨hhead, rfl⟩ | ⟨hhead, hstep, htotal⟩ := h.newest
  · apply iff_of_true ⟨st, h.final, rfl, rfl, rfl⟩
    cases log with
    | nil => trivial
    | cons e log =>
      cases hhead
      trivial
  · have hann := h.announced
    cases log with
    | nil => cases hhead
    | cons e log =>
      cases hhead
      constructor
      · rintro ⟨fin', hf, -, ht, hp⟩
        obtain rfl := h.unique fin' hf
        exact ⟨ann, hann, by rw [← h.total, ← ht, htotal], by rw [← h.project, hp]⟩
      · rintro ⟨ann', ha, ht, hp⟩
        obtain rfl : ann' = ann := Option.some.inj (ha.symm.trans hann)
        exact ⟨fin, h.final, by rw [hstep, h.step ht], by rw [htotal, h.total, ht],
          by rw [← hp, h.project]⟩

theorem reliable_of_atRest (h : AtRest st gen log) : Reliable st gen log := by
  obtain rfl | ⟨fin, ann, hover⟩ := h.2
  · exact fun h => absurd h (by decide)
  · exact hover.reliable

theorem numbered_bump (h : AtRest st gen log) :
    Numbered (gen + 1) st (gen + 1) (.bump (gen + 1) :: log) :=
  ⟨rfl, rfl, h.1.bump (gen + 1)⟩

theorem atRest_notFound (h : AtRest st gen log) (st' : Status) (hs : st'.step = 0)
    (ht : st'.total = 0) : AtRest st' gen (.status .notFound st' :: log) := by
  refine ⟨h.1.status (by rintro _ ⟨⟩) st', h.2.imp_right ?_⟩
  rintro ⟨fin, ann, ho⟩
  refine ⟨fin, ann, List.mem_cons_of_mem _ ho.final, fun fin' hf => ?_, ho.announced, ho.total,
    ho.project, ho.step, .inr ⟨rfl, hs, ht⟩⟩
  obtain hf | hf := List.mem_cons.mp hf
  · cases hf
  · exact ho.unique fin' hf

theorem running_start (h : Numbered job.number st gen log) (step : Int) (msg : Text) :
    Running job ⟨true, step, job.total, job.project, msg⟩ gen
      (.status (.progress job.number) ⟨true, step, job.total, job.project, msg⟩ :: log) :=
  ⟨h.1, rfl, h.2.2.status (by rintro _ ⟨⟩) _, _, rfl, rfl, rfl⟩

theorem running_progress (h : Running job st gen log) (step : Int) (msg : Text) :
    Running job ⟨true, step, job.total, job.project, msg⟩ gen
      (.status (.progress job.number) ⟨true, step, job.total, job.project, msg⟩ :: log) :=
  ⟨h.number, rfl, h.before.status (by rintro _ ⟨⟩) _, _, rfl, rfl, rfl⟩

theorem atRest_final (h : Running job st gen log) (step : Int) (msg : Text)
    (hs : job.total = 0 → step = 0) :
    AtRest ⟨false, step, job.total, job.project, msg⟩ gen
      (.status (.final job.number) ⟨false, step, job.total, job.project, msg⟩ :: log) := by
  obtain ⟨hnum, -, hbefore, ann, hann, ht, hp⟩ := h
  subst hnum
  refine ⟨(hbefore.mono (Nat.le_succ _)).status (fun n hn => ?_) _, .inr
    ⟨_, ann, List.mem_cons_self, fun fin hf => ?_, hann, ht.symm, hp.symm, ?_, .inl ⟨rfl, rfl⟩⟩⟩
  · cases hn
    exact Nat.lt_succ_self _
  · obtain hf | hf := List.mem_cons.mp hf
    · cases hf
      rfl
    · exact absurd rfl (hbefore _ _ hf).ne
  · rw [ht]
    exact hs

end Phases

section Run

variable {α : Type} {P Q : Phase} {R : α → World → Prop} {w : World} {job : Job}

structure Stands (P : Phase) (w : World) : Prop where
  coherent : ∀ st, w.reading = some st → st = w.app.status
  phase : P w.app.status w.app.gen w.log

theorem Stands.mono (h : Stands P w) (hPQ : P w.app.status w.app.gen w.log →
    Q w.app.status w.app.gen w.log) : Stands Q w :=
  ⟨h.coherent, hPQ h.phase⟩

theorem stable_stands (P : Phase) : Stable system (Stands P) := by
  rintro w w' h hr
  cases hr with
  | enqueue cmd hfree => exact ⟨h.coherent, h.phase⟩
  | requestStop hfree => exact ⟨h.coherent, h.phase⟩
  | lock hfree => exact ⟨fun st hst => (Option.some.inj hst).symm, h.phase⟩
  | load st hst => exact ⟨nofun, h.phase⟩

def Outside : Req → Prop
  | .bumpGeneration | .setStatus _ _ => False
  | _ => True

abbrev Ends (R : α → World → Prop) (p : M α) (w : World) : Prop :=
  Safe system (fun _ => Stands Reliable) R (fun _ => Stands Reliable) p w

theorem ends_outside (hP : ∀ st gen log, P st gen log → Reliable st gen log) (hw : Stands P w)
    {q : Req} (hq : Outside q) {k : Ans q → M α}
    (hk : ∀ a w, Stands P w → Ends R (k a) w) : Ends R (.call q k) w := by
  refine Safe.call (stable_stands P) hw (fun _ h => h.mono (hP _ _ _)) fun w a w' h hx => hk a w' ?_
  cases q with
  | bumpGeneration | setStatus => exact hq.elim
  | takeCommand | takeStop =>
    obtain ⟨-, -, rfl⟩ := hx
    exact ⟨h.coherent, h.phase⟩
  | setProjects =>
    obtain ⟨-, rfl⟩ := hx
    exact ⟨h.coherent, h.phase⟩
  | _ =>
    obtain rfl : w' = w := hx
    exact h

theorem ends_setStatus (hP : ∀ st gen log, P st gen log → Reliable st gen log) (hw : Stands P w)
    {site : Site} {st : Status} {k : Unit → M α}
    (hQ : ∀ st' gen log, P st' gen log → Q st gen (.status site st :: log))
    (hk : ∀ w, Stands Q w → Ends R (k ()) w) : Ends R (.call (.setStatus site st) k) w := by
  apply Safe.call (stable_stands P) hw (fun _ h => h.mono (hP _ _ _))
  rintro w _ w' h ⟨hfree, rfl⟩
  refine hk _ ⟨fun st' hst => ?_, hQ _ _ _ h.phase⟩
  rw [hfree] at hst
  cases hst

theorem ends_bumpGeneration (hw : Stands AtRest w) {k : Nat → M α}
    (hk : ∀ n w, Stands (Numbered n) w → Ends R (k n) w) : Ends R (.call .bumpGeneration k) w := by
  refine Safe.call (stable_stands AtRest) hw
    (fun _ h => h.mono reliable_of_atRest) ?_
  rintro w _ w' h ⟨rfl, rfl⟩
  exact hk _ _ ⟨h.coherent, numbered_bump h.phase⟩

def Swept (job : Job) (s : Sweep) : Prop := 0 ≤ s.k ∧ (job.total = 0 → s.lastK = 0)

def AtHead : Stage → World → Prop
  | .start | .work => Stands AtRest
  | .sweep job s | .nap job s _ => fun w => Stands (Running job) w ∧ Swept job s

abbrev AtEnd : Stage ⊕ Unit → World → Prop := Sum.elim AtHead fun _ => Stands Reliable

theorem ends_final {step : Int} {msg : Text} (hw : Stands (Running job) w)
    (hs : job.total = 0 → step = 0) :
    Ends AtEnd (do
      previewStatus (.final job.number) false step job.total job.project msg
      pure (.inl .work)) w :=
  ends_setStatus (fun _ _ _ => reliable_of_running) hw
    (fun _ _ _ h => atRest_final h step msg hs) fun _ h => h

theorem ends_renderJob (hw : Stands (Numbered job.number) w) : Ends AtEnd (renderJob job) w := by
  refine ends_setStatus (fun _ _ _ => reliable_of_numbered) hw
    (fun _ _ _ h => running_start h 0 _) fun w h => ?_
  refine ends_outside (fun _ _ _ => reliable_of_running) h (by exact trivial) fun _ w h => ?_
  refine ends_outside (fun _ _ _ => reliable_of_running) h (by exact trivial) fun _ w h => ?_
  exact ends_final h id

theorem ends_testrunJob (hw : Stands (Numbered job.number) w) :
    Ends AtEnd (testrunJob job) w := by
  refine ends_outside (fun _ _ _ => reliable_of_numbered) hw (by exact trivial) fun _ w h => ?_
  refine ends_setStatus (fun _ _ _ => reliable_of_numbered) h
    (fun _ _ _ h => running_start h 0 _) fun w h => ?_
  refine ends_outside (fun _ _ _ => reliable_of_running) h (by exact trivial) fun _ w h => ?_
  refine ends_outside (fun _ _ _ => reliable_of_running) h (by exact trivial) fun _ w h => ?_
  exact ⟨h, le_refl 0, fun _ => rfl⟩

theorem ends_previewJob {cmd : PreviewCommand} {run : Job → M (Stage ⊕ Unit)}
    (hrun : ∀ job w, Stands (Numbered job.number) w → Ends AtEnd (run job) w)
    (hw : Stands AtRest w) : Ends AtEnd (previewJob cmd run) w := by
  refine ends_outside (fun _ _ _ => reliable_of_atRest) hw (by exact trivial) fun info w h => ?_
  cases info with
  | error e => exact h.mono reliable_of_atRest
  | ok info =>
    cases info with
    | none =>
      exact ends_setStatus (fun _ _ _ => reliable_of_atRest) h
        (fun _ _ _ h => atRest_notFound h _ rfl rfl) fun _ h => h
    | some filePath =>
      refine ends_bumpGeneration h fun n w h => ?_
      refine ends_outside (fun _ _ _ => reliable_of_numbered) h (by exact trivial) fun size w h => ?_
      cases size with
      | error e => exact h.mono reliable_of_numbered
      | ok size => exact hrun _ w h

theorem ends_listProjects {cfg : Config} {f : Unit → M α} (hw : Stands AtRest w)
    (hf : ∀ w, Stands AtRest w → Ends R (f ()) w) : Ends R (listProjects cfg >>= f) w := by
  refine ends_outside (fun _ _ _ => reliable_of_atRest) hw (by exact trivial) fun names w h => ?_
  cases names with
  | error e =>
    exact ends_outside (fun _ _ _ => reliable_of_atRest) h (by exact trivial) fun _ => hf
  | ok names =>
    exact ends_outside (fun _ _ _ => reliable_of_atRest) h (by exact trivial) fun _ => hf

theorem ends_workBody (cfg : Config) (hw : Stands AtRest w) : Ends AtEnd (workBody cfg) w := by
  refine ends_outside (fun _ _ _ => reliable_of_atRest) hw (by exact trivial) fun run w h => ?_
  cases run with
  | false => exact h.mono reliable_of_atRest
  | true =>
    refine ends_outside (fun _ _ _ => reliable_of_atRest) h (by exact trivial) fun cmd w h => ?_
    cases cmd with
    | none => exact h
    | some cmd =>
      obtain ⟨action, project, intervalMs⟩ := cmd
      cases action with
      | list => exact ends_listProjects h fun _ h => h
      | render => exact ends_previewJob (fun _ _ => ends_renderJob) h
      | testrun => exact ends_previewJob (fun _ _ => ends_testrunJob) h
      | other => exact h

theorem ends_nextStep {s : Sweep} (hw : Stands (Running job) w) (hs : Swept job s) :
    Ends AtEnd (nextStep job s) w :=
  ⟨hw, by have := hs.1; show 0 ≤ s.k + 1; omega, hs.2⟩

theorem ends_waitStep {s : Sweep} (hw : Stands (Running job) w) (hs : Swept job s) :
    Ends AtEnd (waitStep job s) w := by
  rw [waitStep]
  split
  · exact ⟨hw, hs⟩
  split
  · exact ends_outside (fun _ _ _ => reliable_of_running) hw (by exact trivial)
      fun _ _ h => ends_nextStep h hs
  · exact ends_nextStep hw hs

theorem ends_liveStep {s : Sweep} (hw : Stands (Running job) w) (hk : 0 ≤ s.k)
    (hlt : s.k < job.total) : Ends AtEnd (liveStep job s) w := by
  have hnone : ∀ n : Int, job.total = 0 → n = 0 := by omega
  refine ends_outside (fun _ _ _ => reliable_of_running) hw (by exact trivial) fun _ w h => ?_
  refine ends_outside (fun _ _ _ => reliable_of_running) h (by exact trivial) fun due w h => ?_
  simp only [Prog.bind]
  split
  · refine ends_outside (fun _ _ _ => reliable_of_running) h (by exact trivial) fun _ w h => ?_
    refine ends_setStatus (fun _ _ _ => reliable_of_running) h
      (fun _ _ _ h => running_progress h _ _) fun w h => ?_
    exact ends_waitStep h ⟨hk, hnone _⟩
  · exact ends_waitStep h ⟨hk, hnone _⟩

theorem ends_sweepStep {s : Sweep} (hw : Stands (Running job) w) (hk : 0 ≤ s.k)
    (hlt : s.k < job.total) : Ends AtEnd (sweepStep job s) w := by
  rw [sweepStep_eq]
  split
  · exact ends_outside (fun _ _ _ => reliable_of_running) hw (by exact trivial)
      fun _ _ h => ends_liveStep h hk hlt
  · exact ends_liveStep hw hk hlt

theorem ends_endSweep {s : Sweep} (hw : Stands (Running job) w) (hs : Swept job s) :
    Ends AtEnd (endSweep job s) w :=
  ends_outside (fun _ _ _ => reliable_of_running) hw (by exact trivial)
    fun _ _ h => ends_final h hs.2

theorem ends_finishSweep {s : Sweep} (hw : Stands (Running job) w) (hs : Swept job s) :
    Ends AtEnd (finishSweep job s) w := by
  rw [finishSweep_eq]
  split
  · exact ends_outside (fun _ _ _ => reliable_of_running) hw (by exact trivial)
      fun _ _ h => ends_endSweep h hs
  · exact ends_endSweep hw hs

theorem ends_sweepBody {s : Sweep} (hw : Stands (Running job) w) (hs : Swept job s) :
    Ends AtEnd (sweepBody job s) w := by
  rw [sweepBody]
  split
  · exact ends_finishSweep hw hs
  rename_i hlt
  refine ends_outside (fun _ _ _ => reliable_of_running) hw (by exact trivial) fun run w h => ?_
  cases run with
  | false => exact ends_finishSweep h hs
  | true =>
    cases hstop : s.stopped with
    | true => exact ends_finishSweep h hs
    | false => exact ends_sweepStep h hs.1 (by simpa using hlt)

theorem ends_napBody {s : Sweep} {slept : Int} (hw : Stands (Running job) w) (hs : Swept job s) :
    Ends AtEnd (napBody job s slept) w := by
  rw [napBody]
  split
  · exact ends_nextStep hw hs
  refine ends_outside (fun _ _ _ => reliable_of_running) hw (by exact trivial) fun run w h => ?_
  cases run with
  | false => exact ends_nextStep h hs
  | true =>
    refine ends_outside (fun _ _ _ => reliable_of_running) h (by exact trivial) fun stop w h => ?_
    cases stop with
    | true => exact ends_nextStep h hs
    | false => exact ⟨h, hs⟩

theorem ends_previewWorkerLoop (cfg : Config) (stage : Stage) (w : World) (hw : AtHead stage w) :
    Ends AtEnd (previewWorkerLoop cfg stage) w := by
  cases stage with
  | start => exact ends_listProjects hw fun _ h => h
  | work => exact ends_workBody cfg hw
  | sweep job s => exact ends_sweepBody hw.1 hw.2
  | nap job s slept => exact ends_napBody hw.1 hw.2

theorem stable_atHead (stage : Stage) : Stable system (AtHead stage) := by
  cases stage with
  | start | work => exact stable_stands AtRest
  | sweep job s | nap job s slept =>
    exact fun w w' h hr => ⟨stable_stands (Running job) w w' h.1 hr, h.2⟩

theorem stands_of_atHead {stage : Stage} (h : AtHead stage w) : Stands Reliable w := by
  cases stage with
  | start | work => exact Stands.mono h reliable_of_atRest
  | sweep job s | nap job s slept => exact h.1.mono reliable_of_running

theorem reliable_of_reachable {cfg : Config} {c : Conf Req Ans Text Stage Unit World}
    (hc : Reachable system (previewWorkerLoop cfg) .start {} c) : Stands Reliable c.world := by
  have hinit : Stands AtRest {} := by
    refine ⟨nofun, fun job fin hf => ?_, .inl rfl⟩
    cases hf
  exact reachable_invariant stable_atHead (fun _ => stable_stands _) (fun _ => stable_stands _)
    (ends_previewWorkerLoop cfg) (fun _ _ => stands_of_atHead) (fun _ _ h => h) (fun _ _ h => h)
    (i := .start) hinit hc

/-- In every run, when `status()` reads `running = false` and loads the number of a job, this
job has ended and the values are its own if and only if the status was not that of another. -/
theorem reported_iff_unmixed (cfg : Config) (c : Conf Req Ans Text Stage Unit World)
    (hc : Reachable system (previewWorkerLoop cfg) .start {} c) (st : Status)
    (hread : c.world.reading = some st) (hgen : 1 ≤ c.world.app.gen) (hrun : st.running = false) :
    Reported c.world.app.gen st c.world.log ↔ Unmixed c.world.log := by
  have h := reliable_of_reachable hc
  obtain rfl := h.coherent st hread
  exact h.phase hgen hrun

def goOn : Move Req Ans World := .run fun q w =>
  match q with
  | .takeCommand => (w.app.takeCommand.1, { w with app := w.app.takeCommand.2 })
  | .takeStop => (w.app.takeStop.1, { w with app := w.app.takeStop.2 })
  | .setProjects folder projects => ((), { w with app := w.app.setProjects folder projects })
  | .bumpGeneration => (w.app.gen + 1,
      { w with app := w.app.bumpGeneration, log := .bump (w.app.gen + 1) :: w.log })
  | .setStatus site st => ((), { w with app := w.app.setStatus st, log := .status site st :: w.log })
  | .listProjects _ => (.ok [], w)
  | .getProjectInfo _ => (.ok (some []), w)
  | .commands _ => (.ok 1, w)
  | .running => (true, w)
  | .pushTime => (true, w)
  | .renderRange _ _ _ => ((), w)
  | .baseImage _ => ((), w)
  | .pushMirrored _ => ((), w)

def requestRender : Move Req Ans World :=
  .env fun w => { w with app := w.app.enqueue ⟨.render, ['p'], 0⟩ }

def renderRun (n : Nat) : Conf Req Ans Text Stage Unit World :=
  play (previewWorkerLoop ⟨[], 1⟩)
    (List.replicate 3 goOn ++ requestRender :: List.replicate (4 + n) goOn) ⟨.ret (.inl .start), {}⟩

theorem goOn_soundIn : goOn.SoundIn system fun w => w.reading = none := by
  intro q w hw
  cases q with
  | takeCommand | takeStop => exact ⟨⟨hw, rfl, rfl⟩, hw⟩
  | setProjects | setStatus => exact ⟨⟨hw, rfl⟩, hw⟩
  | bumpGeneration => exact ⟨⟨rfl, rfl⟩, hw⟩
  | _ => exact ⟨rfl, hw⟩

theorem requestRender_soundIn : requestRender.SoundIn system fun w => w.reading = none :=
  fun w hw => ⟨.enqueue w _ hw, hw⟩

theorem renderRun_read (n : Nat) (hfree : (renderRun n).world.reading = none) :
    Reachable system (previewWorkerLoop ⟨[], 1⟩) .start {}
      ⟨(renderRun n).code, { (renderRun n).world with
        reading := some (renderRun n).world.app.status }⟩ := by
  have hrun : Reachable system (previewWorkerLoop ⟨[], 1⟩) .start {} (renderRun n) := by
    refine play_reachable_in (I := fun w : World => w.reading = none) (fun m hm => ?_)
      Stage.start rfl
    simp only [List.mem_append, List.mem_cons, List.mem_replicate] at hm
    obtain ⟨-, rfl⟩ | rfl | ⟨-, rfl⟩ := hm
    · exact goOn_soundIn
    · exact requestRender_soundIn
    · exact goOn_soundIn
  exact hrun.tail (.rely _ (.lock _ hfree))

/-- The job has its number, and its file is not parsed yet. -/
theorem reported_numberedJob : ¬∀ (cfg : Config) (c : Conf Req Ans Text Stage Unit World),
    Reachable system (previewWorkerLoop cfg) .start {} c → ∀ st, c.world.reading = some st →
      1 ≤ c.world.app.gen → st.running = false → Reported c.world.app.gen st c.world.log := by
  intro h
  obtain ⟨fin, hfin, -⟩ := h _ _ (renderRun_read 1 (by decide +kernel)) _ rfl (by decide +kernel)
    (by decide +kernel)
  have hlog : (renderRun 1).world.log = [.bump 1] := by rfl
  simp only [hlog, List.mem_singleton] at hfin
  cases hfin

theorem reported_renderedJob :
    Reported 1 ⟨false, 1, 1, ['p'], []⟩ (renderRun 6).world.log := by
  have h := reported_iff_unmixed _ _ (renderRun_read 6 (by decide +kernel)) _ rfl
    (by decide +kernel) (by decide +kernel)
  exact h.mpr trivial

end Run

end Datenbereitstellung.PreviewGeneration
