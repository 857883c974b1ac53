import Datenbereitstellung.Lib.Rely
import Datenbereitstellung.PreviewWorker

namespace Datenbereitstellung.PreviewJobs

open Strings AppState PreviewWorker Lib.Program Lib.Rely

section Endpoints

variable (s : State)

def getProjects : State := s.enqueue ⟨.list, [], 0⟩

/-- What `readProject` has read from the body; `none` is the answer 400. -/
def postFull (project : Text) : Option State :=
  if project.isEmpty then none else some (s.enqueue ⟨.render, project, 0⟩)

def postTestrun (project : Text) (interval : Int) : Option State :=
  if project.isEmpty then none
  else
    let interval := if interval < 0 then 0 else interval
    let interval := if interval > 60000 then 60000 else interval
    some (s.enqueue ⟨.testrun, project, interval⟩)

def postStop : State := s.requestStop

end Endpoints

section Accounts

def IsJob (cmd : PreviewCommand) : Prop := cmd.action = .render ∨ cmd.action = .testrun

instance (cmd : PreviewCommand) : Decidable (IsJob cmd) :=
  inferInstanceAs (Decidable (_ ∨ _))

def jobs : Option PreviewCommand → Nat
  | none => 0
  | some cmd => if IsJob cmd then 1 else 0

/-- The jobs that were answered with `ok: true`. Of these `replaced` were replaced in the slot by a
later job and `displaced` by the command to list the projects, and `unknown` were taken whose
project was not found. -/
structure World where
  app : State := {}
  accepted : Nat := 0
  replaced : Nat := 0
  displaced : Nat := 0
  unknown : Nat := 0

def World.accept (w : World) (app : State) : World :=
  { w with app := app, accepted := w.accepted + 1, replaced := w.replaced + jobs w.app.pending }

inductive Http : World → World → Prop
  | getProjects (w : World) : Http w
      { w with app := getProjects w.app, displaced := w.displaced + jobs w.app.pending }
  | postFull (w : World) (project : Text) (app : State) (h : postFull w.app project = some app) :
      Http w (w.accept app)
  | postTestrun (w : World) (project : Text) (interval : Int) (app : State)
      (h : postTestrun w.app project interval = some app) : Http w (w.accept app)
  | postStop (w : World) : Http w { w with app := postStop w.app }

def system : System Req Ans World where
  exec
    | .takeCommand, w, cmd, w' =>
      cmd = w.app.takeCommand.1 ∧ w' = { w with app := w.app.takeCommand.2 }
    | .takeStop, w, stop, w' => stop = w.app.takeStop.1 ∧ w' = { w with app := w.app.takeStop.2 }
    | .setProjects folder projects, w, _, w' =>
      w' = { w with app := w.app.setProjects folder projects }
    | .getProjectInfo _, w, info, w' =>
      w' = { w with unknown := w.unknown + if info = .ok none then 1 else 0 }
    | .bumpGeneration, w, number, w' =>
      number = w.app.gen + 1 ∧ w' = { w with app := w.app.bumpGeneration }
    | .setStatus _ st, w, _, w' => w' = { w with app := w.app.setStatus st }
    | _, w, _, w' => w' = w
  rely := Http

/-- The worker is about to look into the slot. -/
def Waiting (cfg : Config) (code : M (Stage ⊕ Unit)) : Prop :=
  code = .ret (.inl .work) ∨ code = workBody cfg ∨ ∃ k, code = .call .takeCommand k

end Accounts

section Conservation

variable {α : Type} {held : Nat} {w : World} {cfg : Config} {job : Job}

/-- The worker has `held` jobs in hand that it neither numbered nor gave up. -/
def Balanced (held : Nat) (w : World) : Prop :=
  w.app.gen + w.replaced + w.displaced + w.unknown + jobs w.app.pending + held = w.accepted

theorem balanced_accept (h : Balanced held w) {cmd : PreviewCommand} (hcmd : IsJob cmd) :
    Balanced held (w.accept (w.app.enqueue cmd)) := by
  simp only [Balanced, World.accept, State.enqueue, jobs, if_pos hcmd] at h ⊢
  omega

theorem stable_balanced (held : Nat) : Stable system (Balanced held) := by
  intro w w' h hr
  cases hr with
  | getProjects =>
    have hlist : ¬IsJob ⟨.list, [], 0⟩ := by decide
    simp only [Balanced, getProjects, State.enqueue, jobs, if_neg hlist] at h ⊢
    omega
  | postFull project app happ =>
    unfold postFull at happ
    split at happ
    · cases happ
    · cases happ
      exact balanced_accept h (.inl rfl)
  | postTestrun project interval app happ =>
    unfold postTestrun at happ
    split at happ
    · cases happ
    · cases happ
      exact balanced_accept h (.inr rfl)
  | postStop => exact h

theorem balanced_take (h : Balanced 0 w) :
    Balanced (jobs w.app.pending) { w with app := w.app.takeCommand.2 } := by
  simp only [Balanced, State.takeCommand, jobs] at h ⊢
  omega

theorem balanced_unknown (h : Balanced 1 w) : Balanced 0 { w with unknown := w.unknown + 1 } := by
  simp only [Balanced] at h ⊢
  omega

theorem balanced_bump (h : Balanced 1 w) : Balanced 0 { w with app := w.app.bumpGeneration } := by
  simp only [Balanced, State.bumpGeneration] at h ⊢
  omega

def Settled : Req → World → Prop
  | .running | .takeCommand => Balanced 0
  | _ => fun _ => True

abbrev Settles (R : α → World → Prop) (p : M α) (w : World) : Prop :=
  Safe system Settled R (fun _ _ => True) p w

def Outside : Req → Prop
  | .takeCommand | .getProjectInfo _ | .bumpGeneration => False
  | _ => True

theorem keeps_outside : Keeps system Outside (Balanced held) := by
  intro q hq w a w' h hx
  cases q with
  | takeCommand | getProjectInfo | bumpGeneration => exact hq.elim
  | takeStop =>
    obtain ⟨-, rfl⟩ := hx
    exact h
  | setProjects | setStatus =>
    obtain rfl := hx
    exact h
  | _ =>
    obtain rfl : w' = w := hx
    exact h

theorem settled_outside {q : Req} (h : Balanced 0 w) : Settled q w := by
  cases q with
  | running | takeCommand => exact h
  | _ => trivial

theorem settles_outside {p : M α} (hp : p.Only Outside) (h : Balanced 0 w) :
    Settles (fun _ => Balanced 0) p w :=
  Safe.only (stable_balanced 0) keeps_outside (fun _ _ _ => settled_outside) hp h

theorem outside_listProjects : (listProjects cfg).Only Outside := by
  refine ⟨trivial, fun names => ?_⟩
  cases names with
  | ok names => exact ⟨trivial, fun _ => trivial⟩
  | error e => exact ⟨trivial, fun _ => trivial⟩

theorem outside_of_drawing {p : M α} (hp : p.Only Drawing) : p.Only Outside := by
  refine hp.mono fun q hq => ?_
  cases q with
  | takeCommand | getProjectInfo | bumpGeneration => exact hq.elim
  | _ => trivial

theorem settles_previewJob {cmd : PreviewCommand} {run : Job → M (Stage ⊕ Unit)}
    (hrun : ∀ job, (run job).Only Outside) (h : Balanced 1 w) :
    Settles (fun _ => Balanced 0) (previewJob cmd run) w := by
  apply Safe.call (stable_balanced 1) h (fun _ _ => trivial)
  rintro w info _ h rfl
  cases info with
  | error e => trivial
  | ok info =>
    cases info with
    | none => exact settles_outside ⟨trivial, fun _ => trivial⟩ (balanced_unknown h)
    | some filePath =>
      apply Safe.call (stable_balanced 1) h (fun _ _ => trivial)
      rintro w number _ h ⟨-, rfl⟩
      apply Safe.call (stable_balanced 0) (balanced_bump h) (fun _ _ => trivial)
      rintro w size _ h rfl
      cases size with
      | error e => trivial
      | ok size => exact settles_outside (hrun _) h

theorem settles_workBody (h : Balanced 0 w) : Settles (fun _ => Balanced 0) (workBody cfg) w := by
  apply Safe.call (stable_balanced 0) h (fun _ h => h)
  rintro w run _ h rfl
  cases run with
  | false => exact h
  | true =>
    apply Safe.call (stable_balanced 0) h (fun _ h => h)
    rintro w _ _ h ⟨rfl, rfl⟩
    have htake := balanced_take h
    cases hp : w.app.pending with
    | none =>
      simp only [State.takeCommand, hp] at htake ⊢
      exact htake
    | some cmd =>
      simp only [State.takeCommand, hp] at htake ⊢
      obtain ⟨action, project, intervalMs⟩ := cmd
      cases action with
      | list =>
        exact Safe.only_bind (stable_balanced 0) keeps_outside (fun _ _ _ => settled_outside)
          outside_listProjects htake fun _ _ h => h
      | render => exact settles_previewJob (fun _ => outside_of_drawing drawing_renderJob) htake
      | testrun => exact settles_previewJob (fun _ => outside_of_drawing drawing_testrunJob) htake
      | other => exact htake

theorem settles_previewWorkerLoop (cfg : Config) (stage : Stage) (w : World) (h : Balanced 0 w) :
    Settles (Sum.elim (fun _ => Balanced 0) fun _ => Balanced 0)
      (previewWorkerLoop cfg stage) w := by
  refine Safe.mono (Q := fun _ => Balanced 0) ?_ (by rintro (_ | _) w h <;> exact h)
    fun _ _ h => h
  cases stage with
  | start =>
    exact Safe.only_bind (stable_balanced 0) keeps_outside (fun _ _ _ => settled_outside)
      outside_listProjects h fun _ _ h => h
  | work => exact settles_workBody h
  | sweep job s => exact settles_outside (outside_of_drawing (drawing_sweepBody s)) h
  | nap job s slept => exact settles_outside (outside_of_drawing (drawing_napBody s slept)) h

theorem balanced_of_waiting {c : Conf Req Ans Text Stage Unit World}
    (hc : Reachable system (previewWorkerLoop cfg) .start {} c) (hw : Waiting cfg c.code) :
    Balanced 0 c.world := by
  have h := reachable_safe (L := fun _ => Balanced 0) (P := fun _ => Balanced 0)
    (fun _ => stable_balanced 0) (fun _ => stable_balanced 0) (fun _ _ _ _ _ => trivial)
    (settles_previewWorkerLoop cfg) (i := .start) (w := {}) rfl hc
  obtain ⟨code, world⟩ := c
  obtain rfl | rfl | ⟨k, rfl⟩ := hw
  · exact h
  · exact (h world .refl).1
  · exact (h world .refl).1

/-- When the slot is empty and the worker waits, the counter has the number of the accepted jobs
without those replaced by a later one exactly if no job was replaced by the command to list the
projects, or taken for a project that was not found. -/
theorem gen_eq_iff (cfg : Config) (c : Conf Req Ans Text Stage Unit World)
    (hc : Reachable system (previewWorkerLoop cfg) .start {} c) (hw : Waiting cfg c.code)
    (hslot : c.world.app.pending = none) :
    (c.world.app.gen : Int) = c.world.accepted - c.world.replaced ↔
      c.world.displaced = 0 ∧ c.world.unknown = 0 := by
  have h := balanced_of_waiting hc hw
  simp only [Balanced, hslot, jobs] at h
  omega

end Conservation

section Runs

def goOn : Move Req Ans World := .run fun q w =>
  match q with
  | .takeCommand => (w.app.takeCommand.1, { w with app := w.app.takeCommand.2 })
  | .takeStop => (w.app.takeStop.1, { w with app := w.app.takeStop.2 })
  | .setProjects folder projects => ((), { w with app := w.app.setProjects folder projects })
  | .getProjectInfo _ => (.ok (some []), w)
  | .bumpGeneration => (w.app.gen + 1, { w with app := w.app.bumpGeneration })
  | .setStatus _ st => ((), { w with app := w.app.setStatus st })
  | .listProjects _ => (.ok [], w)
  | .commands _ => (.ok 1, w)
  | .running => (true, w)
  | .pushTime => (true, w)
  | .renderRange _ _ _ => ((), w)
  | .baseImage _ => ((), w)
  | .pushMirrored _ => ((), w)

def requestRender : Move Req Ans World := .env fun w => w.accept (w.app.enqueue ⟨.render, ['p'], 0⟩)

def requestProjects : Move Req Ans World :=
  .env fun w => { w with app := getProjects w.app, displaced := w.displaced + jobs w.app.pending }

theorem goOn_sound : goOn.Sound system := by
  intro q w
  cases q with
  | takeCommand | takeStop | bumpGeneration => exact ⟨rfl, rfl⟩
  | _ => rfl

theorem requestRender_sound : requestRender.Sound system :=
  fun w => .postFull w ['p'] _ rfl

theorem requestProjects_sound : requestProjects.Sound system := fun w => .getProjects w

def servedRun (requests : List (Move Req Ans World)) (n : Nat) :
    Conf Req Ans Text Stage Unit World :=
  play (previewWorkerLoop ⟨[], 1⟩) (List.replicate 3 goOn ++ (requests ++ List.replicate n goOn))
    ⟨.ret (.inl .start), {}⟩

theorem servedRun_reachable {requests : List (Move Req Ans World)}
    (h : ∀ m ∈ requests, m.Sound system) (n : Nat) :
    Reachable system (previewWorkerLoop ⟨[], 1⟩) .start {} (servedRun requests n) := by
  refine play_reachable (fun m hm => ?_) Stage.start ({} : World)
  simp only [List.mem_append, List.mem_replicate] at hm
  obtain ⟨-, rfl⟩ | hm | ⟨-, rfl⟩ := hm
  · exact goOn_sound
  · exact h m hm
  · exact goOn_sound

/-- A second browser opens the page before the worker has looked into the slot. -/
theorem gen_displacedJob : ¬∀ (cfg : Config) (c : Conf Req Ans Text Stage Unit World),
    Reachable system (previewWorkerLoop cfg) .start {} c → Waiting cfg c.code →
      c.world.app.pending = none →
      (c.world.app.gen : Int) = c.world.accepted - c.world.replaced := by
  intro h
  have hreq : ∀ m ∈ [requestRender, requestProjects], m.Sound system := by
    simp only [List.mem_cons, List.not_mem_nil, or_false, forall_eq_or_imp, forall_eq]
    exact ⟨requestRender_sound, requestProjects_sound⟩
  have hgen := h _ _ (servedRun_reachable hreq 5) (.inl rfl) rfl
  exact absurd hgen (by decide +kernel)

theorem gen_replacedJob :
    ((servedRun [requestProjects, requestRender, requestRender] 10).world.app.gen : Int) =
      (servedRun [requestProjects, requestRender, requestRender] 10).world.accepted -
        (servedRun [requestProjects, requestRender, requestRender] 10).world.replaced := by
  have hreq : ∀ m ∈ [requestProjects, requestRender, requestRender], m.Sound system := by
    simp only [List.mem_cons, List.not_mem_nil, or_false, forall_eq_or_imp, forall_eq]
    exact ⟨requestProjects_sound, requestRender_sound, requestRender_sound⟩
  exact (gen_eq_iff _ _ (servedRun_reachable hreq 10) (.inl rfl) rfl).mpr ⟨rfl, rfl⟩

end Runs

end Datenbereitstellung.PreviewJobs
