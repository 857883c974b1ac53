import Datenbereitstellung.Lib.Progress
import Datenbereitstellung.PreviewWorker

namespace Datenbereitstellung.StopRequests

open Strings AppState PreviewWorker Lib.Program Lib.Rely Lib.Progress
open ProjectManager (toInt32)

section Courses

/-- How far a command is: in the slot, taken, with the stop flag reset, in the sweep. -/
inductive Moment
  | waiting
  | taken
  | reset
  | sweeping
  deriving DecidableEq

inductive Look
  | takeStop
  | shutDown
  deriving DecidableEq

/-- What became of a command since it was enqueued: `stops` are the moments in which a stop was
requested, `commands` those of its project, `firstLook` is what the sweep looked at first: the stop
flag, or a `g_running` that is down. -/
structure Course where
  cmd : PreviewCommand
  moment : Moment := .waiting
  stops : List Moment := []
  commands : Nat := 0
  firstLook : Option Look := none

namespace Course

variable (t : Course)

def requestStop : Course := { t with stops := t.moment :: t.stops }

def take : Course := { t with moment := .taken }

def look (l : Look) : Course := { t with firstLook := t.firstLook.or (some l) }

def takeStop : Course :=
  match t.moment with
  | .taken => { t with moment := .reset }
  | .sweeping => t.look .takeStop
  | _ => t

def seeShutDown : Course := if t.moment = .sweeping then t.look .shutDown else t

def showOpen : Course := if t.moment = .reset then { t with moment := .sweeping } else t

def count (commands : Nat) : Course := { t with commands := commands }

end Course

/-- `slot` is the course of the command in the slot, `current` that of the one taken last. -/
structure World where
  app : State := {}
  slot : Option Course := none
  current : Option Course := none

inductive Http : World → World → Prop
  | enqueue (w : World) (cmd : PreviewCommand) :
      Http w { w with app := w.app.enqueue cmd, slot := some { cmd } }
  | requestStop (w : World) :
      Http w { app := w.app.requestStop, slot := w.slot.map Course.requestStop
               current := w.current.map Course.requestStop }

def World.course (w : World) (f : Course → Course) : World := { w with current := w.current.map f }

def system : System Req Ans World where
  exec
    | .running, w, up, w' => w' = if up then w else w.course Course.seeShutDown
    | .takeCommand, w, cmd, w' =>
      cmd = w.app.takeCommand.1 ∧
        w' = { app := w.app.takeCommand.2, slot := none
               current := (w.slot.map Course.take).or w.current }
    | .commands _, w, size, w' =>
      w' = match size with
        | .ok n => w.course fun t => t.count n
        | .error _ => w
    | .takeStop, w, stop, w' =>
      stop = w.app.takeStop.1 ∧
        w' = { w with app := w.app.takeStop.2, current := w.current.map Course.takeStop }
    | .pushMirrored full, w, _, w' => w' = if full then w.course Course.showOpen else w
    | .setProjects folder projects, w, _, w' =>
      w' = { w with app := w.app.setProjects folder projects }
    | .bumpGeneration, w, number, w' =>
      number = w.app.gen + 1 ∧ w' = { w with app := w.app.bumpGeneration }
    | .setStatus _ st, w, _, w' => w' = { w with app := w.app.setStatus st }
    | _, w, _, w' => w' = w
  rely := Http

/-- A test run that was to be stopped before its sweep has ended with its first step, one that
nobody stopped has not been stopped. -/
structure StopsRight (t : Course) (st : Status) : Prop where
  stopped : 1 ≤ t.commands → (∃ m ∈ t.stops, m ≠ .sweeping) → .sweeping ∉ t.stops →
    st.message = lit "Gestoppt" ∧ st.step = 1
  unstopped : t.stops = [] → st.message ≠ lit "Gestoppt"

/-- The stop was requested behind the reset of the flag, and before the service was shut down. -/
def InTime (t : Course) : Prop :=
  1 ≤ t.commands → (∃ m ∈ t.stops, m ≠ .sweeping) → .sweeping ∉ t.stops →
    .reset ∈ t.stops ∧ 1 ≤ toInt32 t.commands ∧ t.firstLook ≠ some .shutDown

end Courses

section Assertions

variable {α : Type} {w : World}

structure Linked (w : World) : Prop where
  pending : w.slot.map (·.cmd) = w.app.pending
  waiting : ∀ t, w.slot = some t → t.moment = .waiting ∧ (∀ m ∈ t.stops, m = .waiting) ∧
    t.firstLook = none

abbrev Phase := Option Course → Bool → Prop

def Phase.Closed (P : Phase) : Prop := ∀ t b, P t b → P (t.map Course.requestStop) true

structure Held (P : Phase) (w : World) : Prop where
  linked : Linked w
  phase : P w.current w.app.stop

theorem stable_linked : Stable system Linked := by
  rintro w w' h hr
  cases hr with
  | enqueue cmd =>
    refine ⟨rfl, fun t ht => ?_⟩
    obtain rfl := Option.some.inj ht
    exact ⟨rfl, nofun, rfl⟩
  | requestStop =>
    refine ⟨?_, fun t ht => ?_⟩
    · have hp := h.pending
      cases hs : w.slot with
      | none => simpa [hs, State.requestStop] using hp
      | some t => simpa [hs, State.requestStop, Course.requestStop] using hp
    · obtain ⟨t', ht', rfl⟩ := Option.map_eq_some_iff.mp ht
      obtain ⟨hm, hs, hl⟩ := h.waiting t' ht'
      refine ⟨hm, fun m hmem => ?_, hl⟩
      obtain rfl | hmem := List.mem_cons.mp hmem
      · exact hm
      · exact hs m hmem

theorem stable_held {P : Phase} (hP : P.Closed) : Stable system (Held P) := by
  intro w w' h hr
  refine ⟨stable_linked w w' h.linked hr, ?_⟩
  have hr : Http w w' := hr
  cases hr with
  | enqueue cmd => exact h.phase
  | requestStop => exact hP _ _ h.phase

def At (P : Course → Bool → Prop) : Phase := fun t b => ∃ c, t = some c ∧ P c b

theorem closed_at {P : Course → Bool → Prop} (h : ∀ t b, P t b → P t.requestStop true) :
    (At P).Closed := by
  rintro _ b ⟨t, rfl, ht⟩
  exact ⟨t.requestStop, rfl, h t b ht⟩

theorem closed_true : Phase.Closed fun _ _ => True := fun _ _ _ => trivial

def Due : Req → World → Prop
  | .setStatus (.final _) st, w =>
    ∀ t, w.current = some t → t.cmd.action = .testrun → (StopsRight t st ↔ InTime t)
  | _, _ => True

abbrev Ends (R : α → World → Prop) (p : M α) (w : World) : Prop :=
  Safe system Due R (fun _ _ => True) p w

def Still : Req → Prop
  | .running | .takeCommand | .commands _ | .takeStop | .setStatus (.final _) _
  | .pushMirrored true => False
  | _ => True

theorem due_of_still {q : Req} (hq : Still q) (w : World) : Due q w := by
  cases q with
  | setStatus site st =>
    cases site with
    | final job => exact hq.elim
    | notFound => trivial
    | progress job => trivial
  | _ => trivial

theorem ends_still {P : Phase} (hP : P.Closed) {R : α → World → Prop} {q : Req} (hq : Still q)
    (hw : Held P w) {k : Ans q → M α} (hk : ∀ a w, Held P w → Ends R (k a) w) :
    Ends R (.call q k) w := by
  refine Safe.call (stable_held hP) hw (fun w _ => due_of_still hq w) fun w a w' h hx => hk a w' ?_
  cases q with
  | running | takeCommand | commands | takeStop => exact hq.elim
  | pushMirrored full =>
    cases full with
    | true => exact hq.elim
    | false =>
      obtain rfl : w' = w := hx
      exact h
  | setProjects | setStatus =>
    obtain rfl := hx
    exact ⟨⟨h.linked.pending, h.linked.waiting⟩, h.phase⟩
  | bumpGeneration =>
    obtain ⟨-, rfl⟩ := hx
    exact ⟨⟨h.linked.pending, h.linked.waiting⟩, h.phase⟩
  | _ =>
    obtain rfl : w' = w := hx
    exact h

theorem held_course {P : Course → Bool → Prop} {Q : Course → Bool → Prop} {f : Course → Course}
    (h : ∀ t b, P t b → Q (f t) b) (hw : Held (At P) w) : Held (At Q) (w.course f) := by
  obtain ⟨hl, t, ht, hp⟩ := hw
  exact ⟨⟨hl.pending, hl.waiting⟩, f t, by simp [World.course, ht], h t _ hp⟩

theorem ends_running {P Q : Course → Bool → Prop} (hP : (At P).Closed) {R : α → World → Prop}
    (h : ∀ t b, P t b → Q t.seeShutDown b) (hw : Held (At P) w) {k : Bool → M α}
    (hup : ∀ w, Held (At P) w → Ends R (k true) w)
    (hdown : ∀ w, Held (At Q) w → Ends R (k false) w) : Ends R (.call .running k) w := by
  apply Safe.call (stable_held hP) hw (fun _ _ => trivial)
  rintro w up w' hw rfl
  cases up with
  | true => exact hup w hw
  | false => exact hdown _ (held_course h hw)

theorem ends_takeStop {P : Course → Bool → Prop} {Q : Bool → Course → Bool → Prop}
    (hP : (At P).Closed) {R : α → World → Prop}
    (h : ∀ t b, P t b → Q b t.takeStop false) (hw : Held (At P) w) {k : Bool → M α}
    (hk : ∀ b w, Held (At (Q b)) w → Ends R (k b) w) : Ends R (.call .takeStop k) w := by
  apply Safe.call (stable_held hP) hw (fun _ _ => trivial)
  rintro w stop w' ⟨hl, t, ht, hp⟩ ⟨rfl, rfl⟩
  refine hk _ _ ⟨⟨hl.pending, hl.waiting⟩, t.takeStop, by simp [ht], h t _ hp⟩

theorem ends_showOpen {P Q : Course → Bool → Prop} (hP : (At P).Closed) {R : α → World → Prop}
    (h : ∀ t b, P t b → Q t.showOpen b) (hw : Held (At P) w) {k : Unit → M α}
    (hk : ∀ w, Held (At Q) w → Ends R (k ()) w) : Ends R (.call (.pushMirrored true) k) w := by
  apply Safe.call (stable_held hP) hw (fun _ _ => trivial)
  rintro w _ w' hw rfl
  exact hk _ (held_course h hw)

end Assertions

section Sweeping

variable {t : Course} {b : Bool} {job : Job} {s : Sweep} {slept : Int}

/-- A stop that was requested since the flag was reset is still to be seen. -/
def Unseen (t : Course) (b : Bool) : Prop := t.firstLook = none ∧ (b = true ↔ .reset ∈ t.stops)

/-- If there was such a stop, it was not seen in the first step, as the service was shut down. -/
def Missed (t : Course) (b : Bool) : Prop :=
  (b = true → .reset ∈ t.stops) ∧ (.reset ∈ t.stops → t.firstLook = some .shutDown)

def Stopped (job : Job) (s : Sweep) (t : Course) : Prop :=
  .reset ∈ t.stops ∧ (s.lastK = 1 ∧ 1 ≤ job.total ∧ t.firstLook = some .takeStop ∨
    2 ≤ s.lastK ∧ t.firstLook = some .shutDown)

inductive Stepping (job : Job) (s : Sweep) (t : Course) (b : Bool) : Prop
  | first (hs : s.stopped = false) (hk : s.k = 0) (h : Unseen t b)
  | later (hs : s.stopped = false) (hk : 1 ≤ s.k) (h : Missed t b)
  | stopped (hs : s.stopped = true) (h : Stopped job s t)

inductive Napping (job : Job) (s : Sweep) (slept : Int) (t : Course) (b : Bool) : Prop
  | first (hk : s.k = 0) (hslept : slept < job.interval) (h : Unseen t b)
  | seen (hk : s.k = 0) (hb : b = false) (h : .reset ∉ t.stops)
  | later (hk : 1 ≤ s.k) (h : Missed t b)

inductive Ended (job : Job) (s : Sweep) (t : Course) : Prop
  | unstopped (hs : s.stopped = false)
      (h : .reset ∈ t.stops → 1 ≤ job.total → t.firstLook = some .shutDown)
  | stopped (hs : s.stopped = true) (h : Stopped job s t)

structure Sweeps (job : Job) (P : Course → Bool → Prop) (t : Course) (b : Bool) : Prop where
  moment : t.moment = .sweeping
  total : job.total = toInt32 t.commands
  phase : .sweeping ∉ t.stops → P t b

theorem closed_sweeps (P : Course → Bool → Prop) : (At (Sweeps job P)).Closed :=
  closed_at fun t _ h =>
    ⟨h.moment, h.total, fun hno => (hno (by simp [Course.requestStop, h.moment])).elim⟩

theorem Sweeps.imp {P Q : Course → Bool → Prop} (h : Sweeps job P t b)
    (hP : P t b → Q t b) : Sweeps job Q t b :=
  ⟨h.moment, h.total, fun hno => hP (h.phase hno)⟩

theorem Held.imp {P Q : Course → Bool → Prop} {w : World} (h : Held (At P) w)
    (hP : ∀ t b, P t b → Q t b) : Held (At Q) w := by
  obtain ⟨hl, t, ht, hp⟩ := h
  exact ⟨hl, t, ht, hP t _ hp⟩

theorem Sweeps.look {P Q : Course → Bool → Prop} {l : Look} {b' : Bool} (h : Sweeps job P t b)
    (hP : P t b → Q (t.look l) b') : Sweeps job Q (t.look l) b' :=
  ⟨h.moment, h.total, fun hno => hP (h.phase hno)⟩

theorem Sweeps.seeShutDown {P Q : Course → Bool → Prop} (h : Sweeps job P t b)
    (hP : P t b → Q (t.look .shutDown) b) : Sweeps job Q t.seeShutDown b := by
  rw [Course.seeShutDown, if_pos h.moment]
  exact h.look hP

theorem Sweeps.takeStop {P Q : Course → Bool → Prop} (h : Sweeps job P t b)
    (hP : P t b → Q (t.look .takeStop) false) : Sweeps job Q t.takeStop false := by
  have ht : t.takeStop = t.look .takeStop := by
    rw [Course.takeStop]
    rw [h.moment]
  rw [ht]
  exact h.look hP

theorem look_of_none {l : Look} (h : t.firstLook = none) : (t.look l).firstLook = some l := by
  rw [Course.look, h]
  rfl

theorem look_of_some {l l' : Look} (h : t.firstLook = some l') :
    (t.look l).firstLook = some l' := by
  rw [Course.look, h]
  rfl

theorem Missed.look (h : Missed t b) (l : Look) {b' : Bool} (hb : b' = true → b = true) :
    Missed (t.look l) b' :=
  ⟨fun ht => h.1 (hb ht), fun hr => look_of_some (h.2 hr)⟩

theorem Unseen.shutDown (h : Unseen t b) : Missed (t.look .shutDown) b :=
  ⟨h.2.mp, fun _ => look_of_none h.1⟩

theorem Unseen.takeStop (h : Unseen t true) (hs : s.lastK = 1) (ht : 1 ≤ job.total) :
    Stopped job s (t.look .takeStop) :=
  ⟨h.2.mp rfl, .inl ⟨hs, ht, look_of_none h.1⟩⟩

theorem Unseen.not_reset (h : Unseen t false) : .reset ∉ t.stops :=
  fun hr => absurd (h.2.mpr hr) (by decide)

theorem missed_of_not_reset (h : .reset ∉ t.stops) : Missed t false :=
  ⟨nofun, fun hr => (h hr).elim⟩

theorem Missed.takeStop (h : Missed t true) (hs : 2 ≤ s.lastK) (l : Look) :
    Stopped job s (t.look l) :=
  ⟨h.1 rfl, .inr ⟨hs, look_of_some (h.2 (h.1 rfl))⟩⟩

def finalStatus (job : Job) (s : Sweep) : Status :=
  ⟨false, s.lastK, job.total, job.project, if s.stopped then lit "Gestoppt" else []⟩

theorem stopsRight_iff (h : Sweeps job (fun t _ => Ended job s t) t b) :
    StopsRight t (finalStatus job s) ↔ InTime t := by
  by_cases hsweep : .sweeping ∈ t.stops
  · exact iff_of_true
      ⟨fun _ _ hno => (hno hsweep).elim, fun hnil => by rw [hnil] at hsweep; cases hsweep⟩
      fun _ _ hno => (hno hsweep).elim
  have hnil : t.stops = [] → .reset ∉ t.stops := fun hnil hr => by rw [hnil] at hr; cases hr
  cases h.phase hsweep with
  | unstopped hs he =>
    have hmsg : (finalStatus job s).message ≠ lit "Gestoppt" := by
      have hlit : [] ≠ lit "Gestoppt" := by decide +kernel
      simpa [finalStatus, hs] using hlit
    constructor
    · intro hright hc hm _
      exact (hmsg (hright.stopped hc hm hsweep).1).elim
    · intro hin
      refine ⟨fun hc hm hno => ?_, fun _ => hmsg⟩
      obtain ⟨hr, ht, hl⟩ := hin hc hm hno
      exact (hl (he hr (h.total ▸ ht))).elim
  | stopped hs hst =>
    obtain ⟨hr, ⟨hk, ht, hl⟩ | ⟨hk, hl⟩⟩ := hst
    · refine iff_of_true ⟨fun _ _ _ => ⟨?_, hk⟩, fun h => (hnil h hr).elim⟩ fun _ _ _ => ?_
      · simp [finalStatus, hs]
      · exact ⟨hr, h.total ▸ ht, by simp [hl]⟩
    · constructor
      · intro hright hc hm hno
        have hstep : s.lastK = 1 := (hright.stopped hc hm hno).2
        omega
      · intro hin
        exact ⟨fun hc hm hno => ((hin hc hm hno).2.2 hl).elim, fun h => (hnil h hr).elim⟩

end Sweeping

section Worker

variable {cfg : Config} {job : Job} {s : Sweep} {slept : Int} {w : World} {α : Type}

def AtHead : Stage → World → Prop
  | .start | .work => Held fun _ _ => True
  | .sweep job s => fun w => 0 ≤ s.k ∧ Held (At (Sweeps job (Stepping job s))) w
  | .nap job s slept => fun w =>
    (0 ≤ s.k ∧ s.stopped = false ∧ s.lastK = s.k + 1 ∧ s.k < job.total) ∧
      Held (At (Sweeps job (Napping job s slept))) w

abbrev AtEnd : Stage ⊕ Unit → World → Prop := Sum.elim AtHead fun _ => Held fun _ _ => True

theorem Held.forget {P : Phase} (h : Held P w) : Held (fun _ _ => True) w := ⟨h.linked, trivial⟩

theorem ends_final (hw : Held (At (Sweeps job fun t _ => Ended job s t)) w) :
    Ends AtEnd (do
      previewStatus (.final job.number) false s.lastK job.total job.project
        (if s.stopped then lit "Gestoppt" else [])
      pure (.inl .work)) w := by
  refine Safe.call (stable_held (closed_sweeps _)) hw ?_ ?_
  · rintro w ⟨-, t, ht, hs⟩ t' ht' -
    obtain rfl : t = t' := Option.some.inj (ht.symm.trans ht')
    exact stopsRight_iff hs
  · rintro w _ w' hw rfl
    exact ⟨⟨hw.linked.pending, hw.linked.waiting⟩, trivial⟩

theorem sweeps_showOpen {P : Course → Bool → Prop} {t : Course} {b : Bool} (h : Sweeps job P t b) :
    Sweeps job P t.showOpen b := by
  rw [Course.showOpen, if_neg (by rw [h.moment]; decide)]
  exact h

theorem ends_endSweep (hw : Held (At (Sweeps job fun t _ => Ended job s t)) w) :
    Ends AtEnd (endSweep job s) w :=
  ends_showOpen (closed_sweeps _) (fun _ _ => sweeps_showOpen) hw fun _ => ends_final

theorem ends_finishSweep (hw : Held (At (Sweeps job fun t _ => Ended job s t)) w) :
    Ends AtEnd (finishSweep job s) w := by
  rw [finishSweep_eq]
  split
  · exact ends_still (closed_sweeps _) (by exact trivial) hw fun _ _ => ends_endSweep
  · exact ends_endSweep hw

theorem ended_of_stepping {t : Course} {b : Bool} (h : Stepping job s t b)
    (hfirst : s.k = 0 → job.total < 1) : Ended job s t := by
  cases h with
  | first hs hk h => exact .unstopped hs fun _ ht => absurd ht (by have := hfirst hk; omega)
  | later hs hk h => exact .unstopped hs fun hr _ => h.2 hr
  | stopped hs h => exact .stopped hs h

theorem Stopped.look {t : Course} (h : Stopped job s t) (l : Look) : Stopped job s (t.look l) :=
  ⟨h.1, h.2.imp (fun h => ⟨h.1, h.2.1, look_of_some h.2.2⟩) fun h => ⟨h.1, look_of_some h.2⟩⟩

theorem ended_of_shutDown {t : Course} {b : Bool} (h : Stepping job s t b) :
    Ended job s (t.look .shutDown) := by
  cases h with
  | first hs hk h => exact .unstopped hs fun hr _ => h.shutDown.2 hr
  | later hs hk h => exact .unstopped hs fun hr _ => (h.look _ id).2 hr
  | stopped hs h => exact .stopped hs (h.look _)

theorem ends_nextStep (hk : 0 ≤ s.k)
    (hw : Held (At (Sweeps job fun t b => if s.stopped then Stopped job s t else Missed t b)) w) :
    Ends AtEnd (nextStep job s) w := by
  refine ⟨?_, hw.imp fun t b h => h.imp fun h => ?_⟩
  · show 0 ≤ s.k + 1
    omega
  · cases hs : s.stopped with
    | true =>
      rw [if_pos hs] at h
      exact .stopped rfl h
    | false =>
      rw [if_neg (by simp [hs])] at h
      have hk : 1 ≤ s.k + 1 := by omega
      exact .later rfl hk h

inductive Stepped (k : Int) (t : Course) (b : Bool) : Prop
  | first (hk : k = 0) (h : Unseen t b)
  | later (hk : 1 ≤ k) (h : Missed t b)

theorem missed_of_taken {t : Course} {r : Sweep} {b : Bool} (h : Stepped s.k t b)
    (hs : r.stopped = b) (hlast : r.lastK = s.k + 1) (ht : 1 ≤ job.total) :
    if r.stopped then Stopped job r (t.look .takeStop) else Missed (t.look .takeStop) false := by
  cases b with
  | true =>
    rw [if_pos hs]
    cases h with
    | first hk h => exact h.takeStop (by omega) ht
    | later hk h => exact h.takeStop (by omega) _
  | false =>
    rw [if_neg (by simp [hs])]
    cases h with
    | first hk h => exact missed_of_not_reset h.not_reset
    | later hk h => exact h.look _ id

theorem ends_waitStep (hk : 0 ≤ s.k) (hs : s.stopped = false) (hlast : s.lastK = s.k + 1)
    (ht : s.k < job.total) (hw : Held (At (Sweeps job (Stepped s.k))) w) :
    Ends AtEnd (waitStep job s) w := by
  rw [waitStep]
  split
  · rename_i hint
    refine ⟨⟨hk, hs, hlast, ht⟩, hw.imp fun t b h => h.imp fun h => ?_⟩
    cases h with
    | first hk h => exact .first hk hint h
    | later hk h => exact .later hk h
  split
  · refine ends_takeStop (Q := fun b => Sweeps job fun t b' =>
      if b then Stopped job { s with stopped := b } t else Missed t b') (closed_sweeps _)
      (fun t b h => h.takeStop fun h => ?_) hw fun b w hw => ?_
    · exact missed_of_taken (r := { s with stopped := b }) h rfl hlast (by omega)
    · exact ends_nextStep (s := { s with stopped := b }) hk hw
  · rename_i hmod
    refine ends_nextStep hk (hw.imp fun t b h => h.imp fun h => ?_)
    rw [if_neg (by simp [hs])]
    cases h with
    | first hk h => exact (hmod (by simp [hk])).elim
    | later hk h => exact h

theorem stepped_of_stepping {t : Course} {b : Bool} (hs : s.stopped = false)
    (h : Stepping job s t b) : Stepped s.k t b := by
  cases h with
  | first _ hk h => exact .first hk h
  | later _ hk h => exact .later hk h
  | stopped hst =>
    rw [hs] at hst
    cases hst

theorem ends_liveStep (hk : 0 ≤ s.k) (hs : s.stopped = false) (ht : s.k < job.total)
    (hw : Held (At (Sweeps job (Stepping job s))) w) : Ends AtEnd (liveStep job s) w := by
  refine ends_still (closed_sweeps _) (by exact trivial) hw fun _ w hw => ?_
  refine ends_still (closed_sweeps _) (by exact trivial) hw fun due w hw => ?_
  have hstepped : ∀ {w}, Held (At (Sweeps job (Stepping job s))) w →
      Held (At (Sweeps job (Stepped s.k))) w :=
    fun hw => hw.imp fun t b h => h.imp (stepped_of_stepping hs)
  simp only [Prog.bind]
  split
  · refine ends_still (closed_sweeps _) (by exact trivial) hw fun _ w hw => ?_
    refine ends_still (closed_sweeps _) (by exact trivial) hw fun _ w hw => ?_
    exact ends_waitStep hk hs rfl ht (hstepped hw)
  · exact ends_waitStep hk hs rfl ht (hstepped hw)

theorem ends_sweepStep (hk : 0 ≤ s.k) (hs : s.stopped = false) (ht : s.k < job.total)
    (hw : Held (At (Sweeps job (Stepping job s))) w) : Ends AtEnd (sweepStep job s) w := by
  rw [sweepStep_eq]
  split
  · exact ends_still (closed_sweeps _) (by exact trivial) hw fun _ _ => ends_liveStep hk hs ht
  · exact ends_liveStep hk hs ht hw

theorem ends_sweepBody (hk : 0 ≤ s.k) (hw : Held (At (Sweeps job (Stepping job s))) w) :
    Ends AtEnd (sweepBody job s) w := by
  rw [sweepBody]
  split
  · rename_i ht
    simp only [Bool.not_eq_true', decide_eq_false_iff_not, not_lt] at ht
    exact ends_finishSweep (hw.imp fun t b h => h.imp fun h => ended_of_stepping h (by omega))
  rename_i ht
  refine ends_running (closed_sweeps _) (fun t b h => h.seeShutDown ended_of_shutDown) hw
    (fun w hw => ?_) fun w hw => ends_finishSweep hw
  cases hs : s.stopped with
  | true =>
    refine ends_finishSweep (hw.imp fun t b h => h.imp fun h => ?_)
    cases h with
    | first hst => rw [hs] at hst; cases hst
    | later hst => rw [hs] at hst; cases hst
    | stopped hst h => exact .stopped hst h
  | false => exact ends_sweepStep hk hs (by simpa using ht) hw

theorem missed_of_napping {t : Course} {b : Bool} (h : Napping job s slept t b)
    (hslept : ¬slept < job.interval) : Missed t b := by
  cases h with
  | first _ hlt => exact (hslept hlt).elim
  | seen _ hb h => exact hb ▸ missed_of_not_reset h
  | later _ h => exact h

theorem missed_of_shutDown {t : Course} {b : Bool} (h : Napping job s slept t b) :
    Missed (t.look .shutDown) b := by
  cases h with
  | first _ _ h => exact h.shutDown
  | seen _ hb h => exact hb ▸ missed_of_not_reset h
  | later _ h => exact h.look _ id

theorem ends_napBody (hk : 0 ≤ s.k) (hs : s.stopped = false) (hlast : s.lastK = s.k + 1)
    (ht : s.k < job.total) (hw : Held (At (Sweeps job (Napping job s slept))) w) :
    Ends AtEnd (napBody job s slept) w := by
  have hnext : ∀ w, Held (At (Sweeps job Missed)) w → Ends AtEnd (nextStep job s) w := by
    refine fun w hw => ends_nextStep hk (hw.imp fun t b h => h.imp fun h => ?_)
    rwa [if_neg (by simp [hs])]
  rw [napBody]
  split
  · rename_i hslept
    refine hnext w (hw.imp fun t b h => h.imp fun h => missed_of_napping h (by simpa using hslept))
  refine ends_running (closed_sweeps _) (fun t b h => h.seeShutDown missed_of_shutDown) hw
    (fun w hw => ?_) hnext
  refine ends_takeStop (Q := fun b => Sweeps job fun t b' =>
    if b then Stopped job s t
    else Napping job s (slept + min 50 (job.interval - slept)) t b') (closed_sweeps _)
    (fun t b h => h.takeStop fun h => ?_) hw fun b w hw => ?_
  · cases b with
    | true =>
      cases h with
      | first hk _ h => exact h.takeStop (by omega) (by omega)
      | seen _ hb => cases hb
      | later hk h => exact h.takeStop (by omega) _
    | false =>
      cases h with
      | first hk _ h => exact .seen hk rfl h.not_reset
      | seen hk _ h => exact .seen hk rfl h
      | later hk h => exact .later hk (h.look _ id)
  · cases b with
    | true => exact ends_nextStep (s := { s with stopped := true }) hk hw
    | false => exact ⟨⟨hk, hs, hlast, ht⟩, hw⟩

structure Taken (cmd : PreviewCommand) (t : Course) : Prop where
  cmd : t.cmd = cmd
  moment : t.moment = .taken
  reset : .reset ∉ t.stops
  firstLook : t.firstLook = none

structure Prepared (job : Job) (t : Course) (b : Bool) : Prop where
  moment : t.moment = .reset
  total : job.total = toInt32 t.commands
  unseen : Unseen t b

theorem Taken.requestStop {cmd : PreviewCommand} {t : Course} (h : Taken cmd t) :
    Taken cmd t.requestStop :=
  ⟨h.cmd, h.moment, by simp [Course.requestStop, h.moment, h.reset], h.firstLook⟩

theorem closed_taken (cmd : PreviewCommand) : (At fun t _ => Taken cmd t).Closed :=
  closed_at fun _ _ => Taken.requestStop

theorem closed_counted (cmd : PreviewCommand) (n : Nat) :
    (At fun t _ => Taken cmd t ∧ t.commands = n).Closed :=
  closed_at fun _ _ h => ⟨h.1.requestStop, h.2⟩

theorem closed_prepared (job : Job) : (At (Prepared job)).Closed := by
  refine closed_at fun t _ h => ⟨h.moment, h.total, h.unseen.1, iff_of_true rfl ?_⟩
  simp [Course.requestStop, h.moment]

theorem ends_renderJob {cmd : PreviewCommand} {n : Nat} (hcmd : cmd.action = .render)
    (hw : Held (At fun t _ => Taken cmd t ∧ t.commands = n) w) : Ends AtEnd (renderJob job) w := by
  refine ends_still (closed_counted cmd n) (by exact trivial) hw fun _ w hw => ?_
  refine ends_still (closed_counted cmd n) (by exact trivial) hw fun _ w hw => ?_
  refine ends_showOpen (Q := fun t _ => t.cmd = cmd) (closed_counted cmd n)
    (fun t b h => ?_) hw fun w hw => ?_
  · rw [Course.showOpen]
    split
    · exact h.1.cmd
    · exact h.1.cmd
  refine Safe.call (stable_held (closed_at fun _ _ h => h)) hw ?_ ?_
  · rintro w ⟨-, t, ht, rfl⟩ t' ht' htest
    obtain rfl : t = t' := Option.some.inj (ht.symm.trans ht')
    rw [hcmd] at htest
    cases htest
  · rintro w _ w' hw rfl
    exact ⟨⟨hw.linked.pending, hw.linked.waiting⟩, trivial⟩

theorem ends_testrunJob {cmd : PreviewCommand} {n : Nat} (ht : job.total = toInt32 n)
    (hw : Held (At fun t _ => Taken cmd t ∧ t.commands = n) w) : Ends AtEnd (testrunJob job) w := by
  refine ends_takeStop (Q := fun _ => Prepared job) (closed_counted cmd n) (fun t b h => ?_) hw
    fun _ w hw => ?_
  · obtain ⟨h, rfl⟩ := h
    have htake : t.takeStop = { t with moment := .reset } := by
      rw [Course.takeStop]
      rw [h.moment]
    rw [htake]
    exact ⟨rfl, ht, h.firstLook, iff_of_false nofun h.reset⟩
  refine ends_still (closed_prepared job) (by exact trivial) hw fun _ w hw => ?_
  refine ends_still (closed_prepared job) (by exact trivial) hw fun _ w hw => ?_
  refine ends_showOpen (Q := Sweeps job (Stepping job {})) (closed_prepared job) (fun t b h => ?_)
    hw fun w hw => ⟨le_rfl, hw⟩
  rw [Course.showOpen, if_pos h.moment]
  exact ⟨rfl, h.total, fun _ => .first rfl rfl h.unseen⟩

theorem ends_previewJob {cmd : PreviewCommand} {run : Job → M (Stage ⊕ Unit)}
    (hrun : ∀ job n w, job.total = toInt32 n →
      Held (At fun t _ => Taken cmd t ∧ t.commands = n) w → Ends AtEnd (run job) w)
    (hw : Held (At fun t _ => Taken cmd t) w) : Ends AtEnd (previewJob cmd run) w := by
  refine ends_still (closed_taken cmd) (by exact trivial) hw fun info w hw => ?_
  cases info with
  | error e => trivial
  | ok info =>
    cases info with
    | none => exact ends_still (closed_taken cmd) (by exact trivial) hw fun _ w hw => hw.forget
    | some filePath =>
      refine ends_still (closed_taken cmd) (by exact trivial) hw fun number w hw => ?_
      apply Safe.call (stable_held (closed_taken cmd)) hw (fun _ _ => trivial)
      rintro w size w' hw rfl
      cases size with
      | error e => trivial
      | ok n =>
        apply hrun ⟨number, cmd.project, toInt32 n, cmd.intervalMs⟩ n _ (by dsimp only)
        exact held_course (fun t _ h => ⟨⟨h.cmd, h.moment, h.reset, h.firstLook⟩, rfl⟩) hw

theorem ends_listProjects {f : Unit → M α} {R : α → World → Prop}
    (hw : Held (fun _ _ => True) w)
    (hf : ∀ w, Held (fun _ _ => True) w → Ends R (f ()) w) : Ends R (listProjects cfg >>= f) w := by
  refine ends_still closed_true (by exact trivial) hw fun names w hw => ?_
  cases names with
  | error e => exact ends_still closed_true (by exact trivial) hw fun _ => hf
  | ok names => exact ends_still closed_true (by exact trivial) hw fun _ => hf

theorem held_takeCommand {cmd : PreviewCommand} (hw : Linked w) (hp : w.app.pending = some cmd) :
    Held (At fun t _ => Taken cmd t)
      { app := w.app.takeCommand.2, slot := none
        current := (w.slot.map Course.take).or w.current } := by
  have hcmd := hw.pending
  rw [hp] at hcmd
  obtain ⟨t, ht, rfl⟩ := Option.map_eq_some_iff.mp hcmd
  obtain ⟨-, hs, hl⟩ := hw.waiting t ht
  refine ⟨⟨rfl, nofun⟩, t.take, by simp [ht], rfl, rfl, fun hr => ?_, hl⟩
  cases hs _ hr

theorem ends_workBody (hw : Held (fun _ _ => True) w) : Ends AtEnd (workBody cfg) w := by
  apply Safe.call (stable_held closed_true) hw (fun _ _ => trivial)
  rintro w up w' hw rfl
  cases up with
  | false => exact ⟨⟨hw.linked.pending, hw.linked.waiting⟩, trivial⟩
  | true =>
    apply Safe.call (stable_held closed_true) hw (fun _ _ => trivial)
    rintro w _ _ hw ⟨rfl, rfl⟩
    cases hp : w.app.pending with
    | none =>
      rw [State.takeCommand, hp]
      exact ⟨⟨rfl, nofun⟩, trivial⟩
    | some cmd =>
      have htaken := held_takeCommand hw.linked hp
      rw [State.takeCommand, hp] at htaken ⊢
      obtain ⟨action, project, intervalMs⟩ := cmd
      cases action with
      | list => exact ends_listProjects htaken.forget fun _ h => h
      | render => exact ends_previewJob (fun _ _ _ _ => ends_renderJob rfl) htaken
      | testrun => exact ends_previewJob (fun _ _ _ ht => ends_testrunJob ht) htaken
      | other => exact htaken.forget

theorem ends_previewWorkerLoop (stage : Stage) (w : World) (hw : AtHead stage w) :
    Ends AtEnd (previewWorkerLoop cfg stage) w := by
  cases stage with
  | start => exact ends_listProjects hw fun _ h => h
  | work => exact ends_workBody hw
  | sweep job s => exact ends_sweepBody hw.1 hw.2
  | nap job s slept => exact ends_napBody hw.1.1 hw.1.2.1 hw.1.2.2.1 hw.1.2.2.2 hw.2

theorem stable_atHead (stage : Stage) : Stable system (AtHead stage) := by
  cases stage with
  | start | work => exact stable_held closed_true
  | sweep job s | nap job s slept =>
    exact fun w w' h hr => ⟨h.1, stable_held (closed_sweeps _) w w' h.2 hr⟩

theorem due_of_reachable {c : Conf Req Ans Text Stage Unit World}
    (hc : Reachable system (previewWorkerLoop cfg) .start {} c) {q : Req}
    {k : Ans q → M (Stage ⊕ Unit)} (hcode : c.code = .call q k) : Due q c.world :=
  reachable_call stable_atHead (fun _ => stable_held closed_true) (fun _ _ _ _ _ => trivial)
    ends_previewWorkerLoop (i := .start) (w := {}) ⟨⟨rfl, nofun⟩, trivial⟩ hc hcode

end Worker

section Ending

variable {cfg : Config} {job : Job} {s : Sweep}

/-- The worker is about to set the final status of the job. -/
def SetsFinal (number : Nat) (c : Conf Req Ans Text Stage Unit World) : Prop :=
  ∃ st k, c.code = .call (.setStatus (.final number) st) k

theorem exists_answer (q : Req) (w : World) : ∃ a w', system.exec q w a w' := by
  cases q with
  | running => exact ⟨true, w, rfl⟩
  | takeCommand | takeStop | bumpGeneration => exact ⟨_, _, rfl, rfl⟩
  | listProjects | getProjectInfo | commands => exact ⟨.error [], w, rfl⟩
  | pushTime => exact ⟨true, w, rfl⟩
  | _ => exact ⟨(), _, rfl⟩

abbrev Finishes (cfg : Config) (job : Job) (p : M (Stage ⊕ Unit)) (w : World) : Prop :=
  Eventually system (previewWorkerLoop cfg) (SetsFinal job.number) ⟨p, w⟩

theorem finishes_endSweep (s : Sweep) (w : World) : Finishes cfg job (endSweep job s) w :=
  eventually_call exists_answer (fun _ _ => .now ⟨_, _, rfl⟩) w

theorem finishes_finishSweep (s : Sweep) (w : World) : Finishes cfg job (finishSweep job s) w := by
  rw [finishSweep_eq]
  split
  · exact eventually_call exists_answer (fun _ => finishes_endSweep s) w
  · exact finishes_endSweep s w

theorem finishes_nap {k : Int}
    (hsweep : ∀ s w, s.k = k + 1 → Finishes cfg job (.ret (.inl (.sweep job s))) w) {s : Sweep}
    (hk : s.k = k) (n : Nat) {slept : Int} (hn : job.interval - slept ≤ n) (w : World) :
    Finishes cfg job (.ret (.inl (.nap job s slept))) w := by
  induction n generalizing slept w with
  | zero =>
    refine .loop fun w' _ => eventually_of_runs exists_answer (drawing_napBody s slept) ?_ w'
    intro qs next hrun w
    obtain ⟨s', -, hk', rfl⟩ | ⟨hlt, -⟩ := (runs_napBody hrun).2
    · exact hsweep s' w (by omega)
    · omega
  | succ n ih =>
    refine .loop fun w' _ => eventually_of_runs exists_answer (drawing_napBody s slept) ?_ w'
    intro qs next hrun w
    obtain ⟨s', -, hk', rfl⟩ | ⟨hlt, rfl⟩ := (runs_napBody hrun).2
    · exact hsweep s' w (by omega)
    · exact ih (by omega) w

theorem finishes_sweepStep
    (hsweep : ∀ s' w, s'.k = s.k + 1 → Finishes cfg job (.ret (.inl (.sweep job s'))) w) (w : World) :
    Finishes cfg job (sweepStep job s) w := by
  apply eventually_of_runs exists_answer (drawing_sweepStep s)
  intro qs next hrun w
  obtain ⟨s', -, ⟨hk, rfl⟩ | ⟨hk, rfl⟩⟩ := (runs_sweepStep hrun).2
  · exact hsweep s' w hk
  · exact finishes_nap hsweep hk job.interval.toNat (by omega) w

theorem finishes_sweep (n : Nat) (hn : job.total - s.k ≤ n) (w : World) :
    Finishes cfg job (.ret (.inl (.sweep job s))) w := by
  induction n generalizing s w with
  | zero =>
    refine .loop fun w' _ => ?_
    have hend : (!decide (s.k < job.total)) = true := by simp; omega
    rw [previewWorkerLoop, sweepBody, if_pos hend]
    exact finishes_finishSweep s w'
  | succ n ih =>
    refine .loop fun w' _ => ?_
    rw [previewWorkerLoop, sweepBody]
    split
    · exact finishes_finishSweep s w'
    refine eventually_call exists_answer (fun up w => ?_) w'
    cases up with
    | false => exact finishes_finishSweep s w
    | true =>
      cases hs : s.stopped with
      | true => exact finishes_finishSweep s w
      | false => exact finishes_sweepStep (fun s' w hk => ih (by omega) w) w

end Ending

section Runs

def goOn : Move Req Ans World := .run fun q w =>
  match q with
  | .running => (true, w)
  | .takeCommand => (w.app.takeCommand.1,
      { app := w.app.takeCommand.2, slot := none
        current := (w.slot.map Course.take).or w.current })
  | .listProjects _ => (.ok [], w)
  | .setProjects folder projects => ((), { w with app := w.app.setProjects folder projects })
  | .getProjectInfo _ => (.ok (some []), w)
  | .bumpGeneration => (w.app.gen + 1, { w with app := w.app.bumpGeneration })
  | .commands _ => (.ok 1, w.course fun t => t.count 1)
  | .setStatus _ st => ((), { w with app := w.app.setStatus st })
  | .takeStop => (w.app.takeStop.1,
      { w with app := w.app.takeStop.2, current := w.current.map Course.takeStop })
  | .pushMirrored full => ((), if full then w.course Course.showOpen else w)
  | .renderRange _ _ _ => ((), w)
  | .baseImage _ => ((), w)
  | .pushTime => (true, w)

def requestTestrun : Move Req Ans World :=
  .env fun w => { w with app := w.app.enqueue ⟨.testrun, ['p'], 0⟩
                         slot := some { cmd := ⟨.testrun, ['p'], 0⟩ } }

def requestStop : Move Req Ans World :=
  .env fun w => { app := w.app.requestStop, slot := w.slot.map Course.requestStop
                  current := w.current.map Course.requestStop }

theorem goOn_sound : goOn.Sound system := by
  intro q w
  cases q with
  | takeCommand | takeStop | bumpGeneration => exact ⟨rfl, rfl⟩
  | _ => rfl

theorem requestTestrun_sound : requestTestrun.Sound system := fun w => .enqueue w _

theorem requestStop_sound : requestStop.Sound system := fun w => .requestStop w

def stoppedRun (n m : Nat) : Conf Req Ans Text Stage Unit World :=
  play (previewWorkerLoop ⟨[], 1⟩)
    (List.replicate 3 goOn ++ requestTestrun ::
      (List.replicate n goOn ++ requestStop :: List.replicate m goOn)) ⟨.ret (.inl .start), {}⟩

theorem stoppedRun_reachable (n m : Nat) :
    Reachable system (previewWorkerLoop ⟨[], 1⟩) .start {} (stoppedRun n m) := by
  refine play_reachable (fun m hm => ?_) Stage.start ({} : World)
  simp only [List.mem_append, List.mem_cons, List.mem_replicate] at hm
  obtain ⟨-, rfl⟩ | rfl | ⟨-, rfl⟩ | rfl | ⟨-, rfl⟩ := hm
  · exact goOn_sound
  · exact requestTestrun_sound
  · exact goOn_sound
  · exact requestStop_sound
  · exact goOn_sound

end Runs

end Datenbereitstellung.StopRequests
