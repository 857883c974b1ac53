import Datenbereitstellung.HandshakeInvariants
import Datenbereitstellung.OperatingLoop

namespace Datenbereitstellung.AbortFlag

open Strings Files OperatingLoop Lib.Program Lib.Rely
open OpcUa (Reading Written Nodes)
open ProjectManager (Config listProjects getProjectInfo readProjectNameFromSPS writeProjectListToSPS
  writeProjectInfoToSPS writeDataBlockToSPS showPreview showProjectInfo updateProjectList
  logAndPushError pushInfo setTransferFlags prepareTransfer finishTransfer nextBlock sendBlock
  transferBlock awaitAcknowledgement guarded transferProjectData)
open Handshake (Quiet)
open TransferRefinement (quiet_pushInfo within_logAndPushError within_showPreview
  within_writeStringArray within_writeDataBlock)

section Courses

/-- The number of transfers so far, the one that is running, and the one in which the PLC set
`ubertragenAbbrechen` last; `left` is whether this one has ended with the flag up. -/
structure Course where
  transfer : Nat := 0
  running : Option Nat := none
  abortedIn : Option Nat := none
  left : Bool := false

namespace Course

variable (c : Course) (abbrechen : Bool)

def start : Course := { c with transfer := c.transfer + 1, running := some (c.transfer + 1) }

def finish : Course :=
  { c with
    running := none
    left := c.left || abbrechen && c.running.isSome && c.abortedIn == c.running }

def abort : Course := { c with abortedIn := c.running, left := false }

/-- A transfer is running until its end is announced, or until `ReadProjekt` is cleared if it gave
up before it had begun to send. -/
def after : (q : Req) → Ans q → Course
  | .readTrigger .ReadProjekt, a => if a.value then c.start else c
  | .clearTrigger .ReadProjekt, _ => c.finish abbrechen
  | .manager (.writeBool .UebertgarungBeendet true), _ => c.finish abbrechen
  | _, _ => c

end Course

structure World where
  loop : OperatingLoop.World
  course : Course := {}

namespace World

variable (w : World)

def abbrechen : Bool := w.loop.nodes.bool .ubertragenAbbrechen

def setAbbrechen (v : Bool) (course : Course) : World where
  loop := { w.loop with nodes := w.loop.nodes.setBool .ubertragenAbbrechen v }
  course := course

end World

/-- The PLC asks to abort, takes that back, or does anything to the other nodes and files. -/
inductive Plc : World → World → Prop
  | abort (w : World) : Plc w (w.setAbbrechen true w.course.abort)
  | takeBack (w : World) : Plc w (w.setAbbrechen false w.course)
  | other (w : World) {loop : OperatingLoop.World}
      (h : loop.nodes.bool .ubertragenAbbrechen = w.abbrechen) : Plc w { w with loop }

/-- Every OPC read and every OPC write succeeds. -/
def system : System Req Ans World where
  exec q w a w' := Truthful w.loop q a ∧ Succeeds q a ∧
    w' = ⟨after w.loop q a, w.course.after w.abbrechen q a⟩
  rely := Plc

/-- The transfer that is being aborted does not come after the one in which the PLC asked for it. -/
def Own (c : Course) : Prop := ∀ k, c.abortedIn = some k → ¬k < c.transfer

end Courses

section Assertions

variable {b : Bool} {c : Course} {w : World}

abbrev Phase := Bool → Course → Prop

def Phase.Closed (P : Phase) : Prop := ∀ b c, P b c → P true c.abort ∧ P false c

abbrev Held (P : Phase) (w : World) : Prop := P w.abbrechen w.course

structure Coherent (b : Bool) (c : Course) : Prop where
  current : ∀ k, c.running = some k → k = c.transfer
  le : ∀ k, c.abortedIn = some k → k ≤ c.transfer
  left : c.left = true → ∃ k, c.abortedIn = some k ∧ c.running ≠ some k
  up : b = true → ∀ k, c.abortedIn = some k → c.running ≠ some k → c.left = true

structure Resting (b : Bool) (c : Course) : Prop where
  coherent : Coherent b c
  running : c.running = none

structure Running (b : Bool) (c : Course) : Prop where
  coherent : Coherent b c
  running : c.running = some c.transfer

structure Noticed (b : Bool) (c : Course) : Prop where
  running : Running b c
  left : ∀ k, c.abortedIn = some k → k < c.transfer → c.left = true

theorem abbrechen_setAbbrechen (v : Bool) (course : Course) :
    (w.setAbbrechen v course).abbrechen = v := by
  simp [World.setAbbrechen, World.abbrechen]

theorem stable_held {P : Phase} (hP : P.Closed) : Stable system (Held P) := by
  intro w w' h hr
  have hr : Plc w w' := hr
  cases hr with
  | abort =>
    rw [Held, abbrechen_setAbbrechen]
    exact (hP _ _ h).1
  | takeBack =>
    rw [Held, abbrechen_setAbbrechen]
    exact (hP _ _ h).2
  | other he =>
    have he : World.abbrechen { w with loop := _ } = w.abbrechen := he
    rwa [Held, he]

theorem resting_init (b : Bool) : Resting b {} := by
  refine ⟨⟨fun k hk => ?_, fun k hk => ?_, fun hl => ?_, fun _ k hk => ?_⟩, rfl⟩
  · cases hk
  · cases hk
  · cases hl
  · cases hk

theorem Coherent.down (h : Coherent b c) : Coherent false c := ⟨h.current, h.le, h.left, nofun⟩

theorem Coherent.abort (h : Coherent b c) : Coherent true c.abort :=
  ⟨h.current, fun k hk => (h.current k hk).le, nofun, fun _ _ hk hne => (hne hk).elim⟩

theorem closed_coherent : Phase.Closed Coherent := fun _ _ h => ⟨h.abort, h.down⟩

theorem closed_resting : Phase.Closed Resting :=
  fun _ _ h => ⟨⟨h.coherent.abort, h.running⟩, h.coherent.down, h.running⟩

theorem closed_running : Phase.Closed Running :=
  fun _ _ h => ⟨⟨h.coherent.abort, h.running⟩, h.coherent.down, h.running⟩

theorem closed_noticed : Phase.Closed Noticed := by
  intro b c h
  refine ⟨⟨(closed_running b c h.running).1, fun k hk hlt => ?_⟩, (closed_running b c h.running).2,
    h.left⟩
  have hk : c.running = some k := hk
  rw [h.running.running] at hk
  obtain rfl := Option.some.inj hk
  exact absurd hlt (lt_irrefl _)

theorem Resting.start (h : Resting b c) : Running b c.start := by
  have hno : ∀ k, c.abortedIn = some k → c.running ≠ some k := by
    intro k _
    rw [h.running]
    nofun
  refine ⟨⟨fun k hk => (Option.some.inj hk).symm, fun k hk => ?_, fun hl => ?_,
    fun hb k hk _ => ?_⟩, rfl⟩
  · exact Nat.le_succ_of_le (h.coherent.le k hk)
  · obtain ⟨k, hk, -⟩ := h.coherent.left hl
    refine ⟨k, hk, fun he => ?_⟩
    have hle := h.coherent.le k hk
    have he : c.transfer + 1 = k := Option.some.inj he
    omega
  · exact h.coherent.up hb k hk (hno k hk)

theorem Coherent.finish (h : Coherent b c) : Resting b (c.finish b) := by
  have hnone : ∀ k, (c.finish b).running ≠ some k := fun k hk => by cases hk
  refine ⟨⟨fun k hk => (hnone k hk).elim, h.le, fun hl => ?_, fun hb k hk _ => ?_⟩, rfl⟩
  · have hl : c.left = true ∨ (b = true ∧ c.running.isSome = true) ∧ c.abortedIn = c.running := by
      simpa [Course.finish] using hl
    obtain hl | ⟨⟨-, hs⟩, he⟩ := hl
    · obtain ⟨k, hk, -⟩ := h.left hl
      exact ⟨k, hk, hnone k⟩
    · obtain ⟨k, hk⟩ := Option.isSome_iff_exists.mp hs
      exact ⟨k, he.trans hk, hnone k⟩
  · have hk : c.abortedIn = some k := hk
    by_cases hr : c.running = some k
    · simp [Course.finish, hb, hk, hr]
    · simp [Course.finish, h.up hb k hk hr]

theorem Running.notice (h : Running true c) : Noticed true c := by
  refine ⟨h, fun k hk hlt => h.coherent.up rfl k hk fun hr => ?_⟩
  rw [h.running] at hr
  obtain rfl := Option.some.inj hr
  exact absurd hlt (lt_irrefl _)

theorem Noticed.own_iff (h : Noticed b c) : Own c ↔ c.left = false := by
  constructor
  · intro ho
    by_contra hl
    obtain ⟨k, hk, hne⟩ := h.running.coherent.left (by simpa using hl)
    refine ho k hk (lt_of_le_of_ne (h.running.coherent.le k hk) fun he => hne ?_)
    rw [h.running.running, he]
  · intro hl k hk hlt
    rw [h.left k hk hlt] at hl
    cases hl

end Assertions

section Apart

variable {cfg : Config} {α β : Type}

def Apart : OpcUa.Req → Prop
  | .writeBool n v => n ≠ .ubertragenAbbrechen ∧ (n = .UebertgarungBeendet → v = false)
  | _ => True

def Aloof : Req → Prop
  | .readTrigger t | .clearTrigger t => t ≠ .ReadProjekt
  | .manager q => Apart q
  | _ => True

theorem apart_writeBool {n : OpcUa.BoolNode} {v : Bool}
    (hn : n ≠ .ubertragenAbbrechen ∧ n ≠ .UebertgarungBeendet) : Apart (.writeBool n v) :=
  ⟨hn.1, fun he => (hn.2 he).elim⟩

theorem apart_of_quiet (q : OpcUa.Req) (hq : Quiet q) : Apart q := by
  cases q with
  | writeBool n v =>
    obtain rfl : n = .Error := hq
    exact apart_writeBool (by decide)
  | _ => trivial

theorem apart_logAndPushError (message : Text) (code : Int) :
    (logAndPushError message code).Within Apart :=
  within_logAndPushError apart_of_quiet message code

theorem apart_pushInfo (message : Text) : (pushInfo message).Within Apart :=
  (quiet_pushInfo message).within apart_of_quiet

theorem apart_readProjectName : readProjectNameFromSPS.Within Apart := by
  refine ⟨trivial, fun name => ?_⟩
  simp only [Prog.bind]
  split
  · exact Prog.within_bind (apart_logAndPushError _ _) fun _ => trivial
  split
  · exact Prog.within_bind (apart_logAndPushError _ _) fun _ => trivial
  · trivial

theorem apart_getProjectInfo (basePath name : Text) :
    (getProjectInfo basePath name).Within Apart := by
  refine ⟨trivial, fun found => ?_⟩
  cases found with
  | error e => trivial
  | ok kind =>
    cases kind with
    | none => trivial
    | some kind =>
      refine ⟨trivial, fun content => ?_⟩
      cases content with
      | none => trivial
      | some content => trivial

theorem apart_writeProjectInfo (info : ProjectManager.ProjectInfo) :
    (writeProjectInfoToSPS cfg info).Within Apart := by
  rw [writeProjectInfoToSPS]
  split
  · refine ⟨apart_writeBool (by decide), fun _ => ?_⟩
    exact Prog.within_bind (p := logAndPushError _ _) (apart_logAndPushError _ _) fun _ => trivial
  · refine ⟨trivial, fun _ => ⟨apart_writeBool (by decide), fun _ => ⟨trivial, fun _ => ?_⟩⟩⟩
    exact Prog.within_bind (p := pushInfo _) (apart_pushInfo _) fun _ => trivial

theorem apart_showProjectInfo : (showProjectInfo cfg).Within Apart := by
  refine Prog.within_handle ?_ fun e => ?_
  · refine Prog.within_bind apart_readProjectName fun name => ?_
    split
    split
    · trivial
    refine Prog.within_bind (apart_getProjectInfo _ _) fun found => ?_
    cases found with
    | none =>
      refine ⟨apart_writeBool (by decide), fun _ => ?_⟩
      exact Prog.within_bind (p := logAndPushError _ _) (apart_logAndPushError _ _) fun _ => trivial
    | some info =>
      refine Prog.within_bind (apart_writeProjectInfo info) fun shown => ?_
      split
      · trivial
      · refine Prog.within_bind ?_ fun _ => trivial
        exact within_showPreview apart_of_quiet (fun _ _ => trivial) trivial cfg _
  · exact Prog.within_bind (apart_logAndPushError _ _) fun _ => trivial

theorem apart_listProjects (basePath : Text) (maxCount : Int) :
    (listProjects basePath maxCount).Within Apart := by
  refine ⟨trivial, fun found => ?_⟩
  cases found with
  | error e => trivial
  | ok kind =>
    cases kind with
    | none => trivial
    | some kind =>
      refine ⟨trivial, fun es => ?_⟩
      cases es with
      | error e => trivial
      | ok es => trivial

theorem apart_updateProjectList (maxProjects : Int) :
    (updateProjectList cfg maxProjects).Within Apart := by
  refine Prog.within_handle ?_ fun e => ?_
  · refine Prog.within_bind (apart_listProjects _ _) fun names => ?_
    split
    · exact Prog.within_bind (apart_logAndPushError _ _) fun _ => trivial
    split
    · exact Prog.within_bind (apart_logAndPushError _ _) fun _ => trivial
    refine Prog.within_bind (within_writeStringArray trivial (fun _ => trivial) _ _ _) fun a => ?_
    split
    · exact Prog.within_bind (apart_logAndPushError _ _) fun _ => trivial
    · refine ⟨apart_writeBool (by decide), fun _ => ?_⟩
      exact Prog.within_bind (p := pushInfo _) (apart_pushInfo _) fun _ => trivial
  · exact Prog.within_bind (apart_logAndPushError _ _) fun _ => trivial

theorem apart_prepareTransfer : (prepareTransfer cfg).Within Apart := by
  refine Prog.within_bind apart_showProjectInfo fun shown => ?_
  split
  split
  · trivial
  refine Prog.within_bind apart_readProjectName fun name => ?_
  split
  split
  · trivial
  refine Prog.within_bind (apart_getProjectInfo _ _) fun found => ?_
  cases found with
  | none => trivial
  | some info =>
    refine ⟨trivial, fun _ => ⟨trivial, fun _ => ?_⟩⟩
    refine Prog.within_bind (p := setTransferFlags false true false) ?_ fun _ => ?_
    · refine ⟨apart_writeBool (by decide), fun _ => ⟨apart_writeBool (by decide), fun _ => ?_⟩⟩
      exact ⟨⟨nofun, fun _ => rfl⟩, fun _ => trivial⟩
    · exact ⟨trivial, fun _ => ⟨trivial, fun _ => trivial⟩⟩

theorem apart_nextBlock (t : ProjectManager.Transfer) : (nextBlock t).Within Apart := by
  rw [nextBlock]
  split
  · refine Prog.within_bind (apart_pushInfo _) fun _ => ?_
    exact ⟨trivial, fun _ => trivial⟩
  · trivial

end Apart

section Transfers

variable {cfg : Config} {α β : Type} {P : Phase} {w : World}

def Due : Req → World → Prop
  | .manager (.writeBool .ubertragenAbbrechen _), w => Own w.course ↔ w.course.left = false
  | _, _ => True

theorem due_of_aloof {q : Req} (hq : Aloof q) (w : World) : Due q w := by
  cases q with
  | manager q =>
    cases q with
    | writeBool n v =>
      cases n with
      | ubertragenAbbrechen => exact (hq.1 rfl).elim
      | _ => trivial
    | _ => trivial
  | _ => trivial

theorem bool_after {q : Req} (hq : ∀ v, q ≠ .manager (.writeBool .ubertragenAbbrechen v))
    (w : OperatingLoop.World) (a : Ans q) :
    (after w q a).nodes.bool .ubertragenAbbrechen = w.nodes.bool .ubertragenAbbrechen := by
  cases q with
  | readTrigger | clearTrigger | writeProjektInfoWrote =>
    simp only [after]
    split <;> rfl
  | manager q => exact HandshakeInvariants.after_bool rfl (fun v hv => (hq v (by rw [hv])).elim) a
  | _ => rfl

theorem course_after {q : Req} (hq : Aloof q) (c : Course) (b : Bool) (a : Ans q) :
    c.after b q a = c := by
  cases q with
  | readTrigger t | clearTrigger t =>
    cases t with
    | ReadProjekt => exact (hq rfl).elim
    | _ => rfl
  | manager q =>
    cases q with
    | writeBool n v =>
      cases n with
      | UebertgarungBeendet =>
        obtain rfl : v = false := hq.2 rfl
        rfl
      | _ => rfl
    | _ => rfl
  | _ => rfl

theorem held_of_flag {loop : OperatingLoop.World} {c : Course} {b : Bool}
    (hb : loop.nodes.bool .ubertragenAbbrechen = b) (h : P b c) : Held P ⟨loop, c⟩ := by
  subst hb
  exact h

theorem keeps_held (P : Phase) : Keeps system Aloof (Held P) := by
  rintro q hq w a _ h ⟨-, -, rfl⟩
  rw [course_after hq]
  refine held_of_flag (bool_after (fun v hv => ?_) w.loop a) h
  rw [hv] at hq
  exact hq.1 rfl

abbrev managerSystem : System OpcUa.Req OpcUa.Ans World :=
  ⟨fun q => system.exec (.manager q), system.rely⟩

abbrev Ends (R : α → World → Prop) (p : OpcUa.M α) (w : World) : Prop :=
  Safe managerSystem (fun q => Due (.manager q)) R (fun _ => Held Coherent) p w

abbrev AtEnd : ProjectManager.Stage ⊕ Bool → World → Prop :=
  Sum.elim (fun _ => Held Running) fun _ => Held Coherent

structure Kept (P : Phase) : Prop where
  closed : P.Closed
  coherent : ∀ b c, P b c → Coherent b c

theorem kept_running : Kept Running := ⟨closed_running, fun _ _ h => h.coherent⟩

theorem kept_coherent : Kept Coherent := ⟨closed_coherent, fun _ _ h => h⟩

theorem ends_within (hP : Kept P) {p : OpcUa.M α} {R : α → World → Prop} (hp : p.Within Apart)
    (hw : Held P w) (hR : ∀ a w, Held P w → R a w) : Ends R p w :=
  (Safe.within (N := Apart) (stable_held hP.closed) (fun q hq => keeps_held P (.manager q) hq)
    (fun q hq w _ => due_of_aloof (q := .manager q) hq w) hp hw).mono hR
    fun _ w hw => hP.coherent w.abbrechen w.course hw

theorem ends_bind (hP : Kept P) {p : OpcUa.M β} {f : β → OpcUa.M α} {R : α → World → Prop}
    (hp : p.Within Apart) (hw : Held P w) (hf : ∀ b w, Held P w → Ends R (f b) w) :
    Ends R (p >>= f) w :=
  Safe.bind (ends_within hP hp hw hf)

theorem ends_apart (hP : Kept P) {q : OpcUa.Req} (hq : Apart q) {k : OpcUa.Ans q → OpcUa.M α}
    {R : α → World → Prop} (hw : Held P w) (hk : ∀ a w, Held P w → Ends R (k a) w) :
    Ends R (.call q k) w :=
  ends_bind hP (p := Prog.perform q) ⟨hq, fun _ => trivial⟩ hw hk

theorem ends_call (hP : P.Closed) {q : OpcUa.Req} {k : OpcUa.Ans q → OpcUa.M α}
    {R : α → World → Prop} (hdue : ∀ w, Held P w → Due (.manager q) w) (hw : Held P w)
    (hk : ∀ w a, Held P w → OpcUa.Truthful w.loop q a → OpcUa.Succeeds q a →
      Ends R (k a) ⟨after w.loop (.manager q) a, w.course.after w.abbrechen (.manager q) a⟩) :
    Ends R (.call q k) w := by
  apply Safe.call (S := managerSystem) (stable_held hP) hw hdue
  rintro w a _ hw ⟨ht, hs, rfl⟩
  exact hk w a hw ht hs

theorem ends_setTransferFlags {b : Bool} (hw : Held Coherent w) :
    Ends AtEnd (setTransferFlags false false true >>= fun _ => pure (.inr b)) w := by
  refine ends_apart kept_coherent (apart_writeBool (n := .WriteData) (by decide)) hw
    fun _ w hw => ?_
  refine ends_apart kept_coherent (apart_writeBool (n := .ReadData) (by decide)) hw
    fun _ w hw => ?_
  refine ends_call closed_coherent (fun _ _ => trivial) hw fun w a hw _ _ => ?_
  have hflag := bool_after (q := .manager (.writeBool .UebertgarungBeendet true))
    (fun v hv => by cases hv) w.loop a
  exact (held_of_flag hflag hw.finish).coherent

theorem ends_finishTransfer (hw : Held Running w) : Ends AtEnd finishTransfer w :=
  ends_setTransferFlags hw.coherent

theorem ends_nextBlock {t : ProjectManager.Transfer} (hw : Held Running w) :
    Ends AtEnd (nextBlock t) w := by
  refine ends_within kept_running (apart_nextBlock t) hw fun next w hw => ?_
  cases next with
  | inl s => exact hw
  | inr b => exact hw.coherent

theorem ends_prepareTransfer (hw : Held Running w) : Ends AtEnd (prepareTransfer cfg) w := by
  refine ends_within kept_running apart_prepareTransfer hw fun next w hw => ?_
  cases next with
  | inl s => exact hw
  | inr b => exact hw.coherent

theorem ends_sendBlock {t : ProjectManager.Transfer} (hw : Held Running w) :
    Ends AtEnd (sendBlock cfg t) w := by
  refine ends_apart kept_running (apart_writeBool (n := .ReadData) (by decide)) hw fun _ w hw => ?_
  refine ends_apart kept_running (q := .writeInt16 _ _) trivial hw fun _ w hw => ?_
  refine ends_apart kept_running (q := .openFile _) trivial hw fun content w hw => ?_
  cases content with
  | none => exact hw.coherent
  | some content =>
    refine ends_bind kept_running (p := writeDataBlockToSPS _)
      (within_writeDataBlock apart_of_quiet (fun _ => trivial) _) hw fun written w hw => ?_
    cases written with
    | false => exact ends_finishTransfer hw
    | true =>
      refine ends_apart kept_running (apart_writeBool (n := .WriteData) (by decide)) hw
        fun _ w hw => ?_
      exact ends_apart kept_running (q := .now) trivial hw fun _ w hw => ends_nextBlock hw

theorem ends_clear {k : Written → OpcUa.M (ProjectManager.Stage ⊕ Bool)} (hw : Held Noticed w)
    (hk : ∀ a w, Held Running w → Ends AtEnd (k a) w) :
    Ends AtEnd (.call (.writeBool .ubertragenAbbrechen false) k) w := by
  refine ends_call closed_noticed (fun _ h => h.own_iff) hw fun w a hw _ hs => hk a _ ?_
  have hs : a.success = true := hs
  refine held_of_flag ?_ (closed_running _ _ hw.running).2
  simp [after, OpcUa.World.after, Nodes.after, hs]

theorem ends_readAbbrechen {k : Reading Bool → OpcUa.M (ProjectManager.Stage ⊕ Bool)}
    (hw : Held Running w)
    (hyes : ∀ a w, (a.success && a.value) = true → Held Noticed w → Ends AtEnd (k a) w)
    (hno : ∀ a w, ¬(a.success && a.value) = true → Held Running w → Ends AtEnd (k a) w) :
    Ends AtEnd (.call (.readBool .ubertragenAbbrechen) k) w := by
  refine ends_call closed_running (fun _ _ => trivial) hw fun w a hw ht _ => ?_
  by_cases ha : (a.success && a.value) = true
  · rw [Bool.and_eq_true] at ha
    have hup : w.abbrechen = true := (ht ha.1).symm.trans ha.2
    apply hyes a _ (by simp [ha])
    rw [Held, hup] at hw
    show Noticed w.abbrechen w.course
    rw [hup]
    exact hw.notice
  · exact hno a _ ha hw

theorem ends_transferBlock {t : ProjectManager.Transfer} (hw : Held Running w) :
    Ends AtEnd (transferBlock cfg t) w := by
  have hlog : ∀ message w, Held Running w →
      Ends AtEnd (logAndPushError message >>= fun _ => finishTransfer) w := fun message w hw =>
    ends_bind kept_running (apart_logAndPushError message _) hw fun _ w hw => ends_finishTransfer hw
  refine ends_apart kept_running (q := .keepAlive) trivial hw fun alive w hw => ?_
  cases alive with
  | false => exact hlog _ w hw
  | true =>
    refine ends_apart kept_running (q := .handshakeExpired _) trivial hw fun late w hw => ?_
    cases late with
    | true => exact hlog _ w hw
    | false =>
      refine ends_readAbbrechen hw (fun abbruch w ha hw => ?_) fun abbruch w ha hw => ?_
      · simp only [Prog.bind, if_pos ha]
        exact ends_clear hw fun _ w hw => ends_finishTransfer hw
      · simp only [Prog.bind, if_neg ha]
        refine ends_apart kept_running (q := .readBool .ReadData) trivial hw fun readData w hw => ?_
        simp only [Prog.bind]
        split
        · exact ends_sendBlock hw
        · exact ends_nextBlock hw

theorem ends_awaitAcknowledgement {ackDeadline : Nat} (hw : Held Running w) :
    Ends AtEnd (awaitAcknowledgement ackDeadline) w := by
  refine ends_apart kept_running (q := .ackExpired _) trivial hw fun late w hw => ?_
  cases late with
  | true => exact ends_finishTransfer hw
  | false =>
    refine ends_apart kept_running (q := .keepAlive) trivial hw fun alive w hw => ?_
    cases alive with
    | false => exact ends_finishTransfer hw
    | true =>
      refine ends_apart kept_running (q := .readBool .WriteData) trivial hw fun writeData w hw => ?_
      simp only [Prog.bind]
      split
      · exact ends_finishTransfer hw
      refine ends_apart kept_running (q := .readBool .ReadData) trivial hw fun readAck w hw => ?_
      simp only [Prog.bind]
      split
      · refine ends_apart kept_running (apart_writeBool (n := .ReadData) (by decide)) hw
          fun _ w hw => ?_
        exact ends_finishTransfer hw
      · exact hw

theorem ends_guarded {p : OpcUa.M (ProjectManager.Stage ⊕ Bool)} (hp : Ends AtEnd p w) :
    Ends AtEnd (guarded p) w := by
  refine Safe.handle (hp.mono (fun _ _ h => h) fun e w hw => ?_)
  exact ends_bind kept_coherent (apart_logAndPushError _ _) hw
    fun _ w hw => ends_setTransferFlags hw

theorem ends_transferProjectData (s : ProjectManager.Stage) (hw : Held Running w) :
    Ends AtEnd (transferProjectData cfg s) w := by
  cases s with
  | start => exact ends_guarded (ends_prepareTransfer hw)
  | transfer t => exact ends_guarded (ends_transferBlock hw)
  | acknowledge d => exact ends_guarded (ends_awaitAcknowledgement hw)

end Transfers

section Loop

variable {cfg : Config} {MaximaleAnzahlProjekte : Int} {α β : Type} {w : World}

def AtHead : Stage → World → Prop
  | .poll => Held Resting
  | .transfer _ => Held Running

abbrev AtLoopEnd : Stage ⊕ Unit → World → Prop := Sum.elim AtHead fun _ => Held Resting

abbrev LoopEnds (R : α → World → Prop) (p : M α) (w : World) : Prop :=
  Safe system Due R (fun _ => Held Coherent) p w

theorem loopEnds_resting {p : M β} {f : β → M α} {R : α → World → Prop} (hp : p.Within Aloof)
    (hw : Held Resting w) (hf : ∀ b w, Held Resting w → LoopEnds R (f b) w) :
    LoopEnds R (p >>= f) w :=
  Safe.within_bind (stable_held closed_resting) (keeps_held Resting)
    (fun _ hq w _ => due_of_aloof hq w) hp hw hf fun _ _ hw => hw.coherent

theorem loopEnds_serveReadProjekt (hw : Held Resting w) :
    LoopEnds AtLoopEnd serveReadProjekt w := by
  apply Safe.call (stable_held closed_resting) hw (fun _ _ => trivial)
  rintro w a _ hw ⟨-, hs, rfl⟩
  have hs : a.success = true := hs
  have hflag := bool_after (q := .readTrigger .ReadProjekt) (fun v hv => by cases hv) w.loop a
  cases hv : a.value with
  | true =>
    simp only [Prog.bind, hs, hv]
    apply held_of_flag hflag
    simp only [Course.after, hv, if_true]
    exact hw.start
  | false =>
    simp only [Prog.bind, hs, hv]
    apply held_of_flag hflag
    simp only [Course.after, hv]
    exact hw

theorem loopEnds_iteration (hw : Held Resting w) :
    LoopEnds AtLoopEnd (iteration cfg MaximaleAnzahlProjekte) w := by
  have hlocal : ∀ q, Local q → Aloof q := by
    intro q hq
    cases q with
    | readTrigger | clearTrigger | manager => exact hq.elim
    | _ => trivial
  refine safe_iteration cfg MaximaleAnzahlProjekte (stable_held closed_resting)
    (fun q hq => keeps_held Resting q (hlocal q hq)) (fun q hq w _ => due_of_aloof (hlocal q hq) w)
    (fun _ h => h) (fun _ h => h) (fun w hw => ?_) hw
  have hupdate : Trigger.UpdateProjektList ≠ .ReadProjekt := by decide
  have hshow : Trigger.showProjektInfo ≠ .ReadProjekt := by decide
  refine loopEnds_resting
    (within_serveUpdateProjektList _ _ hupdate hupdate (apart_updateProjectList _)) hw
    fun _ w hw => ?_
  refine loopEnds_resting
    (within_serveShowProjektInfo _ hshow hshow apart_showProjectInfo trivial) hw fun _ w hw => ?_
  exact loopEnds_serveReadProjekt hw

theorem loopEnds_transferring {s : ProjectManager.Stage} (hw : Held Running w) :
    LoopEnds AtLoopEnd (transferring cfg s) w := by
  refine Safe.bind ((Safe.lift (ends_transferProjectData s hw)).mono (fun next w hw => ?_)
    fun _ _ hw => hw)
  cases next with
  | inl s => exact hw
  | inr b =>
    apply Safe.call (stable_held closed_coherent) hw (fun _ _ => trivial)
    rintro w a _ hw ⟨-, -, rfl⟩
    have hflag := bool_after (q := .clearTrigger .ReadProjekt) (fun v hv => by cases hv) w.loop a
    exact held_of_flag hflag hw.finish

theorem stable_atHead (s : Stage) : Stable system (AtHead s) := by
  cases s with
  | poll => exact stable_held closed_resting
  | transfer s => exact stable_held closed_running

theorem due_of_reachable {loop : OperatingLoop.World} {c : Conf Req Ans Text Stage Unit World}
    (hc : Reachable system (operatingLoop cfg MaximaleAnzahlProjekte) .poll { loop } c) {q : Req}
    {k : Ans q → M (Stage ⊕ Unit)} (hcode : c.code = .call q k) : Due q c.world := by
  have hbody : ∀ s w, AtHead s w →
      LoopEnds AtLoopEnd (operatingLoop cfg MaximaleAnzahlProjekte s) w := by
    intro s w hw
    cases s with
    | poll => exact loopEnds_iteration hw
    | transfer s => exact loopEnds_transferring hw
  have hinit : AtHead .poll { loop } := resting_init _
  exact reachable_call stable_atHead (fun _ => stable_held closed_resting)
    (fun _ => stable_held closed_coherent) hbody hinit hc hcode

/-- In every run, when a transfer ends by clearing the flag, the PLC did not set it last in an
earlier transfer, exactly if the transfer in which it did has not left the flag up. -/
theorem own_iff_notLeft (cfg : Config) (MaximaleAnzahlProjekte : Int) (loop : OperatingLoop.World)
    (c : Conf Req Ans Text Stage Unit World)
    (hc : Reachable system (operatingLoop cfg MaximaleAnzahlProjekte) .poll { loop } c)
    (k : Written → M (Stage ⊕ Unit))
    (hcode : c.code = .call (.manager (.writeBool .ubertragenAbbrechen false)) k) :
    Own c.world.course ↔ c.world.course.left = false :=
  due_of_reachable hc hcode

end Loop

section Runs

def offered : OperatingLoop.World where
  nodes := { OpcUa.emptyNodes with ProjektName := ['p'] }
  fs := { status := fun _ => .ok (some .regular), content := fun _ => some ['\n', 'G']
          entries := fun _ => .ok [] }
  plc := { trigger := fun _ => false, ProjektInfoWrote := false, trace := []
           asked := (OpcUa.emptyNodes, []) }

def goOn : Move Req Ans World := .run fun q w =>
  (honest w.loop q,
    ⟨after w.loop q (honest w.loop q), w.course.after w.abbrechen q (honest w.loop q)⟩)

def ask : Move Req Ans World := .env fun w => { w with loop := w.loop.set .ReadProjekt }

def abort : Move Req Ans World := .env fun w => w.setAbbrechen true w.course.abort

def acknowledge : Move Req Ans World :=
  .env fun w => { w with loop := { w.loop with nodes := w.loop.nodes.setBool .WriteData false } }

theorem goOn_sound : goOn.Sound system :=
  fun q w => ⟨truthful_honest w.loop q, succeeds_honest w.loop q, rfl⟩

theorem ask_sound : ask.Sound system := fun w => .other w rfl

theorem abort_sound : abort.Sound system := fun w => .abort w

theorem acknowledge_sound : acknowledge.Sound system := fun w => .other w rfl

def runOf (ms : List (Move Req Ans World)) : Conf Req Ans Text Stage Unit World :=
  play (operatingLoop ⟨['d'], 1, 1, 1⟩ 1) ms ⟨.ret (.inl .poll), { loop := offered }⟩

theorem reachable_runOf {ms : List (Move Req Ans World)}
    (hms : ∀ m ∈ ms, m = goOn ∨ m = ask ∨ m = abort ∨ m = acknowledge) :
    Reachable system (operatingLoop ⟨['d'], 1, 1, 1⟩ 1) .poll { loop := offered } (runOf ms) := by
  refine play_reachable (fun m hm => ?_) Stage.poll ({ loop := offered } : World)
  obtain rfl | rfl | rfl | rfl := hms m hm
  · exact goOn_sound
  · exact ask_sound
  · exact abort_sound
  · exact acknowledge_sound

def abortedInTime : List (Move Req Ans World) :=
  ask :: List.replicate 48 goOn ++ [abort, goOn]

def abortedLate : List (Move Req Ans World) :=
  ask :: List.replicate 60 goOn ++ abort :: acknowledge :: List.replicate 7 goOn ++
    ask :: List.replicate 49 goOn

theorem code_abortedInTime : ∃ k,
    (runOf abortedInTime).code = .call (.manager (.writeBool .ubertragenAbbrechen false)) k :=
  ⟨_, rfl⟩

theorem code_abortedLate : ∃ k,
    (runOf abortedLate).code = .call (.manager (.writeBool .ubertragenAbbrechen false)) k :=
  ⟨_, rfl⟩

theorem course_abortedLate : (runOf abortedLate).world.course = ⟨2, some 2, some 1, true⟩ := rfl

/-- The second transfer is ended by the abort that was meant for the first. -/
theorem not_own_abortedLate : ¬∀ (cfg : Config) (MaximaleAnzahlProjekte : Int)
    (loop : OperatingLoop.World) (c : Conf Req Ans Text Stage Unit World),
    Reachable system (operatingLoop cfg MaximaleAnzahlProjekte) .poll { loop } c →
      ∀ k, c.code = .call (.manager (.writeBool .ubertragenAbbrechen false)) k →
        Own c.world.course := by
  intro h
  have hms : ∀ m ∈ abortedLate, m = goOn ∨ m = ask ∨ m = abort ∨ m = acknowledge := by
    simp [abortedLate]
  obtain ⟨k, hk⟩ := code_abortedLate
  have hown := h _ _ _ _ (reachable_runOf hms) k hk
  rw [course_abortedLate] at hown
  exact hown 1 rfl (by decide)

theorem own_abortedInTime : Own (runOf abortedInTime).world.course := by
  have hms : ∀ m ∈ abortedInTime, m = goOn ∨ m = ask ∨ m = abort ∨ m = acknowledge := by
    simp [abortedInTime]
  obtain ⟨k, hk⟩ := code_abortedInTime
  exact (own_iff_notLeft _ _ _ _ (reachable_runOf hms) k hk).mpr rfl

end Runs

end Datenbereitstellung.AbortFlag
