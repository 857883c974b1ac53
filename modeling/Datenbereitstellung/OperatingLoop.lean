import Datenbereitstellung.Lib.Requests
import Datenbereitstellung.ProjectManager

namespace Datenbereitstellung.OperatingLoop

open Strings OpcUa ProjectManager Lib Lib.Program
open Rely (Stable Keeps Safe)

inductive Trigger
  | UpdateProjektList
  | showProjektInfo
  | ReadProjekt
  deriving DecidableEq

/-- The calls of the operating loop; those of the three jobs are calls of the `ProjectManager`. -/
inductive Req
  | running
  | settingsChanged
  | linkDown
  | opcEnabled
  | dataExchangeEnabled
  | heartbeatDue
  | writeHeartbeat
  | readTrigger (t : Trigger)
  | clearTrigger (t : Trigger)
  | writeProjektInfoWrote
  | manager (q : OpcUa.Req)

@[reducible] def Ans : Req → Type
  | .running | .settingsChanged | .linkDown | .opcEnabled | .dataExchangeEnabled
  | .heartbeatDue => Bool
  | .writeHeartbeat => Written
  | .readTrigger _ => Reading Bool
  | .clearTrigger _ => Written
  | .writeProjektInfoWrote => Written
  | .manager q => OpcUa.Ans q

abbrev M (α : Type) := Prog Req Ans Text α

section Calls

abbrev running : M Bool := Prog.perform Req.running
abbrev settingsChanged : M Bool := Prog.perform Req.settingsChanged
abbrev linkDown : M Bool := Prog.perform Req.linkDown
abbrev opcEnabled : M Bool := Prog.perform Req.opcEnabled
abbrev dataExchangeEnabled : M Bool := Prog.perform Req.dataExchangeEnabled
abbrev heartbeatDue : M Bool := Prog.perform Req.heartbeatDue
abbrev writeHeartbeat : M Written := Prog.perform Req.writeHeartbeat
abbrev readTrigger (t : Trigger) : M (Reading Bool) := Prog.perform (Req.readTrigger t)
abbrev clearTrigger (t : Trigger) : M Written := Prog.perform (Req.clearTrigger t)
abbrev writeProjektInfoWrote : M Written := Prog.perform Req.writeProjektInfoWrote
abbrev manager {α : Type} (p : OpcUa.M α) : M α := Prog.lift Req.manager p

theorem within_manager {N : Req → Prop} {α : Type} {p : OpcUa.M α}
    (hp : p.Within fun q => N (.manager q)) : (manager p).Within N :=
  Prog.within_lift (A := Ans) Req.manager hp

end Calls

section Loop

/-- The heads of the loops: the operating loop itself, and those of a transfer. -/
inductive Stage
  | poll
  | transfer (s : ProjectManager.Stage)

variable (cfg : Config) (MaximaleAnzahlProjekte : Int)

/-- The heartbeat, once a second; `false` when the PLC did not take it. -/
def beat : M Bool := do
  if ← heartbeatDue then
    let hbOk ← writeHeartbeat
    pure hbOk.success
  else pure true

def serveUpdateProjektList : M Unit := do
  let updateRequested ← readTrigger .UpdateProjektList
  if updateRequested.success && updateRequested.value then
    let _ ← clearTrigger .UpdateProjektList
    let _ ← manager (updateProjectList cfg MaximaleAnzahlProjekte)
    pure ()
  else pure ()

def serveShowProjektInfo : M Unit := do
  let showRequested ← readTrigger .showProjektInfo
  if showRequested.success && showRequested.value then
    let _ ← clearTrigger .showProjektInfo
    let _ ← manager (showProjectInfo cfg)
    let _ ← writeProjektInfoWrote
    pure ()
  else pure ()

def serveReadProjekt : M (Stage ⊕ Unit) := do
  let readRequested ← readTrigger .ReadProjekt
  if readRequested.success && readRequested.value then pure (.inl (.transfer .start))
  else pure (.inl .poll)

def iteration : M (Stage ⊕ Unit) := do
  if !(← running) then pure (.inr ())
  else if ← settingsChanged then pure (.inr ())
  else if ← linkDown then pure (.inr ())
  else if !(← opcEnabled) then pure (.inr ())
  else
    let dataOn ← dataExchangeEnabled
    if !(← beat) then pure (.inr ())
    else if !dataOn then pure (.inl .poll)
    else
      serveUpdateProjektList cfg MaximaleAnzahlProjekte
      serveShowProjektInfo cfg
      serveReadProjekt

def transferring (s : ProjectManager.Stage) : M (Stage ⊕ Unit) := do
  match ← manager (transferProjectData cfg s) with
  | .inl s => pure (.inl (.transfer s))
  | .inr _ =>
    let _ ← clearTrigger .ReadProjekt
    pure (.inl .poll)

def operatingLoop : Process Req Ans Text Stage Unit
  | .poll => iteration cfg MaximaleAnzahlProjekte
  | .transfer s => transferring cfg s

section Within

variable {N : Req → Prop}

theorem within_serveUpdateProjektList (hread : N (.readTrigger .UpdateProjektList))
    (hclear : N (.clearTrigger .UpdateProjektList))
    (hupdate : (updateProjectList cfg MaximaleAnzahlProjekte).Within fun q => N (.manager q)) :
    (serveUpdateProjektList cfg MaximaleAnzahlProjekte).Within N := by
  refine Prog.within_bind (p := readTrigger _) ⟨hread, fun _ => trivial⟩ fun a => ?_
  split
  · refine Prog.within_bind (p := clearTrigger _) ⟨hclear, fun _ => trivial⟩ fun _ => ?_
    exact Prog.within_bind (within_manager hupdate) fun _ => trivial
  · trivial

theorem within_serveShowProjektInfo (hread : N (.readTrigger .showProjektInfo))
    (hclear : N (.clearTrigger .showProjektInfo))
    (hshow : (showProjectInfo cfg).Within fun q => N (.manager q))
    (hwrote : N .writeProjektInfoWrote) : (serveShowProjektInfo cfg).Within N := by
  refine Prog.within_bind (p := readTrigger _) ⟨hread, fun _ => trivial⟩ fun a => ?_
  split
  · refine Prog.within_bind (p := clearTrigger _) ⟨hclear, fun _ => trivial⟩ fun _ => ?_
    refine Prog.within_bind (within_manager hshow) fun _ => ?_
    exact ⟨hwrote, fun _ => trivial⟩
  · trivial

theorem within_serveReadProjekt (hread : N (.readTrigger .ReadProjekt)) :
    serveReadProjekt.Within N := by
  refine Prog.within_bind (p := readTrigger _) ⟨hread, fun _ => trivial⟩ fun a => ?_
  split <;> trivial

theorem within_transferring (hclear : N (.clearTrigger .ReadProjekt)) {s : ProjectManager.Stage}
    (htransfer : (transferProjectData cfg s).Within fun q => N (.manager q)) :
    (transferring cfg s).Within N := by
  refine Prog.within_bind (within_manager htransfer) fun next => ?_
  cases next with
  | inl s => trivial
  | inr b => exact ⟨hclear, fun _ => trivial⟩

end Within

def Local : Req → Prop
  | .running | .settingsChanged | .linkDown | .opcEnabled | .dataExchangeEnabled
  | .heartbeatDue | .writeHeartbeat => True
  | _ => False

theorem only_beat : beat.Only Local := by
  refine ⟨trivial, fun due => ?_⟩
  cases due with
  | false => trivial
  | true => exact ⟨trivial, fun _ => trivial⟩

theorem safe_iteration {σ : Type} {S : System Req Ans σ} {G : Req → σ → Prop}
    {Q : Stage ⊕ Unit → σ → Prop} {X : Text → σ → Prop} {A : σ → Prop} (hA : Stable S A)
    (hN : Keeps S Local A) (hG : ∀ q, Local q → ∀ w, A w → G q w)
    (hpoll : ∀ w, A w → Q (.inl .poll) w) (hend : ∀ w, A w → Q (.inr ()) w)
    (hserve : ∀ w, A w → Safe S G Q X (do
      serveUpdateProjektList cfg MaximaleAnzahlProjekte
      serveShowProjektInfo cfg
      serveReadProjekt) w) {w : σ} (hw : A w) :
    Safe S G Q X (iteration cfg MaximaleAnzahlProjekte) w := by
  have hcall : ∀ {q : Req} {k : Ans q → M (Stage ⊕ Unit)} {w : σ}, Local q → A w →
      (∀ a w, A w → Safe S G Q X (k a) w) → Safe S G Q X (.call q k) w := by
    intro q k w hq hw hk
    apply Safe.call hA hw (hG q hq)
    intro w a w' hw hx
    exact hk a w' (hN q hq w a w' hw hx)
  refine hcall (q := Req.running) trivial hw fun run w hw => ?_
  cases run with
  | false => exact hend w hw
  | true =>
    refine hcall (q := Req.settingsChanged) trivial hw fun changed w hw => ?_
    cases changed with
    | true => exact hend w hw
    | false =>
      refine hcall (q := Req.linkDown) trivial hw fun down w hw => ?_
      cases down with
      | true => exact hend w hw
      | false =>
        refine hcall (q := Req.opcEnabled) trivial hw fun enabled w hw => ?_
        cases enabled with
        | false => exact hend w hw
        | true =>
          refine hcall (q := Req.dataExchangeEnabled) trivial hw fun dataOn w hw => ?_
          refine Safe.only_bind hA hN hG only_beat hw fun hbOk w hw => ?_
          cases hbOk with
          | false => exact hend w hw
          | true =>
            cases dataOn with
            | false => exact hpoll w hw
            | true => exact hserve w hw

end Loop

section World

/-- The flags, what happened to them, newest first, and the nodes and the log of the service when
it cleared `showProjektInfo` last. -/
structure Plc where
  trigger : Trigger → Bool
  ProjektInfoWrote : Bool
  trace : List (Requests.Event Trigger)
  asked : Nodes × List OpcUa.Event

abbrev World := OpcUa.World Plc

def World.seen (w : World) (t : Trigger) : World :=
  { w with plc := { w.plc with trace := .seen t :: w.plc.trace } }

def World.clear (w : World) (t : Trigger) : World :=
  { w with plc := { w.plc with
      trigger := Function.update w.plc.trigger t false
      trace := .clear t :: w.plc.trace
      asked := if t = .showProjektInfo then (w.nodes, w.log) else w.plc.asked } }

def World.set (w : World) (t : Trigger) : World :=
  { w with plc := { w.plc with
      trigger := Function.update w.plc.trigger t true
      trace := .set t :: w.plc.trace } }

def Truthful (w : World) : (q : Req) → Ans q → Prop
  | .readTrigger t, a => a.success = true → a.value = w.plc.trigger t
  | .manager q, a => OpcUa.Truthful w q a
  | _, _ => True

def after (w : World) : (q : Req) → Ans q → World
  | .readTrigger t, a => if a.success && a.value then World.seen w t else w
  | .clearTrigger t, a => if a.success then World.clear w t else w
  | .writeProjektInfoWrote, a =>
    if a.success then { w with plc := { w.plc with ProjektInfoWrote := true } } else w
  | .manager q, a => w.after q a
  | _, _ => w

/-- The system in which calls may be answered as `allow` says, and the others do what `rely` says. -/
def system (allow : World → (q : Req) → Ans q → Prop) (rely : World → World → Prop) :
    System Req Ans World where
  exec q w a w' := Truthful w q a ∧ allow w q a ∧ w' = after w q a
  rely := rely

def Succeeds : (q : Req) → Ans q → Prop
  | .writeHeartbeat, a => a.success = true
  | .readTrigger _, a => a.success = true
  | .clearTrigger _, a => a.success = true
  | .writeProjektInfoWrote, a => a.success = true
  | .manager q, a => OpcUa.Succeeds q a
  | _, _ => True

def honest (w : World) : (q : Req) → Ans q
  | .running => true
  | .settingsChanged => false
  | .linkDown => false
  | .opcEnabled => true
  | .dataExchangeEnabled => true
  | .heartbeatDue => false
  | .writeHeartbeat => { success := true }
  | .readTrigger t => { value := w.plc.trigger t, success := true }
  | .clearTrigger _ => { success := true }
  | .writeProjektInfoWrote => { success := true }
  | .manager q => OpcUa.honest w q

def goOn : Rely.Move Req Ans World := .run fun q w => (honest w q, after w q (honest w q))

theorem truthful_honest (w : World) (q : Req) : Truthful w q (honest w q) := by
  cases q with
  | readTrigger t => exact fun _ => rfl
  | manager q => exact OpcUa.truthful_honest w q
  | _ => trivial

theorem goOn_sound {allow : World → (q : Req) → Ans q → Prop} {rely : World → World → Prop}
    (h : ∀ w q, allow w q (honest w q)) : goOn.Sound (system allow rely) :=
  fun q w => ⟨truthful_honest w q, h w q, rfl⟩

theorem succeeds_honest (w : World) (q : Req) : Succeeds q (honest w q) := by
  cases q with
  | manager q => cases q <;> trivial
  | running | settingsChanged | linkDown | opcEnabled | dataExchangeEnabled
  | heartbeatDue => trivial
  | _ => rfl

end World

end Datenbereitstellung.OperatingLoop
