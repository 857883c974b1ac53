import Datenbereitstellung.Lib.Rely
import Datenbereitstellung.OperatingLoop

namespace Datenbereitstellung.TriggerRequests

open Strings OperatingLoop Lib.Program Lib.Rely Lib.Requests
open OpcUa (Reading Written)
open ProjectManager (Config)

section Plc

/-- The PLC asks, takes a request back, or does anything to the other nodes and files. -/
inductive PlcStep : World → World → Prop
  | ask (w : World) (t : Trigger) : PlcStep w (w.set t)
  | withdraw (w : World) (t : Trigger) : PlcStep w
      { w with plc := { w.plc with trigger := Function.update w.plc.trigger t false } }
  | other {w w' : World} (ht : w'.plc.trigger = w.plc.trigger) (hl : w'.plc.trace = w.plc.trace) :
      PlcStep w w'

/-- Every OPC access is one step, and it succeeds. -/
abbrev loopSystem : System Req Ans World := system (fun _ => Succeeds) PlcStep

end Plc

section Held

variable {α β : Type} {hand : Option Trigger} {t : Trigger} {w : World}

structure Held (hand : Option Trigger) (w : World) : Prop where
  disciplined : Disciplined w.plc.trace
  inHand : ∀ t, inHand t w.plc.trace = decide (hand = some t)

theorem Held.congr {w' : World} (h : Held hand w) (he : w'.plc.trace = w.plc.trace) :
    Held hand w' := by
  constructor
  · rw [he]
    exact h.disciplined
  · rw [he]
    exact h.inHand

theorem stable_held (hand : Option Trigger) : Stable loopSystem (Held hand) := by
  intro w w' h hr
  cases hr with
  | ask => exact ⟨h.disciplined, h.inHand⟩
  | withdraw => exact ⟨h.disciplined, h.inHand⟩
  | other _ hl => exact h.congr hl

theorem Held.seen (h : Held none w) (t : Trigger) : Held (some t) (World.seen w t) := by
  refine ⟨⟨h.inHand t, h.disciplined⟩, fun u => ?_⟩
  rw [World.seen, Lib.Requests.inHand, h.inHand u]
  split
  · rename_i htu
    simp [htu]
  · rename_i htu
    simp [htu]

theorem Held.clear (h : Held (some t) w) : Held none (World.clear w t) := by
  refine ⟨⟨by simp [h.inHand t], h.disciplined⟩, fun u => ?_⟩
  rw [World.clear, Lib.Requests.inHand, h.inHand u]
  split
  · rfl
  · rename_i htu
    simp [htu]

def Elsewhere : Req → Prop
  | .readTrigger _ | .clearTrigger _ => False
  | _ => True

theorem keeps_held (hand : Option Trigger) : Keeps loopSystem Elsewhere (Held hand) := by
  rintro q hq w a _ h ⟨-, -, rfl⟩
  cases q with
  | readTrigger t => exact hq.elim
  | clearTrigger t => exact hq.elim
  | writeProjektInfoWrote =>
    simp only [after]
    split
    · exact ⟨h.disciplined, h.inHand⟩
    · exact h
  | _ => exact ⟨h.disciplined, h.inHand⟩

abbrev Orderly (Q : α → World → Prop) (p : M α) (w : World) : Prop :=
  Safe loopSystem (fun _ w => Disciplined w.plc.trace) Q (fun _ w => ∃ hand, Held hand w) p w

theorem orderly_within {p : M β} {f : β → M α} {Q : α → World → Prop}
    (hp : p.Within Elsewhere) (hw : Held hand w) (hf : ∀ b w, Held hand w → Orderly Q (f b) w) :
    Orderly Q (p >>= f) w :=
  Safe.within_bind (stable_held hand) (keeps_held hand) (fun _ _ _ h => h.disciplined) hp hw hf
    fun _ _ h => ⟨hand, h⟩

theorem orderly_manager {p : OpcUa.M β} {f : β → M α} {Q : α → World → Prop}
    (hw : Held hand w) (hf : ∀ b w, Held hand w → Orderly Q (f b) w) :
    Orderly Q (manager p >>= f) w :=
  orderly_within (within_manager (Prog.within_of_forall (fun _ => trivial) p)) hw hf

theorem orderly_call {q : Req} (hq : Elsewhere q) {k : Ans q → M α}
    {Q : α → World → Prop} (hw : Held hand w) (hk : ∀ a w, Held hand w → Orderly Q (k a) w) :
    Orderly Q (.call q k) w :=
  orderly_within (p := Prog.perform q) ⟨hq, fun _ => trivial⟩ hw hk

theorem orderly_readTrigger {f : Reading Bool → M α} {Q : α → World → Prop}
    (hw : Held none w)
    (hyes : ∀ a w, (a.success && a.value) = true → Held (some t) w → Orderly Q (f a) w)
    (hno : ∀ a w, ¬(a.success && a.value) = true → Held none w → Orderly Q (f a) w) :
    Orderly Q (readTrigger t >>= f) w := by
  apply Safe.call (stable_held none) hw (fun _ h => h.disciplined)
  rintro w a _ h ⟨-, -, rfl⟩
  simp only [after]
  split
  · rename_i ha
    exact hyes a _ ha (h.seen t)
  · rename_i ha
    exact hno a _ ha h

theorem orderly_clearTrigger {f : Written → M α} {Q : α → World → Prop}
    (hw : Held (some t) w) (hf : ∀ a w, Held none w → Orderly Q (f a) w) :
    Orderly Q (clearTrigger t >>= f) w := by
  apply Safe.call (stable_held _) hw (fun _ h => h.disciplined)
  rintro w a _ h ⟨-, hs, rfl⟩
  have hs : a.success = true := hs
  simp only [after, hs, if_true]
  exact hf a _ h.clear

end Held

section Loop

variable {cfg : Config} {MaximaleAnzahlProjekte : Int} {w w₀ : World}

/-- In the operating loop nothing is in hand, during a transfer `ReadProjekt` is. -/
def handAt : Stage → Option Trigger
  | .poll => none
  | .transfer _ => some .ReadProjekt

abbrev AtEnd : Stage ⊕ Unit → World → Prop :=
  Sum.elim (fun s => Held (handAt s)) fun _ => Held none

theorem orderly_serveUpdateProjektList {f : Unit → M (Stage ⊕ Unit)} (hw : Held none w)
    (hf : ∀ w, Held none w → Orderly AtEnd (f ()) w) :
    Orderly AtEnd (serveUpdateProjektList cfg MaximaleAnzahlProjekte >>= f) w := by
  rw [serveUpdateProjektList, Prog.bind_assoc]
  refine orderly_readTrigger hw (fun a w ha hw => ?_) fun a w ha hw => ?_
  · rw [if_pos ha, Prog.bind_assoc]
    refine orderly_clearTrigger hw fun _ w hw => ?_
    rw [Prog.bind_assoc]
    exact orderly_manager hw fun _ w hw => hf w hw
  · rw [if_neg ha]
    exact hf w hw

theorem orderly_serveShowProjektInfo {f : Unit → M (Stage ⊕ Unit)} (hw : Held none w)
    (hf : ∀ w, Held none w → Orderly AtEnd (f ()) w) :
    Orderly AtEnd (serveShowProjektInfo cfg >>= f) w := by
  rw [serveShowProjektInfo, Prog.bind_assoc]
  refine orderly_readTrigger hw (fun a w ha hw => ?_) fun a w ha hw => ?_
  · rw [if_pos ha, Prog.bind_assoc]
    refine orderly_clearTrigger hw fun _ w hw => ?_
    rw [Prog.bind_assoc]
    refine orderly_manager hw fun _ w hw => ?_
    exact orderly_call (q := Req.writeProjektInfoWrote) trivial hw fun _ w hw => hf w hw
  · rw [if_neg ha]
    exact hf w hw

theorem orderly_serveReadProjekt (hw : Held none w) : Orderly AtEnd serveReadProjekt w := by
  refine orderly_readTrigger hw (fun a w ha hw => ?_) fun a w ha hw => ?_
  · rw [if_pos ha]
    exact hw
  · rw [if_neg ha]
    exact hw

theorem orderly_iteration (hw : Held none w) :
    Orderly AtEnd (iteration cfg MaximaleAnzahlProjekte) w := by
  have hlocal : ∀ q, Local q → Elsewhere q := by
    intro q hq
    cases q <;> trivial
  refine safe_iteration cfg MaximaleAnzahlProjekte (stable_held none)
    (fun q hq => keeps_held none q (hlocal q hq)) (fun _ _ _ h => h.disciplined) (fun _ h => h)
    (fun _ h => h) (fun w hw => ?_) hw
  refine orderly_serveUpdateProjektList hw fun w hw => ?_
  refine orderly_serveShowProjektInfo hw fun w hw => ?_
  exact orderly_serveReadProjekt hw

theorem orderly_transferring {s : ProjectManager.Stage} (hw : Held (some .ReadProjekt) w) :
    Orderly AtEnd (transferring cfg s) w := by
  refine orderly_manager hw fun next w hw => ?_
  cases next with
  | inl s => exact hw
  | inr b => exact orderly_clearTrigger hw fun _ w hw => hw

theorem held_init (hw₀ : w₀.plc.trace = []) : Held (handAt .poll) w₀ := by
  refine ⟨?_, fun t => ?_⟩
  · rw [hw₀]
    trivial
  · rw [hw₀]
    rfl

theorem stable_hand : Stable loopSystem fun w => ∃ hand, Held hand w := by
  rintro w w' ⟨hand, hw⟩ hr
  exact ⟨hand, stable_held hand w w' hw hr⟩

theorem orderly_operatingLoop (s : Stage) (w : World) (hw : Held (handAt s) w) :
    Orderly AtEnd (operatingLoop cfg MaximaleAnzahlProjekte s) w := by
  cases s with
  | poll => exact orderly_iteration hw
  | transfer s => exact orderly_transferring hw

theorem disciplined_of_reachable (hw₀ : w₀.plc.trace = []) {c : Conf Req Ans Text Stage Unit World}
    (hc : Reachable loopSystem (operatingLoop cfg MaximaleAnzahlProjekte) .poll w₀ c) :
    Disciplined c.world.plc.trace := by
  refine reachable_invariant (L := fun s => Held (handAt s)) (P := fun _ => Held none)
    (X := fun _ w => ∃ hand, Held hand w) (fun s => stable_held (handAt s))
    (fun _ => stable_held none) (fun _ => stable_hand) orderly_operatingLoop
    (fun _ _ hw => hw.disciplined) (fun _ _ hw => hw.disciplined) ?_ (held_init hw₀) hc
  rintro _ w ⟨hand, hw⟩
  exact hw.disciplined

/-- In every run, all requests are served exactly if none comes while the service has the same
trigger in hand and goes on to clear it. -/
theorem served_iff (hw₀ : w₀.plc.trace = []) {c : Conf Req Ans Text Stage Unit World}
    (hc : Reachable loopSystem (operatingLoop cfg MaximaleAnzahlProjekte) .poll w₀ c)
    (t : Trigger) : Served t c.world.plc.trace ↔ Spared t c.world.plc.trace :=
  served_iff_spared (disciplined_of_reachable hw₀ hc)

end Loop

section Lost

def aborting : World where
  nodes := { OpcUa.emptyNodes.setBool .ubertragenAbbrechen true with ProjektName := ['p'] }
  fs := { status := fun _ => .ok (some .regular), content := fun _ => some ['\n', 'G']
          entries := fun _ => .ok [] }
  plc := { trigger := fun _ => false, ProjektInfoWrote := false, trace := []
           asked := (OpcUa.emptyNodes, []) }

def ask : Move Req Ans World := .env fun w => w.set .ReadProjekt

def runOf (ms : List (Move Req Ans World)) : Conf Req Ans Text Stage Unit World :=
  play (operatingLoop ⟨['d'], 1, 1, 1⟩ 1) ms ⟨.ret (.inl .poll), aborting⟩

theorem reachable_runOf {ms : List (Move Req Ans World)} (hms : ∀ m ∈ ms, m = ask ∨ m = goOn) :
    Reachable loopSystem (operatingLoop ⟨['d'], 1, 1, 1⟩ 1) .poll aborting (runOf ms) := by
  refine play_reachable (fun m hm => ?_) Stage.poll aborting
  obtain rfl | rfl := hms m hm
  · exact fun w => .ask w .ReadProjekt
  · exact goOn_sound succeeds_honest

def oneRequest : List (Move Req Ans World) := ask :: List.replicate 54 goOn

def secondRequest : List (Move Req Ans World) := ask :: List.replicate 53 goOn ++ [ask, goOn]

theorem trace_oneRequest : (runOf oneRequest).world.plc.trace =
    [.clear .ReadProjekt, .seen .ReadProjekt, .set .ReadProjekt] := by
  decide +kernel

theorem trace_secondRequest : (runOf secondRequest).world.plc.trace =
    [.clear .ReadProjekt, .set .ReadProjekt, .seen .ReadProjekt, .set .ReadProjekt] := by
  decide +kernel

theorem not_served_secondRequest : ¬∀ (cfg : Config) (MaximaleAnzahlProjekte : Int) (w₀ : World),
    w₀.plc.trace = [] → ∀ c,
    Reachable loopSystem (operatingLoop cfg MaximaleAnzahlProjekte) .poll w₀ c →
    ∀ t, Served t c.world.plc.trace := by
  intro h
  have hms : ∀ m ∈ secondRequest, m = ask ∨ m = goOn := by simp [secondRequest]
  have hserved := h _ _ aborting rfl _ (reachable_runOf hms) .ReadProjekt
  have hseen := hserved [] [] [.seen .ReadProjekt, .set .ReadProjekt] trace_secondRequest (by simp)
  exact List.not_mem_nil hseen

example : (runOf (ask :: List.replicate 53 goOn)).world.nodes.bool .UebertgarungBeendet = true := by
  decide +kernel

theorem served_oneRequest : Served .ReadProjekt (runOf oneRequest).world.plc.trace := by
  have hms : ∀ m ∈ oneRequest, m = ask ∨ m = goOn := by simp [oneRequest]
  refine (served_iff rfl (reachable_runOf hms) .ReadProjekt).mpr fun later earlier he hhand => ?_
  rw [trace_oneRequest] at he
  have hfirst : earlier = [] := by
    obtain _ | ⟨_, _ | ⟨_, _ | ⟨_, later⟩⟩⟩ := later <;> simp_all
  rw [hfirst] at hhand
  exact Bool.noConfusion hhand

end Lost

end Datenbereitstellung.TriggerRequests
