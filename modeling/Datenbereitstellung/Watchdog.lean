import Datenbereitstellung.OperatingLoop

namespace Datenbereitstellung.Watchdog

open Strings OperatingLoop Lib.Program Lib.Rely
open ProjectManager (Config)

section Session

/-- One session. `pass` is the number of passes of the operating loop that have started; `lost` has
for each loss that the watchdog saw the pass in which the loop was then, and `forgotten` those
whose mark a later round of the watchdog has taken back. -/
structure World where
  linkDown : Bool := false
  pass : Nat := 0
  lost : List Nat := []
  forgotten : List Nat := []

def World.watchdogRound (w : World) (reachable : Bool) : World :=
  if !reachable then
    { w with linkDown := true, lost := if w.linkDown then w.lost else w.pass :: w.lost }
  else { w with linkDown := false, forgotten := w.lost }

/-- The calls of the operating loop. Whatever the PLC answers, and however long that takes, the
callback of a transfer goes on only while the link is up. -/
def system : System Req Ans World where
  exec
    | .running, w, _, w' => w' = { w with pass := w.pass + 1 }
    | .linkDown, w, down, w' => down = w.linkDown ∧ w' = w
    | .manager .keepAlive, w, goOn, w' => (goOn = true → w.linkDown = false) ∧ w' = w
    | _, w, _, w' => w' = w
  rely w w' := ∃ reachable, w' = w.watchdogRound reachable

def Handles : Req → Prop
  | .readTrigger _ | .clearTrigger _ | .writeProjektInfoWrote | .manager _ => True
  | _ => False

/-- No loss was seen in an earlier pass. -/
def Heeded (w : World) : Prop := ∀ n ∈ w.lost, w.pass ≤ n

/-- No loss that was seen in an earlier pass has been taken back. -/
def Remembered (w : World) : Prop := ∀ n ∈ w.forgotten, w.pass ≤ n

end Session

section Invariants

variable {α : Type} {cfg : Config} {MaximaleAnzahlProjekte : Int} {w : World}

structure Coherent (w : World) : Prop where
  forgotten : w.forgotten ⊆ w.lost
  up : w.linkDown = false → w.lost ⊆ w.forgotten

structure Polled (w : World) : Prop where
  coherent : Coherent w
  polled : ∀ n ∈ w.lost, n < w.pass → n ∈ w.forgotten

theorem coherent_round (h : Coherent w) (reachable : Bool) : Coherent (w.watchdogRound reachable) := by
  cases reachable with
  | true => exact ⟨fun _ hn => hn, fun _ _ hn => hn⟩
  | false =>
    refine ⟨fun n hn => ?_, nofun⟩
    have hlost := h.forgotten hn
    cases hd : w.linkDown with
    | true => simpa [World.watchdogRound, hd] using hlost
    | false => simp [World.watchdogRound, hd, hlost]

theorem polled_round (h : Polled w) (reachable : Bool) : Polled (w.watchdogRound reachable) := by
  refine ⟨coherent_round h.coherent reachable, ?_⟩
  cases reachable with
  | true => exact fun n hn _ => hn
  | false =>
    intro n hn hlt
    have hlt : n < w.pass := hlt
    cases hd : w.linkDown with
    | true =>
      have hn : n ∈ w.lost := by simpa [World.watchdogRound, hd] using hn
      exact h.polled n hn hlt
    | false =>
      have hn : n = w.pass ∨ n ∈ w.lost := by simpa [World.watchdogRound, hd] using hn
      obtain rfl | hn := hn
      · exact absurd hlt (lt_irrefl _)
      · exact h.polled n hn hlt

theorem stable_coherent : Stable system Coherent := by
  rintro w _ h ⟨reachable, rfl⟩
  exact coherent_round h reachable

theorem stable_polled : Stable system Polled := by
  rintro w _ h ⟨reachable, rfl⟩
  exact polled_round h reachable

def Due (q : Req) (w : World) : Prop := Handles q → (Heeded w ↔ Remembered w)

theorem Polled.due (h : Polled w) (q : Req) : Due q w := by
  refine fun _ => ⟨fun hh n hn => hh n (h.coherent.forgotten hn), fun hr n hn => ?_⟩
  by_contra hlt
  exact hlt (hr n (h.polled n hn (not_le.mp hlt)))

def WithinPass : Req → Prop
  | .running => False
  | _ => True

theorem exec_withinPass {q : Req} (hq : WithinPass q) {a : Ans q} {w' : World}
    (hx : system.exec q w a w') : w' = w := by
  cases q with
  | running => exact hq.elim
  | linkDown => exact hx.2
  | manager q =>
    cases q with
    | keepAlive => exact hx.2
    | _ => exact hx
  | _ => exact hx

abbrev Ends (R : α → World → Prop) (p : M α) (w : World) : Prop :=
  Safe system Due R (fun _ => Polled) p w

theorem ends_unpolled {q : Req} (hq : WithinPass q) (hno : ¬Handles q) {R : α → World → Prop}
    (hw : Coherent w) {k : Ans q → M α} (hk : ∀ a w, Coherent w → Ends R (k a) w) :
    Ends R (.call q k) w := by
  refine Safe.call stable_coherent hw (fun _ _ h => (hno h).elim) fun w a w' h hx => hk a w' ?_
  rwa [exec_withinPass hq hx]

def AtHead : Stage → World → Prop
  | .poll => Coherent
  | .transfer _ => Polled

abbrev AtEnd : Stage ⊕ Unit → World → Prop := Sum.elim AtHead fun _ => Coherent

theorem ends_within {p : M (Stage ⊕ Unit)} (hp : p.Within WithinPass) (hw : Polled w) :
    Ends AtEnd p w := by
  refine (Safe.within stable_polled (fun q hq w a w' h hx => ?_) (fun q _ w h => h.due q) hp
    hw).mono (fun s w h => ?_) fun _ _ h => h
  · rwa [exec_withinPass hq hx]
  · obtain (_ | _) | _ := s
    · exact h.coherent
    · exact h
    · exact h.coherent

end Invariants

section Loop

variable {cfg : Config} {MaximaleAnzahlProjekte : Int} {w : World}

theorem within_manager {α : Type} {p : OpcUa.M α} : p.Within fun q => WithinPass (.manager q) :=
  Prog.within_of_forall (fun _ => trivial) p

theorem within_beat : beat.Within WithinPass := by
  refine ⟨trivial, fun due => ?_⟩
  cases due with
  | false => trivial
  | true => exact ⟨trivial, fun _ => trivial⟩

theorem within_serve : Prog.Within WithinPass (do
    serveUpdateProjektList cfg MaximaleAnzahlProjekte
    serveShowProjektInfo cfg
    serveReadProjekt) := by
  refine Prog.within_bind
    (within_serveUpdateProjektList cfg MaximaleAnzahlProjekte trivial trivial within_manager) fun _ => ?_
  exact Prog.within_bind (within_serveShowProjektInfo cfg trivial trivial within_manager trivial)
    fun _ => within_serveReadProjekt trivial

theorem ends_iteration (hw : Coherent w) :
    Ends AtEnd (iteration cfg MaximaleAnzahlProjekte) w := by
  apply Safe.call stable_coherent hw (fun _ _ h => h.elim)
  rintro w run w' h rfl
  have h : Coherent { w with pass := w.pass + 1 } := ⟨h.forgotten, h.up⟩
  cases run with
  | false => exact h
  | true =>
    refine ends_unpolled (q := .settingsChanged) trivial id h fun changed w h => ?_
    cases changed with
    | true => exact h
    | false =>
      apply Safe.call stable_coherent h (fun _ _ h => h.elim)
      rintro w down w' h ⟨hdown, rfl⟩
      cases down with
      | true => exact h
      | false =>
        refine ends_within (p := Prog.call .opcEnabled _) ⟨trivial, fun enabled => ?_⟩
          ⟨h, fun n hn _ => h.up hdown.symm hn⟩
        cases enabled with
        | false => trivial
        | true =>
          refine ⟨trivial, fun dataOn => Prog.within_bind (p := beat) within_beat fun hbOk => ?_⟩
          cases hbOk with
          | false => trivial
          | true =>
            cases dataOn with
            | false => trivial
            | true => exact within_serve

theorem due_of_reachable {c : Conf Req Ans Text Stage Unit World}
    (hc : Reachable system (operatingLoop cfg MaximaleAnzahlProjekte) .poll {} c) {q : Req}
    {k : Ans q → M (Stage ⊕ Unit)} (hcode : c.code = .call q k) : Due q c.world := by
  have hhead : ∀ s, Stable system (AtHead s) := by
    intro s
    cases s with
    | poll => exact stable_coherent
    | transfer s => exact stable_polled
  have hbody : ∀ s w, AtHead s w → Ends AtEnd (operatingLoop cfg MaximaleAnzahlProjekte s) w := by
    intro s w hw
    cases s with
    | poll => exact ends_iteration hw
    | transfer s => exact ends_within (within_transferring _ trivial within_manager) hw
  exact reachable_call hhead (fun _ => stable_coherent) (fun _ => stable_polled) hbody
    (i := .poll) (w := {}) ⟨fun _ hn => hn, fun _ _ hn => hn⟩ hc hcode

/-- In every run, when a trigger is about to be read or handled, every loss was seen in the same
pass exactly if none of an earlier pass was taken back before the loop asked for it. -/
theorem heeded_iff_remembered (cfg : Config) (MaximaleAnzahlProjekte : Int)
    (c : Conf Req Ans Text Stage Unit World)
    (hc : Reachable system (operatingLoop cfg MaximaleAnzahlProjekte) .poll {} c) (q : Req)
    (hq : Handles q) (k : Ans q → M (Stage ⊕ Unit)) (hcode : c.code = .call q k) :
    Heeded c.world ↔ Remembered c.world :=
  due_of_reachable hc hcode hq

end Loop

section Runs

def goOn : Move Req Ans World := .run fun q w =>
  match q with
  | .running => (true, { w with pass := w.pass + 1 })
  | .settingsChanged => (false, w)
  | .linkDown => (w.linkDown, w)
  | .opcEnabled => (true, w)
  | .dataExchangeEnabled => (true, w)
  | .heartbeatDue => (false, w)
  | .writeHeartbeat => ({ success := true }, w)
  | .readTrigger _ => ({ value := false, success := true }, w)
  | .clearTrigger _ => ({ success := true }, w)
  | .writeProjektInfoWrote => ({ success := true }, w)
  | .manager .keepAlive => (!w.linkDown, w)
  | .manager q => (OpcUa.honest (⟨OpcUa.emptyNodes, Files.FileSystem.ofFiles [], (), []⟩ :
      OpcUa.World Unit) q, w)

def probe (reachable : Bool) : Move Req Ans World := .env fun w => w.watchdogRound reachable

theorem goOn_sound : goOn.Sound system := by
  intro q w
  cases q with
  | linkDown => exact ⟨rfl, rfl⟩
  | manager q =>
    cases q with
    | keepAlive => exact ⟨fun h => by simpa using h, rfl⟩
    | _ => rfl
  | _ => rfl

theorem probe_sound (reachable : Bool) : (probe reachable).Sound system :=
  fun _ => ⟨reachable, rfl⟩

def watchedRun (rounds : List Bool) (n : Nat) : Conf Req Ans Text Stage Unit World :=
  play (operatingLoop ⟨[], 10, 10, 5⟩ 1)
    (List.replicate 7 goOn ++ (rounds.map probe ++ List.replicate n goOn)) ⟨.ret (.inl .poll), {}⟩

theorem watchedRun_reachable (rounds : List Bool) (n : Nat) :
    Reachable system (operatingLoop ⟨[], 10, 10, 5⟩ 1) .poll {} (watchedRun rounds n) := by
  refine play_reachable (fun m hm => ?_) Stage.poll ({} : World)
  simp only [List.mem_append, List.mem_replicate, List.mem_map] at hm
  obtain ⟨-, rfl⟩ | ⟨reachable, -, rfl⟩ | ⟨-, rfl⟩ := hm
  · exact goOn_sound
  · exact probe_sound reachable
  · exact goOn_sound

/-- The endpoint is back before the read returns, and the loop reads the triggers once more. -/
theorem heeded_takenBack : ¬∀ (cfg : Config) (MaximaleAnzahlProjekte : Int)
    (c : Conf Req Ans Text Stage Unit World),
    Reachable system (operatingLoop cfg MaximaleAnzahlProjekte) .poll {} c → ∀ q, Handles q →
      ∀ k, c.code = .call q k → Heeded c.world := by
  intro h
  have hheeded := h _ _ _ (watchedRun_reachable [false, true] 10)
    (.readTrigger .UpdateProjektList) trivial _ rfl
  exact absurd (hheeded 1 (by decide)) (by decide)

theorem heeded_samePass : Heeded (watchedRun [false, true] 1).world := by
  have hiff := heeded_iff_remembered _ _ _ (watchedRun_reachable [false, true] 1)
    (.readTrigger .showProjektInfo) trivial _ rfl
  refine hiff.mpr fun n hn => ?_
  obtain rfl : n = 1 := List.mem_singleton.mp hn
  decide

end Runs

end Datenbereitstellung.Watchdog
