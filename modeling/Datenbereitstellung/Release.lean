import Datenbereitstellung.HandshakeInvariants

namespace Datenbereitstellung.Release

open Strings Files OpcUa ProjectManager Handshake TransferRefinement HandshakeInvariants
open Lib.Program Lib.Rely

section Flags

variable {π : Type} {cfg : Config} {allow : World π → (q : Req) → Ans q → Prop}
variable {rely : World π → World π → Prop} {w₀ : World π}

def lastWritten (n : BoolNode) : List Event → Option Bool
  | [] => none
  | .call (.writeBool m v) a :: log =>
    if m = n ∧ a.success = true then some v else lastWritten n log
  | _ :: log => lastWritten n log

def isFlag (n : BoolNode) : Prop := n = .WriteData ∨ n = .ReadData ∨ n = .UebertgarungBeendet

/-- The flags by which the PLC learns that the service is free again. -/
structure Released (log : List Event) : Prop where
  writeData : lastWritten .WriteData log = some false
  readData : lastWritten .ReadData log = some false
  beendet : lastWritten .UebertgarungBeendet log = some true

theorem lastWritten_preliminary {q : Req} (hq : Preliminary q) {n : BoolNode} (hn : isFlag n)
    (a : Ans q) (log : List Event) : lastWritten n (.call q a :: log) = lastWritten n log := by
  cases q with
  | writeBool m v =>
    have hne : ¬(m = n ∧ a.success = true) := by
      rintro ⟨rfl, -⟩
      obtain rfl | rfl | rfl := hn <;> simp [Preliminary] at hq
    exact if_neg hne
  | _ => rfl

theorem lastWritten_of_logKept (hlog : LogKept rely) {w w' : World π} (hr : rely w w')
    (n : BoolNode) : lastWritten n w'.log = lastWritten n w.log :=
  hlog.congr (f := lastWritten n) (fun _ _ _ => rfl) hr

theorem lastWritten_write {n : BoolNode} {v : Bool} {a : Written} (ha : a.success = true)
    (log : List Event) : lastWritten n (.call (.writeBool n v) a :: log) = some v := by
  simp [lastWritten, ha]

theorem lastWritten_write_ne {n m : BoolNode} (h : m ≠ n) (v : Bool) (a : Written)
    (log : List Event) : lastWritten n (.call (.writeBool m v) a :: log) = lastWritten n log := by
  simp [lastWritten, h]

def FlagsAt : Pc → (BoolNode → Option Bool) → Prop
  | .prelude, f | .prepared _, f | .published _, f => ∀ n, isFlag n → f n = none
  | .closing _ 1, f => f .WriteData = some false
  | .closing _ 2, f => f .WriteData = some false ∧ f .ReadData = some false
  | .done _, f => f .WriteData = some false ∧ f .ReadData = some false ∧
      f .UebertgarungBeendet = some true
  | _, _ => True

theorem flagsAt_congr {pc : Pc} {f g : BoolNode → Option Bool} (h : ∀ n, isFlag n → g n = f n)
    (hf : FlagsAt pc f) : FlagsAt pc g := by
  have hw := h .WriteData (.inl rfl)
  have hr := h .ReadData (.inr (.inl rfl))
  have hb := h .UebertgarungBeendet (.inr (.inr rfl))
  cases pc with
  | prelude | prepared | published => exact fun n hn => (h n hn).trans (hf n hn)
  | closing b i =>
    match i with
    | 1 => exact hw.trans hf
    | 2 => exact ⟨hw.trans hf.1, hr.trans hf.2⟩
    | 0 | _ + 3 => trivial
  | done => exact ⟨hw.trans hf.1, hr.trans hf.2.1, hb.trans hf.2.2⟩
  | _ => trivial

def FlagWritesSucceed (allow : World π → (q : Req) → Ans q → Prop) : Prop :=
  ∀ w n v a, isFlag n → allow w (.writeBool n v) a → a.success = true

theorem flagsAt_of_run (hlog : LogKept rely) (hflags : FlagWritesSucceed allow)
    (hw₀ : w₀.log = []) {pc : Pc} {w : World π} (h : Run cfg allow rely w₀ pc w) :
    FlagsAt pc (lastWritten · w.log) := by
  induction h with
  | init =>
    rw [hw₀]
    exact fun _ _ => rfl
  | others _ hr ih => exact flagsAt_congr (fun n _ => lastWritten_of_logKept hlog hr n) ih
  | @call pc pc' w q a _ _ ha hs ih =>
    cases hs with
    | quiet _ hq =>
      exact flagsAt_congr (fun n hn => lastWritten_preliminary (preliminary_of_quiet hq) hn a _) ih
    | look hq => exact flagsAt_congr (fun n hn => lastWritten_preliminary hq hn a _) ih
    | publish t => exact flagsAt_congr (fun n hn => rfl) ih
    | closeWriteData => exact lastWritten_write (hflags _ _ _ _ (.inl rfl) ha) _
    | closeReadData =>
      refine ⟨?_, lastWritten_write (hflags _ _ _ _ (.inr (.inl rfl)) ha) _⟩
      exact (lastWritten_write_ne (by decide) _ _ _).trans ih
    | closeBeendet =>
      refine ⟨?_, ?_, lastWritten_write (hflags _ _ _ _ (.inr (.inr rfl)) ha) _⟩
      · exact (lastWritten_write_ne (by decide) _ _ _).trans ih.1
      · exact (lastWritten_write_ne (by decide) _ _ _).trans ih.2
    | _ => trivial
  | prepare _ _ _ ih => exact ih
  | resume => trivial
  | fail => trivial

end Flags

section Exits

/-- The three flags can be written; all else may fail in any way. -/
def flagsWritable (_ : World Unit) : (q : Req) → Ans q → Prop
  | .writeBool n _, a => isFlag n → a.success = true
  | _, _ => True

/-- Nodes and folder may change at any time. -/
def anythingElse (w w' : World Unit) : Prop := w'.log = w.log

/-- Every way out of the call releases the PLC exactly if it got past its lookups: both names
were readable, what was shown had records and a picture, and the second lookup found the
project or was stopped by an exception. -/
theorem released_iff (cfg : Config) (w₀ : World Unit) (hw₀ : w₀.log = [])
    (c : Conf Req Ans Text Stage Bool (World Unit))
    (hc : Reachable (system flagsWritable anythingElse) (transferProjectData cfg) .start w₀ c) :
    (∀ e, c.code ≠ .raise e) ∧
      ∀ b, c.code = .ret (.inr b) → (Released c.world.log ↔ Engages cfg (view c.world.log)) := by
  have hlog : LogKept anythingElse := fun _ _ h => .inl h
  have hflags : FlagWritesSucceed flagsWritable := fun _ _ _ _ hn ha => ha hn
  have hsafe := transferProjectData_refines hlog hw₀ hc
  obtain ⟨code, w⟩ := c
  constructor
  · rintro e rfl
    exact hsafe
  · rintro b rfl
    obtain hdone | ⟨-, hrun, hnot⟩ := hsafe
    · obtain ⟨h₁, h₂, h₃⟩ := flagsAt_of_run hlog hflags hw₀ hdone
      exact iff_of_true ⟨h₁, h₂, h₃⟩ (engages_of_run hlog hdone nofun)
    · refine iff_of_false (fun h => ?_) hnot
      have hnone := flagsAt_of_run hlog hflags hw₀ hrun .WriteData (.inl rfl)
      exact absurd (h.writeData.symm.trans hnone) nofun

def folder : Config := { folderPath := ['d'], imageSizeX := 1, imageSizeY := 1, lenDataArray := 1 }

/-- A folder `d` with a file `A` of one record; `name` is chosen. -/
def chosen (name : Text) : World Unit where
  nodes := { emptyNodes with ProjektName := name }
  fs := .ofFiles [(['d', '/', 'A'], ['h', '\n', 'a', '\n'])]
  plc := ()

def shutdown : Move Req Ans (World Unit) := .run fun q w =>
  match q with
  | .keepAlive => (false, w.after .keepAlive false)
  | q => (honest w q, w.after q (honest w q))

def runWith (name : Text) (ms : List (Move Req Ans (World Unit))) :
    Conf Req Ans Text Stage Bool (World Unit) :=
  play (transferProjectData folder) ms ⟨.ret (.inl .start), chosen name⟩

def resultOf (c : Conf Req Ans Text Stage Bool (World Unit)) : Option Bool :=
  match c.code with
  | .ret (.inr b) => some b
  | _ => none

theorem code_of_resultOf {c : Conf Req Ans Text Stage Bool (World Unit)} {b : Bool}
    (h : resultOf c = some b) : c.code = .ret (.inr b) := by
  unfold resultOf at h
  split at h
  · rename_i b' hcode
    rw [hcode, Option.some.inj h]
  · cases h

theorem reachable_runWith (name : Text) {ms : List (Move Req Ans (World Unit))}
    (hms : ∀ m ∈ ms, m = shutdown) :
    Reachable (system flagsWritable anythingElse) (transferProjectData folder) .start (chosen name)
      (runWith name ms) := by
  refine play_reachable (fun m hm => ?_) Stage.start (chosen name)
  obtain rfl := hms m hm
  intro q w
  cases q with
  | keepAlive => exact ⟨trivial, trivial, rfl⟩
  | writeBool n v => exact ⟨truthful_honest w _, fun _ => rfl, rfl⟩
  | _ => exact ⟨truthful_honest w _, trivial, rfl⟩

/-- Without a project name the call ends without a word to the PLC. -/
theorem released_withoutName : ¬∀ (cfg : Config) (w₀ : World Unit), w₀.log = [] →
    ∀ c, Reachable (system flagsWritable anythingElse) (transferProjectData cfg) .start w₀ c →
      ∀ b, c.code = .ret (.inr b) → Released c.world.log := by
  intro h
  have hb : resultOf (runWith [] (List.replicate 5 shutdown)) = some false := by decide +kernel
  have hr := h folder (chosen []) rfl _ (reachable_runWith [] (by simp)) _ (code_of_resultOf hb)
  have hn : lastWritten .WriteData (runWith [] (List.replicate 5 shutdown)).world.log = none := by
    decide +kernel
  exact absurd (hr.writeData.symm.trans hn) nofun

theorem released_withName :
    let c := runWith ['A'] (List.replicate 43 shutdown)
    Released c.world.log ↔ Engages folder (view c.world.log) := by
  have hb : resultOf (runWith ['A'] (List.replicate 43 shutdown)) = some true := by decide +kernel
  exact (released_iff folder (chosen ['A']) rfl _ (reachable_runWith ['A'] (by simp))).2 _
    (code_of_resultOf hb)

end Exits

end Datenbereitstellung.Release
