import Datenbereitstellung.HandshakeInvariants

namespace Datenbereitstellung.PlcSimulator

open Strings OpcUa Handshake TransferRefinement HandshakeInvariants

variable {π : Type}

/-- What the PLC has taken, oldest first. -/
def received : List Event → List (Int × List Text)
  | [] => []
  | .call _ _ :: log => received log
  | .consumed i block :: log => received log ++ [(i, block)]

def written : List Event → Nat
  | [] => 0
  | .call (.writeStrings .DataArray _) a :: log =>
    if a.success then written log + 1 else written log
  | _ :: log => written log

def unread : List Event → Bool
  | [] => false
  | .call (.writeStrings .DataArray _) a :: log => if a.success then true else unread log
  | .call _ _ :: log => unread log
  | .consumed _ _ :: _ => false

section Shared

structure Shared (π : Type) where
  plc : π
  writeData : Bool
  readData : Bool
  published : Int
  index : Int
  array : StringArray
  received : List (Int × List Text)
  written : Nat
  unread : Bool

def shared (w : World π) : Shared π where
  plc := w.plc
  writeData := w.nodes.bool .WriteData
  readData := w.nodes.bool .ReadData
  published := w.nodes.int16 .AnzDatenblöcke
  index := w.nodes.int16 .IndexData
  array := w.nodes.strings .DataArray
  received := received w.log
  written := written w.log
  unread := unread w.log

variable (w : World π)

theorem written_call {q : Req} (hq : ∀ v, q ≠ .writeStrings .DataArray v) (a : Ans q)
    (log : List Event) :
    written (.call q a :: log) = written log ∧ unread (.call q a :: log) = unread log := by
  cases q with
  | writeStrings n v =>
    cases n with
    | DataArray => exact (hq v rfl).elim
    | ProjektArray => exact ⟨rfl, rfl⟩
  | _ => exact ⟨rfl, rfl⟩

theorem shared_after {q : Req} (hq : ∀ v, q ≠ .writeStrings .DataArray v) (a : Ans q) :
    shared (w.after q a) =
      { shared w with
        writeData := (w.nodes.after q a).bool .WriteData
        readData := (w.nodes.after q a).bool .ReadData
        published := (w.nodes.after q a).int16 .AnzDatenblöcke
        index := (w.nodes.after q a).int16 .IndexData
        array := (w.nodes.after q a).strings .DataArray } := by
  obtain ⟨hwritten, hunread⟩ := written_call hq a w.log
  rw [shared, World.after, hwritten, hunread]
  rfl

theorem shared_writeBool (n : BoolNode) (v : Bool) (a : Written) :
    shared (w.after (.writeBool n v) a) =
      { shared w with
        writeData := if a.success ∧ n = .WriteData then v else (shared w).writeData
        readData := if a.success ∧ n = .ReadData then v else (shared w).readData } := by
  rw [shared_after w fun _ he => by cases he]
  cases hs : a.success <;> simp [Nodes.after, hs, shared, eq_comm]

theorem shared_writeInt16 (n : Int16Node) (v : Int) (a : Written) :
    shared (w.after (.writeInt16 n v) a) =
      { shared w with
        published := if a.success ∧ n = .AnzDatenblöcke then v else (shared w).published
        index := if a.success ∧ n = .IndexData then v else (shared w).index } := by
  rw [shared_after w fun _ he => by cases he]
  cases hs : a.success <;> simp [Nodes.after, hs, shared, eq_comm]

theorem shared_quiet {q : Req} (hq : Quiet q) (a : Ans q) : shared (w.after q a) = shared w := by
  cases q with
  | writeBool n v =>
    obtain rfl : n = .Error := hq
    simp [shared_writeBool]
  | writeInt16 n v =>
    obtain rfl : n = .StatusCode := hq
    simp [shared_writeInt16]
  | writeStrings n v => exact hq.elim
  | _ => rfl

theorem shared_look {q : Req} (hq : Preliminary q) (a : Ans q) :
    ∃ n, shared (w.after q a) = { shared w with published := n } := by
  cases q with
  | writeBool n v =>
    refine ⟨(shared w).published, ?_⟩
    obtain rfl | rfl := hq
    · simp [shared_writeBool]
    · simp [shared_writeBool]
  | writeInt16 n v =>
    have hn : n ≠ .IndexData := hq
    exact ⟨_, by simp [shared_writeInt16, hn]; rfl⟩
  | writeStrings n v => exact hq.elim
  | _ => exact ⟨(shared w).published, rfl⟩

variable {w} {a : Written}

theorem shared_failedBool (hf : ¬a.success = true) (n : BoolNode) (v : Bool) :
    shared (w.after (.writeBool n v) a) = shared w := by
  simp [shared_writeBool, hf]

theorem shared_failedInt16 (hf : ¬a.success = true) (n : Int16Node) (v : Int) :
    shared (w.after (.writeInt16 n v) a) = shared w := by
  simp [shared_writeInt16, hf]

theorem shared_beendet (v : Bool) :
    shared (w.after (.writeBool .UebertgarungBeendet v) a) = shared w := by
  simp [shared_writeBool]

theorem shared_abbrechen (v : Bool) :
    shared (w.after (.writeBool .ubertragenAbbrechen v) a) = shared w := by
  simp [shared_writeBool]

variable (hs : a.success = true)
include hs

theorem shared_writeData (v : Bool) :
    shared (w.after (.writeBool .WriteData v) a) = { shared w with writeData := v } := by
  simp [shared_writeBool, hs]

theorem shared_readData (v : Bool) :
    shared (w.after (.writeBool .ReadData v) a) = { shared w with readData := v } := by
  simp [shared_writeBool, hs]

theorem shared_published (v : Int) :
    shared (w.after (.writeInt16 .AnzDatenblöcke v) a) = { shared w with published := v } := by
  simp [shared_writeInt16, hs]

theorem shared_index (v : Int) :
    shared (w.after (.writeInt16 .IndexData v) a) = { shared w with index := v } := by
  simp [shared_writeInt16, hs]

theorem shared_array (v : StringArray) :
    shared (w.after (.writeStrings .DataArray v) a) =
      { shared w with array := v, written := (shared w).written + 1, unread := true } := by
  simp [shared, World.after, Nodes.after, received, written, unread, hs]

end Shared

section Simulator

inductive Plc
  | idle
  | seen
  | indexed (index : Int)
  | taken
  | cleared

/-- The next access of `PlcSimulator::run` to the nodes. -/
def plcCycle (w : World Plc) : World Plc :=
  match w.plc with
  | .idle => if w.nodes.bool .WriteData then { w with plc := .seen } else w
  | .seen => { w with plc := .indexed (w.nodes.int16 .IndexData) }
  | .indexed i => { w with plc := .taken
                           log := .consumed i (w.nodes.strings .DataArray).elements :: w.log }
  | .taken => { w with plc := .cleared, nodes := w.nodes.setBool .WriteData false }
  | .cleared => { w with plc := .idle, nodes := w.nodes.setBool .ReadData true }

def plcSteps (w w' : World Plc) : Prop := w' = plcCycle w

def Shared.cycle (s : Shared Plc) : Shared Plc :=
  match s.plc with
  | .idle => if s.writeData then { s with plc := .seen } else s
  | .seen => { s with plc := .indexed s.index }
  | .indexed i => { s with plc := .taken, received := s.received ++ [(i, s.array.elements)]
                           unread := false }
  | .taken => { s with plc := .cleared, writeData := false }
  | .cleared => { s with plc := .idle, readData := true }

theorem shared_plcCycle (w : World Plc) : shared (plcCycle w) = (shared w).cycle := by
  obtain ⟨nodes, fs, plc, log⟩ := w
  cases plc with
  | idle => cases h : nodes.bool .WriteData <;> simp [plcCycle, shared, Shared.cycle, h]
  | seen => rfl
  | indexed i => rfl
  | taken => simp [plcCycle, shared, Shared.cycle]
  | cleared => simp [plcCycle, shared, Shared.cycle]

theorem plcCycle_log (w : World Plc) :
    (plcCycle w).log = w.log ∨ ∃ i b, (plcCycle w).log = .consumed i b :: w.log := by
  rw [plcCycle]
  split
  · split <;> exact .inl rfl
  · exact .inl rfl
  · exact .inr ⟨_, _, rfl⟩
  · exact .inl rfl
  · exact .inl rfl

theorem plcCycle_fs (w : World Plc) : (plcCycle w).fs = w.fs := by
  rw [plcCycle]
  split
  · split <;> rfl
  all_goals rfl

theorem plcCycle_nodes (w : World Plc) : (plcCycle w).nodes = w.nodes ∨
    (plcCycle w).nodes = w.nodes.setBool .WriteData false ∨
    (plcCycle w).nodes = w.nodes.setBool .ReadData true := by
  rw [plcCycle]
  split
  · split <;> exact .inl rfl
  · exact .inl rfl
  · exact .inl rfl
  · exact .inr (.inl rfl)
  · exact .inr (.inr rfl)

theorem plcCycle_congr {α : Type} {f : Nodes → α}
    (hf : ∀ ns n v, n = .WriteData ∨ n = .ReadData → f (ns.setBool n v) = f ns) (w : World Plc) :
    f (plcCycle w).nodes = f w.nodes := by
  obtain h | h | h := plcCycle_nodes w
  · rw [h]
  · rw [h]
    exact hf w.nodes .WriteData false (.inl rfl)
  · rw [h]
    exact hf w.nodes .ReadData true (.inr rfl)

theorem logKept_plcSteps : LogKept plcSteps := by
  rintro w w' rfl
  exact plcCycle_log w

theorem constant_plcSteps : Constant plcSteps where
  fs := by
    rintro w w' rfl
    exact plcCycle_fs w
  ProjektName := by
    rintro w w' rfl
    exact plcCycle_congr (f := (·.ProjektName)) (fun _ _ _ _ => rfl) w
  minArcRadius := by
    rintro w w' rfl
    exact plcCycle_congr (f := (·.minArcRadius)) (fun _ _ _ _ => rfl) w

end Simulator

end Datenbereitstellung.PlcSimulator
