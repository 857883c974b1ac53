import Datenbereitstellung.PlcSimulator

namespace Datenbereitstellung.UnreadBlock

open Strings Files OpcUa ProjectManager Handshake TransferRefinement HandshakeInvariants
open PlcSimulator Lib.Program Lib.Rely
open ProjectFileReader (countRecords)

section Log

/-- `IndexData` and `DataArray` were only ever changed when the PLC had taken the block there. -/
def kept : List Event → Bool
  | [] => true
  | .call (.writeInt16 .IndexData _) a :: log => (!a.success || !unread log) && kept log
  | .call (.writeStrings .DataArray _) a :: log => (!a.success || !unread log) && kept log
  | _ :: log => kept log

/-- Since the service last wrote `ReadData` it has read that the PLC asks for a block. -/
def requested : List Event → Bool
  | [] => false
  | .call (.readBool .ReadData) a :: log => a.success && a.value || requested log
  | .call (.writeBool .ReadData _) _ :: _ => false
  | _ :: log => requested log

theorem kept_preliminary {q : Req} (hq : Preliminary q) (a : Ans q) (log : List Event) :
    kept (.call q a :: log) = kept log := by
  cases q with
  | writeInt16 n v =>
    cases n with
    | IndexData => exact (hq rfl).elim
    | _ => rfl
  | writeStrings => exact hq.elim
  | _ => rfl

theorem requested_quiet {q : Req} (hq : Quiet q) (a : Ans q) {log : List Event}
    (h : requested log = true) : requested (.call q a :: log) = true := by
  cases q with
  | readBool n =>
    cases n with
    | ReadData =>
      rw [requested, h]
      exact Bool.or_true _
    | _ => exact h
  | writeBool n v =>
    obtain rfl : n = .Error := hq
    exact h
  | _ => exact h

theorem requested_plcCycle (w : World Plc) : requested (plcCycle w).log = requested w.log := by
  obtain h | ⟨i, b, h⟩ := plcCycle_log w
  · rw [h]
  · rw [h]
    rfl

theorem kept_plcCycle (w : World Plc) : kept (plcCycle w).log = kept w.log := by
  obtain h | ⟨i, b, h⟩ := plcCycle_log w
  · rw [h]
  · rw [h]
    rfl

end Log

section Cycle

variable {s : Shared Plc} {N : Int}

structure Rest (s : Shared Plc) : Prop where
  plc : s.plc = .idle
  writeData : s.writeData = false
  unread : s.unread = false

inductive Pending (s : Shared Plc) : Prop
  | unannounced (hp : s.plc = .idle) (hw : s.writeData = false) (hr : s.readData = false)
  | announced (hp : s.plc = .idle ∨ s.plc = .seen ∨ ∃ i, s.plc = .indexed i)
      (hw : s.writeData = true) (hr : s.readData = false)
  | taken (hp : s.plc = .taken) (hr : s.readData = false) (hu : s.unread = false)
  | cleared (hp : s.plc = .cleared) (hw : s.writeData = false) (hr : s.readData = false)
      (hu : s.unread = false)
  | acknowledged (h : Rest s)

theorem cycle_of_idle (hp : s.plc = .idle) (hw : s.writeData = false) : s.cycle = s := by
  simp [Shared.cycle, hp, hw]

theorem Rest.cycle (h : Rest s) : s.cycle = s := cycle_of_idle h.plc h.writeData

theorem Pending.cycle (h : Pending s) : Pending s.cycle := by
  cases h with
  | unannounced hp hw hr =>
    rw [cycle_of_idle hp hw]
    exact .unannounced hp hw hr
  | announced hp hw hr =>
    obtain hp | hp | ⟨i, hp⟩ := hp
    · simp only [Shared.cycle, hp, hw, if_true]
      exact .announced (.inr (.inl rfl)) rfl hr
    · simp only [Shared.cycle, hp]
      exact .announced (.inr (.inr ⟨_, rfl⟩)) hw hr
    · simp only [Shared.cycle, hp]
      exact .taken rfl hr rfl
  | taken hp hr hu =>
    simp only [Shared.cycle, hp]
    exact .cleared rfl rfl hr hu
  | cleared hp hw hr hu =>
    simp only [Shared.cycle, hp]
    exact .acknowledged ⟨rfl, hw, hu⟩
  | acknowledged h =>
    rw [h.cycle]
    exact .acknowledged h

theorem Pending.rest (h : Pending s) (hr : s.readData = true) : Rest s := by
  cases h with
  | acknowledged h => exact h
  | unannounced _ _ hr' | announced _ _ hr' | taken _ hr' | cleared _ _ hr' =>
    rw [hr'] at hr
    cases hr

theorem written_cycle (s : Shared Plc) : s.cycle.written = s.written := by
  rw [Shared.cycle]
  split
  · split <;> rfl
  all_goals rfl

/-- Up to its last block the service writes only when the PLC has taken what there was. -/
def At (N : Int) : Pc → Shared Plc → Prop
  | .prelude, s => Rest s ∧ s.written = 0
  | .prepared t, s | .published t, s | .opening t _, s =>
    t.currentBlock = 0 ∧ Rest s ∧ s.written = 0
  | .waiting t, s => t.currentBlock = s.written ∧ Pending s
  | .granted t, s => t.currentBlock = s.written ∧ Rest s
  | .cleared t, s | .indexed t, s | .loaded t _, s | .patching t _ _, s =>
    t.currentBlock = s.written ∧ Rest s ∧ (t.currentBlock + 1 < N → s.readData = false)
  | .filled t, s => t.currentBlock + 1 = s.written ∧
      (t.currentBlock + 1 < N → s.plc = .idle ∧ s.writeData = false ∧ s.readData = false)
  | .sent t, s => t.currentBlock = s.written ∧ (t.currentBlock < N → Pending s)
  | _, _ => True

theorem at_cycle {pc : Pc} (h : At N pc s) : At N pc s.cycle := by
  have hwr := written_cycle s
  have rest : Rest s → At N pc s.cycle := by
    intro hi
    rw [hi.cycle]
    exact h
  cases pc with
  | prelude => exact rest h.1
  | prepared | published | opening | cleared | indexed | loaded | patching => exact rest h.2.1
  | granted => exact rest h.2
  | waiting => exact ⟨by rw [hwr]; exact h.1, h.2.cycle⟩
  | filled =>
    refine ⟨by rw [hwr]; exact h.1, fun hN => ?_⟩
    obtain ⟨hp, hw, hr⟩ := h.2 hN
    rw [cycle_of_idle hp hw]
    exact ⟨hp, hw, hr⟩
  | sent => exact ⟨by rw [hwr]; exact h.1, fun hN => (h.2 hN).cycle⟩
  | _ => trivial

end Cycle

section Run

/-- Any call may fail, except for the write by which the service takes a request of the PLC:
that one succeeds as long as it is not for the last block. -/
def requestsTaken (N : Int) (w : World Plc) : (q : Req) → Ans q → Prop
  | .writeBool .ReadData false, a =>
    requested w.log = true → written w.log + 1 < N → a.success = true
  | _, _ => True

/-- The PLC waits for a project of `N` blocks. -/
structure Start (cfg : Config) (content : Text) (N : Int) (w₀ : World Plc) : Prop where
  log : w₀.log = []
  plc : w₀.plc = .idle
  writeData : w₀.nodes.bool .WriteData = false
  file : w₀.fs.content (chosenPath cfg w₀) = some content
  blocks : N = blockCount (toInt32 (countRecords content)) cfg.lenDataArray

variable {cfg : Config} {content : Text} {N : Int} {w₀ : World Plc}
variable {pc pc' : Pc} {w : World Plc} {q : Req} {a : Ans q}

theorem Rest.bool (h : Rest (shared w)) (n : BoolNode) (v : Bool) (hn : n = .WriteData → v = false)
    (hq : n = .WriteData ∨ n = .ReadData ∨ n = .UebertgarungBeendet) (a : Written) :
    Rest (shared (w.after (.writeBool n v) a)) ∧
      (shared (w.after (.writeBool n v) a)).written = (shared w).written := by
  by_cases hs : a.success = true
  · obtain rfl | rfl | rfl := hq
    · rw [shared_writeData hs]
      exact ⟨⟨h.plc, hn rfl, h.unread⟩, rfl⟩
    · rw [shared_readData hs]
      exact ⟨⟨h.plc, h.writeData, h.unread⟩, rfl⟩
    · rw [shared_beendet]
      exact ⟨h, rfl⟩
  · rw [shared_failedBool hs]
    exact ⟨h, rfl⟩

theorem Rest.int16 (h : Rest (shared w)) (n : Int16Node) (v : Int)
    (hq : n = .IndexData ∨ n = .AnzDatenblöcke) (a : Written) :
    Rest (shared (w.after (.writeInt16 n v) a)) ∧
      (shared (w.after (.writeInt16 n v) a)).written = (shared w).written ∧
      (shared (w.after (.writeInt16 n v) a)).readData = (shared w).readData := by
  by_cases hs : a.success = true
  · obtain rfl | rfl := hq
    · rw [shared_index hs]
      exact ⟨⟨h.plc, h.writeData, h.unread⟩, rfl, rfl⟩
    · rw [shared_published hs]
      exact ⟨⟨h.plc, h.writeData, h.unread⟩, rfl, rfl⟩
  · rw [shared_failedInt16 hs]
    exact ⟨h, rfl, rfl⟩

theorem at_call (hat : At N pc (shared w)) (hreq : ∀ t, pc = .granted t → requested w.log = true)
    (ht : Truthful w q a) (ha : requestsTaken N w q a) (hs : Trans cfg pc q a pc') :
    At N pc' (shared (w.after q a)) := by
  cases hs with
  | quiet _ hq =>
    rw [shared_quiet w hq]
    exact hat
  | look hq =>
    obtain ⟨n, hn⟩ := shared_look w hq a
    rw [hn]
    exact ⟨⟨hat.1.plc, hat.1.writeData, hat.1.unread⟩, hat.2⟩
  | publish t a =>
    obtain ⟨h, hw, -⟩ := hat.2.1.int16 _ _ (.inr rfl) a
    exact ⟨hat.1, h, hw.trans hat.2.2⟩
  | reset t a =>
    obtain ⟨h, hw, -⟩ := hat.2.1.int16 _ _ (.inl rfl) a
    exact ⟨hat.1, h, hw.trans hat.2.2⟩
  | openWriteData t a =>
    obtain ⟨h, hw⟩ := hat.2.1.bool _ _ (fun _ => rfl) (.inl rfl) a
    exact ⟨hat.1, h, hw.trans hat.2.2⟩
  | openReadData t a =>
    obtain ⟨h, hw⟩ := hat.2.1.bool .ReadData true nofun (.inr (.inl rfl)) a
    exact ⟨hat.1, h, hw.trans hat.2.2⟩
  | openBeendet t a =>
    obtain ⟨h, hw⟩ := hat.2.1.bool .UebertgarungBeendet false nofun (.inr (.inr rfl)) a
    exact ⟨hat.1, h, hw.trans hat.2.2⟩
  | threshold t =>
    obtain ⟨hk, hi, hw⟩ := hat
    have hw' : (0 : Int) = written w.log := by
      rw [show written w.log = 0 from hw]
      rfl
    exact ⟨hk.trans hw', .acknowledged hi⟩
  | tick t => exact hat
  | grant t hsuc hv => exact ⟨hat.1, hat.2.rest ((ht hsuc).symm.trans hv)⟩
  | clear t a =>
    obtain ⟨h, hw⟩ := hat.2.bool .ReadData false nofun (.inr (.inl rfl)) a
    refine ⟨hat.1.trans (by rw [hw]), h, fun hN => ?_⟩
    have hwr : t.currentBlock = written w.log := hat.1
    rw [shared_readData (ha (hreq t rfl) (by omega))]
  | index t a =>
    obtain ⟨h, hw, hr⟩ := hat.2.1.int16 _ _ (.inl rfl) a
    exact ⟨hat.1.trans (by rw [hw]), h, fun hN => hr.trans (hat.2.2 hN)⟩
  | load t c => exact hat
  | fetch t => exact hat
  | fill t b v hf =>
    rw [shared_array hf]
    obtain ⟨hk, hi, hr⟩ := hat
    exact ⟨by rw [hk]; rfl, fun hN => ⟨hi.plc, hi.writeData, hr hN⟩⟩
  | announce t a =>
    by_cases hsuc : a.success = true
    · rw [shared_writeData hsuc]
      exact ⟨hat.1, fun hN => .announced (.inl (hat.2 hN).1) rfl (hat.2 hN).2.2⟩
    · rw [shared_failedBool hsuc]
      exact ⟨hat.1, fun hN => .unannounced (hat.2 hN).1 (hat.2 hN).2.1 (hat.2 hN).2.2⟩
  | sentTick t => exact hat
  | _ => trivial

theorem kept_call (hat : At N pc (shared w)) (hk : kept w.log = true) (hs : Trans cfg pc q a pc') :
    kept (w.after q a).log = true := by
  have write : Rest (shared w) → ∀ b : Bool, ((!b || !unread w.log) && kept w.log) = true := by
    intro h b
    rw [show unread w.log = false from h.unread, hk]
    simp
  cases hs with
  | quiet _ hq => exact (kept_preliminary (preliminary_of_quiet hq) a w.log).trans hk
  | look hq => exact (kept_preliminary hq a w.log).trans hk
  | reset | index | fill | spill => exact write hat.2.1 _
  | _ => exact hk

theorem requested_call (hreq : ∀ t, pc = .granted t → requested w.log = true)
    (hs : Trans cfg pc q a pc') {t : Transfer} (hpc : pc' = .granted t) :
    requested (w.after q a).log = true := by
  cases hs with
  | grant t hsuc hv => simp [World.after, requested, hsuc, hv]
  | quiet _ hq => exact requested_quiet hq a (hreq t hpc)
  | _ => cases hpc

theorem at_of_run (h₀ : Start cfg content N w₀)
    (h : Run cfg (requestsTaken N) plcSteps w₀ pc w) : At N pc (shared w) ∧
      (∀ t, pc = .granted t → requested w.log = true) ∧ kept w.log = true := by
  induction h with
  | init =>
    have hu : unread w₀.log = false := by rw [h₀.log]; rfl
    refine ⟨⟨⟨h₀.plc, h₀.writeData, hu⟩, ?_⟩, fun _ he => (by cases he), ?_⟩
    · simp [shared, h₀.log, written]
    · rw [h₀.log]
      rfl
  | @others pc w w' _ hr ih =>
    obtain rfl := hr
    rw [shared_plcCycle, requested_plcCycle, kept_plcCycle]
    exact ⟨at_cycle ih.1, ih.2⟩
  | call _ ht ha hs ih =>
    obtain ⟨hat, hreq, hk⟩ := ih
    exact ⟨at_call hat hreq ht ha hs, fun t => requested_call hreq hs, kept_call hat hk hs⟩
  | prepare _ _ hz ih => exact ⟨⟨hz, ih.1⟩, fun _ he => (by cases he), ih.2.2⟩
  | resume h hn ih =>
    obtain ⟨-, content', hc, hb⟩ :=
      plan_of_run logKept_plcSteps (constant_plcSteps.sameFile _) h₀.log h rfl
    rw [h₀.file] at hc
    cases hc
    rw [hb, ← h₀.blocks] at hn
    exact ⟨⟨ih.1.1, ih.1.2 (by omega)⟩, fun _ he => (by cases he), ih.2.2⟩
  | fail _ _ ih => exact ⟨trivial, fun _ he => (by cases he), ih.2.2⟩

/-- In every run in which the service can take each request but the last, it never writes over a
block that the PLC has not taken, whatever other calls fail. -/
theorem kept_of_requestsTaken (cfg : Config) (content : Text) (N : Int) (w₀ : World Plc)
    (h₀ : Start cfg content N w₀) (c : Conf Req Ans Text Stage Bool (World Plc))
    (hc : Reachable (system (requestsTaken N) plcSteps) (transferProjectData cfg) .start w₀ c) :
    kept c.world.log = true := by
  obtain ⟨pc, hrun⟩ := exists_run logKept_plcSteps h₀.log hc
  exact (at_of_run h₀ hrun).2.2

def anyAnswer (_ : World Plc) (q : Req) (_ : Ans q) : Prop := True

def oneLine : Config := { folderPath := ['d'], imageSizeX := 1, imageSizeY := 1, lenDataArray := 1 }

/-- A folder `d` with the file `A` of two records, which is chosen. -/
def chosenA : World Plc where
  nodes := { emptyNodes with ProjektName := ['A'] }
  fs := .ofFiles [(['d', '/', 'A'], ['h', '\n', 'a', '\n', 'b', '\n'])]
  plc := .idle

theorem start_chosenA : Start oneLine ['h', '\n', 'a', '\n', 'b', '\n'] 2 chosenA :=
  ⟨rfl, rfl, rfl, rfl, by decide⟩

def loseReadData : Move Req Ans (World Plc) := .run fun q w =>
  match q with
  | .writeBool .ReadData v =>
    ({ success := false }, w.after (.writeBool .ReadData v) { success := false })
  | q => (honest w q, w.after q (honest w q))

theorem loseReadData_sound : loseReadData.Sound (system anyAnswer plcSteps) := by
  intro q w
  cases q with
  | writeBool n v => cases n <;> exact ⟨trivial, trivial, rfl⟩
  | _ => exact ⟨truthful_honest w _, trivial, rfl⟩

def runFromA (ms : List (Move Req Ans (World Plc))) : Conf Req Ans Text Stage Bool (World Plc) :=
  play (transferProjectData oneLine) ms ⟨.ret (.inl .start), chosenA⟩

/-- The request for the first block is not taken: it is read again as one for the second block. -/
theorem kept_untakenRequest : ¬∀ (cfg : Config) (content : Text) (N : Int) (w₀ : World Plc),
    Start cfg content N w₀ → ∀ c, Reachable (system anyAnswer plcSteps) (transferProjectData cfg)
      .start w₀ c → kept c.world.log = true := by
  intro h
  have hc : Reachable (system anyAnswer plcSteps) (transferProjectData oneLine) .start chosenA
      (runFromA (List.replicate 40 goOn ++ loseReadData :: List.replicate 13 goOn)) := by
    refine play_reachable (fun m hm => ?_) Stage.start chosenA
    simp only [List.mem_append, List.mem_cons, List.mem_replicate] at hm
    obtain ⟨-, rfl⟩ | rfl | ⟨-, rfl⟩ := hm
    · exact goOn_sound fun _ _ => trivial
    · exact loseReadData_sound
    · exact goOn_sound fun _ _ => trivial
  exact absurd (h oneLine _ _ chosenA start_chosenA _ hc) (by decide +kernel)

def takenRun : List (Move Req Ans (World Plc)) :=
  List.replicate 46 goOn ++ List.replicate 5 (.env plcCycle) ++ List.replicate 20 goOn

theorem kept_takenRun : kept (runFromA takenRun).world.log = true := by
  have hon : ∀ (w : World Plc) (q : Req), requestsTaken 2 w q (honest w q) := by
    intro w q
    cases q with
    | writeBool n v => cases n <;> cases v <;> first | trivial | exact fun _ _ => rfl
    | _ => trivial
  have hc : Reachable (system (requestsTaken 2) plcSteps) (transferProjectData oneLine) .start
      chosenA (runFromA takenRun) := by
    refine play_reachable (fun m hm => ?_) Stage.start chosenA
    simp only [takenRun, List.mem_append, List.mem_replicate] at hm
    obtain (⟨-, rfl⟩ | ⟨-, rfl⟩) | ⟨-, rfl⟩ := hm
    · exact goOn_sound hon
    · exact fun w => rfl
    · exact goOn_sound hon
  exact kept_of_requestsTaken oneLine _ 2 chosenA start_chosenA _ hc

end Run

end Datenbereitstellung.UnreadBlock
