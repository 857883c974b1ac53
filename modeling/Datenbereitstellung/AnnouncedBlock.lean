import Datenbereitstellung.HandshakeOutline

namespace Datenbereitstellung.AnnouncedBlock

open Strings Files OpcUa ProjectManager Handshake TransferRefinement HandshakeInvariants
open HandshakeOutline PlcSimulator Lib.Program Lib.Rely
open ProjectFileReader (countRecords)

section Reader

/-- Where a PLC stands with the blocks that it consumes. -/
inductive Reader
  | idle
  | holding
  | cleared
  deriving DecidableEq

/-- A PLC that acknowledges each consumed block by clearing `WriteData` and then setting `ReadData`,
or, where `short` permits it for the number in `IndexData`, by setting `ReadData` alone. -/
inductive Acknowledges (short : Int → Prop) : World Reader → World Reader → Prop
  | wait (w : World Reader) : Acknowledges short w w
  | abort (w : World Reader) :
      Acknowledges short w { w with nodes := w.nodes.setBool .ubertragenAbbrechen true }
  | consume (w : World Reader) (hp : w.plc = .idle) (hw : w.nodes.bool .WriteData = true) :
      Acknowledges short w { w with plc := .holding }
  | clear (w : World Reader) (hp : w.plc = .holding) : Acknowledges short w
      { w with plc := .cleared, nodes := w.nodes.setBool .WriteData false }
  | request (w : World Reader) (hp : w.plc = .cleared) : Acknowledges short w
      { w with plc := .idle, nodes := w.nodes.setBool .ReadData true }
  | requestOnly (w : World Reader) (hp : w.plc = .holding)
      (hs : short (w.nodes.int16 .IndexData)) : Acknowledges short w
      { w with plc := .idle, nodes := w.nodes.setBool .ReadData true }

/-- What a step of such a PLC does to the shared nodes. -/
inductive Shared.Acknowledged (short : Int → Prop) (s : Shared Reader) : Shared Reader → Prop
  | wait : Acknowledged short s s
  | consume (hp : s.plc = .idle) (hw : s.writeData = true) :
      Acknowledged short s { s with plc := .holding }
  | clear (hp : s.plc = .holding) :
      Acknowledged short s { s with plc := .cleared, writeData := false }
  | request (hp : s.plc = .cleared ∨ s.plc = .holding ∧ short s.index) :
      Acknowledged short s { s with plc := .idle, readData := true }

variable {short : Int → Prop} {w w' : World Reader}

theorem shared_acknowledges (h : Acknowledges short w w') :
    Shared.Acknowledged short (shared w) (shared w') := by
  cases h with
  | wait => exact .wait
  | abort =>
    have hs : shared { w with nodes := w.nodes.setBool .ubertragenAbbrechen true } = shared w := by
      simp [shared]
    rw [hs]
    exact .wait
  | consume hp hw => exact .consume hp hw
  | clear hp => simpa [shared] using Shared.Acknowledged.clear (s := shared w) hp
  | request hp => simpa [shared] using Shared.Acknowledged.request (s := shared w) (.inl hp)
  | requestOnly hp hs =>
    simpa [shared] using Shared.Acknowledged.request (s := shared w) (.inr ⟨hp, hs⟩)

theorem acknowledges_nodes (h : Acknowledges short w w') :
    w'.fs = w.fs ∧ w'.log = w.log ∧ (w'.nodes = w.nodes ∨ ∃ n v, w'.nodes = w.nodes.setBool n v) := by
  cases h with
  | wait | consume => exact ⟨rfl, rfl, .inl rfl⟩
  | abort | clear | request | requestOnly => exact ⟨rfl, rfl, .inr ⟨_, _, rfl⟩⟩

theorem logKept_acknowledges : LogKept (Acknowledges short) :=
  fun _ _ h => .inl (acknowledges_nodes h).2.1

theorem constant_acknowledges : Constant (Acknowledges short) where
  fs _ _ h := (acknowledges_nodes h).1
  ProjektName _ _ h := by
    obtain ⟨-, -, h | ⟨n, v, h⟩⟩ := acknowledges_nodes h
    · rw [h]
    · rw [h]
      rfl
  minArcRadius _ _ h := by
    obtain ⟨-, -, h | ⟨n, v, h⟩⟩ := acknowledges_nodes h
    · rw [h]
    · rw [h]
      rfl

end Reader

section Outline

variable {B : Nat → List Text} {N : Int} {k : Nat} {s s' : Shared Reader}

/-- The block whose number stands in `IndexData` stands in `DataArray`. -/
def Announced (B : Nat → List Text) (N : Int) (s : Shared Reader) : Prop :=
  s.writeData = true → ∃ k : Nat, k < max 1 N ∧ s.index = k + 1 ∧ B k <+: s.array.elements

/-- The block `k`, which is not the last one, and its acknowledgement. -/
inductive Pending (k : Nat) (s : Shared Reader) : Prop
  | announced (hw : s.writeData = true) (hr : s.readData = false) (hi : s.index = k + 1)
      (hp : s.plc ≠ .cleared)
  | cleared (hp : s.plc = .cleared) (hw : s.writeData = false) (hr : s.readData = false)
  | acknowledged (hp : s.plc = .idle) (hw : s.writeData = false)

theorem Announced.stable (h : Announced B N s) (hs : Shared.Acknowledged (N ≤ ·) s s') :
    Announced B N s' := by
  cases hs with
  | wait => exact h
  | consume => exact h
  | clear => nofun
  | request => exact h

theorem Pending.stable (h : Pending k s) (hk : k + 1 < N)
    (hs : Shared.Acknowledged (N ≤ ·) s s') : Pending k s' := by
  cases h with
  | announced hw hr hi hp =>
    cases hs with
    | wait => exact .announced hw hr hi hp
    | consume => exact .announced hw hr hi nofun
    | clear => exact .cleared rfl rfl hr
    | request hs =>
      obtain hs | ⟨-, hs⟩ := hs
      · exact (hp hs).elim
      · omega
  | cleared hp hw hr =>
    cases hs with
    | wait => exact .cleared hp hw hr
    | consume hp' | clear hp' =>
      rw [hp] at hp'
      cases hp'
    | request => exact .acknowledged rfl hw
  | acknowledged hp hw =>
    cases hs with
    | wait => exact .acknowledged hp hw
    | consume _ hw' =>
      rw [hw] at hw'
      cases hw'
    | clear hp' =>
      rw [hp] at hp'
      cases hp'
    | request => exact .acknowledged rfl hw

theorem Pending.rest (h : Pending k s) (hr : s.readData = true) :
    s.plc = .idle ∧ s.writeData = false := by
  cases h with
  | acknowledged hp hw => exact ⟨hp, hw⟩
  | announced _ hr' | cleared _ _ hr' =>
    rw [hr'] at hr
    cases hr

def announcement (B : Nat → List Text) (N : Int) : Outline Reader where
  rest _ s := s.plc = .idle ∧ s.writeData = false
  sent k s := (k + 1 < N → Pending k s) ∧ Announced B N s
  last s := Announced B N s
  ended _ s := Announced B N s

theorem announced_of_not {s : Shared Reader} (h : s.writeData = false) : Announced B N s := by
  intro hw
  rw [h] at hw
  cases hw

theorem valid_announcement :
    (announcement B N).Valid B N (Shared.Acknowledged (N ≤ ·)) where
  rest_writeData h := h.2
  rest_same h hp hw _ := ⟨hp.trans h.1, hw.trans h.2⟩
  announce {k s} h hr hi hb hlt :=
    ⟨fun _ => .announced rfl hr hi (by rw [h.1]; nofun), fun _ => ⟨k, hlt, hi, hb⟩⟩
  next h hlt hr := (h.1 hlt).rest hr
  rest_last h _ := announced_of_not h.2
  sent_last h _ _ := h.2
  rest_ended h := announced_of_not h.2
  ended_writeData _ := announced_of_not rfl
  ended_readData h := h
  rest_stuck {k s s'} h hs := by
    cases hs with
    | wait => rfl
    | consume _ hw =>
      rw [h.2] at hw
      cases hw
    | clear hp =>
      rw [h.1] at hp
      cases hp
    | request hp =>
      rw [h.1] at hp
      obtain hp | ⟨hp, -⟩ := hp <;> cases hp
  sent_stable h hs := ⟨fun hk => (h.1 hk).stable hk hs, h.2.stable hs⟩
  last_stable h hs := h.stable hs
  ended_stable h hs := h.stable hs

theorem announced_of_at {pc : Pc} (h : (announcement B N).At B N pc s) : Announced B N s := by
  cases pc with
  | prelude => exact announced_of_not h.2
  | prepared | published | opening => exact announced_of_not h.2.2
  | waiting =>
    obtain ⟨-, hi⟩ | ⟨k, -, -, hs⟩ := h
    · exact announced_of_not hi.2
    · exact hs.2
  | granted =>
    obtain ⟨k, -, -, hi⟩ := h
    exact announced_of_not hi.2
  | cleared | indexed | loaded | patching | filled =>
    obtain ⟨k, -, -, hi, -⟩ := h
    exact announced_of_not hi.2
  | sent =>
    obtain ⟨k, -, -, hs⟩ := h
    exact hs.2
  | acking | acked | cancelling | closing | done => exact h

end Outline

section Run

/-- All OPC calls succeed; the callback, the clock and the drawing library answer at will. -/
def opcSucceeds (_ : World Reader) (q : Req) (a : Ans q) : Prop := Succeeds q a

theorem announced_of_run {cfg : Config} {content : Text} {N : Int} {w₀ : World Reader}
    (hlog : w₀.log = []) (hproject : Project cfg content N w₀) (hp : w₀.plc = .idle)
    (hw : w₀.nodes.bool .WriteData = false) {pc : Pc} {w : World Reader}
    (h : Run cfg opcSucceeds (Acknowledges (N ≤ ·)) w₀ pc w) :
    Announced (arriving cfg content w₀.nodes.minArcRadius) N (shared w) := by
  have hS : Setting cfg content N w₀ opcSucceeds (Acknowledges (N ≤ ·)) :=
    ⟨hlog, hproject, logKept_acknowledges, constant_acknowledges, fun _ _ _ ha => ha⟩
  exact announced_of_at (valid_announcement.at_of_run hS (fun _ _ => shared_acknowledges) ⟨hp, hw⟩
    (fun _ hat _ _ _ _ _ => announced_of_at hat) h)

/-- The PLC is at rest, and a project of at most 32767 blocks is chosen. -/
structure Start (cfg : Config) (content : Text) (N : Int) (w₀ : World Reader) : Prop where
  log : w₀.log = []
  project : Project cfg content N w₀
  plc : w₀.plc = .idle
  writeData : w₀.nodes.bool .WriteData = false

/-- If `ReadData` alone acknowledges at most the last block, then in every run an announced block is
in its place, its lines being those of the file exactly if these have no NUL. -/
theorem announced_iff (cfg : Config) (content : Text) (N : Int) (w₀ : World Reader)
    (h₀ : Start cfg content N w₀) (c : Conf Req Ans Text Stage Bool (World Reader))
    (hc : Reachable (system opcSucceeds (Acknowledges (N ≤ ·))) (transferProjectData cfg) .start w₀ c)
    (hw : c.world.nodes.bool .WriteData = true) :
    ∃ k : Nat, c.world.nodes.int16 .IndexData = k + 1 ∧ k < max 1 N ∧
      (block cfg content w₀.nodes.minArcRadius k <+: (c.world.nodes.strings .DataArray).elements ↔
        ∀ l ∈ block cfg content w₀.nodes.minArcRadius k, '\x00' ∉ l) := by
  obtain ⟨pc, hrun⟩ := exists_run logKept_acknowledges h₀.log hc
  obtain ⟨k, hlt, hi, hb⟩ := announced_of_run h₀.log h₀.project h₀.plc h₀.writeData hrun hw
  exact ⟨k, hi, hlt, prefix_iff_of_cStr hb⟩

def oneLine : Config := { folderPath := ['d'], imageSizeX := 1, imageSizeY := 1, lenDataArray := 1 }

/-- A folder `d` with the one file `A`, which is chosen. -/
def chosen (content : Text) : World Reader where
  nodes := { emptyNodes with ProjektName := ['A'] }
  fs := .ofFiles [(['d', '/', 'A'], content)]
  plc := .idle

def consume (w : World Reader) : World Reader :=
  if w.plc = .idle ∧ w.nodes.bool .WriteData = true then { w with plc := .holding } else w

def requestOnly (w : World Reader) : World Reader :=
  if w.plc = .holding then { w with plc := .idle, nodes := w.nodes.setBool .ReadData true } else w

theorem consume_sound (short : Int → Prop) (w : World Reader) :
    Acknowledges short w (consume w) := by
  rw [consume]
  split
  · rename_i h
    exact .consume w h.1 h.2
  · exact .wait w

theorem requestOnly_sound (w : World Reader) : Acknowledges (fun _ => True) w (requestOnly w) := by
  rw [requestOnly]
  split
  · rename_i h
    exact .requestOnly w h trivial
  · exact .wait w

def runWith (content : Text) (ms : List (Move Req Ans (World Reader))) :
    Conf Req Ans Text Stage Bool (World Reader) :=
  play (transferProjectData oneLine) ms ⟨.ret (.inl .start), chosen content⟩

theorem opcSucceeds_honest (w : World Reader) (q : Req) : opcSucceeds w q (honest w q) := by
  cases q <;> first | rfl | trivial

theorem start_chosen {content : Text} {N : Int}
    (h : N = blockCount (toInt32 (countRecords content)) oneLine.lenDataArray) (hN : N ≤ 32767) :
    Start oneLine content N (chosen content) :=
  ⟨rfl, ⟨rfl, h, hN⟩, rfl, rfl⟩

def shortRun : List (Move Req Ans (World Reader)) :=
  List.replicate 46 goOn ++ [.env consume, .env requestOnly] ++ List.replicate 8 goOn

/-- The number of the second block is announced over the lines of the first. -/
theorem announced_shortRun : ¬∀ (cfg : Config) (content : Text) (N : Int) (w₀ : World Reader),
    Start cfg content N w₀ → ∀ c, Reachable (system opcSucceeds (Acknowledges fun _ => True))
      (transferProjectData cfg) .start w₀ c → c.world.nodes.bool .WriteData = true →
      ∃ k : Nat, c.world.nodes.int16 .IndexData = k + 1 ∧
        block cfg content w₀.nodes.minArcRadius k <+:
          (c.world.nodes.strings .DataArray).elements := by
  intro h
  have hc : Reachable (system opcSucceeds (Acknowledges fun _ => True)) (transferProjectData oneLine)
      .start (chosen ['h', '\n', 'a', '\n', 'b', '\n'])
      (runWith ['h', '\n', 'a', '\n', 'b', '\n'] shortRun) := by
    refine play_reachable (fun m hm => ?_) Stage.start (chosen _)
    simp only [shortRun, List.mem_append, List.mem_replicate, List.mem_cons, List.not_mem_nil,
      or_false] at hm
    obtain (⟨-, rfl⟩ | rfl | rfl) | ⟨-, rfl⟩ := hm
    · exact goOn_sound opcSucceeds_honest
    · exact consume_sound _
    · exact requestOnly_sound
    · exact goOn_sound opcSucceeds_honest
  have hstart : Start oneLine ['h', '\n', 'a', '\n', 'b', '\n'] 2 (chosen _) :=
    start_chosen (by decide) (by decide)
  obtain ⟨k, hk, hb⟩ := h oneLine _ _ _ hstart _ hc (by decide +kernel)
  have hi : (runWith ['h', '\n', 'a', '\n', 'b', '\n'] shortRun).world.nodes.int16 .IndexData = 2 := by
    decide +kernel
  rw [hi] at hk
  obtain rfl : k = 1 := by omega
  exact absurd hb (by decide +kernel)

theorem announced_oneBlock :
    let c := runWith ['h', '\n', 'a', '\n'] (List.replicate 46 goOn)
    ∃ k : Nat, c.world.nodes.int16 .IndexData = k + 1 ∧ k < max 1 (1 : Int) ∧
      (block oneLine ['h', '\n', 'a', '\n'] 0 k <+: (c.world.nodes.strings .DataArray).elements ↔
        ∀ l ∈ block oneLine ['h', '\n', 'a', '\n'] 0 k, '\x00' ∉ l) := by
  have hc : Reachable (system opcSucceeds (Acknowledges ((1 : Int) ≤ ·)))
      (transferProjectData oneLine) .start (chosen ['h', '\n', 'a', '\n'])
      (runWith ['h', '\n', 'a', '\n'] (List.replicate 46 goOn)) := by
    refine play_reachable (fun m hm => ?_) Stage.start (chosen _)
    obtain rfl := (List.mem_replicate.mp hm).2
    exact goOn_sound opcSucceeds_honest
  exact announced_iff oneLine ['h', '\n', 'a', '\n'] 1 _ (start_chosen (by decide) (by decide)) _ hc
    (by decide +kernel)

end Run

end Datenbereitstellung.AnnouncedBlock
