import Datenbereitstellung.HandshakeOutline

namespace Datenbereitstellung.BlockDelivery

open Strings Files OpcUa ProjectManager Handshake TransferRefinement HandshakeInvariants
open HandshakeOutline PlcSimulator Lib.Program Lib.Rely
open ProjectFileReader (countRecords)

section Cycle

variable {B : Nat → List Text} {k n : Nat} {s : Shared Plc}

structure Idle (k : Nat) (s : Shared Plc) : Prop where
  plc : s.plc = .idle
  writeData : s.writeData = false
  taken : s.received.length = k

structure Settled (k : Nat) (s : Shared Plc) : Prop where
  plc : s.plc = .idle ∨ s.plc = .cleared
  writeData : s.writeData = false
  taken : s.received.length = k

inductive Underway (B : Nat → List Text) (k : Nat) (s : Shared Plc) : Prop
  | announced (hp : s.plc = .idle ∨ s.plc = .seen ∨ s.plc = .indexed (k + 1))
      (hw : s.writeData = true) (hr : s.readData = false) (hi : s.index = k + 1)
      (hb : B k <+: s.array.elements) (ht : s.received.length = k)
  | taken (hp : s.plc = .taken) (hr : s.readData = false) (hw : s.writeData = true)
      (ht : s.received.length = k + 1)
  | cleared (hp : s.plc = .cleared) (hr : s.readData = false) (hw : s.writeData = false)
      (ht : s.received.length = k + 1)
  | acknowledged (h : Idle (k + 1) s)

/-- What was taken are the first blocks, each under its number. -/
def InOrder (B : Nat → List Text) (rs : List (Int × List Text)) : Prop :=
  ∀ (j : Nat) (p : Int × List Text), rs[j]? = some p → p.1 = j + 1 ∧ B j <+: p.2

theorem Idle.cycle (h : Idle k s) : s.cycle = s := by
  simp [Shared.cycle, h.plc, h.writeData]

theorem Idle.settled (h : Idle k s) : Settled k s := ⟨.inl h.plc, h.writeData, h.taken⟩

theorem Settled.cycle (h : Settled k s) : Settled k s.cycle := by
  obtain hp | hp := h.plc
  · have hc : s.cycle = s := Idle.cycle ⟨hp, h.writeData, h.taken⟩
    rw [hc]
    exact h
  · simp only [Shared.cycle, hp]
    exact ⟨.inl rfl, h.writeData, h.taken⟩

theorem Settled.received_cycle (h : Settled k s) : s.cycle.received = s.received := by
  obtain hp | hp := h.plc
  · rw [Idle.cycle ⟨hp, h.writeData, h.taken⟩]
  · simp only [Shared.cycle, hp]

theorem Underway.cycle (h : Underway B k s) : Underway B k s.cycle := by
  cases h with
  | announced hp hw hr hi hb ht =>
    obtain hp | hp | hp := hp
    · simp only [Shared.cycle, hp, hw, if_true]
      exact .announced (.inr (.inl rfl)) rfl hr hi hb ht
    · simp only [Shared.cycle, hp]
      exact .announced (.inr (.inr (by rw [hi]))) hw hr hi hb ht
    · simp only [Shared.cycle, hp]
      exact .taken rfl hr hw (by simp [ht])
  | taken hp hr hw ht =>
    simp only [Shared.cycle, hp]
    exact .cleared rfl hr rfl ht
  | cleared hp hr hw ht =>
    simp only [Shared.cycle, hp]
    exact .acknowledged ⟨rfl, hw, ht⟩
  | acknowledged h =>
    rw [h.cycle]
    exact .acknowledged h

theorem inOrder_append {rs : List (Int × List Text)} (h : InOrder B rs) {block : List Text}
    (hb : B rs.length <+: block) : InOrder B (rs ++ [((rs.length : Int) + 1, block)]) := by
  intro j p hp
  obtain hj | rfl | hj := Nat.lt_trichotomy j rs.length
  · rw [List.getElem?_append_left hj] at hp
    exact h j p hp
  · rw [List.getElem?_concat_length] at hp
    cases hp
    exact ⟨rfl, hb⟩
  · rw [List.getElem?_eq_none (by simp; omega)] at hp
    cases hp

theorem Underway.inOrder (h : Underway B k s) (ho : InOrder B s.received) :
    InOrder B s.cycle.received := by
  cases h with
  | announced hp hw hr hi hb ht =>
    obtain hp | hp | hp := hp
    · simp only [Shared.cycle, hp, hw, if_true]
      exact ho
    · simp only [Shared.cycle, hp]
      exact ho
    · subst ht
      simp only [Shared.cycle, hp]
      exact inOrder_append ho hb
  | taken hp hr hw ht =>
    simp only [Shared.cycle, hp]
    exact ho
  | cleared hp hr hw ht =>
    simp only [Shared.cycle, hp]
    exact ho
  | acknowledged h =>
    rw [h.cycle]
    exact ho

theorem Underway.idle (h : Underway B k s) (hr : s.readData = true) : Idle (k + 1) s := by
  cases h with
  | acknowledged h => exact h
  | announced _ _ hr' | taken _ hr' | cleared _ hr' => rw [hr'] at hr; cases hr

theorem Underway.settled (h : Underway B k s) (hw : s.writeData = false) : Settled (k + 1) s := by
  cases h with
  | acknowledged h => exact h.settled
  | cleared hp _ hw ht => exact ⟨.inr hp, hw, ht⟩
  | announced _ hw' | taken _ _ hw' => rw [hw'] at hw; cases hw

theorem Underway.length_le (h : Underway B k s) : s.received.length ≤ k + 1 := by
  cases h with
  | announced _ _ _ _ _ ht => omega
  | taken _ _ _ ht | cleared _ _ _ ht => omega
  | acknowledged h => exact h.taken.le

end Cycle

section Outline

variable {B : Nat → List Text} {N : Nat}

def delivery (B : Nat → List Text) (N : Nat) : Outline Plc where
  rest k s := Idle k s ∧ InOrder B s.received
  sent k s := Underway B k s ∧ InOrder B s.received
  last s := ∃ k, k + 1 = N ∧ Underway B k s ∧ InOrder B s.received
  ended b s := InOrder B s.received ∧ if b then Settled N s else Idle 0 s

theorem Idle.same {k : Nat} {s s' : Shared Plc} (h : Idle k s) (hp : s'.plc = s.plc)
    (hw : s'.writeData = s.writeData) (hr : s'.received = s.received) : Idle k s' :=
  ⟨hp.trans h.plc, hw.trans h.writeData, by rw [hr, h.taken]⟩

theorem valid_delivery (hN : 1 ≤ N) : (delivery B N).Valid B N (fun s s' => s' = s.cycle) where
  rest_writeData h := h.1.writeData
  rest_same h hp hw hr := ⟨h.1.same hp hw hr, by rw [hr]; exact h.2⟩
  announce h hr hi hb _ := ⟨.announced (.inl h.1.plc) rfl hr hi hb h.1.taken, h.2⟩
  next h _ hr := ⟨h.1.idle hr, h.2⟩
  rest_last _ hle := absurd hN (by omega)
  sent_last {k s} h hlt hle := ⟨k, by omega, h⟩
  rest_ended h := ⟨h.2, h.1⟩
  ended_writeData {b s} h := by
    refine ⟨h.1, ?_⟩
    cases b with
    | true => exact ⟨h.2.plc, rfl, h.2.taken⟩
    | false => exact ⟨h.2.plc, rfl, h.2.taken⟩
  ended_readData {b s} h := by
    refine ⟨h.1, ?_⟩
    cases b with
    | true => exact ⟨h.2.plc, h.2.writeData, h.2.taken⟩
    | false => exact h.2.same rfl rfl rfl
  rest_stuck h hs := hs.trans h.1.cycle
  sent_stable {k s s'} h hs := by
    obtain rfl := hs
    exact ⟨h.1.cycle, h.1.inOrder h.2⟩
  last_stable {s s'} h hs := by
    obtain rfl := hs
    obtain ⟨k, hk, hu, ho⟩ := h
    exact ⟨k, hk, hu.cycle, hu.inOrder ho⟩
  ended_stable {b s s'} h hs := by
    obtain rfl := hs
    cases b with
    | true => exact ⟨by rw [h.2.received_cycle]; exact h.1, h.2.cycle⟩
    | false => exact ⟨by rw [h.2.cycle]; exact h.1, by rw [h.2.cycle]; exact h.2⟩

theorem received_of_at (hN : 1 ≤ N) {pc : Pc} {s : Shared Plc}
    (h : (delivery B N).At B N pc s) : InOrder B s.received ∧ s.received.length ≤ N := by
  have idle : ∀ {k : Nat}, (k : Int) < max 1 (N : Int) → (delivery B N).rest k s →
      InOrder B s.received ∧ s.received.length ≤ N := by
    intro k hk hi
    have ht := hi.1.taken
    exact ⟨hi.2, by omega⟩
  cases pc with
  | prelude => exact idle (by omega) h
  | prepared | published | opening => exact idle (by omega) h.2
  | waiting =>
    obtain ⟨-, hi⟩ | ⟨k, -, hlt, hu, ho⟩ := h
    · exact idle (by omega) hi
    · exact ⟨ho, hu.length_le.trans (by omega)⟩
  | granted =>
    obtain ⟨k, -, hlt, hi⟩ := h
    exact idle hlt hi
  | cleared | indexed | loaded | patching | filled =>
    obtain ⟨k, -, hlt, hi, -⟩ := h
    exact idle hlt hi
  | sent =>
    obtain ⟨k, -, hlt, hu, ho⟩ := h
    exact ⟨ho, hu.length_le.trans (by omega)⟩
  | acking =>
    obtain ⟨k, hk, hu, ho⟩ := h
    exact ⟨ho, hu.length_le.trans hk.le⟩
  | acked | cancelling => exact ⟨h.1, h.2.taken.le⟩
  | closing b | done b =>
    cases b with
    | true => exact ⟨h.1, h.2.taken.le⟩
    | false => exact ⟨h.1, h.2.taken.le.trans (Nat.zero_le N)⟩

end Outline

section Run

/-- All calls succeed, nobody wants to stop and no timeout expires. -/
def undisturbed (_ : World Plc) (q : Req) (a : Ans q) : Prop :=
  Succeeds q a ∧ match q, a with
    | .keepAlive, a => a = true
    | .handshakeExpired _, a => a = false
    | .ackExpired _, a => a = false
    | _, _ => True

theorem undisturbed_honest (w : World Plc) (q : Req) : undisturbed w q (honest w q) := by
  cases q <;> exact ⟨by first | rfl | trivial, by first | rfl | trivial⟩

/-- The PLC waits for a project of `N` blocks, each of which has room in `DataArray`. -/
structure Start (cfg : Config) (content : Text) (N : Nat) (w₀ : World Plc) : Prop where
  log : w₀.log = []
  plc : w₀.plc = .idle
  writeData : w₀.nodes.bool .WriteData = false
  abbrechen : w₀.nodes.bool .ubertragenAbbrechen = false
  file : w₀.fs.content (chosenPath cfg w₀) = some content
  records : 1 ≤ toInt32 (countRecords content)
  blocks : (N : Int) = blockCount (toInt32 (countRecords content)) cfg.lenDataArray
  few : N ≤ 32767
  len : 1 ≤ cfg.lenDataArray
  rows : 1 ≤ (dims (w₀.nodes.strings .DataArray)).1
  room : cfg.lenDataArray ≤ (dims (w₀.nodes.strings .DataArray)).2

theorem one_le_blockCount {a b : Int} (ha : 1 ≤ a) (hb : 1 ≤ b) : 1 ≤ blockCount a b := by
  have hneg : (-a).fdiv b < 0 := by
    rw [Int.fdiv_eq_ediv_of_nonneg _ (by omega)]
    exact Int.ediv_neg_of_neg_of_pos (by omega) (by omega)
  rw [blockCount, if_neg (by omega)]
  omega

variable {cfg : Config} {content : Text} {N : Nat} {w₀ : World Plc}

theorem length_block_le (hlen : 1 ≤ cfg.lenDataArray) (r : Rat) (k : Nat) :
    ((block cfg content r k).length : Int) ≤ cfg.lenDataArray := by
  obtain ⟨b, hb⟩ := Int.eq_ofNat_of_zero_le (by omega : 0 ≤ cfg.lenDataArray)
  have h := ProjectFileReader.length_readDataBlock_le content k b (by omega)
  rw [block, List.length_map, hb]
  exact_mod_cast h

theorem abbrechen_of_run (h₀ : Start cfg content N w₀) {pc : Pc} {w : World Plc}
    (h : Run cfg undisturbed plcSteps w₀ pc w) : w.nodes.bool .ubertragenAbbrechen = false := by
  induction h with
  | init => exact h₀.abbrechen
  | @others _ w w' _ hr ih =>
    obtain rfl := hr
    refine (plcCycle_congr (f := (·.bool .ubertragenAbbrechen)) (fun ns n v hn => ?_) w).trans ih
    obtain rfl | rfl := hn
    · rfl
    · rfl
  | @call pc pc' w q a _ _ _ hs ih => exact after_bool ih (fun _ => trans_abbrechen hs) a
  | prepare _ _ _ ih => exact ih
  | resume _ _ ih => exact ih
  | fail _ _ ih => exact ih

theorem dims_of_run {pc : Pc} {w : World Plc} (h : Run cfg undisturbed plcSteps w₀ pc w) :
    dims (w.nodes.strings .DataArray) = dims (w₀.nodes.strings .DataArray) ∧
      ∀ t b v, pc = .patching t b v → dims v = dims (w₀.nodes.strings .DataArray) := by
  induction h with
  | init => exact ⟨rfl, fun _ _ _ he => by cases he⟩
  | @others _ w w' _ hr ih =>
    obtain rfl := hr
    have hstr := plcCycle_congr (f := (·.strings .DataArray)) (fun _ _ _ _ => rfl) w
    exact ⟨(congrArg dims hstr).trans ih.1, ih.2⟩
  | @call pc pc' w q a _ ht _ hs ih =>
    cases hs with
    | quiet _ hq =>
      have hstr := after_strings w.nodes (by rintro n v rfl; exact hq) a
      exact ⟨(congrArg dims (congrFun hstr _)).trans ih.1, ih.2⟩
    | look hq =>
      have hstr := after_strings w.nodes (by rintro n v rfl; exact hq) a
      exact ⟨(congrArg dims (congrFun hstr _)).trans ih.1, fun _ _ _ he => by cases he⟩
    | fetch t hfit =>
      refine ⟨ih.1, ?_⟩
      rintro _ _ _ ⟨⟩
      rw [ht hfit.1]
      exact ih.1
    | fill t b v hf =>
      refine ⟨?_, fun _ _ _ he => by cases he⟩
      simp only [World.after, Nodes.after, if_pos hf, setStrings_strings, if_true, dims_patched]
      exact ih.2 t b v rfl
    | spill t b v hf =>
      refine ⟨?_, fun _ _ _ he => by cases he⟩
      simp only [World.after, Nodes.after, if_neg hf]
      exact ih.1
    | _ =>
      refine ⟨?_, fun _ _ _ he => by cases he⟩
      exact (congrArg dims (congrFun (after_strings _ (by rintro _ _ ⟨⟩) _) _)).trans ih.1
  | prepare _ _ _ ih => exact ⟨ih.1, fun _ _ _ he => by cases he⟩
  | resume _ _ ih => exact ⟨ih.1, fun _ _ _ he => by cases he⟩
  | fail _ _ ih => exact ⟨ih.1, fun _ _ _ he => by cases he⟩

theorem Start.setting (h₀ : Start cfg content N w₀) :
    Setting cfg content N w₀ undisturbed plcSteps where
  log := h₀.log
  project := ⟨h₀.file, h₀.blocks, by exact_mod_cast h₀.few⟩
  logKept := logKept_plcSteps
  constant := constant_plcSteps
  succeeds _ _ _ ha := ha.1

theorem Start.one_le (h₀ : Start cfg content N w₀) : 1 ≤ N := by
  have h := one_le_blockCount h₀.records h₀.len
  rw [← h₀.blocks] at h
  exact_mod_cast h

theorem Start.fits (h₀ : Start cfg content N w₀) {pc : Pc} {w : World Plc}
    (h : Run cfg undisturbed plcSteps w₀ pc w) {b : List Text} {k : Nat}
    (hb : b.map cStr = arriving cfg content w₀.nodes.minArcRadius k) {a : Reading StringArray}
    (hs : a.success = true)
    (ha : a.value = w.nodes.strings .DataArray) : Fits a b ∧ a.value.elements.length ≠ 0 := by
  have hd := (dims_of_run h).1
  rw [← ha] at hd
  have hrows := h₀.rows
  have hroom := h₀.room
  rw [← hd] at hrows hroom
  have hlen : b.length = (block cfg content w₀.nodes.minArcRadius k).length := by
    simpa [arriving] using congrArg List.length hb
  have hle : ((block cfg content w₀.nodes.minArcRadius k).length : Int) ≤ cfg.lenDataArray :=
    length_block_le h₀.len w₀.nodes.minArcRadius k
  have hpos := h₀.len
  refine ⟨⟨hs, by omega⟩, ?_⟩
  rw [← dims_mul]
  have : 0 < (dims a.value).1 * (dims a.value).2 := Nat.mul_pos (by omega) (by omega)
  omega

theorem over_of_call (h₀ : Start cfg content N w₀) {pc pc' : Pc} {w : World Plc} {q : Req}
    {a : Ans q} {b : Bool} (h : Run cfg undisturbed plcSteps w₀ pc w)
    (hat : (delivery (arriving cfg content w₀.nodes.minArcRadius) N).At
      (arriving cfg content w₀.nodes.minArcRadius) N pc (shared w))
    (ht : Truthful w q a) (ha : undisturbed w q a) (hs : Trans cfg pc q a pc')
    (hpc : ending pc = none) (hb : ending pc' = some b) :
    (delivery (arriving cfg content w₀.nodes.minArcRadius) N).ended b (shared w) := by
  cases hs with
  | quiet =>
    rw [hpc] at hb
    cases hb
  | lose t =>
    obtain ⟨hc, -⟩ := blockLines_of_run logKept_plcSteps constant_plcSteps h₀.log
      (fun _ _ ha => ha.1) h₀.setting.project h ht
    cases hc
  | misfit t hfit =>
    obtain ⟨k, -, -, -, -, -, hblock⟩ := hat
    obtain ⟨h₁, h₂⟩ := h₀.fits h hblock ha.1 (ht ha.1)
    exact (hfit.elim (fun h => h h₁) h₂).elim
  | spill t _ _ hf => exact (hf ha.1).elim
  | abort t hsuc hv =>
    have hab := (ht hsuc).trans (abbrechen_of_run h₀ h)
    rw [hv] at hab
    cases hab
  | dead | expired | ackLate | ackDead => exact absurd ha.2 nofun
  | ackCleared t hsuc hv =>
    cases hb
    obtain ⟨k, rfl, hu, ho⟩ := hat
    exact ⟨ho, hu.settled ((ht hsuc).symm.trans hv)⟩
  | ackRead t hsuc hv =>
    cases hb
    obtain ⟨k, rfl, hu, ho⟩ := hat
    exact ⟨ho, (hu.idle ((ht hsuc).symm.trans hv)).settled⟩
  | cancel | ackClear | closeWriteData | closeReadData | closeBeendet => cases hpc
  | _ => cases hb

theorem at_of_run (h₀ : Start cfg content N w₀) {pc : Pc} {w : World Plc}
    (h : Run cfg undisturbed plcSteps w₀ pc w) :
    (delivery (arriving cfg content w₀.nodes.minArcRadius) N).At
      (arriving cfg content w₀.nodes.minArcRadius) N pc (shared w) := by
  have hr : received w₀.log = [] := by rw [h₀.log]; rfl
  have hidle : Idle 0 (shared w₀) := ⟨h₀.plc, h₀.writeData, by rw [shared, hr]; rfl⟩
  refine (valid_delivery h₀.one_le).at_of_run h₀.setting ?_ ⟨hidle, ?_⟩ (over_of_call h₀) h
  · rintro w w' rfl
    exact shared_plcCycle w
  · rw [shared, hr]
    simp [InOrder]

def opened : Pc → Bool
  | .prelude | .prepared _ | .closing false _ | .done false => false
  | _ => true

theorem trans_opened {pc pc' : Pc} {q : Req} {a : Ans q} (h : Trans cfg pc q a pc')
    (hpc' : opened pc' = true) :
    opened pc = true ∧ (∀ v, q ≠ .writeInt16 .AnzDatenblöcke v) ∨
      ∃ t, pc = .prepared t ∧ q = .writeInt16 .AnzDatenblöcke (toInt16 t.anzBlocke) := by
  cases h with
  | quiet _ hq =>
    refine .inl ⟨hpc', ?_⟩
    rintro v rfl
    cases hq
  | look | lose => cases hpc'
  | publish t => exact .inr ⟨t, rfl, rfl⟩
  | closeWriteData b | closeReadData b | closeBeendet b =>
    cases b with
    | true => exact .inl ⟨rfl, nofun⟩
    | false => cases hpc'
  | _ => exact .inl ⟨rfl, fun v hv => by cases hv⟩

theorem published_of_run (h₀ : Start cfg content N w₀) {pc : Pc} {w : World Plc}
    (h : Run cfg undisturbed plcSteps w₀ pc w) :
    opened pc = true → w.nodes.int16 .AnzDatenblöcke = N := by
  induction h with
  | init => nofun
  | @others _ w w' _ hr ih =>
    obtain rfl := hr
    have hnode := plcCycle_congr (f := (·.int16 .AnzDatenblöcke)) (fun _ _ _ _ => rfl) w
    exact fun ho => hnode.trans (ih ho)
  | @call pc pc' w q a h _ ha hs ih =>
    intro hpc'
    obtain ⟨hpc, hq⟩ | ⟨t, rfl, rfl⟩ := trans_opened hs hpc'
    · exact (after_int16 w.nodes hq a).trans (ih hpc)
    · have hn := congrArg Shared.published (shared_published (w := w) ha.1 (toInt16 t.anzBlocke))
      have h16 : toInt16 t.anzBlocke = N := by
        rw [h₀.setting.anzBlocke h rfl, toInt16_of_le h₀.few]
      rw [h16] at hn ⊢
      exact hn
  | prepare => nofun
  | resume _ _ ih => exact fun _ => ih rfl
  | fail => nofun

theorem received_of_not_opened (h₀ : Start cfg content N w₀) {pc : Pc} {w : World Plc}
    (h : Run cfg undisturbed plcSteps w₀ pc w) (hpc : opened pc = false) :
    received w.log = [] := by
  have hat := at_of_run h₀ h
  have idle : ∀ {s : Shared Plc}, Idle 0 s → s.received = [] :=
    fun hi => List.length_eq_zero_iff.mp hi.taken
  cases pc with
  | prelude => exact idle hat.1
  | prepared => exact idle hat.2.1
  | closing b | done b =>
    cases b with
    | false => exact idle hat.2
    | true => cases hpc
  | _ => cases hpc

end Run

section Delivery

/-- In every run the PLC takes the blocks in order, each under its number and none twice, and all
of them before the call returns; their lines are those of the file exactly as long as these have
no NUL. -/
theorem received_inOrder_iff (cfg : Config) (content : Text) (N : Nat) (w₀ : World Plc)
    (h₀ : Start cfg content N w₀) (c : Conf Req Ans Text Stage Bool (World Plc))
    (hc : Reachable (system undisturbed plcSteps) (transferProjectData cfg) .start w₀ c) :
    let rs := received c.world.log
    let blocks := block cfg content w₀.nodes.minArcRadius
    rs.length ≤ N ∧ (rs ≠ [] → c.world.nodes.int16 .AnzDatenblöcke = N) ∧
      (c.code = .ret (.inr true) → rs.length = N) ∧
      (InOrder blocks rs ↔ ∀ k < rs.length, ∀ l ∈ blocks k, '\x00' ∉ l) := by
  intro rs blocks
  obtain ⟨pc, hrun⟩ := exists_run logKept_plcSteps h₀.log hc
  obtain ⟨ho, hle⟩ := received_of_at h₀.one_le (at_of_run h₀ hrun)
  refine ⟨hle, ?_, ?_, ?_⟩
  · intro hne
    apply published_of_run h₀ hrun
    by_contra hpc
    exact hne (received_of_not_opened h₀ hrun (by simpa using hpc))
  · intro hcode
    have hend := transferProjectData_refines logKept_plcSteps h₀.log hc
    rw [hcode] at hend
    obtain hdone | ⟨hb, -⟩ := hend
    · exact (at_of_run h₀ hdone).2.taken
    · cases hb
  · constructor
    · intro h k hk
      have hget := List.getElem?_eq_getElem hk
      exact (prefix_iff_of_cStr (ho k _ hget).2).mp (h k _ hget).2
    · intro h k p hp
      obtain ⟨hk, -⟩ := List.getElem?_eq_some_iff.mp hp
      exact ⟨(ho k p hp).1, (prefix_iff_of_cStr (ho k p hp).2).mpr (h k hk)⟩

def oneLine : Config := { folderPath := ['d'], imageSizeX := 1, imageSizeY := 1, lenDataArray := 1 }

/-- A folder `d` with the one file `A`, which is chosen. -/
def chosen (content : Text) : World Plc where
  nodes := { emptyNodes with ProjektName := ['A'] }
  fs := .ofFiles [(['d', '/', 'A'], content)]
  plc := .idle

theorem start_chosen {content : Text} (h : countRecords content = 1) :
    Start oneLine content 1 (chosen content) where
  log := rfl
  plc := rfl
  writeData := rfl
  abbrechen := rfl
  file := rfl
  records := by rw [h]; decide
  blocks := by rw [h]; decide
  few := by decide
  len := by decide
  rows := Nat.le_refl 1
  room := (by decide : (1 : Int) ≤ 2)

def runFor (content : Text) (n : Nat) : Conf Req Ans Text Stage Bool (World Plc) :=
  play (transferProjectData oneLine)
    (List.replicate 48 goOn ++ List.replicate 5 (.env plcCycle) ++ List.replicate n goOn)
    ⟨.ret (.inl .start), chosen content⟩

theorem reachable_runFor (content : Text) (n : Nat) :
    Reachable (system undisturbed plcSteps) (transferProjectData oneLine) .start (chosen content)
      (runFor content n) := by
  refine play_reachable (fun m hm => ?_) Stage.start (chosen content)
  simp only [List.mem_append, List.mem_replicate] at hm
  obtain (⟨-, rfl⟩ | ⟨-, rfl⟩) | ⟨-, rfl⟩ := hm
  · exact goOn_sound undisturbed_honest
  · exact fun w => rfl
  · exact goOn_sound undisturbed_honest

/-- A record with a NUL arrives cut off. -/
theorem received_inOrder_nul : ¬∀ (cfg : Config) (content : Text) (N : Nat) (w₀ : World Plc),
    Start cfg content N w₀ → ∀ c, Reachable (system undisturbed plcSteps) (transferProjectData cfg)
      .start w₀ c → InOrder (block cfg content w₀.nodes.minArcRadius) (received c.world.log) := by
  intro h
  have ho := h oneLine ['h', '\n', 'a', '\x00', 'b', '\n'] 1 _ (start_chosen (by decide)) _
    (reachable_runFor _ 0)
  have hr : received (runFor ['h', '\n', 'a', '\x00', 'b', '\n'] 0).world.log =
      [(1, [['a'], []])] := by decide +kernel
  rw [hr] at ho
  exact absurd (ho 0 _ rfl).2 (by decide +kernel)

theorem received_inOrder_oneBlock :
    let c := runFor ['h', '\n', 'a', '\n'] 8
    let rs := received c.world.log
    let blocks := block oneLine ['h', '\n', 'a', '\n'] 0
    rs.length ≤ 1 ∧ (rs ≠ [] → c.world.nodes.int16 .AnzDatenblöcke = (1 : Nat)) ∧
      (c.code = .ret (.inr true) → rs.length = 1) ∧
      (InOrder blocks rs ↔ ∀ k < rs.length, ∀ l ∈ blocks k, '\x00' ∉ l) :=
  received_inOrder_iff oneLine ['h', '\n', 'a', '\n'] 1 _ (start_chosen (by decide)) _
    (reachable_runFor _ 8)

end Delivery

end Datenbereitstellung.BlockDelivery
