import Datenbereitstellung.PublishedCounters

namespace Datenbereitstellung.Completion

open Strings Files OpcUa ProjectManager Handshake TransferRefinement HandshakeInvariants
open BlockPartition HandshakeOutline Lib.Program Lib.Rely
open PublishedCounters (blockSize blockCount_eq ceil_eq_blocksFor toInt32_of_lt offering
  sameLines countRecords_sameLines sameFile_rest logKept_rest)
open ProjectFileReader (countRecords countRecords_eq readDataBlock readLoop records
  flatMap_readDataBlock)

variable {π : Type}

section Arrays

def arraysWritten : List Event → List StringArray
  | [] => []
  | .call (.writeStrings .DataArray v) a :: log =>
    if a.success then arraysWritten log ++ [v] else arraysWritten log
  | _ :: log => arraysWritten log

def Carries (cfg : Config) (content : Text) (arcThreshold : Rat) (v : StringArray) (k : Nat) :
    Prop :=
  ∃ old : StringArray, (block cfg content arcThreshold k).length ≤ old.elements.length ∧
    v = old.patched 0 0 [block cfg content arcThreshold k]
      (block cfg content arcThreshold k).length

def Carried (cfg : Config) (content : Text) (arcThreshold : Rat) (m : Nat) (log : List Event) :
    Prop :=
  List.Forall₂ (Carries cfg content arcThreshold) (arraysWritten log) (List.range m)

theorem arraysWritten_call {q : Req} (hq : ∀ v, q ≠ .writeStrings .DataArray v) (a : Ans q)
    (log : List Event) : arraysWritten (.call q a :: log) = arraysWritten log := by
  cases q with
  | writeStrings n v =>
    cases n with
    | DataArray => exact (hq v rfl).elim
    | ProjektArray => rfl
  | _ => rfl

theorem arraysWritten_quiet {q : Req} (hq : Quiet q) (a : Ans q) (log : List Event) :
    arraysWritten (.call q a :: log) = arraysWritten log := by
  refine arraysWritten_call (fun v hv => ?_) a log
  rw [hv] at hq
  exact hq

theorem arraysWritten_look {q : Req} (hq : Preliminary q) (a : Ans q) (log : List Event) :
    arraysWritten (.call q a :: log) = arraysWritten log := by
  refine arraysWritten_call (fun v hv => ?_) a log
  rw [hv] at hq
  exact hq

theorem arraysWritten_of_logKept {rely : World π → World π → Prop} (hlog : LogKept rely)
    {w w' : World π} (hr : rely w w') : arraysWritten w'.log = arraysWritten w.log :=
  hlog.congr (fun _ _ _ => rfl) hr

end Arrays

section Faults

def IsInt (i : Int) : Prop := -2 ^ 31 ≤ i ∧ i < 2 ^ 31

/-- The quotient and its conversion to an `int`, and the windows of `m` blocks, are computed
without a fault. -/
structure NoFault (cfg : Config) (content : Text) (m : Nat) : Prop where
  divisor : cfg.lenDataArray ≠ 0
  anzBlocke : IsInt ⌈(toInt32 (countRecords content) : ℚ) / cfg.lenDataArray⌉
  window : ∀ k < m, IsInt (k * cfg.lenDataArray) ∧ IsInt ((k + 1) * cfg.lenDataArray)

/-- All records were written in blocks, and nothing went wrong on the way. -/
def AllSent (cfg : Config) (content : Text) (log : List Event) : Prop :=
  ∃ m arcThreshold, Carried cfg content arcThreshold m log ∧
    (List.range m).flatMap (fun k => readDataBlock content (k : Nat) cfg.lenDataArray) =
      records content ∧
    NoFault cfg content m

/-- The block size is positive, and the last block ends below 2^31. -/
def Sized (cfg : Config) (content : Text) : Prop :=
  1 ≤ cfg.lenDataArray ∧ blocksFor (countRecords content) (blockSize cfg) * blockSize cfg < 2 ^ 31

variable {cfg : Config} {content : Text} {m : Nat}

theorem blockSize_cast (h : 1 ≤ cfg.lenDataArray) : (blockSize cfg : Int) = cfg.lenDataArray :=
  Int.toNat_of_nonneg (by omega)

theorem one_le_blockSize (h : 1 ≤ cfg.lenDataArray) : 1 ≤ blockSize cfg := by
  have := blockSize_cast h
  omega

theorem Sized.count_lt (h : Sized cfg content) : countRecords content < 2 ^ 31 :=
  (le_blocksFor_mul (one_le_blockSize h.1)).trans_lt h.2

theorem Sized.blockCount (h : Sized cfg content) :
    ProjectManager.blockCount (toInt32 (countRecords content)) cfg.lenDataArray =
      blocksFor (countRecords content) (blockSize cfg) := by
  rw [toInt32_of_lt h.count_lt, ← blockSize_cast h.1]
  exact blockCount_eq (one_le_blockSize h.1)

theorem Sized.noFault (h : Sized cfg content) :
    NoFault cfg content (blocksFor (countRecords content) (blockSize cfg)) where
  divisor := by
    have := h.1
    omega
  anzBlocke := by
    have hB := one_le_blockSize h.1
    have hle := Nat.le_mul_of_pos_right (blocksFor (countRecords content) (blockSize cfg)) hB
    have hlt := h.2
    rw [toInt32_of_lt h.count_lt, ← blockSize_cast h.1, Int.cast_natCast, Int.cast_natCast,
      ceil_eq_blocksFor, IsInt]
    omega
  window k hk := by
    have hend : (k + 1) * blockSize cfg ≤
        blocksFor (countRecords content) (blockSize cfg) * blockSize cfg :=
      Nat.mul_le_mul_right _ hk
    have hlt := h.2
    rw [← blockSize_cast h.1]
    have hstart : k * blockSize cfg ≤ (k + 1) * blockSize cfg := Nat.mul_le_mul_right _ (by omega)
    norm_cast
    constructor <;> rw [IsInt] <;> omega

theorem readLoop_negative {B : Int} (hB : B < 0) (k : Nat) (ls : List Text) (first : Bool)
    (row : Nat) : readLoop k B ls first row [] = [] := by
  have hend : ((k : Int) + 1) * B < 0 := Int.mul_neg_of_pos_of_neg (by omega) hB
  induction ls generalizing first with
  | nil => rfl
  | cons l ls ih =>
    simp only [readLoop]
    split
    · exact ih false
    split
    · exact ih false
    · have hout : ¬((row : Int) ≥ k * B ∧ (row : Int) < (k + 1) * B) := by omega
      rw [if_neg hout, if_pos (by omega)]

theorem readDataBlock_negative {B : Int} (hB : B < 0) (k : Nat) : readDataBlock content k B = [] :=
  readLoop_negative hB k (getlines content) true 0

theorem AllSent.sized {log : List Event} (h : AllSent cfg content log)
    (hN : 1 ≤ countRecords content) : Sized cfg content := by
  obtain ⟨m, r, -, hall, hno⟩ := h
  have hrecords : records content ≠ [] := by
    rw [← List.length_pos_iff, ← countRecords_eq]
    exact hN
  have hpos : 1 ≤ cfg.lenDataArray := by
    by_contra hneg
    have hlt : cfg.lenDataArray < 0 := by
      have := hno.divisor
      omega
    simp only [readDataBlock_negative hlt, List.flatMap_eq_nil_iff.mpr fun _ _ => rfl] at hall
    exact hrecords hall.symm
  have hB := one_le_blockSize hpos
  rw [← blockSize_cast hpos, flatMap_readDataBlock content _ hB, List.take_eq_self_iff,
    ← countRecords_eq] at hall
  have hm : m - 1 < m := by
    by_contra hzero
    have hz : m = 0 := by omega
    rw [hz, Nat.zero_mul] at hall
    omega
  have hend := (hno.window (m - 1) hm).2.2
  have hcast : ((m - 1 : Nat) : Int) + 1 = m := by omega
  rw [hcast, ← blockSize_cast hpos] at hend
  refine ⟨hpos, lt_of_le_of_lt (Nat.mul_le_mul_right _ ((blocksFor_le_iff hB m).mpr hall)) ?_⟩
  exact_mod_cast hend

end Faults

section Runs

structure Given (cfg : Config) (content : Text) (rely : World π → World π → Prop) (w₀ : World π) :
    Prop where
  log : LogKept rely
  same : SameFile (chosenPath cfg w₀) rely
  empty : w₀.log = []
  file : w₀.fs.content (chosenPath cfg w₀) = some content
  count : 1 ≤ countRecords content
  sized : Sized cfg content

abbrev blocks (cfg : Config) (content : Text) : Nat :=
  blocksFor (countRecords content) (blockSize cfg)

def Progress (cfg : Config) (content : Text) : Pc → List Event → Prop
  | .prelude, log => arraysWritten log = []
  | .prepared t, log | .published t, log | .opening t _, log =>
    t.currentBlock = 0 ∧ arraysWritten log = []
  | .waiting t, log | .granted t, log | .cleared t, log | .indexed t, log => ∃ k : Nat,
    t.currentBlock = k ∧ k < blocks cfg content ∧ Carried cfg content t.arcThreshold k log
  | .loaded t b, log => ∃ k : Nat, t.currentBlock = k ∧ k < blocks cfg content ∧
    Carried cfg content t.arcThreshold k log ∧ b = block cfg content t.arcThreshold k
  | .patching t b v, log => ∃ k : Nat, t.currentBlock = k ∧ k < blocks cfg content ∧
    Carried cfg content t.arcThreshold k log ∧ b = block cfg content t.arcThreshold k ∧
    b.length ≤ v.elements.length
  | .filled t, log => ∃ k : Nat, t.currentBlock = k ∧ k < blocks cfg content ∧
    Carried cfg content t.arcThreshold (k + 1) log
  | .sent t, log => ∃ k : Nat, t.currentBlock = k ∧ k ≤ blocks cfg content ∧
    Carried cfg content t.arcThreshold k log
  | .acking t, log => Carried cfg content t.arcThreshold (blocks cfg content) log
  | .acked _, _ | .cancelling _, _ | .closing _ _, _ | .done _, _ => True

theorem Progress.congr {cfg : Config} {content : Text} {pc : Pc} {log log' : List Event}
    (h : Progress cfg content pc log) (he : arraysWritten log' = arraysWritten log) :
    Progress cfg content pc log' := by
  cases pc with
  | acked | cancelling | closing | done => trivial
  | _ => simpa only [Progress, Carried, he] using h

theorem carried_nil {cfg : Config} {content : Text} {r : Rat} {log : List Event}
    (h : arraysWritten log = []) : Carried cfg content r 0 log := by
  rw [Carried, h]
  exact .nil

variable {cfg : Config} {content : Text} {allow : World π → (q : Req) → Ans q → Prop}
variable {rely : World π → World π → Prop} {w₀ : World π}

theorem Given.plan (h : Given cfg content rely w₀) {pc : Pc} {w : World π}
    (hr : Run cfg allow rely w₀ pc w) {t : Transfer} (ht : planOf pc = some t) :
    t.filePath = chosenPath cfg w₀ ∧ t.anzBlocke = blocks cfg content := by
  obtain ⟨hpath, content', hc, hn⟩ := plan_of_run h.log h.same h.empty hr ht
  rw [h.file] at hc
  cases hc
  exact ⟨hpath, hn.trans h.sized.blockCount⟩

theorem Given.blocks_pos (h : Given cfg content rely w₀) : 0 < blocks cfg content :=
  blocksFor_pos (one_le_blockSize h.sized.1) h.count

theorem Given.loaded (h : Given cfg content rely w₀) {w : World π} {t : Transfer}
    (hr : Run cfg allow rely w₀ (.indexed t) w) {c : Text} (hc : some c = w.fs.content t.filePath) :
    c = content := by
  rw [(h.plan hr rfl).1, (contents_of_run h.log h.same.content h.empty hr).1, h.file] at hc
  exact Option.some.inj hc

theorem progress_call (h : Given cfg content rely w₀) {pc pc' : Pc} {w : World π} {q : Req}
    {a : Ans q} (hr : Run cfg allow rely w₀ pc w) (ht : Truthful w q a)
    (hs : Trans cfg pc q a pc') (hp : Progress cfg content pc w.log) :
    Progress cfg content pc' (.call q a :: w.log) := by
  cases hs with
  | quiet _ hq => exact hp.congr (arraysWritten_quiet hq a w.log)
  | look hq => exact hp.congr (arraysWritten_look hq a w.log)
  | threshold t a =>
    obtain ⟨hz, hnone⟩ := hp
    exact ⟨0, hz, h.blocks_pos, carried_nil hnone⟩
  | load t c =>
    obtain ⟨k, hk, hlt, hc⟩ := hp
    obtain rfl := h.loaded hr ht
    refine ⟨k, hk, hlt, hc, ?_⟩
    rw [blockLines, hk, block]
  | fetch t hfit =>
    obtain ⟨k, hk, hlt, hc, hb⟩ := hp
    exact ⟨k, hk, hlt, hc, hb, length_le_of_fits hfit.2⟩
  | fill t b v hsucc =>
    obtain ⟨k, hk, hlt, hc, rfl, hlen⟩ := hp
    refine ⟨k, hk, hlt, ?_⟩
    rw [Carried, arraysWritten, if_pos hsucc, List.range_succ]
    exact List.rel_append hc (.cons ⟨v, hlen, rfl⟩ .nil)
  | announce t a =>
    obtain ⟨k, hk, hlt, hc⟩ := hp
    refine ⟨k + 1, ?_, hlt, hc⟩
    push_cast
    rw [← hk]
  | complete t hend =>
    obtain ⟨k, hk, hlt, -⟩ := hp
    rw [(h.plan hr rfl).2, hk] at hend
    omega
  | sentAll t hend =>
    obtain ⟨k, hk, hle, hc⟩ := hp
    rw [(h.plan hr rfl).2, hk] at hend
    obtain rfl : k = blocks cfg content := by omega
    exact hc
  | lose | misfit | spill | abort | cancel | dead | expired | ackLate | ackDead | ackCleared
  | ackRead | ackClear | closeWriteData | closeReadData | closeBeendet => trivial
  | _ => exact hp

theorem progress_of_run (h : Given cfg content rely w₀) {pc : Pc} {w : World π}
    (hr : Run cfg allow rely w₀ pc w) : Progress cfg content pc w.log := by
  induction hr with
  | init =>
    rw [h.empty]
    rfl
  | others _ hs ih => exact ih.congr (arraysWritten_of_logKept h.log hs)
  | call hr ht _ hs ih => exact progress_call h hr ht hs ih
  | prepare _ _ hz ih => exact ⟨hz, ih⟩
  | resume hr hn ih =>
    obtain ⟨k, hk, hle, hc⟩ := ih
    rw [(h.plan hr rfl).2, hk] at hn
    exact ⟨k, hk, by omega, hc⟩
  | fail => trivial

end Runs

section Statement

variable {cfg : Config} {content : Text} {allow : World π → (q : Req) → Ans q → Prop}
variable {rely : World π → World π → Prop} {w₀ : World π}

/-- A run that reports completion has sent all records, without a fault on the way, exactly if
the block size is positive and the last block ends below 2^31. -/
theorem allSent_iff (hlog : LogKept rely) (hsame : SameFile (chosenPath cfg w₀) rely)
    (hw₀ : w₀.log = []) (hfile : w₀.fs.content (chosenPath cfg w₀) = some content)
    (hcount : 1 ≤ countRecords content) {ackDeadline : Nat} {w : World π}
    (hc : Reachable (system allow rely) (transferProjectData cfg) .start w₀
      ⟨.ret (.inl (.acknowledge ackDeadline)), w⟩) :
    AllSent cfg content w.log ↔ Sized cfg content := by
  constructor
  · intro hall
    exact hall.sized hcount
  · intro hsized
    have h : Given cfg content rely w₀ := ⟨hlog, hsame, hw₀, hfile, hcount, hsized⟩
    obtain ⟨t, hr⟩ : ∃ t, Run cfg allow rely w₀ (.acking t) w :=
      transferProjectData_refines hlog hw₀ hc
    refine ⟨blocks cfg content, t.arcThreshold, progress_of_run h hr, ?_, hsized.noFault⟩
    rw [← blockSize_cast hsized.1]
    exact flatMap_blocks (one_le_blockSize hsized.1)

def completedRun (lenDataArray : Int) : Conf Req Ans Text Stage Bool (World Unit) :=
  play (transferProjectData ⟨['d'], 1, 1, lenDataArray⟩) (List.replicate 49 goOn)
    ⟨.ret (.inl .start), offering (sameLines 1)⟩

theorem reachable_completedRun (lenDataArray : Int) :
    Reachable (system (fun _ _ _ => True) fun w w' => w' = w)
      (transferProjectData ⟨['d'], 1, 1, lenDataArray⟩) .start (offering (sameLines 1))
      (completedRun lenDataArray) := by
  refine play_reachable (fun m hm => ?_) Stage.start (offering (sameLines 1))
  obtain rfl := (List.mem_replicate.mp hm).2
  exact goOn_sound fun _ _ => trivial

theorem completedRun_zero :
    completedRun 0 = ⟨.ret (.inl (.acknowledge 5000)), (completedRun 0).world⟩ := rfl

theorem completedRun_one :
    completedRun 1 = ⟨.ret (.inl (.acknowledge 5000)), (completedRun 1).world⟩ := rfl

/-- Without a block size the division is by zero, and completion is reported all the same. -/
theorem not_allSent_zero : ¬∀ (cfg : Config) (content : Text)
    (allow : World Unit → (q : Req) → Ans q → Prop) (rely : World Unit → World Unit → Prop)
    (w₀ : World Unit), LogKept rely → SameFile (chosenPath cfg w₀) rely → w₀.log = [] →
    w₀.fs.content (chosenPath cfg w₀) = some content → 1 ≤ countRecords content →
    ∀ (ackDeadline : Nat) (w : World Unit), Reachable (system allow rely) (transferProjectData cfg)
      .start w₀ ⟨.ret (.inl (.acknowledge ackDeadline)), w⟩ → AllSent cfg content w.log := by
  intro h
  have hc := reachable_completedRun 0
  rw [completedRun_zero] at hc
  obtain ⟨m, r, -, -, hno⟩ := h ⟨['d'], 1, 1, 0⟩ (sameLines 1) _ _ (offering (sameLines 1))
    logKept_rest (sameFile_rest _) rfl rfl (by decide) 5000 _ hc
  exact hno.divisor rfl

theorem allSent_one : AllSent ⟨['d'], 1, 1, 1⟩ (sameLines 1) (completedRun 1).world.log := by
  have hc := reachable_completedRun 1
  rw [completedRun_one] at hc
  refine (allSent_iff logKept_rest (sameFile_rest _) rfl rfl (by decide) hc).mpr ⟨le_rfl, ?_⟩
  have hle : blocksFor (countRecords (sameLines 1)) 1 ≤ 1 := by
    rw [blocksFor_le_iff le_rfl, countRecords_sameLines]
  exact (Nat.mul_le_mul_right 1 hle).trans_lt (by decide)

end Statement

end Datenbereitstellung.Completion
