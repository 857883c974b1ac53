import Datenbereitstellung.BlockPartition
import Datenbereitstellung.HandshakeOutline

namespace Datenbereitstellung.PublishedCounters

open Strings Files OpcUa ProjectManager Handshake TransferRefinement HandshakeInvariants
open BlockPartition Lib.Program Lib.Rely
open HandshakeOutline (toInt16_of_le)
open ProjectFileReader (countRecords countRecords_eq dataLines records)
open Lib.Words (lines_append_cons)

variable {π α β : Type}

section Aside

def Aside : Req → Prop
  | .writeBool n _ => n ≠ .ProjektVorhanden
  | .writeInt16 n _ => n = .StatusCode
  | .readProjektName => False
  | _ => True

theorem aside_of_quiet (q : Req) (hq : Quiet q) : Aside q := by
  cases q with
  | writeBool n v =>
    obtain rfl : n = .Error := hq
    exact nofun
  | writeInt16 n v => exact hq
  | _ => trivial

theorem aside_logAndPushError (message : Text) (code : Int) :
    (logAndPushError message code).Within Aside :=
  within_logAndPushError aside_of_quiet message code

theorem aside_showPreview (cfg : Config) (path : Text) : (showPreview cfg path).Within Aside :=
  within_showPreview aside_of_quiet (fun _ _ => trivial) trivial cfg path

theorem aside_setTransferFlags (writeData readData finished : Bool) :
    (setTransferFlags writeData readData finished).Within Aside :=
  ⟨nofun, fun _ => ⟨nofun, fun _ => ⟨nofun, fun _ => trivial⟩⟩⟩

theorem aside_writeDataBlock (data : List Text) : (writeDataBlockToSPS data).Within Aside :=
  within_writeDataBlock aside_of_quiet (fun _ => trivial) data

end Aside

section Counters

def written (n : Int16Node) : List Event → List Int
  | [] => []
  | .call (.writeInt16 m v) _ :: log => if m = n then written n log ++ [v] else written n log
  | _ :: log => written n log

/-- `N` records in blocks of `B`: what the PLC was told is true. `IndexData` is reset before the
first block. -/
structure Counters (N B : Nat) (log : List Event) : Prop where
  LenProjekt : ∀ v ∈ written .LenProjekt log, v = N
  AnzDatenblöcke : ∀ v ∈ written .AnzDatenblöcke log, v = blocksFor N B
  IndexData : ∀ (k : Nat) v, (written .IndexData log)[k]? = some v → v = k

theorem blockCount_eq_ceil (a : Int) {b : Int} (hb : b ≠ 0) : blockCount a b = ⌈(a : ℚ) / b⌉ := by
  rw [blockCount, if_neg hb]
  obtain ⟨d, rfl | rfl⟩ := b.eq_nat_or_neg
  · rw [Int.fdiv_eq_ediv_of_nonneg _ (by omega), Int.cast_natCast, Rat.ceil_intCast_div_natCast]
  · have hneg : (a : ℚ) / ((-(d : ℤ) : ℤ) : ℚ) = ((-a : ℤ) : ℚ) / (d : ℚ) := by
      push_cast
      rw [div_neg, neg_div]
    rw [Int.neg_fdiv_neg, Int.fdiv_eq_ediv_of_nonneg _ (by omega), hneg,
      Rat.ceil_intCast_div_natCast, neg_neg]

theorem ceil_eq_blocksFor (N B : Nat) : ⌈(N : ℚ) / B⌉ = blocksFor N B :=
  (Int.natCast_ceil_eq_ceil (by positivity)).symm

theorem blockCount_eq {N B : Nat} (hB : 1 ≤ B) : blockCount N B = blocksFor N B := by
  rw [blockCount_eq_ceil _ (by omega), Int.cast_natCast, Int.cast_natCast, ceil_eq_blocksFor]

theorem toInt32_of_lt {n : Nat} (h : n < 2 ^ 31) : toInt32 n = n := (toInt32_eq_iff n).mpr h

theorem written_aside {q : Req} (hq : Aside q) {n : Int16Node} (hn : n ≠ .StatusCode) (a : Ans q)
    (log : List Event) : written n (.call q a :: log) = written n log := by
  cases q with
  | writeInt16 m v =>
    obtain rfl : m = .StatusCode := hq
    exact if_neg hn.symm
  | _ => rfl

theorem written_self (n : Int16Node) (v : Int) (a : Written) (log : List Event) :
    written n (.call (.writeInt16 n v) a :: log) = written n log ++ [v] := if_pos rfl

theorem written_other {m n : Int16Node} (h : m ≠ n) (v : Int) (a : Written) (log : List Event) :
    written n (.call (.writeInt16 m v) a :: log) = written n log := if_neg h

end Counters

section Telling

variable {cfg : Config} {content : Text} {allow : World π → (q : Req) → Ans q → Prop}
variable {rely : World π → World π → Prop} {w₀ w : World π} {n : Nat}

abbrev blockSize (cfg : Config) : Nat := cfg.lenDataArray.toNat

structure Told (cfg : Config) (content : Text) (w₀ : World π) (n : Nat) (w : World π) : Prop where
  file : w.fs.content (chosenPath cfg w₀) = w₀.fs.content (chosenPath cfg w₀)
  ProjektName : w.nodes.ProjektName = w₀.nodes.ProjektName
  LenProjekt : ∀ v ∈ written .LenProjekt w.log, v = countRecords content
  AnzDatenblöcke : ∀ v ∈ written .AnzDatenblöcke w.log,
    v = blocksFor (countRecords content) (blockSize cfg)
  IndexData : written .IndexData w.log = (List.range n).map Nat.cast

theorem Told.counters (h : Told cfg content w₀ n w) :
    Counters (countRecords content) (blockSize cfg) w.log := by
  refine ⟨h.LenProjekt, h.AnzDatenblöcke, fun k v hv => ?_⟩
  rw [h.IndexData, List.getElem?_map, Option.map_eq_some_iff] at hv
  obtain ⟨i, hi, rfl⟩ := hv
  obtain ⟨hlt, rfl⟩ := List.getElem?_eq_some_iff.mp hi
  rw [List.getElem_range]

theorem Told.congr {w' : World π} (h : Told cfg content w₀ n w)
    (hfile : w'.fs.content (chosenPath cfg w₀) = w.fs.content (chosenPath cfg w₀))
    (hname : w'.nodes.ProjektName = w.nodes.ProjektName)
    (hw : ∀ m, m ≠ .StatusCode → written m w'.log = written m w.log) :
    Told cfg content w₀ n w' where
  file := hfile.trans h.file
  ProjektName := hname.trans h.ProjektName
  LenProjekt := by
    rw [hw _ (by decide)]
    exact h.LenProjekt
  AnzDatenblöcke := by
    rw [hw _ (by decide)]
    exact h.AnzDatenblöcke
  IndexData := (hw _ (by decide)).trans h.IndexData

theorem stable_told (hlog : LogKept rely) (hsame : SameFile (chosenPath cfg w₀) rely) (n : Nat) :
    Stable (system allow rely) (Told cfg content w₀ n) := by
  intro w w' h hr
  refine h.congr (hsame.content _ _ hr) (hsame.ProjektName _ _ hr) fun m _ => ?_
  exact hlog.congr (f := written m) (fun _ _ _ => rfl) hr

theorem stable_someTold (hlog : LogKept rely) (hsame : SameFile (chosenPath cfg w₀) rely) :
    Stable (system allow rely) fun w => ∃ n, Told cfg content w₀ n w := by
  rintro w w' ⟨n, hw⟩ hr
  exact ⟨n, stable_told hlog hsame n w w' hw hr⟩

theorem keeps_told (n : Nat) : Keeps (system allow rely) Aside (Told cfg content w₀ n) := by
  rintro q hq w a _ h ⟨-, -, rfl⟩
  exact h.congr rfl (after_ProjektName _ _ _) fun m hm => written_aside hq hm a w.log

/-- The situation of a run about a project that an `int16` can count. -/
structure Few (cfg : Config) (content : Text) (rely : World π → World π → Prop) (w₀ : World π) :
    Prop where
  log : LogKept rely
  same : SameFile (chosenPath cfg w₀) rely
  file : w₀.fs.content (chosenPath cfg w₀) = some content
  size : 1 ≤ cfg.lenDataArray
  few : countRecords content ≤ 32767

abbrev Tells (cfg : Config) (content : Text) (allow : World π → (q : Req) → Ans q → Prop)
    (rely : World π → World π → Prop) (w₀ : World π) (Q : α → World π → Prop) (p : M α)
    (w : World π) : Prop :=
  Safe (system allow rely) (fun _ w => Counters (countRecords content) (blockSize cfg) w.log) Q
    (fun _ w => ∃ n, Told cfg content w₀ n w) p w

variable (h : Few cfg content rely w₀)

include h

theorem Few.recordCount : toInt32 (countRecords content) = countRecords content :=
  toInt32_of_lt (h.few.trans_lt (by decide))

theorem Few.one_le_blockSize : 1 ≤ blockSize cfg := by
  have := h.size
  rw [blockSize]
  omega

theorem Few.anzBlocke : blockCount (countRecords content) cfg.lenDataArray =
    blocksFor (countRecords content) (blockSize cfg) := by
  have hB : cfg.lenDataArray = blockSize cfg :=
    (Int.toNat_of_nonneg (zero_le_one.trans h.size)).symm
  rw [hB]
  exact blockCount_eq h.one_le_blockSize

theorem Few.blocks_le : blocksFor (countRecords content) (blockSize cfg) ≤ 32767 := by
  have hle : blocksFor (countRecords content) (blockSize cfg) ≤ countRecords content :=
    (blocksFor_le_iff h.one_le_blockSize _).mpr (Nat.le_mul_of_pos_right _ h.one_le_blockSize)
  exact hle.trans h.few

theorem tells_within {p : M α} {Q : α → World π → Prop} (hp : p.Within Aside)
    (hw : Told cfg content w₀ n w) (hQ : ∀ a w, Told cfg content w₀ n w → Q a w) :
    Tells cfg content allow rely w₀ Q p w :=
  (Safe.within (stable_told h.log h.same n) (keeps_told n) (fun _ _ _ h => h.counters) hp
    hw).mono hQ fun _ _ h => ⟨n, h⟩

theorem tells_only {p : M β} {f : β → M α} {Q : α → World π → Prop} (hp : p.Within Aside)
    (hw : Told cfg content w₀ n w)
    (hf : ∀ b w, Told cfg content w₀ n w → Tells cfg content allow rely w₀ Q (f b) w) :
    Tells cfg content allow rely w₀ Q (p >>= f) w :=
  Safe.bind (tells_within h hp hw hf)

theorem tells_call {q : Req} (hq : ∀ m, m ≠ .StatusCode → ∀ a log,
      written m (.call q a :: log) = written m log) {k : Ans q → M α} {Q : α → World π → Prop}
    (hw : Told cfg content w₀ n w)
    (hk : ∀ a w, Told cfg content w₀ n w → Tells cfg content allow rely w₀ Q (k a) w) :
    Tells cfg content allow rely w₀ Q (.call q k) w := by
  apply Safe.call (stable_told h.log h.same n) hw (fun _ h => h.counters)
  rintro w a _ h ⟨-, -, rfl⟩
  exact hk a _ (h.congr rfl (after_ProjektName _ _ _) fun m hm => hq m hm a w.log)

theorem tells_aside {q : Req} (hq : Aside q) {k : Ans q → M α} {Q : α → World π → Prop}
    (hw : Told cfg content w₀ n w)
    (hk : ∀ a w, Told cfg content w₀ n w → Tells cfg content allow rely w₀ Q (k a) w) :
    Tells cfg content allow rely w₀ Q (.call q k) w :=
  tells_call h (fun _ hm => written_aside hq hm) hw hk

theorem tells_writeBool {m : BoolNode} {v : Bool} {k : Written → M α} {Q : α → World π → Prop}
    (hw : Told cfg content w₀ n w)
    (hk : ∀ a w, Told cfg content w₀ n w → Tells cfg content allow rely w₀ Q (k a) w) :
    Tells cfg content allow rely w₀ Q (.call (.writeBool m v) k) w :=
  tells_call h (fun _ _ _ _ => rfl) hw hk

theorem tells_counter {m : Int16Node} {v : Int} (hm : m = .LenProjekt ∧ v = countRecords content ∨
      m = .AnzDatenblöcke ∧ v = blocksFor (countRecords content) (blockSize cfg))
    {k : Written → M α} {Q : α → World π → Prop} (hw : Told cfg content w₀ n w)
    (hk : ∀ a w, Told cfg content w₀ n w → Tells cfg content allow rely w₀ Q (k a) w) :
    Tells cfg content allow rely w₀ Q (.call (.writeInt16 m v) k) w := by
  apply Safe.call (stable_told h.log h.same n) hw (fun _ h => h.counters)
  rintro w a _ h ⟨-, -, rfl⟩
  refine hk a _ ⟨h.file, (after_ProjektName _ _ _).trans h.ProjektName, ?_, ?_, ?_⟩
  · obtain ⟨rfl, rfl⟩ | ⟨rfl, rfl⟩ := hm
    · rw [World.after, written_self]
      exact List.forall_mem_append.mpr ⟨h.LenProjekt, List.forall_mem_singleton.mpr rfl⟩
    · rw [World.after, written_other (by decide)]
      exact h.LenProjekt
  · obtain ⟨rfl, rfl⟩ | ⟨rfl, rfl⟩ := hm
    · rw [World.after, written_other (by decide)]
      exact h.AnzDatenblöcke
    · rw [World.after, written_self]
      exact List.forall_mem_append.mpr ⟨h.AnzDatenblöcke, List.forall_mem_singleton.mpr rfl⟩
  · obtain ⟨rfl, rfl⟩ | ⟨rfl, rfl⟩ := hm
    · rw [World.after, written_other (by decide)]
      exact h.IndexData
    · rw [World.after, written_other (by decide)]
      exact h.IndexData

theorem tells_index {v : Int} (hv : v = n) {k : Written → M α} {Q : α → World π → Prop}
    (hw : Told cfg content w₀ n w)
    (hk : ∀ a w, Told cfg content w₀ (n + 1) w → Tells cfg content allow rely w₀ Q (k a) w) :
    Tells cfg content allow rely w₀ Q (.call (.writeInt16 .IndexData v) k) w := by
  apply Safe.call (stable_told h.log h.same n) hw (fun _ h => h.counters)
  rintro w a _ h ⟨-, -, rfl⟩
  refine hk a _ ⟨h.file, (after_ProjektName _ _ _).trans h.ProjektName, ?_, ?_, ?_⟩
  · rw [World.after, written_other (by decide)]
    exact h.LenProjekt
  · rw [World.after, written_other (by decide)]
    exact h.AnzDatenblöcke
  · rw [World.after, written_self, h.IndexData, List.range_succ, List.map_append, hv]
    rfl

theorem tells_readProjectName {f : Text × Bool → M α} {Q : α → World π → Prop}
    (hw : Told cfg content w₀ n w)
    (hno : ∀ w, Told cfg content w₀ n w → Tells cfg content allow rely w₀ Q (f ([], false)) w)
    (hyes : ∀ w, Told cfg content w₀ n w →
      Tells cfg content allow rely w₀ Q (f (w₀.nodes.ProjektName, true)) w) :
    Tells cfg content allow rely w₀ Q (readProjectNameFromSPS >>= f) w := by
  refine Safe.bind (Safe.call (stable_told h.log h.same n) hw (fun _ h => h.counters) ?_)
  rintro w name _ hw ⟨htrue, -, rfl⟩
  have hw' : Told cfg content w₀ n (w.after .readProjektName name) :=
    hw.congr rfl (after_ProjektName _ _ _) fun _ _ => rfl
  simp only [Prog.bind]
  split
  · exact tells_only h (aside_logAndPushError _ _) hw' fun _ => hno
  · rename_i hs
    split
    · exact tells_only h (aside_logAndPushError _ _) hw' fun _ => hno
    · have hname : name.value = w₀.nodes.ProjektName :=
        (htrue (by simpa using hs)).trans hw.ProjektName
      rw [hname]
      exact hyes _ hw'

theorem tells_getProjectInfo {f : Option ProjectInfo → M α} {Q : α → World π → Prop}
    (hw : Told cfg content w₀ n w)
    (hnone : ∀ w, Told cfg content w₀ n w → Tells cfg content allow rely w₀ Q (f none) w)
    (hsome : ∀ w, Told cfg content w₀ n w → Tells cfg content allow rely w₀ Q (f (some
      { name := w₀.nodes.ProjektName, filePath := chosenPath cfg w₀
        recordCount := countRecords content, exist := true })) w) :
    Tells cfg content allow rely w₀ Q
      (getProjectInfo cfg.folderPath w₀.nodes.ProjektName >>= f) w := by
  apply Safe.bind
  refine tells_aside h (q := .status _) trivial hw fun s w hw => ?_
  cases s with
  | error e => exact ⟨n, hw⟩
  | ok found =>
    cases found with
    | none => exact hnone w hw
    | some kind =>
      apply Safe.call (stable_told h.log h.same n) hw (fun _ h => h.counters)
      rintro w answer _ hw ⟨htrue, -, rfl⟩
      have hw' : Told cfg content w₀ n (w.after (.openFile _) answer) :=
        hw.congr rfl (after_ProjektName _ _ _) fun _ _ => rfl
      obtain rfl : answer = some content := by
        have hfile : answer = w.fs.content (chosenPath cfg w₀) := htrue
        exact hfile.trans (hw.file.trans h.file)
      exact hsome _ hw'

theorem tells_logAndPushError {message : Text} {code : Int} {b : β} {Q : β → World π → Prop}
    (hw : Told cfg content w₀ n w) (hQ : ∀ w, Told cfg content w₀ n w → Q b w) :
    Tells cfg content allow rely w₀ Q (logAndPushError message code >>= fun _ => pure b) w :=
  tells_only h (aside_logAndPushError _ _) hw fun _ => hQ

theorem tells_writeProjectInfo {info : ProjectInfo} {f : Bool → M α} {Q : α → World π → Prop}
    (he : info.exist = true) (hc : info.recordCount = countRecords content)
    (hw : Told cfg content w₀ n w)
    (hf : ∀ w, Told cfg content w₀ n w → Tells cfg content allow rely w₀ Q (f true) w) :
    Tells cfg content allow rely w₀ Q (writeProjectInfoToSPS cfg info >>= f) w := by
  have hlen : toInt16 info.recordCount = countRecords content := by
    rw [hc]
    exact toInt16_of_le h.few
  have hanz : toInt16 (ProjectManager.blockCount info.recordCount cfg.lenDataArray) =
      blocksFor (countRecords content) (blockSize cfg) := by
    rw [hc, h.anzBlocke]
    exact toInt16_of_le h.blocks_le
  apply Safe.bind
  simp only [writeProjectInfoToSPS, he, Bool.not_true, Bool.false_eq_true, if_false,
    Prog.perform_bind, hlen, hanz]
  refine tells_counter h (.inl ⟨rfl, rfl⟩) hw fun _ w hw => ?_
  refine tells_writeBool h hw fun _ w hw => ?_
  refine tells_counter h (.inr ⟨rfl, rfl⟩) hw fun _ w hw => ?_
  exact tells_only h ((quiet_pushInfo _).within aside_of_quiet) hw fun _ => hf

theorem tells_showProjectInfo {f : Int × Bool → M α} {Q : α → World π → Prop}
    (hw : Told cfg content w₀ n w)
    (hno : ∀ n w, Told cfg content w₀ n w → Tells cfg content allow rely w₀ Q (f (0, false)) w)
    (hyes : ∀ w, Told cfg content w₀ n w →
      Tells cfg content allow rely w₀ Q (f (countRecords content, true)) w) :
    Tells cfg content allow rely w₀ Q (showProjectInfo cfg >>= f) w := by
  refine Safe.bind (Safe.handle (Safe.mono (X := fun _ w => ∃ n, Told cfg content w₀ n w) ?_
    (fun _ _ h => h) ?_))
  · refine tells_readProjectName h hw (hno n) fun w hw => ?_
    refine tells_getProjectInfo h hw (fun w hw => ?_) fun w hw => ?_
    · refine tells_writeBool h hw fun _ w hw => ?_
      exact tells_logAndPushError h hw (hno n)
    · refine tells_writeProjectInfo h rfl rfl hw fun w hw => ?_
      refine tells_only h (aside_showPreview _ _) hw fun _ w hw => ?_
      have hcount := hyes w hw
      rw [← h.recordCount] at hcount
      exact hcount
  · rintro e w ⟨n', hw'⟩
    exact tells_logAndPushError h hw' (hno n')

def AtHead (cfg : Config) (content : Text) (w₀ : World π) : Stage → World π → Prop
  | .start, w => Told cfg content w₀ 0 w
  | .transfer t, w => ∃ k : Nat, t.currentBlock = k ∧ Told cfg content w₀ (k + 1) w ∧
    k < blocksFor (countRecords content) (blockSize cfg) ∧
    t.anzBlocke = blocksFor (countRecords content) (blockSize cfg)
  | .acknowledge _, w => ∃ n, Told cfg content w₀ n w

def AtEnd (cfg : Config) (content : Text) (w₀ : World π) : Stage ⊕ Bool → World π → Prop :=
  Sum.elim (AtHead cfg content w₀) fun _ w => ∃ n, Told cfg content w₀ n w

theorem tells_prepareTransfer (hw : Told cfg content w₀ 0 w) :
    Tells cfg content allow rely w₀ (AtEnd cfg content w₀) (prepareTransfer cfg) w := by
  refine tells_showProjectInfo h hw (fun n w hw => ⟨n, hw⟩) fun w hw => ?_
  simp only [Bool.not_true, Bool.false_or, decide_eq_true_eq]
  split
  · exact ⟨0, hw⟩
  rename_i hne
  have hpos : 0 < blocksFor (countRecords content) (blockSize cfg) :=
    blocksFor_pos h.one_le_blockSize (by omega)
  refine tells_readProjectName h hw (fun w hw => ⟨0, hw⟩) fun w hw => ?_
  refine tells_getProjectInfo h hw (fun w hw => ⟨0, hw⟩) fun w hw => ?_
  simp only [h.anzBlocke, Prog.perform_bind]
  refine tells_counter h (.inr ⟨rfl, toInt16_of_le h.blocks_le⟩) hw fun _ w hw => ?_
  refine tells_index h rfl hw fun _ w hw => ?_
  refine tells_only h (aside_setTransferFlags _ _ _) hw fun _ w hw => ?_
  refine tells_aside h (q := .readMinArcRadius) trivial hw fun _ w hw => ?_
  refine tells_aside h (q := .now) trivial hw fun _ w hw => ?_
  exact ⟨0, rfl, hw, hpos, rfl⟩

theorem tells_finishTransfer (hw : Told cfg content w₀ n w) :
    Tells cfg content allow rely w₀ (AtEnd cfg content w₀) finishTransfer w :=
  tells_only h (aside_setTransferFlags _ _ _) hw fun _ _ hw => ⟨n, hw⟩

theorem tells_stop {message : Text} {code : Int} (hw : Told cfg content w₀ n w) :
    Tells cfg content allow rely w₀ (AtEnd cfg content w₀)
      (logAndPushError message code >>= fun _ => finishTransfer) w :=
  tells_only h (aside_logAndPushError _ _) hw fun _ _ hw => tells_finishTransfer h hw

theorem tells_nextBlock {t : Transfer} {k : Nat} (hk : t.currentBlock = k)
    (ht : t.anzBlocke = blocksFor (countRecords content) (blockSize cfg))
    (hw : Told cfg content w₀ (k + 1) w) :
    Tells cfg content allow rely w₀ (AtEnd cfg content w₀) (nextBlock t) w := by
  rw [nextBlock]
  split
  · refine tells_only h ((quiet_pushInfo _).within aside_of_quiet) hw fun _ w hw => ?_
    exact tells_aside h (q := .now) trivial hw fun _ w hw => ⟨k + 1, hw⟩
  · exact ⟨k, hk, hw, by omega, ht⟩

theorem tells_sendBlock {t : Transfer} (hw : AtHead cfg content w₀ (.transfer t) w) :
    Tells cfg content allow rely w₀ (AtEnd cfg content w₀) (sendBlock cfg t) w := by
  obtain ⟨k, hk, hw, hlt, ht⟩ := hw
  have hindex : toInt16 (t.currentBlock + 1) = (k + 1 : Nat) := by
    have := h.blocks_le
    rw [hk, ← Nat.cast_succ]
    exact toInt16_of_le (by omega)
  simp only [sendBlock, hindex, Prog.perform_bind]
  refine tells_writeBool h hw fun _ w hw => ?_
  refine tells_index h rfl hw fun _ w hw => ?_
  refine tells_aside h (q := .openFile _) trivial hw fun file w hw => ?_
  cases file with
  | none => exact ⟨_, hw⟩
  | some file =>
    refine tells_only h (aside_writeDataBlock _) hw fun sent w hw => ?_
    split
    · exact tells_finishTransfer h hw
    · refine tells_writeBool h hw fun _ w hw => ?_
      refine tells_aside h (q := .now) trivial hw fun _ w hw => ?_
      exact tells_nextBlock h (k := k + 1) (by push_cast; rw [hk]) ht hw

theorem tells_transferBlock {t : Transfer} (hw : AtHead cfg content w₀ (.transfer t) w) :
    Tells cfg content allow rely w₀ (AtEnd cfg content w₀) (transferBlock cfg t) w := by
  obtain ⟨k, hk, hw, hlt, ht⟩ := hw
  simp only [transferBlock, Prog.perform_bind]
  refine tells_aside h (q := .keepAlive) trivial hw fun alive w hw => ?_
  cases alive with
  | false => exact tells_stop h hw
  | true =>
    refine tells_aside h (q := .handshakeExpired _) trivial hw fun late w hw => ?_
    cases late with
    | true => exact tells_stop h hw
    | false =>
      refine tells_aside h (q := .readBool _) trivial hw fun abbruch w hw => ?_
      split
      · refine tells_writeBool h hw fun _ w hw => ?_
        exact tells_finishTransfer h hw
      · refine tells_aside h (q := .readBool _) trivial hw fun readData w hw => ?_
        split
        · exact tells_sendBlock h ⟨k, hk, hw, hlt, ht⟩
        · exact tells_nextBlock h hk ht hw

theorem tells_awaitAcknowledgement (ackDeadline : Nat) (hw : Told cfg content w₀ n w) :
    Tells cfg content allow rely w₀ (AtEnd cfg content w₀) (awaitAcknowledgement ackDeadline) w := by
  simp only [awaitAcknowledgement, Prog.perform_bind]
  refine tells_aside h (q := .ackExpired _) trivial hw fun late w hw => ?_
  cases late with
  | true => exact tells_finishTransfer h hw
  | false =>
    refine tells_aside h (q := .keepAlive) trivial hw fun alive w hw => ?_
    cases alive with
    | false => exact tells_finishTransfer h hw
    | true =>
      refine tells_aside h (q := .readBool _) trivial hw fun writeData w hw => ?_
      split
      · exact tells_finishTransfer h hw
      · refine tells_aside h (q := .readBool _) trivial hw fun readAck w hw => ?_
        split
        · exact tells_writeBool h hw fun _ w hw => tells_finishTransfer h hw
        · exact ⟨n, hw⟩

theorem tells_guarded {p : M (Stage ⊕ Bool)}
    (hp : Tells cfg content allow rely w₀ (AtEnd cfg content w₀) p w) :
    Tells cfg content allow rely w₀ (AtEnd cfg content w₀) (guarded p) w := by
  refine Safe.handle (hp.mono (fun _ _ h => h) ?_)
  rintro e w ⟨n, hw⟩
  refine tells_only h (aside_logAndPushError _ _) hw fun _ w hw => ?_
  exact tells_only h (aside_setTransferFlags _ _ _) hw fun _ w hw => ⟨n, hw⟩

theorem tells_transferProjectData (stage : Stage) (w : World π)
    (hw : AtHead cfg content w₀ stage w) :
    Tells cfg content allow rely w₀ (AtEnd cfg content w₀) (transferProjectData cfg stage) w := by
  cases stage with
  | start => exact tells_guarded h (tells_prepareTransfer h hw)
  | transfer t => exact tells_guarded h (tells_transferBlock h hw)
  | acknowledge d =>
    obtain ⟨n, hw⟩ := hw
    exact tells_guarded h (tells_awaitAcknowledgement h d hw)

end Telling

section Statement

def showing (cfg : Config) : Process Req Ans Text Unit (Int × Bool) := fun _ => do
  let shown ← showProjectInfo cfg
  pure (.inr shown)

def errorPushed : List Event → Bool
  | [] => false
  | .call (.writeBool .Error true) _ :: _ => true
  | _ :: log => errorPushed log

def blockSent : List Event → Bool
  | [] => false
  | .call (.writeStrings .DataArray _) _ :: _ => true
  | _ :: log => blockSent log

def Refused (log : List Event) : Prop := errorPushed log = true ∧ blockSent log = false

/-- Whatever is done with the project, the PLC is told its counters, or it is refused. -/
def Correct (cfg : Config) (content : Text) : Prop :=
  ∀ (π : Type) (allow : World π → (q : Req) → Ans q → Prop) (rely : World π → World π → Prop)
    (w₀ : World π), LogKept rely → SameFile (chosenPath cfg w₀) rely → w₀.log = [] →
    w₀.fs.content (chosenPath cfg w₀) = some content →
    (∀ shown w, Reachable (system allow rely) (showing cfg) () w₀ ⟨.ret (.inr shown), w⟩ →
      Counters (countRecords content) (blockSize cfg) w.log ∨ Refused w.log) ∧
    ∀ c, Reachable (system allow rely) (transferProjectData cfg) .start w₀ c →
      ((∃ b, c.code = .ret (.inr b)) ∨ blockSent c.world.log = true) →
      Counters (countRecords content) (blockSize cfg) c.world.log ∨ Refused c.world.log

variable {cfg : Config} {content : Text} {allow : World π → (q : Req) → Ans q → Prop}
variable {rely : World π → World π → Prop} {w₀ : World π}

theorem told_init (hw₀ : w₀.log = []) : Told cfg content w₀ 0 w₀ := by
  refine ⟨rfl, rfl, ?_, ?_, ?_⟩
  · simp [hw₀, written]
  · simp [hw₀, written]
  · simp [hw₀, written]

theorem counters_of_told (w : World π) (h : ∃ n, Told cfg content w₀ n w) :
    Counters (countRecords content) (blockSize cfg) w.log := by
  obtain ⟨_, hw⟩ := h
  exact hw.counters

theorem counters_showing (h : Few cfg content rely w₀) (hw₀ : w₀.log = [])
    {c : Conf Req Ans Text Unit (Int × Bool) (World π)}
    (hc : Reachable (system allow rely) (showing cfg) () w₀ c) :
    Counters (countRecords content) (blockSize cfg) c.world.log := by
  have hstable : Stable (system allow rely) fun w => ∃ n, Told cfg content w₀ n w :=
    stable_someTold h.log h.same
  refine reachable_invariant (L := fun _ => Told cfg content w₀ 0)
    (P := fun _ w => ∃ n, Told cfg content w₀ n w) (X := fun _ w => ∃ n, Told cfg content w₀ n w)
    (fun _ => stable_told h.log h.same 0) (fun _ => hstable) (fun _ => hstable) ?_
    (fun _ _ hw => hw.counters) (fun _ => counters_of_told) (fun _ => counters_of_told)
    (told_init hw₀) hc
  intro _ w hw
  exact tells_showProjectInfo h hw (fun n w hw => ⟨n, hw⟩) fun w hw => ⟨0, hw⟩

theorem counters_transferProjectData (h : Few cfg content rely w₀) (hw₀ : w₀.log = [])
    {c : Conf Req Ans Text Stage Bool (World π)}
    (hc : Reachable (system allow rely) (transferProjectData cfg) .start w₀ c) :
    Counters (countRecords content) (blockSize cfg) c.world.log := by
  have hstable : Stable (system allow rely) fun w => ∃ n, Told cfg content w₀ n w :=
    stable_someTold h.log h.same
  have hhead : ∀ stage, Stable (system allow rely) (AtHead cfg content w₀ stage) := by
    intro stage
    cases stage with
    | start => exact stable_told h.log h.same 0
    | transfer t =>
      rintro w w' ⟨k, hk, hw, hlt, ht⟩ hr
      exact ⟨k, hk, stable_told h.log h.same _ w w' hw hr, hlt, ht⟩
    | acknowledge d => exact hstable
  refine reachable_invariant (L := AtHead cfg content w₀)
    (P := fun _ w => ∃ n, Told cfg content w₀ n w) (X := fun _ w => ∃ n, Told cfg content w₀ n w)
    hhead (fun _ => hstable) (fun _ => hstable) (tells_transferProjectData h) ?_
    (fun _ => counters_of_told) (fun _ => counters_of_told) (i := .start) (told_init hw₀) hc
  intro stage w hw
  cases stage with
  | start => exact hw.counters
  | transfer t =>
    obtain ⟨k, -, hw, -⟩ := hw
    exact hw.counters
  | acknowledge d => exact counters_of_told w hw

def offering (content : Text) : World Unit where
  nodes := { emptyNodes with ProjektName := ['p'] }
  fs := { status := fun _ => .ok (some .regular), content := fun _ => some content
          entries := fun _ => .ok [] }
  plc := ()

theorem sameFile_rest (path : Text) : SameFile path fun w w' : World Unit => w' = w := by
  constructor <;> rintro w _ rfl <;> rfl

theorem logKept_rest : LogKept fun w w' : World Unit => w' = w := by
  rintro w _ rfl
  exact .inl rfl

def shownRun (cfg : Config) (content : Text) : Conf Req Ans Text Unit (Int × Bool) (World Unit) :=
  play (showing cfg) (List.replicate 25 goOn) ⟨.ret (.inl ()), offering content⟩

theorem shownRun_code (cfg : Config) (content : Text) :
    (shownRun cfg content).code = .ret (.inr (toInt32 (countRecords content), true)) := rfl

theorem written_shownRun (cfg : Config) (content : Text) :
    written .LenProjekt (shownRun cfg content).world.log = [toInt16 (countRecords content)] := rfl

theorem errorPushed_shownRun (cfg : Config) (content : Text) :
    errorPushed (shownRun cfg content).world.log = false := rfl

theorem not_correct (cfg : Config) (content : Text) (h : 32767 < countRecords content) :
    ¬Correct cfg content := by
  intro hc
  have hrun : Reachable (system (fun _ _ _ => True) fun w w' => w' = w) (showing cfg) ()
      (offering content) ⟨.ret (.inr (toInt32 (countRecords content), true)),
        (shownRun cfg content).world⟩ := by
    rw [← shownRun_code]
    refine play_reachable (fun m hm => ?_) () (offering content)
    obtain rfl := (List.mem_replicate.mp hm).2
    exact goOn_sound fun _ _ => trivial
  have hshown := (hc Unit _ _ (offering content) logKept_rest (sameFile_rest _) rfl rfl).1 _ _ hrun
  obtain hcount | herror := hshown
  · have hlen := hcount.LenProjekt
    rw [written_shownRun, List.forall_mem_singleton] at hlen
    have hsmall : toInt16 (countRecords content) < 2 ^ 15 := Int.bmod_lt (by decide)
    omega
  · rw [Refused, errorPushed_shownRun] at herror
    exact absurd herror.1 (by decide)

/-- The counters that the PLC is told are true exactly for the projects whose records an `int16`
can count. -/
theorem correct_iff (cfg : Config) (content : Text) (hB : 1 ≤ cfg.lenDataArray) :
    Correct cfg content ↔ countRecords content ≤ 32767 := by
  constructor
  · intro h
    by_contra hmany
    exact not_correct cfg content (by omega) h
  · intro hfew π allow rely w₀ hlog hsame hw₀ hfile
    have h : Few cfg content rely w₀ := ⟨hlog, hsame, hfile, hB, hfew⟩
    exact ⟨fun _ _ hc => .inl (counters_showing h hw₀ hc),
      fun _ hc _ => .inl (counters_transferProjectData h hw₀ hc)⟩

/-- A header and `n` lines `G0`. -/
def sameLines (n : Nat) : Text := '\n' :: (List.replicate n ['G', '0', '\n']).flatten

theorem countRecords_sameLines (n : Nat) : countRecords (sameLines n) = n := by
  have hbody : getlines (List.replicate n ['G', '0', '\n']).flatten =
      List.replicate n ['G', '0'] := by
    induction n with
    | zero => rfl
    | succ n ih =>
      rw [List.replicate_succ, List.flatten_cons, List.replicate_succ, ← ih]
      exact lines_append_cons (w := ['G', '0']) (by decide) _
  have hlines : getlines (sameLines n) = [] :: List.replicate n ['G', '0'] := by
    rw [← hbody]
    exact lines_append_cons (w := []) (by decide) _
  have hdata : dataLines (List.replicate n ['G', '0']) = List.replicate n ['G', '0'] := by
    rw [dataLines, List.map_replicate, List.filter_replicate_of_pos (by decide)]
    rfl
  rw [countRecords_eq, records, hlines, List.tail_cons, hdata, List.length_replicate]

theorem correct_manyLines : ¬∀ (cfg : Config) (content : Text), 1 ≤ cfg.lenDataArray →
    Correct cfg content := by
  intro h
  refine not_correct ⟨[], 1, 1, 1⟩ (sameLines 32768) ?_ (h _ _ le_rfl)
  rw [countRecords_sameLines]
  decide

theorem correct_oneLine : Correct ⟨['d'], 1, 1, 1⟩ (sameLines 1) := by
  refine (correct_iff _ _ le_rfl).mpr ?_
  rw [countRecords_sameLines]
  decide

end Statement

end Datenbereitstellung.PublishedCounters
