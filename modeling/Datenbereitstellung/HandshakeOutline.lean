import Datenbereitstellung.PlcSimulator

namespace Datenbereitstellung.HandshakeOutline

open Strings Files OpcUa ProjectManager Handshake TransferRefinement HandshakeInvariants
open PlcSimulator ArcFlatten
open ProjectFileReader (countRecords readDataBlock)

variable {π : Type}

section Blocks

/-- The lines of the block `k` of a file, with the arcs below the threshold flattened. -/
def block (cfg : Config) (content : Text) (arcThreshold : Rat) (k : Nat) : List Text :=
  (readDataBlock content k cfg.lenDataArray).map (flattenArcLine · arcThreshold)

/-- The lines of the block `k` as the strings of `DataArray` can hold them. -/
def arriving (cfg : Config) (content : Text) (arcThreshold : Rat) (k : Nat) : List Text :=
  (block cfg content arcThreshold k).map cStr

theorem map_cStr_eq_self_iff (L : List Text) : L.map cStr = L ↔ ∀ l ∈ L, '\x00' ∉ l := by
  induction L with
  | nil => simp
  | cons l L ih =>
    rw [List.map_cons, List.cons.injEq, cStr_eq_self_iff, ih, List.forall_mem_cons]

theorem prefix_iff_of_cStr {L es : List Text} (h : L.map cStr <+: es) :
    L <+: es ↔ ∀ l ∈ L, '\x00' ∉ l := by
  rw [← map_cStr_eq_self_iff]
  constructor
  · intro hL
    have hp := List.prefix_of_prefix_length_le h hL (by simp)
    exact hp.eq_of_length (by simp)
  · intro he
    rw [he] at h
    exact h

theorem toInt16_of_le {n : Nat} (h : n ≤ 32767) : toInt16 n = n := by
  rw [toInt16]
  rw [Int.bmod_def]
  omega

/-- A project file with its number of blocks, which an `int16` can count. -/
structure Project (cfg : Config) (content : Text) (N : Int) (w₀ : World π) : Prop where
  file : w₀.fs.content (chosenPath cfg w₀) = some content
  blocks : N = blockCount (toInt32 (countRecords content)) cfg.lenDataArray
  few : N ≤ 32767

variable {cfg : Config} {content : Text} {N : Int} {w₀ : World π}
variable {allow : World π → (q : Req) → Ans q → Prop} {rely : World π → World π → Prop}

theorem anzBlocke_of_run (hlog : LogKept rely) (hcon : Constant rely) (hw₀ : w₀.log = [])
    (hp : Project cfg content N w₀) {pc : Pc} {w : World π} (h : Run cfg allow rely w₀ pc w)
    {t : Transfer} (ht : planOf pc = some t) : t.filePath = chosenPath cfg w₀ ∧ t.anzBlocke = N := by
  obtain ⟨hpath, content', hc, hn⟩ := plan_of_run hlog (hcon.sameFile _) hw₀ h ht
  rw [hp.file] at hc
  cases hc
  exact ⟨hpath, hn.trans hp.blocks.symm⟩

theorem blockLines_of_run (hlog : LogKept rely) (hcon : Constant rely) (hw₀ : w₀.log = [])
    (hread : ∀ w a, allow w .readMinArcRadius a → a.success = true)
    (hp : Project cfg content N w₀) {w : World π} {t : Transfer}
    (h : Run cfg allow rely w₀ (.indexed t) w) {c : Option Text}
    (hc : c = w.fs.content t.filePath) : c = some content ∧ ∀ k : Nat, t.currentBlock = k →
      blockLines cfg t content = block cfg content w₀.nodes.minArcRadius k := by
  obtain ⟨hpath, -⟩ := anzBlocke_of_run hlog hcon hw₀ hp h rfl
  obtain ⟨hfile, -⟩ := contents_of_run hlog (hcon.sameFile (chosenPath cfg w₀)).content hw₀ h
  obtain ⟨-, hthr⟩ := threshold_of_run hcon hread h
  rw [hpath, hfile, hp.file] at hc
  refine ⟨hc, fun k hk => ?_⟩
  rw [blockLines, block, hk, hthr t rfl]

end Blocks

section Outline

/-- What holds of the shared nodes at the stages of a transfer: `rest k` when the block `k` is
due, `sent k` since it was announced, `last` since the last one was, and `ended` at the end. -/
structure Outline (π : Type) where
  rest : Nat → Shared π → Prop
  sent : Nat → Shared π → Prop
  last : Shared π → Prop
  ended : Bool → Shared π → Prop

/-- The outline agrees with the writes of the service and the steps `R` of the PLC. -/
structure Outline.Valid (O : Outline π) (B : Nat → List Text) (N : Int)
    (R : Shared π → Shared π → Prop) : Prop where
  rest_writeData : ∀ {k s}, O.rest k s → s.writeData = false
  rest_same : ∀ {k s s'}, O.rest k s → s'.plc = s.plc → s'.writeData = s.writeData →
    s'.received = s.received → O.rest k s'
  announce : ∀ {k s}, O.rest k s → s.readData = false → s.index = k + 1 →
    B k <+: s.array.elements → k < max 1 N → O.sent k { s with writeData := true }
  next : ∀ {k s}, O.sent k s → k + 1 < N → s.readData = true → O.rest (k + 1) s
  rest_last : ∀ {s}, O.rest 0 s → N ≤ 0 → O.last s
  sent_last : ∀ {k s}, O.sent k s → k < max 1 N → N ≤ k + 1 → O.last s
  rest_ended : ∀ {s}, O.rest 0 s → O.ended false s
  ended_writeData : ∀ {b s}, O.ended b s → O.ended b { s with writeData := false }
  ended_readData : ∀ {b s}, O.ended b s → O.ended b { s with readData := false }
  rest_stuck : ∀ {k s s'}, O.rest k s → R s s' → s' = s
  sent_stable : ∀ {k s s'}, O.sent k s → R s s' → O.sent k s'
  last_stable : ∀ {s s'}, O.last s → R s s' → O.last s'
  ended_stable : ∀ {b s s'}, O.ended b s → R s s' → O.ended b s'

def Outline.At (O : Outline π) (B : Nat → List Text) (N : Int) : Pc → Shared π → Prop
  | .prelude, s => O.rest 0 s
  | .prepared t, s | .published t, s | .opening t _, s => t.currentBlock = 0 ∧ O.rest 0 s
  | .waiting t, s => t.currentBlock = 0 ∧ O.rest 0 s ∨
      ∃ k : Nat, t.currentBlock = k + 1 ∧ k + 1 < N ∧ O.sent k s
  | .granted t, s => ∃ k : Nat, t.currentBlock = k ∧ k < max 1 N ∧ O.rest k s
  | .cleared t, s => ∃ k : Nat, t.currentBlock = k ∧ k < max 1 N ∧ O.rest k s ∧ s.readData = false
  | .indexed t, s => ∃ k : Nat, t.currentBlock = k ∧ k < max 1 N ∧ O.rest k s ∧
      s.readData = false ∧ s.index = k + 1
  | .loaded t b, s => ∃ k : Nat, t.currentBlock = k ∧ k < max 1 N ∧ O.rest k s ∧
      s.readData = false ∧ s.index = k + 1 ∧ b.map cStr = B k
  | .patching t b v, s => ∃ k : Nat, t.currentBlock = k ∧ k < max 1 N ∧ O.rest k s ∧
      s.readData = false ∧ s.index = k + 1 ∧ b.map cStr = B k ∧ b.length ≤ v.elements.length
  | .filled t, s => ∃ k : Nat, t.currentBlock = k ∧ k < max 1 N ∧ O.rest k s ∧
      s.readData = false ∧ s.index = k + 1 ∧ B k <+: s.array.elements
  | .sent t, s => ∃ k : Nat, t.currentBlock = k + 1 ∧ k < max 1 N ∧ O.sent k s
  | .acking _, s => O.last s
  | .acked _, s | .cancelling _, s => O.ended true s
  | .closing b _, s | .done b, s => O.ended b s

def ending : Pc → Option Bool
  | .acked _ | .cancelling _ => some true
  | .closing b _ | .done b => some b
  | _ => none

variable {O : Outline π} {B : Nat → List Text} {N : Int} {R : Shared π → Shared π → Prop}

theorem Outline.Valid.at_stable (hO : O.Valid B N R) {pc : Pc} {s s' : Shared π}
    (h : O.At B N pc s) (hr : R s s') : O.At B N pc s' := by
  have stuck : ∀ {k}, O.rest k s → O.At B N pc s' := by
    intro k hk
    rw [hO.rest_stuck hk hr]
    exact h
  cases pc with
  | prelude => exact stuck h
  | prepared | published | opening => exact stuck h.2
  | waiting =>
    obtain ⟨-, hi⟩ | ⟨k, hk, hlt, hs⟩ := h
    · exact stuck hi
    · exact .inr ⟨k, hk, hlt, hO.sent_stable hs hr⟩
  | granted =>
    obtain ⟨k, -, -, hi⟩ := h
    exact stuck hi
  | cleared | indexed | loaded | patching | filled =>
    obtain ⟨k, -, -, hi, -⟩ := h
    exact stuck hi
  | sent =>
    obtain ⟨k, hk, hlt, hs⟩ := h
    exact ⟨k, hk, hlt, hO.sent_stable hs hr⟩
  | acking => exact hO.last_stable h hr
  | acked | cancelling | closing | done => exact hO.ended_stable h hr

end Outline

section Run

variable {cfg : Config} {content : Text} {N : Int} {w₀ : World π}
variable {allow : World π → (q : Req) → Ans q → Prop} {rely : World π → World π → Prop}

structure Setting (cfg : Config) (content : Text) (N : Int) (w₀ : World π)
    (allow : World π → (q : Req) → Ans q → Prop) (rely : World π → World π → Prop) : Prop where
  log : w₀.log = []
  project : Project cfg content N w₀
  logKept : LogKept rely
  constant : Constant rely
  succeeds : ∀ w q a, allow w q a → Succeeds q a

theorem Setting.anzBlocke (hS : Setting cfg content N w₀ allow rely) {pc : Pc} {w : World π}
    (h : Run cfg allow rely w₀ pc w) {t : Transfer} (ht : planOf pc = some t) : t.anzBlocke = N :=
  (anzBlocke_of_run hS.logKept hS.constant hS.log hS.project h ht).2

variable {O : Outline π} {R : Shared π → Shared π → Prop}

theorem Outline.Valid.at_call (hS : Setting cfg content N w₀ allow rely)
    (hO : O.Valid (arriving cfg content w₀.nodes.minArcRadius) N R) {pc pc' : Pc} {w : World π}
    {q : Req} {a : Ans q} (h : Run cfg allow rely w₀ pc w)
    (hat : O.At (arriving cfg content w₀.nodes.minArcRadius) N pc (shared w))
    (ht : Truthful w q a) (ha : allow w q a) (hs : Trans cfg pc q a pc')
    (hend : ∀ b, ending pc = none → ending pc' = some b → O.ended b (shared w)) :
    O.At (arriving cfg content w₀.nodes.minArcRadius) N pc' (shared (w.after q a)) := by
  have hsuc := hS.succeeds w q a ha
  have hfew := hS.project.few
  cases hs with
  | quiet _ hq =>
    rw [shared_quiet w hq]
    exact hat
  | look hq =>
    obtain ⟨n, hn⟩ := shared_look w hq a
    rw [hn]
    exact hO.rest_same hat rfl rfl rfl
  | publish t =>
    rw [shared_published hsuc]
    exact ⟨hat.1, hO.rest_same hat.2 rfl rfl rfl⟩
  | reset t =>
    rw [shared_index hsuc]
    exact ⟨hat.1, hO.rest_same hat.2 rfl rfl rfl⟩
  | openWriteData t =>
    rw [shared_writeData hsuc]
    exact ⟨hat.1, hO.rest_same hat.2 rfl (hO.rest_writeData hat.2).symm rfl⟩
  | openReadData t =>
    rw [shared_readData hsuc]
    exact ⟨hat.1, hO.rest_same hat.2 rfl rfl rfl⟩
  | openBeendet t =>
    rw [shared_beendet]
    exact hat
  | threshold t => exact .inl hat
  | tick t => exact hat
  | grant t hg hv =>
    have hr : (shared w).readData = true := (ht hg).symm.trans hv
    obtain ⟨hk, hi⟩ | ⟨k, hk, hlt, hs⟩ := hat
    · exact ⟨0, hk, by omega, hi⟩
    · exact ⟨k + 1, hk, by omega, hO.next hs hlt hr⟩
  | clear t =>
    rw [shared_readData hsuc]
    obtain ⟨k, hk, hlt, hi⟩ := hat
    exact ⟨k, hk, hlt, hO.rest_same hi rfl rfl rfl, rfl⟩
  | index t =>
    obtain ⟨k, hk, hlt, hi, hr⟩ := hat
    have h16 : toInt16 ((k + 1 : Nat) : Int) = (k + 1 : Nat) := toInt16_of_le (by omega)
    rw [shared_index hsuc, hk, ← Nat.cast_succ, h16]
    exact ⟨k, hk, hlt, hO.rest_same hi rfl rfl rfl, hr, Nat.cast_succ k⟩
  | load t c =>
    obtain ⟨k, hk, hlt, hi, hr, hx⟩ := hat
    obtain ⟨hc, hb⟩ := blockLines_of_run hS.logKept hS.constant hS.log
      (fun w a ha => hS.succeeds w _ a ha) hS.project h ht
    cases hc
    refine ⟨k, hk, hlt, hi, hr, hx, ?_⟩
    rw [hb k hk, arriving]
  | fetch t hfit =>
    obtain ⟨k, hk, hlt, hi, hr, hx, hb⟩ := hat
    exact ⟨k, hk, hlt, hi, hr, hx, hb, length_le_of_fits hfit.2⟩
  | fill t b v =>
    rw [shared_array hsuc]
    obtain ⟨k, hk, hlt, hi, hr, hx, hb, hle⟩ := hat
    refine ⟨k, hk, hlt, hO.rest_same hi rfl rfl rfl, hr, hx, ?_⟩
    rw [patched_elements hle, hb]
    exact List.prefix_append _ _
  | spill t b v hf => exact (hf hsuc).elim
  | announce t =>
    rw [shared_writeData hsuc]
    obtain ⟨k, hk, hlt, hi, hr, hx, hb⟩ := hat
    exact ⟨k, by rw [hk], hlt, hO.announce hi hr hx hb hlt⟩
  | sentTick t => exact hat
  | complete t hge =>
    have hN := hS.anzBlocke h rfl
    obtain ⟨hk, hi⟩ | ⟨k, hk, hlt, hs⟩ := hat
    · exact hO.rest_last hi (by omega)
    · omega
  | sentAll t hge =>
    have hN := hS.anzBlocke h rfl
    obtain ⟨k, hk, hlt, hs⟩ := hat
    exact hO.sent_last hs hlt (by omega)
  | lose | misfit | abort | dead | expired | ackLate | ackDead | ackCleared | ackRead =>
    exact hend _ rfl rfl
  | cancel t =>
    rw [shared_abbrechen]
    exact hat
  | ackClear t =>
    rw [shared_readData hsuc]
    exact hO.ended_readData hat
  | closeWriteData b =>
    rw [shared_writeData hsuc]
    exact hO.ended_writeData hat
  | closeReadData b =>
    rw [shared_readData hsuc]
    exact hO.ended_readData hat
  | closeBeendet b =>
    rw [shared_beendet]
    exact hat

/-- The outline holds in every run in which the calls that end the transfer keep it. -/
theorem Outline.Valid.at_of_run (hS : Setting cfg content N w₀ allow rely)
    (hO : O.Valid (arriving cfg content w₀.nodes.minArcRadius) N R)
    (hR : ∀ w w', rely w w' → R (shared w) (shared w')) (hw₀ : O.rest 0 (shared w₀))
    (hend : ∀ {pc pc' w q} {a : Ans q} {b}, Run cfg allow rely w₀ pc w →
      O.At (arriving cfg content w₀.nodes.minArcRadius) N pc (shared w) → Truthful w q a →
      allow w q a → Trans cfg pc q a pc' → ending pc = none → ending pc' = some b →
      O.ended b (shared w)) {pc : Pc} {w : World π} (h : Run cfg allow rely w₀ pc w) :
    O.At (arriving cfg content w₀.nodes.minArcRadius) N pc (shared w) := by
  induction h with
  | init => exact hw₀
  | others _ hr ih => exact hO.at_stable ih (hR _ _ hr)
  | call h ht ha hs ih =>
    exact hO.at_call hS h ih ht ha hs fun b => hend h ih ht ha hs
  | prepare _ _ hz ih => exact ⟨hz, ih⟩
  | resume h hn ih =>
    have hN := hS.anzBlocke h rfl
    obtain ⟨k, hk, hlt, hs⟩ := ih
    exact .inr ⟨k, hk, by omega, hs⟩
  | fail _ _ ih => exact hO.rest_ended ih

end Run

end Datenbereitstellung.HandshakeOutline
