import Datenbereitstellung.BlockDelivery
import Datenbereitstellung.FlattenAgreement
import Datenbereitstellung.LineTokens
import Datenbereitstellung.PublishedCounters

namespace Datenbereitstellung.TransferredProgram

open Strings GCodeParser ArcFlatten FlattenAgreement ProjectFileReader Lib.Words Lib.Program Lib.Rely
open Files OpcUa ProjectManager Handshake TransferRefinement PlcSimulator BlockDelivery
open HandshakeOutline (block arriving map_cStr_eq_self_iff)
open LineTokens (tokens_stripEnd)

section Program

/-- What the PLC makes of the blocks that it took: the lines of each, as many as the project has. -/
def program (lenDataArray count : Nat) (rs : List (Int × List Text)) : List Text :=
  (rs.flatMap fun r => r.2.take lenDataArray).take count

def fileOf (ls : List Text) : Text := ls.flatMap (· ++ ['\n'])

/-- A line that the flattening leaves alone, or that it rewrites as the parser reads it. -/
def Sendable (t : Rat) (l : Text) : Prop :=
  Rewrites l t → (∃ o, parseLine l 0 ⟨0, 0⟩ = .ok o) ∧ (YieldsCommand l → Flattenable l)

end Program

section Lines

variable {l : Text} {t : Rat} {n m : Int} {p : Point2D} {o : Option Command} {c c' : Command}

theorem parseLine_lineNumber (l : Text) (n m : Int) (p : Point2D) :
    parseLine l m p = (parseLine l n p).map (Option.map fun c => { c with lineNumber := m }) := by
  simp only [parseLine]
  split
  · rfl
  split
  · rfl
  split
  · rfl
  cases parseCoordinates (tokens l) ⟨p.x, p.y, 0, 0⟩ with
  | error e => rfl
  | ok v => rfl

theorem exists_ok (h : ∃ o, parseLine l m ⟨0, 0⟩ = .ok o) (n : Int) (p : Point2D) :
    ∃ o, parseLine l n p = .ok o := by
  obtain ⟨o, ho⟩ := h
  by_cases hc : l.head? = some ';' ∨ l.head? = some '('
  · exact ⟨none, parseLine_comment hc n p⟩
  · rw [not_or] at hc
    by_cases ht : detectCommandType l = .None
    · exact ⟨none, LineTokens.parseLine_of_none ht n p⟩
    · have hne : l ≠ [] := by
        rintro rfl
        exact ht rfl
      rw [parseLine_of_not_comment hne hc.1 hc.2 ht] at ho ⊢
      obtain ⟨as, ha, -⟩ := map_eq_ok ho
      rw [ha]
      exact ⟨_, rfl⟩

theorem sameMove_of_nonpos (ht : t ≤ 0) (c : Command) : SameMove t c c := by
  refine ⟨?_, rfl, fun _ => rfl⟩
  rw [flattenCommandsMM, if_pos ht]
  rfl

theorem sameMove_congr {d : Command} (h : SameMove t d c') (htype : d.type = c.type)
    (hend : d.endPosition = c.endPosition) (hcenter : d.arcCenter = c.arcCenter) :
    SameMove t c c' := by
  refine ⟨?_, h.endPosition.trans hend, fun ha => (h.arcCenter ha).trans hcenter⟩
  obtain ht | ht := lt_or_ge 0 t
  · rw [← h.type, flattenCommandsMM_type _ ht, flattenCommandsMM_type _ ht, htype, hcenter]
  · rw [← h.type, flattenCommandsMM, if_pos ht, flattenCommandsMM, if_pos ht]
    simp [htype]

theorem agree (hs : Sendable t l) (ho : parseLine l n p = .ok o) :
    ∃ o', parseLine (flattenArcLine l t) n p = .ok o' ∧ FlattenAgreement.SameResult t o o' := by
  by_cases hR : Rewrites l t
  · have ht : 0 < t := by
      have hsh := hR.2
      simp only [shouldFlatten, Bool.and_eq_true, decide_eq_true_eq] at hsh
      exact hsh.1.1
    by_cases hy : YieldsCommand l
    · exact (agree_iff_of_yieldsCommand ht ho hR hy).mpr ((hs hR).2 hy)
    · exact agree_of_comment ho hR hy
  · obtain ht | ht := lt_or_ge 0 t
    · exact agree_of_not_rewrites ht ho hR
    · rw [flattenArcLine_of_not_rewrites hR]
      refine ⟨o, ho, ?_⟩
      cases o with
      | none => trivial
      | some c => exact sameMove_of_nonpos ht c

theorem forall₂_loops (ls : List Text) (n m i : Int) (p : Point2D) {r s : ParseResult}
    (hs : ∀ l ∈ dataLines ls, Sendable t l) (h : List.Forall₂ (SameMove t) r.commands s.commands) :
    List.Forall₂ (SameMove t) (parseLoop ls n i p r).commands
      (parseStringLoop ((dataLines ls).map (flattenArcLine · t)) m p s).commands := by
  induction ls generalizing n m i p r s with
  | nil => exact h
  | cons l ls ih =>
    simp only [parseLoop, onlySpace_stripEnd]
    cases hl : onlySpace l with
    | true =>
      rw [dataLines_cons_blank hl] at hs ⊢
      rw [if_pos rfl]
      exact ih (n + 1) m i p hs h
    | false =>
      rw [dataLines_cons_data hl] at hs ⊢
      rw [if_neg Bool.false_ne_true]
      have hline := hs _ List.mem_cons_self
      have hrest : ∀ l ∈ dataLines ls, Sendable t l := fun l hl => hs l (List.mem_cons_of_mem _ hl)
      rw [List.map_cons, parseStringLoop]
      have hnumber := parseLine_lineNumber (stripEnd l) (n + 1) (m + 1) p
      cases hp : parseLine (stripEnd l) (n + 1) p with
      | error e =>
        rw [hp] at hnumber
        have hR : ¬Rewrites (stripEnd l) t := by
          intro hR
          obtain ⟨o, ho⟩ := exists_ok (hline hR).1 (n + 1) p
          rw [hp] at ho
          cases ho
        rw [flattenArcLine_of_not_rewrites hR, hnumber]
        exact ih (n + 1) (m + 1) (i + 1) p hrest h
      | ok o =>
        rw [hp] at hnumber
        obtain ⟨o', ho', hsame⟩ := agree hline hnumber
        rw [ho']
        cases o with
        | none =>
          cases o' with
          | none => exact ih (n + 1) (m + 1) (i + 1) p hrest h
          | some c' => exact hsame.elim
        | some c =>
          cases o' with
          | none => exact hsame.elim
          | some c' =>
            have hmove : SameMove t c c' := sameMove_congr hsame rfl rfl rfl
            dsimp only
            rw [hmove.endPosition]
            refine ih (n + 1) (m + 1) (i + 1) c.endPosition hrest ?_
            exact List.rel_append h (.cons (sameMove_congr hmove rfl rfl rfl) .nil)

end Lines

section Records

variable {content : Text} {t : Rat}

theorem mem_rewriteWords (ts : List Text) :
    ∀ w ∈ rewriteWords ts, w = ['G', '0', '1'] ∨ w ∈ ts := by
  induction ts using rewriteWords.induct with
  | case1 =>
    intro w hw
    cases hw
  | case2 t rest hw ih =>
    rw [rewriteWords_last hw, List.forall_mem_cons]
    exact ⟨.inl rfl, fun w hw => (ih w hw).imp id (List.mem_cons_of_mem _)⟩
  | case3 t ho hl u rest hw ih =>
    rw [rewriteWords_letter hw ho hl]
    exact fun w hw => (ih w hw).imp id fun hm =>
      List.mem_cons_of_mem _ (List.mem_cons_of_mem _ hm)
  | case4 t ho hl hw =>
    rw [rewriteWords_letter hw ho hl]
    intro w hw
    cases hw
  | case5 t rest hw ho hl ih =>
    rw [rewriteWords_offset hw ho hl]
    exact fun w hw => (ih w hw).imp id (List.mem_cons_of_mem _)
  | case6 t rest hw ho ih =>
    rw [rewriteWords_keep hw ho, List.forall_mem_cons]
    exact ⟨.inr List.mem_cons_self, fun w hw => (ih w hw).imp id (List.mem_cons_of_mem _)⟩

theorem mem_flattenArcLine {l : Text} {c : Char} (h : c ∈ flattenArcLine l t) :
    c ∈ l ∨ c ∈ [' ', 'G', '0', '1'] := by
  by_cases hR : 0 < t ∧ Rewrites l t
  · rw [flattenArcLine_of_rewrites hR.1 hR.2, rebuildLoop_eq _ 0 (-1) (by decide)] at h
    obtain h | rfl | ⟨w, hw, hc⟩ := mem_foldl_appendWord _ h
    · cases h
    · exact .inr List.mem_cons_self
    · obtain rfl | hw := mem_rewriteWords _ w hw
      · exact .inr (List.mem_cons_of_mem _ hc)
      · exact .inl (mem_of_mem_words hw hc)
  · obtain ht | ht := lt_or_ge 0 t
    · rw [flattenArcLine_of_not_rewrites fun hr => hR ⟨ht, hr⟩] at h
      exact .inl h
    · rw [flattenArcLine, if_pos ht] at h
      exact .inl h

theorem of_mem_records {l : Text} (h : l ∈ records content) :
    '\n' ∉ l ∧ ∀ c ∈ l, c ∈ content := by
  obtain ⟨hm, -⟩ := List.mem_filter.mp h
  obtain ⟨line, hline, rfl⟩ := List.mem_map.mp hm
  have hget := List.mem_of_mem_tail hline
  have hsub : ∀ c ∈ stripEnd line, c ∈ line := fun c hc =>
    (List.rdropWhile_prefix isTrailing (l := line)).mem hc
  exact ⟨fun hn => sep_notMem_lines hget (hsub _ hn), fun c hc => mem_of_mem_lines hget (hsub c hc)⟩

def sentLines (content : Text) (t : Rat) : List Text := (records content).map (flattenArcLine · t)

theorem getlines_fileOf_sentLines : getlines (fileOf (sentLines content t)) = sentLines content t := by
  refine lines_flatMap fun l hl => ?_
  obtain ⟨l, hrecord, rfl⟩ := List.mem_map.mp hl
  intro hn
  obtain hn | hn := mem_flattenArcLine hn
  · exact (of_mem_records hrecord).1 hn
  · exact absurd hn (by decide)

theorem nul_notMem_sentLines (hnul : '\x00' ∉ content) : ∀ l ∈ sentLines content t, '\x00' ∉ l := by
  intro l hl hn
  obtain ⟨l, hrecord, rfl⟩ := List.mem_map.mp hl
  obtain hn | hn := mem_flattenArcLine hn
  · exact hnul ((of_mem_records hrecord).2 _ hn)
  · exact absurd hn (by decide)

theorem forall₂_sentLines (hfirst : ∀ l ∈ (getlines content).head?, ¬YieldsCommand (stripEnd l))
    (hs : ∀ l ∈ records content, Sendable t l) :
    List.Forall₂ (SameMove t) (parseContent content).commands
      (parseString (fileOf (sentLines content t))).commands := by
  have hsent : (parseString (fileOf (sentLines content t))).commands =
      (parseStringLoop (sentLines content t) 0 ⟨0, 0⟩ {}).commands := by
    rw [parseString, getlines_fileOf_sentLines]
  rw [hsent]
  cases content with
  | nil => exact .nil
  | cons ch content =>
    have hparse : (parseContent (ch :: content)).commands =
      (parseLoop (getlines (ch :: content)) 0 0 ⟨0, 0⟩ {}).commands := rfl
    rw [hparse]
    rw [records] at hs
    rw [sentLines, records]
    cases hl : getlines (ch :: content) with
    | nil => exact .nil
    | cons l ls =>
      rw [hl] at hs hfirst
      simp only [parseLoop, onlySpace_stripEnd]
      cases hspace : onlySpace l with
      | true => exact forall₂_loops ls 1 0 0 ⟨0, 0⟩ hs .nil
      | false =>
        rw [if_neg Bool.false_ne_true]
        cases hp : parseLine (stripEnd l) (0 + 1) ⟨0, 0⟩ with
        | error e => exact forall₂_loops ls 1 0 1 ⟨0, 0⟩ hs .nil
        | ok o =>
          cases o with
          | none => exact forall₂_loops ls 1 0 1 ⟨0, 0⟩ hs .nil
          | some c => exact absurd (parseLine_eq_some.mp hp).1 (hfirst l rfl)

end Records

section Transfer

theorem program_of_blocks {B : Nat} (rs : List (Int × List Text)) (L : List Text)
    (h : ∀ k r, rs[k]? = some r → (L.drop (k * B)).take B <+: r.2) (hlen : L.length ≤ rs.length * B) :
    program B L.length rs = L := by
  induction rs generalizing L with
  | nil =>
    rw [List.length_nil, Nat.zero_mul] at hlen
    rw [List.length_eq_zero_iff.mp (Nat.le_zero.mp hlen)]
    rfl
  | cons r rs ih =>
    have hr : L.take B <+: r.2 := by simpa using h 0 r rfl
    obtain hB | hB := Nat.le_total B L.length
    · have htake : r.2.take B = L.take B := by
        have hp := List.prefix_iff_eq_take.mp hr
        rw [List.length_take, Nat.min_eq_left hB] at hp
        exact hp.symm
      have hrest := ih (L.drop B) (fun k r hk => ?_) ?_
      · rw [program, List.length_drop] at hrest
        rw [program, List.flatMap_cons, htake, List.take_append, List.length_take, Nat.min_eq_left hB,
          hrest, List.take_of_length_le (by rw [List.length_take]; omega), List.take_append_drop]
      · rw [List.drop_drop]
        have hk' := h (k + 1) r hk
        rwa [Nat.succ_mul, Nat.add_comm] at hk'
      · rw [List.length_drop]
        rw [List.length_cons, Nat.succ_mul] at hlen
        omega
    · rw [List.take_of_length_le hB] at hr
      have hp : L <+: r.2.take B := List.prefix_take_iff.mpr ⟨hr, hB⟩
      rw [program, List.flatMap_cons]
      exact (List.prefix_iff_eq_take.mp (hp.trans (List.prefix_append _ _))).symm

variable {cfg : Config} {content : Text} {N : Nat} {w₀ : World Plc}

theorem block_eq (cfg : Config) (content : Text) (hlen : 1 ≤ cfg.lenDataArray) (t : Rat) (k : Nat) :
    block cfg content t k = ((sentLines content t).drop (k * cfg.lenDataArray.toNat)).take
      cfg.lenDataArray.toNat := by
  have hcast : cfg.lenDataArray = (cfg.lenDataArray.toNat : Int) := by omega
  rw [block, hcast, readDataBlock_eq content k _ (by omega), sentLines, List.map_take, List.map_drop]
  rfl

theorem records_le (h₀ : Start cfg content N w₀)
    (hfit : countRecords content + cfg.lenDataArray.toNat < 2 ^ 31) :
    (records content).length ≤ N * cfg.lenDataArray.toNat := by
  have hlen := h₀.len
  have hB : 1 ≤ cfg.lenDataArray.toNat := by omega
  have hcast : (cfg.lenDataArray.toNat : Int) = cfg.lenDataArray := by omega
  have hN : (N : Int) = BlockPartition.blocksFor (countRecords content) cfg.lenDataArray.toNat := by
    rw [h₀.blocks, PublishedCounters.toInt32_of_lt (by omega), ← PublishedCounters.blockCount_eq hB,
      hcast]
  rw [Int.natCast_inj.mp hN, ← countRecords_eq]
  exact BlockPartition.le_blocksFor_mul hB

theorem program_of_transferred (h₀ : Start cfg content N w₀)
    (hfit : countRecords content + cfg.lenDataArray.toNat < 2 ^ 31) (hnul : '\x00' ∉ content)
    {c : Conf Req Ans Text Stage Bool (World Plc)}
    (hc : Reachable (system undisturbed plcSteps) (transferProjectData cfg) .start w₀ c)
    (hdone : c.code = .ret (.inr true)) :
    program cfg.lenDataArray.toNat (countRecords content) (received c.world.log) =
      sentLines content w₀.nodes.minArcRadius := by
  obtain ⟨pc, hrun⟩ := exists_run logKept_plcSteps h₀.log hc
  obtain ⟨ho, -⟩ := received_of_at h₀.one_le (at_of_run h₀ hrun)
  have htaken : (received c.world.log).length = N := by
    have hend := transferProjectData_refines logKept_plcSteps h₀.log hc
    rw [hdone] at hend
    obtain hdone | ⟨hb, -⟩ := hend
    · exact (at_of_run h₀ hdone).2.taken
    · cases hb
  have hlength : countRecords content = (sentLines content w₀.nodes.minArcRadius).length := by
    rw [countRecords_eq, sentLines, List.length_map]
  rw [hlength]
  refine program_of_blocks _ _ (fun k r hr => ?_) ?_
  · have hblock := (ho k r hr).2
    rw [arriving, (map_cStr_eq_self_iff _).mpr, block_eq cfg content h₀.len] at hblock
    · exact hblock
    · intro l hl
      rw [block_eq cfg content h₀.len] at hl
      exact nul_notMem_sentLines hnul l (List.mem_of_mem_drop (List.mem_of_mem_take hl))
  · rw [← hlength, countRecords_eq, htaken]
    exact records_le h₀ hfit

/-- The two commands do the same. -/
structure SameStep (c c' : Command) : Prop where
  type : c'.type = c.type
  endPosition : c'.endPosition = c.endPosition
  arcCenter : c'.type = .G02 ∨ c'.type = .G03 → c'.arcCenter = c.arcCenter

theorem forall₂_flattenCommandsMM {t : Rat} {cs cs' : List Command}
    (h : List.Forall₂ (SameMove t) cs cs') : List.Forall₂ SameStep (flattenCommandsMM cs t) cs' := by
  have hstep : ∀ {c c' : Command}, SameMove t c c' → ∀ d, flattenCommandsMM [c] t = [d] →
      SameStep d c' := by
    intro c c' hc d hd
    have htype := hc.type
    rw [hd] at htype
    have hkept : d.endPosition = c.endPosition ∧ d.arcCenter = c.arcCenter := by
      simp only [flattenCommandsMM] at hd
      split at hd
      · obtain rfl := List.singleton_inj.mp hd
        exact ⟨rfl, rfl⟩
      · obtain rfl := List.singleton_inj.mp hd
        dsimp only
        split
        · split <;> exact ⟨rfl, rfl⟩
        · exact ⟨rfl, rfl⟩
    exact ⟨(List.singleton_inj.mp htype).symm, hc.endPosition.trans hkept.1.symm,
      fun ha => (hc.arcCenter ha).trans hkept.2.symm⟩
  obtain ht | ht := lt_or_ge 0 t
  · rw [flattenCommandsMM, if_neg (not_le.mpr ht), List.forall₂_map_left_iff]
    refine h.imp fun c c' hc => hstep hc _ ?_
    rw [flattenCommandsMM, if_neg (not_le.mpr ht)]
    rfl
  · rw [flattenCommandsMM, if_pos ht]
    refine h.imp fun c c' hc => hstep hc _ ?_
    rw [flattenCommandsMM, if_pos ht]

/-- When a transfer was completed, what the PLC has taken is parsed as the very program that the
preview draws of the file: the same commands in the same order, with the arcs flattened alike. -/
theorem parsed_transferred (cfg : Config) (content : Text) (N : Nat) (w₀ : World Plc)
    (h₀ : Start cfg content N w₀)
    (hfit : countRecords content + cfg.lenDataArray.toNat < 2 ^ 31) (hnul : '\x00' ∉ content)
    (hfirst : ∀ l ∈ (getlines content).head?, ¬YieldsCommand (stripEnd l))
    (hs : ∀ l ∈ records content, Sendable w₀.nodes.minArcRadius l)
    (c : Conf Req Ans Text Stage Bool (World Plc))
    (hc : Reachable (system undisturbed plcSteps) (transferProjectData cfg) .start w₀ c)
    (hdone : c.code = .ret (.inr true)) :
    List.Forall₂ SameStep
      (flattenCommandsMM (parseContent content).commands w₀.nodes.minArcRadius)
      (parseString (fileOf (program cfg.lenDataArray.toNat (countRecords content)
        (received c.world.log)))).commands := by
  rw [program_of_transferred h₀ hfit hnul hc hdone]
  exact forall₂_flattenCommandsMM (forall₂_sentLines hfirst hs)

/-- A file with one arc, `G2 X1 I1`, behind its header. -/
def arcFile : Text := ['h', '\n', 'G', '2', ' ', 'X', '1', ' ', 'I', '1', '\n']

def arcWorld : World Plc :=
  { chosen arcFile with nodes := { (chosen arcFile).nodes with minArcRadius := 2 } }

theorem start_arcWorld : Start oneLine arcFile 1 arcWorld :=
  have h : Start oneLine arcFile 1 (chosen arcFile) := start_chosen (by decide)
  ⟨h.log, h.plc, h.writeData, h.abbrechen, h.file, h.records, h.blocks, h.few, h.len, h.rows, h.room⟩

def arcMoves : List (Move Req Ans (World Plc)) :=
  List.replicate 48 goOn ++ List.replicate 5 (.env plcCycle) ++ List.replicate 30 goOn

def arcRun : Conf Req Ans Text Stage Bool (World Plc) :=
  play (transferProjectData oneLine) arcMoves ⟨.ret (.inl .start), arcWorld⟩

theorem reachable_arcRun : Reachable (system undisturbed plcSteps) (transferProjectData oneLine) .start
    arcWorld arcRun := by
  refine play_reachable (fun m hm => ?_) Stage.start arcWorld
  simp only [arcMoves, List.mem_append, List.mem_replicate] at hm
  obtain (⟨-, rfl⟩ | ⟨-, rfl⟩) | ⟨-, rfl⟩ := hm
  · exact goOn_sound undisturbed_honest
  · exact fun w => rfl
  · exact goOn_sound undisturbed_honest

theorem code_arcRun : arcRun.code = .ret (.inr true) := rfl

theorem sendable_arcFile : ∀ l ∈ records arcFile, Sendable 2 l := by
  intro l hl
  have hrecords : records arcFile = [['G', '2', ' ', 'X', '1', ' ', 'I', '1']] := by decide
  rw [hrecords, List.mem_singleton] at hl
  obtain rfl := hl
  exact fun _ => ⟨⟨_, rfl⟩, fun _ => ⟨by decide +kernel, fun _ => by decide +kernel⟩⟩

theorem parsed_transferred_arc : List.Forall₂ SameStep
    (flattenCommandsMM (parseContent arcFile).commands 2)
    (parseString (fileOf (program 1 (countRecords arcFile) (received arcRun.world.log)))).commands := by
  refine parsed_transferred oneLine arcFile 1 arcWorld start_arcWorld (by decide) (by decide) ?_
    sendable_arcFile arcRun reachable_arcRun code_arcRun
  intro l hl hy
  obtain rfl : ['h'] = l := Option.some.inj hl
  exact hy.2.2.2.1 (by decide +kernel)

end Transfer

end Datenbereitstellung.TransferredProgram
