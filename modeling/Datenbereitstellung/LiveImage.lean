import Datenbereitstellung.Lib.Machines
import Datenbereitstellung.ProjectManager
import Datenbereitstellung.SpsDialog

namespace Datenbereitstellung.LiveImage

open Strings Lib.Machines
open OpcUa (Reading RenderParams)
open ProjectManager (toInt32 toInt32_eq_iff)

variable {α β : Type}

section Loop

/-- What the calls of one iteration answer. `α` is a rendered image, `β` a picture as it is
published; `encode` answers with `none` where nothing is published. -/
structure Iteration (α β : Type) where
  keepAlive : Bool := true
  abbruch : Reading Bool := ⟨false, true, 0⟩
  stand : Reading Int16
  params : RenderParams
  renderPreview : RenderParams → Except Text (α × Int)
  encode : α → Except Text (Option β)

inductive Call (β : Type)
  | writeLiveAbbruch (value : Bool)
  | writeStatusCode (value : Int)
  | logAndPushError (message : Text)
  | setImage (picture : β)

inductive Ending
  | connectionLost
  | abbruch
  | endOfProgram
  | exception
  deriving DecidableEq

def caught (e : Text) : List (Call β) × Option Ending :=
  ([.logAndPushError (lit "Fehler bei LiveImage: " ++ e)], some .exception)

def showStand (it : Iteration α β) (LiveStand : Int) : List (Call β) × Option Ending :=
  match it.renderPreview { it.params with currentRecord := LiveStand } with
  | .error e => caught e
  | .ok (liveImg, liveStatusCode) =>
    if liveStatusCode ≠ 0 then
      ([.writeStatusCode (ProjectManager.toInt16 liveStatusCode),
        .logAndPushError (lit "Fehler beim Rendern des Livebilds: " ++ toText liveStatusCode)],
        none)
    else match it.encode liveImg with
      | .error e => caught e
      | .ok picture => (picture.toList.map .setImage, none)

def standError (stand : Reading Int16) : List (Call β) :=
  if stand.success then []
  else [.logAndPushError (lit "Fehler beim Lesen des LiveStand: " ++ toText stand.code)]

def iteration (recordCount : Nat) : Step Int (Iteration α β) (Call β) Ending :=
  fun LiveStand it =>
    if !it.keepAlive then (LiveStand, [], some .connectionLost)
    else if it.abbruch.success && it.abbruch.value then
      (LiveStand, [.writeLiveAbbruch false], some .abbruch)
    else if LiveStand = toInt32 recordCount then (LiveStand, [], some .endOfProgram)
    else if it.stand.value.toInt ≠ LiveStand then
      let (calls, ending) := showStand it it.stand.value.toInt
      (it.stand.value.toInt, standError it.stand ++ calls, ending)
    else (LiveStand, standError it.stand, none)

abbrev LoopRuns (recordCount : Nat) (its : List (Iteration α β)) (LiveStand : Int)
    (calls : List (Call β)) : Prop :=
  Runs (iteration recordCount) (-1) its LiveStand calls

end Loop

section Dialog

open SpsDialog

theorem value_of_failed {d : SPSDialog} {read : VariableInfo → Reading Int16} {name : Text}
    {var : VariableInfo} (hvar : d.variableMap name = some var)
    (h : (d.readVariable read 0 (-1) name).success = false) :
    (d.readVariable read 0 (-1) name).value = -1 := by
  simp only [SPSDialog.readVariable, hvar] at h ⊢
  split at h
  · cases h
  · rename_i hread
    rw [if_neg hread]

end Dialog

section Statement

def picture : Call β → Option β
  | .setImage p => some p
  | _ => none

def pictures (calls : List (Call β)) : List β := calls.filterMap picture

/-- The iteration comes to the check for the end of the program. -/
def Checks (it : Iteration α β) : Prop :=
  it.keepAlive = true ∧ ¬(it.abbruch.success && it.abbruch.value) = true

/-- The value of the last read that succeeded. -/
def lastRead (its : List (Iteration α β)) : Option Int :=
  ((its.filter (·.stand.success)).getLast?).map (·.stand.value.toInt)

variable (recordCount : Nat) (its : List (Iteration α β))

/-- A failed read changes neither `LiveStand` nor the picture, the pictures are those without the
failed reads, and the program ends with the last value that was read. -/
structure Unharmed : Prop where
  failed : ∀ past it LiveStand calls, past ++ [it] <+: its →
    LoopRuns recordCount past LiveStand calls → Checks it → LiveStand ≠ toInt32 recordCount →
    it.stand.success = false → (iteration recordCount LiveStand it).1 = LiveStand ∧
      pictures (iteration recordCount LiveStand it).2.1 = []
  pictures_eq : ∀ past LiveStand calls, past <+: its → LoopRuns recordCount past LiveStand calls →
    ∃ calls', LoopRuns recordCount (past.filter (·.stand.success)) LiveStand calls' ∧
      pictures calls' = pictures calls
  endOfProgram : ∀ past it LiveStand calls, past ++ [it] <+: its →
    LoopRuns recordCount past LiveStand calls → Checks it →
    ((iteration recordCount LiveStand it).2.2 = some .endOfProgram ↔
      lastRead past = some (recordCount : Int))

/-- The value of a failed read is the one before. -/
def Repeats : Prop :=
  ∀ past it LiveStand calls, past ++ [it] <+: its → LoopRuns recordCount past LiveStand calls →
    Checks it → LiveStand ≠ toInt32 recordCount → it.stand.success = false →
    it.stand.value.toInt = LiveStand

/-- The number of records is not taken for another one. -/
def Counts : Prop :=
  ∀ past it LiveStand calls, past ++ [it] <+: its → LoopRuns recordCount past LiveStand calls →
    Checks it → LiveStand = toInt32 recordCount → LiveStand = (recordCount : Int)

variable {recordCount its} {it : Iteration α β} {LiveStand : Int} {calls : List (Call β)}

section Iterations

theorem iteration_of_checks (h : Checks it) : iteration recordCount LiveStand it =
    if LiveStand = toInt32 recordCount then (LiveStand, [], some .endOfProgram)
    else if it.stand.value.toInt ≠ LiveStand then
      (it.stand.value.toInt, standError it.stand ++ (showStand it it.stand.value.toInt).1,
        (showStand it it.stand.value.toInt).2)
    else (LiveStand, standError it.stand, none) := by
  obtain ⟨halive, habbruch⟩ := h
  simp only [iteration, halive, habbruch, Bool.not_true, Bool.false_eq_true, if_false]

theorem checks_of_continues (h : (iteration recordCount LiveStand it).2.2 = none) :
    Checks it ∧ LiveStand ≠ toInt32 recordCount := by
  simp only [iteration] at h
  split at h
  · cases h
  split at h
  · cases h
  split at h
  · cases h
  · rename_i halive habbruch hcount
    exact ⟨⟨by simpa using halive, habbruch⟩, hcount⟩

theorem iteration_fst (h : Checks it) (hcount : LiveStand ≠ toInt32 recordCount) :
    (iteration recordCount LiveStand it).1 = it.stand.value.toInt := by
  rw [iteration_of_checks h, if_neg hcount]
  split
  · rfl
  · rename_i hsame
    exact (not_not.mp hsame).symm

theorem pictures_standError (stand : Reading Int16) :
    pictures (standError stand : List (Call β)) = [] := by
  rw [standError]
  split <;> rfl

theorem pictures_of_same (h : Checks it) (hcount : LiveStand ≠ toInt32 recordCount)
    (hsame : it.stand.value.toInt = LiveStand) :
    pictures (iteration recordCount LiveStand it).2.1 = [] := by
  rw [iteration_of_checks h, if_neg hcount, if_neg (not_not.mpr hsame)]
  exact pictures_standError it.stand

theorem showStand_ending (it : Iteration α β) (LiveStand : Int) :
    (showStand it LiveStand).2 ≠ some .endOfProgram := by
  rw [showStand]
  cases it.renderPreview { it.params with currentRecord := LiveStand } with
  | error e => simp [caught]
  | ok rendered =>
    obtain ⟨liveImg, liveStatusCode⟩ := rendered
    by_cases hstatus : liveStatusCode = 0
    · cases hencode : it.encode liveImg <;> simp [hstatus, hencode, caught]
    · simp [hstatus]

theorem endOfProgram_iff (h : Checks it) :
    (iteration recordCount LiveStand it).2.2 = some .endOfProgram ↔
      LiveStand = toInt32 recordCount := by
  rw [iteration_of_checks h]
  by_cases hcount : LiveStand = toInt32 recordCount
  · rw [if_pos hcount]
    exact iff_of_true rfl hcount
  · rw [if_neg hcount]
    apply iff_of_false _ hcount
    split
    · exact showStand_ending it _
    · exact nofun

end Iterations

section Runs

variable {past : List (Iteration α β)}

theorem lastRead_concat_success (past : List (Iteration α β)) (h : it.stand.success = true) :
    lastRead (past ++ [it]) = some it.stand.value.toInt := by
  simp [lastRead, List.filter_append, h]

theorem lastRead_concat_failed (past : List (Iteration α β)) (h : it.stand.success = false) :
    lastRead (past ++ [it]) = lastRead past := by
  simp [lastRead, List.filter_append, h]

theorem Repeats.mono (h : Repeats recordCount its) (hpre : past <+: its) :
    Repeats recordCount past :=
  fun past' it LiveStand calls hpast => h past' it LiveStand calls (hpast.trans hpre)

theorem liveStand_eq_lastRead (hruns : LoopRuns recordCount its LiveStand calls)
    (h : ∀ past it LiveStand calls, past ++ [it] <+: its →
      LoopRuns recordCount past LiveStand calls → Checks it → LiveStand ≠ toInt32 recordCount →
      it.stand.success = false → LiveStand = (lastRead past).getD (-1) →
      it.stand.value.toInt = LiveStand) :
    LiveStand = (lastRead its).getD (-1) := by
  apply hruns.invariant (P := fun its LiveStand => LiveStand = (lastRead its).getD (-1)) rfl
  intro past it LiveStand calls hpast hruns hcontinues hlast
  obtain ⟨hchecks, hcount⟩ := checks_of_continues hcontinues
  rw [iteration_fst hchecks hcount]
  cases hstand : it.stand.success with
  | true => rw [lastRead_concat_success past hstand, Option.getD_some]
  | false =>
    rw [lastRead_concat_failed past hstand, ← hlast]
    exact h past it LiveStand calls hpast hruns hchecks hcount hstand hlast

theorem Repeats.liveStand_eq (h : Repeats recordCount its)
    (hruns : LoopRuns recordCount its LiveStand calls) :
    LiveStand = (lastRead its).getD (-1) :=
  liveStand_eq_lastRead hruns fun past it LiveStand calls hpast hruns hchecks hcount hfailed _ =>
    h past it LiveStand calls hpast hruns hchecks hcount hfailed

/-- The failed reads can be left out. -/
theorem runs_without_failed (h : Repeats recordCount its)
    (hruns : LoopRuns recordCount its LiveStand calls) :
    ∃ calls', LoopRuns recordCount (its.filter (·.stand.success)) LiveStand calls' ∧
      pictures calls' = pictures calls := by
  apply hruns.filter
  intro past it LiveStand calls hpast hruns hcontinues hfailed
  obtain ⟨hchecks, hcount⟩ := checks_of_continues hcontinues
  have hsame := h past it LiveStand calls hpast hruns hchecks hcount hfailed
  constructor
  · rw [iteration_fst hchecks hcount, hsame]
  · exact pictures_of_same hchecks hcount hsame

theorem lastRead_lt {x : Int} (h : lastRead its = some x) : x < 2 ^ 15 := by
  obtain ⟨it, -, rfl⟩ := Option.map_eq_some_iff.mp h
  exact it.stand.value.toInt_lt

/-- A run of the loop is unharmed by failed reads exactly if each of them repeats the old value,
and the number of records is read as it is. -/
theorem unharmed_iff (recordCount : Nat) (its : List (Iteration α β)) :
    Unharmed recordCount its ↔ Repeats recordCount its ∧ Counts recordCount its := by
  constructor
  · intro h
    have hrepeats : Repeats recordCount its := by
      intro past it LiveStand calls hpast hruns hchecks hcount hfailed
      obtain ⟨hsame, -⟩ := h.failed past it LiveStand calls hpast hruns hchecks hcount hfailed
      rwa [iteration_fst hchecks hcount] at hsame
    refine ⟨hrepeats, ?_⟩
    intro past it LiveStand calls hpast hruns hchecks hcount
    have hlast := (h.endOfProgram past it LiveStand calls hpast hruns hchecks).mp
      ((endOfProgram_iff hchecks).mpr hcount)
    have hpre : past <+: its := (List.prefix_append past [it]).trans hpast
    rw [(hrepeats.mono hpre).liveStand_eq hruns, hlast, Option.getD_some]
  · rintro ⟨hrepeats, hcounts⟩
    refine ⟨?_, ?_, ?_⟩
    · intro past it LiveStand calls hpast hruns hchecks hcount hfailed
      have hsame := hrepeats past it LiveStand calls hpast hruns hchecks hcount hfailed
      exact ⟨(iteration_fst hchecks hcount).trans hsame, pictures_of_same hchecks hcount hsame⟩
    · intro past LiveStand calls hpast hruns
      exact runs_without_failed (hrepeats.mono hpast) hruns
    · intro past it LiveStand calls hpast hruns hchecks
      have hpre : past <+: its := (List.prefix_append past [it]).trans hpast
      have hstand := (hrepeats.mono hpre).liveStand_eq hruns
      rw [endOfProgram_iff hchecks]
      constructor
      · intro hcount
        have hnumber := hcounts past it LiveStand calls hpast hruns hchecks hcount
        cases hlast : lastRead past with
        | none =>
          rw [hlast, Option.getD_none] at hstand
          omega
        | some x =>
          rw [hlast, Option.getD_some] at hstand
          rw [← hstand, hnumber]
      · intro hlast
        have hlt := lastRead_lt hlast
        rw [(toInt32_eq_iff recordCount).mpr (by omega), hstand, hlast, Option.getD_some]

theorem repeats_iff (hvalue : ∀ it ∈ its, it.stand.success = false → it.stand.value.toInt = -1) :
    Repeats recordCount its ↔ ∀ past it LiveStand calls, past ++ [it] <+: its →
      LoopRuns recordCount past LiveStand calls → Checks it → LiveStand ≠ toInt32 recordCount →
      it.stand.success = false → (lastRead past).getD (-1) = -1 := by
  have hmem : ∀ past it, past ++ [it] <+: its → it ∈ its :=
    fun past it hpast => hpast.subset (List.mem_append_right past (List.mem_singleton_self it))
  constructor
  · intro h past it LiveStand calls hpast hruns hchecks hcount hfailed
    have hpre : past <+: its := (List.prefix_append past [it]).trans hpast
    rw [← (h.mono hpre).liveStand_eq hruns,
      ← h past it LiveStand calls hpast hruns hchecks hcount hfailed]
    exact hvalue it (hmem past it hpast) hfailed
  · intro h past it LiveStand calls hpast hruns hchecks hcount hfailed
    have hpre : past <+: its := (List.prefix_append past [it]).trans hpast
    have hstand : LiveStand = (lastRead past).getD (-1) := by
      apply liveStand_eq_lastRead hruns
      intro past' it' LiveStand' calls' hpast' hruns' hchecks' hcount' hfailed' hlast
      have hpast' := hpast'.trans hpre
      rw [hlast, h past' it' LiveStand' calls' hpast' hruns' hchecks' hcount' hfailed']
      exact hvalue it' (hmem past' it' hpast') hfailed'
    rw [hstand, h past it LiveStand calls hpast hruns hchecks hcount hfailed]
    exact hvalue it (hmem past it hpast) hfailed

def standardParams : RenderParams where
  imageSizeX := 2000
  imageSizeY := 4000
  colorG0 := ⟨255, 255, 255⟩
  colorG1 := ⟨0, 255, 0⟩
  colorG2 := ⟨0, 0, 255⟩
  colorG3 := ⟨255, 0, 0⟩
  liveColor := ⟨0, 255, 255⟩
  doneColor := ⟨90, 90, 90⟩
  liveThickness := 3
  doneThickness := 0
  thicknessG0 := 1
  thicknessG1 := 2
  thicknessG2 := 3
  thicknessG3 := 4
  horizontalOffset := 0
  verticalOffset := 0
  minArcRadius := 0

def standIs (stand : Reading Int16) : Iteration Int Int where
  stand := stand
  params := standardParams
  renderPreview params := .ok (params.currentRecord, 0)
  encode liveImg := .ok (some liveImg)

theorem not_unharmed_failedRead : ¬∀ (recordCount : Nat) (its : List (Iteration Int Int)),
    Unharmed recordCount its := by
  intro h
  have hruns : LoopRuns 10 [standIs ⟨5, true, 0⟩] 5 [.setImage 5] := Runs.start.step rfl
  obtain ⟨hsame, -⟩ := (h 10 [standIs ⟨5, true, 0⟩, standIs ⟨-1, false, 3⟩]).failed
    [standIs ⟨5, true, 0⟩] (standIs ⟨-1, false, 3⟩) 5 [.setImage 5] List.prefix_rfl hruns
    ⟨rfl, Bool.false_ne_true⟩ (by decide) rfl
  have hlost : (iteration 10 5 (standIs ⟨-1, false, 3⟩)).1 = -1 := rfl
  rw [hlost] at hsame
  exact absurd hsame (by decide)

end Runs

end Statement

end Datenbereitstellung.LiveImage
