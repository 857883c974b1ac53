import Mathlib.Tactic.Ring
import Datenbereitstellung.Strings

namespace Datenbereitstellung.ProjectFileReader

open Strings

/-- The loop of `countRecords` over the lines still to be read. -/
def countLoop : List Text → (firstLine : Bool) → (count : Nat) → Nat
  | [], _, count => count
  | line :: rest, firstLine, count =>
    if firstLine then countLoop rest false count
    else if onlySpace line then countLoop rest false count
    else countLoop rest false (count + 1)

def countRecords (content : Text) : Nat := countLoop (getlines content) true 0

/-- The loop of `readDataBlock` over the lines still to be read. The indices are those of the
source's `int` arithmetic as long as that does not overflow. -/
def readLoop (blockIndex blockSize : Int) :
    List Text → (firstLine : Bool) → (rowCount : Int) → (block : List Text) → List Text
  | [], _, _, block => block
  | line :: rest, firstLine, rowCount, block =>
    let line := stripEnd line
    if firstLine then readLoop blockIndex blockSize rest false rowCount block
    else if onlySpace line then readLoop blockIndex blockSize rest false rowCount block
    else
      let block :=
        if rowCount ≥ blockIndex * blockSize ∧ rowCount < (blockIndex + 1) * blockSize
        then block ++ [line] else block
      let rowCount := rowCount + 1
      if rowCount ≥ (blockIndex + 1) * blockSize then block
      else readLoop blockIndex blockSize rest false rowCount block

def readDataBlock (content : Text) (blockIndex blockSize : Int) : List Text :=
  readLoop blockIndex blockSize (getlines content) true 0 []

section Records

/-- The lines that carry data, as they are sent. -/
def dataLines (ls : List Text) : List Text := (ls.map stripEnd).filter (fun l => !onlySpace l)

/-- What a project file is to be transferred as: the first line is a header. -/
def records (content : Text) : List Text := dataLines (getlines content).tail

theorem dataLines_cons_blank {l : Text} (h : onlySpace l = true) (ls : List Text) :
    dataLines (l :: ls) = dataLines ls := by
  simp [dataLines, h]

theorem dataLines_cons_data {l : Text} (h : onlySpace l = false) (ls : List Text) :
    dataLines (l :: ls) = stripEnd l :: dataLines ls := by
  simp [dataLines, h]

theorem countLoop_eq (ls : List Text) (count : Nat) :
    countLoop ls false count = count + (dataLines ls).length := by
  induction ls generalizing count with
  | nil => simp [countLoop, dataLines]
  | cons l ls ih =>
    cases hl : onlySpace l with
    | true => simp [countLoop, hl, ih, dataLines_cons_blank hl]
    | false =>
      simp only [countLoop, hl, ih, dataLines_cons_data hl, Bool.false_eq_true, if_false,
        List.length_cons]
      omega

theorem countRecords_eq (content : Text) : countRecords content = (records content).length := by
  rw [countRecords, records]
  cases getlines content with
  | nil => rfl
  | cons l ls => simp [countLoop, countLoop_eq]

theorem readLoop_data (k B : Int) {l : Text} (hl : onlySpace l = false) (ls : List Text) (row : Int)
    (block : List Text) :
    readLoop k B (l :: ls) false row block =
      let block' := if row ≥ k * B ∧ row < (k + 1) * B then block ++ [stripEnd l] else block
      if row + 1 ≥ (k + 1) * B then block' else readLoop k B ls false (row + 1) block' := by
  simp [readLoop, hl]

/-- The loop adds the data lines whose numbers lie in the window, and stops behind it. -/
theorem readLoop_eq (k B : Nat) (hB : 1 ≤ B) (ls : List Text) (row : Nat)
    (hrow : row < (k + 1) * B) (block : List Text) :
    readLoop k B ls false row block =
      block ++ ((dataLines ls).take ((k + 1) * B - row)).drop (k * B - row) := by
  have hlo : (k : Int) * B = ((k * B : Nat) : Int) := by push_cast; rfl
  have hhi : ((k : Int) + 1) * B = (((k + 1) * B : Nat) : Int) := by push_cast; rfl
  have hsucc : (k + 1) * B = k * B + B := Nat.succ_mul k B
  induction ls generalizing row block with
  | nil => simp [readLoop, dataLines]
  | cons l ls ih =>
    cases hl : onlySpace l with
    | true => simp [readLoop, hl, ih row hrow, dataLines_cons_blank hl]
    | false =>
      obtain ⟨d, hd⟩ : ∃ d, (k + 1) * B - row = d + 1 := ⟨(k + 1) * B - row - 1, by omega⟩
      have hd' : (k + 1) * B - (row + 1) = d := by omega
      have hnext := ih (row + 1)
      rw [hd'] at hnext
      push_cast at hnext
      rw [dataLines_cons_data hl, readLoop_data k B hl, hd, List.take_succ_cons, hlo, hhi]
      by_cases hin : k * B ≤ row
      · have hwin : (row : Int) ≥ ((k * B : Nat) : Int) ∧ (row : Int) < (((k + 1) * B : Nat) : Int) :=
          ⟨by omega, by omega⟩
        have hz : k * B - row = 0 := by omega
        have hz' : k * B - (row + 1) = 0 := by omega
        simp only [hwin, and_self, if_true, hz, List.drop_zero]
        by_cases hend : row + 1 ≥ (k + 1) * B
        · have hd0 : d = 0 := by omega
          rw [if_pos (by omega), hd0, List.take_zero]
        · rw [if_neg (by omega), hnext (by omega), hz', List.drop_zero, List.append_assoc,
            List.singleton_append]
      · obtain ⟨e, he⟩ : ∃ e, k * B - row = e + 1 := ⟨k * B - row - 1, by omega⟩
        have he' : k * B - (row + 1) = e := by omega
        have hout : ¬((row : Int) ≥ ((k * B : Nat) : Int) ∧
            (row : Int) < (((k + 1) * B : Nat) : Int)) := by omega
        simp only [hout, if_false]
        rw [if_neg (by omega), hnext (by omega), he, he', List.drop_succ_cons]

theorem readDataBlock_eq (content : Text) (k B : Nat) (hB : 1 ≤ B) :
    readDataBlock content k B = ((records content).drop (k * B)).take B := by
  have hpos : 0 < (k + 1) * B := Nat.mul_pos (Nat.succ_pos k) hB
  have hw : (k + 1) * B - k * B = B := by rw [Nat.succ_mul]; omega
  rw [readDataBlock, records]
  cases getlines content with
  | nil => simp [readLoop, dataLines]
  | cons l ls =>
    have h := readLoop_eq k B hB ls 0 hpos []
    simp only [Nat.cast_zero, Nat.sub_zero, List.nil_append] at h
    simp only [readLoop, if_true, List.tail_cons]
    rw [h, List.drop_take, hw]

theorem flatMap_readDataBlock (content : Text) (B : Nat) (hB : 1 ≤ B) (m : Nat) :
    (List.range m).flatMap (fun k => readDataBlock content (k : Nat) B) =
      (records content).take (m * B) := by
  induction m with
  | zero => simp
  | succ m ih =>
    rw [List.range_succ, List.flatMap_append, ih, List.flatMap_singleton,
      readDataBlock_eq content m B hB, ← List.take_add, Nat.succ_mul]

theorem length_readDataBlock_le (content : Text) (k B : Nat) (hB : 1 ≤ B) :
    (readDataBlock content k B).length ≤ B := by
  rw [readDataBlock_eq content k B hB]
  exact List.length_take_le _ _

end Records

end Datenbereitstellung.ProjectFileReader
