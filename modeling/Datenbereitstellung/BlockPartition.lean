import Mathlib.Data.Rat.Floor
import Mathlib.Tactic.FieldSimp
import Mathlib.Tactic.Linarith
import Datenbereitstellung.ProjectFileReader

namespace Datenbereitstellung.BlockPartition

open Strings ProjectFileReader

section Ceil

/-- The number of blocks of `B` records that `N` records need. -/
def blocksFor (N B : Nat) : Nat := ⌈(N : ℚ) / B⌉₊

variable {N B : Nat}

theorem blocksFor_le_iff (hB : 1 ≤ B) (k : Nat) : blocksFor N B ≤ k ↔ N ≤ k * B := by
  have hpos : (0 : ℚ) < B := by exact_mod_cast hB
  rw [blocksFor, Nat.ceil_le, div_le_iff₀ hpos]
  exact_mod_cast Iff.rfl

theorem le_blocksFor_mul (hB : 1 ≤ B) : N ≤ blocksFor N B * B :=
  (blocksFor_le_iff hB _).mp le_rfl

theorem mul_lt_of_lt_blocksFor (hB : 1 ≤ B) {k : Nat} (hk : k < blocksFor N B) : k * B < N := by
  by_contra hN
  exact absurd ((blocksFor_le_iff hB k).mpr (Nat.le_of_not_lt hN)) (Nat.not_le_of_lt hk)

theorem blocksFor_pos (hB : 1 ≤ B) (hN : 1 ≤ N) : 1 ≤ blocksFor N B := by
  by_contra h
  have hz : N ≤ 0 * B := (blocksFor_le_iff hB 0).mp (by omega)
  omega

theorem succ_mul_lt (hB : 1 ≤ B) {k : Nat} (hk : k < blocksFor N B) : (k + 1) * B < N + B := by
  have h := mul_lt_of_lt_blocksFor hB hk
  rw [Nat.succ_mul]
  omega

end Ceil

section Blocks

variable {content : Text} {B k : Nat}

theorem records_eq_filter (content : Text) :
    records content = ((getlines content).tail.filter fun l => !onlySpace l).map stripEnd := by
  rw [records, dataLines, List.filter_map]
  congr 1
  apply List.filter_congr
  intro l _
  simp

theorem flatMap_blocks (hB : 1 ≤ B) :
    (List.range (blocksFor (countRecords content) B)).flatMap
      (fun k => readDataBlock content (k : Nat) B) = records content := by
  rw [flatMap_readDataBlock content B hB]
  apply List.take_of_length_le
  rw [← countRecords_eq]
  exact le_blocksFor_mul hB

theorem length_readDataBlock (hB : 1 ≤ B) :
    (readDataBlock content (k : Nat) B).length = min B (countRecords content - k * B) := by
  rw [readDataBlock_eq content k B hB, List.length_take, List.length_drop, countRecords_eq]

theorem readDataBlock_eq_nil (hB : 1 ≤ B) (hk : blocksFor (countRecords content) B ≤ k) :
    readDataBlock content (k : Nat) B = [] := by
  apply List.eq_nil_of_length_eq_zero
  have h := (blocksFor_le_iff hB k).mp hk
  rw [length_readDataBlock hB]
  omega

/-- Counting and reading agree: the blocks are the records of the file, each but the last one
full, the window of each block is computed without overflow, and behind them nothing is read. -/
theorem readDataBlock_partition (content : Text) (B : Nat) (hB : 1 ≤ B)
    (hfit : countRecords content + B < 2 ^ 31) :
    ((List.range (blocksFor (countRecords content) B)).flatMap
        (fun k => readDataBlock content (k : Nat) B) =
      ((getlines content).tail.filter fun l => !onlySpace l).map stripEnd) ∧
    (((getlines content).tail.filter fun l => !onlySpace l).map stripEnd).length =
      countRecords content ∧
    (∀ k, k + 1 < blocksFor (countRecords content) B →
      (readDataBlock content (k : Nat) B).length = B) ∧
    (∀ k, k + 1 = blocksFor (countRecords content) B →
      1 ≤ (readDataBlock content (k : Nat) B).length ∧
      (readDataBlock content (k : Nat) B).length ≤ B) ∧
    (1 ≤ countRecords content → 1 ≤ blocksFor (countRecords content) B) ∧
    (∀ k, k < blocksFor (countRecords content) B → (k + 1) * B < 2 ^ 31) ∧
    ∀ k, blocksFor (countRecords content) B ≤ k → (k + 1) * B < 2 ^ 31 →
      readDataBlock content (k : Nat) B = [] := by
  refine ⟨?_, ?_, ?_, ?_, blocksFor_pos hB, ?_, ?_⟩
  · rw [← records_eq_filter]
    exact flatMap_blocks hB
  · rw [← records_eq_filter, countRecords_eq]
  · intro k hk
    have hfull := mul_lt_of_lt_blocksFor hB hk
    rw [Nat.succ_mul] at hfull
    rw [length_readDataBlock hB]
    omega
  · intro k hk
    have hlt : k < blocksFor (countRecords content) B := by omega
    have hstart := mul_lt_of_lt_blocksFor hB hlt
    rw [length_readDataBlock hB]
    omega
  · intro k hk
    have hend := succ_mul_lt hB hk
    omega
  · intro k hk _
    exact readDataBlock_eq_nil hB hk

def threeRecords : Text := ['h', '\n', 'a', ' ', '\r', '\n', '\n', 'b', '\n', 'c']

theorem readDataBlock_threeRecords :
    readDataBlock threeRecords 0 2 ++ readDataBlock threeRecords 1 2 = [['a'], ['b'], ['c']] := by
  have h := (readDataBlock_partition threeRecords 2 (by decide) (by decide +kernel)).1
  have hn : blocksFor (countRecords threeRecords) 2 = 2 := by
    have hc : countRecords threeRecords = 3 := by decide +kernel
    rw [hc, blocksFor]
    norm_num [Nat.ceil_eq_iff]
  have hr : ((getlines threeRecords).tail.filter fun l => !onlySpace l).map stripEnd =
      [['a'], ['b'], ['c']] := by decide +kernel
  rw [hn, hr] at h
  simpa [List.range_succ] using h

end Blocks

end Datenbereitstellung.BlockPartition
