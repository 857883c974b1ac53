import Mathlib.Algebra.Order.Round
import Mathlib.Analysis.SpecialFunctions.Trigonometric.Basic

namespace Datenbereitstellung.Lib.Samples

open Real

theorem cos_le_cos_of_abs_le {x y : ℝ} (h : |y| ≤ |x|) (hx : |x| ≤ π) : cos x ≤ cos y := by
  rw [← cos_abs x, ← cos_abs y]
  exact cos_le_cos_of_nonneg_of_le_pi (abs_nonneg y) hx h

theorem exists_turns (x : ℝ) : ∃ k : ℤ, |x - k * (2 * π)| ≤ π := by
  have hturn : 0 < 2 * π := Real.two_pi_pos
  refine ⟨round (x / (2 * π)), ?_⟩
  have h := abs_sub_round (x / (2 * π))
  have hx : x - round (x / (2 * π)) * (2 * π) = (x / (2 * π) - round (x / (2 * π))) * (2 * π) := by
    field_simp
  rw [hx, abs_mul, abs_of_pos hturn]
  linarith [mul_le_mul_of_nonneg_right h hturn.le]

variable {a : ℝ} (x : ℝ) {n : ℕ} {M : ℝ}

theorem cos_round {t : ℝ} {k : ℤ} (hk : x + a * t = k * (2 * π)) :
    cos (x + a * round t) = cos (a * (t - round t)) := by
  have h : x + a * round t = k * (2 * π) - a * (t - round t) := by
    rw [← hk]
    ring
  rw [h, cos_int_mul_two_pi_sub]

theorem round_mem {t : ℝ} (ht : t ∈ Set.Icc (0 : ℝ) n) : ∃ i ≤ n, round t = (i : ℤ) := by
  have hlo : 0 ≤ round t := by
    rw [round_eq, Int.floor_nonneg]
    linarith [ht.1]
  have hhi : round t ≤ n := by
    rw [round_eq, ← Int.lt_add_one_iff, Int.floor_lt]
    push_cast
    linarith [ht.2]
  obtain ⟨i, hi⟩ := Int.eq_ofNat_of_zero_le hlo
  exact ⟨i, by exact_mod_cast hi ▸ hhi, hi⟩

/-- Of samples at equal distances the cosine is greatest next to a full turn that they pass, or at an
end. -/
theorem cos_samples_le_iff (ha : a ≠ 0) :
    (∀ i ≤ n, cos (x + a * i) ≤ M) ↔ cos x ≤ M ∧ cos (x + a * n) ≤ M ∧
      ∀ t ∈ Set.Icc (0 : ℝ) n, (∃ k : ℤ, x + a * t = k * (2 * π)) →
        cos (a * (t - round t)) ≤ M := by
  constructor
  · intro h
    refine ⟨by simpa using h 0 n.zero_le, h n le_rfl, ?_⟩
    rintro t ht ⟨k, hk⟩
    obtain ⟨i, hi, hround⟩ := round_mem ht
    rw [← cos_round x hk, hround]
    exact h i hi
  · rintro ⟨hstart, hend, hpassed⟩ i hi
    obtain ⟨k, hk⟩ := exists_turns (x + a * i)
    -- `t` is where the next full turn lies, on the samples or beyond one of their ends
    obtain ⟨t, ht⟩ : ∃ t, x + a * t = k * (2 * π) := ⟨(k * (2 * π) - x) / a, by field_simp; ring⟩
    have hdist : ∀ s : ℝ, cos (x + a * s) = cos (a * (s - t)) := by
      intro s
      have hs : x + a * s = a * (s - t) + k * (2 * π) := by
        rw [← ht]
        ring
      rw [hs, cos_add_int_mul_two_pi]
    have hi' : |a * (i - t)| ≤ π := by
      have : a * (i - t) = x + a * i - k * (2 * π) := by
        rw [← ht]
        ring
      rwa [this]
    have hle : ∀ s : ℝ, |s - t| ≤ |(i : ℝ) - t| → cos (x + a * i) ≤ cos (x + a * s) := by
      intro s hs
      rw [hdist, hdist]
      apply cos_le_cos_of_abs_le _ hi'
      rw [abs_mul, abs_mul]
      exact mul_le_mul_of_nonneg_left hs (abs_nonneg a)
    have hin : (i : ℝ) ≤ n := by exact_mod_cast hi
    obtain hneg | hnonneg := lt_or_ge t 0
    · refine (hle 0 ?_).trans (by simpa using hstart)
      rw [abs_of_pos (by linarith), abs_of_pos (by linarith [i.cast_nonneg (α := ℝ)])]
      linarith [i.cast_nonneg (α := ℝ)]
    obtain hbeyond | hbefore := lt_or_ge (n : ℝ) t
    · refine (hle n ?_).trans hend
      rw [abs_of_neg (by linarith), abs_of_neg (by linarith)]
      linarith
    · have hround := round_le t i
      refine le_trans ?_ (hpassed t ⟨hnonneg, hbefore⟩ ⟨k, ht⟩)
      rw [← cos_round x ht]
      apply hle
      rw [abs_sub_comm _ t, abs_sub_comm _ t]
      exact_mod_cast hround

end Datenbereitstellung.Lib.Samples
