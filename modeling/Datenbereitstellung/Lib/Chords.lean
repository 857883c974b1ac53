import Mathlib

namespace Datenbereitstellung.Lib.Chords

open Real

theorem convexOn_cos_add_sq : ConvexOn ℝ Set.univ fun x : ℝ => cos x + x ^ 2 / 2 := by
  have hderiv : deriv (fun x : ℝ => cos x + x ^ 2 / 2) = fun x => x - sin x := by
    funext x
    have h := (hasDerivAt_cos x).add ((hasDerivAt_pow 2 x).div_const 2)
    apply (HasDerivAt.deriv h).trans
    push_cast
    ring
  apply convexOn_univ_of_deriv2_nonneg
  · fun_prop
  · rw [hderiv]
    fun_prop
  · intro x
    have h := (hasDerivAt_id x).sub (hasDerivAt_sin x)
    rw [Function.iterate_succ, Function.comp_apply, hderiv, Function.iterate_one]
    apply (sub_nonneg.mpr (cos_le_one x)).trans_eq
    exact (HasDerivAt.deriv h).symm

theorem cos_sub_chord_le (a δ : ℝ) {t : ℝ} (ht : t ∈ Set.Icc (0 : ℝ) 1) :
    cos (a + t * δ) - ((1 - t) * cos a + t * cos (a + δ)) ≤ δ ^ 2 / 8 := by
  have h := convexOn_cos_add_sq.2 (Set.mem_univ a) (Set.mem_univ (a + δ)) (sub_nonneg.mpr ht.2)
    ht.1 (sub_add_cancel 1 t)
  have hx : (1 - t) • a + t • (a + δ) = a + t * δ := by
    simp only [smul_eq_mul]
    ring
  rw [hx] at h
  simp only [smul_eq_mul] at h
  nlinarith [sq_nonneg (t - 1 / 2), sq_nonneg δ, mul_nonneg (sq_nonneg (t - 1 / 2)) (sq_nonneg δ)]

theorem re_exp_mul (φ θ : ℝ) :
    (Complex.exp (-φ * Complex.I) * Complex.exp (θ * Complex.I)).re = cos (θ - φ) := by
  rw [← Complex.exp_add, ← add_mul, ← Complex.ofReal_neg, ← Complex.ofReal_add,
    Complex.exp_ofReal_mul_I_re, neg_add_eq_sub]

theorem exists_turn (e : ℂ) : ∃ φ : ℝ, (‖e‖ : ℂ) = Complex.exp (-φ * Complex.I) * e := by
  refine ⟨e.arg, ?_⟩
  calc (‖e‖ : ℂ) = Complex.exp (-e.arg * Complex.I) * (‖e‖ * Complex.exp (e.arg * Complex.I)) := by
        rw [mul_left_comm, ← Complex.exp_add, neg_mul, neg_add_cancel, Complex.exp_zero, mul_one]
    _ = Complex.exp (-e.arg * Complex.I) * e := by rw [Complex.norm_mul_exp_arg_mul_I]

theorem norm_exp_sub_chord_le (a δ : ℝ) {t : ℝ} (ht : t ∈ Set.Icc (0 : ℝ) 1) :
    ‖Complex.exp ((a + t * δ : ℝ) * Complex.I) - AffineMap.lineMap (Complex.exp (a * Complex.I))
      (Complex.exp ((a + δ : ℝ) * Complex.I)) t‖ ≤ δ ^ 2 / 8 := by
  -- seen in the direction of the difference, both are cosines
  obtain ⟨φ, hφ⟩ := exists_turn (Complex.exp ((a + t * δ : ℝ) * Complex.I) -
    AffineMap.lineMap (Complex.exp (a * Complex.I)) (Complex.exp ((a + δ : ℝ) * Complex.I)) t)
  have h := congrArg Complex.re hφ
  rw [Complex.ofReal_re] at h
  rw [h, AffineMap.lineMap_apply_module, mul_sub, mul_add, mul_smul_comm, mul_smul_comm,
    Complex.sub_re, Complex.add_re, Complex.smul_re, Complex.smul_re, re_exp_mul, re_exp_mul,
    re_exp_mul, smul_eq_mul, smul_eq_mul]
  have hcos := cos_sub_chord_le (a - φ) δ ht
  rwa [← add_sub_right_comm, ← add_sub_right_comm] at hcos

/-- The same of any circle. -/
theorem norm_circleMap_sub_chord_le (c : ℂ) {r : ℝ} (hr : 0 ≤ r) (a δ : ℝ) {t : ℝ}
    (ht : t ∈ Set.Icc (0 : ℝ) 1) :
    ‖circleMap c r (a + t * δ) - AffineMap.lineMap (circleMap c r a) (circleMap c r (a + δ)) t‖ ≤
      r * δ ^ 2 / 8 := by
  have h : circleMap c r (a + t * δ) - AffineMap.lineMap (circleMap c r a) (circleMap c r (a + δ)) t =
      r * (Complex.exp ((a + t * δ : ℝ) * Complex.I) - AffineMap.lineMap
        (Complex.exp (a * Complex.I)) (Complex.exp ((a + δ : ℝ) * Complex.I)) t) := by
    simp only [circleMap, AffineMap.lineMap_apply_module, Complex.real_smul]
    push_cast
    ring
  rw [h, norm_mul, Complex.norm_real, Real.norm_of_nonneg hr, mul_div_assoc]
  exact mul_le_mul_of_nonneg_left (norm_exp_sub_chord_le a δ ht) hr

theorem norm_lineMap_sub_lineMap_le {p q p' q' : ℂ} {ε t : ℝ} (hp : ‖p - p'‖ ≤ ε)
    (hq : ‖q - q'‖ ≤ ε) (ht : t ∈ Set.Icc (0 : ℝ) 1) :
    ‖AffineMap.lineMap p q t - AffineMap.lineMap p' q' t‖ ≤ ε := by
  have h : AffineMap.lineMap p q t - AffineMap.lineMap p' q' t =
      (1 - t) • (p - p') + t • (q - q') := by
    simp only [AffineMap.lineMap_apply_module, smul_sub]
    ring
  rw [h]
  calc ‖(1 - t) • (p - p') + t • (q - q')‖ ≤ ‖(1 - t) • (p - p')‖ + ‖t • (q - q')‖ :=
        norm_add_le _ _
    _ = (1 - t) * ‖p - p'‖ + t * ‖q - q'‖ := by
        rw [norm_smul, norm_smul, Real.norm_of_nonneg (sub_nonneg.mpr ht.2),
          Real.norm_of_nonneg ht.1]
    _ ≤ (1 - t) * ε + t * ε := add_le_add (mul_le_mul_of_nonneg_left hp (sub_nonneg.mpr ht.2))
        (mul_le_mul_of_nonneg_left hq ht.1)
    _ = ε := by ring

end Datenbereitstellung.Lib.Chords
