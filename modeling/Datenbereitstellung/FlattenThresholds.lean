import Datenbereitstellung.FlattenAgreement
import Datenbereitstellung.Lib.Thresholds

namespace Datenbereitstellung.FlattenThresholds

open Strings GCodeParser ArcFlatten FlattenAgreement Lib.Words Lib.Thresholds

theorem not_isOffset_rewriteWords (ts : List Text) :
    ∀ u ∈ rewriteWords ts, isOffset u = false := by
  induction ts using rewriteWords.induct with
  | case1 => simp [rewriteWords]
  | case2 t rest hw ih =>
    rw [rewriteWords_last hw]
    exact List.forall_mem_cons.mpr ⟨by decide, ih⟩
  | case3 t ho hl u rest hw ih =>
    rw [rewriteWords_letter hw ho hl]
    exact ih
  | case4 t ho hl hw =>
    rw [rewriteWords_letter hw ho hl]
    simp [rewriteWords]
  | case5 t rest hw ho hl ih =>
    rw [rewriteWords_offset hw ho hl]
    exact ih
  | case6 t rest hw ho ih =>
    rw [rewriteWords_keep hw ho]
    exact List.forall_mem_cons.mpr ⟨by simpa using ho, ih⟩

theorem scanLoopWith_offsets (f : Text → Rat) {ts : List Text} (h : ∀ u ∈ ts, isOffset u = false)
    (k : Int) (s : ArcScan) :
    (scanLoopWith f ts k s).I = s.I ∧ (scanLoopWith f ts k s).J = s.J := by
  induction ts generalizing k s with
  | nil => exact ⟨rfl, rfl⟩
  | cons t ts ih =>
    obtain ⟨ht, hts⟩ := List.forall_mem_cons.mp h
    have hl : letterOf t ≠ some .I ∧ letterOf t ≠ some .J := by
      simpa [isOffset] using ht
    simp only [scanLoopWith, hl.1, hl.2, if_false]
    split_ifs
    · exact ih hts (k + 1) _
    all_goals exact ih hts (k + 1) s

theorem shouldFlatten_mono {r t t' : Rat} (ht : t ≤ t') (h : shouldFlatten r t = true) :
    shouldFlatten r t' = true := by
  simp only [shouldFlatten, Bool.and_eq_true, decide_eq_true_eq] at h ⊢
  obtain ⟨⟨hpos, hr⟩, hlt⟩ := h
  exact ⟨⟨lt_of_lt_of_le hpos ht, hr⟩,
    lt_of_lt_of_le hlt (mul_le_mul ht ht hpos.le (hpos.le.trans ht))⟩

section AnyStod

variable (stod : Text → Option Rat)

/-- The line has an arc word, and the radius that is read from its tokens is small enough. -/
def Rewritable (l : Text) (t : Rat) : Prop :=
  let s := scanLoopWith (fun v => (stod (replaceComma v)).getD 0) (tokens l) 0 {}
  (tokens l).any isArcWord = true ∧ shouldFlatten (radiusSq s.I s.J) t = true

instance (l : Text) (t : Rat) : Decidable (Rewritable stod l t) :=
  inferInstanceAs (Decidable (_ ∧ _))

def rewritten (l : Text) : Text := (rewriteWords (tokens l)).foldl (appendWord ' ') []

theorem tokens_rewritten (l : Text) : tokens (rewritten l) = rewriteWords (tokens l) := by
  have hw : ∀ w ∈ rewriteWords (tokens l), IsWord isspace w :=
    isWord_rewriteWords fun w hw => isWord_tokens hw
  rw [rewritten, tokens, words_foldl_appendWord rfl _ hw, words_nil, List.nil_append]

theorem not_rewritable_rewritten (l : Text) (t : Rat) : ¬Rewritable stod (rewritten l) t := by
  rintro ⟨-, h⟩
  obtain ⟨hI, hJ⟩ := scanLoopWith_offsets (fun v => (stod (replaceComma v)).getD 0)
    (not_isOffset_rewriteWords (tokens l)) 0 {}
  rw [tokens_rewritten, hI, hJ] at h
  simp [shouldFlatten, radiusSq] at h

theorem flattenArcLineWith_eq (l : Text) (t : Rat) :
    flattenArcLineWith stod l t = rewriteBelow (Rewritable stod) rewritten l t := by
  have hloop := rebuildLoop_eq (tokens l) 0 (-1) (by decide) []
  simp only [flattenArcLineWith, scanLoopWith_gIdx, scanLoopWith_isArc, Bool.false_or, hloop]
  by_cases h : Rewritable stod l t
  · have ht : ¬t ≤ 0 := by
      have := h.2
      simp only [shouldFlatten, Bool.and_eq_true, decide_eq_true_eq] at this
      exact not_le.mpr this.1.1
    have hne : (tokens l).isEmpty = false := by
      obtain ⟨w, hw, -⟩ := List.any_eq_true.mp h.1
      simpa using List.ne_nil_of_mem hw
    rw [rewriteBelow, if_pos h, if_neg ht, hne, h.1, h.2]
    rfl
  · rw [rewriteBelow, if_neg h]
    split_ifs with _ _ ha hs
    any_goals rfl
    exact absurd ⟨by simpa using ha, by simpa using hs⟩ h

/-- Flattening twice is flattening once with the greater threshold, whatever `std::stod` reads. -/
theorem flattenArcLineWith_flattenArcLineWith (l : Text) (t t' : Rat) :
    flattenArcLineWith stod (flattenArcLineWith stod l t) t' =
        flattenArcLineWith stod l (max t t') ∧
      flattenArcLineWith stod (flattenArcLineWith stod l t) t = flattenArcLineWith stod l t ∧
      flattenArcLineWith stod (flattenArcLineWith stod l t) t' =
        flattenArcLineWith stod (flattenArcLineWith stod l t') t ∧
      (flattenArcLineWith stod l t ≠ l →
        flattenArcLineWith stod (flattenArcLineWith stod l t) t' =
          flattenArcLineWith stod l t) := by
  have hdone : ∀ l t t', Rewritable stod l t → ¬Rewritable stod (rewritten l) t' :=
    fun l _ t' _ => not_rewritable_rewritten stod l t'
  have hmono : ∀ l t t', t ≤ t' → Rewritable stod l t → Rewritable stod l t' :=
    fun _ _ _ ht h => ⟨h.1, shouldFlatten_mono ht h.2⟩
  have hcomp := rewriteBelow_rewriteBelow hmono hdone
  simp only [flattenArcLineWith_eq]
  refine ⟨hcomp l t t', ?_, ?_, ?_⟩
  · rw [hcomp, max_self]
  · rw [hcomp, hcomp, max_comm]
  · intro hne
    have hr : Rewritable stod l t := by
      by_contra hr
      exact hne (if_neg hr)
    exact rewriteBelow_done hdone hr t'

end AnyStod

end Datenbereitstellung.FlattenThresholds
