import Mathlib.Order.MinMax

namespace Datenbereitstellung.Lib.Thresholds

variable {α τ : Type}

def rewriteBelow (P : α → τ → Prop) [∀ x t, Decidable (P x t)] (g : α → α) (x : α) (t : τ) : α :=
  if P x t then g x else x

variable {P : α → τ → Prop} [∀ x t, Decidable (P x t)] {g : α → α}

theorem rewriteBelow_done (hdone : ∀ x t t', P x t → ¬P (g x) t') {x : α} {t : τ}
    (h : P x t) (t' : τ) :
    rewriteBelow P g (rewriteBelow P g x t) t' = rewriteBelow P g x t := by
  have hx : rewriteBelow P g x t = g x := if_pos h
  rw [hx, rewriteBelow, if_neg (hdone x t t' h)]

theorem rewriteBelow_rewriteBelow [LinearOrder τ] (hmono : ∀ x t t', t ≤ t' → P x t → P x t')
    (hdone : ∀ x t t', P x t → ¬P (g x) t') (x : α) (t t' : τ) :
    rewriteBelow P g (rewriteBelow P g x t) t' = rewriteBelow P g x (max t t') := by
  by_cases h : P x t
  · rw [rewriteBelow_done hdone h, rewriteBelow, rewriteBelow, if_pos h,
      if_pos (hmono x t _ (le_max_left t t') h)]
  · have hx : rewriteBelow P g x t = x := if_neg h
    obtain ht | ht := le_total t t'
    · rw [hx, max_eq_right ht]
    · have h' : ¬P x t' := fun hp => h (hmono x t' t ht hp)
      rw [hx, max_eq_left ht, hx, rewriteBelow, if_neg h']

end Datenbereitstellung.Lib.Thresholds
