import Mathlib.Data.List.Basic

namespace Datenbereitstellung.Lib.Machines

variable {σ ι ω β ε : Type}

/-- An input leads to the next state, with outputs, and with an ending if it is the last one. -/
abbrev Step (σ ι ω ε : Type) := σ → ι → σ × List ω × Option ε

/-- The inputs lead from the start to the state, with the outputs, and none of them ends the run. -/
inductive Runs (step : Step σ ι ω ε) (start : σ) : List ι → σ → List ω → Prop
  | start : Runs step start [] start []
  | step {is : List ι} {i : ι} {s s' : σ} {out out' : List ω} (h : Runs step start is s out)
      (hstep : step s i = (s', out', none)) : Runs step start (is ++ [i]) s' (out ++ out')

variable {step : Step σ ι ω ε} {start s : σ} {is : List ι} {out : List ω}

/-- What every step of the run preserves holds at its end. -/
theorem Runs.invariant {P : List ι → σ → Prop} (h : Runs step start is s out)
    (hstart : P [] start) (hstep : ∀ is' i s' out', is' ++ [i] <+: is →
      Runs step start is' s' out' → (step s' i).2.2 = none → P is' s' →
        P (is' ++ [i]) (step s' i).1) : P is s := by
  induction h with
  | start => exact hstart
  | step h hlast ih =>
    rename_i is i s s' out out'
    have hP := ih fun is' j s' out' hpre =>
      hstep is' j s' out' (hpre.trans (List.prefix_append is [i]))
    have hnext := hstep is i s out List.prefix_rfl h (by rw [hlast]) hP
    rwa [hlast] at hnext

theorem Runs.filter {keep : ι → Bool} {seen : ω → Option β} (h : Runs step start is s out)
    (hskip : ∀ is' i s' out', is' ++ [i] <+: is → Runs step start is' s' out' →
      (step s' i).2.2 = none → keep i = false →
        (step s' i).1 = s' ∧ (step s' i).2.1.filterMap seen = []) :
    ∃ out', Runs step start (is.filter keep) s out' ∧ out'.filterMap seen = out.filterMap seen := by
  induction h with
  | start => exact ⟨[], .start, rfl⟩
  | step h hstep ih =>
    rename_i is i s s' out out'
    obtain ⟨kept, hruns, hseen⟩ := ih fun is' j s' out' hpre =>
      hskip is' j s' out' (hpre.trans (List.prefix_append is [i]))
    rw [List.filter_append, List.filter_singleton]
    cases hkeep : keep i with
    | true =>
      refine ⟨kept ++ out', hruns.step hstep, ?_⟩
      rw [List.filterMap_append, List.filterMap_append, hseen]
    | false =>
      obtain ⟨hsame, hnone⟩ := hskip is i s out List.prefix_rfl h (by rw [hstep]) hkeep
      rw [hstep] at hsame hnone
      subst hsame
      refine ⟨kept, ?_, ?_⟩
      · simpa using hruns
      · rw [List.filterMap_append, hnone, List.append_nil, hseen]

end Datenbereitstellung.Lib.Machines
