import Mathlib.Data.List.Basic

namespace Datenbereitstellung.Lib.Requests

/-- What happens to request flags: a flag is set by whoever requests; its server sees it set and
clears it. -/
inductive Event (κ : Type) : Type
  | set (t : κ)
  | seen (t : κ)
  | clear (t : κ)
  deriving DecidableEq

variable {κ : Type} [DecidableEq κ]

/-- The flag was seen set and has not been cleared since. The newest event comes first. -/
def inHand (t : κ) : List (Event κ) → Bool
  | [] => false
  | .set _ :: log => inHand t log
  | .seen u :: log => if u = t then true else inHand t log
  | .clear u :: log => if u = t then false else inHand t log

/-- A flag that is seen set is cleared before it is looked at again, and no other flag is cleared. -/
def Disciplined : List (Event κ) → Prop
  | [] => True
  | .set _ :: log => Disciplined log
  | .seen t :: log => inHand t log = false ∧ Disciplined log
  | .clear t :: log => inHand t log = true ∧ Disciplined log

def Served (t : κ) (log : List (Event κ)) : Prop :=
  ∀ later between earlier, log = later ++ .clear t :: (between ++ .set t :: earlier) →
    .clear t ∉ between → .seen t ∈ between

/-- A request that comes while the flag is in hand is never cleared. -/
def Spared (t : κ) (log : List (Event κ)) : Prop :=
  ∀ later earlier, log = later ++ .set t :: earlier → inHand t earlier = true → .clear t ∉ later

variable {t : κ} {a b log : List (Event κ)}

theorem inHand_append (hseen : .seen t ∉ a) (hclear : .clear t ∉ a) :
    inHand t (a ++ b) = inHand t b := by
  induction a with
  | nil => rfl
  | cons e a ih =>
    rw [List.mem_cons, not_or] at hseen hclear
    have htail := ih hseen.2 hclear.2
    cases e with
    | set u => exact htail
    | seen u =>
      have hne : u ≠ t := fun h => hseen.1 (by rw [h])
      rw [List.cons_append, inHand, if_neg hne, htail]
    | clear u =>
      have hne : u ≠ t := fun h => hclear.1 (by rw [h])
      rw [List.cons_append, inHand, if_neg hne, htail]

theorem Disciplined.tail {e : Event κ} (h : Disciplined (e :: log)) : Disciplined log := by
  cases e with
  | set u => exact h
  | seen u => exact h.2
  | clear u => exact h.2

theorem Disciplined.suffix (h : Disciplined (a ++ b)) : Disciplined b := by
  induction a with
  | nil => exact h
  | cons e a ih => exact ih h.tail

theorem exists_last {α : Type} {x : α} {l : List α} (h : x ∈ l) :
    ∃ s r, l = s ++ x :: r ∧ x ∉ r := by
  obtain ⟨r, s, hl, hr⟩ := List.eq_append_cons_of_mem (List.mem_reverse.mpr h)
  refine ⟨s.reverse, r.reverse, ?_, by simpa using hr⟩
  rw [← List.reverse_reverse l, hl]
  simp

theorem Spared.served (h : Disciplined log) (hs : Spared t log) : Served t log := by
  intro later between earlier hlog hclear
  by_contra hseen
  have hlast : Disciplined (.clear t :: (between ++ .set t :: earlier)) := by
    rw [hlog] at h
    exact h.suffix
  have hhand : inHand t earlier = true := by
    have hstart := hlast.1
    rw [inHand_append hseen hclear] at hstart
    exact hstart
  refine hs (later ++ .clear t :: between) earlier ?_ hhand (by simp)
  rw [hlog]
  simp

theorem Served.spared (h : Disciplined log) (hs : Served t log) : Spared t log := by
  intro later earlier hlog hhand hclear
  obtain ⟨newer, between, rfl, hnone⟩ := exists_last hclear
  have hseen := hs newer between earlier (by rw [hlog]; simp) hnone
  obtain ⟨newer', between', rfl, hnone'⟩ := exists_last hseen
  have hfirst : Disciplined (.seen t :: (between' ++ .set t :: earlier)) := by
    have hd : log = (newer ++ .clear t :: newer') ++ .seen t :: (between' ++ .set t :: earlier) := by
      rw [hlog]
      simp
    rw [hd] at h
    exact h.suffix
  have hidle : inHand t earlier = false := by
    have hstart := hfirst.1
    rw [inHand_append hnone' (fun hm => hnone (by simp [hm]))] at hstart
    exact hstart
  rw [hhand] at hidle
  exact Bool.noConfusion hidle

/-- A server loses exactly the requests that come while it has the flag in hand. -/
theorem served_iff_spared (h : Disciplined log) : Served t log ↔ Spared t log :=
  ⟨fun hs => hs.spared h, fun hs => hs.served h⟩

end Datenbereitstellung.Lib.Requests
