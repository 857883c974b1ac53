import Mathlib.Logic.Function.Basic
import Mathlib.Data.List.Basic

namespace Datenbereitstellung.Lib.Windows

variable {κ α : Type} {n : Nat}

/-- `array[index] = x`; nothing is defined behind the end of the array. -/
def store (array : Fin n → α) (index : Nat) (x : α) : Option (Fin n → α) :=
  if h : index < n then some (Function.update array ⟨index, h⟩ x) else none

/-- The elements at the given places, up to the first place behind the end of the array. -/
def load (array : Fin n → α) : List Nat → List α
  | [] => []
  | index :: places => if h : index < n then array ⟨index, h⟩ :: load array places else []

section RowMajor

variable {dim1 dim2 r c r' c' : Nat}

theorem rowMajor_lt (hr : r < dim1) (hc : c < dim2) : r * dim2 + c < dim1 * dim2 :=
  calc r * dim2 + c < r * dim2 + dim2 := Nat.add_lt_add_left hc _
    _ = (r + 1) * dim2 := (Nat.succ_mul r dim2).symm
    _ ≤ dim1 * dim2 := Nat.mul_le_mul_right dim2 hr

theorem rowMajor_inj (hc : c < dim2) (hc' : c' < dim2)
    (h : r * dim2 + c = r' * dim2 + c') : r = r' ∧ c = c' := by
  have hpos : 0 < dim2 := Nat.zero_lt_of_lt hc
  have hdiv := congrArg (· / dim2) h
  have hmod := congrArg (· % dim2) h
  simp only [Nat.mul_comm _ dim2, Nat.mul_add_div hpos, Nat.div_eq_of_lt hc,
    Nat.div_eq_of_lt hc', Nat.add_zero, Nat.mul_add_mod, Nat.mod_eq_of_lt hc,
    Nat.mod_eq_of_lt hc'] at hdiv hmod
  exact ⟨hdiv, hmod⟩

end RowMajor

section Loops

theorem foldlM_flatMap {m : Type → Type} [Monad m] [LawfulMonad m] {ι σ : Type} (f : σ → κ → m σ)
    (cells : ι → List κ) (is : List ι) (s : σ) :
    is.foldlM (fun s i => (cells i).foldlM f s) s = (is.flatMap cells).foldlM f s := by
  induction is generalizing s with
  | nil => rfl
  | cons i is ih =>
    rw [List.flatMap_cons, List.foldlM_append, List.foldlM_cons]
    apply congrArg
    funext s'
    exact ih s'

variable {key : κ → Nat} {elem : κ → Option α}

/-- After stores to different places each place has what was stored there, and every other place
what it had before. -/
theorem foldlM_store {cells : List κ} (hkey : ∀ p ∈ cells, key p < n)
    (helem : ∀ p ∈ cells, ∃ x, elem p = some x)
    (hinj : ∀ p ∈ cells, ∀ q ∈ cells, key p = key q → p = q) (array : Fin n → α) :
    ∃ array', cells.foldlM (fun array p => elem p >>= store array (key p)) array = some array' ∧
      (∀ p ∈ cells, ∀ x, elem p = some x → ∀ h : key p < n, array' ⟨key p, h⟩ = x) ∧
      ∀ i : Fin n, (∀ p ∈ cells, key p ≠ i) → array' i = array i := by
  induction cells generalizing array with
  | nil => exact ⟨array, rfl, by simp, fun i _ => rfl⟩
  | cons p cells ih =>
    have hp : key p < n := hkey p List.mem_cons_self
    obtain ⟨y, hy⟩ := helem p List.mem_cons_self
    obtain ⟨array', hrun, hin, hout⟩ := ih (fun q hq => hkey q (List.mem_cons_of_mem p hq))
      (fun q hq => helem q (List.mem_cons_of_mem p hq))
      (fun q hq q' hq' => hinj q (List.mem_cons_of_mem p hq) q' (List.mem_cons_of_mem p hq'))
      (Function.update array ⟨key p, hp⟩ y)
    refine ⟨array', ?_, fun q hq x hx hlt => ?_, fun i hi => ?_⟩
    · have hstep : (elem p >>= store array (key p)) =
          some (Function.update array ⟨key p, hp⟩ y) := by
        rw [hy]
        exact dif_pos hp
      rw [List.foldlM_cons, hstep]
      exact hrun
    · by_cases hmem : q ∈ cells
      · exact hin q hmem x hx hlt
      · obtain rfl : q = p := (List.mem_cons.mp hq).resolve_right hmem
        obtain rfl : y = x := Option.some.inj (hy.symm.trans hx)
        rw [hout ⟨key q, hlt⟩ fun q' hq' hsame => ?_, Function.update_self]
        have hsame := hinj q' (List.mem_cons_of_mem q hq') q List.mem_cons_self hsame
        exact hmem (hsame ▸ hq')
    · rw [hout i fun q hq => hi q (List.mem_cons_of_mem p hq), Function.update_of_ne]
      rintro rfl
      exact hi p List.mem_cons_self rfl

theorem ofFn_update (array : Fin n → α) (i : Fin n) (x : α) :
    List.ofFn (Function.update array i x) = (List.ofFn array).set i x := by
  apply List.ext_getElem
  · simp
  intro j hj hj'
  have hlt : j < n := by simpa using hj
  rw [List.getElem_ofFn, List.getElem_set, List.getElem_ofFn]
  by_cases h : i.val = j
  · obtain rfl : i = ⟨j, hlt⟩ := Fin.ext h
    rw [if_pos rfl, Function.update_self]
  · rw [if_neg h, Function.update_of_ne]
    exact fun hi => h (congrArg Fin.val hi).symm

theorem ofFn_foldlM_store {cells : List κ} {value : κ → α}
    (hvalue : ∀ p ∈ cells, elem p = some (value p)) {array array' : Fin n → α}
    (hrun : cells.foldlM (fun array p => elem p >>= store array (key p)) array = some array') :
    List.ofFn array' = cells.foldl (fun xs p => xs.set (key p) (value p)) (List.ofFn array) := by
  induction cells generalizing array with
  | nil =>
    obtain rfl : array = array' := Option.some.inj hrun
    rfl
  | cons p cells ih =>
    rw [List.foldlM_cons] at hrun
    obtain ⟨array₁, hstep, hrun⟩ := Option.bind_eq_some_iff.mp hrun
    rw [hvalue p List.mem_cons_self] at hstep
    obtain ⟨hlt, hstep⟩ := Option.dite_none_right_eq_some.mp hstep
    rw [List.foldl_cons, ih (fun q hq => hvalue q (List.mem_cons_of_mem p hq)) hrun,
      ← Option.some.inj hstep, ofFn_update]

/-- The stores succeed exactly if there is an element for each place and no place is behind the
end of the array. -/
theorem isSome_foldlM_store {cells : List κ} (array : Fin n → α) :
    (cells.foldlM (fun array p => elem p >>= store array (key p)) array).isSome = true ↔
      ∀ p ∈ cells, (∃ x, elem p = some x) ∧ key p < n := by
  induction cells generalizing array with
  | nil => exact iff_of_true rfl fun p hp => absurd hp List.not_mem_nil
  | cons p cells ih =>
    rw [List.foldlM_cons, List.forall_mem_cons]
    by_cases hp : (∃ x, elem p = some x) ∧ key p < n
    · obtain ⟨⟨x, hx⟩, hlt⟩ := hp
      have hstep : (elem p >>= store array (key p)) =
          some (Function.update array ⟨key p, hlt⟩ x) := by
        rw [hx]
        exact dif_pos hlt
      rw [hstep, and_iff_right ⟨⟨x, hx⟩, hlt⟩]
      exact ih _
    · have hstep : (elem p >>= store array (key p)) = none := by
        cases hx : elem p with
        | none => rfl
        | some x => exact dif_neg fun hlt => hp ⟨⟨x, hx⟩, hlt⟩
      rw [hstep]
      exact iff_of_false Bool.false_ne_true fun h => hp h.1

theorem getElem_load {array : Fin n → α} {places : List Nat} {i : Nat}
    (hi : i < (load array places).length) : ∃ (hp : i < places.length) (hlt : places[i] < n),
      (load array places)[i] = array ⟨places[i], hlt⟩ := by
  induction places generalizing i with
  | nil => exact absurd hi (Nat.not_lt_zero i)
  | cons place places ih =>
    by_cases hplace : place < n
    · simp only [load, dif_pos hplace] at hi ⊢
      cases i with
      | zero => exact ⟨Nat.succ_pos _, hplace, rfl⟩
      | succ i =>
        obtain ⟨hp, hlt, hvalue⟩ := ih (Nat.lt_of_succ_lt_succ hi)
        exact ⟨Nat.succ_lt_succ hp, hlt, hvalue⟩
    · simp only [load, dif_neg hplace] at hi
      exact absurd hi (Nat.not_lt_zero i)

theorem length_load_le (array : Fin n → α) (places : List Nat) :
    (load array places).length ≤ places.length := by
  induction places with
  | nil => exact Nat.le_refl _
  | cons place places ih =>
    by_cases hplace : place < n
    · rw [load, dif_pos hplace]
      exact Nat.succ_le_succ ih
    · rw [load, dif_neg hplace]
      exact Nat.zero_le _

theorem length_load {array : Fin n → α} {places : List Nat} (h : ∀ place ∈ places, place < n) :
    (load array places).length = places.length := by
  induction places with
  | nil => rfl
  | cons place places ih =>
    obtain ⟨hplace, hrest⟩ := List.forall_mem_cons.mp h
    rw [load, dif_pos hplace]
    exact congrArg Nat.succ (ih hrest)

theorem load_eq {array : Fin n → α} {places : List Nat} {xs : List α}
    (hlen : places.length = xs.length) (h : ∀ i (hi : i < places.length) (hx : i < xs.length),
      ∃ hlt : places[i] < n, array ⟨places[i], hlt⟩ = xs[i]) : load array places = xs := by
  induction places generalizing xs with
  | nil => exact (List.length_eq_zero_iff.mp hlen.symm).symm
  | cons place places ih =>
    cases xs with
    | nil => cases hlen
    | cons x xs =>
      obtain ⟨hlt, hvalue⟩ := h 0 (Nat.succ_pos _) (Nat.succ_pos _)
      have hrest := ih (Nat.succ.inj hlen) fun i hi hx =>
        h (i + 1) (Nat.succ_lt_succ hi) (Nat.succ_lt_succ hx)
      have hplace : place < n := hlt
      rw [load, dif_pos hplace, hrest]
      exact congrArg (· :: xs) hvalue

end Loops

end Datenbereitstellung.Lib.Windows
