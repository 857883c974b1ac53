import Mathlib.Data.List.Nodup

namespace Datenbereitstellung.Lib.Tables

variable {κ ν : Type}

/-- Rows with a unique key; their order means nothing. -/
structure KeyTable (κ ν : Type) where
  rows : List (κ × ν)
  nodup : (rows.map Prod.fst).Nodup

namespace KeyTable

theorem nodup_filter {rows : List (κ × ν)} (h : (rows.map Prod.fst).Nodup) (p : κ × ν → Bool) :
    ((rows.filter p).map Prod.fst).Nodup :=
  h.sublist (List.filter_sublist.map Prod.fst)

def empty : KeyTable κ ν := ⟨[], List.nodup_nil⟩

variable [DecidableEq κ]

def lookup (t : KeyTable κ ν) (k : κ) : Option ν := t.rows.lookup k

def upsert (t : KeyTable κ ν) (k : κ) (v : ν) : KeyTable κ ν where
  rows := (k, v) :: t.rows.filter (fun r => r.1 ≠ k)
  nodup := by
    rw [List.map_cons, List.nodup_cons]
    refine ⟨fun hk => ?_, nodup_filter t.nodup _⟩
    obtain ⟨r, hr, rfl⟩ := List.mem_map.mp hk
    simpa using (List.mem_filter.mp hr).2

def insertOrIgnore (t : KeyTable κ ν) (k : κ) (v : ν) : KeyTable κ ν :=
  if (t.lookup k).isSome then t else t.upsert k v

theorem lookup_filter_ne (rows : List (κ × ν)) {k k' : κ} (h : k' ≠ k) :
    (rows.filter (fun r => r.1 ≠ k)).lookup k' = rows.lookup k' := by
  induction rows with
  | nil => rfl
  | cons r rows ih =>
    obtain ⟨k₁, v⟩ := r
    by_cases h₁ : k₁ = k
    · subst h₁
      rw [List.filter_cons_of_neg (by simp), ih, List.lookup_cons, beq_eq_false_iff_ne.mpr h]
    · rw [List.filter_cons_of_pos (by simpa using h₁), List.lookup_cons, List.lookup_cons, ih]

@[simp] theorem lookup_empty (k : κ) : (empty : KeyTable κ ν).lookup k = none := rfl

@[simp] theorem lookup_upsert (t : KeyTable κ ν) (k k' : κ) (v : ν) :
    (t.upsert k v).lookup k' = if k' = k then some v else t.lookup k' := by
  by_cases h : k' = k
  · subst h
    simp [lookup, upsert]
  · rw [if_neg h]
    simp only [lookup, upsert, List.lookup_cons, beq_eq_false_iff_ne.mpr h]
    exact lookup_filter_ne t.rows h

@[simp] theorem lookup_insertOrIgnore (t : KeyTable κ ν) (k k' : κ) (v : ν) :
    (t.insertOrIgnore k v).lookup k' = if k' = k then some ((t.lookup k).getD v) else t.lookup k' := by
  rw [insertOrIgnore]
  cases hk : t.lookup k with
  | none => simp
  | some u =>
    by_cases h : k' = k
    · subst h
      simp [hk]
    · simp [h]

theorem lookup_of_mem (t : KeyTable κ ν) {r : κ × ν} (h : r ∈ t.rows) :
    t.lookup r.1 = some r.2 := by
  suffices key : ∀ rows : List (κ × ν), (rows.map Prod.fst).Nodup → r ∈ rows →
      rows.lookup r.1 = some r.2 from key t.rows t.nodup h
  intro rows hrows hr
  induction rows with
  | nil => cases hr
  | cons r' rows ih =>
    rw [List.map_cons, List.nodup_cons] at hrows
    rw [List.lookup_cons]
    obtain rfl | hr := List.mem_cons.mp hr
    · rw [beq_self_eq_true]
    · have hne : r.1 ≠ r'.1 := fun he => hrows.1 (he ▸ List.mem_map_of_mem hr)
      rw [beq_eq_false_iff_ne.mpr hne]
      exact ih hrows.2 hr

theorem lookup_isSome_iff (t : KeyTable κ ν) (k : κ) :
    (t.lookup k).isSome = true ↔ ∃ r ∈ t.rows, r.1 = k := by
  rw [lookup, List.lookup_isSome_iff]
  apply exists_congr
  intro r
  rw [beq_iff_eq, eq_comm]

theorem mem_of_lookup {t : KeyTable κ ν} {k : κ} {v : ν} (h : t.lookup k = some v) :
    (k, v) ∈ t.rows := by
  obtain ⟨l₁, l₂, hrows, -⟩ := List.lookup_eq_some_iff.mp h
  rw [hrows]
  simp

theorem isEmpty_rows_iff (t : KeyTable κ ν) : t.rows.isEmpty = true ↔ ∀ k, t.lookup k = none := by
  constructor
  · intro h k
    rw [lookup, List.isEmpty_iff.mp h, List.lookup_nil]
  · intro h
    cases hr : t.rows with
    | nil => rfl
    | cons r rows =>
      have hr' := t.lookup_of_mem (hr ▸ List.mem_cons_self : r ∈ t.rows)
      rw [h r.1] at hr'
      cases hr'

/-- A loop through a table does to what is known of a key what the row of the key does to it. -/
theorem foldl_lookup {σ β : Type} (f : σ → κ × ν → σ) (get : σ → κ → β) (put : κ → ν → β → β)
    (hf : ∀ s r k, get (f s r) k = if k = r.1 then put k r.2 (get s k) else get s k)
    (t : KeyTable κ ν) (s : σ) (k : κ) :
    get (t.rows.foldl f s) k = (t.lookup k).elim (get s k) fun v => put k v (get s k) := by
  suffices key : ∀ rows : List (κ × ν), (rows.map Prod.fst).Nodup → ∀ s,
      get (rows.foldl f s) k = (rows.lookup k).elim (get s k) fun v => put k v (get s k) from
    key t.rows t.nodup s
  intro rows hrows
  induction rows with
  | nil => exact fun s => rfl
  | cons r rows ih =>
    intro s
    rw [List.map_cons, List.nodup_cons] at hrows
    rw [List.foldl_cons, ih hrows.2, hf, List.lookup_cons]
    by_cases h : k = r.1
    · subst h
      have hnone : rows.lookup r.1 = none := by
        rw [List.lookup_eq_none_iff]
        intro p hp
        have hne : r.1 ≠ p.1 := fun he => hrows.1 (he ▸ List.mem_map_of_mem hp)
        simpa using hne
      simp [hnone]
    · rw [beq_eq_false_iff_ne.mpr h, if_neg h]

end KeyTable

end Datenbereitstellung.Lib.Tables
