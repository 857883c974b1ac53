import Datenbereitstellung.SettingsTable

namespace Datenbereitstellung.SettingsPersistence

open Strings SettingsStore SettingsTable Lib.Tables
open OpcUa (cStr cStr_eq_self_iff)

section Loops

variable {cache table values : KeyTable Text Text} {k : Text}

def NulFree (s : Text) : Prop := '\x00' ∉ s

def NulFreeRows (rows : List (Text × Text)) : Prop := ∀ r ∈ rows, NulFree r.1 ∧ NulFree r.2

theorem cStr_of_nulFree {s : Text} (h : NulFree s) : cStr s = s := (cStr_eq_self_iff s).mpr h

theorem nulFreeRows_of_all {rows : List (Text × Text)}
    (h : (rows.all fun r => !r.1.contains '\x00' && !r.2.contains '\x00') = true) :
    NulFreeRows rows := by
  intro r hr
  have hr' := List.all_eq_true.mp h r hr
  simpa [NulFree] using hr'

theorem nulFree_defaultRows : NulFreeRows defaultRows := nulFreeRows_of_all (by decide +kernel)

theorem foldl_congr {σ : Type} {f g : σ → Text × Text → σ} {rows : List (Text × Text)}
    (h : ∀ s, ∀ r ∈ rows, f s r = g s r) (s : σ) : rows.foldl f s = rows.foldl g s := by
  induction rows generalizing s with
  | nil => rfl
  | cons r rows ih =>
    rw [List.foldl_cons, List.foldl_cons, h s r List.mem_cons_self]
    exact ih (fun s r' hr' => h s r' (List.mem_cons_of_mem r hr')) _

theorem lookup_defaults (k : Text) :
    (defaultRows.foldl (fun cache row => cache.upsert row.1 row.2)
      (.empty : KeyTable Text Text)).lookup k = defaultTable.lookup k := by
  have h := KeyTable.foldl_lookup (fun cache row => cache.upsert row.1 row.2) KeyTable.lookup
    (fun _ v _ => some v) (fun s r k => KeyTable.lookup_upsert s r.1 k r.2) defaultTable
    (.empty : KeyTable Text Text) k
  apply h.trans
  cases defaultTable.lookup k <;> rfl

theorem lookup_readRows (h : NulFreeRows table.rows) (k : Text) :
    (table.rows.foldl readRow cache).lookup k =
      (table.lookup k).elim (cache.lookup k) fun v => (cache.lookup k).map fun _ => v := by
  have hcongr : table.rows.foldl readRow cache = table.rows.foldl (fun cache row =>
      if (cache.lookup row.1).isSome then cache.upsert row.1 row.2 else cache) cache := by
    apply foldl_congr
    intro s r hr
    rw [readRow, cStr_of_nulFree (h r hr).1, cStr_of_nulFree (h r hr).2]
  rw [hcongr]
  refine KeyTable.foldl_lookup _ KeyTable.lookup (fun _ v o => o.map fun _ => v) ?_ table
    cache k
  intro s r k
  cases hs : s.lookup r.1 with
  | none =>
    by_cases hk : k = r.1
    · subst hk
      simp [hs]
    · simp [hk]
  | some u =>
    by_cases hk : k = r.1
    · subst hk
      simp [hs]
    · simp [hk]

theorem lookup_seed (k : Text) :
    (defaultRows.foldl (fun t row => t.insertOrIgnore (cStr row.1) (cStr row.2)) table).lookup k =
      (defaultTable.lookup k).elim (table.lookup k) fun v => some ((table.lookup k).getD v) := by
  have hcongr : defaultRows.foldl (fun t row => t.insertOrIgnore (cStr row.1) (cStr row.2)) table =
      defaultRows.foldl (fun t row => t.insertOrIgnore row.1 row.2) table := by
    apply foldl_congr
    intro s r hr
    have hn := nulFree_defaultRows r hr
    rw [cStr_of_nulFree hn.1, cStr_of_nulFree hn.2]
  rw [hcongr]
  refine KeyTable.foldl_lookup _ KeyTable.lookup (fun _ v o => some (o.getD v)) ?_
    defaultTable table k
  intro s r k
  rw [KeyTable.lookup_insertOrIgnore]
  by_cases hk : k = r.1
  · rw [hk]
  · rw [if_neg hk, if_neg hk]

def acceptOne (v : Text) : Option Text × Option Text → Option Text × Option Text
  | (none, a) => (none, a)
  | (some u, a) => if u = v then (some u, a) else (some v, some v)

theorem lookup_acceptRows (cache values : KeyTable Text Text) (k : Text) :
    ((acceptRows cache values).cache.lookup k, (acceptRows cache values).accepted.lookup k) =
      (values.lookup k).elim (cache.lookup k, none) fun v => acceptOne v (cache.lookup k, none) := by
  refine KeyTable.foldl_lookup acceptRow
    (fun r k => (r.cache.lookup k, r.accepted.lookup k)) (fun _ v => acceptOne v) ?_ values
    { cache } k
  intro s r k
  rw [acceptRow]
  cases hs : s.cache.lookup r.1 with
  | none =>
    by_cases hk : k = r.1
    · subst hk
      simp [hs, acceptOne]
    · simp [hk]
  | some u =>
    by_cases hu : u = r.2
    · by_cases hk : k = r.1
      · subst hk
        simp [hs, hu, acceptOne]
      · simp [hk, hu]
    · by_cases hk : k = r.1
      · subst hk
        simp [hs, hu, acceptOne]
      · simp [hk, hu]

theorem needsReconnect_iff (cache values : KeyTable Text Text) :
    (acceptRows cache values).needsReconnect = true ↔
      ∃ k v, (acceptRows cache values).accepted.lookup k = some v ∧ isLiveName k = false := by
  suffices key : ∀ (rows : List (Text × Text)) (r : Locals),
      (r.needsReconnect = true ↔ ∃ k v, r.accepted.lookup k = some v ∧ isLiveName k = false) →
      ((rows.foldl acceptRow r).needsReconnect = true ↔
        ∃ k v, (rows.foldl acceptRow r).accepted.lookup k = some v ∧ isLiveName k = false) by
    apply key
    simp
  intro rows
  induction rows with
  | nil => exact fun r hr => hr
  | cons row rows ih =>
    intro r hr
    apply ih
    rw [acceptRow]
    split
    · exact hr
    split
    · exact hr
    rw [Bool.or_eq_true, hr]
    constructor
    · rintro (⟨k, v, hk, hl⟩ | hl)
      · by_cases he : k = row.1
        · exact ⟨row.1, row.2, by simp, he ▸ hl⟩
        · exact ⟨k, v, by simpa [he] using hk, hl⟩
      · exact ⟨row.1, row.2, by simp, by simpa using hl⟩
    · rintro ⟨k, v, hk, hl⟩
      by_cases he : k = row.1
      · exact .inr (by simpa [he] using hl)
      · exact .inl ⟨k, v, by simpa [he] using hk, hl⟩

end Loops

section SetMany

variable {access : Access} {s : Store} {values : KeyTable Text Text} {k : Text}

/-- The cache has the keys of `kDefaults` and no others. -/
def HasKeys (s : Store) : Prop := ∀ k, (s.cache.lookup k).isSome = isKnown k

theorem nulFree_of_known (h : isKnown k = true) : NulFree k := by
  rw [isKnown, List.any_eq_true] at h
  obtain ⟨r, hr, hk⟩ := h
  rw [← beq_iff_eq.mp hk]
  exact (nulFree_defaultRows r hr).1

theorem lookup_setMany (access : Access) (s : Store) (values : KeyTable Text Text) (k : Text) :
    (setMany access s values).2.cache.lookup k =
      (values.lookup k).elim (s.cache.lookup k) fun v => (s.cache.lookup k).map fun _ => v := by
  have h := congrArg Prod.fst (lookup_acceptRows s.cache values k)
  apply h.trans
  cases values.lookup k with
  | none => rfl
  | some v =>
    cases s.cache.lookup k with
    | none => rfl
    | some u =>
      by_cases hu : u = v
      · simp [acceptOne, hu]
      · simp [acceptOne, hu]

theorem accepted_iff (cache values : KeyTable Text Text) (k v : Text) :
    (acceptRows cache values).accepted.lookup k = some v ↔
      values.lookup k = some v ∧ ∃ u, cache.lookup k = some u ∧ u ≠ v := by
  have h := congrArg Prod.snd (lookup_acceptRows cache values k)
  dsimp only at h
  rw [h]
  cases values.lookup k with
  | none => simp
  | some v' =>
    cases cache.lookup k with
    | none => simp [acceptOne]
    | some u =>
      by_cases hu : u = v'
      · subst hu
        simp [acceptOne]
      · simp only [Option.elim_some, acceptOne, if_neg hu, Option.some.injEq]
        constructor
        · rintro rfl
          exact ⟨rfl, u, rfl, hu⟩
        · exact fun h => h.1

theorem changed_iff (access : Access) (s : Store) (values : KeyTable Text Text) (k : Text) :
    (setMany access s values).2.cache.lookup k ≠ s.cache.lookup k ↔
      ∃ v, (acceptRows s.cache values).accepted.lookup k = some v := by
  rw [lookup_setMany]
  simp only [accepted_iff]
  cases values.lookup k with
  | none => simp
  | some v =>
    cases s.cache.lookup k with
    | none => simp
    | some u => simp [eq_comm]

theorem hasKeys_setMany (access : Access) (values : KeyTable Text Text) (h : HasKeys s) :
    HasKeys (setMany access s values).2 := by
  intro k
  rw [lookup_setMany, ← h k]
  cases values.lookup k with
  | none => rfl
  | some v => cases s.cache.lookup k <;> rfl

theorem known_of_accepted (h : HasKeys s) {v : Text}
    (ha : (acceptRows s.cache values).accepted.lookup k = some v) : isKnown k = true := by
  obtain ⟨-, u, hu, -⟩ := (accepted_iff s.cache values k v).mp ha
  rw [← h k, hu]
  rfl

theorem setMany_table (access : Access) (s : Store) (values : KeyTable Text Text) :
    (setMany access s values).2.table =
      if (acceptRows s.cache values).accepted.rows.isEmpty then s.table
      else (writeToDb access s.table (acceptRows s.cache values).accepted).2 := by
  simp only [setMany]
  cases (acceptRows s.cache values).accepted.rows.isEmpty <;> rfl

theorem lookup_table_works (values : KeyTable Text Text) (h : HasKeys s) (k : Text) :
    (setMany .works s values).2.table.lookup k =
      ((acceptRows s.cache values).accepted.lookup k).elim (s.table.lookup k)
        fun v => some (cStr v) := by
  have hwrite : ((acceptRows s.cache values).accepted.rows.foldl
      (fun t row => t.upsert (cStr row.1) (cStr row.2)) s.table).lookup k =
      ((acceptRows s.cache values).accepted.lookup k).elim (s.table.lookup k)
        fun v => some (cStr v) := by
    have hcongr : (acceptRows s.cache values).accepted.rows.foldl
        (fun t row => t.upsert (cStr row.1) (cStr row.2)) s.table =
        (acceptRows s.cache values).accepted.rows.foldl
          (fun t row => t.upsert row.1 (cStr row.2)) s.table := by
      apply foldl_congr
      intro t r hr
      rw [cStr_of_nulFree (nulFree_of_known (known_of_accepted h (KeyTable.lookup_of_mem _ hr)))]
    rw [hcongr]
    exact KeyTable.foldl_lookup _ KeyTable.lookup (fun _ v _ => some (cStr v))
      (fun t r k => KeyTable.lookup_upsert t r.1 k (cStr r.2)) _ s.table k
  rw [setMany_table]
  split
  · rename_i hempty
    rw [(KeyTable.isEmpty_rows_iff _).mp hempty k]
    rfl
  · exact hwrite

theorem table_fails (hf : access ≠ .works) : (setMany access s values).2.table = s.table := by
  rw [setMany_table]
  cases access with
  | works => exact absurd rfl hf
  | openFails | rolledBack => exact ite_self _

theorem setMany_other (access : Access) (h : HasKeys s) (hk : values.lookup k = none) :
    (setMany access s values).2.cache.lookup k = s.cache.lookup k ∧
      (setMany access s values).2.table.lookup k = s.table.lookup k := by
  refine ⟨by rw [lookup_setMany, hk]; rfl, ?_⟩
  by_cases hw : access = .works
  · have hnone : (acceptRows s.cache values).accepted.lookup k = none := by
      cases ha : (acceptRows s.cache values).accepted.lookup k with
      | none => rfl
      | some v =>
        have hv := ((accepted_iff s.cache values k v).mp ha).1
        rw [hk] at hv
        cases hv
    rw [hw, lookup_table_works values h, hnone]
    rfl
  · rw [table_fails hw]

end SetMany

section Init

theorem hasKeys_init (access : Access) (s : Store) : HasKeys (init access s).2 := by
  have hread : ∀ (rows : List (Text × Text)) (cache : KeyTable Text Text) (k : Text),
      ((rows.foldl readRow cache).lookup k).isSome = (cache.lookup k).isSome := by
    intro rows
    induction rows with
    | nil => exact fun _ _ => rfl
    | cons r rows ih =>
      intro cache k
      rw [List.foldl_cons, ih]
      rw [readRow]
      split
      · rename_i hr
        rw [KeyTable.lookup_upsert]
        by_cases hk : k = cStr r.1
        · rw [if_pos hk, hk, hr]
          rfl
        · rw [if_neg hk]
      · rfl
  intro k
  rw [isKnown_eq, ← lookup_defaults]
  cases access with
  | openFails => rfl
  | rolledBack | works => exact hread s.table.rows _ k

end Init

section InStep

variable {rows₀ : KeyTable Text Text} {s : Store} {values : KeyTable Text Text}

/-- Cache and table agree on the known keys; the other rows are those that were there. -/
structure InStep (rows₀ : KeyTable Text Text) (s : Store) : Prop where
  keys : HasKeys s
  known : ∀ k, isKnown k = true → s.table.lookup k = s.cache.lookup k
  unknown : ∀ k, isKnown k = false → s.table.lookup k = rows₀.lookup k
  nulFree : NulFreeRows s.table.rows

theorem nulFreeRows_iff (t : KeyTable Text Text) :
    NulFreeRows t.rows ↔ ∀ k v, t.lookup k = some v → NulFree k ∧ NulFree v := by
  constructor
  · intro h k v hk
    exact h (k, v) (KeyTable.mem_of_lookup hk)
  · intro h r hr
    exact h r.1 r.2 (KeyTable.lookup_of_mem t hr)

theorem init_works (s : Store) : (init .works s).2 = { s with
    cache := s.table.rows.foldl readRow
      (defaultRows.foldl (fun cache row => cache.upsert row.1 row.2) .empty)
    rev := s.rev + 1
    table := defaultRows.foldl (fun t row => t.insertOrIgnore (cStr row.1) (cStr row.2))
      s.table } := rfl

theorem lookup_init_cache (h : NulFreeRows s.table.rows) (k : Text) :
    (init .works s).2.cache.lookup k =
      (s.table.lookup k).elim (defaultTable.lookup k) fun v =>
        (defaultTable.lookup k).map fun _ => v := by
  rw [init_works]
  dsimp only
  rw [lookup_readRows h, lookup_defaults]

theorem inStep_init (h : NulFreeRows s.table.rows) : InStep s.table (init .works s).2 := by
  have htable : ∀ k, (init .works s).2.table.lookup k =
      (defaultTable.lookup k).elim (s.table.lookup k)
        fun v => some ((s.table.lookup k).getD v) := by
    intro k
    rw [init_works]
    dsimp only
    exact lookup_seed k
  refine ⟨hasKeys_init .works s, fun k hk => ?_, fun k hk => ?_, ?_⟩
  · rw [isKnown_eq] at hk
    obtain ⟨v, hv⟩ := Option.isSome_iff_exists.mp hk
    rw [htable, lookup_init_cache h, hv]
    cases s.table.lookup k <;> rfl
  · rw [isKnown_eq, Option.isSome_eq_false_iff, Option.isNone_iff_eq_none] at hk
    rw [htable, hk]
    rfl
  · rw [nulFreeRows_iff]
    intro k v hv
    rw [htable] at hv
    cases hd : defaultTable.lookup k with
    | none =>
      rw [hd] at hv
      exact (nulFreeRows_iff s.table).mp h k v hv
    | some d =>
      rw [hd] at hv
      have hd' := nulFree_defaultRows (k, d) (KeyTable.mem_of_lookup hd)
      cases ht : s.table.lookup k with
      | none =>
        rw [ht] at hv
        cases hv
        exact hd'
      | some u =>
        rw [ht] at hv
        cases hv
        exact (nulFreeRows_iff s.table).mp h k u ht

theorem inStep_setMany (h : InStep rows₀ s) (hv : NulFreeRows values.rows) :
    InStep rows₀ (setMany .works s values).2 := by
  have hacc : ∀ k v, (acceptRows s.cache values).accepted.lookup k = some v →
      NulFree k ∧ NulFree v := by
    intro k v ha
    exact (nulFreeRows_iff values).mp hv k v ((accepted_iff s.cache values k v).mp ha).1
  have htable := lookup_table_works values h.keys
  refine ⟨hasKeys_setMany _ _ h.keys, fun k hk => ?_, fun k hk => ?_, ?_⟩
  · rw [htable]
    cases ha : (acceptRows s.cache values).accepted.lookup k with
    | none =>
      have hsame : (setMany .works s values).2.cache.lookup k = s.cache.lookup k := by
        by_contra hne
        obtain ⟨v, hv⟩ := (changed_iff .works s values k).mp hne
        rw [ha] at hv
        cases hv
      rw [hsame]
      exact h.known k hk
    | some v =>
      obtain ⟨hval, u, hu, -⟩ := (accepted_iff s.cache values k v).mp ha
      rw [lookup_setMany, hval, hu]
      exact congrArg some (cStr_of_nulFree (hacc k v ha).2)
  · rw [htable]
    cases ha : (acceptRows s.cache values).accepted.lookup k with
    | none => exact h.unknown k hk
    | some v =>
      rw [known_of_accepted h.keys ha] at hk
      cases hk
  · rw [nulFreeRows_iff]
    intro k v hk
    rw [htable] at hk
    cases ha : (acceptRows s.cache values).accepted.lookup k with
    | none =>
      rw [ha] at hk
      exact (nulFreeRows_iff s.table).mp h.nulFree k v hk
    | some u =>
      rw [ha] at hk
      have hu := hacc k u ha
      simp only [Option.elim_some, cStr_of_nulFree hu.2] at hk
      cases hk
      exact hu

theorem lookup_reopened (h : InStep rows₀ s) (k : Text) :
    (init .works { table := s.table }).2.cache.lookup k = s.cache.lookup k := by
  rw [lookup_init_cache (s := { table := s.table }) h.nulFree]
  dsimp only
  cases hk : isKnown k with
  | true =>
    have hcache := h.keys k
    rw [hk] at hcache
    obtain ⟨u, hu⟩ := Option.isSome_iff_exists.mp hcache
    have hd : (defaultTable.lookup k).isSome = true := by rw [← isKnown_eq, hk]
    obtain ⟨d, hd⟩ := Option.isSome_iff_exists.mp hd
    rw [h.known k hk, hu, hd]
    rfl
  | false =>
    have hcache := h.keys k
    rw [hk, Option.isSome_eq_false_iff, Option.isNone_iff_eq_none] at hcache
    have hd := isKnown_eq k
    rw [hk, eq_comm, Option.isSome_eq_false_iff, Option.isNone_iff_eq_none] at hd
    rw [hd, hcache]
    cases s.table.lookup k <;> rfl

theorem acceptRows_unchanged {cache : KeyTable Text Text}
    (h : ∀ r ∈ values.rows, ∀ u, cache.lookup r.1 = some u → u = r.2) :
    acceptRows cache values = { cache } := by
  rw [acceptRows]
  have hstep : ∀ rows : List (Text × Text), (∀ r ∈ rows, r ∈ values.rows) →
      rows.foldl acceptRow { cache } = { cache } := by
    intro rows
    induction rows with
    | nil => exact fun _ => rfl
    | cons r rows ih =>
      intro hr
      have hone : acceptRow { cache } r = { cache } := by
        rw [acceptRow]
        dsimp only
        cases hc : cache.lookup r.1 with
        | none => rfl
        | some u =>
          dsimp only
          rw [if_pos (h r (hr r List.mem_cons_self) u hc)]
      rw [List.foldl_cons, hone]
      exact ih fun r' hr' => hr r' (List.mem_cons_of_mem r hr')
  exact hstep values.rows fun _ hr => hr

theorem setMany_again (access access' : Access) (s : Store) (values : KeyTable Text Text) :
    setMany access' (setMany access s values).2 values = (false, (setMany access s values).2) := by
  have hnone : acceptRows (setMany access s values).2.cache values =
      { cache := (setMany access s values).2.cache } := by
    apply acceptRows_unchanged
    intro r hr u hu
    rw [lookup_setMany, KeyTable.lookup_of_mem values hr] at hu
    cases hc : s.cache.lookup r.1 with
    | none =>
      rw [hc] at hu
      cases hu
    | some v =>
      rw [hc] at hu
      exact (Option.some.inj hu).symm
  generalize (setMany access s values).2 = s' at hnone ⊢
  rw [setMany]
  rw [hnone]
  rfl

theorem setMany_result (access : Access) (h : HasKeys s) :
    (setMany access s values).1 = true ↔ ∃ k, isKnown k = true ∧ isLiveName k = false ∧
      (setMany access s values).2.cache.lookup k ≠ s.cache.lookup k := by
  refine (needsReconnect_iff s.cache values).trans ?_
  constructor
  · rintro ⟨k, v, ha, hl⟩
    exact ⟨k, known_of_accepted h ha, hl, (changed_iff access s values k).mpr ⟨v, ha⟩⟩
  · rintro ⟨k, -, hl, hc⟩
    obtain ⟨v, ha⟩ := (changed_iff access s values k).mp hc
    exact ⟨k, v, ha, hl⟩

theorem setMany_rev (access : Access) (h : HasKeys s) :
    ((∃ k, isKnown k = true ∧ (setMany access s values).2.cache.lookup k ≠ s.cache.lookup k) →
      (setMany access s values).2.rev = s.rev + 1) ∧
    ((¬∃ k, isKnown k = true ∧ (setMany access s values).2.cache.lookup k ≠ s.cache.lookup k) →
      (setMany access s values).2.rev = s.rev) := by
  have hrev : (setMany access s values).2.rev =
      if (acceptRows s.cache values).accepted.rows.isEmpty then s.rev else s.rev + 1 := by
    simp only [setMany]
    cases (acceptRows s.cache values).accepted.rows.isEmpty <;> rfl
  rw [hrev]
  constructor
  · rintro ⟨k, -, hc⟩
    obtain ⟨v, ha⟩ := (changed_iff access s values k).mp hc
    rw [if_neg]
    intro hempty
    rw [(KeyTable.isEmpty_rows_iff _).mp hempty k] at ha
    cases ha
  · intro hno
    rw [if_pos]
    rw [KeyTable.isEmpty_rows_iff]
    intro k
    cases ha : (acceptRows s.cache values).accepted.lookup k with
    | none => rfl
    | some v =>
      exact absurd ⟨k, known_of_accepted h ha, (changed_iff access s values k).mpr ⟨v, ha⟩⟩ hno

/-- The store after `init` and some calls of `setMany`. -/
def afterCalls (s : Store) (calls : List (KeyTable Text Text)) : Store :=
  calls.foldl (fun s values => (setMany .works s values).2) (init .works s).2

theorem inStep_afterCalls (h : NulFreeRows s.table.rows) (calls : List (KeyTable Text Text))
    (hc : ∀ values ∈ calls, NulFreeRows values.rows) : InStep s.table (afterCalls s calls) := by
  induction calls using List.reverseRecOn with
  | nil => exact inStep_init h
  | append_singleton calls values ih =>
    rw [afterCalls]
    rw [List.foldl_append]
    exact inStep_setMany (ih fun v hv => hc v (List.mem_append_left _ hv))
      (hc values (List.mem_append_right _ List.mem_cons_self))

/-- After every call the cache has the default keys, the table has the values of the cache and
its other rows as they were, and a call counts up the revisions by what it changes. -/
theorem settings_inStep (s₀ : Store) (h₀ : NulFreeRows s₀.table.rows)
    (calls : List (KeyTable Text Text)) (hc : ∀ values ∈ calls, NulFreeRows values.rows) :
    (∀ k, ((afterCalls s₀ calls).cache.lookup k).isSome = isKnown k) ∧
    (∀ k, isKnown k = true →
      (afterCalls s₀ calls).table.lookup k = (afterCalls s₀ calls).cache.lookup k) ∧
    (∀ k, (init .works { table := (afterCalls s₀ calls).table }).2.cache.lookup k =
      (afterCalls s₀ calls).cache.lookup k) ∧
    (∀ k, isKnown k = false → (afterCalls s₀ calls).table.lookup k = s₀.table.lookup k) ∧
    ∀ values, ∃ result s, setMany .works (afterCalls s₀ calls) values = (result, s) ∧
      (result = true ↔ ∃ k, isKnown k = true ∧ isLiveName k = false ∧
        s.cache.lookup k ≠ (afterCalls s₀ calls).cache.lookup k) ∧
      s.bootRev = (afterCalls s₀ calls).bootRev + (if result then 1 else 0) ∧
      ((∃ k, isKnown k = true ∧ s.cache.lookup k ≠ (afterCalls s₀ calls).cache.lookup k) →
        s.rev = (afterCalls s₀ calls).rev + 1) ∧
      ((¬∃ k, isKnown k = true ∧ s.cache.lookup k ≠ (afterCalls s₀ calls).cache.lookup k) →
        s.rev = (afterCalls s₀ calls).rev) ∧
      setMany .works s values = (false, s) := by
  have h := inStep_afterCalls h₀ calls hc
  refine ⟨h.keys, h.known, lookup_reopened h, h.unknown, fun values => ?_⟩
  have hboot : (setMany .works (afterCalls s₀ calls) values).2.bootRev =
      (afterCalls s₀ calls).bootRev +
        (if (setMany .works (afterCalls s₀ calls) values).1 then 1 else 0) := by
    rw [setMany]
    dsimp only
    split <;> rfl
  exact ⟨_, _, rfl, setMany_result .works h.keys, hboot, (setMany_rev .works h.keys).1,
    (setMany_rev .works h.keys).2, setMany_again .works .works _ values⟩

def oldFile : Store where
  table := ⟨[(keyName .ipSPS, ['1']), (['x'], ['y'])], by decide +kernel⟩

theorem known_ipSPS : isKnown (keyName .ipSPS) = true := by decide +kernel

theorem inStep_oldFile : InStep oldFile.table (init .works oldFile).2 :=
  inStep_init (nulFreeRows_of_all (by decide +kernel))

theorem lookup_oldFile : (init .works oldFile).2.cache.lookup (keyName .ipSPS) = some ['1'] := by
  have hrow : oldFile.table.lookup (keyName .ipSPS) = some ['1'] := by decide +kernel
  rw [← inStep_oldFile.known _ known_ipSPS, init_works]
  dsimp only
  rw [lookup_seed, hrow]
  cases defaultTable.lookup (keyName .ipSPS) <;> rfl

def newAddress : KeyTable Text Text := ⟨[(keyName .ipSPS, ['2'])], by decide +kernel⟩

theorem settings_newAddress :
    (afterCalls oldFile [newAddress]).table.lookup (keyName .ipSPS) =
      (afterCalls oldFile [newAddress]).cache.lookup (keyName .ipSPS) ∧
    (afterCalls oldFile [newAddress]).table.lookup ['x'] = some ['y'] := by
  have h := settings_inStep oldFile (nulFreeRows_of_all (by decide +kernel)) [newAddress]
    (fun values hv => by
      rw [List.mem_singleton.mp hv]
      exact nulFreeRows_of_all (by decide +kernel))
  have hx := h.2.2.2.1 ['x'] (by decide +kernel)
  exact ⟨h.2.1 (keyName .ipSPS) known_ipSPS, hx.trans (by decide +kernel)⟩

end InStep

section Retry

variable {k v : Text}

/-- Some calls of `setMany`, each with what becomes of its access to the database. -/
def afterHistory (s : Store) (calls : List (Access × KeyTable Text Text)) : Store :=
  calls.foldl (fun s call => (setMany call.1 s call.2).2) s

theorem hasKeys_afterHistory {s : Store} (h : HasKeys s)
    (calls : List (Access × KeyTable Text Text)) : HasKeys (afterHistory s calls) := by
  induction calls generalizing s with
  | nil => exact h
  | cons call calls ih => exact ih (hasKeys_setMany _ _ h)

theorem afterHistory_other {s : Store} (h : HasKeys s)
    (calls : List (Access × KeyTable Text Text)) (hk : ∀ call ∈ calls, call.2.lookup k = none) :
    (afterHistory s calls).cache.lookup k = s.cache.lookup k ∧
      (afterHistory s calls).table.lookup k = s.table.lookup k := by
  induction calls generalizing s with
  | nil => exact ⟨rfl, rfl⟩
  | cons call calls ih =>
    have hone := setMany_other call.1 h (hk call List.mem_cons_self)
    have hrest := ih (hasKeys_setMany call.1 call.2 h)
      fun c hc => hk c (List.mem_cons_of_mem call hc)
    exact ⟨hrest.1.trans hone.1, hrest.2.trans hone.2⟩

theorem saved_works {s : Store} (h : HasKeys s) (hk : isKnown k = true)
    {values : KeyTable Text Text} (hv : values.lookup k = some v) :
    (setMany .works s values).2.table.lookup k = (setMany .works s values).2.cache.lookup k ↔
      (s.cache.lookup k = some v ∧ s.table.lookup k = some v) ∨
        (s.cache.lookup k ≠ some v ∧ NulFree v) := by
  have hu := h k
  rw [hk] at hu
  obtain ⟨u, hu⟩ := Option.isSome_iff_exists.mp hu
  have hcache : (setMany .works s values).2.cache.lookup k = some v := by
    rw [lookup_setMany, hv, hu]
    rfl
  rw [hcache, lookup_table_works values h, hu]
  by_cases huv : u = v
  · have hnone : (acceptRows s.cache values).accepted.lookup k = none := by
      cases ha : (acceptRows s.cache values).accepted.lookup k with
      | none => rfl
      | some w =>
        obtain ⟨hw, u', hu', hne⟩ := (accepted_iff s.cache values k w).mp ha
        rw [hv] at hw
        rw [hu] at hu'
        cases hw
        cases hu'
        exact absurd huv hne
    rw [hnone]
    simp [huv]
  · have hsome := (accepted_iff s.cache values k v).mpr ⟨hv, u, hu, huv⟩
    rw [hsome]
    simp [huv, cStr_eq_self_iff, NulFree]

/-- After any history, if the last call with a value for the key ran with a working database, then
the table has the cached value if and only if this call gave another value than the cached one,
without NUL, or the table had the cached one already. -/
theorem saved_iff (access₀ : Access) (s₀ : Store) (before after : List (Access × KeyTable Text Text))
    (values : KeyTable Text Text) (k v : Text) (hk : isKnown k = true)
    (hv : values.lookup k = some v) (hafter : ∀ call ∈ after, call.2.lookup k = none) :
    (afterHistory (init access₀ s₀).2 (before ++ (.works, values) :: after)).table.lookup k =
        (afterHistory (init access₀ s₀).2 (before ++ (.works, values) :: after)).cache.lookup k ↔
      ((afterHistory (init access₀ s₀).2 before).cache.lookup k = some v ∧
        (afterHistory (init access₀ s₀).2 before).table.lookup k = some v) ∨
      ((afterHistory (init access₀ s₀).2 before).cache.lookup k ≠ some v ∧ NulFree v) := by
  have hkeys := hasKeys_afterHistory (hasKeys_init access₀ s₀) before
  have hsplit : afterHistory (init access₀ s₀).2 (before ++ (.works, values) :: after) =
      afterHistory (setMany .works (afterHistory (init access₀ s₀).2 before) values).2 after := by
    simp only [afterHistory]
    rw [List.foldl_append, List.foldl_cons]
  have hlast := afterHistory_other (hasKeys_setMany .works values hkeys) after hafter
  rw [hsplit, hlast.1, hlast.2]
  exact saved_works hkeys hk hv

/-- The address is saved once more after the file could not be opened. -/
theorem saved_again : ¬∀ (access₀ : Access) (s₀ : Store)
    (before after : List (Access × KeyTable Text Text)) (values : KeyTable Text Text) (k v : Text),
    isKnown k = true → values.lookup k = some v → (∀ call ∈ after, call.2.lookup k = none) →
    (afterHistory (init access₀ s₀).2 (before ++ (.works, values) :: after)).table.lookup k =
      (afterHistory (init access₀ s₀).2 (before ++ (.works, values) :: after)).cache.lookup k := by
  intro h
  have hnew : newAddress.lookup (keyName .ipSPS) = some ['2'] := by decide +kernel
  have hsame := h .works oldFile [(.openFails, newAddress)] [] newAddress (keyName .ipSPS) ['2']
    known_ipSPS hnew nofun
  have hkeys := hasKeys_setMany .openFails newAddress inStep_oldFile.keys
  obtain ⟨-, htable⟩ | ⟨hcache, -⟩ := (saved_works hkeys known_ipSPS hnew).mp hsame
  · rw [table_fails (by decide), inStep_oldFile.known _ known_ipSPS, lookup_oldFile] at htable
    cases htable
  · rw [lookup_setMany, hnew, lookup_oldFile] at hcache
    exact hcache rfl

theorem saved_once : (afterHistory (init .works oldFile).2 [(.works, newAddress)]).table.lookup
      (keyName .ipSPS) =
    (afterHistory (init .works oldFile).2 [(.works, newAddress)]).cache.lookup (keyName .ipSPS) := by
  apply (saved_iff .works oldFile [] [] newAddress (keyName .ipSPS) ['2'] known_ipSPS
    (by decide +kernel) nofun).mpr
  refine .inr ⟨fun hcache => ?_, by simp [NulFree]⟩
  cases lookup_oldFile.symm.trans hcache

end Retry

end Datenbereitstellung.SettingsPersistence
