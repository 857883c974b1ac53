import Datenbereitstellung.SettingsPersistence
import Datenbereitstellung.SettingsSchema

namespace Datenbereitstellung.SettingsPage

open Strings SettingsStore SettingsTable SettingsSchema Lib.Tables
open SettingsPersistence (HasKeys)

section Input

def isDigit (c : Char) : Bool := '0' ≤ c && c ≤ '9'

def isExponent : Text → Bool
  | [] => true
  | c :: s =>
    let ds := match s with
      | '+' :: r => r
      | '-' :: r => r
      | _ => s
    (c == 'e' || c == 'E') && !ds.isEmpty && ds.all isDigit

def isUnsigned (s : Text) : Bool :=
  let whole := s.takeWhile isDigit
  match s.dropWhile isDigit with
  | '.' :: r => !(r.takeWhile isDigit).isEmpty && isExponent (r.dropWhile isDigit)
  | r => !whole.isEmpty && isExponent r

/-- A valid floating-point number, as HTML defines it. -/
def isFloatingPoint : Text → Bool
  | '-' :: s => isUnsigned s
  | s => isUnsigned s

/-- The value that an `input` has when it is given one: a number input takes no other texts, and
a text input no line breaks. -/
def sanitize : FieldType → Text → Text
  | .int, s => if isFloatingPoint s then s else []
  | .text, s => s.filter fun c => c ≠ '\n' ∧ c ≠ '\r'

theorem sanitize_sanitize (t : FieldType) (s : Text) : sanitize t (sanitize t s) = sanitize t s := by
  cases t with
  | text => exact List.filter_filter.trans (by simp [sanitize])
  | int =>
    by_cases h : isFloatingPoint s
    · simp [sanitize, h]
    · simp [sanitize, h]

/-- The value of an input that is given it as a text input, and its type afterwards. -/
def inputValue (t : FieldType) (s : Text) : Text := sanitize t (sanitize .text s)

def isNumeral (c : Char) : Bool := isDigit c || ['e', 'E', '+', '-', '.'].contains c

theorem isNumeral_of_digits {ds : Text} (h : ds.all isDigit = true) {c : Char} (hc : c ∈ ds) :
    isNumeral c = true := by
  rw [isNumeral, List.all_eq_true.mp h c hc, Bool.true_or]

theorem isNumeral_of_isExponent {s : Text} (h : isExponent s = true) {c : Char} (hc : c ∈ s) :
    isNumeral c = true := by
  cases s with
  | nil => cases hc
  | cons e s =>
    simp only [isExponent, Bool.and_eq_true, Bool.or_eq_true, beq_iff_eq] at h
    obtain ⟨⟨he, -⟩, hdigits⟩ := h
    obtain rfl | hc := List.mem_cons.mp hc
    · obtain rfl | rfl := he
      · decide
      · decide
    · split at hdigits
      · obtain rfl | hc := List.mem_cons.mp hc
        · decide
        · exact isNumeral_of_digits hdigits hc
      · obtain rfl | hc := List.mem_cons.mp hc
        · decide
        · exact isNumeral_of_digits hdigits hc
      · exact isNumeral_of_digits hdigits hc

theorem isNumeral_of_span {r : Text} {c : Char} (hc : c ∈ r)
    (h : c ∈ r.dropWhile isDigit → isNumeral c = true) : isNumeral c = true := by
  rw [← List.takeWhile_append_dropWhile (p := isDigit) (l := r)] at hc
  obtain hc | hc := List.mem_append.mp hc
  · exact isNumeral_of_digits List.all_takeWhile hc
  · exact h hc

theorem isNumeral_of_isUnsigned {s : Text} (h : isUnsigned s = true) {c : Char} (hc : c ∈ s) :
    isNumeral c = true := by
  refine isNumeral_of_span hc fun hc => ?_
  simp only [isUnsigned] at h
  split at h
  · rename_i r hr
    rw [hr] at hc
    obtain rfl | hc := List.mem_cons.mp hc
    · decide
    · exact isNumeral_of_span hc (isNumeral_of_isExponent (Bool.and_eq_true_iff.mp h).2)
  · exact isNumeral_of_isExponent (Bool.and_eq_true_iff.mp h).2 hc

theorem isNumeral_of_isFloatingPoint {s : Text} (h : isFloatingPoint s = true) {c : Char}
    (hc : c ∈ s) : isNumeral c = true := by
  rw [isFloatingPoint.eq_def] at h
  split at h
  · obtain rfl | hc := List.mem_cons.mp hc
    · decide
    · exact isNumeral_of_isUnsigned h hc
  · exact isNumeral_of_isUnsigned h hc

theorem inputValue_eq_iff (t : FieldType) (s : Text) : inputValue t s = s ↔ sanitize t s = s := by
  constructor
  · intro h
    exact (congrArg (sanitize t) h).symm.trans ((sanitize_sanitize t _).trans h)
  · intro h
    have htext : sanitize .text s = s := by
      cases t with
      | text => exact h
      | int =>
        refine List.filter_eq_self.mpr fun c hc => decide_eq_true ?_
        by_cases hs : isFloatingPoint s = true
        · have hnumeral := isNumeral_of_isFloatingPoint hs hc
          constructor
          · rintro rfl
            exact absurd hnumeral (by decide)
          · rintro rfl
            exact absurd hnumeral (by decide)
        · rw [sanitize, if_neg hs] at h
          rw [← h] at hc
          cases hc
    rw [inputValue, htext, h]

def types : KeyTable Text FieldType where
  rows := (covered kGroups).map fun f => (keyName f.key, f.type)
  nodup := by
    rw [List.map_map]
    have hkeys := (keys_covered seen_kGroups_nodup).nodup_iff.mpr nodup_defaults
    have hnames := hkeys.map keyName_injective
    rwa [List.map_map] at hnames

def typeOf (name : Text) : FieldType := (types.lookup name).getD .int

end Input

section Server

/-- A value of a JSON object: a string, or something else as `dump` writes it. -/
inductive JsonValue
  | string (s : Text)
  | other (dump : Text)

def JsonValue.text : JsonValue → Text
  | .string s => s
  | .other dump => dump

/-- The body of a request as it is parsed. `begin` and `end` of `null` are the same, and the
elements of an array have no keys. -/
inductive Body
  | malformed
  | null
  | object (members : KeyTable Text JsonValue)
  | array (empty : Bool)
  | scalar

def Body.members : Body → KeyTable Text JsonValue
  | .object members => members
  | _ => .empty

def knownValues (members : KeyTable Text JsonValue) : KeyTable Text Text :=
  members.rows.foldl (fun values row =>
    if isKnown row.1 then values.upsert row.1 row.2.text else values) .empty

/-- `PUT /api/settings`: the status of the response, and the store. The server answers an exception
of the handler with 500. -/
def putSettings (access : Access) (s : Store) : Body → Nat × Store
  | .malformed => (400, s)
  | .array false | .scalar => (500, s)
  | body =>
    let values := knownValues body.members
    if values.rows.isEmpty then (400, s) else (200, (setMany access s values).2)

end Server

section Page

structure Input where
  type : FieldType
  value : Text

/-- A `PUT` on its way, with what the page takes over when it is answered. -/
structure Request where
  members : KeyTable Text JsonValue
  switched : Option (Key × Text) := none

/-- The settings page in a browser: its variables, its inputs, the answers of `GET /api/settings`
that it has not shown yet, and its requests that are not handled yet. -/
structure Page where
  allKeys : List Text := []
  loadedValues : KeyTable Text Text := .empty
  inputs : KeyTable Text Input := .empty
  opsState : Key → Text := fun _ => []
  loading : List (List Group) := []
  sending : List Request := []

def rowEl (p : Page) (f : Field) : Page :=
  { p with
    allKeys := p.allKeys ++ [f.key]
    loadedValues := p.loadedValues.upsert f.key f.value
    inputs := p.inputs.upsert f.key ⟨f.type, inputValue f.type f.value⟩ }

def render (p : Page) (groups : List Group) : Page :=
  (fieldsOf groups).foldl rowEl { p with allKeys := [], loadedValues := .empty, inputs := .empty }

def isSwitch : Key → Bool
  | .opcEnabled | .dataExchangeEnabled => true
  | _ => false

def load (p : Page) (groups : List Group) : Page :=
  let p := render p groups
  { p with opsState := fun k =>
      if isSwitch k then ((fieldsOf groups).find? (·.key == keyName k)).elim (p.opsState k) (·.value)
      else p.opsState k }

def edit (p : Page) (key value : Text) : Page :=
  match p.inputs.lookup key with
  | some input =>
    { p with inputs := p.inputs.upsert key { input with value := sanitize input.type value } }
  | none => p

def changedValue (p : Page) (key : Text) : Option Text :=
  (p.inputs.lookup key).bind fun input =>
    if p.loadedValues.lookup key = some input.value then none else some input.value

def payload (p : Page) : KeyTable Text JsonValue :=
  p.allKeys.foldl (fun body key =>
    match changedValue p key with
    | some value => body.upsert key (.string value)
    | none => body) .empty

def save (p : Page) : Page :=
  if (payload p).rows.isEmpty then p else { p with sending := p.sending ++ [⟨payload p, none⟩] }

def toggleOps (p : Page) (key : Key) : Page :=
  let next : Text := if p.opsState key = ['1'] then ['0'] else ['1']
  { p with sending := p.sending ++
      [⟨KeyTable.empty.upsert (keyName key) (.string next), some (key, next)⟩] }

def answered (p : Page) (n : Nat) (r : Request) : Page :=
  { p with
    sending := p.sending.eraseIdx n
    opsState := r.switched.elim p.opsState fun kv => Function.update p.opsState kv.1 kv.2 }

end Page

section Service

variable {ι : Type} [DecidableEq ι]

structure Service (ι : Type) where
  store : Store
  pages : ι → Page

/-- What happens next: the answer of a `GET` is made or shown, somebody uses a page, or one of its
`PUT`s is handled or gets lost. -/
inductive Action (ι : Type)
  | get (i : ι)
  | show (i : ι) (n : Nat)
  | edit (i : ι) (key value : Text)
  | save (i : ι)
  | toggle (i : ι) (key : Key)
  | put (i : ι) (n : Nat) (access : Access)
  | lose (i : ι) (n : Nat)

def Service.setPage (s : Service ι) (i : ι) (p : Page) : Service ι :=
  { s with pages := Function.update s.pages i p }

def step (s : Service ι) : Action ι → Service ι
  | .get i =>
    let p := s.pages i
    s.setPage i { p with loading := p.loading ++ [uiSchema s.store.cache] }
  | .show i n =>
    let p := s.pages i
    match p.loading[n]? with
    | some groups => s.setPage i (load { p with loading := p.loading.eraseIdx n } groups)
    | none => s
  | .edit i key value => s.setPage i (edit (s.pages i) key value)
  | .save i => s.setPage i (save (s.pages i))
  | .toggle i key => if isSwitch key then s.setPage i (toggleOps (s.pages i) key) else s
  | .put i n access =>
    let p := s.pages i
    match p.sending[n]? with
    | some r =>
      { store := (putSettings access s.store (.object r.members)).2
        pages := Function.update s.pages i (answered p n r) }
    | none => s
  | .lose i n => s.setPage i { s.pages i with sending := (s.pages i).sending.eraseIdx n }

def run (s : Service ι) (actions : List (Action ι)) : Service ι := actions.foldl step s

def start (store : Store) : Service ι := ⟨store, fun _ => {}⟩

/-- Somebody sets this setting on a page. -/
def Sets (key : Text) : Action ι → Prop
  | .edit _ k _ => k = key
  | .toggle _ k => keyName k = key
  | _ => False

end Service

section Lookups

variable {p : Page} {k v : Text} {current : KeyTable Text Text}

theorem typeOf_keyName {d : FieldDef} (hd : d ∈ covered kGroups) : typeOf (keyName d.key) = d.type := by
  have hrow : (keyName d.key, d.type) ∈ types.rows := List.mem_map_of_mem hd
  have htype := types.lookup_of_mem hrow
  exact congrArg (Option.getD · .int) htype

theorem type_of_mem_uiSchema {f : Field} (h : f ∈ fieldsOf (uiSchema current)) :
    f.type = typeOf f.key := by
  rw [fieldsOf_uiSchema] at h
  obtain ⟨d, hd, rfl⟩ := List.mem_map.mp h
  exact (typeOf_keyName hd).symm

theorem lookup_knownValues (members : KeyTable Text JsonValue) (k : Text) :
    (knownValues members).lookup k =
      (members.lookup k).elim none fun v => if isKnown k then some v.text else none := by
  have h := KeyTable.foldl_lookup (fun values row =>
      if isKnown row.1 then values.upsert row.1 row.2.text else values) KeyTable.lookup
    (fun k (v : JsonValue) o => if isKnown k then some v.text else o) ?_ members
    (.empty : KeyTable Text Text) k
  · exact h
  · intro values row k
    by_cases hk : k = row.1
    · subst hk
      by_cases hknown : isKnown row.1 <;> simp [hknown]
    · rw [if_neg hk]
      split
      · rw [KeyTable.lookup_upsert, if_neg hk]
      · rfl

theorem lookup_payload (p : Page) (k : Text) : (payload p).lookup k =
    if k ∈ p.allKeys then (changedValue p k).map .string else none := by
  suffices key : ∀ (keys : List Text) (body : KeyTable Text JsonValue),
      (keys.foldl (fun body key =>
        match changedValue p key with
        | some value => body.upsert key (.string value)
        | none => body) body).lookup k =
      if k ∈ keys then ((changedValue p k).map .string).or (body.lookup k) else body.lookup k by
    rw [payload, key]
    simp
  intro keys
  induction keys with
  | nil => exact fun body => rfl
  | cons key keys ih =>
    intro body
    rw [List.foldl_cons, ih]
    by_cases hk : k = key
    · subst hk
      cases changedValue p k <;> simp
    · have hbody : (match changedValue p key with
          | some value => body.upsert key (.string value)
          | none => body).lookup k = body.lookup k := by
        cases changedValue p key with
        | some value => exact (KeyTable.lookup_upsert _ _ _ _).trans (if_neg hk)
        | none => rfl
      simp [hbody, hk]

def fieldTable (current : KeyTable Text Text) : KeyTable Text Field where
  rows := (fieldsOf (uiSchema current)).map fun f => (f.key, f)
  nodup := by
    rw [List.map_map]
    exact nodup_keys_uiSchema current

end Lookups

section Untouched

variable {ι : Type} [DecidableEq ι] {p : Page} {k : Text} {store : Store} {s : Service ι}

structure Leaves (k : Text) (p : Page) : Prop where
  shown : ∀ input, p.inputs.lookup k = some input → p.loadedValues.lookup k = some input.value
  loading : ∀ groups ∈ p.loading, ∀ f ∈ fieldsOf groups, f.key = k →
    sanitize f.type f.value = f.value
  sending : ∀ r ∈ p.sending, r.members.lookup k = none

theorem Leaves.changedValue (h : Leaves k p) : changedValue p k = none := by
  rw [SettingsPage.changedValue]
  cases hi : p.inputs.lookup k with
  | none => rfl
  | some input => exact if_pos (h.shown input hi)

theorem leaves_rowEl {f : Field} (hf : f.key = k → sanitize f.type f.value = f.value)
    (h : Leaves k p) : Leaves k (rowEl p f) := by
  refine ⟨fun input hi => ?_, h.loading, h.sending⟩
  simp only [rowEl, KeyTable.lookup_upsert] at hi ⊢
  by_cases hk : k = f.key
  · rw [if_pos hk, Option.some.injEq] at hi
    rw [if_pos hk, ← hi, (inputValue_eq_iff _ _).mpr (hf hk.symm)]
  · rw [if_neg hk] at hi ⊢
    exact h.shown input hi

theorem leaves_load {groups : List Group} (h : Leaves k p)
    (hgroups : ∀ f ∈ fieldsOf groups, f.key = k → sanitize f.type f.value = f.value) :
    Leaves k (load p groups) := by
  suffices key : ∀ (fields : List Field) (p : Page), Leaves k p →
      (∀ f ∈ fields, f.key = k → sanitize f.type f.value = f.value) →
        Leaves k (fields.foldl rowEl p) by
    have hrender := key _ { p with allKeys := [], loadedValues := .empty, inputs := .empty }
      ⟨nofun, h.loading, h.sending⟩ hgroups
    exact ⟨hrender.shown, hrender.loading, hrender.sending⟩
  intro fields
  induction fields with
  | nil => exact fun p hp _ => hp
  | cons f fields ih =>
    intro p hp hf
    apply ih _ (leaves_rowEl (hf f List.mem_cons_self) hp)
    exact fun f' hf' => hf f' (List.mem_cons_of_mem f hf')

theorem leaves_edit {key : Text} (hk : ¬key = k) (value : Text) (h : Leaves k p) :
    Leaves k (edit p key value) := by
  rw [edit]
  split
  · refine ⟨fun input hi => ?_, h.loading, h.sending⟩
    rw [KeyTable.lookup_upsert, if_neg (Ne.symm hk)] at hi
    exact h.shown input hi
  · exact h

theorem leaves_save (h : Leaves k p) : Leaves k (save p) := by
  rw [save]
  split
  · exact h
  · refine ⟨h.shown, h.loading, fun r hr => ?_⟩
    obtain hr | hr := List.mem_append.mp hr
    · exact h.sending r hr
    · obtain rfl := List.mem_singleton.mp hr
      have hp := lookup_payload p k
      rw [h.changedValue] at hp
      simpa using hp

theorem leaves_toggleOps {key : Key} (hk : ¬keyName key = k) (h : Leaves k p) :
    Leaves k (toggleOps p key) := by
  refine ⟨h.shown, h.loading, fun r hr => ?_⟩
  obtain hr | hr := List.mem_append.mp hr
  · exact h.sending r hr
  · obtain rfl := List.mem_singleton.mp hr
    simpa using Ne.symm hk

theorem leaves_answered (h : Leaves k p) (n : Nat) (r : Request) : Leaves k (answered p n r) :=
  ⟨h.shown, h.loading, fun r hr => h.sending r (List.mem_of_mem_eraseIdx hr)⟩

structure Kept (store : Store) (k : Text) (s : Service ι) : Prop where
  keys : HasKeys s.store
  cache : s.store.cache.lookup k = store.cache.lookup k
  table : s.store.table.lookup k = store.table.lookup k
  pages : ∀ i, Leaves k (s.pages i)

theorem kept_setPage (h : Kept store k s) {i : ι} (hp : Leaves k p) :
    Kept store k (s.setPage i p) := by
  refine ⟨h.keys, h.cache, h.table, fun j => ?_⟩
  by_cases hj : j = i
  · subst hj
    simpa [Service.setPage] using hp
  · simpa [Service.setPage, hj] using h.pages j

theorem hasKeys_putSettings (access : Access) {s : Store} (h : HasKeys s) (body : Body) :
    HasKeys (putSettings access s body).2 := by
  rw [putSettings.eq_def]
  split
  · exact h
  · exact h
  · exact h
  · dsimp only
    split
    · exact h
    · exact SettingsPersistence.hasKeys_setMany access _ h

theorem putSettings_other (access : Access) {s : Store} (h : HasKeys s)
    {members : KeyTable Text JsonValue} (hk : members.lookup k = none) :
    (putSettings access s (.object members)).2.cache.lookup k = s.cache.lookup k ∧
      (putSettings access s (.object members)).2.table.lookup k = s.table.lookup k := by
  have hvalues : (knownValues members).lookup k = none := by
    rw [lookup_knownValues]
    rw [hk]
    rfl
  rw [putSettings.eq_def]
  dsimp only [Body.members]
  split
  · exact ⟨rfl, rfl⟩
  · exact SettingsPersistence.setMany_other access h hvalues

/-- A setting that the pages show as it is. -/
def Shows (store : Store) (k : Text) : Prop :=
  ∀ v, store.cache.lookup k = some v → sanitize (typeOf k) v = v

theorem kept_step (hstore : Shows store k) (h : Kept store k s) {a : Action ι} (ha : ¬Sets k a) :
    Kept store k (step s a) := by
  cases a with
  | get i =>
    apply kept_setPage h
    refine ⟨(h.pages i).shown, fun groups hg f hf hk => ?_, (h.pages i).sending⟩
    obtain hg | hg := List.mem_append.mp hg
    · exact (h.pages i).loading groups hg f hf hk
    · obtain rfl := List.mem_singleton.mp hg
      rw [type_of_mem_uiSchema hf, value_of_mem_uiSchema hf, hk]
      cases hv : s.store.cache.lookup k with
      | some v => exact hstore v (h.cache.symm.trans hv)
      | none =>
        have hknown := (mem_keys_uiSchema _ f.key).mp (List.mem_map_of_mem hf)
        rw [hk, ← h.keys k, hv] at hknown
        cases hknown
  | «show» i n =>
    simp only [step]
    split
    · rename_i groups hg
      apply kept_setPage h
      apply leaves_load
      · refine ⟨(h.pages i).shown, fun groups hg => ?_, (h.pages i).sending⟩
        exact (h.pages i).loading groups (List.mem_of_mem_eraseIdx hg)
      · exact (h.pages i).loading groups (List.mem_of_getElem? hg)
    · exact h
  | edit i key value => exact kept_setPage h (leaves_edit ha value (h.pages i))
  | save i => exact kept_setPage h (leaves_save (h.pages i))
  | toggle i key =>
    simp only [step]
    split
    · exact kept_setPage h (leaves_toggleOps ha (h.pages i))
    · exact h
  | put i n access =>
    simp only [step]
    split
    · rename_i r hr
      have hother := putSettings_other access h.keys
        ((h.pages i).sending r (List.mem_of_getElem? hr))
      have hkept : Kept store k (⟨(putSettings access s.store (.object r.members)).2, s.pages⟩ :
          Service ι) :=
        ⟨hasKeys_putSettings access h.keys _, hother.1.trans h.cache, hother.2.trans h.table,
          h.pages⟩
      exact kept_setPage hkept (leaves_answered (h.pages i) n r)
    · exact h
  | lose i n =>
    apply kept_setPage h
    exact ⟨(h.pages i).shown, (h.pages i).loading,
      fun r hr => (h.pages i).sending r (List.mem_of_mem_eraseIdx hr)⟩

theorem kept_run (hstore : Shows store k) {actions : List (Action ι)}
    (ha : ∀ a ∈ actions, ¬Sets k a) (h : Kept store k s) : Kept store k (run s actions) := by
  induction actions generalizing s with
  | nil => exact h
  | cons a actions ih =>
    apply ih fun a' ha' => ha a' (List.mem_cons_of_mem a ha')
    exact kept_step hstore h (ha a List.mem_cons_self)

omit [DecidableEq ι] in
theorem kept_start (hkeys : HasKeys store) (k : Text) : Kept store k (start store : Service ι) :=
  ⟨hkeys, rfl, rfl, fun _ => ⟨nofun, nofun, nofun⟩⟩

end Untouched

section Loading

variable {p : Page} {k v : Text} {current : KeyTable Text Text} {s : Store}

theorem lookup_putSettings (access : Access) (members : KeyTable Text JsonValue) (k : Text) :
    (putSettings access s (.object members)).2.cache.lookup k =
      ((knownValues members).lookup k).elim (s.cache.lookup k)
        fun v => (s.cache.lookup k).map fun _ => v := by
  rw [putSettings.eq_def]
  dsimp only [Body.members]
  split
  · rename_i hempty
    rw [(KeyTable.isEmpty_rows_iff _).mp hempty k]
    rfl
  · exact SettingsPersistence.lookup_setMany access s _ k

variable (current) in
theorem exists_field (hk : isKnown k = true) : ∃ f, (fieldTable current).lookup k = some f ∧
    f.type = typeOf k ∧ f.value = (current.lookup k).getD [] := by
  obtain ⟨f, hf, rfl⟩ := List.mem_map.mp ((mem_keys_uiSchema current k).mpr hk)
  have hrow : (f.key, f) ∈ (fieldTable current).rows := List.mem_map_of_mem hf
  exact ⟨f, KeyTable.lookup_of_mem _ hrow, type_of_mem_uiSchema hf, value_of_mem_uiSchema hf⟩

theorem foldl_fields {β : Type} (get : Page → Text → β) (put : Field → β)
    (hget : ∀ p f k, get (rowEl p f) k = if k = f.key then put f else get p k)
    (hput : ∀ f k, put { f with key := k } = put f) {f : Field}
    (hf : (fieldTable current).lookup k = some f) :
    get ((fieldsOf (uiSchema current)).foldl rowEl p) k = put f := by
  have h := KeyTable.foldl_lookup (fun p r => rowEl p { r.2 with key := r.1 }) get
    (fun _ f _ => put f) (fun p r k => (hget p _ k).trans (by rw [hput]))
    (fieldTable current) p k
  rw [fieldTable, List.foldl_map] at h
  refine h.trans ?_
  rw [← fieldTable, hf]
  rfl

theorem allKeys_foldl (fields : List Field) (p : Page) :
    (fields.foldl rowEl p).allKeys = p.allKeys ++ fields.map (·.key) := by
  induction fields generalizing p with
  | nil => exact (List.append_nil _).symm
  | cons f fields ih =>
    rw [List.foldl_cons, ih]
    simp [rowEl]

theorem sending_foldl (fields : List Field) (p : Page) :
    (fields.foldl rowEl p).sending = p.sending := by
  induction fields generalizing p with
  | nil => rfl
  | cons f fields ih => exact ih (rowEl p f)

theorem sending_load (p : Page) (groups : List Group) : (load p groups).sending = p.sending :=
  sending_foldl _ _

structure Loaded (p : Page) (current : KeyTable Text Text) : Prop where
  keys : ∀ k, k ∈ p.allKeys ↔ isKnown k = true
  loaded : ∀ k, isKnown k = true → p.loadedValues.lookup k = some ((current.lookup k).getD [])
  inputs : ∀ k, isKnown k = true → p.inputs.lookup k =
    some ⟨typeOf k, inputValue (typeOf k) ((current.lookup k).getD [])⟩

theorem loaded_load (p : Page) (current : KeyTable Text Text) :
    Loaded (load p (uiSchema current)) current := by
  refine ⟨fun k => ?_, fun k hk => ?_, fun k hk => ?_⟩
  · have hkeys := allKeys_foldl (fieldsOf (uiSchema current))
      { p with allKeys := [], loadedValues := .empty, inputs := .empty }
    rw [List.nil_append] at hkeys
    rw [← mem_keys_uiSchema current k, ← hkeys]
    rfl
  · obtain ⟨f, hf, -, hvalue⟩ := exists_field current hk
    rw [← hvalue]
    refine foldl_fields (fun p k => p.loadedValues.lookup k) (fun f => some f.value)
      (fun p f k => KeyTable.lookup_upsert _ _ _ _) (fun _ _ => rfl) hf
  · obtain ⟨f, hf, htype, hvalue⟩ := exists_field current hk
    rw [← hvalue, ← htype]
    refine foldl_fields (fun p k => p.inputs.lookup k)
      (fun f => some ⟨f.type, inputValue f.type f.value⟩)
      (fun p f k => KeyTable.lookup_upsert _ _ _ _) (fun _ _ => rfl) hf

theorem changedValue_load (hk : isKnown k = true) (hv : current.lookup k = some v) :
    changedValue (load p (uiSchema current)) k =
      if sanitize (typeOf k) v = v then none else some (inputValue (typeOf k) v) := by
  have h := loaded_load p current
  rw [changedValue, h.inputs k hk, Option.bind_some, h.loaded k hk, hv]
  simp only [Option.getD_some, Option.some.injEq]
  rw [if_congr (eq_comm.trans (inputValue_eq_iff _ _)) rfl rfl]

end Loading

section Rounds

variable {ι : Type} [DecidableEq ι]

theorem run_append (s : Service ι) (first then_ : List (Action ι)) :
    run s (first ++ then_) = run (run s first) then_ := List.foldl_append

theorem eraseIdx_concat {α : Type} (xs : List α) (x : α) :
    (xs ++ [x]).eraseIdx xs.length = xs := by
  rw [List.eraseIdx_append_of_length_le (Nat.le_refl _), Nat.sub_self]
  exact List.append_nil xs

theorem run_load (s : Service ι) (i : ι) :
    run s [.get i, .show i (s.pages i).loading.length] =
      s.setPage i (load (s.pages i) (uiSchema s.store.cache)) := by
  simp only [run, List.foldl_cons, List.foldl_nil, step, Service.setPage, Function.update_self,
    List.getElem?_concat_length, eraseIdx_concat, Function.update_idem]

theorem run_save (s : Service ι) (i : ι) (access : Access) :
    run s [.save i, .put i (s.pages i).sending.length access] =
      ⟨(putSettings access s.store (.object (payload (s.pages i)))).2, s.pages⟩ := by
  cases hempty : (payload (s.pages i)).rows.isEmpty with
  | true =>
    have hnone : (s.pages i).sending[(s.pages i).sending.length]? = none :=
      List.getElem?_eq_none (Nat.le_refl _)
    have hvalues : (knownValues (payload (s.pages i))).rows.isEmpty = true := by
      rw [knownValues, List.isEmpty_iff.mp hempty]
      rfl
    have hput : (putSettings access s.store (.object (payload (s.pages i)))).2 = s.store := by
      rw [putSettings.eq_def]
      dsimp only [Body.members]
      rw [if_pos hvalues]
    simp only [run, List.foldl_cons, List.foldl_nil, step, Service.setPage, save, hempty, if_true,
      hnone, hput, Function.update_eq_self]
  | false =>
    simp only [run, List.foldl_cons, List.foldl_nil, step, Service.setPage, save, hempty,
      Bool.false_eq_true, if_false, Function.update_self, List.getElem?_concat_length, answered,
      eraseIdx_concat, Option.elim_none, Function.update_idem, Function.update_eq_self]

end Rounds

section Fresh

def fresh : Store := (init .works { table := .empty }).2

theorem hasKeys_fresh : HasKeys fresh := SettingsPersistence.hasKeys_init .works _

theorem default_shown : ∀ d ∈ covered kGroups, ∀ kv ∈ kDefaults, kv.1 = d.key →
    sanitize d.type kv.2 = kv.2 := by decide +kernel

theorem shows_fresh (k : Text) : Shows fresh k := by
  intro v hv
  rw [fresh, SettingsPersistence.lookup_init_cache (s := { table := .empty }) nofun] at hv
  obtain ⟨kv, hkv, heq⟩ := List.mem_map.mp (KeyTable.mem_of_lookup (t := defaultTable) hv)
  obtain ⟨rfl, rfl⟩ := Prod.mk.inj heq
  obtain ⟨d, hd, hkey⟩ := List.mem_map.mp
    ((keys_covered seen_kGroups_nodup).mem_iff.mpr (mem_defaults kv.1))
  rw [← hkey, typeOf_keyName hd]
  exact default_shown d hd kv hkv hkey.symm

end Fresh

section Kept

/-- Somebody loads a page and saves it as it is. -/
def saveUntouched (store : Store) (access : Access) : Service Unit :=
  run (start store) ([.get (), .show () 0] ++ [.save (), .put () 0 access])

theorem lookup_saveUntouched (store : Store) (hkeys : HasKeys store) {k v : Text}
    (hv : store.cache.lookup k = some v) (hne : sanitize (typeOf k) v ≠ v) (access : Access) :
    (saveUntouched store access).store.cache.lookup k = some (inputValue (typeOf k) v) := by
  have hk : isKnown k = true := by
    rw [← hkeys k, hv]
    rfl
  have hload : run (start store : Service Unit) [.get (), .show () 0] =
      (start store).setPage () (load {} (uiSchema store.cache)) := run_load (start store) ()
  have hpage : ((start store : Service Unit).setPage () (load {} (uiSchema store.cache))).pages () =
      load {} (uiSchema store.cache) := by simp [Service.setPage]
  have hsave := run_save ((start store : Service Unit).setPage () (load {} (uiSchema store.cache))) ()
    access
  rw [hpage, sending_load] at hsave
  have hkeys' := ((loaded_load {} store.cache).keys k).mpr hk
  rw [saveUntouched, run_append, hload]
  refine (congrArg (fun s : Service Unit => s.store.cache.lookup k) hsave).trans ?_
  rw [lookup_putSettings, lookup_knownValues, lookup_payload, if_pos hkeys', changedValue_load hk hv,
    if_neg hne]
  simp only [Option.map_some, Option.elim_some, if_pos hk, JsonValue.text, Service.setPage, start, hv]

/-- On any pages, a setting that nobody sets stays as it is, whatever else is saved, exactly if it is
a value that the input of the setting takes; else it is changed when a page is loaded and saved. -/
theorem kept_iff (store : Store) (hkeys : HasKeys store) (k : Text) :
    ((∀ (ι : Type) [DecidableEq ι] (actions : List (Action ι)), (∀ a ∈ actions, ¬Sets k a) →
      (run (start store) actions).store.cache.lookup k = store.cache.lookup k ∧
        (run (start store) actions).store.table.lookup k = store.table.lookup k) ↔
      Shows store k) ∧
    (¬Shows store k → ∀ access,
      (saveUntouched store access).store.cache.lookup k ≠ store.cache.lookup k) := by
  have hchanged : ¬Shows store k → ∀ access,
      (saveUntouched store access).store.cache.lookup k ≠ store.cache.lookup k := by
    intro hshows access
    simp only [Shows, not_forall] at hshows
    obtain ⟨v, hv, hne⟩ := hshows
    rw [lookup_saveUntouched store hkeys hv hne, hv, ne_eq, Option.some.injEq, inputValue_eq_iff]
    exact hne
  refine ⟨⟨fun h => ?_, fun hstore ι _ actions ha => ?_⟩, hchanged⟩
  · by_contra hshows
    exact hchanged hshows .works (h Unit _ (by simp [Sets])).1
  · have hkept := kept_run hstore ha (kept_start (ι := ι) hkeys k)
    exact ⟨hkept.cache, hkept.table⟩

theorem kept_folderPath : (run (start fresh : Service Unit) [.get (), .show () 0,
    .edit () (keyName .ns) ['4'], .save (), .put () 0 .works]).store.cache.lookup
      (keyName .folderPath) = fresh.cache.lookup (keyName .folderPath) := by
  refine ((kept_iff fresh hasKeys_fresh (keyName .folderPath)).1.mpr (shows_fresh _) Unit _ ?_).1
  intro a ha hsets
  simp only [List.mem_cons, List.not_mem_nil, or_false] at ha
  obtain rfl | rfl | rfl | rfl | rfl := ha
  · exact hsets
  · exact hsets
  · exact absurd (keyName_injective hsets) (by decide)
  · exact hsets
  · exact hsets

end Kept

section Again

variable {ι : Type} [DecidableEq ι] {p : Page} {k : Text} {store : Store} {s : Service ι}
variable {P P' : Prop}

structure HasField (k : Text) (P : Prop) (p : Page) : Prop where
  key : k ∈ p.allKeys
  input : ∃ value, p.inputs.lookup k = some ⟨typeOf k, value⟩ ∧ sanitize (typeOf k) value = value
  loaded : ∃ v, p.loadedValues.lookup k = some v ∧ (sanitize (typeOf k) v = v → P)

structure Tidy (k : Text) (P : Prop) (p : Page) : Prop where
  shown : p.allKeys ≠ [] → HasField k P p
  loading : ∀ groups ∈ p.loading, ∃ current : KeyTable Text Text, groups = uiSchema current ∧
    (sanitize (typeOf k) ((current.lookup k).getD []) = (current.lookup k).getD [] → P)
  sending : ∀ r ∈ p.sending, ∀ v, r.members.lookup k = some v → sanitize (typeOf k) v.text = v.text

theorem Tidy.mono (h : Tidy k P p) (hP : P → P') : Tidy k P' p := by
  refine ⟨fun hp => ?_, fun groups hg => ?_, h.sending⟩
  · obtain ⟨v, hv, hstable⟩ := (h.shown hp).loaded
    exact ⟨(h.shown hp).key, (h.shown hp).input, v, hv, fun hs => hP (hstable hs)⟩
  · obtain ⟨current, rfl, hstable⟩ := h.loading groups hg
    exact ⟨current, rfl, fun hs => hP (hstable hs)⟩

theorem tidy_load (hk : isKnown k = true) (h : Tidy k P p) {current : KeyTable Text Text}
    (hcurrent : sanitize (typeOf k) ((current.lookup k).getD []) = (current.lookup k).getD [] → P) :
    Tidy k P (load p (uiSchema current)) := by
  have hload := loaded_load p current
  refine ⟨fun _ => ⟨(hload.keys k).mpr hk, ⟨_, hload.inputs k hk, sanitize_sanitize _ _⟩,
    _, hload.loaded k hk, hcurrent⟩, ?_, ?_⟩
  · suffices key : ∀ (fields : List Field) (p : Page), (fields.foldl rowEl p).loading = p.loading by
      exact fun groups hg => h.loading groups (by rwa [load, render, key] at hg)
    intro fields
    induction fields with
    | nil => exact fun _ => rfl
    | cons f fields ih => exact fun p => ih (rowEl p f)
  · exact fun r hr => h.sending r (sending_load p _ ▸ hr)

theorem tidy_edit (h : Tidy k P p) (key value : Text) : Tidy k P (edit p key value) := by
  rw [edit]
  split
  · rename_i input hi
    refine ⟨fun hp => ⟨(h.shown hp).key, ?_, (h.shown hp).loaded⟩, h.loading, h.sending⟩
    obtain ⟨shown, hshown, hstable⟩ := (h.shown hp).input
    by_cases hk : k = key
    · subst hk
      obtain rfl := Option.some.inj (hi.symm.trans hshown)
      exact ⟨sanitize (typeOf k) value, by simp, sanitize_sanitize _ _⟩
    · exact ⟨shown, by rw [KeyTable.lookup_upsert, if_neg hk, hshown], hstable⟩
  · exact h

theorem sanitize_changedValue (h : Tidy k P p) (hp : k ∈ p.allKeys) {w : Text}
    (hw : changedValue p k = some w) : sanitize (typeOf k) w = w := by
  obtain ⟨value, hvalue, hstable⟩ := (h.shown (List.ne_nil_of_mem hp)).input
  rw [changedValue, hvalue, Option.bind_some] at hw
  split at hw
  · cases hw
  · obtain rfl := Option.some.inj hw
    exact hstable

theorem tidy_save (h : Tidy k P p) : Tidy k P (save p) := by
  rw [save]
  split
  · exact h
  · refine ⟨fun hp => ⟨(h.shown hp).key, (h.shown hp).input, (h.shown hp).loaded⟩, h.loading,
      fun r hr v hv => ?_⟩
    obtain hr | hr := List.mem_append.mp hr
    · exact h.sending r hr v hv
    · obtain rfl := List.mem_singleton.mp hr
      rw [lookup_payload] at hv
      split at hv
      · rename_i hmem
        obtain ⟨w, hw, rfl⟩ := Option.map_eq_some_iff.mp hv
        exact sanitize_changedValue h hmem hw
      · cases hv

theorem sanitize_switch (t : FieldType) : sanitize t ['0'] = ['0'] ∧ sanitize t ['1'] = ['1'] := by
  cases t with
  | text => decide
  | int => decide

theorem tidy_toggleOps (h : Tidy k P p) (key : Key) : Tidy k P (toggleOps p key) := by
  refine ⟨fun hp => ⟨(h.shown hp).key, (h.shown hp).input, (h.shown hp).loaded⟩, h.loading,
    fun r hr v hv => ?_⟩
  obtain hr | hr := List.mem_append.mp hr
  · exact h.sending r hr v hv
  · obtain rfl := List.mem_singleton.mp hr
    rw [KeyTable.lookup_upsert] at hv
    split at hv
    · obtain rfl := Option.some.inj hv
      dsimp only [JsonValue.text]
      split
      · exact (sanitize_switch _).1
      · exact (sanitize_switch _).2
    · cases hv

variable (store) in
theorem shows_putSettings (access : Access) {members : KeyTable Text JsonValue}
    (hm : ∀ v, members.lookup k = some v → sanitize (typeOf k) v.text = v.text)
    (h : Shows store k) : Shows (putSettings access store (.object members)).2 k := by
  intro v hv
  rw [lookup_putSettings, lookup_knownValues] at hv
  cases hmem : members.lookup k with
  | none =>
    rw [hmem] at hv
    exact h v hv
  | some u =>
    rw [hmem, Option.elim_some] at hv
    by_cases hk : isKnown k = true
    · rw [if_pos hk, Option.elim_some] at hv
      obtain ⟨-, -, rfl⟩ := Option.map_eq_some_iff.mp hv
      exact hm u hmem
    · rw [if_neg hk] at hv
      exact h v hv

theorem tidy_setPage {i : ι} (h : ∀ i, Tidy k P (s.pages i)) (hp : Tidy k P p) :
    ∀ j, Tidy k P ((s.setPage i p).pages j) := by
  intro j
  by_cases hj : j = i
  · subst hj
    simpa [Service.setPage] using hp
  · simpa [Service.setPage, hj] using h j

theorem tidy_step (hk : isKnown k = true) (h : ∀ i, Tidy k (Shows s.store k) (s.pages i))
    (hkeys : HasKeys s.store) (a : Action ι) :
    HasKeys (step s a).store ∧
      ∀ i, Tidy k (Shows (step s a).store k) ((step s a).pages i) := by
  cases a with
  | get i =>
    refine ⟨hkeys, tidy_setPage h ⟨(fun hp => ?_), fun groups hg => ?_, (h i).sending⟩⟩
    · exact ⟨((h i).shown hp).key, ((h i).shown hp).input, ((h i).shown hp).loaded⟩
    · obtain hg | hg := List.mem_append.mp hg
      · exact (h i).loading groups hg
      · obtain rfl := List.mem_singleton.mp hg
        refine ⟨s.store.cache, rfl, fun hs v hv => ?_⟩
        have hv : s.store.cache.lookup k = some v := hv
        rwa [hv] at hs
  | «show» i n =>
    simp only [step]
    split
    · rename_i groups hg
      obtain ⟨current, rfl, hcurrent⟩ := (h i).loading groups (List.mem_of_getElem? hg)
      have hp : Tidy k (Shows s.store k)
          { s.pages i with loading := (s.pages i).loading.eraseIdx n } := by
        refine ⟨fun hp => ?_, fun groups hg => ?_, (h i).sending⟩
        · exact ⟨((h i).shown hp).key, ((h i).shown hp).input, ((h i).shown hp).loaded⟩
        · exact (h i).loading groups (List.mem_of_mem_eraseIdx hg)
      exact ⟨hkeys, tidy_setPage h (tidy_load hk hp hcurrent)⟩
    · exact ⟨hkeys, h⟩
  | edit i key value => exact ⟨hkeys, tidy_setPage h (tidy_edit (h i) key value)⟩
  | save i => exact ⟨hkeys, tidy_setPage h (tidy_save (h i))⟩
  | toggle i key =>
    simp only [step]
    split
    · exact ⟨hkeys, tidy_setPage h (tidy_toggleOps (h i) key)⟩
    · exact ⟨hkeys, h⟩
  | put i n access =>
    simp only [step]
    split
    · rename_i r hr
      have hsent := (h i).sending r (List.mem_of_getElem? hr)
      have hmono := shows_putSettings s.store access hsent
      refine ⟨hasKeys_putSettings access hkeys _, fun j => ?_⟩
      refine tidy_setPage (s := s) (fun j => (h j).mono hmono) (Tidy.mono ?_ hmono) j
      exact ⟨fun hp => ⟨((h i).shown hp).key, ((h i).shown hp).input, ((h i).shown hp).loaded⟩,
        (h i).loading, fun r hr => (h i).sending r (List.mem_of_mem_eraseIdx hr)⟩
    · exact ⟨hkeys, h⟩
  | lose i n =>
    refine ⟨hkeys, tidy_setPage h ⟨fun hp => ?_, (h i).loading, fun r hr => ?_⟩⟩
    · exact ⟨((h i).shown hp).key, ((h i).shown hp).input, ((h i).shown hp).loaded⟩
    · exact (h i).sending r (List.mem_of_mem_eraseIdx hr)

theorem tidy_run (hk : isKnown k = true) (actions : List (Action ι))
    (h : ∀ i, Tidy k (Shows s.store k) (s.pages i)) (hkeys : HasKeys s.store) :
    HasKeys (run s actions).store ∧
      ∀ i, Tidy k (Shows (run s actions).store k) ((run s actions).pages i) := by
  induction actions generalizing s with
  | nil => exact ⟨hkeys, h⟩
  | cons a actions ih =>
    obtain ⟨hkeys', h'⟩ := tidy_step hk h hkeys a
    exact ih h' hkeys'

/-- After a save the store has what the changed fields show, and every other setting as the page
would show it. -/
theorem stored_save (hk : isKnown k = true) (hkeys : HasKeys store) (h : Tidy k (Shows store k) p)
    (hp : p.allKeys ≠ []) (access : Access) :
    Shows (putSettings access store (.object (payload p))).2 k ∧
      ∀ w, changedValue p k = some w →
        (putSettings access store (.object (payload p))).2.cache.lookup k = some w := by
  have hmem := (h.shown hp).key
  obtain ⟨u, hu⟩ : ∃ u, store.cache.lookup k = some u := by
    rw [← Option.isSome_iff_exists, hkeys k, hk]
  rw [Shows, lookup_putSettings, lookup_knownValues, lookup_payload, if_pos hmem]
  cases hw : changedValue p k with
  | some w =>
    simp only [Option.map_some, Option.elim_some, hk, if_true, hu, Option.some.injEq,
      JsonValue.text]
    refine ⟨?_, fun _ h => h⟩
    rintro v rfl
    exact sanitize_changedValue h hmem hw
  | none =>
    refine ⟨?_, fun w hw => by cases hw⟩
    obtain ⟨value, hvalue, hstable⟩ := (h.shown hp).input
    obtain ⟨v, hv, hloaded⟩ := (h.shown hp).loaded
    rw [changedValue, hvalue, Option.bind_some, hv] at hw
    have heq : v = value := by
      by_contra hne
      simp [hne] at hw
    exact hloaded (heq ▸ hstable)

/-- Whatever has happened on the pages, a page that is saved and loaded again has nothing more to
save: its fields show what is stored, and this is what had been changed on the page. -/
theorem save_again (store : Store) (hkeys : HasKeys store) (actions : List (Action ι)) (i : ι)
    (access : Access) (hp : ((run (start store) actions).pages i).allKeys ≠ []) :
    let s := run (start store) actions
    let saved := run s [.save i, .put i (s.pages i).sending.length access]
    let again := run saved [.get i, .show i (saved.pages i).loading.length]
    (payload (again.pages i)).rows = [] ∧
      ∀ k, isKnown k = true → ∃ v, again.store.cache.lookup k = some v ∧
        (again.pages i).inputs.lookup k = some ⟨typeOf k, v⟩ ∧
        ∀ w, changedValue (s.pages i) k = some w → v = w := by
  intro s saved again
  have htidy : ∀ k, isKnown k = true → HasKeys s.store ∧ Tidy k (Shows s.store k) (s.pages i) := by
    intro k hk
    obtain ⟨hkeys', h⟩ := tidy_run (s := (start store : Service ι)) hk actions
      (fun _ => ⟨fun hp => absurd rfl hp, nofun, nofun⟩) hkeys
    exact ⟨hkeys', h i⟩
  have hsaved : saved = ⟨(putSettings access s.store (.object (payload (s.pages i)))).2, s.pages⟩ :=
    run_save s i access
  have hagain : again = saved.setPage i (load (saved.pages i) (uiSchema saved.store.cache)) :=
    run_load saved i
  have hpage : again.pages i = load (s.pages i) (uiSchema saved.store.cache) := by
    rw [hagain, hsaved]
    simp [Service.setPage]
  have hstored : ∀ k, isKnown k = true → ∃ v, saved.store.cache.lookup k = some v ∧
      sanitize (typeOf k) v = v ∧ ∀ w, changedValue (s.pages i) k = some w → v = w := by
    intro k hk
    obtain ⟨hkeys', h⟩ := htidy k hk
    obtain ⟨hshows, hchanged⟩ := stored_save hk hkeys' h hp access
    have hkeys'' := hasKeys_putSettings access hkeys' (.object (payload (s.pages i)))
    obtain ⟨v, hv⟩ := Option.isSome_iff_exists.mp ((hkeys'' k).trans hk)
    rw [hsaved]
    refine ⟨v, hv, hshows v hv, fun w hw => ?_⟩
    exact Option.some.inj (hv.symm.trans (hchanged w hw))
  have hload := loaded_load (s.pages i) saved.store.cache
  constructor
  · rw [← List.isEmpty_iff, KeyTable.isEmpty_rows_iff]
    intro k
    rw [lookup_payload, hpage]
    by_cases hk : isKnown k = true
    · obtain ⟨v, hv, hstable, -⟩ := hstored k hk
      rw [changedValue_load hk hv, if_pos hstable]
      simp
    · rw [if_neg fun hmem => hk ((hload.keys k).mp hmem)]
  · intro k hk
    obtain ⟨v, hv, hstable, hchanged⟩ := hstored k hk
    refine ⟨v, ?_, ?_, hchanged⟩
    · rw [hagain]
      exact hv
    · rw [hpage, hload.inputs k hk, hv]
      simp [(inputValue_eq_iff _ _).mpr hstable]

def edited : Service Unit :=
  run (start fresh) [.get (), .show () 0, .edit () (keyName .ns) ['4']]

theorem pages_edited : edited.pages () =
    edit (load {} (uiSchema fresh.cache)) (keyName .ns) ['4'] := by
  have hload : run (start fresh : Service Unit) [.get (), .show () 0] =
      (start fresh).setPage () (load {} (uiSchema fresh.cache)) := run_load (start fresh) ()
  have hrun := run_append (start fresh : Service Unit) [.get (), .show () 0]
    [.edit () (keyName .ns) ['4']]
  rw [hload] at hrun
  rw [edited]
  exact (congrArg (fun s : Service Unit => s.pages ()) hrun).trans (by
    simp [run, step, Service.setPage])

theorem allKeys_edited : (edited.pages ()).allKeys ≠ [] := by
  have hmem := ((loaded_load {} fresh.cache).keys (keyName .ns)).mpr
    ((isKnown_iff _).mpr ⟨.ns, rfl⟩)
  rw [pages_edited, edit]
  split <;> exact List.ne_nil_of_mem hmem

theorem changedValue_edited : changedValue (edited.pages ()) (keyName .ns) = some ['4'] := by
  have hk : isKnown (keyName .ns) = true := (isKnown_iff _).mpr ⟨.ns, rfl⟩
  have hv : fresh.cache.lookup (keyName .ns) = some ['1'] := by
    rw [fresh, SettingsPersistence.lookup_init_cache (s := { table := .empty }) nofun]
    decide +kernel
  have htype : typeOf (keyName .ns) = .int := by decide +kernel
  have hload := loaded_load {} fresh.cache
  rw [pages_edited, edit, hload.inputs _ hk, changedValue]
  simp only [KeyTable.lookup_upsert, if_true, Option.bind_some, hload.loaded _ hk, hv, htype]
  decide

theorem save_again_edited : ∃ saved again : Service Unit,
    saved = run edited [.save (), .put () (edited.pages ()).sending.length .works] ∧
    again = run saved [.get (), .show () (saved.pages ()).loading.length] ∧
    (payload (again.pages ())).rows = [] ∧
    again.store.cache.lookup (keyName .ns) = some ['4'] := by
  have h := save_again fresh hasKeys_fresh [.get (), .show () 0, .edit () (keyName .ns) ['4']] ()
    .works allKeys_edited
  rw [← edited] at h
  obtain ⟨hrows, hfields⟩ := h
  obtain ⟨v, hv, -, hchanged⟩ := hfields (keyName .ns) ((isKnown_iff _).mpr ⟨.ns, rfl⟩)
  obtain rfl := hchanged _ changedValue_edited
  exact ⟨_, _, rfl, rfl, hrows, hv⟩

end Again

section Live

variable {ι : Type} [DecidableEq ι] {s : Service ι}

theorem bootRev_putSettings (access : Access) {store : Store} (hkeys : HasKeys store)
    {members : KeyTable Text JsonValue}
    (hsame : ∀ k, isKnown k = true → isLiveName k = false →
      (putSettings access store (.object members)).2.cache.lookup k = store.cache.lookup k) :
    (putSettings access store (.object members)).2.bootRev = store.bootRev := by
  rw [putSettings.eq_def] at hsame ⊢
  dsimp only [Body.members] at hsame ⊢
  split
  · rfl
  · rename_i hempty
    rw [if_neg hempty] at hsame
    have hno : (setMany access store (knownValues members)).1 = false := by
      rw [Bool.eq_false_iff, Ne, SettingsPersistence.setMany_result access hkeys]
      rintro ⟨k, hk, hlive, hchanged⟩
      exact hchanged (hsame k hk hlive)
    exact if_neg (Bool.eq_false_iff.mp hno)

theorem store_step (hkeys : HasKeys s.store) (a : Action ι) : HasKeys (step s a).store ∧
    ((∀ k, isKnown k = true → isLiveName k = false →
      (step s a).store.cache.lookup k = s.store.cache.lookup k) →
        (step s a).store.bootRev = s.store.bootRev) := by
  cases a with
  | put i n access =>
    simp only [step]
    split
    · exact ⟨hasKeys_putSettings access hkeys _, bootRev_putSettings access hkeys⟩
    · exact ⟨hkeys, fun _ => rfl⟩
  | «show» i n | toggle i key =>
    simp only [step]
    split <;> exact ⟨hkeys, fun _ => rfl⟩
  | _ => exact ⟨hkeys, fun _ => rfl⟩

/-- While only live settings are set on the pages, the worker never has to reconnect. -/
theorem bootRev_live (store : Store) (hkeys : HasKeys store)
    (hstore : ∀ k, isKnown k = true → isLiveName k = false → Shows store k)
    (actions : List (Action ι))
    (hlive : ∀ k, isKnown k = true → isLiveName k = false → ∀ a ∈ actions, ¬Sets k a) :
    (run (start store) actions).store.bootRev = store.bootRev := by
  suffices key : ∀ (actions : List (Action ι)) (s : Service ι),
      (∀ k, isKnown k = true → isLiveName k = false → ∀ a ∈ actions, ¬Sets k a) →
      (∀ k, isKnown k = true → isLiveName k = false → Kept store k s) → HasKeys s.store →
      (run s actions).store.bootRev = s.store.bootRev from
    key actions (start store) hlive (fun k _ _ => kept_start hkeys k) hkeys
  intro actions
  induction actions with
  | nil => exact fun _ _ _ _ => rfl
  | cons a actions ih =>
    intro s hsets hkept hs
    have hnext : ∀ k, isKnown k = true → isLiveName k = false → Kept store k (step s a) :=
      fun k hk hl => kept_step (hstore k hk hl) (hkept k hk hl) (hsets k hk hl a List.mem_cons_self)
    have hstep := store_step hs a
    have hsame := hstep.2 fun k hk hl => (hnext k hk hl).cache.trans (hkept k hk hl).cache.symm
    rw [← hsame]
    exact ih (step s a) (fun k hk hl a' ha' => hsets k hk hl a' (List.mem_cons_of_mem a ha')) hnext
      hstep.1

theorem bootRev_colour : (run (start fresh : Service Unit) [.get (), .show () 0,
    .edit () (keyName .previewColorG0) ['1'], .save (), .toggle () .dataExchangeEnabled,
    .put () 0 .works, .put () 0 .works]).store.bootRev = fresh.bootRev := by
  apply bootRev_live fresh hasKeys_fresh fun k _ _ => shows_fresh k
  intro k _ hl a ha hsets
  simp only [List.mem_cons, List.not_mem_nil, or_false] at ha
  obtain rfl | rfl | rfl | rfl | rfl | rfl | rfl := ha
  · exact hsets
  · exact hsets
  · obtain rfl : keyName .previewColorG0 = k := hsets
    rw [isLiveName_keyName] at hl
    cases hl
  · exact hsets
  · obtain rfl : keyName .dataExchangeEnabled = k := hsets
    rw [isLiveName_keyName] at hl
    cases hl
  · exact hsets
  · exact hsets

end Live

section Delivered

variable {ι : Type} [DecidableEq ι]

def delivered (current : KeyTable Text Text) : KeyTable Text JsonValue where
  rows := (fieldsOf (uiSchema current)).map fun f => (f.key, .string f.value)
  nodup := by
    rw [List.map_map]
    exact nodup_keys_uiSchema current

theorem lookup_delivered {current : KeyTable Text Text} {k : Text} {v : JsonValue}
    (h : (delivered current).lookup k = some v) : v = .string ((current.lookup k).getD []) := by
  obtain ⟨f, hf, heq⟩ := List.mem_map.mp (KeyTable.mem_of_lookup h)
  obtain ⟨rfl, rfl⟩ := Prod.mk.inj heq
  rw [value_of_mem_uiSchema hf]

theorem hasKeys_run {s : Service ι} (hkeys : HasKeys s.store) (actions : List (Action ι)) :
    HasKeys (run s actions).store := by
  induction actions generalizing s with
  | nil => exact hkeys
  | cons a actions ih => exact ih (store_step hkeys a).1

theorem putSettings_of_unchanged (access : Access) {store : Store} {members : KeyTable Text JsonValue}
    (hne : (knownValues members).rows ≠ [])
    (h : ∀ k v, (knownValues members).lookup k = some v → ∀ u, store.cache.lookup k = some u → u = v) :
    putSettings access store (.object members) = (200, store) := by
  have haccept : acceptRows store.cache (knownValues members) = { cache := store.cache } :=
    SettingsPersistence.acceptRows_unchanged fun r hr u hu =>
      h r.1 r.2 ((knownValues members).lookup_of_mem hr) u hu
  have hempty : (knownValues members).rows.isEmpty = false := by
    rw [Bool.eq_false_iff]
    exact fun hnil => hne (List.isEmpty_iff.mp hnil)
  rw [putSettings.eq_def]
  dsimp only [Body.members]
  rw [hempty, setMany, haccept]
  rfl

/-- Whatever was saved before: what a `GET` delivers has each setting once as it is cached, and to
send it back changes nothing, neither the database nor a revision. -/
theorem put_get (store : Store) (hkeys : HasKeys store) (actions : List (Action ι)) (access : Access) :
    let s := (run (start store) actions).store
    ((fieldsOf (uiSchema s.cache)).map fun f => (f.key, f.value)).Perm s.cache.rows ∧
      putSettings access s (.object (delivered s.cache)) = (200, s) := by
  intro s
  have hs : HasKeys s := hasKeys_run (s := start store) hkeys actions
  refine ⟨rows_uiSchema hs, putSettings_of_unchanged access ?_ fun k v hv u hu => ?_⟩
  · have hns : isKnown (keyName .ns) = true := (isKnown_iff _).mpr ⟨.ns, rfl⟩
    obtain ⟨f, hf, hkey⟩ := List.mem_map.mp ((mem_keys_uiSchema s.cache (keyName .ns)).mpr hns)
    have hd : (delivered s.cache).lookup f.key = some (.string f.value) :=
      (delivered s.cache).lookup_of_mem (r := (f.key, .string f.value))
        (List.mem_map_of_mem (f := fun f => (f.key, JsonValue.string f.value)) hf)
    have hvalue : (knownValues (delivered s.cache)).lookup f.key = some f.value := by
      rw [lookup_knownValues, hd, Option.elim_some, if_pos (hkey ▸ hns)]
      rfl
    exact List.ne_nil_of_mem (KeyTable.mem_of_lookup hvalue)
  · rw [lookup_knownValues] at hv
    cases hd : (delivered s.cache).lookup k with
    | none =>
      rw [hd] at hv
      cases hv
    | some v' =>
      obtain rfl := lookup_delivered hd
      rw [hd, Option.elim_some, hu] at hv
      split at hv
      · exact Option.some.inj hv
      · cases hv

theorem put_get_edited : ∃ s : Store, s = (run (start fresh : Service Unit) [.get (), .show () 0,
    .edit () (keyName .ns) ['4'], .save (), .put () 0 .works]).store ∧
      putSettings .openFails s (.object (delivered s.cache)) = (200, s) :=
  ⟨_, rfl, (put_get fresh hasKeys_fresh _ _).2⟩

end Delivered

end Datenbereitstellung.SettingsPage
