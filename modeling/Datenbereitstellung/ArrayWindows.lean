import Datenbereitstellung.OpcUaArrays

namespace Datenbereitstellung.ArrayWindows

open Strings OpcUaArrays Lib.Windows
open OpcUa (Written cStr cStr_eq_self_iff)

variable {t : ElementType} {v : Variant t} {data : List (List (Elem t))} {startRow startCol : Nat}

section Shapes

/-- An array with at most two dimensions, which make up its length. -/
structure WellShaped (v : Variant t) : Prop where
  dimensions : v.arrayDimensions.length ≤ 2
  product : v.arrayDimensions ≠ [] → (v.arrayDimensions.map UInt32.toNat).prod = v.arrayLength
  nonempty : 1 ≤ v.arrayLength

structure Rectangular (data : List (List (Elem t))) : Prop where
  rows : 1 ≤ data.length
  columns : 1 ≤ columns data
  length_eq : ∀ row ∈ data, row.length = OpcUaArrays.columns data

structure Inside (v : Variant t) (data : List (List (Elem t))) (startRow startCol : Nat) :
    Prop where
  rows : startRow + data.length ≤ (writeDims v).1
  columns : startCol + columns data ≤ (writeDims v).2

def InWindow (data : List (List (Elem t))) (startRow startCol row col : Nat) : Prop :=
  (startRow ≤ row ∧ row < startRow + data.length) ∧ startCol ≤ col ∧ col < startCol + columns data

def NulFree : (t : ElementType) → Elem t → Prop
  | .String, s => '\x00' ∉ s
  | _, _ => True

theorem writeDims_mul (hv : WellShaped v) :
    (writeDims v).1 * (writeDims v).2 = v.arrayLength := by
  have hproduct := hv.product
  rw [writeDims]
  split
  · rename_i h
    simpa [h] using hproduct
  · rename_i h
    simpa [h] using hproduct
  · exact Nat.one_mul _

theorem readDims_eq (hv : WellShaped v) : readDims v = some (writeDims v) := by
  have hdimensions := hv.dimensions
  rw [readDims, writeDims]
  generalize v.arrayDimensions = ds at hdimensions
  obtain _ | ⟨d, _ | ⟨e, _ | ⟨f, ds⟩⟩⟩ := ds
  · rfl
  · rfl
  · rfl
  · simp at hdimensions

theorem index_lt (hv : WellShaped v) {row col : Nat} (hrow : row < (writeDims v).1)
    (hcol : col < (writeDims v).2) : row * (writeDims v).2 + col < v.arrayLength := by
  rw [← writeDims_mul hv]
  exact rowMajor_lt hrow hcol

theorem wrap_index (hv : WellShaped v) {row col : Nat} (hrow : row < (writeDims v).1)
    (hcol : col < (writeDims v).2) :
    wrap (row * (writeDims v).2 + col) = row * (writeDims v).2 + col :=
  wrap_of_lt ((index_lt hv hrow hcol).trans v.arrayLength_lt)

theorem dims_le (hv : WellShaped v) :
    (writeDims v).1 ≤ v.arrayLength ∧ (writeDims v).2 ≤ v.arrayLength := by
  have hpos : 0 < (writeDims v).1 * (writeDims v).2 := writeDims_mul hv ▸ hv.nonempty
  rw [← writeDims_mul hv]
  constructor
  · exact Nat.le_mul_of_pos_right _ (Nat.pos_of_mul_pos_left hpos)
  · exact Nat.le_mul_of_pos_left _ (Nat.pos_of_mul_pos_right hpos)

end Shapes

section Patch

def cells (data : List (List (Elem t))) : List (Nat × Nat) :=
  (List.range data.length).flatMap fun row => (List.range (columns data)).map fun col => (row, col)

theorem mem_cells {p : Nat × Nat} : p ∈ cells data ↔ p.1 < data.length ∧ p.2 < columns data := by
  obtain ⟨row, col⟩ := p
  simp [cells]

theorem exists_element (hdata : Rectangular data) {row col : Nat} (hrow : row < data.length)
    (hcol : col < columns data) : ∃ x, data[row]?.bind (·[col]?) = some x := by
  have hlen := hdata.length_eq data[row] (List.getElem_mem hrow)
  rw [List.getElem?_eq_getElem hrow, Option.bind_some]
  exact ⟨_, List.getElem?_eq_getElem (by omega)⟩

theorem bounds_of_element (hdata : Rectangular data) {row col : Nat} {x : Elem t}
    (hx : data[row]?.bind (·[col]?) = some x) : row < data.length ∧ col < columns data := by
  obtain ⟨line, hline, hx⟩ := Option.bind_eq_some_iff.mp hx
  obtain ⟨hrow, rfl⟩ := List.getElem?_eq_some_iff.mp hline
  obtain ⟨hcol, -⟩ := List.getElem?_eq_some_iff.mp hx
  exact ⟨hrow, hdata.length_eq _ (List.getElem_mem hrow) ▸ hcol⟩

theorem place_lt (hv : WellShaped v) (hin : Inside v data startRow startCol) {row col : Nat}
    (hrow : row < data.length) (hcol : col < columns data) :
    (startRow + row) * (writeDims v).2 + (startCol + col) < v.arrayLength := by
  have hrows := hin.rows
  have hcols := hin.columns
  apply index_lt hv
  · omega
  · omega

theorem wrap_place (hv : WellShaped v) (hin : Inside v data startRow startCol) {row col : Nat}
    (hrow : row < data.length) (hcol : col < columns data) :
    wrap ((startRow + row) * (writeDims v).2 + (startCol + col)) =
      (startRow + row) * (writeDims v).2 + (startCol + col) :=
  wrap_of_lt ((place_lt hv hin hrow hcol).trans v.arrayLength_lt)

theorem patch_eq (assigned : Elem t → Elem t) (v : Variant t) (data : List (List (Elem t)))
    (startRow startCol : Nat) :
    patch assigned v data startRow startCol = ((cells data).foldlM (fun values p =>
      (data[p.1]?.bind (·[p.2]?)).map assigned >>=
        store values (wrap ((startRow + p.1) * (writeDims v).2 + (startCol + p.2)))) v.data).map
      fun values => { v with data := values } := by
  have hstep : ∀ (o : Option (Elem t)) (values : Fin v.arrayLength → Elem t) (index : Nat),
      (o.map assigned >>= store values index) = o >>= fun x => store values index (assigned x) := by
    intro o values index
    cases o <;> rfl
  rw [cells, ← foldlM_flatMap]
  simp only [List.foldlM_map, hstep]
  exact Option.map_eq_bind.symm

/-- The patched array has the data in the window, and its old elements around it. -/
theorem patch_spec (assigned : Elem t → Elem t) (hv : WellShaped v) (hdata : Rectangular data)
    (hin : Inside v data startRow startCol) :
    ∃ values, patch assigned v data startRow startCol = some { v with data := values } ∧
      (∀ row col x, data[row]?.bind (·[col]?) = some x → ∀ h,
        values ⟨(startRow + row) * (writeDims v).2 + (startCol + col), h⟩ = assigned x) ∧
      ∀ row col, ¬InWindow data startRow startCol row col → col < (writeDims v).2 → ∀ h,
        values ⟨row * (writeDims v).2 + col, h⟩ = v.data ⟨row * (writeDims v).2 + col, h⟩ := by
  have hrows := hin.rows
  have hcols := hin.columns
  have hwrap : ∀ p ∈ cells data, wrap ((startRow + p.1) * (writeDims v).2 + (startCol + p.2)) =
      (startRow + p.1) * (writeDims v).2 + (startCol + p.2) :=
    fun p hp => wrap_place hv hin (mem_cells.mp hp).1 (mem_cells.mp hp).2
  have hlt : ∀ p ∈ cells data,
      wrap ((startRow + p.1) * (writeDims v).2 + (startCol + p.2)) < v.arrayLength :=
    fun p hp => (hwrap p hp).trans_lt (place_lt hv hin (mem_cells.mp hp).1 (mem_cells.mp hp).2)
  have helem : ∀ p ∈ cells data, ∃ x, (data[p.1]?.bind (·[p.2]?)).map assigned = some x := by
    intro p hp
    obtain ⟨hrow, hcol⟩ := mem_cells.mp hp
    obtain ⟨x, hx⟩ := exists_element hdata hrow hcol
    exact ⟨assigned x, by rw [hx, Option.map_some]⟩
  have hinj : ∀ p ∈ cells data, ∀ q ∈ cells data,
      wrap ((startRow + p.1) * (writeDims v).2 + (startCol + p.2)) =
        wrap ((startRow + q.1) * (writeDims v).2 + (startCol + q.2)) → p = q := by
    intro p hp q hq h
    rw [hwrap p hp, hwrap q hq] at h
    have hp := mem_cells.mp hp
    have hq := mem_cells.mp hq
    obtain ⟨hrow, hcol⟩ := rowMajor_inj (by omega) (by omega) h
    exact Prod.ext (Nat.add_left_cancel hrow) (Nat.add_left_cancel hcol)
  obtain ⟨values, hrun, hset, hkept⟩ := foldlM_store hlt helem hinj v.data
  refine ⟨values, by rw [patch_eq, hrun, Option.map_some], fun row col x hx h => ?_, ?_⟩
  · obtain ⟨hrow, hcol⟩ := bounds_of_element hdata hx
    have hcell : (row, col) ∈ cells data := mem_cells.mpr ⟨hrow, hcol⟩
    have hvalue := hset (row, col) hcell (assigned x) (by rw [hx, Option.map_some])
    simp only [hwrap (row, col) hcell] at hvalue
    exact hvalue h
  · intro row col hout hcol h
    apply hkept
    intro p hp hsame
    rw [hwrap p hp] at hsame
    have hmem := mem_cells.mp hp
    obtain ⟨hrow', hcol'⟩ := rowMajor_inj (by omega) hcol hsame
    apply hout
    constructor <;> omega

end Patch

section Service

variable {v v' : Variant .String} {data : List (List (Elem .String))}

def stringArray (v : Variant .String) (hv : WellShaped v) : OpcUa.StringArray where
  elements := List.ofFn v.data
  arrayDimensions := v.arrayDimensions.map UInt32.toNat
  length_eq h := by
    have hne : v.arrayDimensions ≠ [] := fun hnil => h (congrArg (List.map UInt32.toNat) hnil)
    rw [List.length_ofFn, hv.product hne]

theorem dims_stringArray (hv : WellShaped v) : OpcUa.dims (stringArray v hv) = writeDims v := by
  simp only [OpcUa.dims, writeDims, stringArray, List.length_ofFn]
  generalize v.arrayDimensions = ds
  obtain _ | ⟨d, _ | ⟨e, _ | ⟨f, ds⟩⟩⟩ := ds
  all_goals rfl

theorem elements_patch (hv : WellShaped v) (hdata : Rectangular data)
    (hin : Inside v data startRow startCol) (h : patch cStr v data startRow startCol = some v') :
    List.ofFn v'.data = OpcUa.patch (List.ofFn v.data) (writeDims v).2 startRow startCol data
      (columns data) := by
  rw [patch_eq] at h
  obtain ⟨values, hrun, rfl⟩ := Option.map_eq_some_iff.mp h
  have hvalue : ∀ p ∈ cells data, (data[p.1]?.bind (·[p.2]?)).map cStr =
      some (cStr ((data.getD p.1 []).getD p.2 [])) := by
    intro p hp
    obtain ⟨hrow, hcol⟩ := mem_cells.mp hp
    have hlen := hdata.length_eq data[p.1] (List.getElem_mem hrow)
    have hcol' : p.2 < data[p.1].length := by omega
    simp [hrow, hcol']
  have hfold := ofFn_foldlM_store hvalue hrun
  calc List.ofFn values = _ := hfold
    _ = (cells data).foldl (fun xs p => xs.set
          ((startRow + p.1) * (writeDims v).2 + (startCol + p.2))
          (cStr ((data.getD p.1 []).getD p.2 []))) (List.ofFn v.data) := by
      apply List.foldl_ext
      intro xs p hp
      rw [wrap_place hv hin (mem_cells.mp hp).1 (mem_cells.mp hp).2]
    _ = OpcUa.patch (List.ofFn v.data) (writeDims v).2 startRow startCol data (columns data) := by
      rw [cells, List.foldl_flatMap, OpcUa.patch]
      simp only [List.foldl_map]

theorem stringArray_patched (hv : WellShaped v) (hdata : Rectangular data)
    (hin : Inside v data startRow startCol) (h : patch cStr v data startRow startCol = some v')
    (hv' : WellShaped v') : stringArray v' hv' =
      (stringArray v hv).patched startRow startCol data (columns data) := by
  have helements := elements_patch hv hdata hin h
  obtain ⟨values, hpatch, -, -⟩ := patch_spec cStr hv hdata hin
  obtain rfl : { v with data := values } = v' := Option.some.inj (hpatch.symm.trans h)
  simp only [OpcUa.StringArray.patched, dims_stringArray]
  simp only [stringArray, helements]

end Service

section Windows

theorem lt_of_inside (hv : WellShaped v) (hin : Inside v data startRow startCol) :
    startRow + data.length < 2 ^ 64 ∧ startCol + columns data < 2 ^ 64 := by
  obtain ⟨hdim1, hdim2⟩ := dims_le hv
  have hlt := v.arrayLength_lt
  have hrows := hin.rows
  have hcols := hin.columns
  constructor
  · omega
  · omega

theorem openArray_eq (hv : WellShaped v) (hin : Inside v data startRow startCol) (calls : Calls) :
    openArray t false calls (some ⟨t, v⟩) data startRow startCol =
      if calls.read then .ok v else .error 2 := by
  obtain ⟨hrows, hcols⟩ := lt_of_inside hv hin
  have hfits : ¬(wrap (startRow + data.length) > (writeDims v).1 ∨
      wrap (startCol + columns data) > (writeDims v).2) := by
    rw [wrap_of_lt hrows, wrap_of_lt hcols, not_or, not_lt, not_lt]
    exact ⟨hin.rows, hin.columns⟩
  have hlength : v.arrayLength ≠ 0 := Nat.one_le_iff_ne_zero.mp hv.nonempty
  rw [openArray]
  cases calls.read with
  | false => rfl
  | true =>
    simp only [Bool.false_eq_true, if_false, if_true, arrayOf_self, hlength, hfits]

theorem readWindow_eq (hv : WellShaped v) (hdata : Rectangular data)
    (hin : Inside v data startRow startCol)
    (hvalues : ∀ row col x, data[row]?.bind (·[col]?) = some x → ∀ h,
      v.data ⟨(startRow + row) * (writeDims v).2 + (startCol + col), h⟩ = x) :
    readWindow v (writeDims v).2 startRow (startRow + data.length) startCol
      (startCol + columns data) = data := by
  rw [readWindow, Nat.add_sub_cancel_left, Nat.add_sub_cancel_left]
  apply List.ext_getElem
  · simp
  intro row hrow hrow'
  have hlen := hdata.length_eq data[row] (List.getElem_mem hrow')
  simp only [List.getElem_map, List.getElem_range', Nat.one_mul]
  apply load_eq
  · simp [hlen]
  intro col hcol hcol'
  simp only [List.getElem_map, List.getElem_range', Nat.one_mul]
  have hx : data[row]?.bind (·[col]?) = some data[row][col] := by
    rw [List.getElem?_eq_getElem hrow', Option.bind_some]
    exact List.getElem?_eq_getElem hcol'
  rw [hlen] at hcol'
  have hlt := place_lt hv hin hrow' hcol'
  simp only [wrap_place hv hin hrow' hcol']
  exact ⟨hlt, hvalues row col _ hx hlt⟩

theorem readArray_eq (hv : WellShaped v) (hdata : Rectangular data)
    (hin : Inside v data startRow startCol)
    (hvalues : ∀ row col x, data[row]?.bind (·[col]?) = some x → ∀ h,
      v.data ⟨(startRow + row) * (writeDims v).2 + (startCol + col), h⟩ = x) :
    readArray t false (some v) startRow data.length startCol (columns data) = ⟨data, true, 0⟩ := by
  obtain ⟨hrows, hcols⟩ := lt_of_inside hv hin
  have hrows' := hin.rows
  have hcols' := hin.columns
  have hdata₁ := hdata.rows
  have hdata₂ := hdata.columns
  have hlength : v.arrayLength ≠ 0 := Nat.one_le_iff_ne_zero.mp hv.nonempty
  have hstart : ¬(startRow ≥ (writeDims v).1 ∨ startCol ≥ (writeDims v).2) := by omega
  simp only [readArray, Bool.false_eq_true, if_false, hlength, readDims_eq hv, hstart,
    wrap_of_lt hrows, wrap_of_lt hcols, Nat.min_eq_right hrows', Nat.min_eq_right hcols',
    readWindow_eq hv hdata hin hvalues]

end Windows

section Writers

def assigned : (t : ElementType) → Elem t → Elem t
  | .String => cStr
  | _ => id

def copies (t : ElementType) : Bool := t ≠ .String

theorem assigned_eq {x : Elem t} (h : NulFree t x) : assigned t x = x := by
  cases t with
  | String => exact (cStr_eq_self_iff x).mpr h
  | _ => rfl

theorem writeArrayOf_eq (t : ElementType) (isNull : Bool) (calls : Calls) (node : Node)
    (data : List (List (Elem t))) (startRow startCol : Nat) :
    writeArrayOf t isNull calls node data startRow startCol =
      match openArray t isNull calls node data startRow startCol with
      | .error code => some (⟨false, code⟩, node)
      | .ok v => (patch (assigned t) v data startRow startCol).map fun v' =>
        if copies t && !calls.copy then (⟨false, 4⟩, node) else send calls node v' := by
  cases t with
  | String =>
    simp only [writeArrayOf, writeStringArray]
    cases openArray .String isNull calls node data startRow startCol with
    | error code => rfl
    | ok v => exact Option.map_eq_bind.symm
  | _ =>
    simp only [writeArrayOf, writeInt16Array, writeInt32Array, writeFloatArray, writeDoubleArray,
      writeArray]
    cases openArray _ isNull calls node data startRow startCol with
    | error code => rfl
    | ok v => cases hcopy : calls.copy <;> exact Option.map_eq_bind.symm

theorem writeArrayOf_failed {isNull : Bool} {calls : Calls} {node node' : Node} {written : Written}
    (h : writeArrayOf t isNull calls node data startRow startCol = some (written, node'))
    (hfailed : written.success = false) : node' = node := by
  rw [writeArrayOf_eq] at h
  cases hopen : openArray t isNull calls node data startRow startCol with
  | error code =>
    simp only [hopen, Option.some.injEq, Prod.mk.injEq] at h
    exact h.2.symm
  | ok v =>
    simp only [hopen] at h
    obtain ⟨v', -, h⟩ := Option.map_eq_some_iff.mp h
    split at h
    · exact (Prod.mk.inj h).2.symm
    · unfold send at h
      split at h
      · obtain ⟨rfl, -⟩ := Prod.mk.inj h
        cases hfailed
      · exact (Prod.mk.inj h).2.symm

end Writers

section Statement

/-- A window that was written is read as it was written, everything else is as before, and so is
all of the node if the writer reports a failure. -/
structure RoundTrips (t : ElementType) : Prop where
  window : ∀ (isNull : Bool) (calls : Calls) (v : Variant t) (data : List (List (Elem t)))
    (startRow startCol : Nat), WellShaped v → Rectangular data → Inside v data startRow startCol →
    (∀ row ∈ data, ∀ x ∈ row, NulFree t x) → ∃ written node,
      writeArrayOf t isNull calls (some ⟨t, v⟩) data startRow startCol = some (written, node) ∧
      (isNull = false → calls = {} → written = ⟨true, 0⟩) ∧
      (written = ⟨true, 0⟩ → ∃ values, node = some ⟨t, { v with data := values }⟩ ∧
        readArrayOf t isNull (some { v with data := values }) startRow data.length startCol
          (columns data) = ⟨data, true, 0⟩ ∧
        ∀ row col, ¬InWindow data startRow startCol row col → col < (writeDims v).2 → ∀ h,
          values ⟨row * (writeDims v).2 + col, h⟩ = v.data ⟨row * (writeDims v).2 + col, h⟩)
  unchanged : ∀ (isNull : Bool) (calls : Calls) (node : Node) (data : List (List (Elem t)))
    (startRow startCol : Nat) (written : Written) (node' : Node),
    writeArrayOf t isNull calls node data startRow startCol = some (written, node') →
      written.success = false → node' = node

theorem roundTrips (t : ElementType) : RoundTrips t where
  unchanged _ _ _ _ _ _ _ _ h hfailed := writeArrayOf_failed h hfailed
  window isNull calls v data startRow startCol hv hdata hin hnul := by
    rw [writeArrayOf_eq]
    cases isNull with
    | true => exact ⟨⟨false, 1⟩, _, rfl, by simp, by simp⟩
    | false =>
      rw [openArray_eq hv hin]
      cases hread : calls.read with
      | false =>
        refine ⟨⟨false, 2⟩, _, rfl, ?_, by simp⟩
        rintro - rfl
        cases hread
      | true =>
        obtain ⟨values, hpatch, hset, hkept⟩ := patch_spec (assigned t) hv hdata hin
        have hread' : ∀ row col x, data[row]?.bind (·[col]?) = some x → ∀ h,
            values ⟨(startRow + row) * (writeDims v).2 + (startCol + col), h⟩ = x := by
          intro row col x hx h
          obtain ⟨line, hline, hx'⟩ := Option.bind_eq_some_iff.mp hx
          have hfree := hnul line (List.mem_of_getElem? hline) x (List.mem_of_getElem? hx')
          rw [hset row col x hx h, assigned_eq hfree]
        simp only [if_true, hpatch, Option.map_some]
        by_cases hcopy : (copies t && !calls.copy) = true
        · refine ⟨⟨false, 4⟩, _, by rw [if_pos hcopy], ?_, by simp⟩
          rintro - rfl
          simp at hcopy
        rw [if_neg hcopy, send]
        cases hwrite : calls.write with
        | false =>
          refine ⟨⟨false, 5⟩, _, rfl, ?_, by simp⟩
          rintro - rfl
          cases hwrite
        | true =>
          refine ⟨⟨true, 0⟩, _, rfl, fun _ _ => rfl, fun _ => ⟨values, rfl, ?_, hkept⟩⟩
          have hv' : WellShaped { v with data := values } := ⟨hv.1, hv.2, hv.3⟩
          have hin' : Inside { v with data := values } data startRow startCol := ⟨hin.1, hin.2⟩
          rw [readArrayOf_eq]
          exact readArray_eq hv' hdata hin' hread'

def grid : Variant .Int16 where
  arrayLength := 4
  data i := Int16.ofNat (i + 1)
  arrayDimensions := [2, 2]
  arrayLength_lt := by decide

theorem roundTrips_grid : ∃ values,
    writeInt16Array false {} (some ⟨.Int16, grid⟩) [[7], [8]] 0 1 =
      some (⟨true, 0⟩, some ⟨.Int16, { grid with data := values }⟩) ∧
    readInt16Array false (some { grid with data := values }) 0 2 1 1 = ⟨[[7], [8]], true, 0⟩ := by
  have hgrid : WellShaped grid := ⟨by decide, fun _ => by decide, by decide⟩
  have hdata : Rectangular (t := .Int16) [[7], [8]] := ⟨by decide, by decide, by decide⟩
  have hin : Inside grid [[7], [8]] 0 1 := ⟨by decide, by decide⟩
  obtain ⟨written, node, hwrite, hok, hread⟩ := (roundTrips .Int16).window false {} grid
    [[7], [8]] 0 1 hgrid hdata hin fun _ _ _ _ => trivial
  obtain rfl := hok rfl rfl
  obtain ⟨values, rfl, hvalues, -⟩ := hread rfl
  exact ⟨values, hwrite, hvalues⟩

end Statement

end Datenbereitstellung.ArrayWindows
