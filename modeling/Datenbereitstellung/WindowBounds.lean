import Datenbereitstellung.ArrayWindows

namespace Datenbereitstellung.WindowBounds

open Strings OpcUaArrays ArrayWindows Lib.Windows
open OpcUa (Reading Written)

variable {t : ElementType} {v : Variant t}

theorem wrap_of_le {n : Nat} (h : 2 ^ 64 ≤ n) (hlt : n < 2 ^ 64 + 2 ^ 64) :
    wrap n = n - 2 ^ 64 := by
  rw [wrap, Nat.mod_eq_sub_mod h]
  apply Nat.mod_eq_of_lt
  omega

section Reads

variable {dim1 dim2 startRow rowCount startCol colCount : Nat}

/-- The rows are the part of the array that lies in the window. -/
structure Clipped (v : Variant t) (dim1 dim2 startRow rowCount startCol colCount : Nat)
    (rows : List (List (Elem t))) : Prop where
  length : rows.length = min dim1 (startRow + rowCount) - startRow
  length_row : ∀ row ∈ rows, row.length = min dim2 (startCol + colCount) - startCol
  element : ∀ row col x, rows[row]?.bind (·[col]?) = some x → ∀ h,
    v.data ⟨(startRow + row) * dim2 + (startCol + col), h⟩ = x

theorem eq_of_readDims (hv : WellShaped v) (hdims : readDims v = some (dim1, dim2)) :
    dim1 = (writeDims v).1 ∧ dim2 = (writeDims v).2 := by
  rw [readDims_eq hv] at hdims
  rw [Option.some.inj hdims]
  exact ⟨rfl, rfl⟩

theorem length_readWindow (endRow endCol : Nat) :
    (readWindow v dim2 startRow endRow startCol endCol).length = endRow - startRow := by
  rw [readWindow, List.length_map, List.length_range']

theorem length_row_readWindow_le {endRow endCol : Nat} {line : List (Elem t)}
    (hline : line ∈ readWindow v dim2 startRow endRow startCol endCol) :
    line.length ≤ endCol - startCol := by
  obtain ⟨row, -, rfl⟩ := List.mem_map.mp hline
  apply (length_load_le _ _).trans
  rw [List.length_map, List.length_range']

theorem clipped_readWindow (hv : WellShaped v) :
    Clipped v (writeDims v).1 (writeDims v).2 startRow rowCount startCol colCount
      (readWindow v (writeDims v).2 startRow (min (writeDims v).1 (startRow + rowCount)) startCol
        (min (writeDims v).2 (startCol + colCount))) where
  length := length_readWindow _ _
  length_row line hline := by
    obtain ⟨row, hrow, rfl⟩ := List.mem_map.mp hline
    rw [length_load, List.length_map, List.length_range']
    intro place hplace
    obtain ⟨col, hcol, rfl⟩ := List.mem_map.mp hplace
    rw [List.mem_range'_1] at hrow hcol
    have hrow' : row < (writeDims v).1 := by omega
    have hcol' : col < (writeDims v).2 := by omega
    rw [wrap_index hv hrow' hcol']
    exact index_lt hv hrow' hcol'
  element row col x hx h := by
    obtain ⟨line, hline, hx⟩ := Option.bind_eq_some_iff.mp hx
    obtain ⟨hrow, rfl⟩ := List.getElem?_eq_some_iff.mp hline
    obtain ⟨hcol, rfl⟩ := List.getElem?_eq_some_iff.mp hx
    rw [length_readWindow] at hrow
    simp only [readWindow, List.getElem_map, List.getElem_range', Nat.one_mul] at hcol ⊢
    obtain ⟨hp, hlt, hvalue⟩ := getElem_load hcol
    rw [hvalue]
    apply congrArg v.data
    apply Fin.ext
    rw [List.length_map, List.length_range'] at hp
    simp only [List.getElem_map, List.getElem_range', Nat.one_mul]
    have hrow' : startRow + row < (writeDims v).1 := by omega
    have hcol' : startCol + col < (writeDims v).2 := by omega
    exact (wrap_index hv hrow' hcol').symm

theorem readArrayOf_window (hv : WellShaped v) (hrow : startRow < (writeDims v).1)
    (hcol : startCol < (writeDims v).2) :
    readArrayOf t false (some v) startRow rowCount startCol colCount =
      ⟨readWindow v (writeDims v).2 startRow (min (writeDims v).1 (wrap (startRow + rowCount)))
        startCol (min (writeDims v).2 (wrap (startCol + colCount))), true, 0⟩ := by
  have hlength : v.arrayLength ≠ 0 := Nat.one_le_iff_ne_zero.mp hv.nonempty
  have hstart : ¬(startRow ≥ (writeDims v).1 ∨ startCol ≥ (writeDims v).2) := by omega
  rw [readArrayOf_eq]
  simp only [readArray, Bool.false_eq_true, if_false, hlength, readDims_eq hv, hstart]

theorem wrap_lt_start {start count : Nat} (hstart : start < 2 ^ 64) (hcount : count < 2 ^ 64)
    (h : 2 ^ 64 ≤ start + count) : wrap (start + count) < start := by
  rw [wrap_of_le h (by omega)]
  omega

/-- The window is read exactly if neither of its ends wraps around, or it has no rows. -/
theorem readArrayOf_clipped_iff (hv : WellShaped v) (hdims : readDims v = some (dim1, dim2))
    (hrow : startRow < dim1) (hcol : startCol < dim2) (hrowCount : rowCount < 2 ^ 64)
    (hcolCount : colCount < 2 ^ 64) :
    (∃ rows, readArrayOf t false (some v) startRow rowCount startCol colCount = ⟨rows, true, 0⟩ ∧
        Clipped v dim1 dim2 startRow rowCount startCol colCount rows) ↔
      rowCount = 0 ∨ startRow + rowCount < 2 ^ 64 ∧ startCol + colCount < 2 ^ 64 := by
  obtain ⟨rfl, rfl⟩ := eq_of_readDims hv hdims
  obtain ⟨hdim1, hdim2⟩ := dims_le hv
  have hlt := v.arrayLength_lt
  rw [readArrayOf_window hv hrow hcol]
  constructor
  · rintro ⟨rows, hread, hclipped⟩
    obtain rfl := (Reading.mk.inj hread).1
    by_contra hcond
    have hlength := hclipped.length
    rw [length_readWindow] at hlength
    by_cases hrows : startRow + rowCount < 2 ^ 64
    · have hcols : wrap (startCol + colCount) < startCol :=
        wrap_lt_start (by omega) hcolCount (by omega)
      rw [wrap_of_lt hrows] at hclipped
      have hfirst : 0 < (readWindow v (writeDims v).2 startRow
          (min (writeDims v).1 (startRow + rowCount)) startCol
          (min (writeDims v).2 (wrap (startCol + colCount)))).length := by
        rw [length_readWindow]
        omega
      have hline := List.getElem_mem hfirst
      have hshort := length_row_readWindow_le hline
      have hlong := hclipped.length_row _ hline
      omega
    · have hwrap : wrap (startRow + rowCount) < startRow :=
        wrap_lt_start (by omega) hrowCount (by omega)
      omega
  · rintro (hnone | ⟨hrows, hcols⟩)
    · have hrows : startRow + rowCount < 2 ^ 64 := by omega
      have hempty : min (writeDims v).1 (startRow + rowCount) - startRow = 0 := by omega
      rw [wrap_of_lt hrows, readWindow, hempty]
      exact ⟨[], rfl, hempty.symm, by simp, by simp⟩
    · rw [wrap_of_lt hrows, wrap_of_lt hcols]
      exact ⟨_, rfl, clipped_readWindow hv⟩

theorem readArrayOf_clipped_grid : ∃ rows,
    readArrayOf .Int16 false (some grid) 1 1 0 2 = ⟨rows, true, 0⟩ ∧
      Clipped grid 2 2 1 1 0 2 rows := by
  have hgrid : WellShaped grid := ⟨by decide, fun _ => by decide, by decide⟩
  exact (readArrayOf_clipped_iff hgrid rfl (by decide) (by decide) (by decide) (by decide)).mpr
    (.inr ⟨by decide, by decide⟩)

/-- All columns from the second on: nothing is read. -/
theorem not_clipped_allColumns : ¬∀ (t : ElementType) (v : Variant t)
    (dim1 dim2 startRow rowCount startCol colCount : Nat), WellShaped v →
    readDims v = some (dim1, dim2) → startRow < dim1 → startCol < dim2 → rowCount < 2 ^ 64 →
    colCount < 2 ^ 64 →
    ∃ rows, readArrayOf t false (some v) startRow rowCount startCol colCount = ⟨rows, true, 0⟩ ∧
      Clipped v dim1 dim2 startRow rowCount startCol colCount rows := by
  intro h
  have hgrid : WellShaped grid := ⟨by decide, fun _ => by decide, by decide⟩
  obtain ⟨rows, hread, hclipped⟩ := h .Int16 grid 2 2 0 2 1 (2 ^ 64 - 1) hgrid rfl (by decide)
    (by decide) (by decide) (by decide)
  have hempty : readArrayOf .Int16 false (some grid) 0 2 1 (2 ^ 64 - 1) = ⟨[[], []], true, 0⟩ := rfl
  obtain rfl := (Reading.mk.inj (hempty.symm.trans hread)).1
  exact absurd (hclipped.length_row [] List.mem_cons_self) (by decide)

end Reads

section Writes

variable {data : List (List (Elem t))} {startRow startCol : Nat}

def size : ElementType → Nat
  | .Int16 => 2
  | .Int32 => 4
  | .Float => 4
  | .Double => 8
  | .String => 16

/-- The writers find nothing wrong with the window. -/
structure Passes (v : Variant t) (data : List (List (Elem t))) (startRow startCol : Nat) :
    Prop where
  nonempty : v.arrayLength ≠ 0
  rows : wrap (startRow + data.length) ≤ (writeDims v).1
  columns : wrap (startCol + columns data) ≤ (writeDims v).2

/-- No row is shorter than the first, the rows do not wrap around, and columns that do begin at an
element of the array nevertheless. -/
structure Covered (v : Variant t) (data : List (List (Elem t))) (startRow startCol : Nat) :
    Prop where
  length_le : ∀ row ∈ data, columns data ≤ row.length
  rows : startRow + data.length < 2 ^ 64
  columns : startCol + columns data < 2 ^ 64 ∨ 2 ^ 64 ≤ startRow * (writeDims v).2 + startCol

theorem openArray_of_passes (h : Passes v data startRow startCol) :
    openArray t false {} (some ⟨t, v⟩) data startRow startCol = .ok v := by
  have hfits : ¬(wrap (startRow + data.length) > (writeDims v).1 ∨
      wrap (startCol + columns data) > (writeDims v).2) := by
    rw [not_or, not_lt, not_lt]
    exact ⟨h.rows, h.columns⟩
  simp only [openArray, Bool.false_eq_true, if_false, if_true, arrayOf_self, h.nonempty, hfits]

theorem passes_of_openArray {isNull : Bool} {calls : Calls} {v' : Variant t}
    (h : openArray t isNull calls (some ⟨t, v⟩) data startRow startCol = .ok v') :
    v' = v ∧ Passes v data startRow startCol := by
  rw [openArray] at h
  split at h
  · cases h
  cases hread : calls.read with
  | false => simp [hread] at h
  | true =>
    simp only [hread, if_true, arrayOf_self] at h
    split at h
    · cases h
    split at h
    · cases h
    · rename_i hne hfits
      rw [not_or, not_lt, not_lt] at hfits
      exact ⟨(Except.ok.inj h).symm, hne, hfits.1, hfits.2⟩

/-- The loops succeed exactly if they use only elements that there are. -/
theorem isSome_patch_iff (assigned : Elem t → Elem t) :
    (patch assigned v data startRow startCol).isSome = true ↔
      ∀ row < data.length, ∀ col < columns data, (∃ x, data[row]?.bind (·[col]?) = some x) ∧
        wrap ((startRow + row) * (writeDims v).2 + (startCol + col)) < v.arrayLength := by
  have helem : ∀ o : Option (Elem t), (∃ x, o.map assigned = some x) ↔ ∃ x, o = some x := by
    intro o
    cases o <;> simp
  rw [patch_eq, Option.isSome_map, isSome_foldlM_store]
  simp only [helem]
  constructor
  · intro h row hrow col hcol
    exact h (row, col) (mem_cells.mpr ⟨hrow, hcol⟩)
  · intro h p hp
    obtain ⟨hrow, hcol⟩ := mem_cells.mp hp
    exact h p.1 hrow p.2 hcol

section Arithmetic

variable {rows cols dim2 arrayLength : Nat}

theorem rows_lt_of_places (hdim2 : 1 ≤ dim2) (hlength : dim2 + arrayLength < 2 ^ 64)
    (hstartRow : startRow < 2 ^ 64) (hstartCol : startCol < 2 ^ 64) (hcols : 1 ≤ cols)
    (hfits : wrap (startCol + cols) ≤ dim2)
    (h : ∀ row < rows, ∀ col < cols,
      wrap ((startRow + row) * dim2 + (startCol + col)) < arrayLength) :
    startRow + rows < 2 ^ 64 := by
  by_contra hwrap
  have hrow : 2 ^ 64 - 1 - startRow < rows := by omega
  have hlast : startRow + (2 ^ 64 - 1 - startRow) = 2 ^ 64 - 1 := by omega
  by_cases hcol : startCol + cols < 2 ^ 64
  · have hplace := h _ hrow 0 hcols
    rw [wrap_of_lt hcol] at hfits
    rw [hlast, wrap] at hplace
    omega
  · have hlastCol : startCol + (2 ^ 64 - 1 - startCol) = 2 ^ 64 - 1 := by omega
    have hplace := h _ hrow (2 ^ 64 - 1 - startCol) (by omega)
    rw [hlast, hlastCol, wrap] at hplace
    omega

theorem cols_lt_of_places (hlength : arrayLength < 2 ^ 64) (hrows : 1 ≤ rows)
    (h : ∀ row < rows, ∀ col < cols,
      wrap ((startRow + row) * dim2 + (startCol + col)) < arrayLength) :
    startCol + cols < 2 ^ 64 ∨ 2 ^ 64 ≤ startRow * dim2 + startCol := by
  by_contra hwrap
  obtain ⟨hcols, hstart⟩ := not_or.mp hwrap
  have hplace := h 0 hrows (2 ^ 64 - 1 - (startRow * dim2 + startCol)) (by omega)
  rw [Nat.add_zero, wrap] at hplace
  omega

end Arithmetic

theorem place_lt_of_covered (hv : WellShaped v) (hpass : Passes v data startRow startCol)
    (hcov : Covered v data startRow startCol) (hstartCol : startCol < 2 ^ 64)
    (hcols : columns data < 2 ^ 64) {row col : Nat} (hrow : row < data.length)
    (hcol : col < columns data) :
    wrap ((startRow + row) * (writeDims v).2 + (startCol + col)) < v.arrayLength := by
  have hlt := v.arrayLength_lt
  have hrows := hpass.rows
  have hfits := hpass.columns
  rw [wrap_of_lt hcov.rows] at hrows
  have hrow' : startRow + row < (writeDims v).1 := by omega
  by_cases hwrap : startCol + columns data < 2 ^ 64
  · rw [wrap_of_lt hwrap] at hfits
    have hcol' : startCol + col < (writeDims v).2 := by omega
    rw [wrap_index hv hrow' hcol']
    exact index_lt hv hrow' hcol'
  · have hstart := hcov.columns.resolve_left hwrap
    rw [wrap_of_le (by omega) (by omega)] at hfits
    have hfirst : startRow * (writeDims v).2 ≤ (startRow + row) * (writeDims v).2 :=
      Nat.mul_le_mul_right _ (Nat.le_add_right _ _)
    have hlast : (startRow + row) * (writeDims v).2 + (writeDims v).2 ≤ v.arrayLength := by
      rw [← writeDims_mul hv, ← Nat.succ_mul]
      exact Nat.mul_le_mul_right _ hrow'
    rw [wrap_of_le (by omega) (by omega)]
    omega

theorem two_le_size (t : ElementType) : 2 ≤ size t := by
  cases t <;> decide

theorem covered_of_places (hv : WellShaped v) (hsize : v.arrayLength * size t < 2 ^ 64)
    (hpass : Passes v data startRow startCol) (hstartRow : startRow < 2 ^ 64)
    (hstartCol : startCol < 2 ^ 64) (hcols : columns data ≠ 0)
    (h : ∀ row < data.length, ∀ col < columns data, (∃ x, data[row]?.bind (·[col]?) = some x) ∧
      wrap ((startRow + row) * (writeDims v).2 + (startCol + col)) < v.arrayLength) :
    Covered v data startRow startCol := by
  have hrows : 1 ≤ data.length := by
    cases data with
    | nil => exact absurd rfl hcols
    | cons row data => exact Nat.succ_pos _
  have hdim2 : (writeDims v).2 ≤ v.arrayLength := (dims_le hv).2
  have hdouble : v.arrayLength * 2 ≤ v.arrayLength * size t :=
    Nat.mul_le_mul_left _ (two_le_size t)
  have hlength : (writeDims v).2 + v.arrayLength < 2 ^ 64 := by omega
  have hpos : 0 < (writeDims v).1 * (writeDims v).2 := writeDims_mul hv ▸ hv.nonempty
  have hplaces := fun row hrow col hcol => (h row hrow col hcol).2
  refine ⟨?_, ?_, ?_⟩
  · intro line hline
    obtain ⟨row, hrow, rfl⟩ := List.getElem_of_mem hline
    obtain ⟨x, hx⟩ := (h row hrow (columns data - 1) (by omega)).1
    rw [List.getElem?_eq_getElem hrow, Option.bind_some] at hx
    obtain ⟨hcol, -⟩ := List.getElem?_eq_some_iff.mp hx
    omega
  · exact rows_lt_of_places (Nat.pos_of_mul_pos_left hpos) hlength hstartRow hstartCol
      (Nat.one_le_iff_ne_zero.mpr hcols) hpass.columns hplaces
  · exact cols_lt_of_places v.arrayLength_lt hrows hplaces

/-- No writer goes beyond the array or the data exactly if a window that passes the checks is
empty or covered. -/
theorem isSome_writeArrayOf_iff (hdims : v.arrayDimensions.length ≤ 2)
    (hproduct : v.arrayDimensions ≠ [] →
      (v.arrayDimensions.map UInt32.toNat).prod = v.arrayLength)
    (hsize : v.arrayLength * size t < 2 ^ 64) (hstartRow : startRow < 2 ^ 64)
    (hstartCol : startCol < 2 ^ 64) (hcols : columns data < 2 ^ 64) :
    (∀ isNull calls,
        (writeArrayOf t isNull calls (some ⟨t, v⟩) data startRow startCol).isSome = true) ↔
      (Passes v data startRow startCol → columns data = 0 ∨ Covered v data startRow startCol) := by
  constructor
  · intro h hpass
    have hv : WellShaped v := ⟨hdims, hproduct, Nat.one_le_iff_ne_zero.mpr hpass.nonempty⟩
    have hsome := h false {}
    rw [writeArrayOf_eq, openArray_of_passes hpass] at hsome
    simp only [Option.isSome_map] at hsome
    refine or_iff_not_imp_left.mpr fun hne => ?_
    exact covered_of_places hv hsize hpass hstartRow hstartCol hne
      ((isSome_patch_iff _).mp hsome)
  · intro h isNull calls
    rw [writeArrayOf_eq]
    cases hopen : openArray t isNull calls (some ⟨t, v⟩) data startRow startCol with
    | error code => rfl
    | ok v' =>
      obtain ⟨rfl, hpass⟩ := passes_of_openArray hopen
      have hv : WellShaped v' := ⟨hdims, hproduct, Nat.one_le_iff_ne_zero.mpr hpass.nonempty⟩
      simp only [Option.isSome_map]
      rw [isSome_patch_iff]
      intro row hrow col hcol
      obtain hempty | hcov := h hpass
      · omega
      · have hline := hcov.length_le data[row] (List.getElem_mem hrow)
        constructor
        · rw [List.getElem?_eq_getElem hrow, Option.bind_some]
          exact ⟨_, List.getElem?_eq_getElem (by omega)⟩
        · exact place_lt_of_covered hv hpass hcov hstartCol hcols hrow hcol

theorem isSome_writeArrayOf_grid :
    (writeArrayOf .Int16 false {} (some ⟨.Int16, grid⟩) [[7], [8]] 0 1).isSome = true := by
  have hcov : Covered grid [[7], [8]] 0 1 := ⟨by decide, by decide, .inl (by decide)⟩
  have hall := (isSome_writeArrayOf_iff (by decide) (fun _ => by decide) (by decide) (by decide)
    (by decide) (by decide)).mpr fun _ => .inr hcov
  exact hall false {}

/-- The second row is shorter than the first. -/
theorem not_isSome_writeArrayOf_ragged : ¬∀ (t : ElementType) (v : Variant t)
    (data : List (List (Elem t))) (startRow startCol : Nat), v.arrayDimensions.length ≤ 2 →
    (v.arrayDimensions ≠ [] → (v.arrayDimensions.map UInt32.toNat).prod = v.arrayLength) →
    v.arrayLength * size t < 2 ^ 64 → startRow < 2 ^ 64 → startCol < 2 ^ 64 →
    columns data < 2 ^ 64 → ∀ isNull calls,
      (writeArrayOf t isNull calls (some ⟨t, v⟩) data startRow startCol).isSome = true := by
  intro h
  have hsome := h .Int16 grid [[1, 2], [3]] 0 0 (by decide) (fun _ => by decide) (by decide)
    (by decide) (by decide) (by decide) false {}
  have hnone : writeArrayOf .Int16 false {} (some ⟨.Int16, grid⟩) [[1, 2], [3]] 0 0 = none := rfl
  rw [hnone] at hsome
  exact Bool.false_ne_true hsome

end Writes

end Datenbereitstellung.WindowBounds
