import Datenbereitstellung.Lib.Windows
import Datenbereitstellung.OpcUa

namespace Datenbereitstellung.OpcUaArrays

open Strings OpcUa Lib.Windows

section Variants

inductive ElementType
  | Int16
  | Int32
  | Float
  | Double
  | String
  deriving DecidableEq

@[reducible] def Elem : ElementType → Type
  | .Int16 => Int16
  | .Int32 => Int32
  | .Float => Float32
  | .Double => Float
  | .String => Text

/-- The array in a `UA_Variant`. -/
structure Variant (t : ElementType) where
  arrayLength : Nat
  data : Fin arrayLength → Elem t
  arrayDimensions : List UInt32
  arrayLength_lt : arrayLength < 2 ^ 64

/-- The value of a node; `none` is a value of another type. -/
abbrev Node := Option (Σ t, Variant t)

def arrayOf (t : ElementType) : Node → Option (Variant t)
  | some ⟨t', v⟩ => if h : t' = t then some (h ▸ v) else none
  | none => none

@[simp] theorem arrayOf_self (t : ElementType) (v : Variant t) :
    arrayOf t (some ⟨t, v⟩) = some v := by
  simp [arrayOf]

def wrap (n : Nat) : Nat := n % 2 ^ 64

theorem wrap_of_lt {n : Nat} (h : n < 2 ^ 64) : wrap n = n := Nat.mod_eq_of_lt h

end Variants

section Read

variable {t : ElementType}

def readDims (v : Variant t) : Option (Nat × Nat) :=
  match v.arrayDimensions with
  | [] => some (1, v.arrayLength)
  | [dim2] => some (1, dim2.toNat)
  | [dim1, dim2] => some (dim1.toNat, dim2.toNat)
  | _ => none

/-- The loops over the window; a row ends at the end of the array. -/
def readWindow (v : Variant t) (dim2 startRow endRow startCol endCol : Nat) :
    List (List (Elem t)) :=
  (List.range' startRow (endRow - startRow)).map fun row =>
    load v.data ((List.range' startCol (endCol - startCol)).map fun col => wrap (row * dim2 + col))

/-- The readers take the value for an array of their type. `isNull` says that `parseNodeId` finds
no node, `variant` is what the attribute service delivers. -/
def readArray (t : ElementType) (isNull : Bool) (variant : Option (Variant t))
    (startRow rowCount startCol colCount : Nat) : Reading (List (List (Elem t))) :=
  if isNull then ⟨[], false, 1⟩
  else match variant with
    | none => ⟨[], false, 2⟩
    | some v =>
      if v.arrayLength = 0 then ⟨[], false, 3⟩
      else match readDims v with
        | none => ⟨[], false, 4⟩
        | some (dim1, dim2) =>
          if startRow ≥ dim1 ∨ startCol ≥ dim2 then ⟨[], false, 5⟩
          else
            let endRow := min dim1 (wrap (startRow + rowCount))
            let endCol := min dim2 (wrap (startCol + colCount))
            ⟨readWindow v dim2 startRow endRow startCol endCol, true, 0⟩

def readInt16Array := readArray .Int16

def readInt32Array := readArray .Int32

def readFloatArray := readArray .Float

def readDoubleArray := readArray .Double

/-- Behind the check the start is checked a second time. -/
def readStringArray (isNull : Bool) (variant : Option (Variant .String))
    (startRow rowCount startCol colCount : Nat) : Reading (List (List Text)) :=
  if isNull then ⟨[], false, 1⟩
  else match variant with
    | none => ⟨[], false, 2⟩
    | some v =>
      if v.arrayLength = 0 then ⟨[], false, 3⟩
      else match readDims v with
        | none => ⟨[], false, 4⟩
        | some (dim1, dim2) =>
          if startRow ≥ dim1 ∨ startCol ≥ dim2 then ⟨[], false, 5⟩
          else
            let startRow := if startRow ≥ dim1 then dim1 else startRow
            let startCol := if startCol ≥ dim2 then dim2 else startCol
            let endRow := min dim1 (wrap (startRow + rowCount))
            let endCol := min dim2 (wrap (startCol + colCount))
            ⟨readWindow v dim2 startRow endRow startCol endCol, true, 0⟩

theorem readStringArray_eq : readStringArray = readArray .String := by
  funext isNull variant startRow rowCount startCol colCount
  simp only [readStringArray, readArray]
  split
  · rfl
  cases variant with
  | none => rfl
  | some v =>
    dsimp only
    split
    · rfl
    cases readDims v with
    | none => rfl
    | some dims =>
      dsimp only
      by_cases h : startRow ≥ dims.1 ∨ startCol ≥ dims.2
      · rw [if_pos h, if_pos h]
      · rw [if_neg h, if_neg h, if_neg fun hr => h (.inl hr), if_neg fun hc => h (.inr hc)]

def readArrayOf : (t : ElementType) → Bool → Option (Variant t) → Nat → Nat → Nat → Nat →
    Reading (List (List (Elem t)))
  | .Int16 => readInt16Array
  | .Int32 => readInt32Array
  | .Float => readFloatArray
  | .Double => readDoubleArray
  | .String => readStringArray

theorem readArrayOf_eq (t : ElementType) : readArrayOf t = readArray t := by
  cases t with
  | String => exact readStringArray_eq
  | _ => rfl

end Read

section Write

variable {t : ElementType}

structure Calls where
  read : Bool := true
  copy : Bool := true
  write : Bool := true

def writeDims (v : Variant t) : Nat × Nat :=
  match v.arrayDimensions with
  | [dim1, dim2] => (dim1.toNat, dim2.toNat)
  | [dim2] => (1, dim2.toNat)
  | _ => (1, v.arrayLength)

def columns (data : List (List (Elem t))) : Nat := (data.headD []).length

def openArray (t : ElementType) (isNull : Bool) (calls : Calls) (node : Node)
    (data : List (List (Elem t))) (startRow startCol : Nat) : Except Int (Variant t) :=
  if isNull then .error 1
  else match if calls.read then arrayOf t node else none with
    | none => .error 2
    | some v =>
      if v.arrayLength = 0 then .error 2
      else if wrap (startRow + data.length) > (writeDims v).1 ∨
          wrap (startCol + columns data) > (writeDims v).2 then .error 3
      else .ok v

/-- The loops that put the window into the elements. An access outside of an array or of `data`
is undefined. -/
def patch (assigned : Elem t → Elem t) (v : Variant t) (data : List (List (Elem t)))
    (startRow startCol : Nat) : Option (Variant t) := do
  let values ← (List.range data.length).foldlM (fun values row =>
    (List.range (columns data)).foldlM (fun values col => do
      let x ← data[row]?.bind (·[col]?)
      store values (wrap ((startRow + row) * (writeDims v).2 + (startCol + col))) (assigned x))
      values) v.data
  pure { v with data := values }

/-- The server stores what a successful write sends, and nothing on a failed one. -/
def send (calls : Calls) (node : Node) (v : Variant t) : Written × Node :=
  if calls.write then (⟨true, 0⟩, some ⟨t, v⟩) else (⟨false, 5⟩, node)

/-- The writers of numbers fill a copy of the array. -/
def writeArray (t : ElementType) (isNull : Bool) (calls : Calls) (node : Node)
    (data : List (List (Elem t))) (startRow startCol : Nat) : Option (Written × Node) :=
  match openArray t isNull calls node data startRow startCol with
  | .error code => some (⟨false, code⟩, node)
  | .ok v => do
    let newVariant ← patch id v data startRow startCol
    if !calls.copy then pure (⟨false, 4⟩, node)
    else pure (send calls node newVariant)

def writeInt16Array := writeArray .Int16

def writeInt32Array := writeArray .Int32

def writeFloatArray := writeArray .Float

def writeDoubleArray := writeArray .Double

def writeStringArray (isNull : Bool) (calls : Calls) (node : Node) (data : List (List Text))
    (startRow startCol : Nat) : Option (Written × Node) :=
  match openArray .String isNull calls node data startRow startCol with
  | .error code => some (⟨false, code⟩, node)
  | .ok v => do
    let variant ← patch cStr v data startRow startCol
    pure (send calls node variant)

def writeArrayOf : (t : ElementType) → Bool → Calls → Node → List (List (Elem t)) → Nat → Nat →
    Option (Written × Node)
  | .Int16 => writeInt16Array
  | .Int32 => writeInt32Array
  | .Float => writeFloatArray
  | .Double => writeDoubleArray
  | .String => writeStringArray

end Write

end Datenbereitstellung.OpcUaArrays
