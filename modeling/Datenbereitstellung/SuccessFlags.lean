import Datenbereitstellung.SpsDialog

namespace Datenbereitstellung.SuccessFlags

open Strings SpsDialog SPSController
open OpcUa (Reading)

variable {α S : Type} {d : SPSDialog} {c : SPSController}

section Reads

/-- The variable is registered and the client reads it. -/
def Succeeds (d : SPSDialog) (call : ReadCall α) : Prop :=
  ∃ var, d.variableMap call.name = some var ∧ (d.client.read var call).success = true

/-- The flag says whether the read succeeded, and if so the value is the client's. -/
structure Faithful (d : SPSDialog) (call : ReadCall α) (r : Reading α) : Prop where
  success : r.success = true ↔ Succeeds d call
  value : r.success = true → ∀ var, d.variableMap call.name = some var →
    r.value = (d.client.read var call).value

theorem readVariable_faithful (call : ReadCall α) {read : VariableInfo → Reading α}
    (hread : ∀ var, d.client.read var call = read var) (missing failed : α) :
    Faithful d call (d.readVariable read missing failed call.name) := by
  rw [SPSDialog.readVariable]
  cases hvar : d.variableMap call.name with
  | none => exact ⟨by simp [Succeeds, hvar], nofun⟩
  | some var =>
    cases hs : (read var).success with
    | true => exact ⟨by simp [Succeeds, hvar, hread, hs], by simp [hvar, hread, hs]⟩
    | false => exact ⟨by simp [Succeeds, hvar, hread, hs], by simp [hs]⟩

theorem read_faithful {call : ReadCall α} (h : call.isInt32 = false) :
    Faithful d call (d.read call) := by
  cases call with
  | readInt32 name => cases h
  | readInt16 | readFloat | readDouble | readBool | readString | readChars | readWString
  | readInt16Array | readInt32Array | readFloatArray | readDoubleArray | readBoolArray
  | readStringArray | readWStringArray => exact readVariable_faithful _ (fun _ => rfl) _ _

theorem readInt32_faithful_iff (name : Text) :
    Faithful d (.readInt32 name) (d.readInt32 name) ↔ d.variableMap name = none := by
  rw [SPSDialog.readInt32]
  cases hvar : d.variableMap name with
  | none => exact iff_of_true ⟨by simp [Succeeds, ReadCall.name, hvar], nofun⟩ rfl
  | some var =>
    refine iff_of_false (fun h => ?_) nofun
    have hs := h.success
    simp only [Succeeds, ReadCall.name, hvar, Option.some.injEq, exists_eq_left'] at hs
    have hread : d.client.read var (.readInt32 name) = d.client.readInt32 var := rfl
    rw [hread] at hs
    cases hf : (d.client.readInt32 var).success <;> simp [hf] at hs

theorem read_faithful_iff (call : ReadCall α) :
    Faithful d call (d.read call) ↔
      (call.isInt32 = true → d.variableMap call.name = none) := by
  cases hi : call.isInt32 with
  | false => exact iff_of_true (read_faithful hi) nofun
  | true =>
    cases call with
    | readInt32 name => exact (readInt32_faithful_iff name).trans ⟨fun h _ => h, fun h => h rfl⟩
    | _ => cases hi

end Reads

section Fields

/-- The reads that are made: none after the first whose flag is `true`. -/
def readsMade (c : SPSController) : List (FieldRead S) → List (FieldRead S)
  | [] => []
  | f :: fs => f :: if (c.dialog.read f.call).success then [] else readsMade c fs

def readsStored (c : SPSController) (fs : List (FieldRead S)) : List (FieldRead S) :=
  (readsMade c fs).filter fun f => !(c.dialog.read f.call).success

/-- The flag says whether all the reads that were made succeeded, and if so every field that was
set has the client's value. -/
structure FaithfulFields (c : SPSController) (fs : List (FieldRead S)) (r : Reading S) : Prop where
  success : r.success = true ↔ ∀ f ∈ readsMade c fs, Succeeds c.dialog f.call
  value : r.success = true → ∀ f ∈ readsStored c fs, ∀ var,
    c.dialog.variableMap f.call.name = some var →
      f.get r.value = some (c.dialog.client.read var f.call).value

variable {f : FieldRead S} {fs : List (FieldRead S)}

theorem flag_iff (h : f.call.isInt32 = false) :
    (c.dialog.read f.call).success = true ↔ Succeeds c.dialog f.call :=
  (read_faithful h).success

theorem readFields_success_iff (h : ∀ f ∈ fs, f.call.isInt32 = false) (s : S) :
    (c.readFields fs s).success = true ↔ ∃ f ∈ fs, Succeeds c.dialog f.call := by
  induction fs generalizing s with
  | nil => simp [readFields]
  | cons f fs ih =>
    have hf := flag_iff (c := c) (h f List.mem_cons_self)
    have hfs := fun s => ih (fun g hg => h g (List.mem_cons_of_mem f hg)) s
    simp only [List.mem_cons, or_and_right, exists_or, exists_eq_left]
    rw [← hf, readFields]
    cases hs : (c.dialog.read f.call).success with
    | true => simp
    | false => simpa using hfs _

theorem readsMade_succeed_iff (h : f.call.isInt32 = false) :
    (∀ g ∈ readsMade c (f :: fs), Succeeds c.dialog g.call) ↔ Succeeds c.dialog f.call := by
  rw [readsMade, List.forall_mem_cons]
  refine and_iff_left_of_imp fun hf => ?_
  rw [if_pos ((flag_iff h).mpr hf)]
  exact nofun

theorem readsStored_of_succeeds (h : f.call.isInt32 = false) (hf : Succeeds c.dialog f.call) :
    readsStored c (f :: fs) = [] := by
  have hs := (flag_iff h).mpr hf
  simp [readsStored, readsMade, hs]

theorem readFields_faithful_iff (h : ∀ g ∈ f :: fs, g.call.isInt32 = false) (s : S) :
    FaithfulFields c (f :: fs) (c.readFields (f :: fs) s) ↔
      Succeeds c.dialog f.call ∨ ∀ g ∈ f :: fs, ¬Succeeds c.dialog g.call := by
  have hf := h f List.mem_cons_self
  have hflag := readFields_success_iff (c := c) h s
  constructor
  · intro hfaith
    have hs := hfaith.success
    rw [hflag, readsMade_succeed_iff hf] at hs
    by_cases hany : ∃ g ∈ f :: fs, Succeeds c.dialog g.call
    · exact .inl (hs.mp hany)
    · exact .inr fun g hg hsucc => hany ⟨g, hg, hsucc⟩
  · intro hcase
    have hs : (∃ g ∈ f :: fs, Succeeds c.dialog g.call) ↔ Succeeds c.dialog f.call := by
      refine ⟨?_, fun hsucc => ⟨f, List.mem_cons_self, hsucc⟩⟩
      rintro ⟨g, hg, hsucc⟩
      exact hcase.elim id fun hnone => absurd hsucc (hnone g hg)
    refine ⟨?_, fun hsuccess => ?_⟩
    · rw [hflag, readsMade_succeed_iff hf]
      exact hs
    · rw [readsStored_of_succeeds hf (hs.mp (hflag.mp hsuccess))]
      exact nofun

theorem cameraFields_not_int32 : ∀ f ∈ cameraFields, f.call.isInt32 = false := by
  simp [cameraFields, ReadCall.isInt32]

theorem processFields_not_int32 : ∀ f ∈ processFields, f.call.isInt32 = false := by
  simp [processFields, ReadCall.isInt32]

end Fields

section Statement

/-- A client that follows the convention of `(value, success, errorCode)`. -/
def Honest (client : ISPSClient) : Prop :=
  ∀ (α : Type) (call : ReadCall α) (var : VariableInfo),
    (client.read var call).success = true → (client.read var call).code = 0

/-- The flags of the dialog are right but for `readInt32`, those of the two structures only where
nothing was read after the first value, or nothing at all. -/
theorem flags_iff (c : SPSController) :
    (∀ (α : Type) (call : ReadCall α), Faithful c.dialog call (c.read call) ↔
      (call.isInt32 = true → c.dialog.variableMap call.name = none)) ∧
    (FaithfulFields c cameraFields c.readCameraSettings ↔
      Succeeds c.dialog (.readInt16 (lit "exposure")) ∨
        ∀ f ∈ cameraFields, ¬Succeeds c.dialog f.call) ∧
    (FaithfulFields c processFields c.readProcessImgParams ↔
      Succeeds c.dialog (.readInt16 (lit "MedianBlurr")) ∨
        ∀ f ∈ processFields, ¬Succeeds c.dialog f.call) :=
  ⟨fun _ call => read_faithful_iff call, readFields_faithful_iff cameraFields_not_int32 {},
    readFields_faithful_iff processFields_not_int32 {}⟩

def workingClient : ISPSClient where
  registerVariable _ _ _ := (true, none)
  readInt16 _ := ⟨42, true, 0⟩
  readInt32 _ := ⟨424242, true, 0⟩
  readFloat _ := ⟨3, true, 0⟩
  readDouble _ := ⟨6, true, 0⟩
  readBool _ := ⟨true, true, 0⟩
  readString _ := ⟨[], true, 0⟩
  readChars _ _ := ⟨[], true, 0⟩
  readWString _ := ⟨[], true, 0⟩
  readInt16Array _ _ := ⟨[], true, 0⟩
  readInt32Array _ _ := ⟨[], true, 0⟩
  readFloatArray _ _ := ⟨[], true, 0⟩
  readDoubleArray _ _ := ⟨[], true, 0⟩
  readBoolArray _ _ := ⟨[], true, 0⟩
  readStringArray _ _ := ⟨[], true, 0⟩
  readWStringArray _ _ := ⟨[], true, 0⟩

theorem honest_workingClient : Honest workingClient := by
  intro α call var _
  cases call <;> rfl

def oneVariable : SPSDialog :=
  ((SPSDialog.mk workingClient fun _ => none).registerVariable ['n'] .Int32 ['n']).2

theorem flags_registeredInt32 : ¬∀ c : SPSController, Honest c.dialog.client →
    (∀ (α : Type) (call : ReadCall α), Faithful c.dialog call (c.read call)) ∧
      FaithfulFields c cameraFields c.readCameraSettings ∧
      FaithfulFields c processFields c.readProcessImgParams := by
  intro h
  have hf := (h ⟨oneVariable⟩ honest_workingClient).1 Int (.readInt32 ['n'])
  have hflag : (oneVariable.readInt32 ['n']).success = false := by decide +kernel
  have hsucc : Succeeds oneVariable (.readInt32 ['n']) := ⟨_, rfl, rfl⟩
  have htrue : (oneVariable.readInt32 ['n']).success = true := hf.success.mpr hsucc
  rw [hflag] at htrue
  cases htrue

end Statement

end Datenbereitstellung.SuccessFlags
