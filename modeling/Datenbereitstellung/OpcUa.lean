import Mathlib.Logic.Function.Basic
import Datenbereitstellung.Files
import Datenbereitstellung.Lib.Rely

namespace Datenbereitstellung.OpcUa

open Strings Files Lib Lib.Program

inductive BoolNode
  | Error
  | ProjektlistUpdated
  | WriteData
  | ReadData
  | ProjektVorhanden
  | ubertragenAbbrechen
  | UebertgarungBeendet
  deriving DecidableEq

inductive Int16Node
  | StatusCode
  | LenProjekt
  | AnzDatenblöcke
  | IndexData
  | StaerkeLive
  | StaerkeErledigt
  | streghtsG0
  | streghtsG1
  | streghtsG2
  | streghtsG3
  | objektgroesseX
  | objektgroesseY
  deriving DecidableEq

inductive Int16ArrayNode
  | colorG0
  | colorG1
  | colorG2
  | colorG3
  | FarbeLive
  | FarbeErledigt
  deriving DecidableEq

inductive StringArrayNode
  | DataArray
  | ProjektArray
  deriving DecidableEq

/-- The value of a string array node. `arrayDimensions` is empty where the server sends none. -/
structure StringArray where
  elements : List Text
  arrayDimensions : List Nat
  length_eq : arrayDimensions ≠ [] → elements.length = arrayDimensions.prod

structure Nodes where
  bool : BoolNode → Bool
  int16 : Int16Node → Int
  int16Array : Int16ArrayNode → List (List Int)
  strings : StringArrayNode → StringArray
  ProjektName : Text
  minArcRadius : Rat

def emptyNodes : Nodes where
  bool _ := false
  int16 _ := 0
  int16Array _ := []
  strings _ := { elements := [[], []], arrayDimensions := [], length_eq := by simp }
  ProjektName := []
  minArcRadius := 0

def Nodes.setBool (ns : Nodes) (n : BoolNode) (v : Bool) : Nodes :=
  { ns with bool := Function.update ns.bool n v }

def Nodes.setInt16 (ns : Nodes) (n : Int16Node) (v : Int) : Nodes :=
  { ns with int16 := Function.update ns.int16 n v }

def Nodes.setStrings (ns : Nodes) (n : StringArrayNode) (v : StringArray) : Nodes :=
  { ns with strings := Function.update ns.strings n v }

section Updates

variable (ns : Nodes)

@[simp] theorem setBool_bool (n m : BoolNode) (v : Bool) :
    (ns.setBool n v).bool m = if m = n then v else ns.bool m := by
  simp [Nodes.setBool, Function.update_apply]

@[simp] theorem setBool_int16 (n : BoolNode) (v : Bool) : (ns.setBool n v).int16 = ns.int16 := rfl

@[simp] theorem setBool_strings (n : BoolNode) (v : Bool) :
    (ns.setBool n v).strings = ns.strings := rfl

@[simp] theorem setBool_ProjektName (n : BoolNode) (v : Bool) :
    (ns.setBool n v).ProjektName = ns.ProjektName := rfl

@[simp] theorem setBool_minArcRadius (n : BoolNode) (v : Bool) :
    (ns.setBool n v).minArcRadius = ns.minArcRadius := rfl

@[simp] theorem setInt16_bool (n : Int16Node) (v : Int) : (ns.setInt16 n v).bool = ns.bool := rfl

@[simp] theorem setInt16_int16 (n m : Int16Node) (v : Int) :
    (ns.setInt16 n v).int16 m = if m = n then v else ns.int16 m := by
  simp [Nodes.setInt16, Function.update_apply]

@[simp] theorem setInt16_strings (n : Int16Node) (v : Int) :
    (ns.setInt16 n v).strings = ns.strings := rfl

@[simp] theorem setInt16_ProjektName (n : Int16Node) (v : Int) :
    (ns.setInt16 n v).ProjektName = ns.ProjektName := rfl

@[simp] theorem setInt16_minArcRadius (n : Int16Node) (v : Int) :
    (ns.setInt16 n v).minArcRadius = ns.minArcRadius := rfl

@[simp] theorem setStrings_bool (n : StringArrayNode) (v : StringArray) :
    (ns.setStrings n v).bool = ns.bool := rfl

@[simp] theorem setStrings_int16 (n : StringArrayNode) (v : StringArray) :
    (ns.setStrings n v).int16 = ns.int16 := rfl

@[simp] theorem setStrings_strings (n m : StringArrayNode) (v : StringArray) :
    (ns.setStrings n v).strings m = if m = n then v else ns.strings m := by
  simp [Nodes.setStrings, Function.update_apply]

@[simp] theorem setStrings_ProjektName (n : StringArrayNode) (v : StringArray) :
    (ns.setStrings n v).ProjektName = ns.ProjektName := rfl

@[simp] theorem setStrings_minArcRadius (n : StringArrayNode) (v : StringArray) :
    (ns.setStrings n v).minArcRadius = ns.minArcRadius := rfl

end Updates

structure Reading (α : Type) where
  value : α
  success : Bool
  code : Int := 0

/-- `(success, errorCode)` -/
structure Written where
  success : Bool
  code : Int := 0

structure Scalar where
  b : Int
  g : Int
  r : Int

structure RenderParams where
  imageSizeX : Int
  imageSizeY : Int
  colorG0 : Scalar
  colorG1 : Scalar
  colorG2 : Scalar
  colorG3 : Scalar
  liveColor : Scalar
  doneColor : Scalar
  liveThickness : Int
  doneThickness : Int
  thicknessG0 : Int
  thicknessG1 : Int
  thicknessG2 : Int
  thicknessG3 : Int
  horizontalOffset : Int
  verticalOffset : Int
  minArcRadius : Rat
  currentRecord : Int := -1

/-- The calls by which the service touches what it shares with others: the OPC UA attribute
services, the file system, the drawing library, the callback and the clock. -/
inductive Req
  | readBool (n : BoolNode)
  | writeBool (n : BoolNode) (v : Bool)
  | readInt16 (n : Int16Node)
  | writeInt16 (n : Int16Node) (v : Int)
  | readInt16Array (n : Int16ArrayNode)
  | readStrings (n : StringArrayNode)
  | writeStrings (n : StringArrayNode) (v : StringArray)
  | readProjektName
  | readMinArcRadius
  | writeInfoText (text : Text) (length : Nat)
  | status (path : Text)
  | entries (path : Text)
  | openFile (path : Text)
  | renderPreview (path : Text) (params : RenderParams)
  | publishImage
  | keepAlive
  | now
  | handshakeExpired (lastProgress : Nat)
  | ackExpired (ackDeadline : Nat)

@[reducible] def Ans : Req → Type
  | .readBool _ => Reading Bool
  | .writeBool _ _ => Written
  | .readInt16 _ => Reading Int
  | .writeInt16 _ _ => Written
  | .readInt16Array _ => Reading (List (List Int))
  | .readStrings _ => Reading StringArray
  | .writeStrings _ _ => Written
  | .readProjektName => Reading Text
  | .readMinArcRadius => Reading Rat
  | .writeInfoText _ _ => Written
  | .status _ => Except Text (Option FileKind)
  | .entries _ => Except Text (List DirEntry)
  | .openFile _ => Option Text
  | .renderPreview _ _ => Except Text Int
  | .publishImage => Except Text Unit
  | .keepAlive => Bool
  | .now => Nat
  | .handshakeExpired _ => Bool
  | .ackExpired _ => Bool

/-- What the log of a run records: a call of the service with its answer, or a block that the
PLC has taken from `DataArray` under the number it read before. -/
inductive Event
  | call (q : Req) (a : Ans q)
  | consumed (index : Int) (block : List Text)

/-- The shared state, with the PLC's own state and the log, newest event first. -/
structure World (π : Type) where
  nodes : Nodes
  fs : FileSystem
  plc : π
  log : List Event := []

variable {π : Type}

/-- A failed write leaves the node unchanged. -/
def Nodes.after (ns : Nodes) : (q : Req) → Ans q → Nodes
  | .writeBool n v, a => if a.success then ns.setBool n v else ns
  | .writeInt16 n v, a => if a.success then ns.setInt16 n v else ns
  | .writeStrings n v, a => if a.success then ns.setStrings n v else ns
  | _, _ => ns

/-- A successful read delivers the value of the node, the file system what is there. -/
def Truthful (w : World π) : (q : Req) → Ans q → Prop
  | .readBool n, a => a.success = true → a.value = w.nodes.bool n
  | .readInt16 n, a => a.success = true → a.value = w.nodes.int16 n
  | .readInt16Array n, a => a.success = true → a.value = w.nodes.int16Array n
  | .readStrings n, a => a.success = true → a.value = w.nodes.strings n
  | .readProjektName, a => a.success = true → a.value = w.nodes.ProjektName
  | .readMinArcRadius, a => a.success = true → a.value = w.nodes.minArcRadius
  | .status path, a => a = w.fs.status path
  | .entries path, a => a = w.fs.entries path
  | .openFile path, a => a = w.fs.content path
  | _, _ => True

def World.after (w : World π) (q : Req) (a : Ans q) : World π :=
  { w with nodes := w.nodes.after q a, log := .call q a :: w.log }

/-- The system in which calls may be answered as `allow` says, and the others do what `rely` says. -/
def system (allow : World π → (q : Req) → Ans q → Prop) (rely : World π → World π → Prop) :
    System Req Ans (World π) where
  exec q w a w' := Truthful w q a ∧ allow w q a ∧ w' = w.after q a
  rely := rely

/-- Every OPC read and every OPC write succeeds. -/
def Succeeds : (q : Req) → Ans q → Prop
  | .readBool _, a => a.success = true
  | .writeBool _ _, a => a.success = true
  | .readInt16 _, a => a.success = true
  | .writeInt16 _ _, a => a.success = true
  | .readInt16Array _, a => a.success = true
  | .readStrings _, a => a.success = true
  | .writeStrings _ _, a => a.success = true
  | .readProjektName, a => a.success = true
  | .readMinArcRadius, a => a.success = true
  | .writeInfoText _ _, a => a.success = true
  | _, _ => True

def honest (w : World π) : (q : Req) → Ans q
  | .readBool n => { value := w.nodes.bool n, success := true }
  | .writeBool _ _ => { success := true }
  | .readInt16 n => { value := w.nodes.int16 n, success := true }
  | .writeInt16 _ _ => { success := true }
  | .readInt16Array n => { value := w.nodes.int16Array n, success := true }
  | .readStrings n => { value := w.nodes.strings n, success := true }
  | .writeStrings _ _ => { success := true }
  | .readProjektName => { value := w.nodes.ProjektName, success := true }
  | .readMinArcRadius => { value := w.nodes.minArcRadius, success := true }
  | .writeInfoText _ _ => { success := true }
  | .status path => w.fs.status path
  | .entries path => w.fs.entries path
  | .openFile path => w.fs.content path
  | .renderPreview _ _ => .ok 0
  | .publishImage => .ok ()
  | .keepAlive => true
  | .now => 0
  | .handshakeExpired _ => false
  | .ackExpired _ => false

theorem truthful_honest (w : World π) (q : Req) : Truthful w q (honest w q) := by
  cases q with
  | status => rfl
  | entries => rfl
  | openFile => rfl
  | writeBool | writeInt16 | writeStrings | writeInfoText | renderPreview | publishImage
  | keepAlive | now | handshakeExpired | ackExpired => trivial
  | _ => exact fun _ => rfl

def goOn : Rely.Move Req Ans (World π) := .run fun q w => (honest w q, w.after q (honest w q))

theorem goOn_sound {allow : World π → (q : Req) → Ans q → Prop} {rely : World π → World π → Prop}
    (h : ∀ w q, allow w q (honest w q)) : goOn.Sound (system allow rely) :=
  fun q w => ⟨truthful_honest w q, h w q, rfl⟩

abbrev M (α : Type) := Prog Req Ans Text α

section Calls

abbrev readBool (n : BoolNode) : M (Reading Bool) := Prog.perform (Req.readBool n)
abbrev writeBool (n : BoolNode) (v : Bool) : M Written := Prog.perform (Req.writeBool n v)
abbrev readInt16 (n : Int16Node) : M (Reading Int) := Prog.perform (Req.readInt16 n)
abbrev writeInt16 (n : Int16Node) (v : Int) : M Written := Prog.perform (Req.writeInt16 n v)
abbrev readInt16Array (n : Int16ArrayNode) : M (Reading (List (List Int))) :=
  Prog.perform (Req.readInt16Array n)
abbrev readStrings (n : StringArrayNode) : M (Reading StringArray) := Prog.perform (Req.readStrings n)
abbrev writeStrings (n : StringArrayNode) (v : StringArray) : M Written :=
  Prog.perform (Req.writeStrings n v)
abbrev readProjektName : M (Reading Text) := Prog.perform Req.readProjektName
abbrev readMinArcRadius : M (Reading Rat) := Prog.perform Req.readMinArcRadius
abbrev writeInfoText (text : Text) (length : Nat) : M Written :=
  Prog.perform (Req.writeInfoText text length)
abbrev status (path : Text) : M (Except Text (Option FileKind)) := Prog.perform (Req.status path)
abbrev entries (path : Text) : M (Except Text (List DirEntry)) := Prog.perform (Req.entries path)
abbrev openFile (path : Text) : M (Option Text) := Prog.perform (Req.openFile path)
abbrev renderPreview (path : Text) (params : RenderParams) : M (Except Text Int) :=
  Prog.perform (Req.renderPreview path params)
abbrev publishImage : M (Except Text Unit) := Prog.perform Req.publishImage
abbrev keepAlive : M Bool := Prog.perform Req.keepAlive
abbrev now : M Nat := Prog.perform Req.now
abbrev handshakeExpired (lastProgress : Nat) : M Bool := Prog.perform (Req.handshakeExpired lastProgress)
abbrev ackExpired (ackDeadline : Nat) : M Bool := Prog.perform (Req.ackExpired ackDeadline)

end Calls

section Arrays

/-- The two dimensions that the array functions of `OPCClient` assume. -/
def dims (v : StringArray) : Nat × Nat :=
  match v.arrayDimensions with
  | [d] => (1, d)
  | [d, e] => (d, e)
  | _ => (1, v.elements.length)

/-- What `UA_STRING_ALLOC` copies of a string: it ends at the first NUL. -/
def cStr (s : Text) : Text := s.takeWhile (fun c => c != '\x00')

theorem cStr_eq_self_iff (s : Text) : cStr s = s ↔ '\x00' ∉ s := by
  rw [cStr, List.takeWhile_eq_self_iff]
  constructor
  · intro h hmem
    simpa using h _ hmem
  · intro h c hc
    rw [bne_iff_ne]
    rintro rfl
    exact h hc

def patch (elements : List Text) (dim2 startRow startCol : Nat) (data : List (List Text))
    (cols : Nat) : List Text :=
  (List.range data.length).foldl (fun es row =>
    (List.range cols).foldl (fun es col =>
      es.set ((startRow + row) * dim2 + (startCol + col))
        (cStr ((data.getD row []).getD col []))) es) elements

theorem length_patch (elements : List Text) (dim2 startRow startCol : Nat)
    (data : List (List Text)) (cols : Nat) :
    (patch elements dim2 startRow startCol data cols).length = elements.length := by
  have hcols : ∀ (f : Nat → Nat) (g : Nat → Text) (l : List Nat) (es : List Text),
      (l.foldl (fun es col => es.set (f col) (g col)) es).length = es.length := by
    intro f g l
    induction l with
    | nil => simp
    | cons x l ih => intro es; simp [ih]
  have hrows : ∀ (l : List Nat) (es : List Text), (l.foldl (fun es row =>
      (List.range cols).foldl (fun es col =>
        es.set ((startRow + row) * dim2 + (startCol + col))
          (cStr ((data.getD row []).getD col []))) es) es).length = es.length := by
    intro l
    induction l with
    | nil => simp
    | cons x l ih => intro es; rw [List.foldl_cons, ih, hcols]
  exact hrows _ _

/-- A single row written from the start: its strings as C strings, then what stood there before. -/
theorem patch_row (elements L : List Text) (dim2 : Nat) (h : L.length ≤ elements.length) :
    patch elements dim2 0 0 [L] L.length = L.map cStr ++ elements.drop L.length := by
  have key : ∀ m, m ≤ L.length → (List.range m).foldl (fun es col =>
      es.set ((0 + 0) * dim2 + (0 + col)) (cStr (([L].getD 0 []).getD col []))) elements =
      (L.take m).map cStr ++ elements.drop m := by
    intro m hm
    induction m with
    | zero => simp
    | succ m ih =>
      have hlt : m < L.length := hm
      have hlen : ((L.take m).map cStr).length = m := by simp [hlt.le]
      rw [List.range_succ, List.foldl_append, ih hlt.le, List.take_succ_eq_append_getElem hlt]
      have hm : m < elements.length := by omega
      have hd : elements.drop m = elements[m] :: elements.drop (m + 1) :=
        List.drop_eq_getElem_cons hm
      have hi : (0 + 0) * dim2 + (0 + m) = m := by omega
      simp only [List.foldl_cons, List.foldl_nil, hi]
      rw [List.set_append_right _ _ (by omega), hlen, Nat.sub_self, hd, List.set_cons_zero]
      have hg : L.getD m [] = L[m] := by simp [List.getD_eq_getElem?_getD, hlt]
      simp only [List.getD_cons_zero, hg, List.map_append, List.append_assoc]
      rfl
  have := key L.length le_rfl
  rw [List.take_length] at this
  simpa [patch] using this

def StringArray.patched (v : StringArray) (startRow startCol : Nat) (data : List (List Text))
    (cols : Nat) : StringArray where
  elements := patch v.elements (dims v).2 startRow startCol data cols
  arrayDimensions := v.arrayDimensions
  length_eq h := by rw [length_patch, v.length_eq h]

theorem dims_mul (v : StringArray) : (dims v).1 * (dims v).2 = v.elements.length := by
  have h := v.length_eq
  rw [dims]
  split <;> simp_all

theorem dims_patched (v : StringArray) (startRow startCol : Nat) (data : List (List Text))
    (cols : Nat) : dims (v.patched startRow startCol data cols) = dims v := by
  simp only [dims, StringArray.patched, length_patch]

/-- `OPCClient::writeStringArray` for a registered node: one read and one write. -/
def writeStringArray (n : StringArrayNode) (data : List (List Text)) (startRow startCol : Nat) :
    M Written := do
  let variant ← readStrings n
  if !variant.success || variant.value.elements.length = 0 then pure ⟨false, 2⟩
  else
    let (dim1, dim2) := dims variant.value
    let rows := data.length
    let cols := (data.headD []).length
    if startRow + rows > dim1 ∨ startCol + cols > dim2 then pure ⟨false, 3⟩
    else
      let status ← writeStrings n (variant.value.patched startRow startCol data cols)
      if status.success then pure ⟨true, 0⟩ else pure ⟨false, 5⟩

theorem length_le_of_fits {v : StringArray} {L : List Text}
    (h : ¬(0 + 1 > (dims v).1 ∨ 0 + L.length > (dims v).2)) : L.length ≤ v.elements.length := by
  have hm := dims_mul v
  have h1 : 1 ≤ (dims v).1 := by omega
  calc L.length ≤ (dims v).2 := by omega
    _ = 1 * (dims v).2 := (Nat.one_mul _).symm
    _ ≤ (dims v).1 * (dims v).2 := Nat.mul_le_mul_right _ h1
    _ = v.elements.length := hm

theorem patched_elements {v : StringArray} {L : List Text} (h : L.length ≤ v.elements.length) :
    (v.patched 0 0 [L] L.length).elements = L.map cStr ++ v.elements.drop L.length :=
  patch_row v.elements L (dims v).2 h

end Arrays

end Datenbereitstellung.OpcUa
