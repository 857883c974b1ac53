import Datenbereitstellung.OpcUa

namespace Datenbereitstellung.SpsDialog

open Strings
open OpcUa (Reading)

section Client

inductive DataType
  | Int16
  | Int32
  | Float
  | Double
  | Bool
  | String
  | Int16Array
  | Int32Array
  | FloatArray
  | DoubleArray
  | BoolArray
  | StringArray
  | WStringArray
  | Unknown
  deriving DecidableEq

structure VariableInfo where
  name : Text
  fullName : Text
  type : DataType
  tested : Bool := false
  available : Bool := false
  handle : Option Int := none

structure Range where
  startRow : Nat := 0
  rowCount : Nat := 2 ^ 64 - 1
  startCol : Nat := 0
  colCount : Nat := 2 ^ 64 - 1

abbrev Rows (α : Type) := List (List α)

/-- What a client answers when a variable is registered or read. Floating-point values are exact
numbers, a wide string is a list of its code units. -/
structure ISPSClient where
  registerVariable : Text → DataType → Text → Bool × Option Int
  readInt16 : VariableInfo → Reading Int
  readInt32 : VariableInfo → Reading Int
  readFloat : VariableInfo → Reading Rat
  readDouble : VariableInfo → Reading Rat
  readBool : VariableInfo → Reading Bool
  readString : VariableInfo → Reading Text
  readChars : VariableInfo → Int → Reading Text
  readWString : VariableInfo → Reading (List Nat)
  readInt16Array : VariableInfo → Range → Reading (Rows Int)
  readInt32Array : VariableInfo → Range → Reading (Rows Int)
  readFloatArray : VariableInfo → Range → Reading (Rows Rat)
  readDoubleArray : VariableInfo → Range → Reading (Rows Rat)
  readBoolArray : VariableInfo → Range → Reading (Rows Bool)
  readStringArray : VariableInfo → Range → Reading (Rows Text)
  readWStringArray : VariableInfo → Range → Reading (Rows (List Nat))

end Client

structure SPSDialog where
  client : ISPSClient
  variableMap : Text → Option VariableInfo

namespace SPSDialog

variable (d : SPSDialog) {α : Type}

def registerVariable (name : Text) (type : DataType) (connectionString : Text) :
    Bool × SPSDialog :=
  let (success, handle) := d.client.registerVariable name type connectionString
  if !success then (false, d)
  else
    let var : VariableInfo :=
      { name, type, fullName := connectionString, available := true, handle }
    (true, { d with variableMap := Function.update d.variableMap name (some var) })

/-- What the read functions have in common: `missing` is returned for a variable that is not
registered, `failed` where the client could not read it. -/
def readVariable (read : VariableInfo → Reading α) (missing failed : α) (name : Text) :
    Reading α :=
  match d.variableMap name with
  | none => { value := missing, success := false, code := -1 }
  | some var =>
    let r := read var
    if r.success then { value := r.value, success := true, code := 0 }
    else { value := failed, success := false, code := r.code }

def readInt16 : Text → Reading Int := d.readVariable d.client.readInt16 0 (-1)

/-- The flags are the other way round here. -/
def readInt32 (name : Text) : Reading Int :=
  match d.variableMap name with
  | some var =>
    let r := d.client.readInt32 var
    if !r.success then { value := 0, success := true, code := r.code }
    else { value := r.value, success := false, code := 0 }
  | none => { value := 0, success := false, code := -1 }

def readFloat : Text → Reading Rat := d.readVariable d.client.readFloat 0 0

def readDouble : Text → Reading Rat := d.readVariable d.client.readDouble 0 0

def readBool : Text → Reading Bool := d.readVariable d.client.readBool false false

def readString : Text → Reading Text := d.readVariable d.client.readString [] []

def readChars (name : Text) (length : Int) : Reading Text :=
  d.readVariable (fun var => d.client.readChars var length) [] [] name

def readWString : Text → Reading (List Nat) := d.readVariable d.client.readWString [] []

def readRows (read : VariableInfo → Range → Reading (Rows α)) (name : Text) (range : Range) :
    Reading (Rows α) :=
  d.readVariable (fun var => read var range) [] [] name

def readInt16Array : Text → Range → Reading (Rows Int) := d.readRows d.client.readInt16Array

def readInt32Array : Text → Range → Reading (Rows Int) := d.readRows d.client.readInt32Array

def readFloatArray : Text → Range → Reading (Rows Rat) := d.readRows d.client.readFloatArray

def readDoubleArray : Text → Range → Reading (Rows Rat) := d.readRows d.client.readDoubleArray

def readBoolArray : Text → Range → Reading (Rows Bool) := d.readRows d.client.readBoolArray

def readStringArray : Text → Range → Reading (Rows Text) := d.readRows d.client.readStringArray

def readWStringArray : Text → Range → Reading (Rows (List Nat)) :=
  d.readRows d.client.readWStringArray

end SPSDialog

section Calls

inductive ReadCall : Type → Type
  | readInt16 (name : Text) : ReadCall Int
  | readInt32 (name : Text) : ReadCall Int
  | readFloat (name : Text) : ReadCall Rat
  | readDouble (name : Text) : ReadCall Rat
  | readBool (name : Text) : ReadCall Bool
  | readString (name : Text) : ReadCall Text
  | readChars (name : Text) (length : Int) : ReadCall Text
  | readWString (name : Text) : ReadCall (List Nat)
  | readInt16Array (name : Text) (range : Range) : ReadCall (Rows Int)
  | readInt32Array (name : Text) (range : Range) : ReadCall (Rows Int)
  | readFloatArray (name : Text) (range : Range) : ReadCall (Rows Rat)
  | readDoubleArray (name : Text) (range : Range) : ReadCall (Rows Rat)
  | readBoolArray (name : Text) (range : Range) : ReadCall (Rows Bool)
  | readStringArray (name : Text) (range : Range) : ReadCall (Rows Text)
  | readWStringArray (name : Text) (range : Range) : ReadCall (Rows (List Nat))

variable {α : Type}

def SPSDialog.read (d : SPSDialog) : ReadCall α → Reading α
  | .readInt16 name => d.readInt16 name
  | .readInt32 name => d.readInt32 name
  | .readFloat name => d.readFloat name
  | .readDouble name => d.readDouble name
  | .readBool name => d.readBool name
  | .readString name => d.readString name
  | .readChars name length => d.readChars name length
  | .readWString name => d.readWString name
  | .readInt16Array name range => d.readInt16Array name range
  | .readInt32Array name range => d.readInt32Array name range
  | .readFloatArray name range => d.readFloatArray name range
  | .readDoubleArray name range => d.readDoubleArray name range
  | .readBoolArray name range => d.readBoolArray name range
  | .readStringArray name range => d.readStringArray name range
  | .readWStringArray name range => d.readWStringArray name range

def ISPSClient.read (client : ISPSClient) (var : VariableInfo) : ReadCall α → Reading α
  | .readInt16 _ => client.readInt16 var
  | .readInt32 _ => client.readInt32 var
  | .readFloat _ => client.readFloat var
  | .readDouble _ => client.readDouble var
  | .readBool _ => client.readBool var
  | .readString _ => client.readString var
  | .readChars _ length => client.readChars var length
  | .readWString _ => client.readWString var
  | .readInt16Array _ range => client.readInt16Array var range
  | .readInt32Array _ range => client.readInt32Array var range
  | .readFloatArray _ range => client.readFloatArray var range
  | .readDoubleArray _ range => client.readDoubleArray var range
  | .readBoolArray _ range => client.readBoolArray var range
  | .readStringArray _ range => client.readStringArray var range
  | .readWStringArray _ range => client.readWStringArray var range

def ReadCall.name : ReadCall α → Text
  | .readInt16 name | .readInt32 name | .readFloat name | .readDouble name | .readBool name
  | .readString name | .readChars name _ | .readWString name | .readInt16Array name _
  | .readInt32Array name _ | .readFloatArray name _ | .readDoubleArray name _
  | .readBoolArray name _ | .readStringArray name _ | .readWStringArray name _ => name

def ReadCall.isInt32 : ReadCall α → Bool
  | .readInt32 _ => true
  | _ => false

end Calls

structure SPSController where
  dialog : SPSDialog

namespace SPSController

variable (c : SPSController) {α S : Type}

def read (call : ReadCall α) : Reading α := c.dialog.read call

/-- One read of a function that fills a structure, and the field that its value is stored in. -/
structure FieldRead (S : Type) where
  Value : Type
  call : ReadCall Value
  set : S → Value → S
  get : S → Option Value

/-- The fields one after the other. The flag of a read is taken for an error here. -/
def readFields : List (FieldRead S) → S → Reading S
  | [], settings => { value := settings, success := false, code := 0 }
  | f :: fs, settings =>
    let r := c.dialog.read f.call
    if r.success then { value := settings, success := true, code := r.code }
    else readFields fs (f.set settings r.value)

/-- `none` in a field that nothing was stored in yet. -/
structure KameraSettings where
  exposureTime : Option Int := none
  autoGain : Option Bool := none
  gain : Option Rat := none
  autoExposure : Option Bool := none

def cameraFields : List (FieldRead KameraSettings) :=
  [⟨Int, .readInt16 (lit "exposure"), fun s v => { s with exposureTime := v }, (·.exposureTime)⟩,
    ⟨Rat, .readFloat (lit "gain"), fun s v => { s with gain := v }, (·.gain)⟩,
    ⟨Bool, .readBool (lit "autoGain"), fun s v => { s with autoGain := v }, (·.autoGain)⟩,
    ⟨Bool, .readBool (lit "autoExposure"), fun s v => { s with autoExposure := v },
      (·.autoExposure)⟩]

def readCameraSettings : Reading KameraSettings := c.readFields cameraFields {}

structure ProcessImgParams where
  MedianBlurr : Int := 5
  Threshold : Int := 120
  MaxAngle : Int := 10
  LabelSizeX : Int := 50
  LabelSizeY : Int := 50

def processFields : List (FieldRead ProcessImgParams) :=
  [⟨Int, .readInt16 (lit "MedianBlurr"), fun p v => { p with MedianBlurr := v },
      fun p => some p.MedianBlurr⟩,
    ⟨Int, .readInt16 (lit "Threshold"), fun p v => { p with Threshold := v },
      fun p => some p.Threshold⟩,
    ⟨Int, .readInt16 (lit "MaxAngle"), fun p v => { p with MaxAngle := v },
      fun p => some p.MaxAngle⟩,
    ⟨Int, .readInt16 (lit "LabelSizeX"), fun p v => { p with LabelSizeX := v },
      fun p => some p.LabelSizeX⟩,
    ⟨Int, .readInt16 (lit "LabelSizeY"), fun p v => { p with LabelSizeY := v },
      fun p => some p.LabelSizeY⟩]

def readProcessImgParams : Reading ProcessImgParams := c.readFields processFields {}

end SPSController

end Datenbereitstellung.SpsDialog
