import Datenbereitstellung.NumberTexts
import Datenbereitstellung.SettingsSchema
import Datenbereitstellung.SpsDialog
import Datenbereitstellung.SpsWorker
import Datenbereitstellung.SuccessFlags

namespace Datenbereitstellung.NodeDiagnostics

open Strings Lib.Tables SpsDialog
open OpcUa (Reading)
open SettingsStore (Key)
open SettingsTakeover (Vars)
open SpsWorker (NodeDiagnostic)

section Client

inductive Scalar
  | INT16 (v : Int)
  | INT32 (v : Int)
  | FLOAT (v : Rat)
  | DOUBLE (v : Rat)
  | BOOLEAN (v : Bool)
  | STRING (v : Text)
  | other

inductive ElementType
  | INT16
  | INT32
  | FLOAT
  | DOUBLE
  | BOOLEAN
  | STRING
  | BYTESTRING
  | other
  deriving DecidableEq

/-- A `UA_Variant`; an array has at least one element. -/
inductive Variant
  | scalar (s : Scalar)
  | array (type : ElementType)

/-- A node with the attributes that the server delivers when it is asked for them; only a variable has
an access level. -/
structure Node where
  accessLevel : Option Nat
  value : Option Variant

/-- The nodes of the server by the texts of their ids. Where `parseNodeId` cannot read a text, the
server is asked for the null id, which it does not have. -/
structure Server where
  isNull : Text → Bool
  node : Text → Option Node
  null : ∀ nodeId, isNull nodeId = true → node nodeId = none

def Server.value (server : Server) (nodeId : Text) : Option Variant :=
  (server.node nodeId).bind (·.value)

/-- The check of `OPCClient::registerVariable`. -/
def typeOk : DataType → Variant → Bool
  | .Int16, .scalar (.INT16 _) | .Int32, .scalar (.INT32 _) | .Float, .scalar (.FLOAT _)
  | .Double, .scalar (.DOUBLE _) | .Bool, .scalar (.BOOLEAN _) | .String, .scalar (.STRING _) => true
  | .Int16Array, .array .INT16 | .Int32Array, .array .INT32 | .FloatArray, .array .FLOAT
  | .DoubleArray, .array .DOUBLE | .BoolArray, .array .BOOLEAN | .StringArray, .array .STRING
  | .WStringArray, .array .BYTESTRING => true
  | _, _ => false

def registerVariable (server : Server) (type : DataType) (connectionString : Text) :
    Bool × Option Int :=
  match server.value connectionString with
  | none => (false, none)
  | some v => (typeOk type v, none)

def readScalar {α : Type} (ofVariant : Variant → Option α) (zero : α) (server : Server)
    (var : VariableInfo) : Reading α :=
  if server.isNull var.fullName then { value := zero, success := false, code := 2 }
  else match server.value var.fullName with
    | none => { value := zero, success := false, code := 3 }
    | some v =>
      match ofVariant v with
      | some result => { value := result, success := true, code := 0 }
      | none => { value := zero, success := false, code := 5 }

def readInt16 : Server → VariableInfo → Reading Int :=
  readScalar (fun | .scalar (.INT16 v) => some v | _ => none) 0

def readInt32 : Server → VariableInfo → Reading Int :=
  readScalar (fun | .scalar (.INT32 v) => some v | _ => none) 0

def readFloat : Server → VariableInfo → Reading Rat :=
  readScalar (fun | .scalar (.FLOAT v) => some v | _ => none) 0

def readDouble : Server → VariableInfo → Reading Rat :=
  readScalar (fun | .scalar (.DOUBLE v) => some v | _ => none) 0

def readBool : Server → VariableInfo → Reading Bool :=
  readScalar (fun | .scalar (.BOOLEAN v) => some v | _ => none) false

def readString : Server → VariableInfo → Reading Text :=
  readScalar (fun | .scalar (.STRING v) => some v | _ => none) []

/-- `OPCClient`; the reads of other values are those of `rest`. -/
def opcClient (server : Server) (rest : ISPSClient) : ISPSClient :=
  { rest with
    registerVariable := fun _ type connectionString =>
      NodeDiagnostics.registerVariable server type connectionString
    readInt16 := NodeDiagnostics.readInt16 server
    readInt32 := NodeDiagnostics.readInt32 server
    readFloat := NodeDiagnostics.readFloat server
    readDouble := NodeDiagnostics.readDouble server
    readBool := NodeDiagnostics.readBool server
    readString := NodeDiagnostics.readString server }

/-- The flags of the access level that are set; `none` where the attribute cannot be read. -/
def readAccessLevel (server : Server) (nodeId : Text) : Option (Bool × Bool) :=
  ((server.node nodeId).bind (·.accessLevel)).map fun level => (level.testBit 0, level.testBit 1)

end Client

section Setup

/-- A call of `registerAndLog`. `key` is the setting that has the number of the node; the failure of
an optional one does not count. -/
structure Registration where
  name : Text
  type : DataType
  key : Key
  counts : Bool := true

def registrations : List Registration :=
  [{ name := lit "Error", type := .Bool, key := .iError },
    { name := lit "Info_Text", type := .String, key := .iInfo },
    { name := lit "Heartbeat", type := .Int16, key := .iHeartbeat },
    { name := lit "StatusCode", type := .Int16, key := .iStatusCode },
    { name := lit "DataArray", type := .StringArray, key := .iDataArry },
    { name := lit "ProjektArray", type := .StringArray, key := .iProjektArray },
    { name := lit "UpdateProjektList", type := .Bool, key := .iUpdateProjektList },
    { name := lit "ProjektlistUpdated", type := .Bool, key := .iProjektlistUpdated },
    { name := lit "ProjektName", type := .String, key := .iProjektName },
    { name := lit "ReadProjekt", type := .Bool, key := .iReadProjekt },
    { name := lit "LenProjekt", type := .Int16, key := .iLenProjekt },
    { name := lit "AnzDatenblöcke", type := .Int16, key := .iAnzDatenblöcke },
    { name := lit "WriteData", type := .Bool, key := .iWriteData },
    { name := lit "IndexData", type := .Int16, key := .iIndexData },
    { name := lit "ReadData", type := .Bool, key := .iReadData },
    { name := lit "showProjektInfo", type := .Bool, key := .showProjektInfo },
    { name := lit "ProjektInfoWrote", type := .Bool, key := .ProjektInfoWrote, counts := false },
    { name := lit "ProjektVorhanden", type := .Bool, key := .ProjektVorhanden },
    { name := lit "ubertragenAbbrechen", type := .Bool, key := .iabbruchUbertragen },
    { name := lit "UebertgarungBeendet", type := .Bool, key := .iUebertgarungBeendet },
    { name := lit "Uebertragungslaege", type := .Int16, key := .iUebertragungslaege },
    { name := lit "colorG0", type := .Int16Array, key := .iFarbeG0 },
    { name := lit "streghtsG0", type := .Int16, key := .iStaerkeG0 },
    { name := lit "colorG1", type := .Int16Array, key := .iFarbeG1 },
    { name := lit "streghtsG1", type := .Int16, key := .iStaerkeG1 },
    { name := lit "colorG2", type := .Int16Array, key := .iFarbeG2 },
    { name := lit "streghtsG2", type := .Int16, key := .iStaerkeG2 },
    { name := lit "colorG3", type := .Int16Array, key := .iFarbeG3 },
    { name := lit "streghtsG3", type := .Int16, key := .iStaerkeG3 },
    { name := lit "FarbeLive", type := .Int16Array, key := .iFarbeLive },
    { name := lit "FarbeErledigt", type := .Int16Array, key := .iFarbeErledigt, counts := false },
    { name := lit "StaerkeLive", type := .Int16, key := .iStaerkeLive },
    { name := lit "StaerkeErledigt", type := .Int16, key := .iStaerkeErledigt, counts := false },
    { name := lit "LiveStand", type := .Int16, key := .iLiveStand },
    { name := lit "LiveAbbruch", type := .Bool, key := .iLiveBreak },
    { name := lit "minArcRadius", type := .Float, key := .iMinArcRadius },
    { name := lit "objektgroesseX", type := .Int16, key := .objektgroesseX },
    { name := lit "objektgroesseY", type := .Int16, key := .objektgroesseY }]

def nodeIdOf (ns i : Text) : Text := lit "ns=" ++ ns ++ lit ";i=" ++ i

def index (vars : Vars) (k : Key) : Text := toText (PreviewFolder.number (vars k))

def Registration.nodeId (vars : Vars) (r : Registration) : Text :=
  nodeIdOf (index vars .ns) (index vars r.key)

structure SPSController extends SpsDialog.SPSController where
  configuredNodes_ : List (Text × DataType × Text)

def registerAndLog (c : SPSController) (name : Text) (type : DataType) (nodeId : Text) :
    Bool × SPSController :=
  let configured := c.configuredNodes_ ++ [(name, type, nodeId)]
  let (success, dialog) := c.dialog.registerVariable name type nodeId
  (success, { dialog, configuredNodes_ := configured })

def registerAll (vars : Vars) : List Registration → Bool → SPSController → Bool × SPSController
  | [], globalSuccess, c => (globalSuccess, c)
  | r :: rs, globalSuccess, c =>
    let (success, c) := registerAndLog c r.name r.type (r.nodeId vars)
    registerAll vars rs (if r.counts then globalSuccess && success else globalSuccess) c

def setupVariables (vars : Vars) (c : SPSController) : Bool × SPSController :=
  registerAll vars registrations true { c with configuredNodes_ := [] }

end Setup

section Diagnostics

def dataTypeName : DataType → Text
  | .Int16 => lit "Int16"
  | .Int32 => lit "Int32"
  | .Float => lit "Float"
  | .Double => lit "Double"
  | .Bool => lit "Bool"
  | .String => lit "String"
  | .Int16Array => lit "Int16Array"
  | .Int32Array => lit "Int32Array"
  | .FloatArray => lit "FloatArray"
  | .DoubleArray => lit "DoubleArray"
  | .BoolArray => lit "BoolArray"
  | .StringArray => lit "StringArray"
  | .WStringArray => lit "WStringArray"
  | .Unknown => lit "Unknown"

/-- The nearest integer, of two the even one. -/
def roundEven (q : Rat) : Nat :=
  let n := q.floor.toNat
  let rest := q - n
  if rest < 1 / 2 then n
  else if 1 / 2 < rest then n + 1
  else if n % 2 = 0 then n else n + 1

def thousandths (n : Nat) : Text :=
  [Nat.digitChar (n / 100 % 10), Nat.digitChar (n / 10 % 10), Nat.digitChar (n % 10)]

def formatReal (v : Rat) : Text :=
  let n := roundEven (|v| * 1000)
  let s := (if v < 0 then ['-'] else []) ++ toText (n / 1000 : Nat) ++ '.' :: thousandths (n % 1000)
  let s := s.rdropWhile (· == '0')
  if s.getLast? = some '.' then s.dropLast else s

def readNodeValueAsString (client : ISPSClient) (nodeId : Text) (type : DataType) : Option Text :=
  let var : VariableInfo := { name := nodeId, fullName := nodeId, type }
  match type with
  | .Int16 =>
    let r := client.readInt16 var
    if r.success then some (toText r.value) else none
  | .Int32 =>
    let r := client.readInt32 var
    if r.success then some (toText r.value) else none
  | .Float =>
    let r := client.readFloat var
    if r.success then some (formatReal r.value) else none
  | .Double =>
    let r := client.readDouble var
    if r.success then some (formatReal r.value) else none
  | .Bool =>
    let r := client.readBool var
    if r.success then some (if r.value then lit "true" else lit "false") else none
  | .String =>
    let r := client.readString var
    if r.success then
      some (if r.value.length > 60 then r.value.take 60 ++ lit "..." else r.value)
    else none
  | _ => none

def diagnose (server : Server) (client : ISPSClient) (node : Text × DataType × Text) :
    NodeDiagnostic :=
  let (name, type, nodeId) := node
  let access := readAccessLevel server nodeId
  let readable := (access.map Prod.fst).getD false
  let value := if access.isSome && readable then readNodeValueAsString client nodeId type else none
  { name := name
    nodeId := nodeId
    type := dataTypeName type
    «exists» := access.isSome
    readable := readable
    writable := (access.map Prod.snd).getD false
    hasValue := value.isSome
    value := value.getD [] }

def nodeDiagnostics (server : Server) (c : SPSController) : List NodeDiagnostic :=
  c.configuredNodes_.map (diagnose server c.dialog.client)

end Diagnostics

section Answer

/-- The bounds of the bytes that follow a first byte in UTF-8. -/
def following (b : Nat) : Option (List (Nat × Nat)) :=
  if b < 0x80 then some []
  else if 0xc2 ≤ b ∧ b ≤ 0xdf then some [(0x80, 0xbf)]
  else if b = 0xe0 then some [(0xa0, 0xbf), (0x80, 0xbf)]
  else if b = 0xed then some [(0x80, 0x9f), (0x80, 0xbf)]
  else if 0xe1 ≤ b ∧ b ≤ 0xef then some [(0x80, 0xbf), (0x80, 0xbf)]
  else if b = 0xf0 then some [(0x90, 0xbf), (0x80, 0xbf), (0x80, 0xbf)]
  else if 0xf1 ≤ b ∧ b ≤ 0xf3 then some [(0x80, 0xbf), (0x80, 0xbf), (0x80, 0xbf)]
  else if b = 0xf4 then some [(0x80, 0x8f), (0x80, 0xbf), (0x80, 0xbf)]
  else none

def goesOn : List (Nat × Nat) → Text → Bool
  | [], [] => true
  | _ :: _, [] => false
  | [], c :: s => (following c.toNat).any (goesOn · s)
  | (low, high) :: bounds, c :: s => decide (low ≤ c.toNat ∧ c.toNat ≤ high) && goesOn bounds s

/-- What `dump` writes without an exception. -/
def isUtf8 (s : Text) : Bool := goesOn [] s

/-- `GET /api/opc_nodes`: the nodes, or none where `dump` throws and the page shows nothing new. -/
def opcNodes (spsMessage : Text) (nodes : List NodeDiagnostic) : Option (List NodeDiagnostic) :=
  if isUtf8 spsMessage && nodes.all fun n =>
    isUtf8 n.name && isUtf8 n.nodeId && isUtf8 n.type && isUtf8 n.value
  then some nodes else none

end Answer

section Page

/-- `WhiteSpace` and `LineTerminator` of the browser. -/
def isWhiteSpace (c : Char) : Bool :=
  c.toNat ∈ [0x9, 0xa, 0xb, 0xc, 0xd, 0x20, 0xa0, 0x1680, 0x2000, 0x2001, 0x2002, 0x2003, 0x2004,
    0x2005, 0x2006, 0x2007, 0x2008, 0x2009, 0x200a, 0x2028, 0x2029, 0x202f, 0x205f, 0x3000, 0xfeff]

def trim (s : Text) : Text := (s.dropWhile isWhiteSpace).rdropWhile isWhiteSpace

def byId (nodes : List NodeDiagnostic) : KeyTable Text NodeDiagnostic :=
  nodes.foldl (fun t n => t.upsert n.nodeId n) .empty

/-- The node beside a field in `updateInlineStatus`; `inputs` are the inputs of the page. -/
def inlineNode (nodes : List NodeDiagnostic) (inputs : Key → Option Text) (key : Key) :
    Option NodeDiagnostic :=
  let ns := ((inputs .ns).map trim).getD ['1']
  (inputs key).bind fun value => (byId nodes).lookup (nodeIdOf ns (trim value))

end Page

section Registered

variable {vars : Vars} {c : SPSController} {rs : List Registration} {ok : Bool}

def Registration.answer (client : ISPSClient) (vars : Vars) (r : Registration) :
    Bool × Option Int := client.registerVariable r.name r.type (r.nodeId vars)

def Registration.configured (vars : Vars) (r : Registration) : Text × DataType × Text :=
  (r.name, r.type, r.nodeId vars)

def Registration.info (client : ISPSClient) (vars : Vars) (r : Registration) : VariableInfo :=
  { name := r.name
    type := r.type
    fullName := r.nodeId vars
    available := true
    handle := (r.answer client vars).2 }

theorem registerVariable_client (d : SPSDialog) (name : Text) (type : DataType) (s : Text) :
    (d.registerVariable name type s).2.client = d.client := by
  rw [SPSDialog.registerVariable]
  split
  dsimp only
  split <;> rfl

theorem registerVariable_fst (d : SPSDialog) (name : Text) (type : DataType) (s : Text) :
    (d.registerVariable name type s).1 = (d.client.registerVariable name type s).1 := by
  rw [SPSDialog.registerVariable]
  split
  rename_i success handle h
  rw [h]
  cases success with
  | true => rfl
  | false => rfl

theorem registerVariable_variableMap (d : SPSDialog) (r : Registration) (name : Text) :
    (d.registerVariable r.name r.type (r.nodeId vars)).2.variableMap name =
      if name = r.name ∧ (r.answer d.client vars).1 = true then some (r.info d.client vars)
      else d.variableMap name := by
  rw [SPSDialog.registerVariable]
  split
  rename_i success handle h
  have hanswer : r.answer d.client vars = (success, handle) := h
  rw [Registration.info, hanswer]
  cases success with
  | false => simp
  | true =>
    by_cases hname : name = r.name
    · subst hname
      simp
    · simp [hname]

theorem registerAll_cons (vars : Vars) (r : Registration) (rs : List Registration) (ok : Bool)
    (c : SPSController) : ∃ ok' c',
    registerAll vars (r :: rs) ok c = registerAll vars rs ok' c' ∧
    ok' = (ok && (!r.counts || (r.answer c.dialog.client vars).1)) ∧
    c'.configuredNodes_ = c.configuredNodes_ ++ [r.configured vars] ∧
    c'.dialog.client = c.dialog.client ∧
    ∀ name, c'.dialog.variableMap name =
      if name = r.name ∧ (r.answer c.dialog.client vars).1 = true
        then some (r.info c.dialog.client vars) else c.dialog.variableMap name := by
  refine ⟨if r.counts then ok && (c.dialog.registerVariable r.name r.type (r.nodeId vars)).1 else ok,
    _, rfl, ?_, rfl, registerVariable_client .., registerVariable_variableMap _ r⟩
  have hfst : (c.dialog.registerVariable r.name r.type (r.nodeId vars)).1 =
      (r.answer c.dialog.client vars).1 := registerVariable_fst ..
  rw [hfst]
  cases r.counts with
  | true => rfl
  | false => simp

theorem registerAll_client : (registerAll vars rs ok c).2.dialog.client = c.dialog.client := by
  induction rs generalizing ok c with
  | nil => rfl
  | cons r rs ih =>
    obtain ⟨ok', c', heq, -, -, hclient, -⟩ := registerAll_cons vars r rs ok c
    rw [heq, ih, hclient]

theorem registerAll_fst : (registerAll vars rs ok c).1 =
    (ok && rs.all fun r => !r.counts || (r.answer c.dialog.client vars).1) := by
  induction rs generalizing ok c with
  | nil => simp [registerAll]
  | cons r rs ih =>
    obtain ⟨ok', c', heq, rfl, -, hclient, -⟩ := registerAll_cons vars r rs ok c
    rw [heq, ih, hclient, List.all_cons, Bool.and_assoc]

theorem registerAll_configuredNodes : (registerAll vars rs ok c).2.configuredNodes_ =
    c.configuredNodes_ ++ rs.map (·.configured vars) := by
  induction rs generalizing ok c with
  | nil => simp [registerAll]
  | cons r rs ih =>
    obtain ⟨ok', c', heq, -, hconf, -, -⟩ := registerAll_cons vars r rs ok c
    rw [heq, ih, hconf, List.map_cons, ← List.append_cons]

theorem registerAll_variableMap_of_notMem {name : Text} (h : name ∉ rs.map (·.name)) :
    (registerAll vars rs ok c).2.dialog.variableMap name = c.dialog.variableMap name := by
  induction rs generalizing ok c with
  | nil => rfl
  | cons r rs ih =>
    rw [List.map_cons, List.mem_cons, not_or] at h
    obtain ⟨ok', c', heq, -, -, -, hmap⟩ := registerAll_cons vars r rs ok c
    rw [heq, ih h.2, hmap, if_neg fun hname => h.1 hname.1]

theorem registerAll_variableMap (hrs : (rs.map (·.name)).Nodup) {r : Registration} (hr : r ∈ rs) :
    (registerAll vars rs ok c).2.dialog.variableMap r.name =
      if (r.answer c.dialog.client vars).1 then some (r.info c.dialog.client vars)
      else c.dialog.variableMap r.name := by
  induction rs generalizing ok c with
  | nil => cases hr
  | cons r' rs ih =>
    rw [List.map_cons, List.nodup_cons] at hrs
    obtain ⟨ok', c', heq, -, -, hclient, hmap⟩ := registerAll_cons vars r' rs ok c
    rw [heq]
    obtain rfl | hmem := List.mem_cons.mp hr
    · rw [registerAll_variableMap_of_notMem hrs.1, hmap]
      simp
    · have hne : r.name ≠ r'.name := by
        intro hname
        exact hrs.1 (hname ▸ List.mem_map_of_mem hmem)
      rw [ih hrs.2 hmem, hclient, hmap, if_neg (c := r.name = r'.name ∧ _) fun h => hne h.1]

end Registered

section Setup

variable {vars : Vars} {c : SPSController}

/-- The variables that the service reads and writes behind the setup, each with the type of the
calls. -/
def accesses : List (Text × DataType) :=
  [(lit "Info_Text", .String), (lit "Error", .Bool), (lit "StatusCode", .Int16),
    (lit "Heartbeat", .Int16), (lit "UpdateProjektList", .Bool), (lit "showProjektInfo", .Bool),
    (lit "ProjektInfoWrote", .Bool), (lit "ReadProjekt", .Bool), (lit "ProjektVorhanden", .Bool),
    (lit "AnzDatenblöcke", .Int16), (lit "IndexData", .Int16), (lit "minArcRadius", .Float),
    (lit "ubertragenAbbrechen", .Bool), (lit "ReadData", .Bool), (lit "WriteData", .Bool),
    (lit "ProjektName", .String), (lit "ProjektArray", .StringArray),
    (lit "ProjektlistUpdated", .Bool), (lit "LenProjekt", .Int16), (lit "DataArray", .StringArray),
    (lit "UebertgarungBeendet", .Bool), (lit "LiveAbbruch", .Bool), (lit "LiveStand", .Int16),
    (lit "colorG0", .Int16Array), (lit "colorG1", .Int16Array), (lit "colorG2", .Int16Array),
    (lit "colorG3", .Int16Array), (lit "FarbeLive", .Int16Array),
    (lit "FarbeErledigt", .Int16Array), (lit "StaerkeLive", .Int16),
    (lit "StaerkeErledigt", .Int16), (lit "streghtsG0", .Int16), (lit "streghtsG1", .Int16),
    (lit "streghtsG2", .Int16), (lit "streghtsG3", .Int16), (lit "objektgroesseX", .Int16),
    (lit "objektgroesseY", .Int16)]

def boolName : OpcUa.BoolNode → Text
  | .Error => lit "Error"
  | .ProjektlistUpdated => lit "ProjektlistUpdated"
  | .WriteData => lit "WriteData"
  | .ReadData => lit "ReadData"
  | .ProjektVorhanden => lit "ProjektVorhanden"
  | .ubertragenAbbrechen => lit "ubertragenAbbrechen"
  | .UebertgarungBeendet => lit "UebertgarungBeendet"

def int16Name : OpcUa.Int16Node → Text
  | .StatusCode => lit "StatusCode"
  | .LenProjekt => lit "LenProjekt"
  | .AnzDatenblöcke => lit "AnzDatenblöcke"
  | .IndexData => lit "IndexData"
  | .StaerkeLive => lit "StaerkeLive"
  | .StaerkeErledigt => lit "StaerkeErledigt"
  | .streghtsG0 => lit "streghtsG0"
  | .streghtsG1 => lit "streghtsG1"
  | .streghtsG2 => lit "streghtsG2"
  | .streghtsG3 => lit "streghtsG3"
  | .objektgroesseX => lit "objektgroesseX"
  | .objektgroesseY => lit "objektgroesseY"

def int16ArrayName : OpcUa.Int16ArrayNode → Text
  | .colorG0 => lit "colorG0"
  | .colorG1 => lit "colorG1"
  | .colorG2 => lit "colorG2"
  | .colorG3 => lit "colorG3"
  | .FarbeLive => lit "FarbeLive"
  | .FarbeErledigt => lit "FarbeErledigt"

def stringArrayName : OpcUa.StringArrayNode → Text
  | .DataArray => lit "DataArray"
  | .ProjektArray => lit "ProjektArray"

def triggerName : OperatingLoop.Trigger → Text
  | .UpdateProjektList => lit "UpdateProjektList"
  | .showProjektInfo => lit "showProjektInfo"
  | .ReadProjekt => lit "ReadProjekt"

def managerAccess : OpcUa.Req → Option (Text × DataType)
  | .readBool n | .writeBool n _ => some (boolName n, .Bool)
  | .readInt16 n | .writeInt16 n _ => some (int16Name n, .Int16)
  | .readInt16Array n => some (int16ArrayName n, .Int16Array)
  | .readStrings n | .writeStrings n _ => some (stringArrayName n, .StringArray)
  | .readProjektName => some (lit "ProjektName", .String)
  | .readMinArcRadius => some (lit "minArcRadius", .Float)
  | .writeInfoText _ _ => some (lit "Info_Text", .String)
  | .status _ | .entries _ | .openFile _ | .renderPreview _ _ | .publishImage | .keepAlive | .now
  | .handshakeExpired _ | .ackExpired _ => none

def loopAccess : OperatingLoop.Req → Option (Text × DataType)
  | .writeHeartbeat => some (lit "Heartbeat", .Int16)
  | .readTrigger t | .clearTrigger t => some (triggerName t, .Bool)
  | .writeProjektInfoWrote => some (lit "ProjektInfoWrote", .Bool)
  | .manager q => managerAccess q
  | .running | .settingsChanged | .linkDown | .opcEnabled | .dataExchangeEnabled
  | .heartbeatDue => none

def workerAccess : SpsWorker.Req → Option (Text × DataType)
  | .writeHeartbeat => some (lit "Heartbeat", .Int16)
  | .writeInfoText _ => some (lit "Info_Text", .String)
  | .writeError _ => some (lit "Error", .Bool)
  | .writeStatusCode _ => some (lit "StatusCode", .Int16)
  | .job q => loopAccess q
  | _ => none

theorem managerAccess_mem {q : OpcUa.Req} {a : Text × DataType} (h : managerAccess q = some a) :
    a ∈ accesses := by
  cases q with
  | readBool n | writeBool n =>
    obtain rfl := Option.some.inj h
    cases n <;> simp only [accesses, boolName, List.mem_cons, true_or, or_true]
  | readInt16 n | writeInt16 n =>
    obtain rfl := Option.some.inj h
    cases n <;> simp only [accesses, int16Name, List.mem_cons, true_or, or_true]
  | readInt16Array n =>
    obtain rfl := Option.some.inj h
    cases n <;> simp only [accesses, int16ArrayName, List.mem_cons, true_or, or_true]
  | readStrings n | writeStrings n =>
    obtain rfl := Option.some.inj h
    cases n <;> simp only [accesses, stringArrayName, List.mem_cons, true_or, or_true]
  | readProjektName | readMinArcRadius | writeInfoText =>
    obtain rfl := Option.some.inj h
    simp only [accesses, List.mem_cons, true_or, or_true]
  | _ => cases h

theorem loopAccess_mem {q : OperatingLoop.Req} {a : Text × DataType} (h : loopAccess q = some a) :
    a ∈ accesses := by
  cases q with
  | readTrigger t | clearTrigger t =>
    obtain rfl := Option.some.inj h
    cases t <;> simp only [accesses, triggerName, List.mem_cons, true_or, or_true]
  | writeHeartbeat | writeProjektInfoWrote =>
    obtain rfl := Option.some.inj h
    simp only [accesses, List.mem_cons, true_or, or_true]
  | manager q => exact managerAccess_mem h
  | _ => cases h

theorem workerAccess_mem {q : SpsWorker.Req} {a : Text × DataType} (h : workerAccess q = some a) :
    a ∈ accesses := by
  cases q with
  | writeHeartbeat | writeInfoText | writeError | writeStatusCode =>
    obtain rfl := Option.some.inj h
    simp only [accesses, List.mem_cons, true_or, or_true]
  | job q => exact loopAccess_mem h
  | _ => cases h

def optionalNames : List Text :=
  [lit "ProjektInfoWrote", lit "FarbeErledigt", lit "StaerkeErledigt"]

/-- The names of the registrations are different texts in UTF-8, and those of the accesses are among
them. -/
theorem registrations_names : (registrations.map (·.name)).Nodup ∧
    (∀ a ∈ accesses, ∃ r ∈ registrations,
      r.name = a.1 ∧ r.type = a.2 ∧ (a.1 ∉ optionalNames → r.counts = true)) ∧
    ∀ r ∈ registrations, isUtf8 r.name = true ∧ isUtf8 (dataTypeName r.type) = true := by
  decide +kernel

theorem nodup_names : (registrations.map (·.name)).Nodup := registrations_names.1

theorem configuredNodes_setupVariables (vars : Vars) (c : SPSController) :
    (setupVariables vars c).2.configuredNodes_ = registrations.map (·.configured vars) := by
  rw [setupVariables, registerAll_configuredNodes, List.nil_append]

/-- The setup succeeds when every registration does that is not optional. Then whatever the service
reads or writes is registered with the type of its calls, under the number of its setting; a variable
that could not be registered is only an optional one. -/
theorem setupVariables_spec (vars : Vars) (c : SPSController) :
    ((setupVariables vars c).1 = true ↔ ∀ r ∈ registrations, r.counts = true →
      (r.answer c.dialog.client vars).1 = true) ∧
    (setupVariables vars c).2.configuredNodes_ = registrations.map (·.configured vars) ∧
    (∀ q a, workerAccess q = some a → a ∈ accesses) ∧
    ((setupVariables vars c).1 = true → ∀ a ∈ accesses, a.1 ∉ optionalNames →
      ∃ r ∈ registrations, r.name = a.1 ∧ ∃ var : VariableInfo,
        (setupVariables vars c).2.dialog.variableMap a.1 = some var ∧ var.type = a.2 ∧
          var.fullName = r.nodeId vars) := by
  have hok : (setupVariables vars c).1 = true ↔ ∀ r ∈ registrations, r.counts = true →
      (r.answer c.dialog.client vars).1 = true := by
    rw [setupVariables, registerAll_fst, Bool.true_and, List.all_eq_true]
    refine forall₂_congr fun r _ => ?_
    cases r.counts with
    | true => simp
    | false => simp
  refine ⟨hok, configuredNodes_setupVariables vars c, fun _ _ => workerAccess_mem,
    fun h a ha hopt => ?_⟩
  obtain ⟨r, hr, hname, htype, hcounts⟩ := registrations_names.2.1 a ha
  refine ⟨r, hr, hname, r.info c.dialog.client vars, ?_, htype, rfl⟩
  rw [← hname, setupVariables, registerAll_variableMap nodup_names hr,
    if_pos (hok.mp h r hr (hcounts hopt))]

end Setup

section Rows

variable {server : Server} {rest : ISPSClient} {type : DataType} {nodeId : Text}

def isScalar : DataType → Bool
  | .Int16 | .Int32 | .Float | .Double | .Bool | .String => true
  | _ => false

theorem registerVariable_eq (server : Server) (type : DataType) (nodeId : Text) :
    (registerVariable server type nodeId).1 = ((server.value nodeId).map (typeOk type)).getD false := by
  rw [registerVariable]
  cases server.value nodeId with
  | none => rfl
  | some v => rfl

theorem value_of_null (h : server.isNull nodeId = true) : server.value nodeId = none := by
  rw [Server.value, server.null nodeId h]
  rfl

theorem success_readScalar {α : Type} {ofVariant : Variant → Option α} {zero : α}
    {var : VariableInfo} (h : ∀ v, (ofVariant v).isSome = typeOk type v) :
    (readScalar ofVariant zero server var).success =
      (registerVariable server type var.fullName).1 := by
  rw [registerVariable_eq, readScalar]
  cases hnull : server.isNull var.fullName with
  | true =>
    rw [value_of_null hnull]
    rfl
  | false =>
    rw [if_neg (by simp)]
    cases server.value var.fullName with
    | none => rfl
    | some v =>
      dsimp only [Option.map_some, Option.getD_some]
      rw [← h v]
      cases ofVariant v with
      | none => rfl
      | some a => rfl

theorem isSome_ite {α : Type} (b : Bool) (a : α) :
    (if b = true then some a else none).isSome = b := by
  cases b with
  | true => rfl
  | false => rfl

variable (rest) in
theorem isSome_readNodeValueAsString (h : isScalar type = true) :
    (readNodeValueAsString (opcClient server rest) nodeId type).isSome =
      (registerVariable server type nodeId).1 := by
  cases type with
  | Int16 | Int32 | Float | Double | Bool | String =>
    rw [readNodeValueAsString, isSome_ite]
    apply success_readScalar
    intro v
    cases v with
    | scalar s => cases s <;> rfl
    | array t => rfl
  | _ => cases h

theorem hasValue_diagnose (name : Text) :
    (diagnose server (opcClient server rest) (name, type, nodeId)).hasValue =
      (isScalar type && (registerVariable server type nodeId).1 &&
        (diagnose server (opcClient server rest) (name, type, nodeId)).readable) := by
  dsimp only [diagnose]
  cases hs : isScalar type with
  | false =>
    have hnone : readNodeValueAsString (opcClient server rest) nodeId type = none := by
      cases type with
      | Int16 | Int32 | Float | Double | Bool | String => cases hs
      | _ => rfl
    rw [hnone, ite_self]
    rfl
  | true =>
    rw [← isSome_readNodeValueAsString rest hs]
    cases haccess : readAccessLevel server nodeId with
    | none => simp
    | some access =>
      cases hreadable : access.1 with
      | true => simp [hreadable]
      | false => simp [hreadable]

end Rows

section Texts

variable {server : Server} {client : ISPSClient} {vars : Vars} {r : Registration}

def isAscii (c : Char) : Bool := c.toNat < 0x80

theorem isUtf8_of_ascii {s : Text} (h : s.all isAscii = true) : isUtf8 s = true := by
  rw [isUtf8]
  induction s with
  | nil => rfl
  | cons c s ih =>
    rw [List.all_cons, Bool.and_eq_true] at h
    rw [goesOn, following, if_pos (of_decide_eq_true h.1), Option.any_some]
    exact ih h.2

theorem isAscii_of_mem_toText {i : Int} {c : Char} (hc : c ∈ toText i) : isAscii c = true := by
  obtain rfl | hc := NumberTexts.mem_toText hc
  · decide
  · have hle := (Bool.and_eq_true_iff.mp hc).2
    have hnine : c.val ≤ '9'.val := of_decide_eq_true hle
    exact decide_eq_true (Nat.lt_of_le_of_lt (UInt32.le_iff_toNat_le.mp hnine) (by decide))

theorem ascii_toText (i : Int) : (toText i).all isAscii = true :=
  List.all_eq_true.mpr fun _ => isAscii_of_mem_toText

theorem ascii_thousandths (n : Nat) : (thousandths n).all isAscii = true := by
  have hdigit : ∀ d < 10, isAscii (Nat.digitChar d) = true := by decide
  have hmod : ∀ m : Nat, isAscii (Nat.digitChar (m % 10)) = true :=
    fun m => hdigit _ (Nat.mod_lt m (by decide))
  simp only [thousandths, List.all_cons, List.all_nil, hmod, Bool.and_self]

theorem ascii_formatReal (v : Rat) : (formatReal v).all isAscii = true := by
  have hsub : ∀ s : Text, s.all isAscii = true →
      (if s.getLast? = some '.' then s.dropLast else s).all isAscii = true := by
    intro s hs
    split
    · exact List.all_eq_true.mpr fun c hc => List.all_eq_true.mp hs c (List.mem_of_mem_dropLast hc)
    · exact hs
  refine hsub _ (List.all_eq_true.mpr fun c hc => ?_)
  refine List.all_eq_true.mp ?_ c ((List.rdropWhile_prefix _ _).mem hc)
  rw [List.all_append, List.all_append, List.all_cons, ascii_toText, ascii_thousandths]
  split
  · rfl
  · rfl

theorem nodeIdOf_eq (ns i : Text) :
    nodeIdOf ns i = ['n', 's', '='] ++ (ns ++ (';' :: 'i' :: '=' :: i)) := by
  have hlit : lit "ns=" = ['n', 's', '='] ∧ lit ";i=" = [';', 'i', '='] := by decide +kernel
  rw [nodeIdOf, hlit.1, hlit.2, List.append_assoc, List.append_assoc]
  rfl

theorem isUtf8_nodeIdOf (n m : Int) : isUtf8 (nodeIdOf (toText n) (toText m)) = true := by
  refine isUtf8_of_ascii ?_
  have hi : (';' :: 'i' :: '=' :: toText m).all isAscii = true := ascii_toText m
  rw [nodeIdOf_eq, List.all_append, List.all_append, ascii_toText, hi]
  rfl

theorem isUtf8_readNodeValueAsString {nodeId : Text} {type : DataType} (h : type ≠ .String) :
    isUtf8 ((readNodeValueAsString client nodeId type).getD []) = true := by
  have hsome : ∀ (b : Bool) (s : Text), s.all isAscii = true →
      isUtf8 ((if b = true then some s else none).getD []) = true := by
    intro b s hs
    cases b with
    | true => exact isUtf8_of_ascii hs
    | false => rfl
  cases type with
  | Int16 | Int32 => exact hsome _ _ (ascii_toText _)
  | Float | Double => exact hsome _ _ (ascii_formatReal _)
  | Bool =>
    refine hsome _ _ ?_
    split
    · decide +kernel
    · decide +kernel
  | String => exact absurd rfl h
  | _ => rfl

end Texts

section Inline

variable {vars : Vars} {c : SPSController} {server : Server} {nodes : List NodeDiagnostic}
variable {inputs : Key → Option Text} {key : Key} {a b : Text}

theorem semicolon_notMem_toText (i : Int) : ';' ∉ toText i := by
  intro h
  obtain h | h := NumberTexts.mem_toText h
  · exact absurd h (by decide)
  · exact absurd h (by decide)

theorem nodeIdOf_eq_iff (n m : Int) :
    nodeIdOf (toText n) (toText m) = nodeIdOf a b ↔ toText n = a ∧ toText m = b := by
  have hrest : ';' ∉ 'i' :: '=' :: toText m := by
    simp [semicolon_notMem_toText m]
  rw [nodeIdOf_eq, nodeIdOf_eq, List.append_cancel_left_eq]
  constructor
  · intro h
    obtain ⟨hn, -, hm⟩ := (List.append_cons_inj_of_notMem (semicolon_notMem_toText n) hrest).mp h
    simp only [List.cons.injEq, true_and] at hm
    exact ⟨hn, hm⟩
  · rintro ⟨rfl, rfl⟩
    rfl

theorem trim_toText (i : Int) : trim (toText i) = toText i := by
  have hspace : ∀ c ∈ toText i, ¬isWhiteSpace c = true := by
    intro c hc h
    obtain rfl | hc := NumberTexts.mem_toText hc
    · exact absurd h (by decide)
    · simp only [isWhiteSpace, List.mem_cons, List.not_mem_nil, or_false, decide_eq_true_eq] at h
      simp only [Char.isDigit, Bool.and_eq_true, decide_eq_true_eq, ge_iff_le,
        UInt32.le_iff_toNat_le] at hc
      have h0 : ('0' : Char).val.toNat = 48 := rfl
      have h9 : ('9' : Char).val.toNat = 57 := rfl
      have hc' : c.toNat = c.val.toNat := rfl
      omega
  have hdrop : (toText i).dropWhile isWhiteSpace = toText i :=
    List.dropWhile_eq_self_iff.mpr fun hl => hspace _ (List.getElem_mem hl)
  rw [trim, hdrop]
  exact List.rdropWhile_eq_self_iff.mpr fun hl => hspace _ (List.getLast_mem hl)

theorem lookup_byId (nodes : List NodeDiagnostic) (nodeId : Text) :
    (byId nodes).lookup nodeId = nodes.reverse.find? (·.nodeId = nodeId) := by
  suffices key : ∀ t : KeyTable Text NodeDiagnostic,
      (nodes.foldl (fun t n => t.upsert n.nodeId n) t).lookup nodeId =
        (nodes.reverse.find? (·.nodeId = nodeId)).or (t.lookup nodeId) by
    rw [byId, key]
    simp
  induction nodes with
  | nil => exact fun t => rfl
  | cons n nodes ih =>
    intro t
    rw [List.foldl_cons, ih, List.reverse_cons, List.find?_append, Option.or_assoc]
    congr 1
    rw [KeyTable.lookup_upsert]
    by_cases h : nodeId = n.nodeId
    · simp [h]
    · simp [h, Ne.symm h]

def Registration.row (server : Server) (client : ISPSClient) (vars : Vars) (r : Registration) :
    NodeDiagnostic := diagnose server client (r.configured vars)

theorem nodeDiagnostics_setupVariables (vars : Vars) (c : SPSController) :
    nodeDiagnostics server (setupVariables vars c).2 =
      registrations.map (·.row server c.dialog.client vars) := by
  rw [nodeDiagnostics, configuredNodes_setupVariables, List.map_map, setupVariables,
    registerAll_client]
  rfl

/-- Beside a field there is the row of the last registration that has the number of the field, if
the namespace is the one of the service, too. -/
theorem inlineNode_eq (vars : Vars) (c : SPSController) (server : Server)
    (inputs : Key → Option Text) (key : Key) :
    inlineNode (nodeDiagnostics server (setupVariables vars c).2) inputs key =
      (inputs key).bind fun value =>
        (registrations.reverse.find? fun r =>
          index vars .ns = ((inputs .ns).map trim).getD ['1'] ∧ index vars r.key = trim value).map
            (·.row server c.dialog.client vars) := by
  rw [inlineNode]
  refine congrArg _ (funext fun value => ?_)
  rw [lookup_byId, nodeDiagnostics_setupVariables, ← List.map_reverse, List.find?_map]
  refine congrArg (fun p => Option.map _ (List.find? p registrations.reverse)) (funext fun r => ?_)
  exact decide_eq_decide.mpr (nodeIdOf_eq_iff _ _)

/-- The settings beside which the page shows a node. -/
def nodeKeys : List Key :=
  ((SettingsSchema.kGroups.filter fun g => g.category = SettingsSchema.kCatOpc).flatMap fun g =>
    g.fields.map (·.key)).filter (· ≠ .ns)

theorem perm_nodeKeys : nodeKeys.Perm (registrations.map (·.key)) := by decide +kernel

theorem nodup_nodeKeys : nodeKeys.Nodup := by
  refine SettingsSchema.seen_kGroups_nodup.sublist (List.filter_sublist.trans ?_)
  exact List.Sublist.flatMap List.filter_sublist _

theorem eq_of_opcNodes {spsMessage : Text} {nodes answer : List NodeDiagnostic}
    (h : opcNodes spsMessage nodes = some answer) : nodes = answer := by
  rw [opcNodes] at h
  split at h
  · exact Option.some.inj h
  · cases h

theorem isUtf8_row (server : Server) (client : ISPSClient) (vars : Vars) {r : Registration}
    (hr : r ∈ registrations) :
    let d := r.row server client vars
    (isUtf8 d.name && isUtf8 d.nodeId && isUtf8 d.type && isUtf8 d.value) = true ↔
      (r.type = .String → isUtf8 d.value = true) := by
  intro d
  obtain ⟨hname, htype⟩ : isUtf8 d.name = true ∧ isUtf8 d.type = true :=
    registrations_names.2.2 r hr
  have hnodeId : isUtf8 d.nodeId = true := isUtf8_nodeIdOf _ _
  rw [hname, hnodeId, htype, Bool.and_self, Bool.and_self, Bool.true_and]
  refine ⟨fun h _ => h, fun h => ?_⟩
  by_cases hs : r.type = .String
  · exact h hs
  · have hvalue : d.value = ((if ((readAccessLevel server (r.nodeId vars)).isSome && d.readable) = true
        then readNodeValueAsString client (r.nodeId vars) r.type else none).getD []) := rfl
    rw [hvalue]
    split
    · exact isUtf8_readNodeValueAsString hs
    · rfl

theorem opcNodes_eq_none_iff (vars : Vars) (c : SPSController) (server : Server) (spsMessage : Text) :
    opcNodes spsMessage (nodeDiagnostics server (setupVariables vars c).2) = none ↔
      isUtf8 spsMessage = false ∨ ∃ r ∈ registrations, r.type = .String ∧
        isUtf8 (r.row server c.dialog.client vars).value = false := by
  rw [opcNodes, nodeDiagnostics_setupVariables, List.all_map, ite_eq_right_iff]
  have hall : (registrations.all ((fun n => isUtf8 n.name && isUtf8 n.nodeId && isUtf8 n.type &&
      isUtf8 n.value) ∘ (·.row server c.dialog.client vars))) = true ↔
      ∀ r ∈ registrations, r.type = .String →
        isUtf8 (r.row server c.dialog.client vars).value = true := by
    rw [List.all_eq_true]
    exact forall₂_congr fun r hr => isUtf8_row server c.dialog.client vars hr
  simp only [Bool.and_eq_true, hall, reduceCtorEq, imp_false, not_and_or, Bool.not_eq_true,
    not_forall, exists_prop]

theorem find?_registration {r : Registration} (hr : r ∈ registrations)
    (hown : ∀ r' ∈ registrations, index vars r'.key = index vars r.key → r' = r) :
    (registrations.reverse.find? fun r' => index vars .ns = trim (index vars .ns) ∧
      index vars r'.key = trim (index vars r.key)) = some r := by
  have hsome : (registrations.reverse.find? fun r' => index vars .ns = trim (index vars .ns) ∧
      index vars r'.key = trim (index vars r.key)).isSome = true := by
    rw [List.find?_isSome]
    refine ⟨r, List.mem_reverse.mpr hr, ?_⟩
    simp only [decide_eq_true_eq, index, trim_toText, and_self]
  obtain ⟨r', hr'⟩ := Option.isSome_iff_exists.mp hsome
  have hp := List.find?_some hr'
  simp only [decide_eq_true_eq] at hp
  have hnumber : index vars r'.key = index vars r.key := hp.2.trans (trim_toText _)
  rw [hr', hown r' (List.mem_reverse.mp (List.mem_of_find?_eq_some hr')) hnumber]

def numbered : Vars := fun k => .number (registrations.findIdx fun r => r.key = k)

def beating : Server where
  isNull _ := false
  node nodeId :=
    if nodeId = nodeIdOf (index numbered .ns) (index numbered .iHeartbeat) then
      some { accessLevel := some 3, value := some (.scalar (.INT16 7)) }
    else none
  null := nofun

def fresh : SPSController where
  dialog := { client := opcClient beating SuccessFlags.workingClient, variableMap := fun _ => none }
  configuredNodes_ := []

end Inline

end Datenbereitstellung.NodeDiagnostics
