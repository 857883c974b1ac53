import Datenbereitstellung.Lib.Phases
import Datenbereitstellung.OperatingLoop
import Datenbereitstellung.PreviewFolder

namespace Datenbereitstellung.SpsWorker

open Strings SettingsStore Lib.Program
open SettingsTakeover (Vars Value bootstrapKeys assign)
open PreviewFolder (text number managerConfig)
open OpcUa (Written)

section ActiveSettings

def activeKeys : List Key :=
  [.ipSPS, .ProgrammId, .ns, .folderPath, .sizeObjx, .sizeObjy, .webserVerImgSizeX,
    .webserVerImgSizeY, .iError, .iInfo, .iHeartbeat, .iStatusCode, .iDataArry, .iProjektArray,
    .iUpdateProjektList, .iProjektlistUpdated, .iProjektName, .iReadProjekt, .iLenProjekt,
    .iAnzDatenblöcke, .iWriteData, .iIndexData, .iReadData, .MaximaleAnzahlProjekte, .LenDataArray,
    .iabbruchUbertragen, .showProjektInfo, .ProjektInfoWrote, .ProjektVorhanden,
    .iUebertgarungBeendet, .iUebertragungslaege, .iFarbeG0, .iStaerkeG0, .iFarbeG1, .iStaerkeG1,
    .iFarbeG2, .iStaerkeG2, .iFarbeG3, .iStaerkeG3, .objektgroesseX, .objektgroesseY, .iFarbeLive,
    .iFarbeErledigt, .iStaerkeLive, .iStaerkeErledigt, .iLiveStand, .iLiveBreak, .iMinArcRadius]

def isTextKey : Key → Bool
  | .ipSPS | .ProgrammId | .folderPath => true
  | _ => false

/-- The members of the JSON object; a number is put there by `std::to_string`. -/
def activeSettingsJson (vars : Vars) (managerBlockSize : Int := -1) : List (Key × Text) :=
  activeKeys.map fun k => (k,
    if isTextKey k then text (vars k)
    else if k = .LenDataArray then
      toText (if managerBlockSize ≥ 0 then managerBlockSize else number (vars .LenDataArray))
    else toText (number (vars k)))

end ActiveSettings

section Calls

structure NodeDiagnostic where
  name : Text
  nodeId : Text
  type : Text
  «exists» : Bool
  readable : Bool
  writable : Bool
  hasValue : Bool
  value : Text

/-- The calls of `spsWorkerLoop`: its accesses to what it shares with the other threads, those to the
PLC, and what else decides how it goes on. `job` are the calls of the three jobs of the PLC. -/
inductive Req
  | running
  | get (k : Key)
  | bootstrapRevision (inTakeOver : Bool)
  | endpointReachable (url : Text)
  | connect
  | setupVariables
  | disconnect
  | storeConnected (connected : Bool)
  | setSpsConnected (connected : Bool)
  | setSpsMessage (msg : Text)
  | setNodeDiagnostics (nodes : List NodeDiagnostic)
  | setActiveSettings (values : List (Key × Text))
  | nodeDiagnostics
  | diagDue
  | heartbeatDue
  | writeHeartbeat
  | writeInfoText (text : Text)
  | writeError (value : Bool)
  | writeStatusCode (value : Int)
  | startWatchdog
  | joinWatchdog
  | linkDown
  | job (q : OperatingLoop.Req)

@[reducible] def Ans : Req → Type
  | .get _ => Text
  | .bootstrapRevision _ => Nat
  | .nodeDiagnostics => List NodeDiagnostic
  | .writeHeartbeat | .writeInfoText _ | .writeError _ | .writeStatusCode _ => Written
  | .storeConnected _ | .setSpsConnected _ | .setSpsMessage _ | .setNodeDiagnostics _
  | .setActiveSettings _ | .startWatchdog | .joinWatchdog => Unit
  | .job q => OperatingLoop.Ans q
  | _ => Bool

/-- An exception leaves the thread and ends the process. -/
abbrev M (α : Type) := Prog Req Ans Text α

abbrev running : M Bool := Prog.perform Req.running

def setStatus (connected : Bool) (msg : Text) : M Unit := do
  Prog.perform (Req.storeConnected connected)
  Prog.perform (Req.setSpsConnected connected)
  Prog.perform (Req.setSpsMessage msg)

def clearDiag : M Unit := Prog.perform (Req.setNodeDiagnostics [])

def collectDiag : M Unit := do
  let nodes ← Prog.perform Req.nodeDiagnostics
  Prog.perform (Req.setNodeDiagnostics nodes)

def opcEnabled : M Bool := do
  let stored ← Prog.perform (Req.get .opcEnabled)
  pure ((stoi stored).getD 1 != 0)

def dataExchangeEnabled : M Bool := do
  let stored ← Prog.perform (Req.get .dataExchangeEnabled)
  pure ((stoi stored).getD 1 != 0)

def applySettings : List Key → Vars → M Vars
  | [], vars => pure vars
  | k :: ks, vars => do
    let stored ← Prog.perform (Req.get k)
    applySettings ks (assign vars k stored)

/-- A heartbeat is due once a second; `sent` is what follows it. -/
def heartbeat (sent : Written → M Unit) : M Bool := do
  if ← Prog.perform Req.heartbeatDue then
    let hbOk ← Prog.perform Req.writeHeartbeat
    Prog.perform (Req.storeConnected hbOk.success)
    Prog.perform (Req.setSpsConnected hbOk.success)
    sent hbOk
    pure hbOk.success
  else pure true

def keepAlive : M Bool := do
  if !(← heartbeat fun _ => pure ()) then pure false
  else if !(← running) then pure false
  else
    let down ← Prog.perform Req.linkDown
    pure !down

/-- What the `ProjectManager` calls, it calls here. -/
def serve : (q : OperatingLoop.Req) → M (OperatingLoop.Ans q)
  | .manager .keepAlive => keepAlive
  | q => Prog.perform (Req.job q)

end Calls

section Loop

/-- The heads of the loops; `disabled` is the waiting while the connection is switched off, `wait`
the loop of that lambda, and `transfer` are the loops of a transfer. -/
inductive Stage
  | connect (vars : Vars)
  | disabled (vars : Vars) (i : Nat)
  | wait (vars : Vars) (bootRev ms waited : Nat)
  | operate (vars : Vars) (bootRev : Nat)
  | transfer (vars : Vars) (bootRev : Nat) (s : ProjectManager.Stage)

def reconnect (vars : Vars) : M (Stage ⊕ Unit) := do
  if ← running then pure (.inl (.connect vars)) else pure (.inr ())

def nichtErreichbar (vars : Vars) : Text := lit "nicht erreichbar: " ++ text (vars .ipSPS)

def setup (vars : Vars) (bootRev : Nat) : M (Stage ⊕ Unit) := do
  setStatus true (lit "verbunden, registriere Knoten ...")
  if !(← Prog.perform Req.setupVariables) then
    collectDiag
    setStatus false (lit "Knoten-Setup fehlgeschlagen - Namespace/Indizes pruefen")
    let _ ← Prog.perform Req.disconnect
    pure (.inl (.wait vars bootRev 5000 0))
  else
    setStatus true (lit "verbunden")
    let _ ← Prog.perform (Req.writeInfoText (lit "Service gestartet"))
    let _ ← Prog.perform (Req.writeError false)
    let _ ← Prog.perform (Req.writeStatusCode 0)
    Prog.perform (Req.setActiveSettings
      (activeSettingsJson vars (managerConfig vars).lenDataArray))
    collectDiag
    Prog.perform Req.startWatchdog
    pure (.inl (.operate vars bootRev))

def connectBody (vars : Vars) : M (Stage ⊕ Unit) := do
  let vars ← applySettings bootstrapKeys vars
  Prog.perform (Req.setActiveSettings (activeSettingsJson vars))
  let bootRev ← Prog.perform (Req.bootstrapRevision true)
  if !(← opcEnabled) then
    clearDiag
    setStatus false (lit "SPS-Verbindung deaktiviert")
    pure (.inl (.disabled vars 0))
  else
    clearDiag
    setStatus false (lit "verbinde mit " ++ text (vars .ipSPS) ++ lit " ...")
    if !(← Prog.perform (Req.endpointReachable (text (vars .ipSPS)))) then
      clearDiag
      setStatus false (nichtErreichbar vars)
      pure (.inl (.wait vars bootRev 3000 0))
    else if !(← Prog.perform Req.connect) then
      clearDiag
      setStatus false (nichtErreichbar vars)
      pure (.inl (.wait vars bootRev 5000 0))
    else setup vars bootRev

def disabledBody (vars : Vars) (i : Nat) : M (Stage ⊕ Unit) := do
  if !(i < 10) then reconnect vars
  else if !(← running) then reconnect vars
  else pure (.inl (.disabled vars (i + 1)))

def waitBody (vars : Vars) (bootRev ms waited : Nat) : M (Stage ⊕ Unit) := do
  if !(waited < ms) then reconnect vars
  else if !(← running) then reconnect vars
  else if (← Prog.perform (Req.bootstrapRevision false)) ≠ bootRev then reconnect vars
  else pure (.inl (.wait vars bootRev ms (waited + 200)))

def leave (vars : Vars) : M (Stage ⊕ Unit) := do
  Prog.perform Req.joinWatchdog
  let _ ← Prog.perform (Req.writeInfoText (lit "Service gestoppt"))
  let _ ← Prog.perform Req.disconnect
  clearDiag
  let msg := if ← running then lit "Einstellungen geaendert - verbinde neu" else lit "beendet"
  setStatus false msg
  reconnect vars

def beat (dataOn : Bool) : M Bool := heartbeat fun hbOk => do
  if hbOk.success then
    Prog.perform (Req.setSpsMessage
      (if dataOn then lit "verbunden" else lit "verbunden - Datenaustausch pausiert"))
  else pure ()

def nextStage (vars : Vars) (bootRev : Nat) : OperatingLoop.Stage ⊕ Unit → Stage ⊕ Unit
  | .inl (.transfer s) => .inl (.transfer vars bootRev s)
  | _ => .inl (.operate vars bootRev)

def serveTriggers (vars : Vars) (bootRev : Nat) : M (Stage ⊕ Unit) := do
  let next ← Prog.interp serve (do
    OperatingLoop.serveUpdateProjektList (managerConfig vars) (number (vars .MaximaleAnzahlProjekte))
    OperatingLoop.serveShowProjektInfo (managerConfig vars)
    OperatingLoop.serveReadProjekt)
  pure (nextStage vars bootRev next)

def operateBody (vars : Vars) (bootRev : Nat) : M (Stage ⊕ Unit) := do
  if !(← running) then leave vars
  else if (← Prog.perform (Req.bootstrapRevision false)) ≠ bootRev then leave vars
  else
    if ← Prog.perform Req.diagDue then collectDiag else pure ()
    if ← Prog.perform Req.linkDown then leave vars
    else if !(← opcEnabled) then leave vars
    else
      let dataOn ← dataExchangeEnabled
      if !(← beat dataOn) then leave vars
      else if !dataOn then pure (.inl (.operate vars bootRev))
      else serveTriggers vars bootRev

def transferBody (vars : Vars) (bootRev : Nat) (s : ProjectManager.Stage) : M (Stage ⊕ Unit) := do
  let next ← Prog.interp serve (OperatingLoop.transferring (managerConfig vars) s)
  pure (nextStage vars bootRev next)

def spsWorkerLoop : Process Req Ans Text Stage Unit
  | .connect vars => connectBody vars
  | .disabled vars i => disabledBody vars i
  | .wait vars bootRev ms waited => waitBody vars bootRev ms waited
  | .operate vars bootRev => operateBody vars bootRev
  | .transfer vars bootRev s => transferBody vars bootRev s

end Loop

end Datenbereitstellung.SpsWorker
