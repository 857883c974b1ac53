import Mathlib.Tactic.NormNum
import Datenbereitstellung.ArcFlatten
import Datenbereitstellung.OpcUa
import Datenbereitstellung.ProjectFileReader

namespace Datenbereitstellung.ProjectManager

open Strings Files OpcUa Lib.Program ArcFlatten
open ProjectFileReader (countRecords readDataBlock)

structure Config where
  folderPath : Text
  imageSizeX : Int
  imageSizeY : Int
  lenDataArray : Int

/-- `static_cast<int16_t>` -/
def toInt16 (i : Int) : Int := i.bmod (2 ^ 16)

def toInt32 (n : Nat) : Int := (n : Int).bmod (2 ^ 32)

theorem toInt32_eq_iff (n : Nat) : toInt32 n = n ↔ n < 2 ^ 31 := by
  unfold toInt32
  constructor
  · intro h
    have hlt := Int.bmod_lt (x := (n : Int)) (m := 2 ^ 32) (by norm_num)
    omega
  · intro h
    apply Int.bmod_eq_of_le
    · omega
    · omega

def toSize (i : Int) : Nat := (i % 2 ^ 64).toNat

/-- `std::ceil(a / b)` of doubles, as an `int`: exact below 2^31. Dividing by zero gives what
the conversion of an infinity gives on x86. -/
def blockCount (a b : Int) : Int := if b = 0 then -2 ^ 31 else -((-a).fdiv b)

structure ProjectInfo where
  name : Text
  filePath : Text
  recordCount : Nat
  exist : Bool

section Reader

/-- The project files among the entries of the folder, as many as are asked for. -/
def projectNames (es : List DirEntry) (maxCount : Int) : List Text :=
  let projektList := (es.filter fun entry =>
    entry.isRegularFile && extension entry.filename == ['.', 't', 'a', 'p']).map (·.filename)
  if projektList.length > toSize maxCount then projektList.take (toSize maxCount) else projektList

def listProjects (basePath : Text) (maxCount : Int) : M (List Text) := do
  match ← status basePath with
  | .error e => throw e
  | .ok none => throw (lit "Ordnerpfad existiert nicht: " ++ basePath)
  | .ok (some _) =>
    match ← entries basePath with
    | .error e => throw e
    | .ok es => pure (projectNames es maxCount)

def projectPath (basePath projectName : Text) : Text := basePath ++ '/' :: projectName

/-- `ProjectFileReader::getProjectInfo`; the exception of `countRecords` is caught there. -/
def getProjectInfo (basePath projectName : Text) : M (Option ProjectInfo) := do
  let tabFile := projectPath basePath projectName
  match ← status tabFile with
  | .error e => throw e
  | .ok none => pure none
  | .ok (some _) =>
    match ← openFile tabFile with
    | none => pure none
    | some content =>
      pure (some { name := projectName, filePath := tabFile, recordCount := countRecords content
                   exist := true })

end Reader

section Messages

def pushErrorMessage (errorMessage : Text) (errorCode : Int) : M Written := do
  let error ← writeBool .Error true
  let message ← writeInfoText errorMessage 255
  let code ← writeInt16 .StatusCode (toInt16 errorCode)
  if message.success || code.success || error.success then pure ⟨true, 0⟩
  else pure ⟨false, errorCode⟩

def logAndPushError (message : Text) (code : Int := -1) : M Unit := do
  let _ ← pushErrorMessage message code
  pure ()

def pushInfo (message : Text) : M Unit := do
  let _ ← writeInfoText message 255
  pure ()

end Messages

/-- A colour node holds one row of three numbers. -/
def colorOr (r : Reading (List (List Int))) (default : Scalar) : Scalar :=
  match r.success, r.value with
  | true, [[red, green, blue]] => ⟨blue, green, red⟩
  | _, _ => default

def numberOr (r : Reading Int) (default : Int) : Int := if r.success then r.value else default

def loadFromSPS (defaultSizeX defaultSizeY : Int) : M RenderParams := do
  let g0 ← readInt16Array .colorG0
  let g1 ← readInt16Array .colorG1
  let g2 ← readInt16Array .colorG2
  let g3 ← readInt16Array .colorG3
  let live ← readInt16Array .FarbeLive
  let done ← readInt16Array .FarbeErledigt
  let stLive ← readInt16 .StaerkeLive
  let stDone ← readInt16 .StaerkeErledigt
  let thicknessG0 ← readInt16 .streghtsG0
  let thicknessG1 ← readInt16 .streghtsG1
  let thicknessG2 ← readInt16 .streghtsG2
  let thicknessG3 ← readInt16 .streghtsG3
  let offsetH ← readInt16 .objektgroesseX
  let offsetV ← readInt16 .objektgroesseY
  let minArcRadius ← readMinArcRadius
  pure {
    imageSizeX := defaultSizeX
    imageSizeY := defaultSizeY
    colorG0 := colorOr g0 ⟨255, 255, 255⟩
    colorG1 := colorOr g1 ⟨0, 255, 0⟩
    colorG2 := colorOr g2 ⟨0, 0, 255⟩
    colorG3 := colorOr g3 ⟨255, 0, 0⟩
    liveColor := colorOr live ⟨0, 255, 255⟩
    doneColor := colorOr done ⟨90, 90, 90⟩
    liveThickness := numberOr stLive 3
    doneThickness := numberOr stDone 0
    thicknessG0 := numberOr thicknessG0 1
    thicknessG1 := numberOr thicknessG1 2
    thicknessG2 := numberOr thicknessG2 3
    thicknessG3 := numberOr thicknessG3 4
    horizontalOffset := numberOr offsetH 0
    verticalOffset := numberOr offsetV 0
    minArcRadius := if minArcRadius.success then minArcRadius.value else 0 }

section Helpers

def readProjectNameFromSPS : M (Text × Bool) := do
  let name ← readProjektName
  if !name.success then
    logAndPushError (lit "Fehler beim Lesen des Projektnamens: " ++ toText name.code)
    pure ([], false)
  else if name.value.isEmpty then
    logAndPushError (lit "Kein Projektname angegeben")
    pure ([], false)
  else pure (name.value, true)

def writeProjectListToSPS (projectNames : List Text) : M Bool := do
  let written ← writeStringArray .ProjektArray [projectNames] 0 0
  if !written.success then
    logAndPushError (lit "Fehler beim Schreiben der Projektliste") written.code
    pure false
  else
    let _ ← writeBool .ProjektlistUpdated true
    pushInfo (lit "Projektliste aktualisiert")
    pure true

def writeProjectInfoToSPS (cfg : Config) (info : ProjectInfo) : M Bool := do
  if !info.exist then
    let _ ← writeBool .ProjektVorhanden false
    logAndPushError (lit "Projekt existiert nicht: " ++ info.name)
    pure false
  else
    let _ ← writeInt16 .LenProjekt (toInt16 info.recordCount)
    let _ ← writeBool .ProjektVorhanden true
    let _ ← writeInt16 .AnzDatenblöcke (toInt16 (blockCount info.recordCount cfg.lenDataArray))
    pushInfo (lit "Projektinformationen erfolgreich angezeigt: " ++ info.name)
    pure true

def writeDataBlockToSPS (data : List Text) : M Bool := do
  let written ← writeStringArray .DataArray [data] 0 0
  if !written.success then
    logAndPushError (lit "Fehler beim Schreiben des Datenblocks: " ++ toText written.code)
      written.code
    pure false
  else pure true

def setTransferFlags (writeData readData finished : Bool) : M Unit := do
  let _ ← writeBool .WriteData writeData
  let _ ← writeBool .ReadData readData
  let _ ← writeBool .UebertgarungBeendet finished
  pure ()

end Helpers

def updateProjectList (cfg : Config) (maxProjects : Int) : M Bool :=
  tryCatch
    (do
      let projectNames ← listProjects cfg.folderPath maxProjects
      if projectNames.isEmpty then
        logAndPushError (lit "Keine Projekte im Ordner gefunden: " ++ cfg.folderPath)
        pure false
      else if projectNames.length > toSize maxProjects then
        logAndPushError (lit "Zu viele Projekte im Ordner: " ++ cfg.folderPath)
        pure false
      else writeProjectListToSPS projectNames)
    fun e => do
      logAndPushError (lit "Fehler bei updateProjectList: " ++ e)
      pure false

/-- The picture of the project; an exception of the drawing library passes through. -/
def showPreview (cfg : Config) (filePath : Text) : M Unit := do
  let params ← loadFromSPS cfg.imageSizeX cfg.imageSizeY
  match ← renderPreview filePath params with
  | .error e => throw e
  | .ok statusCode =>
    if statusCode ≠ 0 then
      let _ ← writeInt16 .StatusCode (toInt16 statusCode)
      logAndPushError (lit "Fehler beim Rendern der Vorschau: " ++ toText statusCode)
    else match ← publishImage with
      | .error e => throw e
      | .ok () => pure ()

def showProjectInfo (cfg : Config) : M (Int × Bool) :=
  tryCatch
    (do
      let (projectName, success) ← readProjectNameFromSPS
      if !success then pure (0, false)
      else match ← getProjectInfo cfg.folderPath projectName with
        | none =>
          let _ ← writeBool .ProjektVorhanden false
          logAndPushError (lit "Projekt nicht gefunden: " ++ projectName)
          pure (0, false)
        | some info =>
          if !(← writeProjectInfoToSPS cfg info) then pure (0, false)
          else
            showPreview cfg info.filePath
            pure (toInt32 info.recordCount, true))
    fun e => do
      logAndPushError (lit "Fehler bei showProjectInfo: " ++ e)
      pure (0, false)

/-- The local variables of the loop over the blocks. -/
structure Transfer where
  filePath : Text
  anzBlocke : Int
  arcThreshold : Rat
  currentBlock : Int
  lastProgress : Nat
  deriving DecidableEq

/-- The heads of the loops of `transferProjectData`, with the locals live there. -/
inductive Stage
  | start
  | transfer (t : Transfer)
  | acknowledge (ackDeadline : Nat)

def prepareTransfer (cfg : Config) : M (Stage ⊕ Bool) := do
  let (recordCount, success) ← showProjectInfo cfg
  if !success || recordCount = 0 then pure (.inr false)
  else
    let (projectName, nameSuccess) ← readProjectNameFromSPS
    if !nameSuccess then pure (.inr false)
    else match ← getProjectInfo cfg.folderPath projectName with
      | none => pure (.inr false)
      | some info =>
        let anzBlocke := blockCount recordCount cfg.lenDataArray
        let _ ← writeInt16 .AnzDatenblöcke (toInt16 anzBlocke)
        let _ ← writeInt16 .IndexData 0
        setTransferFlags false true false
        let minArcRadius ← readMinArcRadius
        let arcThreshold := if minArcRadius.success then minArcRadius.value else 0
        let lastProgress ← now
        pure (.inl (.transfer
          { filePath := info.filePath, anzBlocke, arcThreshold, currentBlock := 0, lastProgress }))

/-- What follows the loops on every way out of them. -/
def finishTransfer : M (Stage ⊕ Bool) := do
  setTransferFlags false false true
  pure (.inr true)

/-- The end of an iteration: go on, or wait for the last acknowledgement. -/
def nextBlock (t : Transfer) : M (Stage ⊕ Bool) := do
  if t.currentBlock ≥ t.anzBlocke then
    pushInfo (lit "Alle Blöcke übertragen.")
    let ackStart ← now
    pure (.inl (.acknowledge (ackStart + 5000)))
  else pure (.inl (.transfer t))

/-- The lines of the block, with the small arcs flattened. -/
def blockLines (cfg : Config) (t : Transfer) (content : Text) : List Text :=
  (readDataBlock content t.currentBlock cfg.lenDataArray).map (flattenArcLine · t.arcThreshold)

def sendBlock (cfg : Config) (t : Transfer) : M (Stage ⊕ Bool) := do
  let _ ← writeBool .ReadData false
  let _ ← writeInt16 .IndexData (toInt16 (t.currentBlock + 1))
  match ← openFile t.filePath with
  | none => throw (lit "Kann .tab-Datei nicht öffnen: " ++ t.filePath)
  | some content =>
    if !(← writeDataBlockToSPS (blockLines cfg t content)) then finishTransfer
    else
      let _ ← writeBool .WriteData true
      let lastProgress ← now
      nextBlock { t with currentBlock := t.currentBlock + 1, lastProgress }

def transferBlock (cfg : Config) (t : Transfer) : M (Stage ⊕ Bool) := do
  if !(← keepAlive) then
    logAndPushError
      (lit "Übertragung abgebrochen: Dienst wird beendet oder SPS-Verbindung verloren")
    finishTransfer
  else if ← handshakeExpired t.lastProgress then
    logAndPushError
      (lit "Übertragung abgebrochen: SPS hat 30 s lang keinen Block angefordert (ReadData)")
    finishTransfer
  else
    let abbruch ← readBool .ubertragenAbbrechen
    if abbruch.success && abbruch.value then
      let _ ← writeBool .ubertragenAbbrechen false
      finishTransfer
    else
      let readData ← readBool .ReadData
      if readData.success && readData.value then sendBlock cfg t else nextBlock t

def awaitAcknowledgement (ackDeadline : Nat) : M (Stage ⊕ Bool) := do
  if ← ackExpired ackDeadline then finishTransfer
  else if !(← keepAlive) then finishTransfer
  else
    let writeData ← readBool .WriteData
    if writeData.success && !writeData.value then finishTransfer
    else
      let readAck ← readBool .ReadData
      if readAck.success && readAck.value then
        let _ ← writeBool .ReadData false
        finishTransfer
      else pure (.inl (.acknowledge ackDeadline))

def guarded (p : M (Stage ⊕ Bool)) : M (Stage ⊕ Bool) :=
  tryCatch p fun e => do
    logAndPushError (lit "Fehler bei transferProjectData: " ++ e)
    setTransferFlags false false true
    pure (.inr false)

def transferProjectData (cfg : Config) : Process Req Ans Text Stage Bool
  | .start => guarded (prepareTransfer cfg)
  | .transfer t => guarded (transferBlock cfg t)
  | .acknowledge ackDeadline => guarded (awaitAcknowledgement ackDeadline)

end Datenbereitstellung.ProjectManager
