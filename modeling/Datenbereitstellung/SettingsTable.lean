import Datenbereitstellung.Lib.Tables
import Datenbereitstellung.OpcUa
import Datenbereitstellung.SettingsStore

namespace Datenbereitstellung.SettingsTable

open Strings SettingsStore Lib.Tables
open OpcUa (cStr)

section Schema

def keyName : Key → Text
  | .webUseTls => lit "webUseTls"
  | .webCertHosts => lit "webCertHosts"
  | .opcEnabled => lit "opcEnabled"
  | .dataExchangeEnabled => lit "dataExchangeEnabled"
  | .ProgrammId => lit "ProgrammId"
  | .ipSPS => lit "ipSPS"
  | .ns => lit "ns"
  | .folderPath => lit "folderPath"
  | .MaximaleAnzahlProjekte => lit "MaximaleAnzahlProjekte"
  | .LenDataArray => lit "LenDataArray"
  | .sizeObjx => lit "sizeObjx"
  | .sizeObjy => lit "sizeObjy"
  | .webserVerImgSizeX => lit "webserVerImgSizeX"
  | .webserVerImgSizeY => lit "webserVerImgSizeY"
  | .iMinArcRadius => lit "iMinArcRadius"
  | .iError => lit "iError"
  | .iInfo => lit "iInfo"
  | .iHeartbeat => lit "iHeartbeat"
  | .iStatusCode => lit "iStatusCode"
  | .iDataArry => lit "iDataArry"
  | .iProjektArray => lit "iProjektArray"
  | .iUpdateProjektList => lit "iUpdateProjektList"
  | .iProjektlistUpdated => lit "iProjektlistUpdated"
  | .showProjektInfo => lit "showProjektInfo"
  | .iProjektName => lit "iProjektName"
  | .iLenProjekt => lit "iLenProjekt"
  | .iAnzDatenblöcke => lit "iAnzDatenblöcke"
  | .ProjektVorhanden => lit "ProjektVorhanden"
  | .ProjektInfoWrote => lit "ProjektInfoWrote"
  | .iReadProjekt => lit "iReadProjekt"
  | .iWriteData => lit "iWriteData"
  | .iIndexData => lit "iIndexData"
  | .iReadData => lit "iReadData"
  | .iabbruchUbertragen => lit "iabbruchUbertragen"
  | .iUebertgarungBeendet => lit "iUebertgarungBeendet"
  | .iUebertragungslaege => lit "iUebertragungslaege"
  | .iFarbeG0 => lit "iFarbeG0"
  | .iStaerkeG0 => lit "iStaerkeG0"
  | .iFarbeG1 => lit "iFarbeG1"
  | .iStaerkeG1 => lit "iStaerkeG1"
  | .iFarbeG2 => lit "iFarbeG2"
  | .iStaerkeG2 => lit "iStaerkeG2"
  | .iFarbeG3 => lit "iFarbeG3"
  | .iStaerkeG3 => lit "iStaerkeG3"
  | .iFarbeLive => lit "iFarbeLive"
  | .iFarbeErledigt => lit "iFarbeErledigt"
  | .iStaerkeLive => lit "iStaerkeLive"
  | .iStaerkeErledigt => lit "iStaerkeErledigt"
  | .iLiveStand => lit "iLiveStand"
  | .iLiveBreak => lit "iLiveBreak"
  | .objektgroesseX => lit "objektgroesseX"
  | .objektgroesseY => lit "objektgroesseY"
  | .previewMinArcRadius => lit "previewMinArcRadius"
  | .previewColorG0 => lit "previewColorG0"
  | .previewColorG1 => lit "previewColorG1"
  | .previewColorG2 => lit "previewColorG2"
  | .previewColorG3 => lit "previewColorG3"
  | .previewThicknessG0 => lit "previewThicknessG0"
  | .previewThicknessG1 => lit "previewThicknessG1"
  | .previewThicknessG2 => lit "previewThicknessG2"
  | .previewThicknessG3 => lit "previewThicknessG3"
  | .previewLiveColor => lit "previewLiveColor"
  | .previewDoneColor => lit "previewDoneColor"
  | .previewLiveThickness => lit "previewLiveThickness"
  | .previewDoneThickness => lit "previewDoneThickness"

def kDefaults : List (Key × Text) :=
  [(.webUseTls, lit "1"),
    (.webCertHosts, lit ""),
    (.opcEnabled, lit "1"),
    (.dataExchangeEnabled, lit "1"),
    (.ProgrammId, lit "OPCDATENVERARBEITUNG"),
    (.ipSPS, lit "opc.tcp://192.168.155.4:4840"),
    (.ns, lit "1"),
    (.folderPath, lit "/data/projects"),
    (.MaximaleAnzahlProjekte, lit "16"),
    (.LenDataArray, lit "100"),
    (.sizeObjx, lit "1000"),
    (.sizeObjy, lit "2000"),
    (.webserVerImgSizeX, lit "500"),
    (.webserVerImgSizeY, lit "1000"),
    (.iMinArcRadius, lit "214"),
    (.iError, lit "120"),
    (.iInfo, lit "122"),
    (.iHeartbeat, lit "123"),
    (.iStatusCode, lit "124"),
    (.iDataArry, lit "19"),
    (.iProjektArray, lit "138"),
    (.iUpdateProjektList, lit "125"),
    (.iProjektlistUpdated, lit "126"),
    (.showProjektInfo, lit "127"),
    (.iProjektName, lit "128"),
    (.iLenProjekt, lit "129"),
    (.iAnzDatenblöcke, lit "130"),
    (.ProjektVorhanden, lit "131"),
    (.ProjektInfoWrote, lit "132"),
    (.iReadProjekt, lit "133"),
    (.iWriteData, lit "134"),
    (.iIndexData, lit "135"),
    (.iReadData, lit "136"),
    (.iabbruchUbertragen, lit "137"),
    (.iUebertgarungBeendet, lit "139"),
    (.iUebertragungslaege, lit "140"),
    (.iFarbeG0, lit "200"),
    (.iStaerkeG0, lit "201"),
    (.iFarbeG1, lit "202"),
    (.iStaerkeG1, lit "203"),
    (.iFarbeG2, lit "204"),
    (.iStaerkeG2, lit "205"),
    (.iFarbeG3, lit "206"),
    (.iStaerkeG3, lit "207"),
    (.iFarbeLive, lit "210"),
    (.iFarbeErledigt, lit "215"),
    (.iStaerkeLive, lit "211"),
    (.iStaerkeErledigt, lit "216"),
    (.iLiveStand, lit "212"),
    (.iLiveBreak, lit "213"),
    (.objektgroesseX, lit "208"),
    (.objektgroesseY, lit "209"),
    (.previewMinArcRadius, lit "0"),
    (.previewColorG0, lit "128,128,128"),
    (.previewColorG1, lit "0,255,0"),
    (.previewColorG2, lit "255,0,0"),
    (.previewColorG3, lit "0,0,255"),
    (.previewThicknessG0, lit "1"),
    (.previewThicknessG1, lit "2"),
    (.previewThicknessG2, lit "2"),
    (.previewThicknessG3, lit "2"),
    (.previewLiveColor, lit "255,255,0"),
    (.previewDoneColor, lit "90,90,90"),
    (.previewLiveThickness, lit "3"),
    (.previewDoneThickness, lit "0")]

def defaultRows : List (Text × Text) := kDefaults.map fun kv => (keyName kv.1, kv.2)

def isKnown (key : Text) : Bool := defaultRows.any fun r => r.1 == key

/-- `isLiveKey`, of the name of a key. -/
def isLiveName (key : Text) : Bool := kDefaults.any fun kv => keyName kv.1 == key && isLiveKey kv.1

theorem defaultRows_nodup : (defaultRows.map Prod.fst).Nodup := by decide +kernel

def defaultTable : KeyTable Text Text := ⟨defaultRows, defaultRows_nodup⟩

theorem isKnown_eq (key : Text) : isKnown key = (defaultTable.lookup key).isSome := by
  rw [Bool.eq_iff_iff, isKnown, List.any_eq_true, KeyTable.lookup_isSome_iff]
  apply exists_congr
  intro r
  rw [beq_iff_eq]
  rfl

attribute [irreducible] kDefaults

end Schema

section Store

/-- The members of the store, and the table `settings` of its database. -/
structure Store where
  cache : KeyTable Text Text := .empty
  rev : Nat := 0
  bootRev : Nat := 0
  table : KeyTable Text Text

/-- How far an access to the database comes; what is rolled back leaves the table as it was. -/
inductive Access
  | works
  | openFails
  | rolledBack
  deriving DecidableEq

/-- A row as the loop over the `SELECT` takes it. -/
def readRow (cache : KeyTable Text Text) (row : Text × Text) : KeyTable Text Text :=
  if (cache.lookup (cStr row.1)).isSome then cache.upsert (cStr row.1) (cStr row.2) else cache

def init (access : Access) (s : Store) : Bool × Store :=
  let defaults := defaultRows.foldl (fun cache row => cache.upsert row.1 row.2) .empty
  match access with
  | .openFails => (false, { s with cache := defaults })
  | .rolledBack =>
    (true, { s with cache := s.table.rows.foldl readRow defaults, rev := s.rev + 1 })
  | .works =>
    (true, { s with
      cache := s.table.rows.foldl readRow defaults
      rev := s.rev + 1
      table := defaultRows.foldl (fun t row => t.insertOrIgnore (cStr row.1) (cStr row.2))
        s.table })

def writeToDb (access : Access) (table values : KeyTable Text Text) : Bool × KeyTable Text Text :=
  match access with
  | .openFails => (false, table)
  | .rolledBack => (true, table)
  | .works => (true, values.rows.foldl (fun t row => t.upsert (cStr row.1) (cStr row.2)) table)

structure Locals where
  cache : KeyTable Text Text
  accepted : KeyTable Text Text := .empty
  needsReconnect : Bool := false

def acceptRow (r : Locals) (row : Text × Text) : Locals :=
  match r.cache.lookup row.1 with
  | none => r
  | some v =>
    if v = row.2 then r
    else
      { cache := r.cache.upsert row.1 row.2
        accepted := r.accepted.upsert row.1 row.2
        needsReconnect := r.needsReconnect || !isLiveName row.1 }

def acceptRows (cache values : KeyTable Text Text) : Locals := values.rows.foldl acceptRow { cache }

def setMany (access : Access) (s : Store) (values : KeyTable Text Text) : Bool × Store :=
  let r := acceptRows s.cache values
  let changed := !r.accepted.rows.isEmpty
  (r.needsReconnect,
    { cache := r.cache
      rev := if changed then s.rev + 1 else s.rev
      bootRev := if r.needsReconnect then s.bootRev + 1 else s.bootRev
      table := if changed then (writeToDb access s.table r.accepted).2 else s.table })

end Store

end Datenbereitstellung.SettingsTable
