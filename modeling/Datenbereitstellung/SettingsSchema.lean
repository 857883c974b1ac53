import Datenbereitstellung.SettingsTable

namespace Datenbereitstellung.SettingsSchema

open Strings SettingsStore SettingsTable Lib.Tables

section Groups

inductive FieldType
  | text
  | int
  deriving DecidableEq

structure FieldDef where
  key : Key
  label : Text
  type : FieldType
  typehint : Text
  help : Text

structure GroupDef where
  name : Text
  category : Text
  isOpen : Bool
  fields : List FieldDef

def kCatGeneral : Text := lit "Allgemeine Einstellungen"

def kCatOpc : Text := lit "OPC-Knoten"

def kGroups : List GroupDef :=
  [{ name := lit "Betrieb"
     category := kCatGeneral
     isOpen := true
     fields :=
       [⟨.opcEnabled, lit "SPS-Verbindung aktiv", .int,
          lit "1 = an, 0 = aus",
          lit "Schaltet die OPC-UA-Verbindung zur SPS ein oder aus. Bei 0 wird die Verbindung " ++
            lit "getrennt und nicht neu aufgebaut. Die Weboberflaeche bleibt immer erreichbar."⟩,
        ⟨.webUseTls, lit "HTTPS verwenden", .int,
          lit "1 = HTTPS, 0 = HTTP",
          lit "1 = verschluesselt per HTTPS (selbstsigniertes Zertifikat, Browser warnt). 0 = " ++
            lit "unverschluesseltes HTTP - sinnvoll fuer HMI-Panels, deren Browser das " ++
            lit "selbstsignierte Zertifikat nicht akzeptiert. Aenderung wirkt sofort, der Webserver " ++
            lit "startet dabei kurz neu."⟩,
        ⟨.webCertHosts, lit "Zertifikat gilt fuer (IP/Name)", .text,
          lit "Liste, mit Komma getrennt",
          lit "IP-Adressen und Hostnamen, unter denen die Oberflaeche aufgerufen wird, z.B. " ++
            lit "192.168.155.147,cnc-panel. Ohne Eintrag kennt das Zertifikat nur die " ++
            lit "Container-interne IP - dann meldet jeder Browser einen Namensfehler. Aenderung " ++
            lit "erzeugt das Zertifikat neu."⟩,
        ⟨.dataExchangeEnabled, lit "Datenaustausch aktiv", .int,
          lit "1 = an, 0 = aus",
          lit "Bei 0 pausieren Projektuebertragung, Projektliste und Live-Bild. Verbindung und " ++
            lit "Heartbeat laufen weiter, damit die SPS den Dienst als verfuegbar sieht."⟩] },
   { name := lit "Programmeinstellungen"
     category := kCatGeneral
     isOpen := true
     fields :=
       [⟨.ProgrammId, lit "ProgrammId", .text,
          lit "Text",
          lit "Programmeinstellungen / Kennung des Dienstes."⟩,
        ⟨.ipSPS, lit "ipSPS", .text,
          lit "Text (OPC-UA URL)",
          lit "SPS-IP-Adresse (OPC-UA-Endpunkt)."⟩,
        ⟨.folderPath, lit "folderPath", .text,
          lit "Text (Pfad)",
          lit "Ordner mit den CNC-Projektdateien. Im Container der Mount /data/projects."⟩,
        ⟨.MaximaleAnzahlProjekte, lit "MaximaleAnzahlProjekte", .int,
          lit "Ganzzahl",
          lit "Gibt die Maximalgröße der im Folder befindlichen Objekte vor (Das Array für den " ++
            lit "OPC Server darf nicht kleiner sein)."⟩,
        ⟨.LenDataArray, lit "LenDataArray", .int,
          lit "Ganzzahl",
          lit "Größe des Arrays welches zum Datenübertragen genutzt wird."⟩] },
   { name := lit "OPC-Namespace"
     category := kCatOpc
     isOpen := true
     fields :=
       [⟨.ns, lit "ns", .int,
          lit "Ganzzahl (Namespace-Index)",
          lit "Namespace-Index der SPS-Variablen. Gilt für ALLE Knoten - jede Node-ID wird als " ++
            lit "ns=<Wert>;i=<Index> gebildet. Standard bei vielen SPSen: 1 (TIA/S7 oft 3 oder 4). " ++
            lit "Muss zum OPC-UA-Server der SPS passen."⟩] },
   { name := lit "Allgemeine Variablen Knoten (Dialog etc)"
     category := kCatOpc
     isOpen := false
     fields :=
       [⟨.iError, lit "iError", .int,
          lit "Node-Index → Bool (write)",
          lit "Index der Fehlervariable (write, bool)."⟩,
        ⟨.iInfo, lit "iInfo", .int,
          lit "Node-Index → String (write)",
          lit "Index der Informationsvariable (write, string)."⟩,
        ⟨.iHeartbeat, lit "iHeartbeat", .int,
          lit "Node-Index → Int (write)",
          lit "Index der Herzschlagvariable (write, int)."⟩,
        ⟨.iStatusCode, lit "iStatusCode", .int,
          lit "Node-Index → Int16 (write)",
          lit "Index des Statuscode (write, int16_t)."⟩] },
   { name := lit "Arrays"
     category := kCatOpc
     isOpen := false
     fields :=
       [⟨.iDataArry, lit "iDataArry", .int,
          lit "Node-Index → Float-Array (write)",
          lit "Index des Datenarrays (write, float array)."⟩,
        ⟨.iProjektArray, lit "iProjektArray", .int,
          lit "Node-Index → String-Array (write)",
          lit "Index des Projektarrays (write, string array)."⟩] },
   { name := lit "Dialog: Liste der verfügbaren Projekte aktualisieren"
     category := kCatOpc
     isOpen := false
     fields :=
       [⟨.iUpdateProjektList, lit "iUpdateProjektList", .int,
          lit "Node-Index → Bool (read)",
          lit "Trigger der Aktualisierungsliste des Projekts (read, bool)."⟩,
        ⟨.iProjektlistUpdated, lit "iProjektlistUpdated", .int,
          lit "Node-Index → Bool (write)",
          lit "Liste wurde geupdated (write, bool)."⟩] },
   { name := lit "Dialog: Informationen zum ausgewählten Projekt"
     category := kCatOpc
     isOpen := false
     fields :=
       [⟨.showProjektInfo, lit "showProjektInfo", .int,
          lit "Node-Index → Bool (read)",
          lit "Trigger Variable für die Info (read, bool)."⟩,
        ⟨.iProjektName, lit "iProjektName", .int,
          lit "Node-Index → String (read)",
          lit "Projekt aus dem String Array (read, string)."⟩,
        ⟨.iLenProjekt, lit "iLenProjekt", .int,
          lit "Node-Index → Int16 (write)",
          lit "Info zur Länge der Auswahl (write, int16_t)."⟩,
        ⟨.iAnzDatenblöcke, lit "iAnzDatenblöcke", .int,
          lit "Node-Index → Int16 (write)",
          lit "Anzahl der Datenblöcke die das Projekt zur Übertragung benötigt (write, int16_t)."⟩,
        ⟨.ProjektVorhanden, lit "ProjektVorhanden", .int,
          lit "Node-Index → Bool (write)",
          lit "Projekt vorhanden (write, bool)."⟩,
        ⟨.ProjektInfoWrote, lit "ProjektInfoWrote", .int,
          lit "Node-Index → Bool (write)",
          lit "Gibt an dass die Infos geschrieben wurden (write, bool)."⟩] },
   { name := lit "Dialog: Ausgewähltes Projekt laden"
     category := kCatOpc
     isOpen := false
     fields :=
       [⟨.iReadProjekt, lit "iReadProjekt", .int,
          lit "Node-Index → Bool (read)",
          lit "Trigger: Ausgewähltes Projekt laden (read, bool)."⟩,
        ⟨.iWriteData, lit "iWriteData", .int,
          lit "Node-Index → Bool (write)",
          lit "Ausgabe dass ein Datenblock geschrieben wurde (write, bool)."⟩,
        ⟨.iIndexData, lit "iIndexData", .int,
          lit "Node-Index → Int16 (write)",
          lit "Index des aktuellen Datenblocks (write, int16_t)."⟩,
        ⟨.iReadData, lit "iReadData", .int,
          lit "Node-Index → Bool",
          lit "Wenn true wurde der Block von der SPS gelesen und der nächste wird geschrieben."⟩,
        ⟨.iabbruchUbertragen, lit "iabbruchUbertragen", .int,
          lit "Node-Index → Bool (read)",
          lit "Bricht die Datenübertragung ab (read, bool)."⟩,
        ⟨.iUebertgarungBeendet, lit "iUebertgarungBeendet", .int,
          lit "Node-Index → Bool (write)",
          lit "Variable dass die Übertragung beendet ist und die Anwendung wieder frei ist."⟩] },
   { name := lit "Länge der auf einmal übertragenden Daten (Array Len)"
     category := kCatOpc
     isOpen := false
     fields :=
       [⟨.iUebertragungslaege, lit "iUebertragungslaege", .int,
          lit "Node-Index → Int16",
          lit "Länge der auf einmal übertragenden Daten (Array Len)."⟩] },
   { name := lit "Designs der Zeichnungen"
     category := kCatOpc
     isOpen := false
     fields :=
       [⟨.iFarbeG0, lit "iFarbeG0", .int,
          lit "Node-Index → Int-Array [G,B,R]",
          lit "Farbe G0 [G(255),B(255),R(255)] of Int."⟩,
        ⟨.iStaerkeG0, lit "iStaerkeG0", .int,
          lit "Node-Index → Int",
          lit "Stärke G0 Int (Tipp: Werte zwischen 2 und 10)."⟩,
        ⟨.iFarbeG1, lit "iFarbeG1", .int,
          lit "Node-Index → Int-Array [G,B,R]",
          lit "Farbe G1 [G(255),B(255),R(255)] of Int."⟩,
        ⟨.iStaerkeG1, lit "iStaerkeG1", .int,
          lit "Node-Index → Int",
          lit "Stärke G1 Int."⟩,
        ⟨.iFarbeG2, lit "iFarbeG2", .int,
          lit "Node-Index → Int-Array [G,B,R]",
          lit "Farbe G2 [G(255),B(255),R(255)] of Int."⟩,
        ⟨.iStaerkeG2, lit "iStaerkeG2", .int,
          lit "Node-Index → Int",
          lit "Stärke G2 Int."⟩,
        ⟨.iFarbeG3, lit "iFarbeG3", .int,
          lit "Node-Index → Int-Array [G,B,R]",
          lit "Farbe G3 [G(255),B(255),R(255)] of Int."⟩,
        ⟨.iStaerkeG3, lit "iStaerkeG3", .int,
          lit "Node-Index → Int",
          lit "Stärke G3 Int."⟩,
        ⟨.iFarbeLive, lit "iFarbeLive", .int,
          lit "Node-Index → Int-Array [G,B,R]",
          lit "Farbe der AKTUELLEN Position [G(255),B(255),R(255)] of Int."⟩,
        ⟨.iFarbeErledigt, lit "iFarbeErledigt", .int,
          lit "Node-Index → Int-Array [G,B,R] (OPTIONAL)",
          lit "Farbe bereits ABGEARBEITETER Abschnitte [G(255),B(255),R(255)] of Int. OPTIONAL: " ++
            lit "fehlt der Knoten auf der SPS, wird der Default (Grau) genutzt und das Setup schlägt " ++
            lit "NICHT fehl."⟩,
        ⟨.iStaerkeLive, lit "iStaerkeLive", .int,
          lit "Node-Index → Int",
          lit "Stärke der AKTUELLEN Position Int (Tipp: Werte zwischen 2 und 10)."⟩,
        ⟨.iStaerkeErledigt, lit "iStaerkeErledigt", .int,
          lit "Node-Index → Int (OPTIONAL)",
          lit "Stärke bereits ABGEARBEITETER Abschnitte Int. OPTIONAL: fehlt der Knoten, wird " ++
            lit "der Default (0 = normale Stärke) genutzt und das Setup schlägt NICHT fehl."⟩] },
   { name := lit "Live Bild"
     category := kCatOpc
     isOpen := false
     fields :=
       [⟨.iLiveStand, lit "iLiveStand", .int,
          lit "Node-Index → Int (read)",
          lit "Aktueller Stand im Programm."⟩,
        ⟨.iLiveBreak, lit "iLiveBreak", .int,
          lit "Node-Index → Bool (read)",
          lit "abbruchLive - bricht das Live-Bild ab."⟩] },
   { name := lit "Bogenglättung"
     category := kCatOpc
     isOpen := true
     fields :=
       [⟨.iMinArcRadius, lit "iMinArcRadius", .int,
          lit "Node-Index → Float (read)",
          lit "Schwellwert-Radius (float): Bögen (G02/G03) mit kleinerem Radius werden zu " ++
            lit "Linien (G01) umgewandelt - in der Visualisierung UND in den gesendeten Daten. Wert " ++
            lit "0 = deaktiviert."⟩] },
   { name := lit "Canvas Größe"
     category := kCatOpc
     isOpen := false
     fields :=
       [⟨.objektgroesseX, lit "objektgroesseX", .int,
          lit "Node-Index → Int (read)",
          lit "Größe des Objekts in X-Richtung (read, int)."⟩,
        ⟨.objektgroesseY, lit "objektgroesseY", .int,
          lit "Node-Index → Int (read)",
          lit "Größe des Objekts in Y-Richtung (read, int)."⟩] },
   { name := lit "Darstellung (Vorschau ohne SPS)"
     category := kCatGeneral
     isOpen := true
     fields :=
       [⟨.previewMinArcRadius, lit "Bogenglättung-Radius (mm)", .text,
          lit "Zahl (mm), 0 = aus",
          lit "Bögen (G02/G03) mit kleinerem Radius werden als Linie gezeichnet. Web-Wert für " ++
            lit "die Vorschau ohne SPS. 0 = deaktiviert."⟩,
        ⟨.previewColorG0, lit "Farbe G0 – Eilgang (R,G,B)", .text,
          lit "R,G,B (0-255)",
          lit "Farbe für Eilbewegungen (G00)."⟩,
        ⟨.previewColorG1, lit "Farbe G1 – Linear (R,G,B)", .text,
          lit "R,G,B (0-255)",
          lit "Farbe für Linearbewegungen (G01)."⟩,
        ⟨.previewColorG2, lit "Farbe G2 – Kreis CW (R,G,B)", .text,
          lit "R,G,B (0-255)",
          lit "Farbe für Kreisbögen im Uhrzeigersinn (G02)."⟩,
        ⟨.previewColorG3, lit "Farbe G3 – Kreis CCW (R,G,B)", .text,
          lit "R,G,B (0-255)",
          lit "Farbe für Kreisbögen gegen den Uhrzeigersinn (G03)."⟩,
        ⟨.previewThicknessG0, lit "Strichstärke G0", .int,
          lit "Ganzzahl (2-10)",
          lit "Linienstärke für G00."⟩,
        ⟨.previewThicknessG1, lit "Strichstärke G1", .int,
          lit "Ganzzahl (2-10)",
          lit "Linienstärke für G01."⟩,
        ⟨.previewThicknessG2, lit "Strichstärke G2", .int,
          lit "Ganzzahl (2-10)",
          lit "Linienstärke für G02."⟩,
        ⟨.previewThicknessG3, lit "Strichstärke G3", .int,
          lit "Ganzzahl (2-10)",
          lit "Linienstärke für G03."⟩,
        ⟨.previewLiveColor, lit "Farbe AKTUELLE Position (R,G,B)", .text,
          lit "R,G,B (0-255)",
          lit "Fortschritts-Farbe für die aktuell abgearbeitete Position im Testdurchlauf (und " ++
            lit "SPS-Livebild)."⟩,
        ⟨.previewDoneColor, lit "Farbe ERLEDIGT (R,G,B)", .text,
          lit "R,G,B (0-255)",
          lit "Fortschritts-Farbe für bereits abgearbeitete Abschnitte im Testdurchlauf (und " ++
            lit "SPS-Livebild)."⟩,
        ⟨.previewLiveThickness, lit "Strichstärke AKTUELLE Position", .int,
          lit "Ganzzahl (1-10)",
          lit "Strichstärke der aktuell abgearbeiteten Position (hervorgehoben)."⟩,
        ⟨.previewDoneThickness, lit "Strichstärke ERLEDIGT", .int,
          lit "Ganzzahl (0-10)",
          lit "Strichstärke bereits abgearbeiteter Abschnitte. 0 = normale Stärke behalten."⟩] },
   { name := lit "WebServer"
     category := kCatGeneral
     isOpen := true
     fields :=
       [⟨.sizeObjx, lit "sizeObjx", .int,
          lit "Ganzzahl (px)",
          lit "Render-Breite des Vorschaubilds."⟩,
        ⟨.sizeObjy, lit "sizeObjy", .int,
          lit "Ganzzahl (px)",
          lit "Render-Höhe des Vorschaubilds."⟩,
        ⟨.webserVerImgSizeX, lit "webserVerImgSizeX", .int,
          lit "Ganzzahl (px)",
          lit "Breite, auf die das Bild für die Web-Anzeige skaliert wird."⟩,
        ⟨.webserVerImgSizeY, lit "webserVerImgSizeY", .int,
          lit "Ganzzahl (px)",
          lit "Höhe, auf die das Bild für die Web-Anzeige skaliert wird."⟩] }]

end Groups

section UiSchema

structure Field where
  key : Text
  label : Text
  type : FieldType
  typehint : Text
  help : Text
  value : Text

structure Group where
  name : Text
  category : Text
  isOpen : Bool
  fields : List Field

variable (current : KeyTable Text Text)

def valueOf (k : Key) : Text := (current.lookup (keyName k)).getD []

def fieldOf (f : FieldDef) : Field :=
  { key := keyName f.key
    label := f.label
    type := f.type
    typehint := f.typehint
    help := f.help
    value := valueOf current f.key }

def groupOf (g : GroupDef) : Group :=
  { name := g.name
    category := g.category
    isOpen := g.isOpen
    fields := g.fields.map (fieldOf current) }

def uncovered (k : Key) : FieldDef :=
  { key := k
    label := keyName k
    type := .int
    typehint := lit "Ganzzahl"
    help := [] }

def seen (groups : List GroupDef) : List Key := groups.flatMap fun g => g.fields.map (·.key)

def missing (groups : List GroupDef) : List Key :=
  (kDefaults.map Prod.fst).filter fun k => k ∉ seen groups

/-- `uiSchema`, of any groups. -/
def schemaOf (groups : List GroupDef) : List Group :=
  let general := groups.filter fun g => g.category = kCatGeneral
  let opc := groups.filter fun g => ¬g.category = kCatGeneral
  let extra := (missing groups).map uncovered
  let sonstige : List GroupDef := if extra.isEmpty then [] else
    [{ name := lit "Sonstige", category := kCatOpc, isOpen := false, fields := extra }]
  (general ++ (opc ++ sonstige)).map (groupOf current)

def uiSchema : List Group := schemaOf current kGroups

def fieldsOf (groups : List Group) : List Field := groups.flatMap (·.fields)

end UiSchema

section Coverage

variable {groups : List GroupDef} {current : KeyTable Text Text}

def covered (groups : List GroupDef) : List FieldDef :=
  ((groups.filter fun g => g.category = kCatGeneral) ++
    groups.filter fun g => ¬g.category = kCatGeneral).flatMap (·.fields) ++
  (missing groups).map uncovered

theorem fieldsOf_schemaOf (current : KeyTable Text Text) (groups : List GroupDef) :
    fieldsOf (schemaOf current groups) = (covered groups).map (fieldOf current) := by
  have hgroups : ∀ gs : List GroupDef, fieldsOf (gs.map (groupOf current)) =
      (gs.flatMap (·.fields)).map (fieldOf current) := by
    intro gs
    rw [fieldsOf, List.flatMap_map, List.map_flatMap]
    rfl
  rw [schemaOf, hgroups, ← List.append_assoc, List.flatMap_append, covered]
  cases missing groups with
  | nil => rfl
  | cons k ks => simp

theorem mem_defaults (k : Key) : k ∈ kDefaults.map Prod.fst := by
  cases k <;> decide +kernel

theorem nodup_defaults : (kDefaults.map Prod.fst).Nodup := by decide +kernel

theorem keys_covered (h : (seen groups).Nodup) :
    ((covered groups).map (·.key)).Perm (kDefaults.map Prod.fst) := by
  have hgroups : (((groups.filter fun g => g.category = kCatGeneral) ++
      groups.filter fun g => ¬g.category = kCatGeneral).flatMap (·.fields)).map (·.key) |>.Perm
      (seen groups) := by
    rw [List.map_flatMap, seen]
    apply List.Perm.flatMap_right
    have hpart := List.filter_append_perm (fun g : GroupDef => decide (g.category = kCatGeneral))
      groups
    simpa using hpart
  have hmissing : ((missing groups).map uncovered).map (·.key) = missing groups := by
    rw [List.map_map]
    exact List.map_id _
  rw [covered, List.map_append, hmissing]
  refine (hgroups.append_right _).trans ?_
  rw [List.perm_ext_iff_of_nodup ?_ nodup_defaults]
  · intro k
    simp only [missing, List.mem_append, List.mem_filter, decide_eq_true_eq, mem_defaults k,
      true_and, iff_true]
    exact em _
  · refine List.nodup_append'.mpr ⟨h, nodup_defaults.filter _, fun k hk hk' => ?_⟩
    simp only [missing, List.mem_filter, decide_eq_true_eq] at hk'
    exact hk'.2 hk

theorem keyName_injective : Function.Injective keyName := by
  intro k k' h
  have hnames : ((kDefaults.map Prod.fst).map keyName).Nodup := by
    have hrows := defaultRows_nodup
    rw [defaultRows, List.map_map] at hrows
    rwa [List.map_map]
  exact List.inj_on_of_nodup_map hnames (mem_defaults k) (mem_defaults k') h

theorem isKnown_iff (name : Text) : isKnown name = true ↔ ∃ k, keyName k = name := by
  simp only [isKnown, List.any_eq_true, defaultRows, List.mem_map, beq_iff_eq]
  constructor
  · rintro ⟨_, ⟨kv, -, rfl⟩, h⟩
    exact ⟨kv.1, h⟩
  · rintro ⟨k, h⟩
    obtain ⟨kv, hkv, rfl⟩ := List.mem_map.mp (mem_defaults k)
    exact ⟨_, ⟨kv, hkv, rfl⟩, h⟩

theorem isLiveName_keyName (k : Key) : isLiveName (keyName k) = isLiveKey k := by
  rw [Bool.eq_iff_iff, isLiveName, List.any_eq_true]
  constructor
  · rintro ⟨kv, -, h⟩
    rw [Bool.and_eq_true, beq_iff_eq] at h
    rw [← keyName_injective h.1]
    exact h.2
  · intro h
    obtain ⟨kv, hkv, rfl⟩ := List.mem_map.mp (mem_defaults k)
    exact ⟨kv, hkv, by rw [BEq.rfl, h, Bool.and_true]⟩

theorem seen_kGroups_nodup : (seen kGroups).Nodup := by decide +kernel

theorem fieldsOf_uiSchema (current : KeyTable Text Text) :
    fieldsOf (uiSchema current) = (covered kGroups).map (fieldOf current) :=
  fieldsOf_schemaOf current kGroups

theorem keys_uiSchema (current : KeyTable Text Text) :
    ((fieldsOf (uiSchema current)).map (·.key)).Perm ((kDefaults.map Prod.fst).map keyName) := by
  have hkeys := (keys_covered seen_kGroups_nodup).map keyName
  rw [fieldsOf_uiSchema, List.map_map]
  rwa [List.map_map] at hkeys

theorem nodup_keys_uiSchema (current : KeyTable Text Text) :
    ((fieldsOf (uiSchema current)).map (·.key)).Nodup :=
  (keys_uiSchema current).nodup_iff.mpr (nodup_defaults.map keyName_injective)

theorem mem_keys_uiSchema (current : KeyTable Text Text) (name : Text) :
    name ∈ (fieldsOf (uiSchema current)).map (·.key) ↔ isKnown name = true := by
  rw [(keys_uiSchema current).mem_iff, isKnown_iff, List.mem_map]
  apply exists_congr
  intro k
  rw [and_iff_right (mem_defaults k)]

theorem value_of_mem_uiSchema {f : Field} (h : f ∈ fieldsOf (uiSchema current)) :
    f.value = (current.lookup f.key).getD [] := by
  rw [fieldsOf_uiSchema] at h
  obtain ⟨d, -, rfl⟩ := List.mem_map.mp h
  rfl

theorem rows_uiSchema (h : ∀ k, (current.lookup k).isSome = isKnown k) :
    ((fieldsOf (uiSchema current)).map fun f => (f.key, f.value)).Perm current.rows := by
  have hnodup : ((fieldsOf (uiSchema current)).map fun f => (f.key, f.value)).Nodup := by
    apply List.Nodup.of_map Prod.fst
    rw [List.map_map]
    exact nodup_keys_uiSchema current
  rw [List.perm_ext_iff_of_nodup hnodup (List.Nodup.of_map Prod.fst current.nodup)]
  rintro ⟨k, v⟩
  rw [List.mem_map]
  constructor
  · rintro ⟨f, hf, hkv⟩
    obtain ⟨rfl, rfl⟩ := Prod.mk.inj hkv
    have hknown := (mem_keys_uiSchema current f.key).mp (List.mem_map_of_mem hf)
    obtain ⟨v, hv⟩ := Option.isSome_iff_exists.mp ((h f.key).trans hknown)
    rw [value_of_mem_uiSchema hf, hv]
    exact KeyTable.mem_of_lookup hv
  · intro hmem
    have hv := current.lookup_of_mem hmem
    have hknown : isKnown k = true := by
      rw [← h k]
      exact hv ▸ rfl
    obtain ⟨f, hf, rfl⟩ := List.mem_map.mp ((mem_keys_uiSchema current k).mpr hknown)
    refine ⟨f, hf, ?_⟩
    rw [value_of_mem_uiSchema hf]
    rw [hv]
    rfl

end Coverage

end Datenbereitstellung.SettingsSchema
