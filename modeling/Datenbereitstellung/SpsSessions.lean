import Datenbereitstellung.NumberTexts
import Datenbereitstellung.SpsStatus

namespace Datenbereitstellung.SpsSessions

open Strings SpsWorker SpsStatus Lib.Program Lib.Rely Lib.Phases
open SettingsStore (Key Cache stoi)
open SettingsTakeover (Vars bootstrapKeys assign readSetting Timely)
open PreviewFolder (text managerConfig)

section Bodies

def Assigned (ks : List Key) (vars : Vars) (got : Cache) : Prop :=
  ∀ k ∈ ks, ∀ v, readSetting k (got k) = some v → vars k = v

variable {α β : Type} {P : Vars → Prop} {φ : Phase} {vars : Vars} {bootRev : Nat}

/-- The phases in which the loops are entered. `P` is anything that the variables keep. -/
def Head (P : Vars → Prop) : Stage → Phase → Prop
  | .connect vars, φ | .disabled vars _, φ | .wait vars _ _ _, φ =>
    φ.Idle ∧ φ.published = activeSettingsJson vars ∧ P vars
  | .operate vars bootRev, φ | .transfer vars bootRev _, φ =>
    φ.Operating ∧ φ.published = activeSettingsJson vars ∧ P vars ∧ φ.rev = some bootRev ∧
      Assigned bootstrapKeys vars φ.got

abbrev AtEnd (P : Vars → Prop) : Stage ⊕ Unit → Phase → Prop :=
  Sum.elim (Head P) fun _ φ => φ.Idle

abbrev Ends (Q : α → Phase → Prop) (p : M α) (φ : Phase) : Prop :=
  Follows automaton Q (fun _ _ => True) p φ

variable {Q : β → Phase → Prop}

theorem ends_setStatus (connected : Bool) (msg : Text) {f : Unit → M β}
    (h : Ends Q (f ()) { φ with down := !connected, hidden := !connected, quiet := offline msg }) :
    Ends Q (setStatus connected msg >>= f) φ := by
  refine .perform ⟨nofun, trivial⟩ fun _ => ?_
  refine .perform ⟨nofun, trivial⟩ fun _ => ?_
  refine .perform ⟨nofun, trivial⟩ fun _ => ?_
  cases connected with
  | true => exact h
  | false => exact h

theorem ends_clearDiag {f : Unit → M β} (h : Ends Q (f ()) { φ with cleared := true }) :
    Ends Q (clearDiag >>= f) φ :=
  ⟨⟨nofun, trivial⟩, fun _ => h⟩

theorem ends_offline (msg : Text) (hmsg : offline msg = true) {f : Unit → M β}
    (hs : φ.session = false) (hw : φ.watched = false)
    (h : ∀ φ', φ'.Idle → φ'.cleared = true → φ'.published = φ.published → φ'.got = φ.got →
      φ'.rev = φ.rev → Ends Q (f ()) φ') :
    Ends Q (clearDiag >>= fun _ => setStatus false msg >>= f) φ := by
  apply ends_clearDiag
  apply ends_setStatus
  apply h
  · exact ⟨hs, hw, rfl, rfl, hmsg, .inl rfl⟩
  all_goals rfl

theorem ends_collectDiag {f : Unit → M β} (hs : φ.session = true)
    (h : ∀ cleared, Ends Q (f ()) { φ with cleared := cleared }) :
    Ends Q (collectDiag >>= f) φ :=
  ⟨⟨fun _ => hs, trivial⟩, fun nodes => ⟨⟨nofun, trivial⟩, fun _ => h nodes.isEmpty⟩⟩

theorem ends_get {k : Key} (hk : k ∉ bootstrapKeys) {f : Text → M β}
    (h : ∀ stored got, (∀ k ∈ bootstrapKeys, got k = φ.got k) →
      Ends Q (f stored) { φ with got := got }) : Ends Q (Prog.perform (.get k) >>= f) φ := by
  refine .perform ⟨nofun, trivial⟩ fun stored => ?_
  have hafter : automaton.after φ (.get k) stored =
      { φ with got := Function.update φ.got k stored } := by
    simp [automaton, hk]
  rw [hafter]
  refine h stored _ fun k' hk' => Function.update_of_ne ?_ _ _
  rintro rfl
  exact hk hk'

theorem ends_reconnect (h : Head P (.connect vars) φ) : Ends (AtEnd P) (reconnect vars) φ := by
  refine .perform ⟨nofun, trivial⟩ fun run => ?_
  cases run with
  | true => exact h
  | false => exact h.1

theorem assigned_assign {done : List Key} {got : Cache} (k : Key) (stored : Text)
    (h : Assigned done vars got) :
    Assigned (k :: done) (assign vars k stored) (Function.update got k stored) :=
  SettingsTakeover.assigned_assign (w := ⟨got, 0, 0, [], got⟩) k stored h

theorem ends_applySettings (hP : ∀ vars k stored, P vars → P (assign vars k stored))
    {f : Vars → M β} (ks done : List Key) (vars : Vars) (φ : Phase) (hv : P vars)
    (ha : Assigned done vars φ.got)
    (hf : ∀ vars got rev, P vars → Assigned (ks.reverse ++ done) vars got →
      Ends Q (f vars) { φ with got := got, rev := rev }) :
    Ends Q (applySettings ks vars >>= f) φ := by
  induction ks generalizing done vars φ with
  | nil => exact hf vars φ.got φ.rev hv ha
  | cons k ks ih =>
    refine .perform ⟨nofun, trivial⟩ fun stored => ?_
    apply ih (k :: done) (assign vars k stored) _ (hP vars k stored hv) (assigned_assign k stored ha)
    intro vars got rev hv ha
    apply hf vars got rev hv
    simpa using ha

theorem ends_opcEnabled {f : Bool → M β}
    (h : ∀ on got, (∀ k ∈ bootstrapKeys, got k = φ.got k) →
      Ends Q (f on) { φ with got := got }) : Ends Q (opcEnabled >>= f) φ :=
  ends_get (by decide) fun stored => h ((stoi stored).getD 1 != 0)

theorem ends_dataExchangeEnabled {f : Bool → M β}
    (h : ∀ on got, (∀ k ∈ bootstrapKeys, got k = φ.got k) →
      Ends Q (f on) { φ with got := got }) : Ends Q (dataExchangeEnabled >>= f) φ :=
  ends_get (by decide) fun stored => h ((stoi stored).getD 1 != 0)

theorem activeSettingsJson_manager (vars : Vars) :
    activeSettingsJson vars (managerConfig vars).lenDataArray = activeSettingsJson vars := by
  apply List.map_congr_left
  intro k _
  by_cases hk : k = .LenDataArray
  · subst hk
    simp [isTextKey, managerConfig]
  · simp [hk]

theorem operating_show (h : Head P (.operate vars bootRev) φ) (down hidden quiet cleared : Bool) :
    Head P (.operate vars bootRev)
      { φ with down := down, hidden := hidden, quiet := quiet, cleared := cleared } :=
  ⟨⟨h.1.session, h.1.watched, h.1.setupFailed⟩, h.2⟩

theorem operating_got (h : Head P (.operate vars bootRev) φ) {got : Cache}
    (hgot : ∀ k ∈ bootstrapKeys, got k = φ.got k) :
    Head P (.operate vars bootRev) { φ with got := got } := by
  obtain ⟨ho, hpub, hP, hrev, ha⟩ := h
  refine ⟨⟨ho.session, ho.watched, ho.setupFailed⟩, hpub, hP, hrev, fun k hk v hread => ?_⟩
  apply ha k hk v
  rw [← hgot k hk]
  exact hread

theorem ends_heartbeat (sent : OpcUa.Written → M Unit)
    (hsent : ∀ hbOk φ, Head P (.operate vars bootRev) φ →
      Ends (fun _ => Head P (.operate vars bootRev)) (sent hbOk) φ)
    (h : Head P (.operate vars bootRev) φ) :
    Ends (fun _ => Head P (.operate vars bootRev)) (heartbeat sent) φ := by
  refine .perform ⟨nofun, trivial⟩ fun due => ?_
  cases due with
  | false => exact h
  | true =>
    refine .perform ⟨fun _ => h.1.session, trivial⟩ fun hbOk => ?_
    refine .perform ⟨nofun, trivial⟩ fun _ => ?_
    refine .perform ⟨nofun, trivial⟩ fun _ => ?_
    exact (hsent hbOk _ (operating_show h _ _ φ.quiet φ.cleared)).bind fun _ _ h => h

theorem ends_keepAlive (h : Head P (.operate vars bootRev) φ) :
    Ends (fun _ => Head P (.operate vars bootRev)) keepAlive φ := by
  refine (ends_heartbeat (fun _ => pure ()) (fun _ _ h => h) h).bind fun sent φ h => ?_
  cases sent with
  | false => exact h
  | true =>
    refine .perform ⟨nofun, trivial⟩ fun run => ?_
    cases run with
    | false => exact h
    | true => exact ⟨⟨nofun, trivial⟩, fun _ => h⟩

theorem ends_serve (q : OperatingLoop.Req) (h : Head P (.operate vars bootRev) φ) :
    Ends (fun _ => Head P (.operate vars bootRev)) (serve q) φ := by
  have hjob : Ends (fun _ => Head P (.operate vars bootRev)) (Prog.perform (Req.job q)) φ :=
    ⟨⟨fun _ => h.1.session, trivial⟩, fun _ => h⟩
  cases q with
  | manager q =>
    cases q with
    | keepAlive => exact ends_keepAlive h
    | _ => exact hjob
  | _ => exact hjob

theorem head_nextStage (h : Head P (.operate vars bootRev) φ) (s : OperatingLoop.Stage ⊕ Unit) :
    AtEnd P (nextStage vars bootRev s) φ := by
  cases s with
  | inl s =>
    cases s with
    | poll => exact h
    | transfer s => exact h
  | inr _ => exact h

theorem ends_jobs (p : OperatingLoop.M (OperatingLoop.Stage ⊕ Unit))
    (h : Head P (.operate vars bootRev) φ) :
    Ends (AtEnd P) (Prog.interp serve p >>= fun s => pure (nextStage vars bootRev s)) φ :=
  (Follows.interp (fun q _ h => ends_serve q h) p (fun _ _ _ => trivial) h).bind
    fun s _ h => head_nextStage h s

theorem offline_left (run : Bool) :
    offline (if run then lit "Einstellungen geaendert - verbinde neu" else lit "beendet") = true := by
  cases run with
  | true => decide +kernel
  | false => decide +kernel

theorem ends_leave (h : Head P (.operate vars bootRev) φ) : Ends (AtEnd P) (leave vars) φ := by
  obtain ⟨ho, hpub, hP, -⟩ := h
  refine .perform ⟨nofun, ho.session, ho.watched⟩ fun _ => ?_
  refine .perform ⟨fun _ => ho.session, trivial⟩ fun _ => ?_
  refine .perform ⟨fun _ => ho.session, rfl⟩ fun _ => ?_
  apply ends_clearDiag
  refine .perform ⟨nofun, trivial⟩ fun run => ?_
  apply ends_setStatus
  exact ends_reconnect ⟨⟨rfl, rfl, rfl, rfl, offline_left run, .inl rfl⟩, hpub, hP⟩

theorem ends_beat (dataOn : Bool) (h : Head P (.operate vars bootRev) φ) :
    Ends (fun _ => Head P (.operate vars bootRev)) (beat dataOn) φ := by
  refine ends_heartbeat _ (fun hbOk φ h => ?_) h
  by_cases hb : hbOk.success = true
  · rw [if_pos hb]
    exact ⟨⟨nofun, trivial⟩, fun _ => operating_show h φ.down φ.hidden _ φ.cleared⟩
  · rw [if_neg hb]
    exact h

theorem ends_operating (h : Head P (.operate vars bootRev) φ) :
    Ends (AtEnd P) (do
      if ← Prog.perform Req.linkDown then leave vars
      else if !(← opcEnabled) then leave vars
      else
        let dataOn ← dataExchangeEnabled
        if !(← beat dataOn) then leave vars
        else if !dataOn then pure (.inl (.operate vars bootRev))
        else serveTriggers vars bootRev) φ := by
  refine .perform ⟨nofun, trivial⟩ fun down => ?_
  cases down with
  | true => exact ends_leave h
  | false =>
    apply ends_opcEnabled
    intro on got hgot
    have h := operating_got h hgot
    cases on with
    | false => exact ends_leave h
    | true =>
      apply ends_dataExchangeEnabled
      intro dataOn got' hgot'
      have h := operating_got h hgot'
      refine (ends_beat dataOn h).bind fun sent φ h => ?_
      cases sent with
      | false => exact ends_leave h
      | true =>
        cases dataOn with
        | false => exact h
        | true => exact ends_jobs _ h

theorem ends_operateBody (h : Head P (.operate vars bootRev) φ) :
    Ends (AtEnd P) (operateBody vars bootRev) φ := by
  refine .perform ⟨nofun, trivial⟩ fun run => ?_
  cases run with
  | false => exact ends_leave h
  | true =>
    refine .perform ⟨nofun, trivial⟩ fun rev => ?_
    by_cases hrev : rev ≠ bootRev
    · simp only [if_pos hrev]
      exact ends_leave h
    · simp only [if_neg hrev]
      refine .perform ⟨nofun, trivial⟩ fun due => ?_
      cases due with
      | false => exact ends_operating h
      | true =>
        apply ends_collectDiag h.1.session
        intro cleared
        exact ends_operating (operating_show h φ.down φ.hidden φ.quiet cleared)

theorem ends_waitBody {ms waited : Nat} (h : Head P (.wait vars bootRev ms waited) φ) :
    Ends (AtEnd P) (waitBody vars bootRev ms waited) φ := by
  by_cases hms : waited < ms
  · simp only [waitBody, hms, decide_true, Bool.not_true, Bool.false_eq_true, if_false]
    refine .perform ⟨nofun, trivial⟩ fun run => ?_
    cases run with
    | false => exact ends_reconnect h
    | true =>
      refine .perform ⟨nofun, trivial⟩ fun rev => ?_
      by_cases hrev : rev ≠ bootRev
      · simp only [if_pos hrev]
        exact ends_reconnect h
      · simp only [if_neg hrev]
        exact h
  · simp only [waitBody, hms, decide_false, Bool.not_false, if_true]
    exact ends_reconnect h

theorem ends_disabledBody {i : Nat} (h : Head P (.disabled vars i) φ) :
    Ends (AtEnd P) (disabledBody vars i) φ := by
  by_cases hi : i < 10
  · simp only [disabledBody, hi, decide_true, Bool.not_true, Bool.false_eq_true, if_false]
    refine .perform ⟨nofun, trivial⟩ fun run => ?_
    cases run with
    | false => exact ends_reconnect h
    | true => exact h
  · simp only [disabledBody, hi, decide_false, Bool.not_false, if_true]
    exact ends_reconnect h

theorem ends_setup (hs : φ.session = true) (hw : φ.watched = false)
    (hpub : φ.published = activeSettingsJson vars) (hP : P vars) (hrev : φ.rev = some bootRev)
    (ha : Assigned bootstrapKeys vars φ.got) : Ends (AtEnd P) (setup vars bootRev) φ := by
  apply ends_setStatus
  refine .perform ⟨fun _ => hs, trivial⟩ fun ok => ?_
  cases ok with
  | false =>
    refine ends_collectDiag (by exact hs) fun cleared => ?_
    apply ends_setStatus
    refine .perform ⟨fun _ => hs, hw⟩ fun _ => ?_
    exact ⟨⟨rfl, hw, rfl, rfl, offline_setupFailed, .inr rfl⟩, hpub, hP⟩
  | true =>
    apply ends_setStatus
    refine .perform ⟨fun _ => hs, trivial⟩ fun _ => ?_
    refine .perform ⟨fun _ => hs, trivial⟩ fun _ => ?_
    refine .perform ⟨fun _ => hs, trivial⟩ fun _ => ?_
    refine .perform ⟨nofun, trivial⟩ fun _ => ?_
    refine ends_collectDiag (by exact hs) fun cleared => ?_
    refine .perform ⟨fun _ => hs, hw⟩ fun _ => ?_
    exact ⟨⟨hs, rfl, rfl⟩, activeSettingsJson_manager vars, hP, hrev, ha⟩

theorem ends_nichtErreichbar (hs : φ.session = false) (hw : φ.watched = false)
    (hpub : φ.published = activeSettingsJson vars) (hP : P vars) (ms : Nat) :
    Ends (AtEnd P) (do
      clearDiag
      setStatus false (nichtErreichbar vars)
      pure (.inl (.wait vars bootRev ms 0))) φ := by
  refine ends_offline _ (offline_nichtErreichbar _) hs hw ?_
  intro φ' hi _ hpub' _ _
  exact ⟨hi, hpub'.trans hpub, hP⟩

theorem ends_takenOver (hs : φ.session = false) (hw : φ.watched = false)
    (hpub : φ.published = activeSettingsJson vars) (hP : P vars) (hrev : φ.rev = some bootRev)
    (ha : Assigned bootstrapKeys vars φ.got) : Ends (AtEnd P) (do
      if !(← opcEnabled) then
        clearDiag
        setStatus false (lit "SPS-Verbindung deaktiviert")
        pure (.inl (.disabled vars 0))
      else
        clearDiag
        setStatus false (lit "verbinde mit " ++ text (vars .ipSPS) ++ lit " ...")
        if !(← Prog.perform (Req.endpointReachable (text (vars .ipSPS)))) then
          clearDiag
          setStatus false (nichtErreichbar vars)
          pure (.inl (.wait vars bootRev 3000 0))
        else if !(← Prog.perform Req.connect) then
          clearDiag
          setStatus false (nichtErreichbar vars)
          pure (.inl (.wait vars bootRev 5000 0))
        else setup vars bootRev) φ := by
  apply ends_opcEnabled
  intro on got hgot
  have ha : Assigned bootstrapKeys vars got := by
    intro k hk
    rw [hgot k hk]
    exact ha k hk
  cases on with
  | false =>
    refine ends_offline _ (by decide +kernel) hs hw ?_
    intro φ' hi _ hpub' _ _
    exact ⟨hi, hpub'.trans hpub, hP⟩
  | true =>
    refine ends_offline _ (offline_verbinde _) hs hw ?_
    intro φ' hi hcl hpub' hgot' hrev'
    have hpub := hpub'.trans hpub
    refine .perform ⟨nofun, hi, hcl⟩ fun reached => ?_
    cases reached with
    | false => exact ends_nichtErreichbar hi.session hi.watched hpub hP 3000
    | true =>
      refine .perform ⟨nofun, hi, hcl⟩ fun ok => ?_
      cases ok with
      | false =>
        exact ends_nichtErreichbar (φ := { φ' with session := false }) rfl hi.watched hpub hP 5000
      | true =>
        have ha : Assigned bootstrapKeys vars φ'.got := hgot' ▸ ha
        exact ends_setup rfl hi.watched hpub hP (hrev'.trans hrev) ha

theorem ends_connectBody (hassign : ∀ vars k stored, P vars → P (assign vars k stored))
    (h : Head P (.connect vars) φ) : Ends (AtEnd P) (connectBody vars) φ := by
  obtain ⟨hi, -, hP⟩ := h
  apply ends_applySettings hassign bootstrapKeys [] vars φ hP nofun
  intro vars got rev hP ha
  rw [List.append_nil] at ha
  have ha : Assigned bootstrapKeys vars got := fun k hk => ha k (List.mem_reverse.mpr hk)
  refine .perform ⟨nofun, trivial⟩ fun _ => ?_
  refine .perform ⟨nofun, trivial⟩ fun bootRev => ?_
  exact ends_takenOver hi.session hi.watched rfl hP rfl ha

theorem ends_spsWorkerLoop (hassign : ∀ vars k stored, P vars → P (assign vars k stored))
    (stage : Stage) (φ : Phase) (h : Head P stage φ) : Ends (AtEnd P) (spsWorkerLoop stage) φ := by
  cases stage with
  | connect vars => exact ends_connectBody hassign h
  | disabled vars i => exact ends_disabledBody h
  | wait vars bootRev ms waited => exact ends_waitBody h
  | operate vars bootRev => exact ends_operateBody h
  | transfer vars bootRev s => exact ends_jobs _ h

end Bodies

section Run

open SettingsTakeover (ones)

variable {timely : SettingsStore.World → Prop}

def idle : OperatingLoop.World where
  nodes := OpcUa.emptyNodes
  fs := { status := fun _ => .ok none, content := fun _ => none, entries := fun _ => .ok [] }
  plc := { trigger := fun _ => false, ProjektInfoWrote := false, trace := []
           asked := (OpcUa.emptyNodes, []) }

def answer (w : World) : (q : Req) → Ans q
  | .get k => w.settings.cache k
  | .bootstrapRevision _ => w.settings.bootRev
  | .linkDown => w.linkDown
  | .diagDue => false
  | .running | .endpointReachable _ | .connect | .setupVariables | .heartbeatDue => true
  | .nodeDiagnostics => []
  | .writeHeartbeat => { success := false }
  | .writeInfoText _ | .writeError _ | .writeStatusCode _ => { success := true }
  | .disconnect => true
  | .storeConnected _ | .setSpsConnected _ | .setSpsMessage _ | .setNodeDiagnostics _
  | .setActiveSettings _ | .startWatchdog | .joinWatchdog => ()
  | .job q => OperatingLoop.honest idle q

def after (w : World) (q : Req) : World :=
  match q with
  | .get k => { w with settings :=
      { w.settings with got := Function.update w.settings.got k (w.settings.cache k) } }
  | .connect => { w with session := true }
  | .setupVariables => { w with setupFailed := false }
  | .disconnect => { w with session := false }
  | .storeConnected connected => w.store connected
  | .setSpsConnected connected => w.show connected
  | .setSpsMessage msg => { w with spsMessage := msg }
  | .setNodeDiagnostics nodes => { w with nodeDiagnostics := nodes }
  | .setActiveSettings values => { w with activeSettings := values }
  | .startWatchdog => { w with watchdog := some .probing, linkDown := false }
  | .joinWatchdog => { w with watchdog := none }
  | _ => w

def goOn : Move Req Ans World := .run fun q w => (answer w q, after w q)

def goOnPreview (w : World) : World :=
  match w.copied with
  | none => { w with copied := some (w.gSpsConnected, false) }
  | some c => { w with spsConnected := c.1, late := c.2, copied := none }

def Calm (w : World) : Prop :=
  (∀ k, w.settings.got k = w.settings.cache k) ∧ (w.watchdog = none ∨ w.watchdog = some .probing)

theorem timely_of_calm {w : World} (h : Calm w) : Timely w.settings := by
  refine .inl fun k _ => .inr ?_
  rw [h.1 k]

theorem goOn_soundIn (ht : ∀ w, Calm w → timely w.settings) :
    goOn.SoundIn (system timely) Calm := by
  intro q w hw
  cases q with
  | get k =>
    refine ⟨⟨rfl, rfl⟩, fun k' => ?_, hw.2⟩
    by_cases hk : k' = k
    · subst hk
      exact Function.update_self ..
    · exact (Function.update_of_ne hk ..).trans (hw.1 k')
  | bootstrapRevision inTakeOver => exact ⟨⟨rfl, fun _ => ht w hw, rfl⟩, hw⟩
  | linkDown => exact ⟨⟨rfl, rfl⟩, hw⟩
  | startWatchdog => exact ⟨rfl, hw.1, .inr rfl⟩
  | joinWatchdog =>
    refine ⟨⟨fun stage hs => .inl ?_, rfl⟩, hw.1, .inl rfl⟩
    obtain h | h := hw.2
    · rw [hs] at h
      cases h
    · exact Option.some.inj (hs.symm.trans h)
  | _ => exact ⟨rfl, hw⟩

theorem goOnPreview_soundIn : (Move.env goOnPreview).SoundIn (system timely) Calm := by
  intro w hw
  rw [goOnPreview]
  split
  · exact ⟨.preview (.load w), hw⟩
  · rename_i h
    exact ⟨.preview (.store h), hw⟩

def zeros : Vars := fun k => if isTextKey k then .text [] else .number 0

def runOf (ms : List (Move Req Ans World)) : Conf Req Ans Text Stage Unit World :=
  play spsWorkerLoop ms ⟨.ret (.inl (.connect zeros)), started zeros ones⟩

theorem reachable_runOf (ht : ∀ w, Calm w → timely w.settings) {ms : List (Move Req Ans World)}
    (hms : ∀ m ∈ ms, m = goOn ∨ m = .env goOnPreview) :
    Reachable (system timely) spsWorkerLoop (.connect zeros) (started zeros ones) (runOf ms) := by
  refine play_reachable_in (I := Calm) (fun m hm => ?_) (Stage.connect zeros)
    ⟨fun _ => rfl, .inl rfl⟩
  obtain rfl | rfl := hms m hm
  · exact goOn_soundIn ht
  · exact goOnPreview_soundIn

def connecting : List (Move Req Ans World) := List.replicate 72 goOn

def lateCopy : List (Move Req Ans World) :=
  connecting ++ .env goOnPreview :: List.replicate 20 goOn ++ [.env goOnPreview]

theorem goOn_of_mem_connecting {m : Move Req Ans World} (hm : m ∈ connecting) :
    m = goOn ∨ m = .env goOnPreview :=
  .inl (List.mem_replicate.mp hm).2

theorem goOn_of_mem_lateCopy {m : Move Req Ans World} (hm : m ∈ lateCopy) :
    m = goOn ∨ m = .env goOnPreview := by
  simp only [lateCopy, List.mem_append, List.mem_cons, List.mem_replicate, List.not_mem_nil,
    or_false] at hm
  obtain (hm | rfl | ⟨-, rfl⟩) | rfl := hm
  · exact goOn_of_mem_connecting hm
  · exact .inr rfl
  · exact .inl rfl
  · exact .inr rfl

end Run

section Sessions

variable {φ : Phase} {w : World} {timely : SettingsStore.World → Prop}

/-- Nothing is left of a session, and nothing tells of one, but for an outdated copy of the flag, and
the diagnostics of a setup that failed. -/
structure Disconnected (w : World) : Prop where
  session : w.session = false
  watchdog : w.watchdog = none
  gSpsConnected : w.gSpsConnected = false
  spsConnected : w.spsConnected = true → w.late = true
  spsMessage : offline w.spsMessage = true
  nodeDiagnostics : w.nodeDiagnostics = [] ∨ w.setupFailed = true

theorem disconnected_of_idle (h : Holds timely φ w) (hi : φ.Idle) : Disconnected w where
  session := h.session.trans hi.session
  watchdog := by
    have hw := h.watched.trans hi.watched
    simpa using hw
  gSpsConnected := h.down hi.down
  spsConnected := (h.hidden hi.hidden).2
  spsMessage := h.quiet hi.quiet
  nodeDiagnostics := hi.explained.imp h.cleared h.setupFailed.trans

def Between : Stage ⊕ Unit → Prop
  | .inl (.operate _ _) | .inl (.transfer _ _ _) => False
  | _ => True

/-- When a call may be due. -/
def Permitted : Req → World → Prop
  | .endpointReachable _, w | .connect, w => Disconnected w ∧ w.nodeDiagnostics = []
  | .startWatchdog, w | .disconnect, w => w.session = true ∧ w.watchdog = none
  | .joinWatchdog, w => w.session = true ∧ w.watchdog.isSome = true
  | q, w => NeedsSession q → w.session = true

theorem permitted_of_allows {q : Req} (hq : automaton.allows φ q) (h : Holds timely φ w) :
    Permitted q w := by
  obtain ⟨hs, hq⟩ := hq
  have hsession : NeedsSession q → w.session = true := fun hn => h.session.trans (hs hn)
  cases q with
  | endpointReachable | connect => exact ⟨disconnected_of_idle h hq.1, h.cleared hq.2⟩
  | startWatchdog | disconnect =>
    refine ⟨hsession trivial, ?_⟩
    have hw := h.watched.trans hq
    simpa using hw
  | joinWatchdog => exact ⟨h.session.trans hq.1, h.watched.trans hq.2⟩
  | _ => exact hsession

variable (vars : Vars) (settings : SettingsStore.World)

def startPhase : Phase where
  published := activeSettingsJson vars
  got := settings.got

theorem holds_started : Holds timely (startPhase vars settings) (started vars settings) where
  session := rfl
  watched := rfl
  copied := nofun
  down := fun _ => rfl
  hidden := fun _ => ⟨rfl, nofun⟩
  quiet := fun _ => (by decide +kernel : offline [] = true)
  cleared := fun _ => rfl
  setupFailed := rfl
  published := rfl
  got := rfl
  rev := nofun

theorem head_startPhase {P : Vars → Prop} (hP : P vars) :
    Head P (.connect vars) (startPhase vars settings) :=
  ⟨⟨rfl, rfl, rfl, rfl, rfl, .inl rfl⟩, rfl, hP⟩

variable {c : Conf Req Ans Text Stage Unit World}

theorem head_of_reachable (hl : Lasting timely) {P : Vars → Prop} (hP : P vars)
    (hassign : ∀ vars k stored, P vars → P (assign vars k stored))
    (hc : Reachable (system timely) spsWorkerLoop (.connect vars) (started vars settings) c)
    {s : Stage ⊕ Unit} (hcode : c.code = .ret s) : ∃ φ, AtEnd P s φ ∧ Holds timely φ c.world := by
  have hbody := ends_spsWorkerLoop (P := P) hassign
  have hhead := head_startPhase vars settings hP
  cases s with
  | inl i => exact (models hl).atHead hbody hhead (holds_started vars settings) hc hcode
  | inr u => exact (models hl).atEnd hbody hhead (holds_started vars settings) hc hcode

/-- The worker uses the PLC only within a session, of which each has one watchdog, joined before
it is disconnected; and it connects only when nothing is shown of the last one. -/
theorem permitted_of_reachable
    (hc : Reachable (system fun _ => True) spsWorkerLoop (.connect vars) (started vars settings) c)
    {q : Req} {k : Ans q → M (Stage ⊕ Unit)} (hcode : c.code = .call q k) :
    Permitted q c.world := by
  obtain ⟨φ, hq, hw⟩ := (models lasting_true).allowed
    (ends_spsWorkerLoop (P := fun _ => True) fun _ _ _ _ => trivial)
    (head_startPhase vars settings trivial) (holds_started vars settings) hc hcode
  exact permitted_of_allows hq hw

theorem permitted_startWatchdog : (runOf (connecting.drop 1)).world.session = true ∧
    (runOf (connecting.drop 1)).world.watchdog = none :=
  permitted_of_reachable zeros SettingsTakeover.ones (q := .startWatchdog)
    (reachable_runOf (fun _ _ => trivial) fun _ hm =>
       goOn_of_mem_connecting (List.mem_of_mem_drop hm)) rfl

end Sessions

section Active

open SettingsTakeover (Value)
open NumberTexts (IsInt isInt_of_stoi stoi_toText)

variable {vars : Vars} {k : Key} {v : Value} {stored : Text}

def shown : Value → Text
  | .text s => s
  | .number i => toText i

def HasType (k : Key) : Value → Prop
  | .text _ => isTextKey k = true
  | .number i => isTextKey k = false ∧ IsInt i

def WellTyped (vars : Vars) : Prop := ∀ k, HasType k (vars k)

theorem readSetting_text (hk : isTextKey k = true) (stored : Text) :
    readSetting k stored = some (.text stored) := by
  cases k with
  | ipSPS | ProgrammId | folderPath => rfl
  | _ => cases hk

theorem readSetting_number (hk : isTextKey k = false) (stored : Text) :
    readSetting k stored = (stoi stored).map .number := by
  cases k with
  | ipSPS | ProgrammId | folderPath => cases hk
  | _ => rfl

theorem hasType_readSetting (h : readSetting k stored = some v) : HasType k v := by
  cases hk : isTextKey k with
  | true =>
    rw [readSetting_text hk] at h
    cases h
    exact hk
  | false =>
    rw [readSetting_number hk] at h
    obtain ⟨i, hi, rfl⟩ := Option.map_eq_some_iff.mp h
    exact ⟨hk, isInt_of_stoi hi⟩

theorem wellTyped_assign (vars : Vars) (k : Key) (stored : Text) (h : WellTyped vars) :
    WellTyped (assign vars k stored) := by
  intro k'
  cases hread : readSetting k stored with
  | none =>
    simp only [assign, hread]
    exact h k'
  | some v =>
    simp only [assign, hread]
    by_cases hk : k' = k
    · subst hk
      rw [Function.update_self]
      exact hasType_readSetting hread
    · rw [Function.update_of_ne hk]
      exact h k'

theorem readSetting_shown (h : HasType k v) : readSetting k (shown v) = some v := by
  cases v with
  | text s => exact readSetting_text h s
  | number i =>
    rw [readSetting_number h.1, shown, stoi_toText h.2]
    rfl

theorem activeSettingsJson_eq (h : WellTyped vars) :
    activeSettingsJson vars = bootstrapKeys.map fun k => (k, shown (vars k)) := by
  rw [← activeSettingsJson_manager]
  apply List.map_congr_left
  intro k _
  have hk := h k
  cases hv : vars k with
  | text s =>
    rw [hv] at hk
    simp [show isTextKey k = true from hk, text, shown]
  | number i =>
    rw [hv] at hk
    by_cases hl : k = .LenDataArray
    · subst hl
      simp [hk.1, managerConfig, hv, PreviewFolder.number, shown]
    · simp [hk.1, hl, PreviewFolder.number, shown]

theorem lookup_activeSettingsJson (h : WellTyped vars) (hk : k ∈ bootstrapKeys) :
    (activeSettingsJson vars).lookup k = some (shown (vars k)) := by
  rw [activeSettingsJson_eq h]
  exact List.lookup_graph _ hk

/-- The mark of the settings page beside a field: what the service works with is not what is
stored. -/
def mismatch (values : List (Key × Text)) (k : Key) (stored : Text) : Bool :=
  match values.lookup k with
  | none => false
  | some value => value != stored

variable {c : Conf Req Ans Text Stage Unit World} {vars₀ : Vars} {settings : SettingsStore.World}
variable {bootRev : Nat}

/-- While the PLC is served, what is shown of each variable stands for its value. Until a setting that
the worker takes over is changed, the mark is only beside one that is not stored as the service
writes it. -/
theorem shown_operating (hv : WellTyped vars₀)
    (hc : Reachable (system Timely) spsWorkerLoop (.connect vars₀) (started vars₀ settings) c)
    (hcode : c.code = .ret (.inl (.operate vars bootRev))) (hk : k ∈ bootstrapKeys) :
    ((∃ value, c.world.activeSettings.lookup k = some value ∧ readSetting k value = some (vars k)) ∧
    (c.world.settings.bootRev = bootRev → (∀ p ∈ c.world.settings.inProgress, p.bootRev = false) →
      ∀ v, readSetting k (c.world.settings.cache k) = some v →
        (mismatch c.world.activeSettings k (c.world.settings.cache k) = true ↔
          c.world.settings.cache k ≠ shown v))) := by
  obtain ⟨φ, ⟨-, hpub, htyped, hrev, ha⟩, hw⟩ :=
    head_of_reachable (P := WellTyped) vars₀ settings lasting_timely hv wellTyped_assign hc hcode
  have hlookup : c.world.activeSettings.lookup k = some (shown (vars k)) := by
    rw [hw.published, hpub]
    exact lookup_activeSettingsJson htyped hk
  refine ⟨⟨_, hlookup, readSetting_shown (htyped k)⟩, fun hb hidle v hread => ?_⟩
  have hvar : vars k = v := by
    obtain h | ⟨p, hp, hboot⟩ := (hw.rev bootRev hrev).2 hb
    · have hagrees := (h k hk).resolve_left (by simp [hread])
      rw [hw.got] at hagrees
      exact ha k hk v (hagrees.trans hread)
    · rw [hidle p hp] at hboot
      cases hboot
  rw [mismatch, hlookup, hvar]
  exact bne_iff_ne.trans ne_comm

theorem wellTyped_zeros : WellTyped zeros := by
  intro k
  cases hk : isTextKey k with
  | true =>
    simp only [zeros, hk, if_true]
    exact hk
  | false =>
    simp only [zeros, hk]
    exact ⟨hk, by decide, by decide⟩

theorem shown_connecting : mismatch (runOf connecting).world.activeSettings .ns ['1'] = false := by
  have hcode : (runOf connecting).code = .ret (.inl (.operate _ 0)) := rfl
  have h := (shown_operating wellTyped_zeros 
    (reachable_runOf (fun _ => timely_of_calm) fun _ => goOn_of_mem_connecting) hcode
    (k := .ns) (by decide)).2 (by decide +kernel) (by decide +kernel) (.number 1) (by decide +kernel)
  have hshown : (runOf connecting).world.settings.cache .ns = shown (.number 1) := by
    decide +kernel
  exact Bool.eq_false_iff.mpr fun hm => h.mp hm hshown

end Active

end Datenbereitstellung.SpsSessions
