import Datenbereitstellung.SpsWorker

namespace Datenbereitstellung.SpsStatus

open Strings SettingsStore SpsWorker Lib.Program Lib.Rely Lib.Phases
open SettingsTakeover (Vars bootstrapKeys assign readSetting Timely)
open PreviewFolder (text)

section World

/-- Where the thread of the watchdog is: before its probe, behind each of the stores that follow a
failed one, or asleep. -/
inductive WatchdogAt
  | probing
  | lost
  | cleared
  | stored
  | hidden
  | sleeping
  deriving DecidableEq

/-- What the threads share. `copied` is what the thread of the preview has loaded from
`g_sps_connected` and not stored yet, with whether the flag has been stored since; `late` says the
same of the copy that `spsConnected` is. `setupFailed` is about the last session. -/
structure World where
  settings : SettingsStore.World
  gSpsConnected : Bool := false
  spsConnected : Bool := false
  spsMessage : Text := []
  nodeDiagnostics : List NodeDiagnostic := []
  activeSettings : List (Key × Text)
  session : Bool := false
  setupFailed : Bool := false
  watchdog : Option WatchdogAt := none
  linkDown : Bool := false
  copied : Option (Bool × Bool) := none
  late : Bool := false

def World.store (w : World) (connected : Bool) : World :=
  { w with gSpsConnected := connected, copied := w.copied.map fun c => (c.1, true) }

def World.show (w : World) (connected : Bool) : World :=
  { w with spsConnected := connected, late := false }

def started (vars : Vars) (settings : SettingsStore.World) : World where
  settings := settings
  activeSettings := activeSettingsJson vars

/-- A step of the watchdog; the probe found the endpoint reachable or not. -/
inductive Watches : World → World → Prop
  | reachable {w : World} (h : w.watchdog = some .probing) :
      Watches w { w with watchdog := some .sleeping, linkDown := false }
  | lost {w : World} (h : w.watchdog = some .probing) :
      Watches w { w with watchdog := some .lost, linkDown := true }
  | clear {w : World} (h : w.watchdog = some .lost) :
      Watches w { w with watchdog := some .cleared, nodeDiagnostics := [] }
  | store {w : World} (h : w.watchdog = some .cleared) :
      Watches w { w.store false with watchdog := some .stored }
  | «show» {w : World} (h : w.watchdog = some .stored) :
      Watches w { w.show false with watchdog := some .hidden }
  | message {w : World} (url : Text) (h : w.watchdog = some .hidden) :
      Watches w { w with watchdog := some .sleeping, spsMessage := lit "nicht erreichbar: " ++ url }
  | again {w : World} (h : w.watchdog = some .sleeping) :
      Watches w { w with watchdog := some .probing }

/-- `state.setSpsConnected(g_sps_connected.load())` in the thread of the preview. -/
inductive Copies : World → World → Prop
  | load (w : World) : Copies w { w with copied := some (w.gSpsConnected, false) }
  | store {w : World} {c : Bool × Bool} (h : w.copied = some c) :
      Copies w { w with spsConnected := c.1, late := c.2, copied := none }

inductive Others : World → World → Prop
  | setMany {w : World} {settings : SettingsStore.World} (h : SetMany w.settings settings) :
      Others w { w with settings := settings }
  | watchdog {w w' : World} (h : Watches w w') : Others w w'
  | preview {w w' : World} (h : Copies w w') : Others w w'

/-- Each access is one atomic step. The revision is taken over where `timely` permits it, and the
watchdog ends between two rounds. -/
def system (timely : SettingsStore.World → Prop) : System Req Ans World where
  exec
    | .get k, w, stored, w' => stored = w.settings.cache k ∧
      w' = { w with settings :=
        { w.settings with got := Function.update w.settings.got k stored } }
    | .bootstrapRevision inTakeOver, w, r, w' =>
      r = w.settings.bootRev ∧ (inTakeOver = true → timely w.settings) ∧ w' = w
    | .connect, w, ok, w' => w' = { w with session := ok }
    | .setupVariables, w, ok, w' => w' = { w with setupFailed := !ok }
    | .disconnect, w, _, w' => w' = { w with session := false }
    | .storeConnected connected, w, _, w' => w' = w.store connected
    | .setSpsConnected connected, w, _, w' => w' = w.show connected
    | .setSpsMessage msg, w, _, w' => w' = { w with spsMessage := msg }
    | .setNodeDiagnostics nodes, w, _, w' => w' = { w with nodeDiagnostics := nodes }
    | .setActiveSettings values, w, _, w' => w' = { w with activeSettings := values }
    | .startWatchdog, w, _, w' => w' = { w with watchdog := some .probing, linkDown := false }
    | .joinWatchdog, w, _, w' =>
      (∀ stage, w.watchdog = some stage → stage = .probing ∨ stage = .sleeping) ∧
        w' = { w with watchdog := none }
    | .linkDown, w, down, w' => down = w.linkDown ∧ w' = w
    | _, w, _, w' => w' = w
  rely := Others

end World

section Phases

/-- A message that does not tell of a connection. -/
def offline (msg : Text) : Bool := !(lit "verbunden").isPrefixOf msg

/-- What the worker knows: of the session and the watchdog, of what is shown, and what it published
and read. `rev` is the revision that it took over, until it reads the settings again. -/
structure Phase where
  session : Bool := false
  watched : Bool := false
  down : Bool := true
  hidden : Bool := true
  quiet : Bool := true
  cleared : Bool := true
  setupFailed : Bool := false
  published : List (Key × Text)
  got : Cache
  rev : Option Nat := none

structure Phase.Idle (φ : Phase) : Prop where
  session : φ.session = false
  watched : φ.watched = false
  down : φ.down = true
  hidden : φ.hidden = true
  quiet : φ.quiet = true
  explained : φ.cleared = true ∨ φ.setupFailed = true

structure Phase.Operating (φ : Phase) : Prop where
  session : φ.session = true
  watched : φ.watched = true
  setupFailed : φ.setupFailed = false

def NeedsSession : Req → Prop
  | .setupVariables | .disconnect | .nodeDiagnostics | .writeHeartbeat | .writeInfoText _
  | .writeError _ | .writeStatusCode _ | .startWatchdog | .job _ => True
  | _ => False

def automaton : Automaton Req Ans Phase where
  allows φ q :=
    (NeedsSession q → φ.session = true) ∧
    match q with
    | .connect | .endpointReachable _ => φ.Idle ∧ φ.cleared = true
    | .disconnect | .startWatchdog => φ.watched = false
    | .joinWatchdog => φ.session = true ∧ φ.watched = true
    | _ => True
  after φ q a :=
    match q, a with
    | .get k, stored =>
      { φ with got := Function.update φ.got k stored
               rev := if k ∈ bootstrapKeys then none else φ.rev }
    | .bootstrapRevision true, r => { φ with rev := some r }
    | .connect, ok => { φ with session := ok }
    | .setupVariables, ok => { φ with setupFailed := !ok }
    | .disconnect, _ => { φ with session := false }
    | .storeConnected connected, _ =>
      { φ with down := !connected, hidden := φ.hidden && !connected }
    | .setSpsConnected connected, _ => { φ with hidden := φ.down && !connected }
    | .setSpsMessage msg, _ => { φ with quiet := offline msg }
    | .setNodeDiagnostics nodes, _ => { φ with cleared := nodes.isEmpty }
    | .setActiveSettings values, _ => { φ with published := values }
    | .startWatchdog, _ => { φ with watched := true }
    | .joinWatchdog, _ => { φ with watched := false }
    | _, _ => φ

structure Holds (timely : SettingsStore.World → Prop) (φ : Phase) (w : World) : Prop where
  session : w.session = φ.session
  watched : w.watchdog.isSome = φ.watched
  copied : ∀ c, w.copied = some (c, false) → c = w.gSpsConnected
  down : φ.down = true → w.gSpsConnected = false
  hidden : φ.hidden = true → w.gSpsConnected = false ∧ (w.spsConnected = true → w.late = true)
  quiet : φ.quiet = true → offline w.spsMessage = true
  cleared : φ.cleared = true → w.nodeDiagnostics = []
  setupFailed : w.setupFailed = φ.setupFailed
  published : w.activeSettings = φ.published
  got : w.settings.got = φ.got
  rev : ∀ b, φ.rev = some b → b ≤ w.settings.bootRev ∧ (w.settings.bootRev = b → timely w.settings)

/-- What was timely is so until the revision is counted up, or a setting is taken over again. -/
structure Lasting (timely : SettingsStore.World → Prop) : Prop where
  setMany : ∀ {w w'}, SetMany w w' → w'.bootRev = w.bootRev → timely w → timely w'
  get : ∀ {k w}, k ∉ bootstrapKeys → ∀ stored, timely w →
    timely { w with got := Function.update w.got k stored }

end Phases

section Models

variable {φ : Phase} {w w' : World} {timely : SettingsStore.World → Prop}

theorem offline_append {msg : Text} (s : Text) (hlen : (lit "verbunden").length ≤ msg.length)
    (h : offline msg = true) : offline (msg ++ s) = true := by
  rw [offline, Bool.not_eq_true', Bool.eq_false_iff, Ne, List.isPrefixOf_iff_prefix] at h ⊢
  intro hpre
  exact h (List.prefix_of_prefix_length_le hpre (List.prefix_append msg s) hlen)

theorem offline_nichtErreichbar (url : Text) : offline (lit "nicht erreichbar: " ++ url) = true :=
  offline_append url (by decide +kernel) (by decide +kernel)

theorem offline_verbinde (url : Text) : offline (lit "verbinde mit " ++ url ++ lit " ...") = true :=
  offline_append _ ((by decide +kernel : (lit "verbunden").length ≤ (lit "verbinde mit ").length).trans
    (List.prefix_append (lit "verbinde mit ") url).length_le)
    (offline_append url (by decide +kernel) (by decide +kernel))

theorem offline_setupFailed :
    offline (lit "Knoten-Setup fehlgeschlagen - Namespace/Indizes pruefen") = true := by
  decide +kernel

theorem holds_watches (h : Holds timely φ w) (hw : Watches w w') :
    Holds timely φ w' := by
  have hsome : ∀ {at_ : WatchdogAt}, w.watchdog = some at_ → true = φ.watched := by
    intro at_ hat
    rw [← h.watched, hat]
    rfl
  cases hw with
  | reachable hat | lost hat | again hat =>
    exact { h with watched := hsome hat }
  | clear hat => exact { h with watched := hsome hat, cleared := fun _ => rfl }
  | store hat =>
    refine { h with
      watched := hsome hat
      copied := fun c hc => ?_
      down := fun _ => rfl
      hidden := fun hh => ⟨rfl, (h.hidden hh).2⟩ }
    obtain ⟨c', -, hc'⟩ := Option.map_eq_some_iff.mp hc
    cases hc'
  | «show» hat =>
    exact { h with
      watched := hsome hat
      hidden := fun hh => ⟨(h.hidden hh).1, nofun⟩ }
  | message url hat => exact { h with watched := hsome hat, quiet := fun _ => offline_nichtErreichbar url }

theorem holds_copies (h : Holds timely φ w) (hw : Copies w w') :
    Holds timely φ w' := by
  cases hw with
  | load =>
    refine { h with copied := fun c hc => ?_ }
    obtain ⟨rfl, -⟩ := Prod.mk.inj (Option.some.inj hc)
    rfl
  | store hc =>
    rename_i c
    refine { h with copied := nofun, hidden := fun hh => ⟨(h.hidden hh).1, fun hc' => ?_⟩ }
    obtain ⟨connected, outdated⟩ := c
    cases outdated with
    | true => rfl
    | false =>
      have hc' : connected = true := hc'
      rw [h.copied connected hc, (h.hidden hh).1] at hc'
      cases hc'

theorem stable_holds (hl : Lasting timely) (φ : Phase) :
    Stable (system timely) (Holds timely φ) := by
  intro w w' h hr
  cases hr with
  | setMany hs =>
    refine { h with got := (SettingsTakeover.setMany_got hs).trans h.got, rev := fun b hb => ?_ }
    obtain ⟨hle, ht⟩ := h.rev b hb
    have hle' := SettingsTakeover.setMany_bootRev_le hs
    refine ⟨hle.trans hle', fun heq => ?_⟩
    have hw : w.settings.bootRev = b := Nat.le_antisymm (hle'.trans heq.le) hle
    exact hl.setMany hs (heq.trans hw.symm) (ht hw)
  | watchdog hw => exact holds_watches h hw
  | preview hw => exact holds_copies h hw

theorem lasting_true : Lasting fun _ => True :=
  ⟨fun _ _ _ => trivial, fun _ _ _ => trivial⟩

theorem lasting_timely : Lasting Timely where
  setMany hs := SettingsTakeover.timely_setMany hs
  get {k _} hk stored h := by
    refine h.imp_left fun ht k' hk' => ?_
    have hne : k' ≠ k := by
      rintro rfl
      exact hk hk'
    dsimp only
    rw [Function.update_of_ne hne]
    exact ht k' hk'

theorem step_holds (hl : Lasting timely) {q : Req} (hq : automaton.allows φ q)
    (h : Holds timely φ w) {a : Ans q} (hx : (system timely).exec q w a w') :
    Holds timely (automaton.after φ q a) w' := by
  cases q with
  | get k =>
    obtain ⟨-, rfl⟩ := hx
    refine { h with got := ?_, rev := fun b hb => ?_ }
    · exact congrArg (Function.update · k a) h.got
    · by_cases hk : k ∈ bootstrapKeys
      · simp [automaton, hk] at hb
      · have hb : φ.rev = some b := by simpa [automaton, hk] using hb
        exact ⟨(h.rev b hb).1, fun heq => hl.get hk a ((h.rev b hb).2 heq)⟩
  | bootstrapRevision inTakeOver =>
    obtain ⟨hr, ht, rfl⟩ := hx
    cases inTakeOver with
    | false => exact h
    | true =>
      refine { h with rev := fun b hb => ?_ }
      obtain rfl : a = b := Option.some.inj hb
      exact ⟨hr.le, fun _ => ht rfl⟩
  | connect =>
    obtain rfl : w' = { w with session := a } := hx
    exact { h with session := rfl }
  | setupVariables =>
    obtain rfl : w' = { w with setupFailed := !a } := hx
    exact { h with setupFailed := rfl }
  | disconnect =>
    obtain rfl : w' = { w with session := false } := hx
    exact { h with session := rfl }
  | storeConnected connected =>
    obtain rfl : w' = w.store connected := hx
    refine { h with
      copied := fun c hc => ?_
      down := fun hd => by simpa [automaton, World.store] using hd
      hidden := fun hh => ?_ }
    · obtain ⟨c', -, hc'⟩ := Option.map_eq_some_iff.mp hc
      cases hc'
    · obtain ⟨hh, hc⟩ := Bool.and_eq_true_iff.mp hh
      exact ⟨by simpa [World.store] using hc, (h.hidden hh).2⟩
  | setSpsConnected connected =>
    obtain rfl : w' = w.show connected := hx
    refine { h with hidden := fun hh => ?_ }
    obtain ⟨hd, hc⟩ := Bool.and_eq_true_iff.mp hh
    refine ⟨h.down hd, fun ht => ?_⟩
    have ht : connected = true := ht
    rw [ht] at hc
    cases hc
  | setSpsMessage msg =>
    obtain rfl : w' = { w with spsMessage := msg } := hx
    exact { h with quiet := id }
  | setNodeDiagnostics nodes =>
    obtain rfl : w' = { w with nodeDiagnostics := nodes } := hx
    exact { h with cleared := List.isEmpty_iff.mp }
  | setActiveSettings values =>
    obtain rfl : w' = { w with activeSettings := values } := hx
    exact { h with published := rfl }
  | startWatchdog =>
    obtain rfl : w' = { w with watchdog := some .probing, linkDown := false } := hx
    exact { h with watched := rfl }
  | joinWatchdog =>
    obtain ⟨-, rfl⟩ := hx
    exact { h with watched := rfl }
  | linkDown =>
    obtain ⟨-, rfl⟩ := hx
    exact h
  | _ =>
    obtain rfl : w' = w := hx
    exact h

theorem models (hl : Lasting timely) : Models (system timely) automaton (Holds timely) :=
  ⟨stable_holds hl, fun _ _ _ _ _ hq h hx => step_holds hl hq h hx⟩

end Models

end Datenbereitstellung.SpsStatus
