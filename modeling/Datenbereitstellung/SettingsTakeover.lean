import Datenbereitstellung.Lib.Rely
import Datenbereitstellung.SettingsStore

namespace Datenbereitstellung.SettingsTakeover

open Strings SettingsStore Lib.Program Lib.Rely

section Worker

/-- The settings that `applySettings` takes over, in its order. -/
def bootstrapKeys : List Key :=
  [.ipSPS, .ProgrammId, .ns, .folderPath, .sizeObjx, .sizeObjy, .webserVerImgSizeX,
    .webserVerImgSizeY, .iError, .iInfo, .iHeartbeat, .iStatusCode, .iDataArry, .iProjektArray,
    .iUpdateProjektList, .iProjektlistUpdated, .iProjektName, .iReadProjekt, .iLenProjekt,
    .iAnzDatenblöcke, .iWriteData, .iIndexData, .iReadData, .MaximaleAnzahlProjekte, .LenDataArray,
    .iabbruchUbertragen, .showProjektInfo, .ProjektInfoWrote, .ProjektVorhanden,
    .iUebertgarungBeendet, .iUebertragungslaege, .iFarbeG0, .iStaerkeG0, .iFarbeG1, .iStaerkeG1,
    .iFarbeG2, .iStaerkeG2, .iFarbeG3, .iStaerkeG3, .objektgroesseX, .objektgroesseY, .iFarbeLive,
    .iFarbeErledigt, .iStaerkeLive, .iStaerkeErledigt, .iLiveStand, .iLiveBreak, .iMinArcRadius]

inductive Value
  | text (s : Text)
  | number (i : Int)
  deriving DecidableEq

/-- The runtime variables, each under the key of its setting. -/
abbrev Vars := Key → Value

/-- The value that a stored setting stands for, `none` where it is malformed. -/
def readSetting : Key → Text → Option Value
  | .ipSPS, stored | .ProgrammId, stored | .folderPath, stored => some (.text stored)
  | _, stored => (stoi stored).map .number

/-- One line of `applySettings`: a malformed setting leaves the variable as it is. -/
def assign (vars : Vars) (k : Key) (stored : Text) : Vars :=
  match readSetting k stored with
  | some v => Function.update vars k v
  | none => vars

/-- The accesses of the worker to the store, and what else decides how it goes on.
`inTakeOver` tells the revision that is kept as `bootRev` from those compared with it. -/
inductive Req
  | running
  | get (k : Key)
  | bootstrapRevision (inTakeOver : Bool)
  | endpointReachable
  | connect
  | setupVariables
  | linkDown
  | heartbeat

@[reducible] def Ans : Req → Type
  | .get _ => Text
  | .bootstrapRevision _ => Nat
  | _ => Bool

abbrev M (α : Type) := Prog Req Ans Empty α

def applySettings : List Key → Vars → M Vars
  | [], vars => pure vars
  | k :: ks, vars => do
    let stored ← Prog.perform (.get k)
    applySettings ks (assign vars k stored)

/-- The heads of the loops of `spsWorkerLoop`, each where its `while (g_running.load())` has let
the worker in; `wait` is the loop of that lambda. -/
inductive Stage
  | connect (vars : Vars)
  | wait (vars : Vars) (bootRev : Nat) (ms waited : Nat)
  | operate (vars : Vars) (bootRev : Nat)

def whileRunning (inside outside : Stage ⊕ Unit) : M (Stage ⊕ Unit) := do
  if ← Prog.perform .running then pure inside else pure outside

def reconnect (vars : Vars) : M (Stage ⊕ Unit) := whileRunning (.inl (.connect vars)) (.inr ())

def opcEnabled : M Bool := do
  let stored ← Prog.perform (.get .opcEnabled)
  pure ((stoi stored).getD 1 != 0)

def connectBody (vars : Vars) : M (Stage ⊕ Unit) := do
  let vars ← applySettings bootstrapKeys vars
  let bootRev ← Prog.perform (.bootstrapRevision true)
  if !(← opcEnabled) then reconnect vars
  else if !(← Prog.perform .endpointReachable) then pure (.inl (.wait vars bootRev 3000 0))
  else if !(← Prog.perform .connect) then pure (.inl (.wait vars bootRev 5000 0))
  else if !(← Prog.perform .setupVariables) then pure (.inl (.wait vars bootRev 5000 0))
  else whileRunning (.inl (.operate vars bootRev)) (.inl (.connect vars))

def waitBody (vars : Vars) (bootRev ms waited : Nat) : M (Stage ⊕ Unit) := do
  if !(waited < ms) then reconnect vars
  else if !(← Prog.perform .running) then reconnect vars
  else if (← Prog.perform (.bootstrapRevision false)) ≠ bootRev then reconnect vars
  else pure (.inl (.wait vars bootRev ms (waited + 200)))

def operateBody (vars : Vars) (bootRev : Nat) : M (Stage ⊕ Unit) := do
  if (← Prog.perform (.bootstrapRevision false)) ≠ bootRev then reconnect vars
  else if ← Prog.perform .linkDown then reconnect vars
  else if !(← opcEnabled) then reconnect vars
  else
    let _ ← Prog.perform (.get .dataExchangeEnabled)
    if !(← Prog.perform .heartbeat) then reconnect vars
    else whileRunning (.inl (.operate vars bootRev)) (.inl (.connect vars))

def spsWorkerLoop : Process Req Ans Empty Stage Unit
  | .connect vars => connectBody vars
  | .wait vars bootRev ms waited => waitBody vars bootRev ms waited
  | .operate vars bootRev => operateBody vars bootRev

/-- Each access is one atomic step. The revision is taken over where `timely` permits it. -/
def system (timely : World → Prop) : System Req Ans World where
  exec
    | .get k, w, stored, w' =>
      stored = w.cache k ∧ w' = { w with got := Function.update w.got k stored }
    | .bootstrapRevision inTakeOver, w, r, w' =>
      r = w.bootRev ∧ (inTakeOver = true → timely w) ∧ w' = w
    | _, w, _, w' => w' = w
  rely := SetMany

end Worker

section Revision

variable {vars : Vars} {b : Nat} {w w' : World} {timely : World → Prop}

def Agrees (k : Key) (got stored : Text) : Prop :=
  readSetting k stored = none ∨ readSetting k got = readSetting k stored

/-- What was taken over is still stored, or a call of `setMany` will still count up the revision. -/
def Timely (w : World) : Prop :=
  (∀ k ∈ bootstrapKeys, Agrees k (w.got k) (w.cache k)) ∨ ∃ c ∈ w.inProgress, c.bootRev = true

def Assigned (ks : List Key) (vars : Vars) (w : World) : Prop :=
  ∀ k ∈ ks, ∀ v, readSetting k (w.got k) = some v → vars k = v

/-- The variables are up to date, or the revision shows that they are not. -/
structure Current (vars : Vars) (b : Nat) (w : World) : Prop where
  assigned : Assigned bootstrapKeys vars w
  le : b ≤ w.bootRev
  timely : w.bootRev = b → Timely w

theorem bootstrapKeys_not_live : ∀ k ∈ bootstrapKeys, isLiveKey k = false := by decide

theorem setMany_got (h : SetMany w w') : w'.got = w.got := by
  cases h <;> rfl

theorem setMany_bootRev_le (h : SetMany w w') : w.bootRev ≤ w'.bootRev := by
  cases h with
  | bootRev => exact Nat.le_succ _
  | _ => exact Nat.le_refl _

theorem announced_replace {before after : List InProgress} {c : InProgress} (cs : List InProgress)
    (hc : c.bootRev = true → ∃ d ∈ cs, d.bootRev = true)
    (h : ∃ d ∈ before ++ c :: after, d.bootRev = true) :
    ∃ d ∈ before ++ (cs ++ after), d.bootRev = true := by
  obtain ⟨d, hd, hb⟩ := h
  obtain hd | hd := List.mem_append.mp hd
  · exact ⟨d, List.mem_append_left _ hd, hb⟩
  · obtain rfl | hd := List.mem_cons.mp hd
    · obtain ⟨e, he, hb⟩ := hc hb
      exact ⟨e, List.mem_append_right _ (List.mem_append_left _ he), hb⟩
    · exact ⟨d, List.mem_append_right _ (List.mem_append_right _ hd), hb⟩

theorem timely_setMany (h : SetMany w w') (hr : w'.bootRev = w.bootRev) (ht : Timely w) :
    Timely w' := by
  cases h with
  | store values =>
    cases hneeds : (acceptValues w.cache values).needsReconnect with
    | true => exact .inr ⟨_, List.mem_cons_self, hneeds⟩
    | false =>
      obtain ht | ⟨c, hc, hb⟩ := ht
      · refine .inl fun k hk => ?_
        have hsame := acceptValues_cache w.cache values (bootstrapKeys_not_live k hk) hneeds
        simp only [World.store, hsame]
        exact ht k hk
      · exact .inr ⟨c, List.mem_cons_of_mem _ hc, hb⟩
  | rev before after c hc h =>
    obtain ht | ha := ht
    · exact .inl ht
    · rw [h] at ha
      refine .inr (announced_replace [{ c with rev := false }] (fun hb => ?_) ha)
      exact ⟨_, List.mem_singleton_self _, hb⟩
  | bootRev => exact absurd hr (Nat.succ_ne_self _)
  | done before after c hr hc h =>
    obtain ht | ha := ht
    · exact .inl ht
    · rw [h] at ha
      exact .inr (announced_replace [] (by simp [hc]) ha)

theorem assigned_setMany {ks : List Key} (h : SetMany w w') (ha : Assigned ks vars w) :
    Assigned ks vars w' := by
  rw [Assigned]
  rw [setMany_got h]
  exact ha

theorem stable_assigned (ks : List Key) (vars : Vars) :
    Stable (system timely) (Assigned ks vars) :=
  fun _ _ ha h => assigned_setMany h ha

theorem stable_current (vars : Vars) (b : Nat) : Stable (system timely) (Current vars b) := by
  intro w w' hc h
  have hle := setMany_bootRev_le h
  refine ⟨assigned_setMany h hc.assigned, hc.le.trans hle, fun hb => ?_⟩
  have hw : w.bootRev = b := Nat.le_antisymm (hle.trans hb.le) hc.le
  exact timely_setMany h (hb.trans hw.symm) (hc.timely hw)

theorem current_get {k : Key} (hk : k ∉ bootstrapKeys) (stored : Text) (h : Current vars b w) :
    Current vars b { w with got := Function.update w.got k stored } := by
  have hgot : ∀ k' ∈ bootstrapKeys, Function.update w.got k stored k' = w.got k' := by
    intro k' hk'
    refine Function.update_of_ne ?_ _ _
    rintro rfl
    exact hk hk'
  refine ⟨fun k' hk' v hv => ?_, h.le, fun hb => ?_⟩
  · simp only [hgot k' hk'] at hv
    exact h.assigned k' hk' v hv
  · refine (h.timely hb).imp_left fun ht k' hk' => ?_
    simp only [hgot k' hk']
    exact ht k' hk'

theorem assigned_assign {ks : List Key} (k : Key) (stored : Text) (h : Assigned ks vars w) :
    Assigned (k :: ks) (assign vars k stored)
      { w with got := Function.update w.got k stored } := by
  intro k' hk' v hv
  simp only [Function.update_apply] at hv
  split at hv
  · rename_i heq
    subst heq
    simp [assign, hv]
  · rename_i hne
    have hmem : k' ∈ ks := (List.mem_cons.mp hk').resolve_left hne
    have hvar : assign vars k stored k' = vars k' := by
      cases hread : readSetting k stored with
      | some v => simp [assign, hread, hne]
      | none => simp [assign, hread]
    rw [hvar]
    exact h k' hmem v hv

end Revision

section Run

variable {α : Type} {timely : World → Prop}
variable {Q : α → World → Prop} {w : World}

def AtHead : Stage → World → Prop
  | .operate vars b, w => Current vars b w
  | _, _ => True

abbrev Ends (timely : World → Prop) (Q : α → World → Prop) (p : M α) (w : World) : Prop :=
  Safe (system timely) (fun _ _ => True) Q (fun _ _ => True) p w

theorem ends_step {A : World → Prop} (hA : Stable (system timely) A) (hw : A w) {q : Req}
    (hq : ∀ w a w', A w → (system timely).exec q w a w' → A w') {k : Ans q → M α}
    (hk : ∀ a w, A w → Ends timely Q (k a) w) : Ends timely Q (.call q k) w :=
  Safe.call hA hw (fun _ _ => trivial) fun w a w' h hx => hk a w' (hq w a w' h hx)

def Outside : Req → Prop
  | .get _ | .bootstrapRevision _ => False
  | _ => True

theorem ends_outside {A : World → Prop} (hA : Stable (system timely) A) (hw : A w) {q : Req}
    (hq : Outside q) {k : Ans q → M α} (hk : ∀ a w, A w → Ends timely Q (k a) w) :
    Ends timely Q (.call q k) w := by
  refine ends_step hA hw (fun w a w' h hx => ?_) hk
  cases q with
  | get | bootstrapRevision => exact hq.elim
  | _ =>
    obtain rfl : w' = w := hx
    exact h

theorem stable_true : Stable (system timely) fun _ => True := fun _ _ _ _ => trivial

theorem ends_whileRunning {A : World → Prop} (hA : Stable (system timely) A) (hw : A w)
    {inside outside : Stage ⊕ Unit} (hin : ∀ w, A w → Sum.elim AtHead (fun _ _ => True) inside w)
    (hout : ∀ w, A w → Sum.elim AtHead (fun _ _ => True) outside w) :
    Ends timely (Sum.elim AtHead fun _ _ => True) (whileRunning inside outside) w := by
  simp only [whileRunning, Prog.perform_bind]
  refine ends_outside hA hw (by exact trivial) fun a w h => ?_
  cases a with
  | true => exact hin w h
  | false => exact hout w h

theorem ends_reconnect (vars : Vars) :
    Ends timely (Sum.elim AtHead fun _ _ => True) (reconnect vars) w :=
  ends_whileRunning (A := fun _ => True) stable_true trivial (fun _ _ => trivial) fun _ _ => trivial

theorem ends_opcEnabled {A : World → Prop} (hA : Stable (system timely) A) (hw : A w)
    (hget : ∀ w stored, A w → A { w with got := Function.update w.got .opcEnabled stored })
    {f : Bool → M α} (hf : ∀ b w, A w → Ends timely Q (f b) w) :
    Ends timely Q (opcEnabled >>= f) w := by
  simp only [opcEnabled, Prog.perform_bind, Prog.call_bind]
  refine ends_step hA hw ?_ fun a w h => ?_
  · rintro w a w' h ⟨-, rfl⟩
    exact hget w a h
  · exact hf _ w h

theorem ends_applySettings {f : Vars → M α} (ks done : List Key) (vars : Vars) (w : World)
    (hw : Assigned done vars w)
    (hf : ∀ vars w, Assigned (ks.reverse ++ done) vars w → Ends timely Q (f vars) w) :
    Ends timely Q (applySettings ks vars >>= f) w := by
  induction ks generalizing done vars w with
  | nil => exact hf vars w hw
  | cons k ks ih =>
    simp only [applySettings, Prog.perform_bind, Prog.call_bind]
    apply Safe.call (stable_assigned done vars) hw (fun _ _ => trivial)
    rintro w stored w' h ⟨-, rfl⟩
    apply ih (k :: done) (assign vars k stored) _ (assigned_assign k stored h)
    simpa using hf

theorem ends_operating {vars : Vars} {b : Nat} (hw : Current vars b w) :
    Ends timely (Sum.elim AtHead fun _ _ => True)
      (whileRunning (.inl (.operate vars b)) (.inl (.connect vars))) w :=
  ends_whileRunning (stable_current vars b) hw (fun _ h => h) fun _ _ => trivial

theorem ends_connectBody (vars : Vars) (w : World) :
    Ends Timely (Sum.elim AtHead fun _ _ => True) (connectBody vars) w := by
  refine ends_applySettings bootstrapKeys [] vars w nofun fun vars w hw => ?_
  rw [List.append_nil] at hw
  have hw : Assigned bootstrapKeys vars w := fun k hk => hw k (List.mem_reverse.mpr hk)
  simp only [Prog.perform_bind]
  apply Safe.call (stable_assigned bootstrapKeys vars) hw (fun _ _ => trivial)
  rintro _ b w ha ⟨hb, ht, rfl⟩
  have hcur : Current vars b w := ⟨ha, hb.le, fun _ => ht rfl⟩
  apply ends_opcEnabled (stable_current vars b) hcur (fun w s => current_get (by decide) s)
  intro on w h
  cases on with
  | false => exact ends_reconnect vars
  | true =>
    refine ends_outside (stable_current vars b) h (by exact trivial) fun a w h => ?_
    cases a with
    | false => trivial
    | true =>
      refine ends_outside (stable_current vars b) h (by exact trivial) fun a w h => ?_
      cases a with
      | false => trivial
      | true =>
        refine ends_outside (stable_current vars b) h (by exact trivial) fun a w h => ?_
        cases a with
        | false => trivial
        | true => exact ends_operating h

theorem ends_waitBody (vars : Vars) (b ms waited : Nat) (w : World) :
    Ends Timely (Sum.elim AtHead fun _ _ => True) (waitBody vars b ms waited) w := by
  rw [waitBody]
  split
  · exact ends_reconnect vars
  · refine ends_step stable_true trivial (fun _ _ _ _ _ => trivial) fun a w _ => ?_
    cases a with
    | false => exact ends_reconnect vars
    | true =>
      refine ends_step stable_true trivial (fun _ _ _ _ _ => trivial) fun r w _ => ?_
      simp only [Prog.pure_eq, Prog.bind]
      split
      · exact ends_reconnect vars
      · trivial

theorem ends_operateBody {vars : Vars} {b : Nat} {w : World} (hw : Current vars b w) :
    Ends Timely (Sum.elim AtHead fun _ _ => True) (operateBody vars b) w := by
  have hstable : Stable (system Timely) (Current vars b) := stable_current vars b
  simp only [operateBody, Prog.perform_bind]
  refine ends_step hstable hw ?_ fun r w h => ?_
  · rintro w a w' h ⟨-, -, rfl⟩
    exact h
  split
  · exact ends_reconnect vars
  refine ends_outside hstable h (by exact trivial) fun down w h => ?_
  cases down with
  | true => exact ends_reconnect vars
  | false =>
    refine ends_opcEnabled hstable h (fun w s => current_get (by decide) s) fun on w h => ?_
    cases on with
    | false => exact ends_reconnect vars
    | true =>
      refine ends_step hstable h ?_ fun _ w h => ?_
      · rintro w a w' h ⟨-, rfl⟩
        exact current_get (by decide) a h
      refine ends_outside hstable h (by exact trivial) fun beat w h => ?_
      cases beat with
      | false => exact ends_reconnect vars
      | true => exact ends_operating h

theorem stable_atHead (stage : Stage) : Stable (system timely) (AtHead stage) := by
  cases stage with
  | operate vars b => exact stable_current vars b
  | _ => exact stable_true

theorem ends_spsWorkerLoop (stage : Stage) (w : World) (hw : AtHead stage w) :
    Ends Timely (Sum.elim AtHead fun _ _ => True) (spsWorkerLoop stage) w := by
  cases stage with
  | connect vars => exact ends_connectBody vars w
  | wait vars b ms waited => exact ends_waitBody vars b ms waited w
  | operate vars b => exact ends_operateBody hw

/-- If each take-over is timely, then in every run, whenever the operating loop finds the revision
unchanged and no call of `setMany` is in progress, the variables are those that are stored. -/
theorem current_of_timely (vars₀ : Vars) (w₀ : World) (vars : Vars) (b : Nat) (w : World)
    (hc : Reachable (system Timely) spsWorkerLoop (.connect vars₀) w₀
      ⟨.ret (.inl (.operate vars b)), w⟩) (hrev : w.bootRev = b) (hidle : w.inProgress = [])
    (k : Key) (hk : k ∈ bootstrapKeys) (v : Value) (hv : readSetting k (w.cache k) = some v) :
    vars k = v := by
  have hcur : Current vars b w := reachable_safe stable_atHead (fun _ => stable_true)
    (fun _ => stable_true) ends_spsWorkerLoop (i := .connect vars₀) (w := w₀) trivial hc
  obtain ht | ⟨c, hc, -⟩ := hcur.timely hrev
  · obtain hnone | hsame := ht k hk
    · rw [hnone] at hv
      cases hv
    · exact hcur.assigned k hk v (hsame.trans hv)
  · rw [hidle] at hc
    cases hc

def ones : World where
  cache _ := ['1']
  rev := 1
  bootRev := 0
  inProgress := []
  got _ := ['1']

def goOn : Move Req Ans World := .run fun q w =>
  match q with
  | .get k => (w.cache k, { w with got := Function.update w.got k (w.cache k) })
  | .bootstrapRevision _ => (w.bootRev, w)
  | .linkDown => (false, w)
  | .running => (true, w)
  | .endpointReachable => (true, w)
  | .connect => (true, w)
  | .setupVariables => (true, w)
  | .heartbeat => (true, w)

def goOnSetting (w : World) : World :=
  match w.inProgress with
  | [] => w.store []
  | c :: rest =>
    if c.rev then { w with rev := w.rev + 1, inProgress := { c with rev := false } :: rest }
    else if c.bootRev then
      { w with bootRev := w.bootRev + 1, inProgress := { c with bootRev := false } :: rest }
    else { w with inProgress := rest }

theorem goOnSetting_sound (w : World) : SetMany w (goOnSetting w) := by
  rw [goOnSetting]
  split
  · exact .store w []
  · rename_i c rest h
    split
    · rename_i hr
      exact .rev w [] rest c hr h
    · rename_i hr
      split
      · rename_i hb
        exact .bootRev w [] rest c (by simpa using hr) hb h
      · rename_i hb
        exact .done w [] rest c (by simpa using hr) (by simpa using hb) h

theorem goOn_sound (hf : ∀ w, timely w) : goOn.Sound (system timely) := by
  intro q w
  cases q with
  | get k => exact ⟨rfl, rfl⟩
  | bootstrapRevision inTakeOver => exact ⟨rfl, fun _ => hf w, rfl⟩
  | _ => exact rfl

def runFromOnes (ms : List (Move Req Ans World)) : Conf Req Ans Empty Stage Unit World :=
  play spsWorkerLoop ms ⟨.ret (.inl (.connect fun _ => .number 0)), ones⟩

def operatingOf (c : Conf Req Ans Empty Stage Unit World) : Option (Vars × Nat) :=
  match c.code with
  | .ret (.inl (.operate vars b)) => some (vars, b)
  | _ => none

theorem code_of_operatingOf {c : Conf Req Ans Empty Stage Unit World} {vars : Vars} {b : Nat}
    (h : operatingOf c = some (vars, b)) : c.code = .ret (.inl (.operate vars b)) := by
  unfold operatingOf at h
  split at h
  · rename_i hcode
    cases h
    exact hcode
  · cases h

def lateChange : List (Move Req Ans World) :=
  goOn :: goOn :: .env (·.store [(.ipSPS, ['2'])]) ::
    (List.replicate 3 (.env goOnSetting) ++ List.replicate 53 goOn)

theorem current_lateChange : ¬∀ (vars₀ : Vars) (w₀ : World) (vars : Vars) (b : Nat) (w : World),
    Reachable (system fun _ => True) spsWorkerLoop (.connect vars₀) w₀
      ⟨.ret (.inl (.operate vars b)), w⟩ → w.bootRev = b → w.inProgress = [] →
      ∀ k ∈ bootstrapKeys, ∀ v, readSetting k (w.cache k) = some v → vars k = v := by
  intro h
  have hop : (operatingOf (runFromOnes lateChange)).map (fun p => (p.1 .ipSPS, p.2)) =
      some (.text ['1'], 1) := by decide +kernel
  obtain ⟨⟨vars, b⟩, hcode, hvars⟩ := Option.map_eq_some_iff.mp hop
  obtain ⟨hip, rfl⟩ := Prod.mk.inj hvars
  have hc : Reachable (system fun _ => True) spsWorkerLoop (.connect fun _ => .number 0) ones
      ⟨.ret (.inl (.operate vars 1)), (runFromOnes lateChange).world⟩ := by
    rw [← code_of_operatingOf hcode]
    refine play_reachable (fun m hm => ?_) (Stage.connect fun _ => .number 0) ones
    simp only [lateChange, List.mem_cons, List.mem_append, List.mem_replicate] at hm
    obtain rfl | rfl | rfl | ⟨-, rfl⟩ | ⟨-, rfl⟩ := hm
    · exact goOn_sound fun _ => trivial
    · exact goOn_sound fun _ => trivial
    · exact fun w => .store w _
    · exact goOnSetting_sound
    · exact goOn_sound fun _ => trivial
  have hv := h _ _ _ _ _ hc (by decide +kernel) (by decide +kernel) .ipSPS (by decide)
    (.text ['2']) (by decide +kernel)
  exact absurd (hv.symm.trans hip) (by decide)

theorem goOn_soundIn : goOn.SoundIn (system Timely) fun w => ∀ k, w.got k = w.cache k := by
  intro q w hw
  cases q with
  | get k =>
    refine ⟨⟨rfl, rfl⟩, fun k' => ?_⟩
    simp only [Function.update_apply]
    split
    · rename_i h
      rw [h]
    · exact hw k'
  | bootstrapRevision inTakeOver =>
    refine ⟨⟨rfl, fun _ => .inl fun k _ => ?_, rfl⟩, hw⟩
    exact .inr (by rw [hw k])
  | _ => exact ⟨rfl, hw⟩

theorem current_undisturbed :
    (operatingOf (runFromOnes (List.replicate 55 goOn))).map (fun p => p.1 .ipSPS) =
      some (.text ['1']) := by
  have hop : (operatingOf (runFromOnes (List.replicate 55 goOn))).map (·.2) = some 0 := by
    decide +kernel
  obtain ⟨⟨vars, b⟩, hcode, rfl⟩ := Option.map_eq_some_iff.mp hop
  have hc : Reachable (system Timely) spsWorkerLoop (.connect fun _ => .number 0) ones
      ⟨.ret (.inl (.operate vars 0)), (runFromOnes (List.replicate 55 goOn)).world⟩ := by
    rw [← code_of_operatingOf hcode]
    refine play_reachable_in (I := fun w => ∀ k, w.got k = w.cache k) (fun m hm => ?_)
      (Stage.connect fun _ => .number 0) (fun _ => rfl)
    obtain rfl := (List.mem_replicate.mp hm).2
    exact goOn_soundIn
  have hv : vars .ipSPS = .text ['1'] := current_of_timely _ ones vars 0 _ hc (by decide +kernel)
    (by decide +kernel) .ipSPS (by decide) _ (by decide +kernel)
  rw [hcode]
  exact congrArg some hv

end Run

end Datenbereitstellung.SettingsTakeover
