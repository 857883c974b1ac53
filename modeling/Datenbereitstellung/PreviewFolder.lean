import Datenbereitstellung.PreviewJobs
import Datenbereitstellung.SettingsTakeover

namespace Datenbereitstellung.PreviewFolder

open Strings SettingsStore SettingsTakeover Lib.Program Lib.Rely

section Service

def text : Value → Text
  | .text s => s
  | .number _ => []

def number : Value → Int
  | .number i => i
  | .text _ => 0

/-- The copies with which `main` starts the thread of `previewWorkerLoop`. -/
def captured (vars : Vars) : PreviewWorker.Config where
  folderPath := text (vars .folderPath)
  maxProjects := number (vars .MaximaleAnzahlProjekte)

/-- The `ProjectManager` that `spsWorkerLoop` builds. -/
def managerConfig (vars : Vars) : ProjectManager.Config where
  folderPath := text (vars .folderPath)
  imageSizeX := number (vars .sizeObjx)
  imageSizeY := number (vars .sizeObjy)
  lenDataArray := number (vars .LenDataArray)

/-- What `applySettings` makes of the runtime variables while nobody changes a setting. -/
def applied (cache : Cache) (vars : Vars) : Vars :=
  bootstrapKeys.foldl (fun vars k => assign vars k (cache k)) vars

/-- Both threads. `manager` has the variables from which the `ProjectManager` was built, and the
revision that was taken over with them, as long as there is one. -/
structure Service (σ : Type) where
  captured : PreviewWorker.Config
  sps : Conf Req Ans Empty Stage Unit World
  preview : Conf PreviewWorker.Req PreviewWorker.Ans Text PreviewWorker.Stage Unit σ
  manager : Option (Vars × Nat) := none

def managerAfter (manager : Option (Vars × Nat)) : M (Stage ⊕ Unit) → Option (Vars × Nat)
  | .ret (.inl (.operate vars bootRev)) => some (vars, bootRev)
  | .ret _ => none
  | _ => manager

variable {σ : Type}

/-- `main` has taken the settings over and starts the threads. -/
def Service.started (vars : Vars) (w : World) (p : σ) : Service σ where
  captured := PreviewFolder.captured (applied w.cache vars)
  sps := ⟨.ret (.inl (.connect (applied w.cache vars))), w⟩
  preview := ⟨.ret (.inl .start), p⟩

/-- A step of one of the threads, or of those that they share something with. -/
inductive Step (timely : World → Prop) (S : System PreviewWorker.Req PreviewWorker.Ans σ) :
    Service σ → Service σ → Prop
  | sps (s : Service σ) {c : Conf Req Ans Empty Stage Unit World}
      (h : Lib.Program.Step (system timely) spsWorkerLoop s.sps c) :
      Step timely S s { s with sps := c, manager := managerAfter s.manager c.code }
  | preview (s : Service σ)
      {c : Conf PreviewWorker.Req PreviewWorker.Ans Text PreviewWorker.Stage Unit σ}
      (h : Lib.Program.Step S (PreviewWorker.previewWorkerLoop s.captured) s.preview c) :
      Step timely S s { s with preview := c }

/-- The call uses the folder and the number of the `ProjectManager` and its `updateProjectList`.
The reader of the preview was made with `cfg.folderPath`. -/
def Uses (cfg : PreviewWorker.Config) (vars : Vars) : PreviewWorker.Req → Prop
  | .listProjects maxCount =>
    cfg.folderPath = (managerConfig vars).folderPath ∧
      maxCount = number (vars .MaximaleAnzahlProjekte)
  | .setProjects folder _ => folder = (managerConfig vars).folderPath
  | .getProjectInfo _ => cfg.folderPath = (managerConfig vars).folderPath
  | _ => True

/-- Until the next change both work on the same folder. -/
def Shares (s : Service σ) : Prop :=
  ∀ vars bootRev, s.manager = some (vars, bootRev) → s.sps.world.bootRev = bootRev →
    ∀ q k, s.preview.code = .call q k → Uses s.captured vars q

def sharedKeys : List Key := [.folderPath, .MaximaleAnzahlProjekte]

/-- The folder and the number as they were read still stand for the values that `main` found. -/
def Unchanged (start : Vars) (w : World) : Prop :=
  ∀ k ∈ sharedKeys, ∀ v, readSetting k (w.got k) = some v → start k = v

end Service

section Sps

variable {α : Type} {start vars : Vars} {w : World} {timely : World → Prop}

def Fresh (start vars : Vars) : Prop := ∀ k ∈ sharedKeys, vars k = start k

structure Tracks (start : Vars) (done : List Key) (vars : Vars) (w : World) : Prop where
  read : ∀ k ∈ sharedKeys, k ∈ done → vars k = start k ∨ readSetting k (w.got k) = some (vars k)
  unread : ∀ k ∈ sharedKeys, k ∉ done → vars k = start k

theorem stable_tracks (done : List Key) :
    Stable (system timely) (Tracks start done vars) := by
  intro w w' h hr
  refine ⟨?_, h.unread⟩
  rw [setMany_got hr]
  exact h.read

theorem tracks_assign {done : List Key} {k : Key} (hk : k ∉ done) (stored : Text)
    (h : Tracks start done vars w) :
    Tracks start (k :: done) (assign vars k stored)
      { w with got := Function.update w.got k stored } := by
  have hother : ∀ k' ≠ k, assign vars k stored k' = vars k' := by
    intro k' hne
    rw [assign]
    cases readSetting k stored with
    | some v => exact Function.update_of_ne hne _ _
    | none => rfl
  constructor
  · intro k' hs hd
    by_cases hkk : k' = k
    · subst hkk
      rw [assign]
      cases hv : readSetting k' stored with
      | some v => exact .inr (by simp [hv])
      | none => exact .inl (h.unread k' hs hk)
    · rw [hother k' hkk]
      simpa [hkk] using h.read k' hs ((List.mem_cons.mp hd).resolve_left hkk)
  · intro k' hs hd
    rw [hother k' fun he => hd (he ▸ List.mem_cons_self)]
    exact h.unread k' hs fun hd' => hd (List.mem_cons_of_mem k hd')

theorem fresh_of_tracks {done : List Key} (hdone : ∀ k ∈ sharedKeys, k ∈ done)
    (h : Tracks start done vars w) (hw : Unchanged start w) : Fresh start vars := by
  intro k hk
  obtain hkept | hread := h.read k hk (hdone k hk)
  · exact hkept
  · exact (hw k hk _ hread).symm

def AtHead (start : Vars) : Stage → World → Prop
  | .connect vars, _ | .wait vars _ _ _, _ | .operate vars _, _ => Fresh start vars

abbrev AtEnd (start : Vars) : Stage ⊕ Unit → World → Prop := Sum.elim (AtHead start) fun _ _ => True

def Returns (R : α → Prop) : M α → Prop
  | .ret a => R a
  | .raise _ => True
  | .call _ k => ∀ a, Returns R (k a)

theorem safe_of_returns {R : α → Prop} {p : M α} (h : Returns R p) :
    Safe (system timely) (fun _ _ => True) (fun a _ => R a) (fun _ _ => True) p w := by
  induction p generalizing w with
  | ret a => exact h
  | raise e => trivial
  | call q k ih => exact fun w' _ => ⟨trivial, fun a w'' _ => ih a (h a)⟩

def GoesOn (vars : Vars) : Stage ⊕ Unit → Prop
  | .inl (.connect vars') | .inl (.wait vars' _ _ _) | .inl (.operate vars' _) => vars' = vars
  | .inr _ => True

theorem atEnd_of_goesOn (h : Fresh start vars) {s : Stage ⊕ Unit} (hs : GoesOn vars s) (w : World) :
    AtEnd start s w := by
  cases s with
  | inr => trivial
  | inl s =>
    cases s with
    | connect | wait | operate =>
      obtain rfl := hs
      exact h

theorem returns_whileRunning {R : Stage ⊕ Unit → Prop} {inside outside : Stage ⊕ Unit}
    (hin : R inside) (hout : R outside) : Returns R (whileRunning inside outside) := by
  intro run
  cases run with
  | false => exact hout
  | true => exact hin

theorem returns_reconnect (vars : Vars) : Returns (GoesOn vars) (reconnect vars) :=
  returns_whileRunning rfl trivial

theorem returns_waitBody (vars : Vars) (bootRev ms waited : Nat) :
    Returns (GoesOn vars) (waitBody vars bootRev ms waited) := by
  rw [waitBody]
  split
  · exact returns_reconnect vars
  intro run
  cases run with
  | false => exact returns_reconnect vars
  | true =>
    intro r
    simp only [Prog.pure_eq, Prog.bind]
    split
    · exact returns_reconnect vars
    · rfl

theorem returns_operateBody (vars : Vars) (bootRev : Nat) :
    Returns (GoesOn vars) (operateBody vars bootRev) := by
  intro r
  simp only [Prog.bind]
  split
  · exact returns_reconnect vars
  intro down
  cases down with
  | true => exact returns_reconnect vars
  | false =>
    intro stored
    simp only [Prog.pure_eq, Prog.bind]
    split
    · exact returns_reconnect vars
    intro _ beat
    cases beat with
    | false => exact returns_reconnect vars
    | true => exact returns_whileRunning rfl rfl

theorem returns_connected (vars : Vars) (bootRev : Nat) : Returns (GoesOn vars) (do
    if !(← opcEnabled) then reconnect vars
    else if !(← Prog.perform .endpointReachable) then pure (.inl (.wait vars bootRev 3000 0))
    else if !(← Prog.perform .connect) then pure (.inl (.wait vars bootRev 5000 0))
    else if !(← Prog.perform .setupVariables) then pure (.inl (.wait vars bootRev 5000 0))
    else whileRunning (.inl (.operate vars bootRev)) (.inl (.connect vars))) := by
  intro stored
  simp only [Prog.pure_eq, Prog.bind]
  split
  · exact returns_reconnect vars
  intro reachable
  cases reachable with
  | false => rfl
  | true =>
    intro connected
    cases connected with
    | false => rfl
    | true =>
      intro setup
      cases setup with
      | false => rfl
      | true => exact returns_whileRunning rfl rfl

theorem ends_applySettings {R : α → World → Prop} {f : Vars → M α} (ks done : List Key)
    (hnodup : (ks.reverse ++ done).Nodup) (vars : Vars) (w : World)
    (hw : Tracks start done vars w)
    (hf : ∀ vars w, Tracks start (ks.reverse ++ done) vars w →
      Safe (system timely) (fun _ _ => True) R (fun _ _ => True) (f vars) w) :
    Safe (system timely) (fun _ _ => True) R (fun _ _ => True) (applySettings ks vars >>= f) w := by
  induction ks generalizing done vars w with
  | nil => exact hf vars w hw
  | cons k ks ih =>
    simp only [applySettings, Prog.perform_bind, Prog.call_bind]
    rw [List.reverse_cons, List.append_assoc, List.singleton_append] at hnodup hf
    have hk : k ∉ done := (List.nodup_cons.mp (List.nodup_append.mp hnodup).2.1).1
    apply Safe.call (stable_tracks done) hw (fun _ _ => trivial)
    rintro w stored w' h ⟨-, rfl⟩
    exact ih (k :: done) hnodup (assign vars k stored) _ (tracks_assign hk stored h) hf

theorem ends_connectBody (h : Fresh start vars) (w : World) :
    Safe (system (Unchanged start)) (fun _ _ => True) (AtEnd start) (fun _ _ => True)
      (connectBody vars) w := by
  have hnodup : (bootstrapKeys.reverse ++ []).Nodup := by decide
  refine ends_applySettings bootstrapKeys [] hnodup vars w ⟨nofun, fun k hk _ => h k hk⟩
    fun vars w hw => ?_
  apply Safe.call (stable_tracks _) hw (fun _ _ => trivial)
  rintro w bootRev w' hw ⟨-, hun, rfl⟩
  have hfresh : Fresh start vars := fresh_of_tracks (by decide) hw (hun rfl)
  exact (safe_of_returns (returns_connected vars bootRev)).mono
    (fun _ w hs => atEnd_of_goesOn hfresh hs w) fun _ _ _ => trivial

theorem ends_spsWorkerLoop (stage : Stage) (w : World) (h : AtHead start stage w) :
    Safe (system (Unchanged start)) (fun _ _ => True) (AtEnd start) (fun _ _ => True)
      (spsWorkerLoop stage) w := by
  have hgoes : ∀ {vars} {p : M (Stage ⊕ Unit)}, Fresh start vars → Returns (GoesOn vars) p →
      Safe (system (Unchanged start)) (fun _ _ => True) (AtEnd start) (fun _ _ => True) p w :=
    fun hf hp => (safe_of_returns hp).mono (fun _ w hs => atEnd_of_goesOn hf hs w)
      fun _ _ _ => trivial
  cases stage with
  | connect vars => exact ends_connectBody h w
  | wait vars b ms waited => exact hgoes h (returns_waitBody vars b ms waited)
  | operate vars b => exact hgoes h (returns_operateBody vars b)

theorem fresh_of_operating {vars₀ : Vars} {w₀ : World} (h₀ : Fresh start vars₀) {vars : Vars}
    {b : Nat} {w : World}
    (hc : Reachable (system (Unchanged start)) spsWorkerLoop (.connect vars₀) w₀
      ⟨.ret (.inl (.operate vars b)), w⟩) : Fresh start vars := by
  have hstable : ∀ s, Stable (system (Unchanged start)) (AtHead start s) := by
    intro s
    cases s <;> exact fun _ _ h _ => h
  exact reachable_safe hstable (fun _ _ _ _ _ => trivial) (fun _ _ _ _ _ => trivial)
    ends_spsWorkerLoop (i := .connect vars₀) h₀ hc

end Sps

section Preview

open PreviewWorker (previewWorkerLoop previewJob workBody Job Drawing drawing_renderJob
  drawing_testrunJob drawing_sweepBody drawing_napBody)

variable {cfg : PreviewWorker.Config}

/-- The worker lists and reports with what it was started with. -/
def Own (cfg : PreviewWorker.Config) : PreviewWorker.Req → Prop
  | .listProjects maxCount => maxCount = cfg.maxProjects
  | .setProjects folder _ => folder = cfg.folderPath
  | _ => True

theorem own_of_drawing {α : Type} {p : PreviewWorker.M α} (hp : p.Only Drawing) :
    p.Within (Own cfg) := by
  refine hp.within fun q hq => ?_
  cases q with
  | listProjects | setProjects => exact hq.elim
  | _ => trivial

theorem own_listProjects : (PreviewWorker.listProjects cfg).Within (Own cfg) := by
  refine ⟨rfl, fun projects => ?_⟩
  cases projects with
  | ok projects => exact ⟨rfl, fun _ => trivial⟩
  | error e => exact ⟨rfl, fun _ => trivial⟩

theorem own_previewJob {cmd : AppState.PreviewCommand}
    {run : Job → PreviewWorker.M (PreviewWorker.Stage ⊕ Unit)} (hrun : ∀ job, (run job).Only Drawing) :
    (previewJob cmd run).Within (Own cfg) := by
  refine ⟨trivial, fun info => ?_⟩
  cases info with
  | error e => trivial
  | ok info =>
    cases info with
    | none => exact ⟨trivial, fun _ => trivial⟩
    | some filePath =>
      refine ⟨trivial, fun number => ⟨trivial, fun commands => ?_⟩⟩
      cases commands with
      | error e => trivial
      | ok size => exact own_of_drawing (hrun _)

theorem own_workBody : (workBody cfg).Within (Own cfg) := by
  refine ⟨trivial, fun run => ?_⟩
  cases run with
  | false => trivial
  | true =>
    refine ⟨trivial, fun cmd => ?_⟩
    cases cmd with
    | none => trivial
    | some cmd =>
      obtain ⟨action, project, intervalMs⟩ := cmd
      cases action with
      | list =>
        exact Prog.within_bind (p := PreviewWorker.listProjects cfg) own_listProjects fun _ => trivial
      | render => exact own_previewJob fun _ => drawing_renderJob
      | testrun => exact own_previewJob fun _ => drawing_testrunJob
      | other => trivial

theorem own_previewWorkerLoop (stage : PreviewWorker.Stage) :
    (previewWorkerLoop cfg stage).Within (Own cfg) := by
  cases stage with
  | start => exact Prog.within_bind own_listProjects fun _ => trivial
  | work => exact own_workBody
  | sweep job s => exact own_of_drawing (drawing_sweepBody s)
  | nap job s slept => exact own_of_drawing (drawing_napBody s slept)

variable {σ : Type} {S : System PreviewWorker.Req PreviewWorker.Ans σ}

theorem own_of_reachable {p : σ}
    {c : Conf PreviewWorker.Req PreviewWorker.Ans Text PreviewWorker.Stage Unit σ}
    (hc : Reachable S (previewWorkerLoop cfg) .start p c) {q : PreviewWorker.Req}
    {k : PreviewWorker.Ans q → PreviewWorker.M (PreviewWorker.Stage ⊕ Unit)}
    (hcode : c.code = .call q k) : Own cfg q := by
  have h := reachable_within own_previewWorkerLoop hc
  rw [hcode] at h
  exact h.1

end Preview

section Threads

open PreviewWorker (previewWorkerLoop)

variable {σ : Type} {timely : World → Prop} {S : System PreviewWorker.Req PreviewWorker.Ans σ}

structure Threads (timely : World → Prop) (S : System PreviewWorker.Req PreviewWorker.Ans σ)
    (vars : Vars) (w : World) (p : σ) (s : Service σ) : Prop where
  captured : s.captured = captured (applied w.cache vars)
  sps : Reachable (system timely) spsWorkerLoop (.connect (applied w.cache vars)) w s.sps
  preview : Reachable S (previewWorkerLoop s.captured) .start p s.preview
  manager : ∀ vars' b, s.manager = some (vars', b) → ∃ w', Reachable (system timely) spsWorkerLoop
    (.connect (applied w.cache vars)) w ⟨.ret (.inl (.operate vars' b)), w'⟩

theorem managerAfter_eq_some {m : Option (Vars × Nat)} {code : M (Stage ⊕ Unit)} {vars : Vars}
    {b : Nat} (h : managerAfter m code = some (vars, b)) :
    code = .ret (.inl (.operate vars b)) ∨ m = some (vars, b) := by
  unfold managerAfter at h
  split at h
  · cases h
    exact .inl rfl
  · cases h
  · exact .inr h

theorem threads_of_reachable {vars : Vars} {w : World} {p : σ} {s : Service σ}
    (h : Relation.ReflTransGen (Step timely S) (.started vars w p) s) :
    Threads timely S vars w p s := by
  induction h with
  | refl => exact ⟨rfl, .refl, .refl, fun _ _ h => by cases h⟩
  | tail _ hs ih =>
    cases hs with
    | preview hstep => exact ⟨ih.captured, ih.sps, ih.preview.tail hstep, ih.manager⟩
    | @sps c hstep =>
      refine ⟨ih.captured, ih.sps.tail hstep, ih.preview, fun vars' b hm => ?_⟩
      obtain hcode | hm := managerAfter_eq_some hm
      · refine ⟨c.world, ?_⟩
        rw [← hcode]
        exact ih.sps.tail hstep
      · exact ih.manager vars' b hm

/-- If each take-over finds the folder and the number as `main` did, then in every run of both
threads they work on the same folder. -/
theorem shares_of_unchanged (S : System PreviewWorker.Req PreviewWorker.Ans σ) (vars : Vars)
    (w : World) (p : σ) (s : Service σ)
    (h : Relation.ReflTransGen (Step (Unchanged (applied w.cache vars)) S) (.started vars w p) s) :
    Shares s := by
  intro vars' b hm _ q k hcode
  have ht := threads_of_reachable h
  obtain ⟨w', hop⟩ := ht.manager vars' b hm
  have hfresh : Fresh (applied w.cache vars) vars' := fresh_of_operating (fun _ _ => rfl) hop
  have hfolder : s.captured.folderPath = (managerConfig vars').folderPath := by
    rw [ht.captured]
    exact congrArg text (hfresh .folderPath (by decide)).symm
  have hown := own_of_reachable ht.preview hcode
  cases q with
  | listProjects maxCount =>
    refine ⟨hfolder, hown.trans ?_⟩
    rw [ht.captured]
    exact congrArg number (hfresh .MaximaleAnzahlProjekte (by decide)).symm
  | setProjects folder projects => exact hown.trans hfolder
  | getProjectInfo projectName => exact hfolder
  | _ => trivial

theorem reachable_sps {vars : Vars} {w : World} {p : σ} {c : Conf Req Ans Empty Stage Unit World}
    (hc : Reachable (system timely) spsWorkerLoop (.connect (applied w.cache vars)) w c) :
    ∃ m, (∀ vars' b, c.code = .ret (.inl (.operate vars' b)) → m = some (vars', b)) ∧
      Relation.ReflTransGen (Step timely S) (.started vars w p)
        { Service.started vars w p with sps := c, manager := m } := by
  induction hc with
  | refl => exact ⟨none, (fun _ _ h => by cases h), .refl⟩
  | tail _ hstep ih =>
    obtain ⟨m, -, hm⟩ := ih
    refine ⟨_, fun vars' b hcode => ?_, hm.tail (.sps _ hstep)⟩
    rw [hcode]
    rfl

theorem reachable_preview {s s' : Service σ} (h : Relation.ReflTransGen (Step timely S) s s')
    {c : Conf PreviewWorker.Req PreviewWorker.Ans Text PreviewWorker.Stage Unit σ}
    (hc : Relation.ReflTransGen (Lib.Program.Step S (previewWorkerLoop s'.captured)) s'.preview c) :
    Relation.ReflTransGen (Step timely S) s { s' with preview := c } := by
  induction hc with
  | refl => exact h
  | tail _ hstep ih => exact ih.tail (.preview _ hstep)

end Threads

section Runs

open PreviewWorker (previewWorkerLoop)

def listing (ms : List (Move Req Ans World)) (m : Option (Vars × Nat)) :
    Service PreviewJobs.World :=
  { Service.started (fun _ => .number 0) ones ({} : PreviewJobs.World) with
    sps := play spsWorkerLoop (ms ++ List.replicate 55 goOn)
      ⟨.ret (.inl (.connect (applied ones.cache fun _ => .number 0))), ones⟩
    manager := m
    preview := ⟨previewWorkerLoop (captured (applied ones.cache fun _ => .number 0)) .start, {}⟩ }

theorem listing_reachable {timely : World → Prop} {ms : List (Move Req Ans World)}
    (h : Reachable (system timely) spsWorkerLoop (.connect (applied ones.cache fun _ => .number 0))
      ones (listing ms none).sps) {vars : Vars} {b : Nat}
    (hop : operatingOf (listing ms none).sps = some (vars, b)) :
    Relation.ReflTransGen (Step timely PreviewJobs.system)
      (.started (fun _ => .number 0) ones {}) (listing ms (some (vars, b))) := by
  obtain ⟨m, hm, hs⟩ := reachable_sps (S := PreviewJobs.system) (p := ({} : PreviewJobs.World)) h
  obtain rfl := hm vars b (code_of_operatingOf hop)
  exact reachable_preview hs (.single (.loop _ _))

/-- The folder is changed on the settings page before the worker takes it over. -/
theorem shares_changedFolder : ¬∀ (vars : Vars) (w : World) (p : PreviewJobs.World)
    (s : Service PreviewJobs.World),
    Relation.ReflTransGen (Step (fun _ => True) PreviewJobs.system) (.started vars w p) s →
      Shares s := by
  intro h
  let ms : List (Move Req Ans World) :=
    .env (·.store [(.folderPath, ['2'])]) :: List.replicate 3 (.env goOnSetting)
  have hop : (operatingOf (listing ms none).sps).map (fun p => (text (p.1 .folderPath), p.2)) =
      some (['2'], 1) := by decide +kernel
  obtain ⟨⟨vars, b⟩, hcode, hvars⟩ := Option.map_eq_some_iff.mp hop
  obtain ⟨hfolder, rfl⟩ := Prod.mk.inj hvars
  have hc : Reachable (system fun _ => True) spsWorkerLoop
      (.connect (applied ones.cache fun _ => .number 0)) ones (listing ms none).sps := by
    refine play_reachable (fun m hm => ?_) (Stage.connect _) ones
    simp only [ms, List.mem_append, List.mem_cons, List.mem_replicate] at hm
    obtain (rfl | ⟨-, rfl⟩) | ⟨-, rfl⟩ := hm
    · exact fun w => .store w _
    · exact goOnSetting_sound
    · exact goOn_sound fun _ => trivial
  have hrev : (listing ms none).sps.world.bootRev = 1 := by decide +kernel
  have hcaptured : (listing ms none).captured.folderPath = ['1'] := by decide +kernel
  have huses := h _ _ _ _ (listing_reachable hc hcode) vars 1 rfl hrev (.listProjects 1) _ rfl
  exact absurd (hcaptured.symm.trans (huses.1.trans hfolder)) (by decide)

theorem goOn_soundIn :
    goOn.SoundIn (system (Unchanged (applied ones.cache fun _ => .number 0)))
      fun w => ∀ k, w.cache k = ['1'] ∧ w.got k = ['1'] := by
  intro q w hw
  cases q with
  | get k =>
    refine ⟨⟨rfl, rfl⟩, fun k' => ⟨(hw k').1, ?_⟩⟩
    simp only [Function.update_apply]
    split
    · exact (hw k).1
    · exact (hw k').2
  | bootstrapRevision inTakeOver =>
    refine ⟨⟨rfl, fun _ k hk v hv => ?_, rfl⟩, hw⟩
    rw [(hw k).2] at hv
    have hstart : ∀ k ∈ sharedKeys,
        readSetting k ['1'] = some (applied ones.cache (fun _ => .number 0) k) := by decide +kernel
    exact Option.some.inj ((hstart k hk).symm.trans hv)
  | _ => exact ⟨rfl, hw⟩

theorem shares_undisturbed : ∃ vars b, operatingOf (listing [] none).sps = some (vars, b) ∧
    Shares (listing [] (some (vars, b))) := by
  have hop : (operatingOf (listing [] none).sps).isSome = true := by decide +kernel
  obtain ⟨⟨vars, b⟩, hcode⟩ := Option.isSome_iff_exists.mp hop
  refine ⟨vars, b, hcode, ?_⟩
  apply shares_of_unchanged PreviewJobs.system (fun _ => .number 0) ones {} _
  refine listing_reachable (play_reachable_in
    (I := fun w => ∀ k, w.cache k = ['1'] ∧ w.got k = ['1']) (fun m hm => ?_)
    (Stage.connect _) fun _ => ⟨rfl, rfl⟩) hcode
  rw [List.nil_append] at hm
  obtain rfl := (List.mem_replicate.mp hm).2
  exact goOn_soundIn

end Runs

end Datenbereitstellung.PreviewFolder
