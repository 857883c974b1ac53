import Datenbereitstellung.HandshakeOutline

namespace Datenbereitstellung.PlcArrays

open Strings Files OpcUa ProjectManager HandshakeInvariants HandshakeOutline Lib.Program Lib.Rely

section Jobs

inductive Job
  | updateProjectList (maxProjects : Int)
  | writeDataBlock (data : List Text)
  deriving DecidableEq

def Job.node : Job → StringArrayNode
  | .updateProjectList _ => .ProjektArray
  | .writeDataBlock _ => .DataArray

def Job.perform (cfg : Config) : Job → M Bool
  | .updateProjectList maxProjects => ProjectManager.updateProjectList cfg maxProjects
  | .writeDataBlock data => writeDataBlockToSPS data

structure Rounds where
  todo : List Job
  last : Option (Job × Bool) := none
  deriving DecidableEq

/-- The service does one job after the other. -/
def serve (cfg : Config) : Process Req Ans Text Rounds Unit
  | ⟨[], _⟩ => pure (.inr ())
  | ⟨job :: todo, _⟩ => do
    let ok ← job.perform cfg
    pure (.inl { todo, last := some (job, ok) })

def listed : List Event → List DirEntry
  | [] => []
  | .call (.entries _) (.ok es) :: _ => es
  | _ :: log => listed log

def found (n : StringArrayNode) : List Event → Option StringArray
  | [] => none
  | .call (.readStrings m) a :: log =>
    if m = n ∧ a.success = true then some a.value else found n log
  | _ :: log => found n log

def Job.strings (log : List Event) : Job → List Text
  | .updateProjectList maxProjects => projectNames (listed log) maxProjects
  | .writeDataBlock data => data

/-- The array consists of the strings and otherwise only of empty ones. -/
def Shows (v : StringArray) (L : List Text) : Prop :=
  ∃ n, v.elements = L ++ List.replicate n []

end Jobs

section Patch

theorem shows_patched_iff {v : StringArray} {L es : List Text}
    (h : v.elements = L.map cStr ++ es) :
    Shows v L ↔ (∀ s ∈ L, '\x00' ∉ s) ∧ ∀ s ∈ es, s = [] := by
  rw [← map_cStr_eq_self_iff]
  constructor
  · rintro ⟨n, hn⟩
    obtain ⟨hL, he⟩ := List.append_inj (h.symm.trans hn) (by simp)
    refine ⟨hL, fun s hs => ?_⟩
    rw [he] at hs
    exact List.eq_of_mem_replicate hs
  · rintro ⟨hL, he⟩
    rw [hL] at h
    exact ⟨es.length, by rw [h, List.eq_replicate_of_mem he, List.length_replicate]⟩

end Patch

section Writes

variable {α : Type} {w : World Unit} {job : Job}

def anyAnswer (_ : World Unit) (q : Req) (_ : Ans q) : Prop := True

/-- The folder and the nodes may change at any time, but nobody else writes the string arrays. -/
def leavesArrays (w w' : World Unit) : Prop :=
  w'.nodes.strings = w.nodes.strings ∧ w'.log = w.log

/-- The job's strings stand in the array, and behind them what was found there. -/
def Written (job : Job) (w : World Unit) : Prop :=
  ∃ v, found job.node w.log = some v ∧ (w.nodes.strings job.node).elements =
    (job.strings w.log).map cStr ++ v.elements.drop (job.strings w.log).length

def Harmless : Req → Prop
  | .readStrings _ | .writeStrings _ _ | .entries _ => False
  | _ => True

theorem strings_call {q : Req} (hq : ∀ path, q ≠ .entries path) (a : Ans q) (log : List Event) :
    job.strings (.call q a :: log) = job.strings log := by
  cases job with
  | writeDataBlock => rfl
  | updateProjectList n =>
    cases q with
    | entries path => exact (hq path rfl).elim
    | _ => rfl

theorem found_call {q : Req} (hq : ∀ n, q ≠ .readStrings n) (n : StringArrayNode) (a : Ans q)
    (log : List Event) : found n (.call q a :: log) = found n log := by
  cases q with
  | readStrings m => exact (hq m rfl).elim
  | _ => rfl

theorem written_after {q : Req} (hq : Harmless q) (h : Written job w) (a : Ans q) :
    Written job (w.after q a) := by
  obtain ⟨v, hv, he⟩ := h
  have hs : job.strings (w.after q a).log = job.strings w.log :=
    strings_call (by rintro path rfl; exact hq) a w.log
  refine ⟨v, (found_call (by rintro n rfl; exact hq) _ a w.log).trans hv, ?_⟩
  have hn : (w.after q a).nodes.strings = w.nodes.strings :=
    after_strings w.nodes (by rintro n v rfl; exact hq) a
  rw [hs, hn]
  exact he

theorem stable_written : Stable (system anyAnswer leavesArrays) (Written job) := by
  rintro w w' ⟨v, hv, he⟩ ⟨hs, hl⟩
  refine ⟨v, by rw [hl]; exact hv, ?_⟩
  rw [hs, hl]
  exact he

theorem keeps_written : Keeps (system anyAnswer leavesArrays) Harmless (Written job) := by
  rintro q hq w a w' h ⟨-, -, rfl⟩
  exact written_after hq h a

theorem harmless_logAndPushError (message : Text) (code : Int) :
    (logAndPushError message code).Only Harmless := by
  refine Prog.only_bind ?_ fun _ => trivial
  simp only [pushErrorMessage, Prog.perform_bind]
  refine ⟨trivial, fun _ => ⟨trivial, fun _ => ⟨trivial, fun _ => ?_⟩⟩⟩
  dsimp only
  split <;> trivial

abbrev Ends (Q : α → World Unit → Prop) (X : Text → World Unit → Prop) (p : M α)
    (w : World Unit) : Prop :=
  Safe (system anyAnswer leavesArrays) (fun _ _ => True) Q X p w

variable {Q : α → World Unit → Prop} {X : Text → World Unit → Prop}

theorem ends_message {A : World Unit → Prop}
    (hA : Stable (system anyAnswer leavesArrays) A)
    (hk : Keeps (system anyAnswer leavesArrays) Harmless A) {p : M Unit} (hp : p.Only Harmless)
    (hw : A w) {f : Unit → M α} (hf : ∀ w, A w → Ends Q X (f ()) w) : Ends Q X (p >>= f) w :=
  Safe.only_bind hA hk (fun _ _ _ _ => trivial) hp hw fun _ w h => hf w h

theorem ends_failed {message : Text} {code : Int} :
    Ends (fun ok w => ok = true → Written job w) X
      (logAndPushError message code >>= fun _ => pure false) w := by
  refine ends_message (A := fun _ => True) (fun _ _ _ _ => trivial) (fun _ _ _ _ _ _ _ => trivial)
    (harmless_logAndPushError _ _) trivial fun _ _ h => ?_
  cases h

theorem ends_writeStringArray (job : Job) {L : List Text} (hw : job.strings w.log = L) :
    Ends (fun r w => r.success = true → Written job w) X (writeStringArray job.node [L] 0 0) w := by
  simp only [writeStringArray, Prog.perform_bind, List.length_singleton, List.headD_cons]
  refine Safe.call (A := fun w => job.strings w.log = L) ?_ hw (fun _ _ => trivial) ?_
  · rintro w w' h ⟨-, hl⟩
    rw [hl]
    exact h
  rintro w a w₁ h ⟨-, -, rfl⟩
  by_cases hread : (!a.success || decide (a.value.elements.length = 0)) = true
  · rw [if_pos hread]
    intro hr
    cases hr
  rw [if_neg hread]
  by_cases hfit : 0 + 1 > (dims a.value).1 ∨ 0 + L.length > (dims a.value).2
  · simp only [hfit, if_true]
    intro hr
    cases hr
  simp only [hfit, if_false]
  have hs : a.success = true := by
    simp only [Bool.or_eq_true, Bool.not_eq_true', not_or, Bool.not_eq_false] at hread
    exact hread.1
  refine Safe.call (A := fun w => job.strings w.log = L ∧ found job.node w.log = some a.value) ?_
    ⟨?_, ?_⟩ (fun _ _ => trivial) ?_
  · rintro w w' h ⟨-, hl⟩
    rw [hl]
    exact h
  · exact (strings_call (by rintro _ ⟨⟩) a w.log).trans h
  · simp [World.after, found, hs]
  rintro w b w₂ ⟨hL, hv⟩ ⟨-, -, rfl⟩
  cases hb : b.success with
  | false =>
    intro hr
    cases hr
  | true =>
    intro _
    refine ⟨a.value, hv, ?_⟩
    have hL' : job.strings (w.after (.writeStrings job.node
        (a.value.patched 0 0 [L] L.length)) b).log = L :=
      (strings_call (by rintro _ ⟨⟩) b w.log).trans hL
    rw [hL']
    simp only [World.after, Nodes.after, hb, if_true, setStrings_strings]
    exact patched_elements (length_le_of_fits hfit)

theorem ends_writeDataBlockToSPS (data : List Text) (w : World Unit) :
    Ends (fun ok w => ok = true → Written (.writeDataBlock data) w) X
      (writeDataBlockToSPS data) w := by
  refine Safe.bind ((ends_writeStringArray (.writeDataBlock data) rfl).mono ?_ fun _ _ h => h)
  intro r w h
  cases hr : r.success with
  | false => exact ends_failed
  | true => exact fun _ => h hr

theorem ends_writeProjectListToSPS {maxProjects : Int} {L : List Text}
    (hw : (Job.updateProjectList maxProjects).strings w.log = L) :
    Ends (fun ok w => ok = true → Written (.updateProjectList maxProjects) w) X
      (writeProjectListToSPS L) w := by
  refine Safe.bind ((ends_writeStringArray (.updateProjectList maxProjects) hw).mono ?_
    fun _ _ h => h)
  intro r w h
  cases hr : r.success with
  | false => exact ends_failed
  | true =>
    refine Safe.only_bind (N := Harmless) stable_written keeps_written (fun _ _ _ _ => trivial)
      (p := writeBool .ProjektlistUpdated true) ⟨trivial, fun _ => trivial⟩ (h hr) ?_
    intro _ w h
    refine Safe.only_bind (N := Harmless) stable_written keeps_written (fun _ _ _ _ => trivial)
      (p := pushInfo _) ⟨trivial, fun _ => trivial⟩ h ?_
    exact fun _ w h _ => h

theorem ends_updateProjectList (cfg : Config) (maxProjects : Int) (w : World Unit) :
    Ends (fun ok w => ok = true → Written (.updateProjectList maxProjects) w) X
      (updateProjectList cfg maxProjects) w := by
  refine Safe.handle (Safe.mono (Q := fun ok w => ok = true →
    Written (.updateProjectList maxProjects) w) (X := fun _ _ => True) ?_ (fun _ _ h => h)
    fun _ _ _ => ends_failed)
  simp only [listProjects, Prog.perform_bind, Prog.call_bind]
  apply Safe.call (A := fun _ => True) (fun _ _ _ _ => trivial) trivial (fun _ _ => trivial)
  rintro w a w₁ - -
  match a with
  | .error e => trivial
  | .ok none => trivial
  | .ok (some kind) =>
    apply Safe.call (A := fun _ => True) (fun _ _ _ _ => trivial) trivial (fun _ _ => trivial)
    rintro w b w₁ - ⟨-, -, rfl⟩
    match b with
    | .error e => trivial
    | .ok es =>
      simp only [Prog.pure_eq, Prog.bind]
      split
      · exact ends_failed
      · split
        · exact ends_failed
        · exact ends_writeProjectListToSPS rfl

end Writes

section Run

def AfterLast (r : Rounds) (w : World Unit) : Prop :=
  ∀ job, r.last = some (job, true) → Written job w

theorem ends_serve (cfg : Config) (r : Rounds) (w : World Unit) :
    Ends (Sum.elim AfterLast fun _ _ => True) (fun _ _ => True) (serve cfg r) w := by
  obtain ⟨_ | ⟨job, todo⟩, last⟩ := r
  · trivial
  · have hjob : Ends (fun ok w => ok = true → Written job w) (fun _ _ => True)
        (job.perform cfg) w := by
      cases job with
      | updateProjectList maxProjects => exact ends_updateProjectList cfg maxProjects w
      | writeDataBlock data => exact ends_writeDataBlockToSPS data w
    refine Safe.bind (hjob.mono ?_ fun _ _ h => h)
    rintro ok w h job' ⟨⟩
    exact h rfl

theorem written_of_reachable {cfg : Config} {r r' : Rounds} {w₀ w : World Unit}
    (hr : r.last = none) (hc : Reachable (system anyAnswer leavesArrays) (serve cfg) r w₀
      ⟨.ret (.inl r'), w⟩) : AfterLast r' w := by
  have hstable : ∀ r, Stable (system anyAnswer leavesArrays) (AfterLast r) :=
    fun r w w' h hs job hj => stable_written w w' (h job hj) hs
  refine reachable_safe (P := fun _ _ => True) (X := fun _ _ => True) hstable
    (fun _ _ _ _ _ => trivial) (fun _ _ _ _ _ => trivial) (fun r w _ => ends_serve cfg r w) ?_ hc
  intro job hj
  rw [hr] at hj
  cases hj

/-- After each job that went well its array shows the job's strings and nothing else, exactly if
these have no NUL and the array had nothing but empty strings behind them before. -/
theorem shows_iff (cfg : Config) (jobs : List Job) (w₀ : World Unit) (todo : List Job) (job : Job)
    (w : World Unit) (hc : Reachable (system anyAnswer leavesArrays) (serve cfg)
      { todo := jobs } w₀ ⟨.ret (.inl { todo, last := some (job, true) }), w⟩) :
    ∃ v, found job.node w.log = some v ∧ (Shows (w.nodes.strings job.node) (job.strings w.log) ↔
      (∀ s ∈ job.strings w.log, '\x00' ∉ s) ∧
        ∀ s ∈ v.elements.drop (job.strings w.log).length, s = []) := by
  obtain ⟨v, hv, he⟩ := written_of_reachable (r := { todo := jobs }) rfl hc job rfl
  exact ⟨v, hv, shows_patched_iff he⟩

def folder : Config := { folderPath := ['d'], imageSizeX := 1, imageSizeY := 1, lenDataArray := 1 }

def holding (names : List Text) : FileSystem where
  status _ := .ok (some .directory)
  content _ := none
  entries _ := .ok (names.map fun name => { filename := name, isRegularFile := true })

def projectA : Text := ['a', '.', 't', 'a', 'p']
def projectB : Text := ['b', '.', 't', 'a', 'p']

def twoProjects : World Unit := { nodes := emptyNodes, fs := holding [projectA, projectB], plc := () }

def deleteB (w : World Unit) : World Unit := { w with fs := holding [projectA] }

def runFromTwo (jobs : List Job) (ms : List (Move Req Ans (World Unit))) :
    Conf Req Ans Text Rounds Unit (World Unit) :=
  play (serve folder) ms ⟨.ret (.inl { todo := jobs }), twoProjects⟩

def headOf (c : Conf Req Ans Text Rounds Unit (World Unit)) : Option Rounds :=
  match c.code with
  | .ret (.inl r) => some r
  | _ => none

theorem reachable_runFromTwo {jobs : List Job} {ms : List (Move Req Ans (World Unit))}
    (hms : ∀ m ∈ ms, m = goOn ∨ m = .env deleteB) {r : Rounds}
    (hr : headOf (runFromTwo jobs ms) = some r) :
    Reachable (system anyAnswer leavesArrays) (serve folder) { todo := jobs } twoProjects
      ⟨.ret (.inl r), (runFromTwo jobs ms).world⟩ := by
  have hcode : (runFromTwo jobs ms).code = .ret (.inl r) := by
    unfold headOf at hr
    split at hr
    · rename_i r' hcode
      rw [hcode, Option.some.inj hr]
    · cases hr
  rw [← hcode]
  refine play_reachable (fun m hm => ?_) (Rounds.mk jobs none) twoProjects
  obtain rfl | rfl := hms m hm
  · exact goOn_sound fun _ _ => trivial
  · exact fun w => ⟨rfl, rfl⟩

def shorterList : List (Move Req Ans (World Unit)) :=
  List.replicate 7 goOn ++ .env deleteB :: List.replicate 7 goOn

theorem shows_shorterList : ¬∀ (cfg : Config) (jobs : List Job) (w₀ : World Unit)
    (todo : List Job) (job : Job) (w : World Unit),
    Reachable (system anyAnswer leavesArrays) (serve cfg) { todo := jobs } w₀
      ⟨.ret (.inl { todo, last := some (job, true) }), w⟩ →
      Shows (w.nodes.strings job.node) (job.strings w.log) := by
  intro h
  have hr : headOf (runFromTwo [.updateProjectList 2, .updateProjectList 2] shorterList) =
      some { todo := [], last := some (.updateProjectList 2, true) } := by decide +kernel
  obtain ⟨n, hn⟩ := h folder _ _ _ _ _ (reachable_runFromTwo (by simp [shorterList]) hr)
  have hs : (Job.updateProjectList 2).strings (runFromTwo [.updateProjectList 2,
      .updateProjectList 2] shorterList).world.log = [projectA] := by decide +kernel
  have he : ((runFromTwo [.updateProjectList 2, .updateProjectList 2]
      shorterList).world.nodes.strings .ProjektArray).elements = [projectA, projectB] := by decide +kernel
  rw [hs, show Job.node (.updateProjectList 2) = .ProjektArray from rfl, he] at hn
  have hb : [projectB] = List.replicate n [] := (List.cons.inj hn).2
  have hmem : projectB ∈ List.replicate n [] := hb ▸ List.mem_singleton_self projectB
  exact absurd (List.eq_of_mem_replicate hmem) (by decide)

theorem shows_firstList :
    let job := Job.updateProjectList 2
    let w := (runFromTwo [job] (List.replicate 7 goOn)).world
    ∃ v, found job.node w.log = some v ∧ (Shows (w.nodes.strings job.node) (job.strings w.log) ↔
      (∀ s ∈ job.strings w.log, '\x00' ∉ s) ∧
        ∀ s ∈ v.elements.drop (job.strings w.log).length, s = []) := by
  have hr : headOf (runFromTwo [.updateProjectList 2] (List.replicate 7 goOn)) =
      some { todo := [], last := some (.updateProjectList 2, true) } := by decide +kernel
  exact shows_iff folder _ _ _ _ _ (reachable_runFromTwo (by simp) hr)

end Run

end Datenbereitstellung.PlcArrays
