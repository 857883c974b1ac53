import Datenbereitstellung.PlcArrays

namespace Datenbereitstellung.DroppedProjects

open Strings Files OpcUa ProjectManager Lib.Program
open Handshake (Quiet)
open PlcArrays (folder projectA projectB)
open TransferRefinement (quiet_logAndPushError)

section Folder

/-- The names of all regular project files. -/
def tapFiles (es : List DirEntry) : List Text :=
  (es.filter fun entry => entry.isRegularFile &&
    extension entry.filename == ['.', 't', 'a', 'p']).map (·.filename)

theorem projectNames_eq (es : List DirEntry) (maxCount : Int) :
    projectNames es maxCount = (tapFiles es).take (toSize maxCount) := by
  rw [projectNames]
  by_cases h : (tapFiles es).length > toSize maxCount
  · exact if_pos h
  · rw [List.take_of_length_le (not_lt.mp h)]
    exact if_neg h

theorem length_projectNames_le (es : List DirEntry) (maxCount : Int) :
    (projectNames es maxCount).length ≤ toSize maxCount := by
  rw [projectNames_eq]
  exact List.length_take_le _ _

/-- The folder has these entries; it may also fail to be read. -/
def FolderHolds (es : List DirEntry) : (q : Req) → Ans q → Prop
  | .entries _, a => ∀ es', a = .ok es' → es' = es
  | _, _ => True

end Folder

section Calls

def Writes (name : Text) : Called Req Ans → Prop
  | ⟨.writeStrings .ProjektArray v, a⟩ => a.success = true ∧ name ∈ v.elements
  | _ => False

def SetsUpdated : Called Req Ans → Prop
  | ⟨.writeBool .ProjektlistUpdated true, _⟩ => True
  | _ => False

def Changes : Called Req Ans → Prop
  | ⟨.writeStrings .ProjektArray _, a⟩ => a.success = true
  | ⟨.writeBool .ProjektlistUpdated _, a⟩ => a.success = true
  | _ => False

def Complains (tr : List (Called Req Ans)) : Prop :=
  ∃ message code, [.writeBool .Error true, .writeInfoText message 255,
    .writeInt16 .StatusCode (toInt16 code)] <:+: tr.map Sigma.fst

def Announced (tr : List (Called Req Ans)) (ok : Bool) : Prop := ok = true ∨ ∃ e ∈ tr, SetsUpdated e

variable {A : (q : Req) → Ans q → Prop} {tr : List (Called Req Ans)} {ok : Bool}

theorem announced_append {tr' : List (Called Req Ans)} (h : ∀ e ∈ tr, ¬SetsUpdated e) :
    Announced (tr ++ tr') ok ↔ Announced tr' ok := by
  apply or_congr_right
  constructor
  · rintro ⟨e, he, hset⟩
    obtain he | he := List.mem_append.mp he
    · exact absurd hset (h e he)
    · exact ⟨e, he, hset⟩
  · rintro ⟨e, he, hset⟩
    exact ⟨e, List.mem_append_right _ he, hset⟩

theorem not_setsUpdated_of_quiet {e : Called Req Ans} (h : Quiet e.1) : ¬SetsUpdated e := by
  obtain ⟨q, a⟩ := e
  cases q with
  | writeBool n v =>
    obtain rfl : n = .Error := h
    exact id
  | _ => exact id

theorem not_announced_failed {message : Text} {code : Int}
    (h : Prog.RunsBy A (logAndPushError message code >>= fun _ => pure false) tr ok) :
    ¬Announced tr ok := by
  obtain ⟨tr₁, _, tr₂, h₁, h₂, rfl⟩ := Prog.runsBy_bind h
  cases h₂
  rw [announced_append fun e he =>
    not_setsUpdated_of_quiet ((quiet_logAndPushError _ _).runsBy h₁ e he)]
  rintro (hok | ⟨e, he, -⟩)
  · cases hok
  · cases he

theorem runsBy_writeStringArray {L : List Text} {r : Written}
    (h : Prog.RunsBy A (writeStringArray .ProjektArray [L] 0 0) tr r) :
    (∀ e ∈ tr, ¬SetsUpdated e) ∧
      (r.success = true → ∀ name ∈ L, ∃ e ∈ tr, Writes (cStr name) e) := by
  have hread : ∀ a, ¬SetsUpdated ⟨.readStrings .ProjektArray, a⟩ := fun _ h => h
  have hwrite : ∀ v a, ¬SetsUpdated ⟨.writeStrings .ProjektArray v, a⟩ := fun _ _ h => h
  obtain ⟨reading, tr₁, -, rfl, h₁⟩ := Prog.runsBy_call h
  by_cases hfail : (!reading.success || decide (reading.value.elements.length = 0)) = true
  · simp only [Prog.bind, hfail, if_true] at h₁
    cases h₁
    exact ⟨by simp [hread], fun hr => by cases hr⟩
  simp only [Prog.bind, hfail, List.length_singleton, List.headD_cons] at h₁
  by_cases hfit : 0 + 1 > (dims reading.value).1 ∨ 0 + L.length > (dims reading.value).2
  · simp only [hfit, if_true] at h₁
    cases h₁
    exact ⟨by simp [hread], fun hr => by cases hr⟩
  simp only [hfit, if_false] at h₁
  obtain ⟨written, tr₂, -, rfl, h₂⟩ := Prog.runsBy_call h₁
  cases hsuccess : written.success with
  | false =>
    simp only [Prog.bind, hsuccess, Bool.false_eq_true, if_false] at h₂
    cases h₂
    exact ⟨by simp [hread, hwrite], fun hr => by cases hr⟩
  | true =>
    simp only [Prog.bind, hsuccess, if_true] at h₂
    cases h₂
    refine ⟨by simp [hread, hwrite], fun _ name hname => ?_⟩
    refine ⟨_, List.mem_cons_of_mem _ (List.mem_singleton_self _), hsuccess, ?_⟩
    rw [patched_elements (length_le_of_fits hfit)]
    exact List.mem_append_left _ (List.mem_map_of_mem hname)

theorem runsBy_writeProjectListToSPS {L : List Text}
    (h : Prog.RunsBy A (writeProjectListToSPS L) tr ok) (hann : Announced tr ok) :
    ∀ name ∈ L, ∃ e ∈ tr, Writes (cStr name) e := by
  obtain ⟨tr₁, r, tr₂, h₁, h₂, rfl⟩ := Prog.runsBy_bind h
  obtain ⟨hquiet, hwritten⟩ := runsBy_writeStringArray h₁
  cases hr : r.success with
  | true =>
    intro name hname
    obtain ⟨e, he, hwrites⟩ := hwritten hr name hname
    exact ⟨e, List.mem_append_left _ he, hwrites⟩
  | false =>
    simp only [hr, Bool.not_false, if_true] at h₂
    rw [announced_append hquiet] at hann
    exact absurd hann (not_announced_failed h₂)

theorem only_failed (message : Text) (code : Int) :
    (logAndPushError message code >>= fun _ => .ret false).Only fun _ => True :=
  Prog.only_bind ((quiet_logAndPushError _ _).mono fun _ _ => trivial) fun _ => trivial

theorem only_writeProjectListToSPS (L : List Text) :
    (writeProjectListToSPS L).Only fun _ => True := by
  have hwrite : (writeStringArray .ProjektArray [L] 0 0).Only fun _ => True := by
    refine ⟨trivial, fun reading => ?_⟩
    simp only [Prog.bind]
    split
    · trivial
    split
    · trivial
    refine ⟨trivial, fun written => ?_⟩
    simp only [Prog.bind]
    split <;> trivial
  refine Prog.only_bind hwrite fun r => ?_
  split
  · exact only_failed _ _
  · exact ⟨trivial, fun _ => ⟨trivial, fun _ => trivial⟩⟩

end Calls

section Update

variable {cfg : Config} {maxProjects : Int} {es : List DirEntry}
variable {tr : List (Called Req Ans)} {ok : Bool}

theorem runsBy_updateProjectList
    (h : Prog.RunsBy (FolderHolds es) (updateProjectList cfg maxProjects) tr ok)
    (hann : Announced tr ok) :
    ∀ name ∈ projectNames es maxProjects, ∃ e ∈ tr, Writes (cStr name) e := by
  obtain ⟨found, tr₁, -, rfl, h₁⟩ := Prog.runsBy_call h
  rw [← List.singleton_append, announced_append (by simp [SetsUpdated])] at hann
  cases found with
  | error e => exact absurd hann (not_announced_failed h₁)
  | ok found =>
    cases found with
    | none => exact absurd hann (not_announced_failed h₁)
    | some kind =>
      obtain ⟨listed, tr₂, hlisted, rfl, h₂⟩ := Prog.runsBy_call h₁
      rw [← List.singleton_append, announced_append (by simp [SetsUpdated])] at hann
      cases listed with
      | error e => exact absurd hann (not_announced_failed h₂)
      | ok es' =>
        obtain rfl : es' = es := hlisted es' rfl
        simp only [Prog.bind, Prog.pure_eq] at h₂
        by_cases hempty : (projectNames es' maxProjects).isEmpty = true
        · rw [if_pos hempty, (only_failed _ _).handle_eq] at h₂
          exact absurd hann (not_announced_failed h₂)
        · have hlen := not_lt.mpr (length_projectNames_le es' maxProjects)
          rw [if_neg hempty, if_neg hlen, (only_writeProjectListToSPS _).handle_eq] at h₂
          intro name hname
          obtain ⟨e, he, hwrites⟩ := runsBy_writeProjectListToSPS h₂ hann name hname
          exact ⟨e, List.mem_cons_of_mem _ (List.mem_cons_of_mem _ he), hwrites⟩

def emptyArray (n : Nat) : StringArray where
  elements := List.replicate n []
  arrayDimensions := []
  length_eq h := absurd rfl h

def updateCalls (cfg : Config) (es : List DirEntry) (L : List Text) : List (Called Req Ans) :=
  [⟨.status cfg.folderPath, .ok (some .directory)⟩, ⟨.entries cfg.folderPath, .ok es⟩,
    ⟨.readStrings .ProjektArray, ⟨emptyArray L.length, true, 0⟩⟩,
    ⟨.writeStrings .ProjektArray ((emptyArray L.length).patched 0 0 [L] L.length), ⟨true, 0⟩⟩,
    ⟨.writeBool .ProjektlistUpdated true, ⟨true, 0⟩⟩,
    ⟨.writeInfoText (lit "Projektliste aktualisiert") 255, ⟨true, 0⟩⟩]

theorem runsBy_updateCalls (cfg : Config) (hne : projectNames es maxProjects ≠ []) :
    Prog.RunsBy (FolderHolds es) (updateProjectList cfg maxProjects)
      (updateCalls cfg es (projectNames es maxProjects)) true := by
  have hempty : ¬(projectNames es maxProjects).isEmpty = true := by simpa using hne
  have hlen := not_lt.mpr (length_projectNames_le es maxProjects)
  have hentries : FolderHolds es (.entries cfg.folderPath) (.ok es) :=
    fun es' h => (Except.ok.inj h).symm
  have hplaces : ¬(emptyArray (projectNames es maxProjects).length).elements.length = 0 := by
    simpa [emptyArray] using hne
  have hdims : dims (emptyArray (projectNames es maxProjects).length) =
      (1, (projectNames es maxProjects).length) := by
    simp [dims, emptyArray]
  apply Prog.RunsBy.call _ trivial
  apply Prog.RunsBy.call _ hentries
  simp only [Prog.bind, Prog.pure_eq]
  rw [if_neg hempty, if_neg hlen, (only_writeProjectListToSPS _).handle_eq]
  apply Prog.RunsBy.call _ trivial
  simp only [Prog.bind, hplaces, hdims, List.length_singleton, List.headD_cons, Nat.zero_add,
    lt_self_iff_false, or_self, if_false, decide_false, Bool.not_true, Bool.or_false,
    Bool.false_eq_true]
  apply Prog.RunsBy.call _ trivial
  apply Prog.RunsBy.call _ trivial
  apply Prog.RunsBy.call _ trivial
  apply Prog.RunsBy.ret

theorem writes_updateCalls (cfg : Config) {L : List Text} {name : Text} {e : Called Req Ans}
    (he : e ∈ updateCalls cfg es L) (hwrites : Writes name e) : name ∈ L.map cStr := by
  have hlen : L.length ≤ (emptyArray L.length).elements.length := by simp [emptyArray]
  have helements : ((emptyArray L.length).patched 0 0 [L] L.length).elements = L.map cStr := by
    rw [patched_elements hlen]
    simp [emptyArray]
  simp only [updateCalls, List.mem_cons, List.not_mem_nil, or_false] at he
  obtain rfl | rfl | rfl | rfl | rfl | rfl := he
  case inr.inr.inr.inl =>
    rw [← helements]
    exact hwrites.2
  all_goals exact hwrites.elim

end Update

section Statement

/-- What is announced is the whole folder, and a folder that is too large is refused. -/
def NoneDropped (cfg : Config) (maxProjects : Int) (es : List DirEntry) : Prop :=
  ∀ (tr : List (Called Req Ans)) (ok : Bool),
    Prog.RunsBy (FolderHolds es) (updateProjectList cfg maxProjects) tr ok →
    (Announced tr ok → ∀ name ∈ tapFiles es, ∃ e ∈ tr, Writes name e) ∧
    (maxProjects < (tapFiles es).length →
      Complains tr ∧ (∀ e ∈ tr, ¬Changes e) ∧ ok = false)

theorem toSize_of_int {i : Int} (h₀ : 0 ≤ i) (h : i < 2 ^ 31) : (toSize i : Int) = i := by
  rw [toSize]
  omega

theorem not_nul_mem_cStr (s : Text) : '\x00' ∉ cStr s := by
  intro h
  have hne := List.mem_takeWhile_imp h
  simp at hne

theorem noneDropped_of_few {cfg : Config} {maxProjects : Int} {es : List DirEntry}
    (hfew : (tapFiles es).length ≤ toSize maxProjects)
    (hnul : ∀ name ∈ tapFiles es, '\x00' ∉ name) (tr : List (Called Req Ans)) (ok : Bool)
    (h : Prog.RunsBy (FolderHolds es) (updateProjectList cfg maxProjects) tr ok)
    (hann : Announced tr ok) : ∀ name ∈ tapFiles es, ∃ e ∈ tr, Writes name e := by
  intro name hname
  have hall : projectNames es maxProjects = tapFiles es := by
    rw [projectNames_eq, List.take_of_length_le hfew]
  rw [← (cStr_eq_self_iff name).mpr (hnul name hname)]
  exact runsBy_updateProjectList h hann name (by rwa [hall])

theorem projectNames_ne_nil {maxProjects : Int} {es : List DirEntry} (hmax : 1 ≤ toSize maxProjects)
    (hne : tapFiles es ≠ []) : projectNames es maxProjects ≠ [] := by
  rw [projectNames_eq, ne_eq, List.take_eq_nil_iff, not_or]
  exact ⟨by omega, hne⟩

/-- No project is dropped exactly if the folder holds at most as many as are allowed. -/
theorem noneDropped_iff (cfg : Config) {maxProjects : Int} (hmin : 1 ≤ maxProjects)
    (hmax : maxProjects < 2 ^ 31) (es : List DirEntry) :
    NoneDropped cfg maxProjects es ↔
      (tapFiles es).length ≤ maxProjects ∧ ∀ name ∈ tapFiles es, '\x00' ∉ name := by
  have hsize := toSize_of_int (by omega) hmax
  constructor
  · intro h
    have hrun (hne : projectNames es maxProjects ≠ []) :
        Prog.RunsBy (FolderHolds es) (updateProjectList cfg maxProjects)
          (updateCalls cfg es (projectNames es maxProjects)) true := runsBy_updateCalls cfg hne
    have hfew : (tapFiles es).length ≤ maxProjects := by
      by_contra hmany
      have hne : tapFiles es ≠ [] := by
        rintro hnil
        simp [hnil] at hmany
        omega
      have hdropped := (h _ _ (hrun (projectNames_ne_nil (by omega) hne))).2 (not_le.mp hmany)
      cases hdropped.2.2
    refine ⟨hfew, fun name hname hnul => ?_⟩
    have hne : projectNames es maxProjects ≠ [] :=
      projectNames_ne_nil (by omega) (List.ne_nil_of_mem hname)
    obtain ⟨e, he, hwrites⟩ := (h _ _ (hrun hne)).1 (.inl rfl) name hname
    obtain ⟨s, -, rfl⟩ := List.mem_map.mp (writes_updateCalls cfg he hwrites)
    exact not_nul_mem_cStr s hnul
  · rintro ⟨hfew, hnul⟩ tr ok hrun
    refine ⟨noneDropped_of_few (by omega) hnul tr ok hrun, fun hmany => ?_⟩
    omega

def files (names : List Text) : List DirEntry :=
  names.map fun name => { filename := name, isRegularFile := true }

theorem noneDropped_oneProject : NoneDropped folder 1 (files [projectA]) :=
  (noneDropped_iff folder (by decide) (by decide) (files [projectA])).mpr
    ⟨by decide, by decide⟩

theorem not_noneDropped_twoProjects : ¬∀ (cfg : Config) (maxProjects : Int) (es : List DirEntry),
    1 ≤ maxProjects → NoneDropped cfg maxProjects es := by
  intro h
  have hrun : Prog.RunsBy (FolderHolds (files [projectA, projectB])) (updateProjectList folder 1)
      _ true := runsBy_updateCalls folder (by decide)
  obtain ⟨-, -, hok⟩ := (h folder 1 _ le_rfl _ _ hrun).2 (by decide)
  cases hok

end Statement

end Datenbereitstellung.DroppedProjects
