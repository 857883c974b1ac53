import Datenbereitstellung.HandshakeInvariants

namespace Datenbereitstellung.OneProject

open Strings Files OpcUa ProjectManager Handshake TransferRefinement HandshakeInvariants
open Lib.Program Lib.Rely
open ProjectFileReader (countRecords)

section Published

variable {π : Type} {cfg : Config} {allow : World π → (q : Req) → Ans q → Prop}
variable {rely : World π → World π → Prop} {w₀ : World π}

def lastInt16 (n : Int16Node) : List Event → Option Int
  | [] => none
  | .call (.writeInt16 m v) _ :: log => if m = n then some v else lastInt16 n log
  | _ :: log => lastInt16 n log

theorem lastInt16_quiet {q : Req} (hq : Quiet q) (a : Ans q) (log : List Event) :
    lastInt16 .AnzDatenblöcke (.call q a :: log) = lastInt16 .AnzDatenblöcke log := by
  cases q with
  | writeInt16 n v =>
    obtain rfl : n = .StatusCode := hq
    rfl
  | _ => rfl

theorem lastInt16_of_logKept (hlog : LogKept rely) {w w' : World π} (hr : rely w w') :
    lastInt16 .AnzDatenblöcke w'.log = lastInt16 .AnzDatenblöcke w.log :=
  hlog.congr (f := lastInt16 .AnzDatenblöcke) (fun _ _ _ => rfl) hr

def isPrepared : Pc → Bool
  | .prepared _ => true
  | _ => false

theorem published_of_run (hlog : LogKept rely) {pc : Pc} {w : World π}
    (h : Run cfg allow rely w₀ pc w) : ∀ t, planOf pc = some t → isPrepared pc = false →
      lastInt16 .AnzDatenblöcke w.log = some (toInt16 t.anzBlocke) := by
  induction h with
  | init => exact fun t ht => by cases ht
  | others _ hr ih =>
    rw [lastInt16_of_logKept hlog hr]
    exact ih
  | @call pc pc' w q a _ _ _ hs ih =>
    cases hs with
    | quiet _ hq =>
      intro t ht hp
      exact (lastInt16_quiet hq a w.log).trans (ih t ht hp)
    | look => exact fun t ht => by cases ht
    | publish t =>
      rintro t' ht' -
      cases ht'
      rfl
    | _ =>
      rintro t' ht' -
      cases ht' <;>
      · have hpub := ih _ rfl rfl
        exact hpub
  | prepare => exact fun t ht hp => by cases hp
  | resume _ _ ih =>
    rintro t ht -
    cases ht
    exact ih _ rfl rfl
  | fail => exact fun t ht => by cases ht

end Published

section Folder

def anyAnswer (_ : World Unit) (q : Req) (_ : Ans q) : Prop := True

/-- The PLC rewrites its nodes at will; the folder stays as it is. -/
def plcRewrites (w w' : World Unit) : Prop := w'.fs = w.fs ∧ w'.log = w.log

/-- The block count in use and the published one are that of the file that is sent. -/
def SendsWhole (cfg : Config) (w : World Unit) (t : Transfer) : Prop :=
  ∃ content, w.fs.content t.filePath = some content ∧
    t.anzBlocke = blockCount (countRecords content) cfg.lenDataArray ∧
    lastInt16 .AnzDatenblöcke w.log = some (blockCount (countRecords content) cfg.lenDataArray)

/-- The two names read stand for files that need the same number of blocks, and it is an `int16`. -/
def SameBlocks (cfg : Config) (fs : FileSystem) (names : List (Reading Text)) : Prop :=
  ∃ r₁ r₂ content₁ content₂, names = [r₁, r₂] ∧
    fs.content (projectPath cfg.folderPath r₁.value) = some content₁ ∧
    fs.content (projectPath cfg.folderPath r₂.value) = some content₂ ∧
    blockCount (toInt32 (countRecords content₁)) cfg.lenDataArray =
      blockCount (countRecords content₂) cfg.lenDataArray ∧
    -32768 ≤ blockCount (countRecords content₂) cfg.lenDataArray ∧
    blockCount (countRecords content₂) cfg.lenDataArray ≤ 32767

theorem toInt16_eq_iff (i : Int) : toInt16 i = i ↔ -32768 ≤ i ∧ i ≤ 32767 := by
  rw [toInt16, Int.bmod_def]
  split <;> omega

theorem logKept_plcRewrites : LogKept plcRewrites := fun _ _ h => .inl h.2

/-- While blocks are sent, the block count in use and the published one are that of the file sent
exactly if both names read need the same number of blocks, which an `int16` can be. -/
theorem anzBlocke_iff (cfg : Config) (w₀ : World Unit) (hw₀ : w₀.log = []) (t : Transfer)
    (w : World Unit) (hc : Reachable (system anyAnswer plcRewrites) (transferProjectData cfg)
      .start w₀ ⟨.ret (.inl (.transfer t)), w⟩) :
    lastInt16 .AnzDatenblöcke w.log = some (toInt16 t.anzBlocke) ∧
      (SendsWhole cfg w t ↔ SameBlocks cfg w.fs (view w.log).names) := by
  have hrun : Run cfg anyAnswer plcRewrites w₀ (.waiting t) w :=
    transferProjectData_refines logKept_plcRewrites hw₀ hc
  have hpub := published_of_run logKept_plcRewrites hrun t rfl rfl
  refine ⟨hpub, ?_⟩
  have hfile : ∀ path, w.fs.content path = w₀.fs.content path ∧
      ∀ c ∈ (view w.log).contents, c.1 = path → c.2 = w₀.fs.content path := fun path =>
    contents_of_run logKept_plcRewrites (fun _ _ h => by rw [h.1]) hw₀ hrun
  obtain ⟨r₁, r₂, content₁, hl, ⟨s₁, kind, c₁, content₂, rest, -, hcs⟩, hpath, hn⟩ :=
    prepared_of_run logKept_plcRewrites hrun t rfl
  have h₁ : w.fs.content (projectPath cfg.folderPath r₁.value) = some content₁ := by
    obtain ⟨hfs, hct⟩ := hfile (projectPath cfg.folderPath r₁.value)
    rw [hfs]
    exact (hct _ (List.mem_of_mem_head? hl.shown.counted) rfl).symm
  have h₂ : w.fs.content (projectPath cfg.folderPath r₂.value) = some content₂ := by
    obtain ⟨hfs, hct⟩ := hfile (projectPath cfg.folderPath r₂.value)
    rw [hfs]
    exact (hct (projectPath cfg.folderPath r₂.value, some content₂) (by simp [hcs]) rfl).symm
  constructor
  · rintro ⟨content, hc, hb, hshown⟩
    rw [hpath, h₂] at hc
    cases hc
    rw [hpub, hb] at hshown
    exact ⟨r₁, r₂, content₁, content₂, hl.names, h₁, h₂, hn.symm.trans hb,
      (toInt16_eq_iff _).mp (Option.some.inj hshown)⟩
  · rintro ⟨r₁', r₂', c₁', c₂', hnames, h₁', h₂', hb, hint16⟩
    rw [hl.names] at hnames
    cases hnames
    rw [h₁] at h₁'
    rw [h₂] at h₂'
    cases h₁'
    cases h₂'
    have hcount := hn.trans hb
    refine ⟨content₂, by rw [hpath, h₂], hcount, ?_⟩
    rw [hpub, hcount, (toInt16_eq_iff _).mpr hint16]

end Folder

section Renamed

/-- A folder `d` with the files `A` of two records and `B` of one. -/
def twoProjects : FileSystem := .ofFiles
  [(['d', '/', 'A'], ['h', '\n', 'a', '\n', 'b', '\n']), (['d', '/', 'B'], ['h', '\n', 'a', '\n'])]

def oneLine : Config := { folderPath := ['d'], imageSizeX := 1, imageSizeY := 1, lenDataArray := 1 }

def chosenA : World Unit where
  nodes := { emptyNodes with ProjektName := ['A'] }
  fs := twoProjects
  plc := ()

def chooseB (w : World Unit) : World Unit := { w with nodes := { w.nodes with ProjektName := ['B'] } }

def headOf (c : Conf Req Ans Text Stage Bool (World Unit)) : Option Transfer :=
  match c.code with
  | .ret (.inl (.transfer t)) => some t
  | _ => none

theorem code_of_headOf {c : Conf Req Ans Text Stage Bool (World Unit)} {t : Transfer}
    (h : headOf c = some t) : c.code = .ret (.inl (.transfer t)) := by
  unfold headOf at h
  split at h
  · rename_i t' hcode
    rw [hcode, Option.some.inj h]
  · cases h

def runFromA (ms : List (Move Req Ans (World Unit))) : Conf Req Ans Text Stage Bool (World Unit) :=
  play (transferProjectData oneLine) ms ⟨.ret (.inl .start), chosenA⟩

theorem reachable_runFromA {ms : List (Move Req Ans (World Unit))}
    (hms : ∀ m ∈ ms, m = goOn ∨ m = .env chooseB) {t : Transfer}
    (ht : headOf (runFromA ms) = some t) :
    Reachable (system anyAnswer plcRewrites) (transferProjectData oneLine) .start chosenA
      ⟨.ret (.inl (.transfer t)), (runFromA ms).world⟩ := by
  rw [← code_of_headOf ht]
  refine play_reachable (fun m hm => ?_) Stage.start chosenA
  obtain rfl | rfl := hms m hm
  · exact goOn_sound fun _ _ => trivial
  · exact fun w => ⟨rfl, rfl⟩

def renamedRun : List (Move Req Ans (World Unit)) :=
  goOn :: goOn :: .env chooseB :: List.replicate 33 goOn

theorem anzBlocke_renamedRun : ¬∀ (cfg : Config) (w₀ : World Unit), w₀.log = [] →
    ∀ (t : Transfer) (w : World Unit),
      Reachable (system anyAnswer plcRewrites) (transferProjectData cfg) .start w₀
        ⟨.ret (.inl (.transfer t)), w⟩ → SendsWhole cfg w t := by
  intro h
  have ht : headOf (runFromA renamedRun) =
      some { filePath := ['d', '/', 'B'], anzBlocke := 2, arcThreshold := 0, currentBlock := 0
             lastProgress := 0 } := by decide +kernel
  obtain ⟨content, hc, hn, -⟩ := h oneLine chosenA rfl _ _ (reachable_runFromA (by simp [renamedRun]) ht)
  have hb : (runFromA renamedRun).world.fs.content ['d', '/', 'B'] =
      some ['h', '\n', 'a', '\n'] := by decide +kernel
  rw [hb] at hc
  cases hc
  exact absurd hn (by decide +kernel)

def unchangedRun : List (Move Req Ans (World Unit)) := List.replicate 35 goOn

theorem anzBlocke_unchangedRun :
    let t : Transfer := { filePath := ['d', '/', 'A'], anzBlocke := 2, arcThreshold := 0
                          currentBlock := 0, lastProgress := 0 }
    let w := (runFromA unchangedRun).world
    lastInt16 .AnzDatenblöcke w.log = some (toInt16 t.anzBlocke) ∧
      (SendsWhole oneLine w t ↔ SameBlocks oneLine w.fs (view w.log).names) := by
  have ht : headOf (runFromA unchangedRun) =
      some { filePath := ['d', '/', 'A'], anzBlocke := 2, arcThreshold := 0, currentBlock := 0
             lastProgress := 0 } := by decide +kernel
  exact anzBlocke_iff oneLine chosenA rfl _ _ (reachable_runFromA (by simp [unchangedRun]) ht)

end Renamed

end Datenbereitstellung.OneProject
