import Datenbereitstellung.OperatingLoop
import Datenbereitstellung.PublishedCounters

namespace Datenbereitstellung.ProjectAnswer

open Strings Files OperatingLoop Lib.Program Lib.Rely
open OpcUa (Reading Written Nodes)
open ProjectManager (Config projectPath toInt16 blockCount showProjectInfo logAndPushError
  readProjectNameFromSPS getProjectInfo writeProjectInfoToSPS showPreview ProjectInfo)
open Handshake (view)
open HandshakeInvariants (after_bool after_int16)
open HandshakeOutline (toInt16_of_le)
open PublishedCounters (Aside aside_logAndPushError aside_showPreview aside_of_quiet
  blockCount_eq_ceil)
open ProjectFileReader (countRecords)

section Answer

/-- What the PLC is told about the project it asked for. -/
structure Answer where
  ProjektVorhanden : Bool
  LenProjekt : Int
  AnzDatenblöcke : Int

def answer (ns : Nodes) : Answer where
  ProjektVorhanden := ns.bool .ProjektVorhanden
  LenProjekt := ns.int16 .LenProjekt
  AnzDatenblöcke := ns.int16 .AnzDatenblöcke

/-- The name was read, and it is that of a project with this content. -/
structure Names (cfg : Config) (fs : FileSystem) (r : Reading Text) (content : Text) : Prop where
  success : r.success = true
  nonempty : r.value ≠ []
  found : ∃ kind, fs.status (projectPath cfg.folderPath r.value) = .ok (some kind)
  readable : fs.content (projectPath cfg.folderPath r.value) = some content

/-- The numbers are those of the project, where an `int16` can hold them. -/
structure Values (cfg : Config) (content : Text) (a : Answer) : Prop where
  LenProjekt : countRecords content ≤ 32767 → a.LenProjekt = countRecords content
  AnzDatenblöcke : cfg.lenDataArray ≠ 0 →
    -32768 ≤ ⌈(countRecords content : ℚ) / cfg.lenDataArray⌉ →
    ⌈(countRecords content : ℚ) / cfg.lenDataArray⌉ ≤ 32767 →
    a.AnzDatenblöcke = ⌈(countRecords content : ℚ) / cfg.lenDataArray⌉

/-- The answer is one to the question `r`. -/
structure Right (cfg : Config) (fs : FileSystem) (r : Reading Text) (a : Answer) : Prop where
  ProjektVorhanden : a.ProjektVorhanden = true ↔ ∃ content, Names cfg fs r content
  values : a.ProjektVorhanden = true → ∀ content, Names cfg fs r content → Values cfg content a

structure Searchable (cfg : Config) (fs : FileSystem) (r : Reading Text) : Prop where
  success : r.success = true
  nonempty : r.value ≠ []
  status : ∀ e, fs.status (projectPath cfg.folderPath r.value) ≠ .error e

/-- There is something to search for, or `ProjektVorhanden` was down when the PLC asked. -/
def Clean (cfg : Config) (fs : FileSystem) (r : Reading Text) (earlier : Answer) : Prop :=
  Searchable cfg fs r ∨ earlier.ProjektVorhanden = false

variable {cfg : Config} {fs : FileSystem} {r : Reading Text} {a earlier : Answer} {content : Text}

theorem Names.searchable (h : Names cfg fs r content) : Searchable cfg fs r := by
  obtain ⟨kind, hk⟩ := h.found
  refine ⟨h.success, h.nonempty, fun e he => ?_⟩
  rw [hk] at he
  cases he

theorem right_iff_clean_of_stale (h : ¬Searchable cfg fs r)
    (ha : a.ProjektVorhanden = earlier.ProjektVorhanden) :
    Right cfg fs r a ↔ Clean cfg fs r earlier := by
  have hno : ¬∃ content, Names cfg fs r content := fun ⟨_, hn⟩ => h hn.searchable
  constructor
  · intro hr
    refine .inr ?_
    rw [← ha]
    by_contra ht
    exact hno (hr.ProjektVorhanden.mp (by simpa using ht))
  · intro hc
    have hf : a.ProjektVorhanden = false := ha.trans (hc.resolve_left h)
    refine ⟨⟨fun ht => ?_, fun hn => (hno hn).elim⟩, fun ht => ?_⟩
    · rw [hf] at ht
      cases ht
    · rw [hf] at ht
      cases ht

theorem right_of_absent (h : ∀ content, ¬Names cfg fs r content) (ha : a.ProjektVorhanden = false) :
    Right cfg fs r a := by
  refine ⟨⟨fun ht => ?_, fun ⟨content, hn⟩ => (h content hn).elim⟩, fun ht => ?_⟩
  · rw [ha] at ht
    cases ht
  · rw [ha] at ht
    cases ht

theorem right_of_present (h : Names cfg fs r content) (ha : a.ProjektVorhanden = true)
    (hv : Values cfg content a) : Right cfg fs r a := by
  refine ⟨⟨fun _ => ⟨content, h⟩, fun _ => ha⟩, fun _ content' hn => ?_⟩
  obtain rfl : content = content' := Option.some.inj (h.readable.symm.trans hn.readable)
  exact hv

theorem toInt16_eq {i : Int} (hl : -32768 ≤ i) (hu : i ≤ 32767) : toInt16 i = i := by
  apply Int.bmod_eq_of_le
  · norm_num
    omega
  · norm_num
    omega

theorem values_written (cfg : Config) (content : Text) (v : Bool) :
    Values cfg content ⟨v, toInt16 (countRecords content),
      toInt16 (blockCount (countRecords content) cfg.lenDataArray)⟩ := by
  refine ⟨fun h => ?_, fun hB hl hu => ?_⟩
  · dsimp only
    exact toInt16_of_le h
  · rw [blockCount_eq_ceil _ hB, Int.cast_natCast]
    exact toInt16_eq hl hu

end Answer

section Shown

/-- The PLC and everybody else leave the answer and the folder alone. -/
structure PlcStep (w w' : World) : Prop where
  answer : answer w'.nodes = answer w.nodes
  fs : w'.fs = w.fs
  log : w'.log = w.log
  asked : w'.plc.asked = w.plc.asked

def WritesSucceed : (q : OpcUa.Req) → OpcUa.Ans q → Prop
  | .writeBool _ _, a => a.success = true
  | .writeInt16 _ _, a => a.success = true
  | .writeStrings _ _, a => a.success = true
  | .writeInfoText _ _, a => a.success = true
  | _, _ => True

abbrev managerSystem : System OpcUa.Req OpcUa.Ans World :=
  OpcUa.system (fun _ => WritesSucceed) PlcStep

structure Stands (fs : FileSystem) (start : Nodes × List OpcUa.Event) (rs : List (Reading Text))
    (a : Answer) (w : World) : Prop where
  fs : w.fs = fs
  asked : w.plc.asked = start
  names : (view w.log).names = (view start.2).names ++ rs
  answer : answer w.nodes = a

variable {α β : Type} {cfg : Config} {fs : FileSystem} {start : Nodes × List OpcUa.Event}
variable {rs : List (Reading Text)} {a : Answer} {content : Text} {w : World}

theorem stable_stands : Stable managerSystem (Stands fs start rs a) := by
  intro w w' h hr
  have hr : PlcStep w w' := hr
  refine ⟨hr.fs.trans h.fs, hr.asked.trans h.asked, ?_, hr.answer.trans h.answer⟩
  rw [hr.log]
  exact h.names

theorem names_add {q : OpcUa.Req} (hq : q ≠ .readProjektName) (v : Handshake.View)
    (b : OpcUa.Ans q) : (v.add q b).names = v.names := by
  cases q with
  | readProjektName => exact (hq rfl).elim
  | _ => rfl

theorem answer_after {q : OpcUa.Req} (hq : Aside q) (ns : Nodes) (b : OpcUa.Ans q) :
    answer (ns.after q b) = answer ns := by
  have hbool : (ns.after q b).bool .ProjektVorhanden = ns.bool .ProjektVorhanden := by
    refine after_bool rfl (fun v hv => ?_) b
    rw [hv] at hq
    exact (hq rfl).elim
  have hint : ∀ n : OpcUa.Int16Node, n ≠ .StatusCode → (ns.after q b).int16 n = ns.int16 n := by
    intro n hn
    refine after_int16 ns (fun v hv => ?_) b
    rw [hv] at hq
    exact hn hq
  rw [answer, hbool, hint _ (by decide), hint _ (by decide)]
  rfl

theorem keeps_stands : Keeps managerSystem Aside (Stands fs start rs a) := by
  rintro q hq w b _ h ⟨-, -, rfl⟩
  refine ⟨h.fs, h.asked, ?_, (answer_after hq _ _).trans h.answer⟩
  refine (names_add ?_ _ _).trans h.names
  rintro rfl
  exact hq

def Settled (cfg : Config) (fs : FileSystem) (start : Nodes × List OpcUa.Event) (w : World) : Prop :=
  ∃ r a, Stands fs start [r] a w ∧ (Right cfg fs r a ↔ Clean cfg fs r (answer start.1))

abbrev Answers (cfg : Config) (fs : FileSystem) (start : Nodes × List OpcUa.Event)
    (Q : α → World → Prop) (p : OpcUa.M α) (w : World) : Prop :=
  Safe managerSystem (fun _ _ => True) Q (fun _ => Settled cfg fs start) p w

theorem answers_within {p : OpcUa.M β} {f : β → OpcUa.M α} {Q : α → World → Prop}
    (hp : p.Within Aside) (hw : Stands fs start rs a w)
    (hX : ∀ w, Stands fs start rs a w → Settled cfg fs start w)
    (hf : ∀ b w, Stands fs start rs a w → Answers cfg fs start Q (f b) w) :
    Answers cfg fs start Q (p >>= f) w :=
  Safe.within_bind stable_stands keeps_stands (fun _ _ _ _ => trivial) hp hw hf fun _ => hX

theorem settled_stale {r : Reading Text} (hw : Stands fs start [r] a w) (h : ¬Searchable cfg fs r)
    (ha : a.ProjektVorhanden = (answer start.1).ProjektVorhanden) : Settled cfg fs start w :=
  ⟨r, a, hw, right_iff_clean_of_stale h ha⟩

theorem settled_right {r : Reading Text} (hw : Stands fs start [r] a w) (hs : Searchable cfg fs r)
    (hr : Right cfg fs r a) : Settled cfg fs start w :=
  ⟨r, a, hw, iff_of_true hr (.inl hs)⟩

theorem answers_call {q : OpcUa.Req} (hq : q ≠ .readProjektName) {a' : Answer}
    (hans : ∀ ns b, WritesSucceed q b → answer ns = a → answer (ns.after q b) = a')
    {k : OpcUa.Ans q → OpcUa.M α} {Q : α → World → Prop} (hw : Stands fs start rs a w)
    (hk : ∀ (w : World) b w', w.fs = fs → OpcUa.Truthful w q b → Stands fs start rs a' w' →
      Answers cfg fs start Q (k b) w') : Answers cfg fs start Q (.call q k) w := by
  apply Safe.call stable_stands hw (fun _ _ => trivial)
  rintro w b _ h ⟨ht, hs, rfl⟩
  exact hk w b _ h.fs ht
    ⟨h.fs, h.asked, (names_add hq _ b).trans h.names, hans _ b hs h.answer⟩

section Writes

variable {v₀ v : Bool} {l₀ l n₀ n : Int}

theorem answers_writeBool {k : Written → OpcUa.M α} {Q : α → World → Prop}
    (hw : Stands fs start rs ⟨v₀, l, n⟩ w)
    (hk : ∀ b w, Stands fs start rs ⟨v, l, n⟩ w → Answers cfg fs start Q (k b) w) :
    Answers cfg fs start Q (.call (.writeBool .ProjektVorhanden v) k) w := by
  refine answers_call (q := .writeBool _ _) nofun (fun ns b hb ha => ?_) hw fun _ b w' _ _ => hk b w'
  have hs : b.success = true := hb
  cases ha
  rw [Nodes.after, if_pos hs]
  simp [answer]

theorem answers_writeLenProjekt {k : Written → OpcUa.M α} {Q : α → World → Prop}
    (hw : Stands fs start rs ⟨v, l₀, n⟩ w)
    (hk : ∀ b w, Stands fs start rs ⟨v, l, n⟩ w → Answers cfg fs start Q (k b) w) :
    Answers cfg fs start Q (.call (.writeInt16 .LenProjekt l) k) w := by
  refine answers_call (q := .writeInt16 _ _) nofun (fun ns b hb ha => ?_) hw
    fun _ b w' _ _ => hk b w'
  have hs : b.success = true := hb
  cases ha
  rw [Nodes.after, if_pos hs]
  simp [answer]

theorem answers_writeAnzDatenbloecke {k : Written → OpcUa.M α} {Q : α → World → Prop}
    (hw : Stands fs start rs ⟨v, l, n₀⟩ w)
    (hk : ∀ b w, Stands fs start rs ⟨v, l, n⟩ w → Answers cfg fs start Q (k b) w) :
    Answers cfg fs start Q (.call (.writeInt16 .AnzDatenblöcke n) k) w := by
  refine answers_call (q := .writeInt16 _ _) nofun (fun ns b hb ha => ?_) hw
    fun _ b w' _ _ => hk b w'
  have hs : b.success = true := hb
  cases ha
  rw [Nodes.after, if_pos hs]
  simp [answer]

end Writes

theorem answers_logAndPushError {message : Text} {code : Int} {b : β} {r : Reading Text}
    (hw : Stands fs start [r] a w) (hset : ∀ w, Stands fs start [r] a w → Settled cfg fs start w) :
    Answers cfg fs start (fun _ => Settled cfg fs start)
      (logAndPushError message code >>= fun _ => .ret b) w :=
  answers_within (aside_logAndPushError message code) hw hset fun _ => hset

theorem answers_readProjectName {f : Text × Bool → OpcUa.M α} {Q : α → World → Prop}
    (ha : a.ProjektVorhanden = (answer start.1).ProjektVorhanden) (hw : Stands fs start [] a w)
    (hno : ∀ w, Settled cfg fs start w → Answers cfg fs start Q (f ([], false)) w)
    (hyes : ∀ r w, r.success = true → r.value ≠ [] → Stands fs start [r] a w →
      Answers cfg fs start Q (f (r.value, true)) w) :
    Answers cfg fs start Q (readProjectNameFromSPS >>= f) w := by
  refine Safe.bind (Safe.call stable_stands hw (fun _ _ => trivial) ?_)
  rintro w r _ h ⟨-, -, rfl⟩
  have hr : Stands fs start [r] a (w.after .readProjektName r) := by
    refine ⟨h.fs, h.asked, ?_, h.answer⟩
    have hnames := h.names
    rw [List.append_nil] at hnames
    exact congrArg (· ++ [r]) hnames
  simp only [Prog.bind]
  split
  · rename_i hs
    have hstale : ∀ w, Stands fs start [r] a w → Settled cfg fs start w := by
      refine fun w hw => settled_stale hw (fun hq => ?_) ha
      rw [hq.success] at hs
      exact absurd hs (by decide)
    exact answers_within (aside_logAndPushError _ _) hr hstale fun _ w hw => hno w (hstale w hw)
  · rename_i hs
    split
    · rename_i hempty
      have hstale : ∀ w, Stands fs start [r] a w → Settled cfg fs start w :=
        fun w hw => settled_stale hw (fun hq => hq.nonempty (by simpa using hempty)) ha
      exact answers_within (aside_logAndPushError _ _) hr hstale fun _ w hw => hno w (hstale w hw)
    · rename_i hempty
      exact hyes r _ (by simpa using hs) (by simpa using hempty) hr

theorem answers_getProjectInfo {r : Reading Text} {f : Option ProjectInfo → OpcUa.M α}
    {Q : α → World → Prop} (hs : r.success = true) (hv : r.value ≠ [])
    (ha : a.ProjektVorhanden = (answer start.1).ProjektVorhanden) (hw : Stands fs start [r] a w)
    (hnone : ∀ w, Stands fs start [r] a w → Searchable cfg fs r →
      (∀ content, ¬Names cfg fs r content) → Answers cfg fs start Q (f none) w)
    (hsome : ∀ content w, Stands fs start [r] a w → Names cfg fs r content →
      Answers cfg fs start Q (f (some
        { name := r.value, filePath := projectPath cfg.folderPath r.value
          recordCount := countRecords content, exist := true })) w) :
    Answers cfg fs start Q (getProjectInfo cfg.folderPath r.value >>= f) w := by
  apply Safe.bind
  refine answers_call (q := .status _) nofun (fun _ _ _ h => h) hw fun w₁ s w hfs ht hw => ?_
  have ht : s = fs.status (projectPath cfg.folderPath r.value) := by
    rw [← hfs]
    exact ht
  cases s with
  | error e => exact settled_stale hw (fun hq => hq.status e ht.symm) ha
  | ok found =>
    have hsearch : Searchable cfg fs r := by
      refine ⟨hs, hv, fun e he => ?_⟩
      rw [he] at ht
      cases ht
    cases found with
    | none =>
      refine hnone w hw hsearch fun content hn => ?_
      obtain ⟨kind, hk⟩ := hn.found
      rw [hk] at ht
      cases ht
    | some kind =>
      refine answers_call (q := .openFile _) nofun (fun _ _ _ h => h) hw fun w₁ c w hfs hc hw => ?_
      have hc : c = fs.content (projectPath cfg.folderPath r.value) := by
        rw [← hfs]
        exact hc
      cases c with
      | none =>
        refine hnone w hw hsearch fun content hn => ?_
        rw [hn.readable] at hc
        cases hc
      | some content => exact hsome content w hw ⟨hs, hv, ⟨kind, ht.symm⟩, hc.symm⟩

theorem answers_writeProjectInfo {r : Reading Text} {info : ProjectInfo} {f : Bool → OpcUa.M α}
    {Q : α → World → Prop} (he : info.exist = true) (hc : info.recordCount = countRecords content)
    (hw : Stands fs start [r] a w) (hn : Names cfg fs r content)
    (hf : ∀ a w, Stands fs start [r] a w → Right cfg fs r a →
      Answers cfg fs start Q (f true) w) :
    Answers cfg fs start Q (writeProjectInfoToSPS cfg info >>= f) w := by
  obtain ⟨v, l, n⟩ := a
  apply Safe.bind
  simp only [writeProjectInfoToSPS, he, hc, Bool.not_true, Bool.false_eq_true, if_false,
    Prog.perform_bind]
  refine answers_writeLenProjekt hw fun _ w hw => ?_
  refine answers_writeBool hw fun _ w hw => ?_
  refine answers_writeAnzDatenbloecke hw fun _ w hw => ?_
  have hr := right_of_present hn rfl (values_written cfg content true)
  exact answers_within ((TransferRefinement.quiet_pushInfo _).within aside_of_quiet) hw
    (fun _ hw => settled_right hw hn.searchable hr) fun _ w hw => hf _ w hw hr

theorem answers_showProjectInfo
    (ha : a.ProjektVorhanden = (answer start.1).ProjektVorhanden) (hw : Stands fs start [] a w) :
    Answers cfg fs start (fun _ => Settled cfg fs start) (showProjectInfo cfg) w := by
  refine Safe.handle (Safe.mono (Q := fun _ => Settled cfg fs start)
    (X := fun _ => Settled cfg fs start) ?_ (fun _ _ h => h) ?_)
  · refine answers_readProjectName ha hw (fun w hw => hw) fun r w hs hv hw => ?_
    refine answers_getProjectInfo hs hv ha hw (fun w hw hsearch hno => ?_) fun content w hw hn => ?_
    · refine answers_writeBool hw fun _ w hw => ?_
      exact answers_logAndPushError hw fun w hw =>
        settled_right hw hsearch (right_of_absent hno rfl)
    · refine answers_writeProjectInfo rfl rfl hw hn fun a w hw hr => ?_
      have hsettled : ∀ w, Stands fs start [r] a w → Settled cfg fs start w :=
        fun w hw => settled_right hw hn.searchable hr
      exact answers_within (aside_showPreview cfg _) hw hsettled fun _ w hw => hsettled w hw
  · rintro e w ⟨r, a, hw, hr⟩
    exact answers_logAndPushError hw fun w hw => ⟨r, a, hw, hr⟩

end Shown

section Loop

def OpcWritesSucceed : (q : Req) → Ans q → Prop
  | .writeHeartbeat, a => a.success = true
  | .clearTrigger _, a => a.success = true
  | .writeProjektInfoWrote, a => a.success = true
  | .manager q, a => WritesSucceed q a
  | _, _ => True

abbrev loopSystem : System Req Ans World := system (fun _ => OpcWritesSucceed) PlcStep

/-- One name was read since the PLC asked, and the answer is right exactly if the question was a
clean one. -/
def Answered (cfg : Config) (w : World) : Prop :=
  ∃ r, (view w.log).names = (view w.plc.asked.2).names ++ [r] ∧
    (Right cfg w.fs r (answer w.nodes) ↔ Clean cfg w.fs r (answer w.plc.asked.1))

def Announced (cfg : Config) : Req → World → Prop
  | .writeProjektInfoWrote, w => Answered cfg w
  | _, _ => True

def Unannounced : Req → Prop
  | .writeProjektInfoWrote => False
  | _ => True

abbrev Announces (cfg : Config) (Q : α → World → Prop) (p : M α) (w : World) : Prop :=
  Safe loopSystem (Announced cfg) Q (fun _ _ => True) p w

variable {α β : Type} {cfg : Config} {MaximaleAnzahlProjekte : Int} {w w₀ : World}

theorem Settled.answered {fs : FileSystem} {start : Nodes × List OpcUa.Event}
    (h : Settled cfg fs start w) : Answered cfg w := by
  obtain ⟨r, a, hw, hr⟩ := h
  refine ⟨r, ?_, ?_⟩
  · rw [hw.asked]
    exact hw.names
  · rw [hw.fs, hw.answer, hw.asked]
    exact hr

theorem stable_settled {fs : FileSystem} {start : Nodes × List OpcUa.Event} :
    Stable loopSystem (Settled cfg fs start) := by
  rintro w w' ⟨r, a, hw, hr⟩ hs
  exact ⟨r, a, stable_stands w w' hw hs, hr⟩

theorem announced_of_unannounced {q : Req} (hq : Unannounced q) (w : World) : Announced cfg q w := by
  cases q with
  | writeProjektInfoWrote => exact hq.elim
  | _ => trivial

theorem announces_within {p : M β} {f : β → M α} {Q : α → World → Prop}
    (hp : p.Within Unannounced) (hf : ∀ b w, Announces cfg Q (f b) w) (w : World) :
    Announces cfg Q (p >>= f) w :=
  Safe.bind ((Safe.of_within (fun _ => announced_of_unannounced) hp w).mono (fun b w _ => hf b w)
    fun _ _ _ => trivial)

theorem announces_serveShowProjektInfo {f : Unit → M α} {Q : α → World → Prop}
    (hf : ∀ w, Announces cfg Q (f ()) w) (w : World) :
    Announces cfg Q (serveShowProjektInfo cfg >>= f) w := by
  rw [serveShowProjektInfo, Prog.bind_assoc]
  refine announces_within (p := readTrigger .showProjektInfo) ⟨trivial, fun _ => trivial⟩
    (fun a w => ?_) w
  split
  · rw [Prog.bind_assoc, Prog.perform_bind]
    apply Safe.call (A := fun _ => True) (fun _ _ _ _ => trivial) trivial (fun _ _ => trivial)
    rintro w b _ - ⟨-, hs, rfl⟩
    have hs : b.success = true := hs
    have hw : Stands w.fs (w.nodes, w.log) [] (answer w.nodes) (World.clear w .showProjektInfo) :=
      ⟨rfl, rfl, (List.append_nil _).symm, rfl⟩
    have hshow : Answers cfg w.fs (w.nodes, w.log) (fun _ => Settled cfg w.fs (w.nodes, w.log))
        (showProjectInfo cfg) (World.clear w .showProjektInfo) := answers_showProjectInfo rfl hw
    rw [OperatingLoop.after, if_pos hs, Prog.bind_assoc]
    refine Safe.bind (Safe.mono (Safe.lift hshow) (fun _ w' hset => ?_) fun _ _ _ => trivial)
    apply Safe.call stable_settled hset (fun _ h => h.answered)
    intro _ _ w _ _
    exact hf w
  · exact hf w

theorem announces_operatingLoop (s : Stage) (w : World) :
    Announces cfg (fun _ _ => True) (operatingLoop cfg MaximaleAnzahlProjekte s) w := by
  have hend : ∀ {p : M (Stage ⊕ Unit)}, p.Within Unannounced → ∀ w,
      Announces cfg (fun _ _ => True) p w := by
    intro p hp w
    exact Safe.of_within (fun _ => announced_of_unannounced) hp w
  have hmanager : ∀ {α : Type} {p : OpcUa.M α}, p.Within fun q => Unannounced (.manager q) :=
    fun {_} p => Prog.within_of_forall (fun _ => trivial) p
  cases s with
  | poll =>
    have hlocal : ∀ q, Local q → Unannounced q := by
      intro q hq
      cases q <;> trivial
    refine safe_iteration cfg MaximaleAnzahlProjekte (A := fun _ => True) (fun _ _ _ _ => trivial)
      (fun _ _ _ _ _ _ _ => trivial) (fun q hq w _ => announced_of_unannounced (hlocal q hq) w)
      (fun _ _ => trivial) (fun _ _ => trivial) (fun w _ => ?_) trivial
    refine announces_within
      (within_serveUpdateProjektList _ _ trivial trivial hmanager) (fun _ w => ?_) w
    exact announces_serveShowProjektInfo (hend (within_serveReadProjekt trivial)) w
  | transfer s => exact hend (within_transferring _ trivial hmanager) w

/-- Whenever `ProjektInfoWrote` is written, exactly one name was read since the PLC asked, and the
answer about its project is right exactly if the name was there and could be searched for, or
`ProjektVorhanden` was down before. -/
theorem answered_of_reachable {k : Written → M (Stage ⊕ Unit)}
    (hc : Reachable loopSystem (operatingLoop cfg MaximaleAnzahlProjekte) .poll w₀
      ⟨.call .writeProjektInfoWrote k, w⟩) : Answered cfg w := by
  have h := reachable_safe (S := loopSystem) (G := Announced cfg) (L := fun _ _ => True)
    (P := fun _ _ => True) (X := fun _ _ => True) (fun _ _ _ _ _ => trivial)
    (fun _ _ _ _ _ => trivial) (fun _ _ _ _ _ => trivial)
    (fun s w _ => (announces_operatingLoop s w).mono (fun r _ _ => by cases r <;> trivial)
      fun _ _ h => h) trivial hc
  exact (h w .refl).1

end Loop

section Stale

def offered : World where
  nodes := { OpcUa.emptyNodes with ProjektName := ['p'] }
  fs := { status := fun _ => .ok (some .regular), content := fun _ => some ['\n', 'G']
          entries := fun _ => .ok [] }
  plc := { trigger := fun _ => false, ProjektInfoWrote := false, trace := []
           asked := (OpcUa.emptyNodes, []) }

def askFor (name : Text) : Move Req Ans World :=
  .env fun w => World.set { w with nodes := { w.nodes with ProjektName := name } } .showProjektInfo

def runOf (ms : List (Move Req Ans World)) : Conf Req Ans Text Stage Unit World :=
  play (operatingLoop ⟨['d'], 1, 1, 1⟩ 1) ms ⟨.ret (.inl .poll), offered⟩

theorem writesSucceed_honest (w : World) (q : Req) : OpcWritesSucceed q (honest w q) := by
  cases q with
  | manager q => cases q <;> trivial
  | writeHeartbeat | clearTrigger | writeProjektInfoWrote => rfl
  | _ => trivial

theorem reachable_runOf {ms : List (Move Req Ans World)}
    (hms : ∀ m ∈ ms, (∃ name, m = askFor name) ∨ m = goOn) :
    Reachable loopSystem (operatingLoop ⟨['d'], 1, 1, 1⟩ 1) .poll offered (runOf ms) := by
  refine play_reachable (fun m hm => ?_) Stage.poll offered
  obtain ⟨name, rfl⟩ | rfl := hms m hm
  · exact fun w => ⟨rfl, rfl, rfl, rfl⟩
  · exact goOn_sound writesSucceed_honest

def firstQuestion : List (Move Req Ans World) := askFor ['p'] :: List.replicate 34 goOn

def secondQuestion : List (Move Req Ans World) :=
  askFor ['p'] :: List.replicate 36 goOn ++ askFor [] :: List.replicate 14 goOn

theorem code_firstQuestion :
    ∃ k, runOf firstQuestion = ⟨.call .writeProjektInfoWrote k, (runOf firstQuestion).world⟩ :=
  ⟨_, rfl⟩

theorem code_secondQuestion :
    ∃ k, runOf secondQuestion = ⟨.call .writeProjektInfoWrote k, (runOf secondQuestion).world⟩ :=
  ⟨_, rfl⟩

theorem names_secondQuestion : (view (runOf secondQuestion).world.log).names =
    (view (runOf secondQuestion).world.plc.asked.2).names ++ [⟨[], true, 0⟩] := rfl

theorem vorhanden_secondQuestion :
    (answer (runOf secondQuestion).world.nodes).ProjektVorhanden = true := by
  decide +kernel

/-- The answer about the project asked for before is announced as the answer to the new question. -/
theorem not_right_secondQuestion : ¬∀ (cfg : Config) (MaximaleAnzahlProjekte : Int) (w₀ w : World)
    (k : Written → M (Stage ⊕ Unit)),
    Reachable loopSystem (operatingLoop cfg MaximaleAnzahlProjekte) .poll w₀
      ⟨.call .writeProjektInfoWrote k, w⟩ →
    ∃ r, (view w.log).names = (view w.plc.asked.2).names ++ [r] ∧
      Right cfg w.fs r (answer w.nodes) := by
  intro h
  have hms : ∀ m ∈ secondQuestion, (∃ name, m = askFor name) ∨ m = goOn := by
    simp [secondQuestion]
  have hc := reachable_runOf hms
  obtain ⟨k, hk⟩ := code_secondQuestion
  rw [hk] at hc
  obtain ⟨r, hnames, hright⟩ := h _ _ _ _ k hc
  have hr : r = ⟨[], true, 0⟩ := by
    rw [names_secondQuestion, List.append_cancel_left_eq, List.singleton_inj] at hnames
    exact hnames.symm
  obtain ⟨content, hn⟩ := hright.ProjektVorhanden.mp vorhanden_secondQuestion
  exact hn.nonempty (by rw [hr])

theorem answered_firstQuestion : Answered ⟨['d'], 1, 1, 1⟩ (runOf firstQuestion).world := by
  have hms : ∀ m ∈ firstQuestion, (∃ name, m = askFor name) ∨ m = goOn := by simp [firstQuestion]
  have hc := reachable_runOf hms
  obtain ⟨k, hk⟩ := code_firstQuestion
  rw [hk] at hc
  exact answered_of_reachable hc

end Stale

end Datenbereitstellung.ProjectAnswer
