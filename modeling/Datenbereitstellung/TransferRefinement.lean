import Datenbereitstellung.Handshake

namespace Datenbereitstellung.TransferRefinement

open Strings Files OpcUa ProjectManager Handshake Lib.Program Lib.Rely
open ProjectFileReader (countRecords)

variable {π α β : Type} {cfg : Config} {allow : World π → (q : Req) → Ans q → Prop}
variable {rely : World π → World π → Prop} {w₀ : World π}

def LogKept (rely : World π → World π → Prop) : Prop :=
  ∀ w w', rely w w' → w'.log = w.log ∨ ∃ i b, w'.log = .consumed i b :: w.log

theorem LogKept.congr (h : LogKept rely) {f : List Event → α}
    (hf : ∀ i b log, f (.consumed i b :: log) = f log) {w w' : World π} (hr : rely w w') :
    f w'.log = f w.log := by
  obtain he | ⟨i, b, he⟩ := h w w' hr
  · rw [he]
  · rw [he]
    exact hf i b w.log

theorem LogKept.view_eq (h : LogKept rely) {w w' : World π} (hr : rely w w') :
    view w'.log = view w.log :=
  h.congr (fun _ _ _ => rfl) hr

section Steps

variable {Q : α → World π → Prop} {X : Text → World π → Prop}

/-- At every call some state of the handshake is reached. -/
def Met (cfg : Config) (allow : World π → (q : Req) → Ans q → Prop) (rely : World π → World π → Prop)
    (w₀ : World π) (_ : Req) (w : World π) : Prop := ∃ pc, Run cfg allow rely w₀ pc w

theorem stable_run (pc : Pc) :
    Stable (system allow rely) (fun w => Run cfg allow rely w₀ pc w) :=
  fun _ _ h hr => h.others hr

theorem safe_call {pc : Pc} {w : World π} (hw : Run cfg allow rely w₀ pc w) {q : Req}
    {k : Ans q → M α} (hk : ∀ a w',
      (∀ pc', Trans cfg pc q a pc' → Run cfg allow rely w₀ pc' w') →
      Safe (system allow rely) (Met cfg allow rely w₀) Q X (k a) w') :
    Safe (system allow rely) (Met cfg allow rely w₀) Q X (.call q k) w := by
  apply Safe.call (stable_run pc) hw (fun w h => ⟨pc, h⟩)
  rintro w a w' h ⟨htr, ha, rfl⟩
  exact hk a _ fun pc' ht => h.call htr ha ht

theorem safe_step {pc : Pc} {w : World π} (hw : Run cfg allow rely w₀ pc w) {q : Req}
    {k : Ans q → M α} (next : Ans q → Pc) (ht : ∀ a, Trans cfg pc q a (next a))
    (hk : ∀ a w', Run cfg allow rely w₀ (next a) w' →
      Safe (system allow rely) (Met cfg allow rely w₀) Q X (k a) w') :
    Safe (system allow rely) (Met cfg allow rely w₀) Q X (.call q k) w :=
  safe_call hw fun a w' hs => hk a w' (hs _ (ht a))

theorem safe_quiet {pc : Pc} {w : World π} (hw : Run cfg allow rely w₀ pc w) {p : M β}
    (hp : p.Only Quiet) {f : β → M α} (hf : ∀ b w', Run cfg allow rely w₀ pc w' →
      Safe (system allow rely) (Met cfg allow rely w₀) Q X (f b) w') :
    Safe (system allow rely) (Met cfg allow rely w₀) Q X (p >>= f) w := by
  refine Safe.only_bind (stable_run pc) ?_ (fun q _ w h => ⟨pc, h⟩) hp hw hf
  rintro q hq w a w' h ⟨htr, ha, rfl⟩
  exact h.call htr ha (.quiet pc hq a)

def Looking (cfg : Config) (allow : World π → (q : Req) → Ans q → Prop) (rely : World π → World π → Prop)
    (w₀ : World π) (v : View) (w : World π) : Prop :=
  Run cfg allow rely w₀ .prelude w ∧ view w.log = v

theorem stable_looking (hlog : LogKept rely) (v : View) :
    Stable (system allow rely) (Looking cfg allow rely w₀ v) :=
  fun _ _ h hr => ⟨h.1.others hr, (hlog.view_eq hr).trans h.2⟩

theorem add_of_quiet {q : Req} (hq : Quiet q) (v : View) (a : Ans q) : v.add q a = v := by
  cases q <;> first | rfl | exact hq.elim

theorem look_step (hlog : LogKept rely) {v : View} {w : World π}
    (hw : Looking cfg allow rely w₀ v w) {q : Req} {k : Ans q → M α} (hq : Preliminary q)
    (hk : ∀ a w', Looking cfg allow rely w₀ (v.add q a) w' →
      Safe (system allow rely) (Met cfg allow rely w₀) Q X (k a) w') :
    Safe (system allow rely) (Met cfg allow rely w₀) Q X (.call q k) w := by
  apply Safe.call (stable_looking hlog v) hw (fun w h => ⟨_, h.1⟩)
  rintro w a w' h ⟨htr, ha, rfl⟩
  exact hk a _ ⟨h.1.call htr ha (.look hq a), by rw [← h.2]; rfl⟩

theorem look_only (hlog : LogKept rely) {v : View} {w : World π}
    (hw : Looking cfg allow rely w₀ v w) {p : M α} (hp : p.Only Quiet)
    (hQ : ∀ b w', Looking cfg allow rely w₀ v w' → Q b w') :
    Safe (system allow rely) (Met cfg allow rely w₀) Q X p w := by
  refine (Safe.only (stable_looking hlog v) ?_ (fun q _ w h => ⟨_, h.1⟩) hp hw).mono hQ
    fun _ _ h => h
  rintro q hq w a w' h ⟨htr, ha, rfl⟩
  refine ⟨h.1.call htr ha (.quiet .prelude hq a), ?_⟩
  exact (add_of_quiet hq (view w.log) a).trans h.2

theorem look_quiet (hlog : LogKept rely) {v : View} {w : World π}
    (hw : Looking cfg allow rely w₀ v w) {p : M β} (hp : p.Only Quiet) {f : β → M α}
    (hf : ∀ b w', Looking cfg allow rely w₀ v w' →
      Safe (system allow rely) (Met cfg allow rely w₀) Q X (f b) w') :
    Safe (system allow rely) (Met cfg allow rely w₀) Q X (p >>= f) w :=
  Safe.bind (look_only hlog hw hp hf)

end Steps

section QuietParts

theorem quiet_logAndPushError (message : Text) (code : Int) :
    (logAndPushError message code).Only Quiet := by
  refine Prog.only_bind ?_ fun _ => trivial
  simp only [pushErrorMessage, Prog.perform_bind]
  refine ⟨rfl, fun _ => ⟨trivial, fun _ => ⟨rfl, fun _ => ?_⟩⟩⟩
  dsimp only
  split <;> trivial

theorem quiet_pushInfo (message : Text) : (pushInfo message).Only Quiet :=
  ⟨trivial, fun _ => trivial⟩

theorem quiet_loadFromSPS (x y : Int) : (loadFromSPS x y).Only Quiet := by
  simp only [loadFromSPS, Prog.perform_bind]
  repeat' first | exact trivial | refine ⟨trivial, fun _ => ?_⟩

theorem within_logAndPushError {N : Req → Prop} (hquiet : ∀ q, Quiet q → N q) (message : Text)
    (code : Int) : (logAndPushError message code).Within N :=
  (quiet_logAndPushError message code).within hquiet

theorem within_showPreview {N : Req → Prop} (hquiet : ∀ q, Quiet q → N q)
    (hrender : ∀ path params, N (.renderPreview path params)) (hpublish : N .publishImage)
    (cfg : Config) (path : Text) : (showPreview cfg path).Within N := by
  refine Prog.within_bind ((quiet_loadFromSPS _ _).within hquiet) fun params => ?_
  refine ⟨hrender _ _, fun code => ?_⟩
  cases code with
  | error e => trivial
  | ok code =>
    simp only [Prog.bind]
    split
    · exact ⟨hquiet _ rfl, fun _ => within_logAndPushError hquiet _ _⟩
    · refine ⟨hpublish, fun r => ?_⟩
      cases r with
      | error e => trivial
      | ok u => trivial

theorem within_writeStringArray {N : Req → Prop} {n : StringArrayNode}
    (hread : N (.readStrings n)) (hwrite : ∀ v, N (.writeStrings n v)) (data : List (List Text))
    (startRow startCol : Nat) : (writeStringArray n data startRow startCol).Within N := by
  refine ⟨hread, fun v => ?_⟩
  simp only [Prog.bind]
  split
  · trivial
  split
  · trivial
  · refine ⟨hwrite _, fun status => ?_⟩
    simp only [Prog.bind]
    split <;> trivial

theorem within_writeDataBlock {N : Req → Prop} (hquiet : ∀ q, Quiet q → N q)
    (hwrite : ∀ v, N (.writeStrings .DataArray v)) (data : List Text) :
    (writeDataBlockToSPS data).Within N := by
  refine Prog.within_bind
    (within_writeStringArray (hquiet _ (by exact trivial)) hwrite _ _ _) fun written => ?_
  split
  · exact Prog.within_bind (within_logAndPushError hquiet _ _) fun _ => trivial
  · trivial

def nameOf (r : Reading Text) : Text × Bool :=
  if r.success = true ∧ r.value ≠ [] then (r.value, true) else ([], false)

theorem readProjectNameFromSPS_eq : ∃ report : Reading Text → M Unit,
    (∀ r, (report r).Only Quiet) ∧ readProjectNameFromSPS =
      .call .readProjektName fun r => report r >>= fun _ => .ret (nameOf r) := by
  refine ⟨fun r =>
    if !r.success then
      logAndPushError (lit "Fehler beim Lesen des Projektnamens: " ++ toText r.code)
    else if r.value.isEmpty then logAndPushError (lit "Kein Projektname angegeben")
    else .ret (), fun r => ?_, ?_⟩
  · dsimp only
    split
    · exact quiet_logAndPushError _ _
    split
    · exact quiet_logAndPushError _ _
    · trivial
  · simp only [readProjectNameFromSPS, Prog.perform_bind]
    congr 1
    funext r
    cases hs : r.success with
    | false => simp [nameOf, hs]
    | true =>
      cases hv : r.value with
      | nil => simp [nameOf, hv]
      | cons c s => simp [nameOf, hs, hv]

end QuietParts

section Lookups

variable {Q : α → World π → Prop} {X : Text → World π → Prop}

theorem safe_readProjectName (hlog : LogKept rely) {v : View} {w : World π}
    (hw : Looking cfg allow rely w₀ v w) {f : Text × Bool → M α}
    (hf : ∀ r w', Looking cfg allow rely w₀ { v with names := v.names ++ [r] } w' →
      Safe (system allow rely) (Met cfg allow rely w₀) Q X (f (nameOf r)) w') :
    Safe (system allow rely) (Met cfg allow rely w₀) Q X (readProjectNameFromSPS >>= f) w := by
  obtain ⟨report, hquiet, he⟩ := readProjectNameFromSPS_eq
  rw [he, Prog.call_bind]
  refine look_step hlog hw trivial fun r w' h' => ?_
  rw [Prog.bind_assoc]
  exact look_quiet hlog h' (hquiet r) fun _ => hf r

theorem safe_getProjectInfo (hlog : LogKept rely) {v : View} {w : World π}
    (hw : Looking cfg allow rely w₀ v w) (name : Text) {f : Option ProjectInfo → M α}
    (hthrow : ∀ e w', Looking cfg allow rely w₀ { v with statuses := v.statuses ++ [.error e] } w' →
      X e w')
    (hmissing : ∀ w', Looking cfg allow rely w₀ { v with statuses := v.statuses ++ [.ok none] } w' →
      Safe (system allow rely) (Met cfg allow rely w₀) Q X (f none) w')
    (hclosed : ∀ kind w', Looking cfg allow rely w₀ { v with
        statuses := v.statuses ++ [.ok (some kind)]
        contents := v.contents ++ [(projectPath cfg.folderPath name, none)] } w' →
      Safe (system allow rely) (Met cfg allow rely w₀) Q X (f none) w')
    (hfound : ∀ kind content w', Looking cfg allow rely w₀ { v with
        statuses := v.statuses ++ [.ok (some kind)]
        contents := v.contents ++ [(projectPath cfg.folderPath name, some content)] } w' →
      Safe (system allow rely) (Met cfg allow rely w₀) Q X (f (some
        { name, filePath := projectPath cfg.folderPath name, recordCount := countRecords content
          exist := true })) w') :
    Safe (system allow rely) (Met cfg allow rely w₀) Q X
      (getProjectInfo cfg.folderPath name >>= f) w := by
  apply Safe.bind
  simp only [getProjectInfo, Prog.perform_bind]
  refine look_step hlog hw trivial fun s w' h' => ?_
  cases s with
  | error e => exact hthrow e w' h'
  | ok kind =>
    cases kind with
    | none => exact hmissing w' h'
    | some kind =>
      refine look_step hlog h' trivial fun c w'' h'' => ?_
      cases c with
      | none => exact hclosed kind w'' h''
      | some content => exact hfound kind content w'' h''

theorem safe_writeProjectInfo (hlog : LogKept rely) {v : View} {w : World π}
    (hw : Looking cfg allow rely w₀ v w) {info : ProjectInfo} (he : info.exist = true)
    {f : Bool → M α} (hf : ∀ w', Looking cfg allow rely w₀ v w' →
      Safe (system allow rely) (Met cfg allow rely w₀) Q X (f true) w') :
    Safe (system allow rely) (Met cfg allow rely w₀) Q X (writeProjectInfoToSPS cfg info >>= f) w := by
  apply Safe.bind
  simp only [writeProjectInfoToSPS, he, Bool.not_true, Bool.false_eq_true, if_false,
    Prog.perform_bind]
  refine look_step hlog hw (q := .writeInt16 .LenProjekt _) (by simp [Preliminary]) fun _ w₁ h₁ => ?_
  refine look_step hlog h₁ (q := .writeBool .ProjektVorhanden _) (.inr rfl) fun _ w₂ h₂ => ?_
  refine look_step hlog h₂ (q := .writeInt16 .AnzDatenblöcke _) (by simp [Preliminary])
    fun _ w₃ h₃ => ?_
  exact look_quiet hlog h₃ (quiet_pushInfo _) fun _ w₄ h₄ => hf w₄ h₄

theorem safe_showPreview (hlog : LogKept rely) {v : View} {w : World π}
    (hw : Looking cfg allow rely w₀ v w) (path : Text) {f : Unit → M α}
    (hthrow : ∀ e v' w', v'.names = v.names → Looking cfg allow rely w₀ v' w' → X e w')
    (hshown : ∀ code published w', (∀ p ∈ published, p = .ok ()) →
      Looking cfg allow rely w₀ { v with
        renders := v.renders ++ [.ok code], published := v.published ++ published } w' →
      Safe (system allow rely) (Met cfg allow rely w₀) Q X (f ()) w') :
    Safe (system allow rely) (Met cfg allow rely w₀) Q X (showPreview cfg path >>= f) w := by
  apply Safe.bind
  simp only [showPreview]
  refine look_quiet hlog hw (quiet_loadFromSPS _ _) fun params w₁ h₁ => ?_
  simp only [Prog.perform_bind]
  refine look_step hlog h₁ trivial fun r w₂ h₂ => ?_
  cases r with
  | error e =>
    refine hthrow e _ w₂ ?_ h₂
    rfl
  | ok code =>
    simp only
    split
    · refine look_step hlog h₂ (q := .writeInt16 .StatusCode _) (by simp [Preliminary])
        fun _ w₃ h₃ => ?_
      refine look_only hlog h₃ (quiet_logAndPushError _ _) fun _ w₄ h₄ => ?_
      exact hshown code [] w₄ (by simp) (by simpa [View.add] using h₄)
    · refine look_step hlog h₂ trivial fun p w₃ h₃ => ?_
      cases p with
      | error e =>
        refine hthrow e _ w₃ ?_ h₃
        rfl
      | ok u => exact hshown code [.ok ()] w₃ (by simp) h₃

theorem safe_showProjectInfo (hlog : LogKept rely) {w : World π}
    (hw : Looking cfg allow rely w₀ {} w) {f : Int × Bool → M α}
    (hno : ∀ r v w', v.names = [r] → Looking cfg allow rely w₀ v w' →
      Safe (system allow rely) (Met cfg allow rely w₀) Q X (f (0, false)) w')
    (hyes : ∀ r content s c v w', Shown cfg v r content → v.names = [r] → v.statuses = [s] →
      v.contents = [c] → Looking cfg allow rely w₀ v w' → Safe (system allow rely)
        (Met cfg allow rely w₀) Q X (f (toInt32 (countRecords content), true)) w') :
    Safe (system allow rely) (Met cfg allow rely w₀) Q X (showProjectInfo cfg >>= f) w := by
  refine Safe.bind (Safe.handle ?_)
  refine safe_readProjectName hlog hw fun r w₁ h₁ => ?_
  -- the handler of the exceptions, from the first lookup on
  have hcatch : ∀ e v w', v.names = [r] → Looking cfg allow rely w₀ v w' →
      Safe (system allow rely) (Met cfg allow rely w₀)
        (fun a w => Safe (system allow rely) (Met cfg allow rely w₀) Q X (f a) w) X
        (logAndPushError (lit "Fehler bei showProjectInfo: " ++ e) >>= fun _ => pure (0, false))
        w' := fun e v w' hn h => look_quiet hlog h (quiet_logAndPushError _ _) fun _ w'' h'' =>
    hno r v w'' hn h''
  by_cases hr : r.success = true ∧ r.value ≠ []
  · have hname : nameOf r = (r.value, true) := if_pos hr
    rw [hname]
    simp only [Bool.not_true, Bool.false_eq_true, if_false]
    refine safe_getProjectInfo hlog h₁ r.value ?_ ?_ ?_ ?_
    · intro e w₂ h₂
      exact hcatch e _ w₂ rfl h₂
    · intro w₂ h₂
      refine look_step hlog h₂ (q := .writeBool .ProjektVorhanden _) (.inr rfl) fun _ w₃ h₃ => ?_
      exact look_quiet hlog h₃ (quiet_logAndPushError _ _) fun _ w₄ h₄ => hno r _ w₄ rfl h₄
    · intro kind w₂ h₂
      refine look_step hlog h₂ (q := .writeBool .ProjektVorhanden _) (.inr rfl) fun _ w₃ h₃ => ?_
      exact look_quiet hlog h₃ (quiet_logAndPushError _ _) fun _ w₄ h₄ => hno r _ w₄ rfl h₄
    · intro kind content w₂ h₂
      refine safe_writeProjectInfo hlog h₂ rfl fun w₃ h₃ => ?_
      refine safe_showPreview hlog h₃ _ ?_ ?_
      · intro e v' w₄ hn h₄
        exact hcatch e v' w₄ hn h₄
      · intro code published w₄ hp h₄
        exact hyes r content _ _ _ w₄ ⟨hr, ⟨kind, rfl⟩, rfl, ⟨code, rfl⟩, hp⟩ rfl rfl rfl h₄
  · have hname : nameOf r = ([], false) := if_neg hr
    rw [hname]
    exact hno r _ w₁ rfl h₁

end Lookups

section Stages

def AtHead (cfg : Config) (allow : World π → (q : Req) → Ans q → Prop) (rely : World π → World π → Prop)
    (w₀ : World π) : Stage → World π → Prop
  | .start, w => Looking cfg allow rely w₀ {} w
  | .transfer t, w => Run cfg allow rely w₀ (.waiting t) w
  | .acknowledge _, w => ∃ t, Run cfg allow rely w₀ (.acking t) w

/-- What holds at the end: all flags were written, or the call gave up before the first. -/
def AtEnd (cfg : Config) (allow : World π → (q : Req) → Ans q → Prop) (rely : World π → World π → Prop)
    (w₀ : World π) (b : Bool) (w : World π) : Prop :=
  Run cfg allow rely w₀ (.done b) w ∨
    b = false ∧ Run cfg allow rely w₀ .prelude w ∧ ¬Engages cfg (view w.log)

def SafeStage (cfg : Config) (allow : World π → (q : Req) → Ans q → Prop)
    (rely : World π → World π → Prop) (w₀ : World π) (p : M (Stage ⊕ Bool)) (w : World π) : Prop :=
  Safe (system allow rely) (Met cfg allow rely w₀)
    (Sum.elim (AtHead cfg allow rely w₀) (AtEnd cfg allow rely w₀)) (fun _ _ => False) p w

theorem safe_close {w : World π} {b : Bool} (hw : Run cfg allow rely w₀ (.closing b 0) w) {X} :
    Safe (system allow rely) (Met cfg allow rely w₀)
      (Sum.elim (AtHead cfg allow rely w₀) (AtEnd cfg allow rely w₀)) X
      (setTransferFlags false false true >>= fun _ => pure (.inr b)) w := by
  simp only [setTransferFlags, Prog.perform_bind]
  refine safe_step hw (fun _ => .closing b 1) (.closeWriteData b) fun _ w₁ h₁ => ?_
  refine safe_step h₁ (fun _ => .closing b 2) (.closeReadData b) fun _ w₂ h₂ => ?_
  exact safe_step h₂ (fun _ => .done b) (.closeBeendet b) fun _ w₃ h₃ => .inl h₃

theorem safe_guarded {p : M (Stage ⊕ Bool)} {w : World π}
    (hp : Safe (system allow rely) (Met cfg allow rely w₀)
      (Sum.elim (AtHead cfg allow rely w₀) (AtEnd cfg allow rely w₀))
      (fun _ w => Run cfg allow rely w₀ (.closing false 0) w) p w) :
    SafeStage cfg allow rely w₀ (guarded p) w := by
  refine Safe.handle (hp.mono (fun _ _ h => h) ?_)
  intro e w' h
  exact safe_quiet h (quiet_logAndPushError _ _) fun _ w'' h'' => safe_close h''

theorem not_engages {v : View} {r : Reading Text} (h : v.names = [r]) : ¬Engages cfg v := by
  rintro ⟨r₁, r₂, content₁, hl, -⟩
  have := hl.names
  simp [h] at this

theorem not_engages_of_unnamed {v : View} {r r₂ : Reading Text} (h : v.names = [r, r₂])
    (hr : ¬Named r₂) : ¬Engages cfg v := by
  rintro ⟨r₁', r₂', _, hl, -⟩
  have hnames := h.symm.trans hl.names
  simp only [List.cons.injEq, and_true] at hnames
  exact hr (hnames.2 ▸ hl.named)

theorem not_engages_of_missing {v : View} {s : Except Text (Option FileKind)}
    (h : v.statuses = [s, .ok none]) : ¬Engages cfg v := by
  rintro ⟨_, _, _, -, ⟨s₁, kind, _, _, _, hst, -⟩ | ⟨s₁, e, hst⟩⟩
  · simp [h] at hst
  · simp [h] at hst

theorem not_engages_of_closed {v : View} {s : Except Text (Option FileKind)} {kind : FileKind}
    {c : Text × Option Text} {path : Text} (hs : v.statuses = [s, .ok (some kind)])
    (hc : v.contents = [c, (path, none)]) : ¬Engages cfg v := by
  rintro ⟨_, _, _, -, ⟨s₁, k, c₁, c₂, rest, -, hct⟩ | ⟨s₁, e, hst⟩⟩
  · simp [hc] at hct
  · simp [hs] at hst

theorem Looking.gaveUp {v : View} {w : World π} (h : Looking cfg allow rely w₀ v w)
    (hn : ¬Engages cfg v) : AtEnd cfg allow rely w₀ false w := by
  refine .inr ⟨rfl, h.1, ?_⟩
  rw [h.2]
  exact hn

theorem looked_of_shown {v v' : View} {r r₂ : Reading Text} {content : Text}
    (h : Shown cfg v r content) (hc : toInt32 (countRecords content) ≠ 0) (hr : Named r₂)
    (hn : v'.names = [r, r₂]) (hs : v.statuses <+: v'.statuses) (hcs : v.contents <+: v'.contents)
    (hrn : v'.renders = v.renders) (hp : v'.published = v.published) :
    Looked cfg v' r r₂ content where
  shown := by
    obtain ⟨ss, hs⟩ := hs
    obtain ⟨cs, hcs⟩ := hcs
    obtain ⟨kind, hk⟩ := h.found
    refine ⟨h.named, ⟨kind, ?_⟩, ?_, by rw [hrn]; exact h.rendered, by rw [hp]; exact h.published⟩
    · rw [← hs, List.head?_append, hk]
      rfl
    · rw [← hcs, List.head?_append, h.counted]
      rfl
  count_ne := hc
  named := hr
  names := hn

theorem safe_open {w : World π} {t : Transfer} (hw : Run cfg allow rely w₀ (.prepared t) w) {X}
    {f : Rat → Nat → M (Stage ⊕ Bool)}
    (hf : ∀ threshold progress w', Run cfg allow rely w₀ (.waiting
      { t with arcThreshold := threshold, lastProgress := progress }) w' →
        Safe (system allow rely) (Met cfg allow rely w₀)
          (Sum.elim (AtHead cfg allow rely w₀) (AtEnd cfg allow rely w₀)) X
          (f threshold progress) w') :
    Safe (system allow rely) (Met cfg allow rely w₀)
      (Sum.elim (AtHead cfg allow rely w₀) (AtEnd cfg allow rely w₀)) X
      (do
        let _ ← writeInt16 .AnzDatenblöcke (toInt16 t.anzBlocke)
        let _ ← writeInt16 .IndexData 0
        setTransferFlags false true false
        let minArcRadius ← readMinArcRadius
        let lastProgress ← now
        f (if minArcRadius.success then minArcRadius.value else 0) lastProgress) w := by
  simp only [setTransferFlags, Prog.perform_bind]
  refine safe_step hw (fun _ => .published t) (.publish t) fun _ w₁ h₁ => ?_
  refine safe_step h₁ (fun _ => .opening t 0) (.reset t) fun _ w₂ h₂ => ?_
  refine safe_step h₂ (fun _ => .opening t 1) (.openWriteData t) fun _ w₃ h₃ => ?_
  refine safe_step h₃ (fun _ => .opening t 2) (.openReadData t) fun _ w₄ h₄ => ?_
  refine safe_step h₄ (fun _ => .opening t 3) (.openBeendet t) fun _ w₅ h₅ => ?_
  refine safe_step h₅ _ (.threshold t) fun radius w₆ h₆ => ?_
  refine safe_step h₆ _ (.tick _) fun progress w₇ h₇ => ?_
  exact hf _ _ w₇ h₇

theorem safe_prepareTransfer (hlog : LogKept rely) {w : World π}
    (hw : Looking cfg allow rely w₀ {} w) :
    Safe (system allow rely) (Met cfg allow rely w₀)
      (Sum.elim (AtHead cfg allow rely w₀) (AtEnd cfg allow rely w₀))
      (fun _ w => Run cfg allow rely w₀ (.closing false 0) w) (prepareTransfer cfg) w := by
  refine safe_showProjectInfo hlog hw ?_ ?_
  · intro r v w₁ hn h₁
    exact h₁.gaveUp (not_engages hn)
  · intro r content s c v w₁ hshown hn hs hc h₁
    generalize hcount : toInt32 (countRecords content) = n
    simp only [Bool.not_true, Bool.false_or, decide_eq_true_eq]
    by_cases hz : n = 0
    · rw [if_pos hz]
      exact h₁.gaveUp (not_engages hn)
    rw [if_neg hz]
    refine safe_readProjectName hlog h₁ fun r₂ w₂ h₂ => ?_
    by_cases hr : r₂.success = true ∧ r₂.value ≠ []
    · have hname : nameOf r₂ = (r₂.value, true) := if_pos hr
      rw [hname]
      simp only [Bool.not_true, Bool.false_eq_true, if_false]
      have hlook : ∀ ss cs, Looked cfg { v with
          names := v.names ++ [r₂], statuses := v.statuses ++ ss, contents := v.contents ++ cs }
          r r₂ content := fun ss cs =>
        looked_of_shown hshown (by rw [hcount]; exact hz) hr (by rw [hn]; rfl)
          (List.prefix_append _ _) (List.prefix_append _ _) rfl rfl
      have hstatuses : ∀ x, v.statuses ++ [x] = [s, x] := fun x => by rw [hs]; rfl
      have hcontents : ∀ x, v.contents ++ [x] = [c, x] := fun x => by rw [hc]; rfl
      refine safe_getProjectInfo hlog h₂ r₂.value ?_ ?_ ?_ ?_
      · intro e w₃ h₃
        have hl := hlook [.error e] []
        rw [List.append_nil] at hl
        refine h₃.1.fail ⟨r, r₂, content, ?_, s, e, ?_⟩
        · rw [h₃.2]
          exact hl
        · rw [h₃.2]
          exact hstatuses _
      · intro w₃ h₃
        exact h₃.gaveUp (not_engages_of_missing (hstatuses _))
      · intro kind w₃ h₃
        exact h₃.gaveUp (not_engages_of_closed (hstatuses _) (hcontents _))
      · intro kind content₂ w₃ h₃
        have hp : Prepared cfg (view w₃.log)
            { filePath := projectPath cfg.folderPath r₂.value
              anzBlocke := blockCount n cfg.lenDataArray
              arcThreshold := 0, currentBlock := 0, lastProgress := 0 } := by
          rw [h₃.2, ← hcount]
          exact ⟨r, r₂, content, hlook _ _,
            ⟨s, kind, c, content₂, [], hstatuses _, hcontents _⟩, rfl, rfl⟩
        exact safe_open (h₃.1.prepare hp rfl)
          (f := fun threshold progress => pure (.inl (.transfer
            { filePath := projectPath cfg.folderPath r₂.value
              anzBlocke := blockCount n cfg.lenDataArray
              arcThreshold := threshold, currentBlock := 0, lastProgress := progress })))
          fun threshold progress w₄ h₄ => h₄
    · have hname : nameOf r₂ = ([], false) := if_neg hr
      rw [hname]
      refine h₂.gaveUp (not_engages_of_unnamed (r := r) ?_ hr)
      rw [hn]
      rfl

theorem safe_nextBlock {pc : Pc} {w : World π} {t : Transfer} (hw : Run cfg allow rely w₀ pc w)
    (hall : t.currentBlock ≥ t.anzBlocke → ∀ text n a,
      Trans cfg pc (.writeInfoText text n) a (.acking t))
    (hnext : ¬t.currentBlock ≥ t.anzBlocke → Run cfg allow rely w₀ (.waiting t) w) {X} :
    Safe (system allow rely) (Met cfg allow rely w₀)
      (Sum.elim (AtHead cfg allow rely w₀) (AtEnd cfg allow rely w₀)) X (nextBlock t) w := by
  rw [nextBlock]
  by_cases hdone : t.currentBlock ≥ t.anzBlocke
  · rw [if_pos hdone]
    simp only [pushInfo, Prog.perform_bind]
    refine safe_step hw (fun _ => .acking t) (hall hdone _ _) fun _ w₁ h₁ => ?_
    exact safe_step h₁ (fun _ => .acking t) (.quiet _ trivial) fun _ w₂ h₂ => ⟨t, h₂⟩
  · rw [if_neg hdone]
    exact hnext hdone

theorem safe_writeDataBlock {w : World π} {t : Transfer} {block : List Text}
    (hw : Run cfg allow rely w₀ (.loaded t block) w) {Q : α → World π → Prop} {X}
    {f : Bool → M α}
    (hwritten : ∀ w', Run cfg allow rely w₀ (.filled t) w' →
      Safe (system allow rely) (Met cfg allow rely w₀) Q X (f true) w')
    (hfailed : ∀ w', Run cfg allow rely w₀ (.closing true 0) w' →
      Safe (system allow rely) (Met cfg allow rely w₀) Q X (f false) w') :
    Safe (system allow rely) (Met cfg allow rely w₀) Q X (writeDataBlockToSPS block >>= f) w := by
  have hlog : ∀ (code : Int) (w' : World π), Run cfg allow rely w₀ (.closing true 0) w' →
      Safe (system allow rely) (Met cfg allow rely w₀)
        (fun a w => Safe (system allow rely) (Met cfg allow rely w₀) Q X (f a) w) X
        (logAndPushError (lit "Fehler beim Schreiben des Datenblocks: " ++ toText code) code >>=
          fun _ => pure false) w' :=
    fun code w' h => safe_quiet h (quiet_logAndPushError _ _) fun _ w'' h'' => hfailed w'' h''
  apply Safe.bind
  simp only [writeDataBlockToSPS]
  apply Safe.bind
  simp only [writeStringArray, Prog.perform_bind, List.length_singleton, List.headD_cons]
  refine safe_call hw fun a w₁ h₁ => ?_
  by_cases hread : (!a.success || decide (a.value.elements.length = 0)) = true
  · rw [if_pos hread]
    refine hlog 2 w₁ (h₁ _ (.misfit t ?_))
    simp only [Bool.or_eq_true, Bool.not_eq_true', decide_eq_true_eq] at hread
    exact hread.imp_left fun hs hf => by simp [hf.1] at hs
  rw [if_neg hread]
  by_cases hfit : 0 + 1 > (dims a.value).1 ∨ 0 + block.length > (dims a.value).2
  · simp only [hfit, if_true]
    exact hlog 3 w₁ (h₁ _ (.misfit t (.inl fun hf => hf.2 hfit)))
  · simp only [hfit, if_false]
    have hs : a.success = true := by
      simp only [Bool.or_eq_true, Bool.not_eq_true', not_or, Bool.not_eq_false] at hread
      exact hread.1
    refine safe_call (h₁ _ (.fetch t ⟨hs, hfit⟩)) fun b w₂ h₂ => ?_
    cases hb : b.success with
    | true => exact hwritten w₂ (h₂ _ (.fill t block a.value hb))
    | false => exact hlog 5 w₂ (h₂ _ (.spill t block a.value (by simp [hb])))

theorem safe_sendBlock {w : World π} {t : Transfer} (hw : Run cfg allow rely w₀ (.granted t) w) :
    Safe (system allow rely) (Met cfg allow rely w₀)
      (Sum.elim (AtHead cfg allow rely w₀) (AtEnd cfg allow rely w₀))
      (fun _ w => Run cfg allow rely w₀ (.closing false 0) w) (sendBlock cfg t) w := by
  simp only [sendBlock, Prog.perform_bind]
  refine safe_step hw (fun _ => .cleared t) (.clear t) fun _ w₁ h₁ => ?_
  refine safe_step h₁ (fun _ => .indexed t) (.index t) fun _ w₂ h₂ => ?_
  refine safe_call h₂ fun content w₃ h₃ => ?_
  cases content with
  | none => exact h₃ _ (.lose t)
  | some content =>
    refine safe_writeDataBlock (h₃ _ (.load t content)) ?_ ?_
    · intro w₄ h₄
      simp only [Bool.not_true, Bool.false_eq_true, if_false]
      refine safe_step h₄ _ (.announce t) fun _ w₅ h₅ => ?_
      refine safe_step h₅ _ (.sentTick _) fun progress w₆ h₆ => ?_
      exact safe_nextBlock h₆ (fun hdone => .sentAll _ hdone) h₆.resume
    · intro w₄ h₄
      exact safe_close h₄

theorem safe_transferBlock {w : World π} {t : Transfer}
    (hw : Run cfg allow rely w₀ (.waiting t) w) :
    Safe (system allow rely) (Met cfg allow rely w₀)
      (Sum.elim (AtHead cfg allow rely w₀) (AtEnd cfg allow rely w₀))
      (fun _ w => Run cfg allow rely w₀ (.closing false 0) w) (transferBlock cfg t) w := by
  simp only [transferBlock, Prog.perform_bind]
  refine safe_call hw fun alive w₁ h₁ => ?_
  cases alive with
  | false =>
    refine safe_quiet (h₁ _ (.dead t)) (quiet_logAndPushError _ _) fun _ w₂ h₂ => safe_close h₂
  | true =>
    refine safe_call (h₁ _ (.quiet _ (by exact trivial) _)) fun late w₂ h₂ => ?_
    cases late with
    | true =>
      exact safe_quiet (h₂ _ (.expired t _)) (quiet_logAndPushError _ _)
        fun _ w₃ h₃ => safe_close h₃
    | false =>
      refine safe_call (h₂ _ (.quiet _ (by exact trivial) _)) fun abbruch w₃ h₃ => ?_
      split
      · rename_i hab
        rw [Bool.and_eq_true] at hab
        exact safe_step (h₃ _ (.abort t hab.1 hab.2)) (fun _ => .closing true 0) (.cancel t)
          fun _ w₄ h₄ => safe_close h₄
      · refine safe_call (h₃ _ (.quiet _ (by exact trivial) _)) fun readData w₄ h₄ => ?_
        split
        · rename_i hread
          rw [Bool.and_eq_true] at hread
          exact safe_sendBlock (h₄ _ (.grant t hread.1 hread.2))
        · exact safe_nextBlock (h₄ _ (.quiet _ (by exact trivial) _))
            (fun hdone => .complete t hdone) fun _ => h₄ _ (.quiet _ (by exact trivial) _)

theorem safe_awaitAcknowledgement {w : World π} {t : Transfer} (ackDeadline : Nat)
    (hw : Run cfg allow rely w₀ (.acking t) w) {X} :
    Safe (system allow rely) (Met cfg allow rely w₀)
      (Sum.elim (AtHead cfg allow rely w₀) (AtEnd cfg allow rely w₀)) X
      (awaitAcknowledgement ackDeadline) w := by
  simp only [awaitAcknowledgement, Prog.perform_bind]
  refine safe_call hw fun late w₁ h₁ => ?_
  cases late with
  | true => exact safe_close (h₁ _ (.ackLate t _))
  | false =>
    refine safe_call (h₁ _ (.quiet _ (by exact trivial) _)) fun alive w₂ h₂ => ?_
    cases alive with
    | false => exact safe_close (h₂ _ (.ackDead t))
    | true =>
      refine safe_call (h₂ _ (.quiet _ (by exact trivial) _)) fun writeData w₃ h₃ => ?_
      split
      · rename_i hw
        rw [Bool.and_eq_true, Bool.not_eq_true'] at hw
        exact safe_close (h₃ _ (.ackCleared t hw.1 hw.2))
      · refine safe_call (h₃ _ (.quiet _ (by exact trivial) _)) fun readAck w₄ h₄ => ?_
        split
        · rename_i hr
          rw [Bool.and_eq_true] at hr
          exact safe_step (h₄ _ (.ackRead t hr.1 hr.2)) (fun _ => .closing true 0) (.ackClear t)
            fun _ w₅ h₅ => safe_close h₅
        · exact ⟨t, h₄ _ (.quiet _ (by exact trivial) _)⟩

theorem stable_atHead (hlog : LogKept rely) (stage : Stage) :
    Stable (system allow rely) (AtHead cfg allow rely w₀ stage) := by
  cases stage with
  | start => exact stable_looking hlog {}
  | transfer t => exact stable_run (.waiting t)
  | acknowledge d =>
    rintro w w' ⟨t, h⟩ hr
    exact ⟨t, h.others hr⟩

theorem stable_atEnd (hlog : LogKept rely) (b : Bool) :
    Stable (system allow rely) (AtEnd cfg allow rely w₀ b) := by
  rintro w w' (h | ⟨hb, h, hn⟩) hr
  · exact .inl (h.others hr)
  · exact .inr ⟨hb, h.others hr, by rw [hlog.view_eq hr]; exact hn⟩

/-- Every run of the program is a run of the handshake. -/
theorem transferProjectData_refines (hlog : LogKept rely) (hw₀ : w₀.log = [])
    {c : Conf Req Ans Text Stage Bool (World π)}
    (hc : Reachable (system allow rely) (transferProjectData cfg) .start w₀ c) :
    Safe (system allow rely) (Met cfg allow rely w₀)
      (Sum.elim (AtHead cfg allow rely w₀) (AtEnd cfg allow rely w₀)) (fun _ _ => False)
      c.code c.world := by
  have hstart : AtHead cfg allow rely w₀ .start w₀ := ⟨.init, by rw [hw₀]; rfl⟩
  refine reachable_safe (stable_atHead hlog) (stable_atEnd hlog) (fun _ _ _ h _ => h) ?_ hstart hc
  intro stage w hw
  cases stage with
  | start => exact safe_guarded (safe_prepareTransfer hlog hw)
  | transfer t => exact safe_guarded (safe_transferBlock hw)
  | acknowledge d =>
    obtain ⟨t, h⟩ := hw
    exact safe_guarded (safe_awaitAcknowledgement d h)

theorem exists_run (hlog : LogKept rely) (hw₀ : w₀.log = [])
    {c : Conf Req Ans Text Stage Bool (World π)}
    (hc : Reachable (system allow rely) (transferProjectData cfg) .start w₀ c) :
    ∃ pc, Run cfg allow rely w₀ pc c.world := by
  have h := transferProjectData_refines hlog hw₀ hc
  obtain ⟨code, w⟩ := c
  cases code with
  | ret r =>
    cases r with
    | inl stage =>
      cases stage with
      | start => exact ⟨_, h.1⟩
      | transfer t => exact ⟨_, h⟩
      | acknowledge d =>
        obtain ⟨t, h⟩ := h
        exact ⟨_, h⟩
    | inr b =>
      obtain h | ⟨-, h, -⟩ := h
      · exact ⟨_, h⟩
      · exact ⟨_, h⟩
  | raise e => exact h.elim
  | call q k => exact (h w .refl).1

end Stages

end Datenbereitstellung.TransferRefinement
