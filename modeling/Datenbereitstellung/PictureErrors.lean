import Datenbereitstellung.PreviewRenderer
import Datenbereitstellung.PublishedCounters

namespace Datenbereitstellung.PictureErrors

open Strings Files GCodeParser OpcUa Lib.Program Lib.Rely
open PreviewRenderer (Cmath Primitive Pen renderCommand toInt llround FP_SCALE)
open ProjectManager (Config Transfer toInt32 toInt32_eq_iff numberOr projectPath loadFromSPS
  logAndPushError readProjectNameFromSPS getProjectInfo writeProjectInfoToSPS showPreview
  showProjectInfo prepareTransfer transferProjectData setTransferFlags pushInfo)
open ProjectFileReader (countRecords)
open Handshake (Quiet)
open TransferRefinement (quiet_logAndPushError quiet_pushInfo)
open HandshakeInvariants (after_int16)

section Picture

structure PictureParams extends PreviewRenderer.RenderParams where
  imageSizeX : Int := 1000
  imageSizeY : Int := 2000
  enableMirroring : Bool := true
  drawReferenceAxis : Bool := true

structure Image where
  width : Int
  height : Int
  drawn : List Primitive := []
  mirrored : Bool := false

def scalar (c : OpcUa.Scalar) : PreviewRenderer.Scalar := ⟨c.b, c.g, c.r⟩

/-- What `loadFromSPS` returns. The other fields keep their defaults. -/
def ofSPS (p : OpcUa.RenderParams) : PictureParams where
  imageSizeX := p.imageSizeX
  imageSizeY := p.imageSizeY
  colorG0 := scalar p.colorG0
  colorG1 := scalar p.colorG1
  colorG2 := scalar p.colorG2
  colorG3 := scalar p.colorG3
  liveColor := scalar p.liveColor
  doneColor := scalar p.doneColor
  liveThickness := p.liveThickness
  doneThickness := p.doneThickness
  thicknessG0 := p.thicknessG0
  thicknessG1 := p.thicknessG1
  thicknessG2 := p.thicknessG2
  thicknessG3 := p.thicknessG3
  horizontalOffset := p.horizontalOffset
  verticalOffset := p.verticalOffset
  minArcRadius := p.minArcRadius
  currentRecord := p.currentRecord

/-- The thicknesses that `cv::line` and `cv::polylines` take. -/
def ValidThickness (thickness : Int) : Prop := 1 ≤ thickness ∧ thickness ≤ 32767

instance (thickness : Int) : Decidable (ValidThickness thickness) :=
  inferInstanceAs (Decidable (_ ∧ _))

variable (what : Text)

/-- `cv::Mat` of that size, all black. `what` is the text of the exceptions of the library. -/
def blackImage (width height : Int) : Except Text Image :=
  if 0 ≤ width ∧ 0 ≤ height then .ok { width, height } else .error what

/-- `cv::line` or `cv::polylines` -/
def draw (img : Image) (p : Primitive) : Except Text Image :=
  if ValidThickness p.pen.thickness then .ok { img with drawn := img.drawn ++ [p] } else .error what

def drawReferenceAxis (img : Image) (params : PictureParams) : Except Text Image := do
  let pen : Pen := ⟨params.colorG0, params.thicknessG0⟩
  let x := toInt (llround ((params.horizontalOffset : Rat) * FP_SCALE))
  let y := toInt (llround ((params.verticalOffset : Rat) * FP_SCALE))
  let img ← draw what img
    { shape := .line (x, 0) (x, toInt (params.imageSizeY * FP_SCALE)), pen
      antialiased := params.antialiased }
  draw what img
    { shape := .line (0, y) (toInt (params.imageSizeX * FP_SCALE), y), pen
      antialiased := params.antialiased }

variable {α : Type} [Field α] [LinearOrder α] [FloorRing α] (m : Cmath α) (params : PictureParams)

def drawCommand (img : Image) (cmd : Command) (startPos : Point2D) : Except Text Image :=
  match renderCommand m params.toRenderParams cmd startPos with
  | none => .ok img
  | some p => draw what img p

/-- The loop over the commands; one that cannot be drawn is left out. -/
def drawCommands : List Command → (currentPos : Point2D) → Image → Image
  | [], _, img => img
  | cmd :: cmds, currentPos, img =>
    match drawCommand what m params img cmd currentPos with
    | .ok img => drawCommands cmds cmd.endPosition img
    | .error _ => drawCommands cmds currentPos img

/-- `PreviewRenderer::render`; nobody sets a post-processor. -/
def render (commands : List Command) : Except Text (Image × Int) := do
  let img ← blackImage what params.imageSizeX params.imageSizeY
  let img ← if params.drawReferenceAxis then drawReferenceAxis what img params else pure img
  let img := drawCommands what m params commands ⟨0, 0⟩ img
  pure (if params.enableMirroring then { img with mirrored := !img.mirrored } else img, 0)

def renderPreview (fs : FileSystem) (projectPath : Text) : Except Text (Image × Int) := do
  let parseResult ← parseFile fs projectPath
  if !parseResult.success then
    let emptyImg ← blackImage what params.imageSizeX params.imageSizeY
    pure (emptyImg, 1)
  else render what m params parseResult.commands

variable {what m params}

theorem drawReferenceAxis_of_valid (what : Text) (img : Image)
    (h : ValidThickness params.thicknessG0) :
    ∃ img', drawReferenceAxis what img params = .ok img' := by
  simp [drawReferenceAxis, draw, h, bind, Except.bind]

theorem drawReferenceAxis_of_not_valid (what : Text) (img : Image)
    (h : ¬ValidThickness params.thicknessG0) :
    drawReferenceAxis what img params = .error what := by
  simp [drawReferenceAxis, draw, h, bind, Except.bind]

theorem blackImage_of_nonneg {width height : Int} (hw : 0 ≤ width) (hh : 0 ≤ height) :
    blackImage what width height = .ok { width, height } := by
  rw [blackImage, if_pos ⟨hw, hh⟩]

/-- What `renderPreview` reports, if the image can be made. -/
def status (what : Text) (params : PictureParams) (parsed : Bool) : Except Text Int :=
  if !parsed then .ok 1 else if ValidThickness params.thicknessG0 then .ok 0 else .error what

theorem map_render (commands : List Command) (hx : 0 ≤ params.imageSizeX)
    (hy : 0 ≤ params.imageSizeY) (haxis : params.drawReferenceAxis = true) :
    (render what m params commands).map Prod.snd = status what params true := by
  by_cases hv : ValidThickness params.thicknessG0
  · obtain ⟨img, himg⟩ := drawReferenceAxis_of_valid what
      { width := params.imageSizeX, height := params.imageSizeY } hv
    simp [render, status, blackImage_of_nonneg hx hy, haxis, himg, hv, bind, pure, Except.bind,
      Except.pure, Except.map]
  · have himg := drawReferenceAxis_of_not_valid what
      { width := params.imageSizeX, height := params.imageSizeY } hv
    simp [render, status, blackImage_of_nonneg hx hy, haxis, himg, hv, bind, Except.bind,
      Except.map]

theorem map_renderPreview {fs : FileSystem} {path : Text} {r : ParseResult}
    (hparse : parseFile fs path = .ok r) (hx : 0 ≤ params.imageSizeX) (hy : 0 ≤ params.imageSizeY)
    (haxis : params.drawReferenceAxis = true) :
    (renderPreview what m params fs path).map Prod.snd = status what params r.success := by
  cases hs : r.success with
  | false =>
    simp [renderPreview, status, hparse, hs, blackImage_of_nonneg hx hy, bind, pure, Except.bind,
      Except.pure, Except.map]
  | true =>
    rw [← map_render (m := m) r.commands hx hy haxis]
    simp [renderPreview, hparse, hs, bind, Except.bind]

end Picture

section Project

variable {π : Type} (what : Text) {α : Type} [Field α] [LinearOrder α] [FloorRing α] (m : Cmath α)

/-- The OPC calls succeed, and the picture is drawn and published. -/
def Answered (w : World π) : (q : Req) → Ans q → Prop
  | .renderPreview path params, a =>
    a = (renderPreview what m (ofSPS params) w.fs path).map Prod.snd
  | .publishImage, a => a = .ok ()
  | q, a => Succeeds q a

structure SpsStep (w w' : World π) : Prop where
  fs : w'.fs = w.fs
  ProjektName : w'.nodes.ProjektName = w.nodes.ProjektName
  streghtsG0 : w'.nodes.int16 .streghtsG0 = w.nodes.int16 .streghtsG0

abbrev spsSystem : System Req Ans (World π) := OpcUa.system (Answered what m) SpsStep

/-- The project that is asked for exists and can be read. -/
structure Project (cfg : Config) (w : World π) (content : Text) : Prop where
  imageSizeX : 0 < cfg.imageSizeX
  imageSizeY : 0 < cfg.imageSizeY
  named : w.nodes.ProjektName ≠ []
  found : ∃ kind, w.fs.status (projectPath cfg.folderPath w.nodes.ProjektName) = .ok (some kind)
  readable : w.fs.content (projectPath cfg.folderPath w.nodes.ProjektName) = some content
  records : 1 ≤ countRecords content

/-- `showProjectInfo` returns the number of records, and `transferProjectData` comes to its loop
over the blocks. -/
structure Unblocked (cfg : Config) (content : Text) (w : World π) : Prop where
  shown : Safe (spsSystem what m) (fun _ _ => True)
    (fun r _ => r = ((countRecords content : Int), true)) (fun _ _ => False) (showProjectInfo cfg) w
  entered : Safe (spsSystem what m) (fun _ _ => True) (fun s _ => ∃ t, s = .inl (.transfer t))
    (fun _ _ => False) (transferProjectData cfg .start) w

/-- `parseFile` reports an error, and nothing is drawn. -/
def ParseFails (fs : FileSystem) (path : Text) : Prop :=
  ∃ r, parseFile fs path = .ok r ∧ r.success = false

end Project

section Shown

structure Kept (fs : FileSystem) (name : Text) (thickness : Int) (w : World π) : Prop where
  fs : w.fs = fs
  ProjektName : w.nodes.ProjektName = name
  streghtsG0 : w.nodes.int16 .streghtsG0 = thickness

def Harmless (q : Req) : Prop := ∀ v, q ≠ .writeInt16 .streghtsG0 v

theorem harmless_of_quiet {q : Req} (hq : Quiet q) : Harmless q := by
  rintro v rfl
  cases hq

theorem harmless_writeInt16 {n : Int16Node} (hn : n ≠ .streghtsG0) (v : Int) :
    Harmless (.writeInt16 n v) := by
  rintro v' h
  cases h
  exact hn rfl

theorem after_ProjektName (ns : Nodes) (q : Req) (a : Ans q) :
    (ns.after q a).ProjektName = ns.ProjektName := by
  cases q with
  | writeBool | writeInt16 | writeStrings =>
    simp only [Nodes.after]
    split <;> rfl
  | _ => rfl

variable {what : Text} {α : Type} [Field α] [LinearOrder α] [FloorRing α] {m : Cmath α}
variable {π β γ : Type} {fs : FileSystem} {name : Text} {thickness : Int} {w : World π}
variable {cfg : Config} {content : Text}

theorem stable_kept : Stable (spsSystem what m) fun w : World π => Kept fs name thickness w := by
  intro w w' h hr
  have hr : SpsStep w w' := hr
  exact ⟨hr.fs.trans h.fs, hr.ProjektName.trans h.ProjektName, hr.streghtsG0.trans h.streghtsG0⟩

theorem keeps_kept :
    Keeps (spsSystem what m) Harmless fun w : World π => Kept fs name thickness w := by
  rintro q hq w a _ h ⟨-, -, rfl⟩
  refine ⟨h.fs, (after_ProjektName _ q a).trans h.ProjektName, ?_⟩
  exact (after_int16 _ hq a).trans h.streghtsG0

/-- However the others interleave, `p` ends as `Q` says, without an exception but `X`. -/
abbrev Ends (what : Text) (m : Cmath α) (Q : β → World π → Prop) (X : Text → World π → Prop)
    (p : M β) (w : World π) : Prop :=
  Safe (spsSystem what m) (fun _ _ => True) Q X p w

variable {Q : β → World π → Prop} {X : Text → World π → Prop}

theorem ends_call {q : Req} (hq : Harmless q) {k : Ans q → M β} (hw : Kept fs name thickness w)
    (hk : ∀ (w : World π) a w', Kept fs name thickness w → Truthful w q a → Answered what m w q a →
      Kept fs name thickness w' → Ends what m Q X (k a) w') : Ends what m Q X (.call q k) w := by
  apply Safe.call stable_kept hw (fun _ _ => trivial)
  rintro w a w' h ⟨ht, ha, hw'⟩
  exact hk w a w' h ht ha (keeps_kept q hq w a w' h ⟨ht, ha, hw'⟩)

theorem ends_quiet {p : M γ} {f : γ → M β} (hp : p.Only Quiet) (hw : Kept fs name thickness w)
    (hf : ∀ c w, Kept fs name thickness w → Ends what m Q X (f c) w) :
    Ends what m Q X (p >>= f) w :=
  Safe.only_bind stable_kept (fun q hq => keeps_kept q (harmless_of_quiet hq))
    (fun _ _ _ _ => trivial) hp hw hf

theorem ends_readProjectName {f : Text × Bool → M β} (hne : name ≠ [])
    (hw : Kept fs name thickness w)
    (hf : ∀ w, Kept fs name thickness w → Ends what m Q X (f (name, true)) w) :
    Ends what m Q X (readProjectNameFromSPS >>= f) w := by
  refine Safe.bind (ends_call (q := .readProjektName) nofun hw fun w₀ r w h ht hs hw => ?_)
  have hs : r.success = true := hs
  have hv : r.value = name := (ht hs).trans h.ProjektName
  have hempty : r.value.isEmpty = false := by simpa [hv] using hne
  simp only [Prog.bind, hs, hempty, Bool.not_true, Bool.false_eq_true, if_false]
  rw [hv]
  exact hf w hw

theorem ends_getProjectInfo {kind : FileKind} {f : Option ProjectManager.ProjectInfo → M β}
    (hfound : fs.status (projectPath cfg.folderPath name) = .ok (some kind))
    (hread : fs.content (projectPath cfg.folderPath name) = some content)
    (hw : Kept fs name thickness w)
    (hf : ∀ w, Kept fs name thickness w → Ends what m Q X (f (some
      { name, filePath := projectPath cfg.folderPath name, recordCount := countRecords content
        exist := true })) w) :
    Ends what m Q X (getProjectInfo cfg.folderPath name >>= f) w := by
  refine Safe.bind (ends_call (q := .status _) nofun hw fun w₀ s w h ht _ hw => ?_)
  obtain rfl : s = .ok (some kind) := by
    rw [← hfound, ← h.fs]
    exact ht
  refine ends_call (q := .openFile _) nofun hw fun w₀ c w h ht _ hw => ?_
  obtain rfl : c = some content := by
    rw [← hread, ← h.fs]
    exact ht
  exact hf w hw

theorem ends_writeProjectInfo {info : ProjectManager.ProjectInfo} {f : Bool → M β}
    (he : info.exist = true) (hw : Kept fs name thickness w)
    (hf : ∀ w, Kept fs name thickness w → Ends what m Q X (f true) w) :
    Ends what m Q X (writeProjectInfoToSPS cfg info >>= f) w := by
  apply Safe.bind
  simp only [writeProjectInfoToSPS, he, Bool.not_true, Bool.false_eq_true, if_false,
    Prog.perform_bind]
  refine ends_call (harmless_writeInt16 (by decide) _) hw fun _ _ w _ _ _ hw => ?_
  refine ends_call (q := .writeBool _ _) (fun _ he => by cases he) hw fun _ _ w _ _ _ hw => ?_
  refine ends_call (harmless_writeInt16 (by decide) _) hw fun _ _ w _ _ _ hw => ?_
  exact ends_quiet (quiet_pushInfo _) hw fun _ w hw => hf w hw

theorem ends_loadFromSPS {f : OpcUa.RenderParams → M β} {x y : Int}
    (hw : Kept fs name thickness w)
    (hf : ∀ params w, params.thicknessG0 = thickness → params.imageSizeX = x →
      params.imageSizeY = y → Kept fs name thickness w → Ends what m Q X (f params) w) :
    Ends what m Q X (loadFromSPS x y >>= f) w := by
  have hreadInt16Array : ∀ n, Harmless (.readInt16Array n) := fun n v h => by cases h
  have hreadInt16 : ∀ n, Harmless (.readInt16 n) := fun n v h => by cases h
  have hreadMinArcRadius : Harmless .readMinArcRadius := fun v h => by cases h
  apply Safe.bind
  simp only [loadFromSPS, Prog.perform_bind]
  iterate 6 refine ends_call (hreadInt16Array _) hw fun _ _ w _ _ _ hw => ?_
  iterate 2 refine ends_call (hreadInt16 _) hw fun _ _ w _ _ _ hw => ?_
  refine ends_call (hreadInt16 .streghtsG0) hw fun w₀ g0 w h ht hs hw => ?_
  have hs : g0.success = true := hs
  have hg0 : g0.value = thickness := (ht hs).trans h.streghtsG0
  iterate 5 refine ends_call (hreadInt16 _) hw fun _ _ w _ _ _ hw => ?_
  refine ends_call hreadMinArcRadius hw fun _ _ w _ _ _ hw => ?_
  exact hf _ w (by simp [numberOr, hs, hg0]) rfl rfl hw

def shownAs (records : Nat) (thickness : Int) (parsed : Bool) : Int × Bool :=
  if parsed = false ∨ ValidThickness thickness then (toInt32 records, true) else (0, false)

theorem ends_showPreview {f : Unit → M β} {path : Text} {r : ParseResult}
    (hparse : parseFile fs path = .ok r) (hx : 0 ≤ cfg.imageSizeX) (hy : 0 ≤ cfg.imageSizeY)
    (hw : Kept fs name thickness w)
    (hf : ∀ w, Kept fs name thickness w → r.success = false ∨ ValidThickness thickness →
      Ends what m Q X (f ()) w)
    (hX : ∀ w, Kept fs name thickness w → ¬(r.success = false ∨ ValidThickness thickness) →
      X what w) :
    Ends what m Q X (showPreview cfg path >>= f) w := by
  unfold showPreview
  rw [Prog.bind_assoc]
  refine ends_loadFromSPS hw fun params w ht hsx hsy hw => ?_
  refine ends_call (q := .renderPreview _ _) nofun hw fun w₀ a w h _ ha hw => ?_
  have hx : 0 ≤ (ofSPS params).imageSizeX := hx.trans_eq hsx.symm
  have hy : 0 ≤ (ofSPS params).imageSizeY := hy.trans_eq hsy.symm
  have ha : a = status what (ofSPS params) r.success := by
    rw [← map_renderPreview (m := m) hparse hx hy rfl, ← h.fs]
    exact ha
  have ht : (ofSPS params).thicknessG0 = thickness := ht
  rw [status, ht] at ha
  cases hs : r.success with
  | false =>
    obtain rfl : a = .ok 1 := by simpa [hs] using ha
    refine ends_call (harmless_writeInt16 (by decide) _) hw fun _ _ w _ _ _ hw => ?_
    exact ends_quiet (quiet_logAndPushError _ _) hw fun _ w hw => hf w hw (.inl hs)
  | true =>
    by_cases hv : ValidThickness thickness
    · obtain rfl : a = .ok 0 := by simpa [hs, hv] using ha
      refine ends_call (q := .publishImage) nofun hw fun _ p w _ _ hp hw => ?_
      obtain rfl : p = .ok () := hp
      exact hf w hw (.inr hv)
    · obtain rfl : a = .error what := by simpa [hs, hv] using ha
      exact hX w hw (by simp [hs, hv])

variable (what m) in
theorem ends_showProjectInfo {kind : FileKind} {r : ParseResult} (hne : name ≠ [])
    (hfound : fs.status (projectPath cfg.folderPath name) = .ok (some kind))
    (hread : fs.content (projectPath cfg.folderPath name) = some content)
    (hparse : parseFile fs (projectPath cfg.folderPath name) = .ok r) (hx : 0 ≤ cfg.imageSizeX)
    (hy : 0 ≤ cfg.imageSizeY) (hw : Kept fs name thickness w) :
    Ends what m
      (fun a w => a = shownAs (countRecords content) thickness r.success ∧
        Kept fs name thickness w)
      (fun _ _ => False) (showProjectInfo cfg) w := by
  let Shown : Int × Bool → World π → Prop := fun a w =>
    a = shownAs (countRecords content) thickness r.success ∧ Kept fs name thickness w
  let Thrown : Text → World π → Prop := fun _ w =>
    ¬(r.success = false ∨ ValidThickness thickness) ∧ Kept fs name thickness w
  refine Safe.handle (Safe.mono (Q := Shown) (X := Thrown) ?_ (fun _ _ h => h) ?_)
  · refine ends_readProjectName hne hw fun w hw => ?_
    refine ends_getProjectInfo hfound hread hw fun w hw => ?_
    refine ends_writeProjectInfo rfl hw fun w hw => ?_
    refine ends_showPreview hparse hx hy hw (fun w hw hd => ?_) fun _ hw hd => ⟨hd, hw⟩
    exact ⟨(if_pos hd).symm, hw⟩
  · rintro e w ⟨hd, hw⟩
    exact ends_quiet (quiet_logAndPushError _ _) hw fun _ w hw => ⟨(if_neg hd).symm, hw⟩

theorem ends_prepareTransfer {kind : FileKind} (hne : name ≠ [])
    (hfound : fs.status (projectPath cfg.folderPath name) = .ok (some kind))
    (hread : fs.content (projectPath cfg.folderPath name) = some content) {records : Int}
    (hrec : records ≠ 0)
    (hshown : Ends what m (fun a w => a = (records, true) ∧ Kept fs name thickness w)
      (fun _ _ => False) (showProjectInfo cfg) w) :
    Ends what m (fun s _ => ∃ t, s = .inl (.transfer t)) (fun _ _ => False)
      (transferProjectData cfg .start) w := by
  refine Safe.handle (Safe.mono (X := fun _ _ => False) ?_ (fun _ _ h => h) fun _ _ h => h.elim)
  refine Safe.bind (hshown.mono ?_ fun _ _ h => h)
  rintro _ w ⟨rfl, hw⟩
  simp only [Bool.not_true, Bool.false_or, decide_eq_true_eq, if_neg hrec]
  refine ends_readProjectName hne hw fun w hw => ?_
  refine ends_getProjectInfo hfound hread hw fun w hw => ?_
  refine ends_call (harmless_writeInt16 (by decide) _) hw fun _ _ w _ _ _ hw => ?_
  refine ends_call (harmless_writeInt16 (by decide) _) hw fun _ _ w _ _ _ hw => ?_
  iterate 3 refine ends_call (q := .writeBool _ _) nofun hw fun _ _ w _ _ _ hw => ?_
  refine ends_call (q := .readMinArcRadius) nofun hw fun _ _ w _ _ _ hw => ?_
  exact ends_call (q := .now) nofun hw fun _ _ _ _ _ _ _ => ⟨_, rfl⟩

theorem exists_answer (q : Req) (w : World π) : ∃ a w', (spsSystem what m).exec q w a w' := by
  cases q with
  | renderPreview path params => exact ⟨_, _, trivial, rfl, rfl⟩
  | publishImage => exact ⟨.ok (), _, trivial, rfl, rfl⟩
  | status path => exact ⟨_, _, rfl, trivial, rfl⟩
  | entries path => exact ⟨_, _, rfl, trivial, rfl⟩
  | openFile path => exact ⟨_, _, rfl, trivial, rfl⟩
  | keepAlive | now | handshakeExpired | ackExpired =>
    exact ⟨honest w _, _, trivial, trivial, rfl⟩
  | _ => exact ⟨honest w _, _, truthful_honest w _, rfl, rfl⟩

theorem shownAs_eq_iff (n : Nat) (thickness : Int) (parsed : Bool) :
    shownAs n thickness parsed = ((n : Int), true) ↔
      n < 2 ^ 31 ∧ (parsed = false ∨ ValidThickness thickness) := by
  rw [shownAs]
  split
  · rename_i h
    simp [h, toInt32_eq_iff]
  · rename_i h
    simp [h]

theorem exists_parseFile {path : Text} {kind : FileKind} (h : fs.status path = .ok (some kind)) :
    ∃ r, parseFile fs path = .ok r := by
  simp [parseFile, isValidFilePath, h, Except.map]

theorem unblocked_iff_of_parsed {r : ParseResult} (hP : Project cfg w content)
    (hparse : parseFile w.fs (projectPath cfg.folderPath w.nodes.ProjektName) = .ok r) :
    Unblocked what m cfg content w ↔
      countRecords content < 2 ^ 31 ∧
        (r.success = false ∨ ValidThickness (w.nodes.int16 .streghtsG0)) := by
  obtain ⟨kind, hfound⟩ := hP.found
  have hw : Kept w.fs w.nodes.ProjektName (w.nodes.int16 .streghtsG0) w := ⟨rfl, rfl, rfl⟩
  have hshown := ends_showProjectInfo what m hP.named hfound hP.readable hparse
    hP.imageSizeX.le hP.imageSizeY.le hw
  rw [← shownAs_eq_iff]
  constructor
  · intro h
    obtain ⟨a, w', ⟨ha, -⟩, ha'⟩ | ⟨_, _, h, -⟩ := (hshown.and h.shown).exists_end exists_answer
    · exact ha.symm.trans ha'
    · exact h.elim
  · intro h
    rw [h] at hshown
    refine ⟨hshown.mono (fun _ _ ha => ha.1) fun _ _ he => he, ?_⟩
    have hrec := hP.records
    exact ends_prepareTransfer hP.named hfound hP.readable (by omega) hshown

/-- The thickness of the axes is the one value that can block a project. -/
theorem unblocked_iff (hP : Project cfg w content) :
    Unblocked what m cfg content w ↔
      countRecords content < 2 ^ 31 ∧
        (ParseFails w.fs (projectPath cfg.folderPath w.nodes.ProjektName) ∨
          ValidThickness (w.nodes.int16 .streghtsG0)) := by
  obtain ⟨kind, hfound⟩ := hP.found
  obtain ⟨r, hparse⟩ := exists_parseFile hfound
  have hfails : ParseFails w.fs (projectPath cfg.folderPath w.nodes.ProjektName) ↔
      r.success = false := by
    simp [ParseFails, hparse]
  rw [unblocked_iff_of_parsed hP hparse, hfails]

end Shown

section Examples

def oneLine : Text := ['%', '\n', 'G', '0', '1', ' ', 'X', '1']

def oneRecord (thickness : Int) : World Unit where
  nodes := { emptyNodes with
    int16 := fun n => if n = .streghtsG0 then thickness else 0
    ProjektName := ['a'] }
  fs := FileSystem.ofFiles [(['/', 'a'], oneLine)]
  plc := ()

def small : Config := { folderPath := [], imageSizeX := 10, imageSizeY := 10, lenDataArray := 5 }

theorem project_oneRecord (thickness : Int) : Project small (oneRecord thickness) oneLine where
  imageSizeX := by decide
  imageSizeY := by decide
  named := nofun
  found := ⟨.regular, rfl⟩
  readable := rfl
  records := by decide

theorem unblocked_iff_thinAxes :
    Project small (oneRecord 1) oneLine ∧
      Unblocked (lit "thickness") PreviewRenderer.exact small oneLine (oneRecord 1) :=
  ⟨project_oneRecord 1, (unblocked_iff (project_oneRecord 1)).mpr ⟨by decide, .inr (by decide)⟩⟩

theorem blocked_noAxes :
    Project small (oneRecord 0) oneLine ∧
      ¬Unblocked (lit "thickness") PreviewRenderer.exact small oneLine (oneRecord 0) := by
  refine ⟨project_oneRecord 0, fun h => ?_⟩
  have hparse : parseFile (oneRecord 0).fs ['/', 'a'] = .ok (parseContent oneLine) :=
    parseFile_of_content rfl rfl
  have := ((unblocked_iff_of_parsed (project_oneRecord 0) hparse).mp h).2
  revert this
  decide

end Examples

end Datenbereitstellung.PictureErrors
