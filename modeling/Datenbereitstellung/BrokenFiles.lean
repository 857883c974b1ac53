import Datenbereitstellung.DrawingLoops
import Datenbereitstellung.SweepDrawing
import Datenbereitstellung.ToolPath

namespace Datenbereitstellung.BrokenFiles

open Strings Files AppState GCodeParser ArcFlatten PreviewPaths PreviewRenderer PictureErrors
open PreviewWorker (Req Ans Stage previewWorkerLoop)
open ProjectManager (toInt32 toSize)
open SweepDrawing (Fit fitCommands makeParams scaleCommand drawnRange)
open ToolPath (numbered unreadable Unreadable modal_parseContent)
open Lib.Program

variable {α : Type} [Field α] [LinearOrder α] [FloorRing α] {m : Cmath α}

section Pens

def penOf (params : RenderParams) (c : Command) : Option Pen :=
  (basePen params c.type).map fun base =>
    let flattenToLine := isArc c.type &&
      shouldFlatten (radiusSq c.arcCenter.x c.arcCenter.y) params.minArcRadius
    progressPen params c.recordIndex
      (if flattenToLine then ⟨params.colorG1, params.thicknessG1⟩ else base)

def Drawable (params : RenderParams) (c : Command) : Bool :=
  (penOf params c).any fun pen => decide (ValidThickness pen.thickness)

theorem map_pen_renderCommand (params : RenderParams) (c : Command) (startPos : Point2D) :
    (renderCommand m params c startPos).map (·.pen) = penOf params c := by
  rw [SweepDrawing.pen_renderCommand, SweepDrawing.plainPen, Option.map_map]
  rfl

theorem any_renderCommand (params : RenderParams) (c : Command) (startPos : Point2D) :
    (renderCommand m params c startPos).any (fun p => decide (ValidThickness p.pen.thickness)) =
      Drawable params c := by
  rw [Drawable, ← map_pen_renderCommand (m := m) params c startPos, Option.any_map]

theorem length_drawCommands (what : Text) (params : PictureParams) (cmds : List Command)
    (currentPos : Point2D) (img : Image) :
    (drawCommands what m params cmds currentPos img).drawn.length =
      img.drawn.length + cmds.countP (Drawable params.toRenderParams) := by
  induction cmds generalizing currentPos img with
  | nil => rfl
  | cons cmd cmds ih =>
    have hany := any_renderCommand (m := m) params.toRenderParams cmd currentPos
    rw [List.countP_cons, ← hany]
    cases hd : renderCommand m params.toRenderParams cmd currentPos with
    | none => simp [drawCommands, drawCommand, hd, ih]
    | some p =>
      by_cases hv : ValidThickness p.pen.thickness
      · simp [drawCommands, drawCommand, hd, draw, hv, ih]
        omega
      · simp [drawCommands, drawCommand, hd, draw, hv, ih]

theorem countP_renderLoop (params : RenderParams) (cmds : List Command) (i : Nat)
    (cur : Point2D) :
    (renderLoop m params cmds i cur).1.countP
        (fun s => decide (ValidThickness s.primitive.pen.thickness)) =
      cmds.countP (Drawable params) := by
  induction cmds generalizing i cur with
  | nil => rfl
  | cons cmd cmds ih =>
    have hany := any_renderCommand (m := m) params cmd cur
    simp only [renderLoop, List.countP_append, ih, List.countP_cons, ← hany]
    cases hd : renderCommand m params cmd cur with
    | none => simp
    | some p =>
      by_cases hv : ValidThickness p.pen.thickness
      · simp [hv]
        omega
      · simp [hv]

end Pens

section Picture

variable (params : PictureParams)

def axes : Nat := if params.drawReferenceAxis then 2 else 0

structure Makeable : Prop where
  imageSizeX : 0 ≤ params.imageSizeX
  imageSizeY : 0 ≤ params.imageSizeY
  axes : params.drawReferenceAxis = true → ValidThickness params.thicknessG0

variable {params} {what : Text}

def emptyPicture (what : Text) (params : PictureParams) : Except Text Image := do
  let img ← blackImage what params.imageSizeX params.imageSizeY
  if params.drawReferenceAxis then drawReferenceAxis what img params else pure img

theorem length_drawReferenceAxis {img img' : Image} (h : ValidThickness params.thicknessG0)
    (himg : drawReferenceAxis what img params = .ok img') :
    img'.drawn.length = img.drawn.length + 2 := by
  simp only [drawReferenceAxis, draw, h, if_true, bind, Except.bind, Except.ok.injEq] at himg
  simp [← himg]

variable (what) in
theorem emptyPicture_of_makeable (h : Makeable params) :
    ∃ img, emptyPicture what params = .ok img ∧ img.drawn.length = axes params := by
  rw [emptyPicture, axes]
  rw [blackImage_of_nonneg h.imageSizeX h.imageSizeY]
  cases haxis : params.drawReferenceAxis with
  | false => exact ⟨_, rfl, rfl⟩
  | true =>
    have hv := h.axes haxis
    obtain ⟨img, himg⟩ := drawReferenceAxis_of_valid what
      { width := params.imageSizeX, height := params.imageSizeY } hv
    exact ⟨img, himg, length_drawReferenceAxis hv himg⟩

theorem makeable_of_emptyPicture {img : Image} (h : emptyPicture what params = .ok img) :
    Makeable params := by
  by_cases hsize : 0 ≤ params.imageSizeX ∧ 0 ≤ params.imageSizeY
  · refine ⟨hsize.1, hsize.2, fun haxis => ?_⟩
    by_contra hv
    simp [emptyPicture, blackImage_of_nonneg hsize.1 hsize.2, haxis,
      drawReferenceAxis_of_not_valid what _ hv, bind, Except.bind] at h
  · simp [emptyPicture, blackImage, hsize, bind, Except.bind] at h

theorem render_eq (cmds : List Command) :
    render what m params cmds = (emptyPicture what params).map fun img =>
      let img := drawCommands what m params cmds ⟨0, 0⟩ img
      (if params.enableMirroring then { img with mirrored := !img.mirrored } else img, 0) := by
  rw [render, emptyPicture]
  cases blackImage what params.imageSizeX params.imageSizeY with
  | error e => rfl
  | ok img =>
    cases haxis : params.drawReferenceAxis with
    | false => rfl
    | true =>
      cases himg : drawReferenceAxis what img params with
      | error e => simp [himg, bind, Except.bind, Except.map]
      | ok img => simp [himg, bind, pure, Except.bind, Except.pure, Except.map]

variable (m what) in
theorem render_eq_ok_iff (cmds : List Command) (n : Nat) :
    (∃ img, render what m params cmds = .ok (img, 0) ∧ img.drawn.length = axes params + n) ↔
      Makeable params ∧ cmds.countP (Drawable params.toRenderParams) = n := by
  have hdrawn : ∀ img : Image, (if params.enableMirroring then
      { drawCommands what m params cmds ⟨0, 0⟩ img with
        mirrored := !(drawCommands what m params cmds ⟨0, 0⟩ img).mirrored }
      else drawCommands what m params cmds ⟨0, 0⟩ img).drawn.length =
        img.drawn.length + cmds.countP (Drawable params.toRenderParams) := by
    intro img
    rw [← length_drawCommands (m := m) what params cmds ⟨0, 0⟩ img]
    split <;> rfl
  rw [render_eq]
  constructor
  · rintro ⟨img', himg', hn⟩
    cases hempty : emptyPicture what params with
    | error e => simp [hempty, Except.map] at himg'
    | ok img =>
      have hm := makeable_of_emptyPicture hempty
      obtain ⟨_, himg, haxes⟩ := emptyPicture_of_makeable what hm
      obtain rfl := Except.ok.inj (himg.symm.trans hempty)
      simp only [hempty, Except.map, Except.ok.injEq, Prod.mk.injEq, and_true] at himg'
      rw [← himg', hdrawn, haxes] at hn
      exact ⟨hm, Nat.add_left_cancel hn⟩
  · rintro ⟨hm, hn⟩
    obtain ⟨img, himg, haxes⟩ := emptyPicture_of_makeable what hm
    rw [himg]
    exact ⟨_, rfl, by rw [hdrawn, haxes, hn]⟩

theorem renderPreview_eq_ok_iff {fs : FileSystem} {path : Text} {r : ParseResult}
    (hparse : parseFile fs path = .ok r) (n : Nat) :
    (∃ img, renderPreview what m params fs path = .ok (img, 0) ∧
        img.drawn.length = axes params + n) ↔
      r.success = true ∧ Makeable params ∧
        r.commands.countP (Drawable params.toRenderParams) = n := by
  cases hs : r.success with
  | true =>
    rw [← render_eq_ok_iff m what]
    simp [renderPreview, hparse, hs, bind, Except.bind]
  | false =>
    apply iff_of_false
    · rintro ⟨img, himg, -⟩
      cases hb : blackImage what params.imageSizeX params.imageSizeY <;>
        simp [renderPreview, hparse, hs, hb, bind, pure, Except.bind, Except.pure] at himg
    · simp

end Picture

section Page

structure Page where
  web : Style := {}
  minArcRadius : Rat := 0
  sizeX : Int := 2000
  sizeY : Int := 4000

variable (m : Cmath α) (page : Page) (r : ParseResult)

def fitted : Fit :=
  fitCommands (flattenCommandsMM r.commands page.minArcRadius) page.sizeX page.sizeY 40

/-- The number of commands of a range that are drawn: OpenCV does not take the others. -/
def drawnBy (range : Int × Int) : Nat :=
  let fit := fitted page r
  (renderRange m (makeParams page.web 0 fit.hOff fit.vOff) fit.commands (toSize range.1)
    (toSize range.2) ⟨0, 0⟩).1.countP fun s => decide (ValidThickness s.primitive.pen.thickness)

def message : Req → Option Text
  | .setStatus _ st => some st.message
  | _ => none

def lastMessage (tr : List (Called Req Ans)) : Option Text :=
  (tr.filterMap fun e => message e.1).getLast?

def drawnRanges (tr : List (Called Req Ans)) : List (Int × Int) :=
  tr.filterMap fun e => drawnRange e.1

def Serves (fs : FileSystem) (path : Text) (cmd : PreviewCommand) : (q : Req) → Ans q → Prop
  | .takeCommand, a => a = some cmd
  | .getProjectInfo _, a => ∀ p, a = .ok (some p) → p = path
  | .commands p, a => ∀ n, a = .ok n →
    ∃ r, parseFile fs p = .ok r ∧ n = (fitted page r).commands.length
  | _, _ => True

def drawnCommands : List Command := r.commands.take (toSize (toInt32 r.commands.length))

def pageParams : RenderParams := makeParams page.web page.minArcRadius 0 0

variable {m page r}

theorem exists_fitCommands (cmds : List Command) (W H : Int) (margin : Rat) :
    ∃ scale, (fitCommands cmds W H margin).commands = cmds.map (scaleCommand scale) := by
  rw [fitCommands]
  cases hcmds : cmds with
  | nil => exact ⟨1, rfl⟩
  | cons c cs => exact ⟨_, rfl⟩

theorem progressPen_page (t : Rat) (hOff vOff i : Int) (pen : Pen) :
    progressPen (makeParams page.web t hOff vOff) i pen = pen := by
  simp [progressPen, makeParams]

theorem penOf_scaled (hOff vOff : Int) (scale : Rat) (c : Command) :
    penOf (makeParams page.web 0 hOff vOff)
        (scaleCommand scale (flattenCommand page.minArcRadius c)) = penOf (pageParams page) c := by
  simp only [penOf, pageParams, progressPen_page, scaleCommand]
  cases hf : isArc c.type && shouldFlatten (radiusSq c.arcCenter.x c.arcCenter.y)
      page.minArcRadius with
  | true =>
    have harc : isArc c.type = true := (Bool.and_eq_true_iff.mp hf).1
    have hline : flattenCommand page.minArcRadius c = { c with type := .G01 } := by
      simp [flattenCommand, hf]
    have hf' : (isArc c.type && shouldFlatten (radiusSq c.arcCenter.x c.arcCenter.y)
        (makeParams page.web page.minArcRadius 0 0).minArcRadius) = true := hf
    rw [hline]
    simp only [hf', if_true]
    cases htype : c.type with
    | None | G00 | G01 => simp [htype, isArc] at harc
    | G02 | G03 => rfl
  | false =>
    have hkept : flattenCommand page.minArcRadius c = c := by
      simp [flattenCommand, hf]
    have hnone : ∀ rSq, shouldFlatten rSq (makeParams page.web 0 hOff vOff).minArcRadius = false :=
      shouldFlatten_of_nonpos le_rfl
    have hf' : (isArc c.type && shouldFlatten (radiusSq c.arcCenter.x c.arcCenter.y)
        (makeParams page.web page.minArcRadius 0 0).minArcRadius) = false := hf
    rw [hkept]
    simp only [hnone, hf', Bool.and_false, Bool.false_eq_true, if_false]
    rfl

theorem countP_fitted (hOff vOff : Int) (k : Nat) :
    ((fitted page r).commands.take k).countP (Drawable (makeParams page.web 0 hOff vOff)) =
      (r.commands.take k).countP (Drawable (pageParams page)) := by
  obtain ⟨scale, hscale⟩ := exists_fitCommands
    (flattenCommandsMM r.commands page.minArcRadius) page.sizeX page.sizeY 40
  rw [fitted, hscale, flattenCommandsMM_eq, List.map_map, ← List.map_take, List.countP_map]
  apply List.countP_congr
  intro c _
  simp only [Function.comp, Drawable, penOf_scaled]

theorem length_fitted : (fitted page r).commands.length = r.commands.length := by
  obtain ⟨scale, hscale⟩ := exists_fitCommands
    (flattenCommandsMM r.commands page.minArcRadius) page.sizeX page.sizeY 40
  rw [fitted, hscale, flattenCommandsMM_eq, List.length_map, List.length_map]

theorem drawnBy_total :
    drawnBy m page r (0, toInt32 r.commands.length) =
      (drawnCommands r).countP (Drawable (pageParams page)) := by
  have hzero : toSize 0 = 0 := rfl
  rw [drawnBy, renderRange, hzero, List.drop_zero, countP_renderLoop, countP_fitted,
    drawnCommands]

end Page

section Report

variable (what : Text) (m : Cmath α) (page : Page) (params : PictureParams) (fs : FileSystem)
variable (path : Text)

/-- Wherever the page shows that a render job is done, the picture for the PLC is drawn, and of as
many commands. -/
def ReportedAlike : Prop :=
  ∀ (cfg : PreviewWorker.Config) (cmd : PreviewCommand) (r : ParseResult)
    (tr : List (Called Req Ans)) (next : Stage ⊕ Unit),
    cmd.action = .render → parseFile fs path = .ok r →
    Prog.RunsBy (Serves page fs path cmd) (previewWorkerLoop cfg .work) tr next →
    lastMessage tr = some [] →
    ∃ img, renderPreview what m params fs path = .ok (img, 0) ∧
      img.drawn.length = axes params + ((drawnRanges tr).map (drawnBy m page r)).sum

/-- No line of the file is unreadable, the picture can be made, and the thicknesses of the page and
those of the PLC are in range for as many commands. -/
structure Shows (content : Text) : Prop where
  readable : ∀ q ∈ numbered content, ¬Unreadable q.1
  makeable : Makeable params
  drawable : (parseContent content).commands.countP (Drawable params.toRenderParams) =
    (drawnCommands (parseContent content)).countP (Drawable (pageParams page))

variable {what m page params fs path}

theorem lastMessage_concat (tr : List (Called Req Ans)) (site : PreviewWorker.Site) (st : Status)
    (a : Unit) : lastMessage (tr ++ [⟨.setStatus site st, a⟩]) = some st.message := by
  simp [lastMessage, message]

theorem runs_renderJob {A : (q : Req) → Ans q → Prop} {job : PreviewWorker.Job}
    {tr : List (Called Req Ans)} {next : Stage ⊕ Unit}
    (hrun : Prog.RunsBy A (PreviewWorker.renderJob job) tr next) :
    drawnRanges tr = [(0, job.total)] := by
  obtain ⟨_, tr₁, -, rfl, h₁⟩ := Prog.runsBy_call hrun
  obtain ⟨_, tr₂, -, rfl, h₂⟩ := Prog.runsBy_call h₁
  obtain ⟨_, tr₃, -, rfl, h₃⟩ := Prog.runsBy_call h₂
  obtain ⟨_, tr₄, -, rfl, h₄⟩ := Prog.runsBy_call h₃
  cases h₄
  rfl

/-- A render job that ends without a message has drawn the commands of the file. -/
theorem runs_previewJob {cmd : PreviewCommand} {r : ParseResult}
    {tr : List (Called Req Ans)} {next : Stage ⊕ Unit} (hparse : parseFile fs path = .ok r)
    (hrun : Prog.RunsBy (Serves page fs path cmd)
      (PreviewWorker.previewJob cmd PreviewWorker.renderJob) tr next)
    (hlast : lastMessage tr = some []) :
    drawnRanges tr = [(0, toInt32 r.commands.length)] := by
  obtain ⟨info, tr₁, hinfo, rfl, h₁⟩ := Prog.runsBy_call hrun
  cases info with
  | error e => cases h₁
  | ok found =>
    cases found with
    | none =>
      obtain ⟨_, tr₂, -, rfl, h₂⟩ := Prog.runsBy_call h₁
      cases h₂
      have hmessage : lit "Projekt nicht gefunden" ≠ [] := by decide +kernel
      have hfound := (lastMessage_concat [⟨.getProjectInfo cmd.project, .ok none⟩] .notFound
        ⟨false, 0, 0, cmd.project, lit "Projekt nicht gefunden"⟩ ()).symm.trans hlast
      exact absurd (Option.some.inj hfound) hmessage
    | some p =>
      obtain rfl : p = path := hinfo p rfl
      obtain ⟨number, tr₂, -, rfl, h₂⟩ := Prog.runsBy_call h₁
      obtain ⟨commands, tr₃, hcommands, rfl, h₃⟩ := Prog.runsBy_call h₂
      cases commands with
      | error e => cases h₃
      | ok n =>
        obtain ⟨r', hparse', hn⟩ := hcommands n rfl
        obtain rfl : r = r' := Except.ok.inj (hparse.symm.trans hparse')
        obtain rfl : n = r.commands.length := hn.trans length_fitted
        have h₄ : Prog.RunsBy (Serves page fs p cmd) (PreviewWorker.renderJob
            ⟨number, cmd.project, toInt32 r.commands.length, cmd.intervalMs⟩) tr₃ next := h₃
        rw [drawnRanges, List.filterMap_cons_none rfl, List.filterMap_cons_none rfl,
          List.filterMap_cons_none rfl, ← drawnRanges, runs_renderJob h₄]

theorem runs_render {cfg : PreviewWorker.Config} {cmd : PreviewCommand} {r : ParseResult}
    {tr : List (Called Req Ans)} {next : Stage ⊕ Unit} (haction : cmd.action = .render)
    (hparse : parseFile fs path = .ok r)
    (hrun : Prog.RunsBy (Serves page fs path cmd) (previewWorkerLoop cfg .work) tr next)
    (hlast : lastMessage tr = some []) :
    drawnRanges tr = [(0, toInt32 r.commands.length)] := by
  obtain ⟨action, project, intervalMs⟩ := cmd
  cases haction
  obtain ⟨run, tr₁, -, rfl, h₁⟩ := Prog.runsBy_call hrun
  cases run with
  | false =>
    cases h₁
    cases hlast
  | true =>
    obtain ⟨taken, tr₂, htaken, rfl, h₂⟩ := Prog.runsBy_call h₁
    cases htaken
    have hjob := runs_previewJob hparse h₂ hlast
    exact hjob

def renderCalls (job : PreviewWorker.Job) : List (Called Req Ans) :=
  [⟨.setStatus (.progress job.number) ⟨true, 0, job.total, job.project, lit "Rendere ..."⟩, ()⟩,
    ⟨.renderRange 0 job.total .params, ()⟩, ⟨.pushMirrored true, ()⟩,
    ⟨.setStatus (.final job.number) ⟨false, job.total, job.total, job.project, []⟩, ()⟩]

theorem runsBy_renderJob (cmd : PreviewCommand) (job : PreviewWorker.Job) :
    Prog.RunsBy (Serves page fs path cmd) (PreviewWorker.renderJob job) (renderCalls job)
      (.inl .work) := by
  apply Prog.RunsBy.call _ trivial
  apply Prog.RunsBy.call _ trivial
  apply Prog.RunsBy.call _ trivial
  apply Prog.RunsBy.call _ trivial
  apply Prog.RunsBy.ret

def jobCalls (project path : Text) (n : Nat) : List (Called Req Ans) :=
  ⟨.running, true⟩ :: ⟨.takeCommand, some ⟨.render, project, 0⟩⟩ ::
    ⟨.getProjectInfo project, .ok (some path)⟩ :: ⟨.bumpGeneration, (0 : Nat)⟩ ::
    ⟨.commands path, .ok n⟩ :: renderCalls ⟨0, project, toInt32 n, 0⟩

variable (page) in
theorem runsBy_jobCalls (cfg : PreviewWorker.Config) (project : Text) {r : ParseResult}
    (hparse : parseFile fs path = .ok r) :
    Prog.RunsBy (Serves page fs path ⟨.render, project, 0⟩) (previewWorkerLoop cfg .work)
      (jobCalls project path (fitted page r).commands.length) (.inl .work) := by
  have hinfo : Serves page fs path ⟨.render, project, 0⟩ (.getProjectInfo project)
      (.ok (some path)) :=
    fun p hp => (Option.some.inj (Except.ok.inj hp)).symm
  have hcommands : Serves page fs path ⟨.render, project, 0⟩ (.commands path)
      (.ok (fitted page r).commands.length) :=
    fun n hn => ⟨r, hparse, (Except.ok.inj hn).symm⟩
  apply Prog.RunsBy.call _ trivial
  apply Prog.RunsBy.call _ rfl
  apply Prog.RunsBy.call _ hinfo
  apply Prog.RunsBy.call _ trivial
  apply Prog.RunsBy.call _ hcommands
  exact runsBy_renderJob _ _

theorem reportedAlike_of_parseFile {r : ParseResult} (hparse : parseFile fs path = .ok r) :
    ReportedAlike what m page params fs path ↔ r.success = true ∧ Makeable params ∧
      r.commands.countP (Drawable params.toRenderParams) =
        (drawnCommands r).countP (Drawable (pageParams page)) := by
  constructor
  · intro h
    have hrun := runsBy_jobCalls page ⟨[], 0⟩ [] hparse
    have hpic := h _ _ r _ _ rfl hparse hrun rfl
    rw [runs_render rfl hparse hrun rfl, List.map_singleton, List.sum_singleton,
      drawnBy_total] at hpic
    exact (renderPreview_eq_ok_iff hparse _).mp hpic
  · rintro h cfg cmd r' tr next haction hparse' hrun hlast
    obtain rfl : r = r' := Except.ok.inj (hparse.symm.trans hparse')
    rw [runs_render haction hparse hrun hlast, List.map_singleton, List.sum_singleton,
      drawnBy_total]
    exact (renderPreview_eq_ok_iff hparse _).mpr h

theorem success_iff (content : Text) :
    (parseContent content).success = true ↔ ∀ q ∈ numbered content, ¬Unreadable q.1 := by
  obtain ⟨-, -, herrors, hsuccess⟩ := modal_parseContent content
  rw [hsuccess, herrors, List.isEmpty_iff, List.map_eq_nil_iff, unreadable, List.filter_eq_nil_iff]
  simp

/-- The line `G1 X1`. -/
def goodLine : Text := ['G', '1', ' ', 'X', '1']

/-- The lines `G1 X1` and `G1 X`. -/
def brokenLine : Text := goodLine ++ ['\n', 'G', '1', ' ', 'X']

end Report

section Settings

structure ValidStyle (s : Style) : Prop where
  thicknessG0 : ValidThickness s.thicknessG0
  thicknessG1 : ValidThickness s.thicknessG1
  thicknessG2 : ValidThickness s.thicknessG2
  thicknessG3 : ValidThickness s.thicknessG3
  liveThickness : 0 < s.liveThickness → ValidThickness s.liveThickness
  doneThickness : 0 < s.doneThickness → ValidThickness s.doneThickness

theorem ValidStyle.basePen {params : RenderParams} (h : ValidStyle params.toStyle)
    {type : CommandType} (htype : type ≠ .None) :
    ∃ pen, basePen params type = some pen ∧ ValidThickness pen.thickness := by
  cases type with
  | None => exact absurd rfl htype
  | G00 => exact ⟨_, rfl, h.thicknessG0⟩
  | G01 => exact ⟨_, rfl, h.thicknessG1⟩
  | G02 => exact ⟨_, rfl, h.thicknessG2⟩
  | G03 => exact ⟨_, rfl, h.thicknessG3⟩

theorem ValidStyle.progressPen {params : RenderParams} (h : ValidStyle params.toStyle) (i : Int)
    {pen : Pen} (hpen : ValidThickness pen.thickness) :
    ValidThickness (progressPen params i pen).thickness := by
  rw [PreviewRenderer.progressPen]
  split
  · split
    · dsimp only
      split
      · exact h.doneThickness ‹_›
      · exact hpen
    split
    · dsimp only
      split
      · exact h.liveThickness ‹_›
      · exact hpen
    · exact hpen
  · exact hpen

theorem drawable_of_validStyle {params : RenderParams} (h : ValidStyle params.toStyle)
    {c : Command} (hc : c.type ≠ .None) : Drawable params c = true := by
  obtain ⟨pen, hpen, hvalid⟩ := h.basePen hc
  simp only [Drawable, penOf, hpen, Option.map_some, Option.any_some, decide_eq_true_eq]
  apply h.progressPen
  split
  · exact h.thicknessG1
  · exact hvalid

theorem type_ne_none_of_parseContent {content : Text} {c : Command}
    (hc : c ∈ (parseContent content).commands) : c.type ≠ .None := by
  obtain ⟨k, hk⟩ := List.getElem?_of_mem hc
  obtain ⟨q, -, hmove⟩ := (modal_parseContent content).move k c hk
  obtain ⟨_, _, _, -, -, _, _, _, -, he, -⟩ := hmove.type
  intro hnone
  rw [hnone] at he
  simp [ToolPath.endings] at he

theorem drawnCommands_eq {r : ParseResult} (hlen : r.commands.length < 2 ^ 32) :
    drawnCommands r = r.commands := by
  apply List.take_of_length_le
  unfold toSize toInt32
  rw [Int.bmod_def]
  split <;> omega

theorem shows_iff_readable {page : Page} {params : PictureParams} {content : Text}
    (hpage : ValidStyle page.web) (hstyle : ValidStyle params.toStyle) (hparams : Makeable params)
    (hlen : (parseContent content).commands.length < 2 ^ 32) :
    Shows page params content ↔ ∀ q ∈ numbered content, ¬Unreadable q.1 := by
  constructor
  · exact fun h => h.readable
  · intro h
    refine ⟨h, hparams, ?_⟩
    rw [drawnCommands_eq hlen]
    apply List.countP_congr
    intro c hc
    have htype := type_ne_none_of_parseContent hc
    have hpage : ValidStyle (pageParams page).toStyle :=
      ⟨hpage.1, hpage.2, hpage.3, hpage.4, hpage.5, hpage.6⟩
    rw [drawable_of_validStyle hstyle htype, drawable_of_validStyle hpage htype]

end Settings

end Datenbereitstellung.BrokenFiles
