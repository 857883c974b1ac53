import Datenbereitstellung.PreviewPaths
import Datenbereitstellung.PreviewWorker

namespace Datenbereitstellung.SweepDrawing

open Strings Files GCodeParser ArcFlatten PreviewRenderer PreviewPaths

section Fitting

variable (cmds : List Command) (W H : Int) (margin : Rat)

structure Bounds where
  minx : Rat := 0
  maxx : Rat := 0
  miny : Rat := 0
  maxy : Rat := 0

def Bounds.add (b : Bounds) (c : Command) : Bounds where
  minx := min b.minx c.endPosition.x
  maxx := max b.maxx c.endPosition.x
  miny := min b.miny c.endPosition.y
  maxy := max b.maxy c.endPosition.y

def scaleCommand (scale : Rat) (c : Command) : Command :=
  { c with
    endPosition := ⟨c.endPosition.x * scale, c.endPosition.y * scale⟩
    arcCenter := ⟨c.arcCenter.x * scale, c.arcCenter.y * scale⟩ }

structure Fit where
  commands : List Command
  hOff : Int
  vOff : Int

def fitCommands : Fit :=
  if cmds.isEmpty then ⟨cmds, 0, 0⟩
  else
    let b : Bounds := cmds.foldl Bounds.add {}
    let spanx := max 1 (b.maxx - b.minx)
    let spany := max 1 (b.maxy - b.miny)
    let scale := min ((W - 2 * margin) / spanx) ((H - 2 * margin) / spany)
    let scale := if scale ≤ 0 then 1 else scale
    let centerX := (W - spanx * scale) / 2
    let centerY := (H - spany * scale) / 2
    { commands := cmds.map (scaleCommand scale)
      hOff := toInt (llround (centerX - b.minx * scale))
      vOff := toInt (llround (centerY - b.miny * scale)) }

theorem recordIndex_fitCommands :
    (fitCommands cmds W H margin).commands.map (·.recordIndex) = cmds.map (·.recordIndex) := by
  rw [fitCommands]
  split
  · rfl
  · rw [List.map_map]
    rfl

theorem recordIndex_flattenCommandsMM (t : Rat) :
    (flattenCommandsMM cmds t).map (·.recordIndex) = cmds.map (·.recordIndex) := by
  rw [flattenCommandsMM_eq, List.map_map]
  refine List.map_congr_left fun c _ => ?_
  simp only [Function.comp, flattenCommand]
  split <;> rfl

end Fitting

section Numbers

/-- The numbers are increasing and begin at `i` at the earliest. -/
def Ascending (i : Int) (ns : List Int) : Prop := ns.Pairwise (· < ·) ∧ ∀ n ∈ ns, i ≤ n

theorem Ascending.mono {i j : Int} (h : i ≤ j) {ns : List Int} (hn : Ascending j ns) :
    Ascending i ns :=
  ⟨hn.1, fun n hmem => h.trans (hn.2 n hmem)⟩

theorem Ascending.cons {i : Int} {ns : List Int} (h : Ascending (i + 1) ns) :
    Ascending i (i :: ns) := by
  refine ⟨List.pairwise_cons.mpr ⟨fun n hn => ?_, h.1⟩, fun n hn => ?_⟩
  · have := h.2 n hn
    omega
  · obtain rfl | hn := List.mem_cons.mp hn
    · exact le_rfl
    · have := h.2 n hn
      omega

theorem parseLoop_ascending (ls : List Text) (n i : Int) (p : Point2D) (r : ParseResult) :
    ∃ cs, (parseLoop ls n i p r).commands = r.commands ++ cs ∧
      Ascending i (cs.map (·.recordIndex)) := by
  induction ls generalizing n i p r with
  | nil => exact ⟨[], by simp [parseLoop], by simp [Ascending]⟩
  | cons l ls ih =>
    unfold parseLoop
    dsimp only
    split
    · exact ih (n + 1) i p r
    split
    · obtain ⟨cs, hcs, ha⟩ := ih (n + 1) (i + 1) _ _
      rw [hcs, List.append_assoc]
      exact ⟨_, rfl, ha.cons⟩
    · obtain ⟨cs, hcs, ha⟩ := ih (n + 1) (i + 1) p r
      exact ⟨cs, hcs, ha.mono (by omega)⟩
    · obtain ⟨cs, hcs, ha⟩ := ih (n + 1) (i + 1) p _
      exact ⟨cs, hcs, ha.mono (by omega)⟩

theorem parseFile_ascending {fs : FileSystem} {filename : Text} {result : ParseResult}
    (h : parseFile fs filename = .ok result) : Ascending 0 (result.commands.map (·.recordIndex)) := by
  have hnil : Ascending 0 ([] : List Int) := by simp [Ascending]
  unfold parseFile at h
  cases hv : isValidFilePath fs filename with
  | error e => simp [hv, Except.map] at h
  | ok valid =>
    simp only [hv, Except.map, Except.ok.injEq] at h
    subst h
    split
    · exact hnil
    · split
      · exact hnil
      · rw [parseContent]
        split
        · exact hnil
        · obtain ⟨cs, hcs, ha⟩ := parseLoop_ascending (getlines _) 0 0 ⟨0, 0⟩ {}
          rw [hcs]
          exact ha

end Numbers

section Strokes

variable {α : Type} [Field α] [LinearOrder α] [FloorRing α] (m : Cmath α) (params : RenderParams)

def strokesOf (j : Nat) (strokes : List Stroke) : List Stroke :=
  strokes.filter fun s => s.command = j

/-- The stroke that was drawn last for the command at the index `j`. -/
def lastDrawn (limits : Limits) (j : Nat) (strokes : List Stroke) : Option Stroke :=
  ((strokesOf j strokes).filter fun s => limits.takes s.primitive).getLast?

variable {j : Nat}

theorem strokesOf_append (j : Nat) (xs ys : List Stroke) :
    strokesOf j (xs ++ ys) = strokesOf j xs ++ strokesOf j ys :=
  List.filter_append ..

theorem strokesOf_toList (i j : Nat) (o : Option Primitive) :
    strokesOf j (o.map (Stroke.mk i)).toList =
      if j = i then (o.map (Stroke.mk i)).toList else [] := by
  cases o with
  | none => simp [strokesOf]
  | some p =>
    by_cases h : j = i
    · simp [strokesOf, h]
    · simp [strokesOf, h, Ne.symm h]

/-- The position from which the command at an index is drawn. -/
def startOf (cur : Point2D) : List Command → Nat → Point2D
  | _, 0 => cur
  | [], _ + 1 => cur
  | c :: cs, j + 1 => startOf c.endPosition cs j

theorem startOf_succ {cur : Point2D} {cs : List Command} {c : Command} (h : cs[j]? = some c) :
    startOf cur cs (j + 1) = c.endPosition := by
  induction cs generalizing cur j with
  | nil => cases h
  | cons d cs ih =>
    cases j with
    | zero =>
      obtain rfl : d = c := by simpa using h
      cases cs <;> rfl
    | succ j => exact ih h

theorem strokesOf_renderLoop_lt (cs : List Command) {i : Nat} (cur : Point2D) (h : j < i) :
    strokesOf j (renderLoop m params cs i cur).1 = [] := by
  induction cs generalizing i cur with
  | nil => rfl
  | cons c cs ih =>
    simp only [renderLoop, strokesOf_append, strokesOf_toList, if_neg h.ne]
    exact ih c.endPosition (by omega)

theorem strokesOf_renderLoop {cs : List Command} {c : Command} (h : cs[j]? = some c) (i : Nat)
    (cur : Point2D) : strokesOf (i + j) (renderLoop m params cs i cur).1 =
      ((renderCommand m params c (startOf cur cs j)).map (Stroke.mk (i + j))).toList := by
  induction cs generalizing i j cur with
  | nil => cases h
  | cons d cs ih =>
    simp only [renderLoop, strokesOf_append, strokesOf_toList]
    cases j with
    | zero =>
      obtain rfl : d = c := by simpa using h
      rw [Nat.add_zero, if_pos rfl, strokesOf_renderLoop_lt m params cs _ (Nat.lt_succ_self i),
        List.append_nil]
      rfl
    | succ j =>
      rw [if_neg (by omega), List.nil_append]
      have hrest := ih h (i + 1) d.endPosition
      rw [Nat.add_right_comm i 1 j] at hrest
      exact hrest

/-- The stroke for the command at the index `j` in a drawing of all commands. -/
def fullStroke (C : List Command) (j : Nat) : Option Stroke :=
  C[j]?.bind fun c => (renderCommand m params c (startOf ⟨0, 0⟩ C j)).map (Stroke.mk j)

theorem strokesOf_renderRange (C : List Command) (hj : j < C.length) :
    strokesOf j (renderRange m params C 0 C.length ⟨0, 0⟩).1 =
      (fullStroke m params C j).toList := by
  have h := strokesOf_renderLoop m params (List.getElem?_eq_getElem hj) 0 ⟨0, 0⟩
  rw [Nat.zero_add] at h
  rw [renderRange, fullStroke]
  rw [List.take_length, List.drop_zero, h, List.getElem?_eq_getElem hj]
  rfl

theorem renderRange_one {C : List Command} {c : Command} {k : Nat} (h : C[k]? = some c)
    (startPos : Point2D) : renderRange m params C k (k + 1) startPos =
      (((renderCommand m params c startPos).map (Stroke.mk k)).toList, c.endPosition) := by
  have hk : k < C.length := (List.getElem?_eq_some_iff.mp h).1
  have hone : (C.take (k + 1)).drop k = [c] := by
    rw [List.take_add_one, h, List.drop_append_of_le_length (by simp [hk.le])]
    simp
  rw [renderRange]
  rw [hone]
  simp [renderLoop]

theorem renderCommand_eq_none_iff (c : Command) (startPos : Point2D) :
    renderCommand m params c startPos = none ↔ c.type = .None := by
  rw [renderCommand]
  cases hc : c.type <;> simp [basePen]

end Strokes

section Sweep

variable {α : Type} [Field α] [LinearOrder α] [FloorRing α] (m : Cmath α) (params : RenderParams)
variable (C : List Command)

/-- What the page has set, for a picture with the offsets of `fitCommands`. -/
def makeParams (web : Style) (minArcRadius : Rat) (hOff vOff : Int) : RenderParams :=
  { web with
    antialiased := false, horizontalOffset := hOff, verticalOffset := vOff, minArcRadius }

structure Base where
  strokes : List Stroke := []
  starts : List Point2D := []
  p : Point2D := ⟨0, 0⟩

def baseStep (b : Base) (k : Nat) : Base :=
  let drawn := renderRange m params C k (k + 1) b.p
  { strokes := b.strokes ++ drawn.1, starts := b.starts ++ [b.p], p := drawn.2 }

def baseImage : Base := (List.range C.length).foldl (baseStep m params C) {}

/-- The command at the index `k` once more, where `record` makes the current record of its
number. -/
def redraw (starts : List Point2D) (record : Int → Int) (k : Nat) : List Stroke :=
  match C[k]?, starts[k]? with
  | some c, some startPos =>
    (renderRange m { params with currentRecord := record c.recordIndex } C k (k + 1) startPos).1
  | _, _ => []

/-- `prevK` is `none` for -1. -/
structure Drawing where
  strokes : List Stroke
  prevK : Option Nat := none

def redrawDone (starts : List Point2D) (prevK : Option Nat) : List Stroke :=
  (prevK.map (redraw m params C starts (· + 1))).getD []

def sweepStep (starts : List Point2D) (d : Drawing) (k : Nat) : Drawing where
  strokes := d.strokes ++ redrawDone m params C starts d.prevK ++ redraw m params C starts id k
  prevK := some k

def sweepTo (n : Nat) : Drawing :=
  let base := baseImage m params C
  (List.range n).foldl (sweepStep m params C base.starts) { strokes := base.strokes }

/-- The strokes of a sweep that was not stopped. -/
def sweepEnd : List Stroke :=
  let d := sweepTo m params C C.length
  d.strokes ++ redrawDone m params C (baseImage m params C).starts d.prevK

theorem sweepTo_succ (n : Nat) : sweepTo m params C (n + 1) =
    sweepStep m params C (baseImage m params C).starts (sweepTo m params C n) n := by
  rw [sweepTo]
  rw [List.range_succ, List.foldl_append]
  rfl

theorem prevK_sweepTo (n : Nat) :
    (sweepTo m params C n).prevK = if n = 0 then none else some (n - 1) := by
  cases n with
  | zero => rfl
  | succ n =>
    rw [sweepTo_succ]
    rfl

variable {m params C} {c : Command} {j : Nat}

theorem baseStep_eq {n : Nat} (hc : C[n]? = some c) (b : Base) : baseStep m params C b n =
    { strokes := b.strokes ++ ((renderCommand m params c b.p).map (Stroke.mk n)).toList
      starts := b.starts ++ [b.p], p := c.endPosition } := by
  rw [baseStep, renderRange_one m params hc]

theorem base_range (m : Cmath α) (params : RenderParams) {n : Nat} (hn : n ≤ C.length) :
    ((List.range n).foldl (baseStep m params C) {}).p = startOf ⟨0, 0⟩ C n ∧
      ((List.range n).foldl (baseStep m params C) {}).starts =
        (List.range n).map (startOf ⟨0, 0⟩ C) := by
  induction n with
  | zero => exact ⟨by cases C <;> rfl, rfl⟩
  | succ n ih =>
    obtain ⟨hp, hstarts⟩ := ih (by omega)
    have hc := List.getElem?_eq_getElem (by omega : n < C.length)
    rw [List.range_succ, List.foldl_append, List.foldl_cons, List.foldl_nil, baseStep_eq hc]
    refine ⟨(startOf_succ hc).symm, ?_⟩
    rw [hstarts, hp, List.map_append]
    rfl

theorem starts_baseImage (m : Cmath α) (params : RenderParams) {k : Nat} (hk : k < C.length) :
    (baseImage m params C).starts[k]? = some (startOf ⟨0, 0⟩ C k) := by
  rw [baseImage, (base_range m params le_rfl).2, List.getElem?_map, List.getElem?_range hk]
  rfl

def marked (m : Cmath α) (params : RenderParams) (C : List Command) (r : Int) (j : Nat) :
    List Stroke :=
  (fullStroke m { params with currentRecord := r } C j).toList

theorem strokesOf_redraw (record : Int → Int) (hc : C[j]? = some c) {k : Nat} (hk : k < C.length) :
    strokesOf j (redraw m params C (baseImage m params C).starts record k) =
      if j = k then marked m params C (record c.recordIndex) j else [] := by
  have hck := List.getElem?_eq_getElem hk
  simp only [redraw, hck, starts_baseImage m params hk, renderRange_one _ _ hck, strokesOf_toList]
  by_cases hjk : j = k
  · subst hjk
    obtain rfl : C[j] = c := Option.some.inj (hck.symm.trans hc)
    simp only [if_true, marked, fullStroke, hck, Option.bind_some]
  · rw [if_neg hjk, if_neg hjk]

theorem strokesOf_redrawDone (hc : C[j]? = some c) {n : Nat} (hn : n ≤ C.length) :
    strokesOf j (redrawDone m params C (baseImage m params C).starts
        (if n = 0 then none else some (n - 1))) =
      if j + 1 = n then marked m params C (c.recordIndex + 1) j else [] := by
  cases n with
  | zero => rfl
  | succ n =>
    rw [if_neg n.succ_ne_zero, redrawDone, Option.map_some, Option.getD_some, n.add_sub_cancel,
      strokesOf_redraw _ hc (by omega)]
    simp only [Nat.add_right_cancel_iff]

theorem strokesOf_baseRange {n : Nat} (hn : n ≤ C.length) (j : Nat) :
    strokesOf j ((List.range n).foldl (baseStep m params C) {}).strokes =
      if j < n then (fullStroke m params C j).toList else [] := by
  induction n with
  | zero => rfl
  | succ n ih =>
    have hc := List.getElem?_eq_getElem (by omega : n < C.length)
    have hstroke : (renderCommand m params C[n]
        ((List.range n).foldl (baseStep m params C) {}).p).map (Stroke.mk n) =
        fullStroke m params C n := by
      rw [fullStroke, hc, Option.bind_some, (base_range m params (by omega)).1]
    rw [List.range_succ, List.foldl_append, List.foldl_cons, List.foldl_nil, baseStep_eq hc,
      strokesOf_append, ih (by omega), strokesOf_toList, hstroke]
    by_cases hjn : j = n
    · simp [hjn]
    · have hlt : j < n + 1 ↔ j < n := by omega
      simp [hjn, hlt]

theorem strokesOf_baseImage (hj : j < C.length) :
    strokesOf j (baseImage m params C).strokes = (fullStroke m params C j).toList := by
  rw [baseImage, strokesOf_baseRange le_rfl, if_pos hj]

variable (m params) in
theorem strokesOf_sweepTo (hc : C[j]? = some c) {n : Nat} (hn : n ≤ C.length) :
    strokesOf j (sweepTo m params C n).strokes =
      (fullStroke m params C j).toList ++
        (if j < n then marked m params C c.recordIndex j else []) ++
        (if j + 1 < n then marked m params C (c.recordIndex + 1) j else []) := by
  have hj : j < C.length := (List.getElem?_eq_some_iff.mp hc).1
  induction n with
  | zero =>
    have hbase : (sweepTo m params C 0).strokes = (baseImage m params C).strokes := rfl
    simp [hbase, strokesOf_baseImage hj]
  | succ n ih =>
    rw [sweepTo_succ]
    simp only [sweepStep, strokesOf_append, ih (by omega), prevK_sweepTo]
    rw [strokesOf_redrawDone hc (by omega), strokesOf_redraw id hc (by omega)]
    -- step `n` adds the done stroke of the command before and the live stroke of its own
    split_ifs <;> first | omega | simp

theorem strokesOf_sweepEnd (hc : C[j]? = some c) : strokesOf j (sweepEnd m params C) =
    (fullStroke m params C j).toList ++ marked m params C c.recordIndex j ++
      marked m params C (c.recordIndex + 1) j := by
  have hj : j < C.length := (List.getElem?_eq_some_iff.mp hc).1
  rw [sweepEnd, strokesOf_append, strokesOf_sweepTo m params hc le_rfl, prevK_sweepTo,
    strokesOf_redrawDone hc le_rfl, if_pos hj]
  by_cases hlast : j + 1 = C.length
  · rw [if_pos hlast, if_neg (by omega), List.append_nil]
  · rw [if_neg hlast, if_pos (by omega), List.append_nil]

end Sweep

section Runs

open PreviewWorker (Req Stage Job Sweep draws sweepBody napBody testrunJob runs_sweepStep
  runs_finishSweep runs_sweepBody runs_napBody runs_testrunJob)
open Lib.Program (Prog)

variable {α : Type} [Field α] [LinearOrder α] [FloorRing α] (m : Cmath α) (params : RenderParams)
variable (C : List Command)

def drawnRange : Req → Option (Int × Int)
  | .renderRange first last _ => some (first, last)
  | _ => none

/-- What a call of a test run draws. -/
def callStrokes : Req → List Stroke
  | .baseImage total => ((List.range total.toNat).foldl (baseStep m params C) {}).strokes
  | .renderRange first _ .liveP => redraw m params C (baseImage m params C).starts id first.toNat
  | .renderRange first _ .doneP =>
    redraw m params C (baseImage m params C).starts (· + 1) first.toNat
  | _ => []

def canvas (qs : List Req) : List Stroke := qs.flatMap (callStrokes m params C)

/-- A test run up to the head of a loop, with the calls that it has made. -/
inductive TestRun (job : Job) : List Req → Stage → Prop
  | start {qs : List Req} {stage : Stage} (h : Prog.Runs (testrunJob job) qs (.inl stage)) :
      TestRun job qs stage
  | sweep {qs qs' : List Req} {s : Sweep} {stage : Stage} (hrun : TestRun job qs (.sweep job s))
      (h : Prog.Runs (sweepBody job s) qs' (.inl stage)) : TestRun job (qs ++ qs') stage
  | nap {qs qs' : List Req} {s : Sweep} {slept : Int} {stage : Stage}
      (hrun : TestRun job qs (.nap job s slept))
      (h : Prog.Runs (napBody job s slept) qs' (.inl stage)) : TestRun job (qs ++ qs') stage

/-- A test run draws the steps of the sweep, and its end unless it is ended before. -/
structure DrawsSweep (job : Job) : Prop where
  sweep : ∀ qs s, TestRun job qs (.sweep job s) →
    canvas m params C qs = (sweepTo m params C s.k.toNat).strokes
  nap : ∀ qs s slept, TestRun job qs (.nap job s slept) →
    canvas m params C qs = (sweepTo m params C (s.k + 1).toNat).strokes
  finish : ∀ qs s qs', TestRun job qs (.sweep job s) → Prog.Runs (sweepBody job s) qs' (.inl .work) →
    s.stopped = false → s.k = C.length → canvas m params C (qs ++ qs') = sweepEnd m params C

def Drawn (job : Job) (strokes : List Stroke) : Stage → Prop
  | .sweep job' s => job' = job → s.prevK = s.k - 1 ∧ ∃ n : Nat, s.k = n ∧
      strokes = (sweepTo m params C n).strokes
  | .nap job' s _ => job' = job → s.prevK = s.k ∧ ∃ n : Nat, s.k = n ∧
      strokes = (sweepTo m params C (n + 1)).strokes
  | _ => True

variable {job : Job} {s : Sweep} {qs : List Req} {stage : Stage}

theorem canvas_append (qs qs' : List Req) :
    canvas m params C (qs ++ qs') = canvas m params C qs ++ canvas m params C qs' :=
  List.flatMap_append

theorem canvas_filter (qs : List Req) :
    canvas m params C (qs.filter draws) = canvas m params C qs := by
  induction qs with
  | nil => rfl
  | cons q qs ih =>
    have hcons : canvas m params C (q :: qs) = callStrokes m params C q ++ canvas m params C qs := rfl
    rw [hcons, ← ih]
    cases hq : draws q with
    | true =>
      rw [List.filter_cons_of_pos hq]
      rfl
    | false =>
      rw [List.filter_cons_of_neg (by simp [hq])]
      cases q <;> first | rfl | cases hq

theorem canvas_sweepStep {n : Nat} (hk : s.k = n) (hprev : s.prevK = s.k - 1)
    (h : Prog.Runs (PreviewWorker.sweepStep job s) qs (.inl stage)) :
    (sweepTo m params C n).strokes ++ canvas m params C qs =
      (sweepTo m params C (n + 1)).strokes := by
  rw [← canvas_filter, (runs_sweepStep h).1, sweepTo_succ, sweepStep, prevK_sweepTo]
  have hlive : s.k.toNat = n := by omega
  cases n with
  | zero =>
    rw [if_neg (by omega), if_pos rfl]
    simp [canvas, callStrokes, redrawDone, hlive]
  | succ n =>
    have hdone : s.prevK.toNat = n := by omega
    rw [if_pos (by omega), if_neg n.succ_ne_zero]
    simp [canvas, callStrokes, redrawDone, hlive, hdone]

theorem canvas_testrunJob (htotal : job.total = C.length)
    (h : Prog.Runs (testrunJob job) qs (.inl stage)) :
    canvas m params C qs = (sweepTo m params C 0).strokes := by
  have hbase : (sweepTo m params C 0).strokes = (baseImage m params C).strokes := rfl
  rw [← canvas_filter, (runs_testrunJob h).1, hbase, baseImage]
  simp [canvas, callStrokes, htotal]

theorem drawn_of_testRun (htotal : job.total = C.length) (h : TestRun job qs stage) :
    Drawn m params C job (canvas m params C qs) stage := by
  -- the induction is on the run; each body either goes on behind a step or draws nothing
  induction h with
  | start h =>
    cases (runs_testrunJob h).2
    exact fun _ => ⟨rfl, 0, rfl, canvas_testrunJob m params C htotal h⟩
  | sweep _ h ih =>
    obtain ⟨hprev, n, hk, hcanvas⟩ := ih rfl
    obtain ⟨qs', hqs', ⟨-, hstep⟩ | hend⟩ := runs_sweepBody h
    · have hstrokes := canvas_sweepStep m params C hk hprev hstep
      rw [canvas_append, hcanvas, ← canvas_filter, hqs', canvas_filter, hstrokes]
      obtain ⟨s', hprev', ⟨hk', hnext⟩ | ⟨hk', hnext⟩⟩ := (runs_sweepStep hstep).2
      · cases hnext
        exact fun _ => ⟨by omega, n + 1, by omega, rfl⟩
      · cases hnext
        exact fun _ => ⟨by omega, n, by omega, rfl⟩
    · cases (runs_finishSweep hend).2
      trivial
  | nap _ h ih =>
    obtain ⟨hprev, n, hk, hcanvas⟩ := ih rfl
    obtain ⟨hnil, hnext⟩ := runs_napBody h
    rw [canvas_append, hcanvas, ← canvas_filter, hnil, canvas, List.flatMap_nil, List.append_nil]
    obtain ⟨s', hprev', hk', hnext⟩ | ⟨-, hnext⟩ := hnext
    · cases hnext
      exact fun _ => ⟨by omega, n + 1, by omega, rfl⟩
    · cases hnext
      exact fun _ => ⟨hprev, n, hk, rfl⟩

theorem drawsSweep (htotal : job.total = C.length) : DrawsSweep m params C job where
  sweep := by
    intro qs s h
    obtain ⟨-, n, hk, hcanvas⟩ := drawn_of_testRun m params C htotal h rfl
    rw [hcanvas, hk, Int.toNat_natCast]
  nap := by
    intro qs s slept h
    obtain ⟨-, n, hk, hcanvas⟩ := drawn_of_testRun m params C htotal h rfl
    rw [hcanvas, hk]
    rfl
  finish := by
    intro qs s qs' h hend hstopped hlast
    obtain ⟨hprev, n, hk, hcanvas⟩ := drawn_of_testRun m params C htotal h rfl
    obtain rfl : n = C.length := by omega
    obtain ⟨qs₁, hqs, ⟨hlt, -⟩ | hfinish⟩ := runs_sweepBody hend
    · omega
    rw [canvas_append, hcanvas, ← canvas_filter m params C qs', hqs, (runs_finishSweep hfinish).1,
      sweepEnd, redrawDone, prevK_sweepTo, hstopped]
    congr 1
    by_cases hnil : C.length = 0
    · rw [if_neg (by simp; omega), if_pos hnil]
      rfl
    · have hprevK : s.prevK.toNat = C.length - 1 := by omega
      rw [if_pos (by simp; omega), if_neg hnil]
      simp [canvas, callStrokes, hprevK]

end Runs

section Pens

variable {α : Type} [Field α] [LinearOrder α] [FloorRing α] {m : Cmath α} {params : RenderParams}
variable {C : List Command} {c : Command} {j : Nat} {r : Int}

/-- The pen of the type; a flattened arc has the one of a line. -/
def plainPen (params : RenderParams) (c : Command) : Option Pen :=
  (basePen params c.type).map fun base =>
    if isArc c.type && shouldFlatten (radiusSq c.arcCenter.x c.arcCenter.y) params.minArcRadius then
      ⟨params.colorG1, params.thicknessG1⟩
    else base

def livePen (params : RenderParams) (base : Pen) : Pen :=
  ⟨params.liveColor, if params.liveThickness > 0 then params.liveThickness else base.thickness⟩

def donePen (params : RenderParams) (base : Pen) : Pen :=
  ⟨params.doneColor, if params.doneThickness > 0 then params.doneThickness else base.thickness⟩

@[simp] theorem livePen_color (base : Pen) : (livePen params base).color = params.liveColor := rfl

@[simp] theorem donePen_color (base : Pen) : (donePen params base).color = params.doneColor := rfl

/-- The strokes of the command with this pen do not throw. -/
def takesPen (limits : Limits) (params : RenderParams) (c : Command) (pen : Pen) : Bool :=
  if sampled params c then limits.polylines pen.thickness else limits.line pen.thickness

theorem radiusSq_center (startPos o : Point2D) :
    radiusSq (startPos.x - (startPos.x + o.x)) (startPos.y - (startPos.y + o.y)) =
      radiusSq o.x o.y := by
  simp only [radiusSq]
  ring

theorem pen_renderArc {o : Point2D}
    (h : shouldFlatten (radiusSq o.x o.y) params.minArcRadius = false) (startPos endPos : Point2D)
    (direction : ArcDirection) (pen : Pen) :
    (renderArc m params startPos endPos o direction pen).pen = pen := by
  simp only [renderArc, radiusSq_center, h]
  split <;> rfl

variable (m params) in
theorem pen_renderCommand (c : Command) (startPos : Point2D) :
    (renderCommand m params c startPos).map (·.pen) =
      (plainPen params c).map (progressPen params c.recordIndex) := by
  rw [renderCommand, plainPen]
  rw [Option.map_map, Option.map_map]
  apply congrArg (Option.map · (basePen params c.type))
  funext base
  cases hf : isArc c.type && shouldFlatten (radiusSq c.arcCenter.x c.arcCenter.y)
      params.minArcRadius with
  | true => simp [renderLine]
  | false =>
    cases ha : isArc c.type with
    | true => simp [pen_renderArc (by simpa [ha] using hf)]
    | false => simp [renderLine]

theorem takes_renderCommand (limits : Limits) {startPos : Point2D} {p : Primitive}
    (h : renderCommand m params c startPos = some p) :
    limits.takes p = takesPen limits params c p.pen := by
  obtain ⟨base, -, rfl⟩ := Option.map_eq_some_iff.mp h
  rw [takesPen, sampled]
  cases ha : isArc c.type with
  | false => simp [renderLine, Limits.takes]
  | true =>
    cases hf : shouldFlatten (radiusSq c.arcCenter.x c.arcCenter.y) params.minArcRadius with
    | true => simp [renderLine, Limits.takes]
    | false =>
      simp only [renderArc, radiusSq_center, hf]
      split_ifs with hr <;> simp_all [renderLine, Limits.takes]

theorem plainPen_currentRecord (r : Int) :
    plainPen { params with currentRecord := r } c = plainPen params c := rfl

theorem plainPen_eq_none_iff : plainPen params c = none ↔ c.type = .None := by
  rw [plainPen, Option.map_eq_none_iff]
  cases c.type <;> simp [basePen]

theorem progressPen_done (hc : 0 ≤ c.recordIndex) (hr : c.recordIndex < r) (pen : Pen) :
    progressPen { params with currentRecord := r } c.recordIndex pen = donePen params pen := by
  rw [progressPen]
  rw [if_pos ⟨(hc.trans hr.le : 0 ≤ r), hc⟩, if_pos hr]
  rfl

theorem progressPen_live (hc : 0 ≤ c.recordIndex) (pen : Pen) :
    progressPen { params with currentRecord := c.recordIndex } c.recordIndex pen =
      livePen params pen := by
  rw [progressPen]
  rw [if_pos ⟨hc, hc⟩, if_neg (lt_irrefl _), if_pos rfl]
  rfl

theorem progressPen_open (hr : r < c.recordIndex) (pen : Pen) :
    progressPen { params with currentRecord := r } c.recordIndex pen = pen := by
  rw [progressPen]
  dsimp only
  rw [if_neg (not_lt.mpr hr.le), if_neg hr.ne', ite_self]

/-- The stroke of a command, and whether it is drawn. -/
theorem fullStroke_spec (limits : Limits) (hc : C[j]? = some c) {base : Pen}
    (hpen : plainPen params c = some base) (r : Int) :
    ∃ s, fullStroke m { params with currentRecord := r } C j = some s ∧
      s.primitive.pen = progressPen { params with currentRecord := r } c.recordIndex base ∧
      limits.takes s.primitive = takesPen limits params c s.primitive.pen := by
  have hpens := pen_renderCommand m { params with currentRecord := r } c (startOf ⟨0, 0⟩ C j)
  rw [plainPen_currentRecord, hpen, Option.map_some, Option.map_eq_some_iff] at hpens
  obtain ⟨p, hp, hppen⟩ := hpens
  have htakes := takes_renderCommand limits hp
  refine ⟨⟨j, p⟩, ?_, hppen, htakes⟩
  rw [fullStroke, hc, Option.bind_some, hp]
  rfl

theorem fullStroke_none (hc : C[j]? = some c) (hpen : plainPen params c = none) (r : Int) :
    fullStroke m { params with currentRecord := r } C j = none := by
  rw [fullStroke, hc, Option.bind_some,
    (renderCommand_eq_none_iff _ _ _ _).mpr (plainPen_eq_none_iff.mp hpen)]
  rfl

end Pens

section Agreement

variable {α : Type} [Field α] [LinearOrder α] [FloorRing α] {m : Cmath α} {params : RenderParams}
variable {C : List Command} {c : Command} {j : Nat} {r : Int} {limits : Limits}

/-- The stroke, if it is drawn. -/
def shown (limits : Limits) (o : Option Stroke) : Option Stroke :=
  o.filter fun s => limits.takes s.primitive

theorem shown_eq_none_iff (s : Stroke) :
    shown limits (some s) = none ↔ limits.takes s.primitive = false := by
  simp [shown]

theorem getLast?_append_toList (xs : List Stroke) (o : Option Stroke) :
    ((xs ++ o.toList).filter fun s => limits.takes s.primitive).getLast? =
      (shown limits o).or (xs.filter fun s => limits.takes s.primitive).getLast? := by
  rw [List.filter_append, List.getLast?_append]
  cases o with
  | none => rfl
  | some s => cases h : limits.takes s.primitive <;> simp [shown, Option.filter, h]

theorem getLast?_toList (o : Option Stroke) :
    (o.toList.filter fun s => limits.takes s.primitive).getLast? = shown limits o := by
  have h : ((([] : List Stroke) ++ o.toList).filter fun s => limits.takes s.primitive).getLast? =
      shown limits o := by
    rw [getLast?_append_toList, List.filter_nil, List.getLast?_nil, Option.or_none]
  exact h

theorem lastDrawn_renderRange (hj : j < C.length) :
    lastDrawn limits j (renderRange m params C 0 C.length ⟨0, 0⟩).1 =
      shown limits (fullStroke m params C j) := by
  rw [lastDrawn, strokesOf_renderRange m params C hj, getLast?_toList]

theorem lastDrawn_sweepTo (hc : C[j]? = some c) {n : Nat} (hn : n ≤ C.length) :
    lastDrawn limits j (sweepTo m params C n).strokes =
      (if j + 1 < n then
        shown limits (fullStroke m { params with currentRecord := c.recordIndex + 1 } C j)
      else none).or ((if j < n then
        shown limits (fullStroke m { params with currentRecord := c.recordIndex } C j)
      else none).or (shown limits (fullStroke m params C j))) := by
  rw [lastDrawn, strokesOf_sweepTo m params hc hn]
  by_cases hdone : j + 1 < n
  · rw [if_pos hdone, if_pos hdone, if_pos (by omega), if_pos (by omega), marked, marked,
      getLast?_append_toList, getLast?_append_toList, getLast?_toList]
  rw [if_neg hdone, if_neg hdone, List.append_nil, Option.none_or]
  by_cases hlive : j < n
  · rw [if_pos hlive, if_pos hlive, marked, getLast?_append_toList, getLast?_toList]
  · rw [if_neg hlive, if_neg hlive, List.append_nil, Option.none_or, getLast?_toList]

theorem lastDrawn_sweepEnd (hc : C[j]? = some c) :
    lastDrawn limits j (sweepEnd m params C) =
      (shown limits (fullStroke m { params with currentRecord := c.recordIndex + 1 } C j)).or
        ((shown limits (fullStroke m { params with currentRecord := c.recordIndex } C j)).or
          (shown limits (fullStroke m params C j))) := by
  rw [lastDrawn, strokesOf_sweepEnd hc, marked, marked, getLast?_append_toList,
    getLast?_append_toList, getLast?_toList]

theorem fullStroke_congr {r₁ r₂ : Int} (hc : C[j]? = some c)
    (h : ∀ pen, progressPen { params with currentRecord := r₁ } c.recordIndex pen =
      progressPen { params with currentRecord := r₂ } c.recordIndex pen) :
    fullStroke m { params with currentRecord := r₁ } C j =
      fullStroke m { params with currentRecord := r₂ } C j := by
  have hcmd : ∀ startPos, renderCommand m { params with currentRecord := r₁ } c startPos =
      renderCommand m { params with currentRecord := r₂ } c startPos := by
    intro startPos
    rw [renderCommand]
    simp only [h]
    rfl
  rw [fullStroke, fullStroke, hc, Option.bind_some, Option.bind_some, hcmd]

theorem fullStroke_done {r₁ r₂ : Int} (hc : C[j]? = some c) (h₀ : 0 ≤ c.recordIndex)
    (h₁ : c.recordIndex < r₁) (h₂ : c.recordIndex < r₂) :
    fullStroke m { params with currentRecord := r₁ } C j =
      fullStroke m { params with currentRecord := r₂ } C j :=
  fullStroke_congr hc fun pen => (progressPen_done h₀ h₁ pen).trans (progressPen_done h₀ h₂ pen).symm

theorem fullStroke_open {r₁ r₂ : Int} (hc : C[j]? = some c) (h₁ : r₁ < c.recordIndex)
    (h₂ : r₂ < c.recordIndex) : fullStroke m { params with currentRecord := r₁ } C j =
      fullStroke m { params with currentRecord := r₂ } C j :=
  fullStroke_congr hc fun pen => (progressPen_open h₁ pen).trans (progressPen_open h₂ pen).symm

theorem Ascending.lt {C : List Command} (h : Ascending 0 (C.map (·.recordIndex))) {i j : Nat}
    {c d : Command} (hc : C[i]? = some c) (hd : C[j]? = some d) (hij : i < j) :
    c.recordIndex < d.recordIndex := by
  obtain ⟨hi, rfl⟩ := List.getElem?_eq_some_iff.mp hc
  obtain ⟨hj, rfl⟩ := List.getElem?_eq_some_iff.mp hd
  have hp := List.pairwise_iff_getElem.mp h.1 i j (by simpa using hi) (by simpa using hj) hij
  simpa using hp

theorem Ascending.nonneg (h : Ascending 0 (C.map (·.recordIndex))) (hc : C[j]? = some c) :
    0 ≤ c.recordIndex :=
  h.2 _ (List.mem_map_of_mem (List.mem_of_getElem? hc))

/-- Where the strokes of the open command are drawn, those of the current one are drawn, and where
these are drawn, those of the done one are. -/
def Redrawn (limits : Limits) (params : RenderParams) (c : Command) : Prop :=
  ∀ base, plainPen params c = some base →
    (takesPen limits params c base = true → takesPen limits params c (livePen params base) = true) ∧
      (takesPen limits params c (livePen params base) = true →
        takesPen limits params c (donePen params base) = true)

theorem redrawn_iff (m : Cmath α) (hp : params.currentRecord = -1) (hc : C[j]? = some c)
    (hnum : 0 ≤ c.recordIndex) : Redrawn limits params c ↔
      (shown limits (fullStroke m { params with currentRecord := c.recordIndex } C j) = none →
        shown limits (fullStroke m params C j) = none) ∧
      (shown limits (fullStroke m { params with currentRecord := c.recordIndex + 1 } C j) = none →
        shown limits (fullStroke m { params with currentRecord := c.recordIndex } C j) = none) := by
  have hopen : fullStroke m params C j = fullStroke m { params with currentRecord := -1 } C j := by
    rw [← hp]
  rw [hopen, Redrawn]
  cases hpen : plainPen params c with
  | none => simp [fullStroke_none hc hpen, shown]
  | some base =>
    obtain ⟨s₀, hs₀, hpen₀, htakes₀⟩ := fullStroke_spec (m := m) limits hc hpen (-1)
    obtain ⟨s₁, hs₁, hpen₁, htakes₁⟩ := fullStroke_spec (m := m) limits hc hpen c.recordIndex
    obtain ⟨s₂, hs₂, hpen₂, htakes₂⟩ := fullStroke_spec (m := m) limits hc hpen (c.recordIndex + 1)
    rw [progressPen_open (by omega)] at hpen₀
    rw [progressPen_live hnum] at hpen₁
    rw [progressPen_done hnum (Int.lt_succ _)] at hpen₂
    rw [hs₀, hs₁, hs₂, shown_eq_none_iff, shown_eq_none_iff, shown_eq_none_iff, htakes₀, htakes₁,
      htakes₂, hpen₀, hpen₁, hpen₂]
    simp only [Option.some.injEq, forall_eq', ← Bool.not_eq_true, not_imp_not]

theorem or_eq_self_iff {β : Type} (x y : Option β) : x.or y = x ↔ (x = none → y = none) := by
  cases x <;> simp

variable (h : Ascending 0 (C.map (·.recordIndex))) (hp : params.currentRecord = -1)

include h hp

theorem sweepTo_agrees_iff {k : Nat} {d : Command} (hd : C[k]? = some d) (hc : C[j]? = some c) :
    lastDrawn limits j (sweepTo m params C (k + 1)).strokes =
      lastDrawn limits j (renderRange m { params with currentRecord := d.recordIndex } C 0 C.length
        ⟨0, 0⟩).1 ↔
    (j = k → shown limits (fullStroke m { params with currentRecord := c.recordIndex } C j) = none →
      shown limits (fullStroke m params C j) = none) ∧
    (j < k →
      shown limits (fullStroke m { params with currentRecord := c.recordIndex + 1 } C j) = none →
      shown limits (fullStroke m { params with currentRecord := c.recordIndex } C j) = none ∧
        shown limits (fullStroke m params C j) = none) := by
  have hj : j < C.length := (List.getElem?_eq_some_iff.mp hc).1
  have hk : k < C.length := (List.getElem?_eq_some_iff.mp hd).1
  rw [lastDrawn_renderRange hj, lastDrawn_sweepTo hc hk]
  have hnonneg := h.nonneg hc
  obtain hjk | rfl | hjk := lt_trichotomy j k
  · rw [if_pos (by omega), if_pos (by omega),
      fullStroke_done hc hnonneg (h.lt hc hd hjk) (Int.lt_succ c.recordIndex),
      or_eq_self_iff, Option.or_eq_none_iff]
    simp [hjk, hjk.ne]
  · obtain rfl : c = d := Option.some.inj (hc.symm.trans hd)
    rw [if_neg (by omega), if_pos (by omega), Option.none_or, or_eq_self_iff]
    simp
  · have hopen : fullStroke m params C j = fullStroke m { params with currentRecord := -1 } C j := by
      rw [← hp]
    rw [if_neg (by omega), if_neg (by omega), Option.none_or, Option.none_or, hopen,
      fullStroke_open hc (by omega : (-1 : Int) < c.recordIndex) (h.lt hd hc hjk)]
    simp [hjk.ne', hjk.not_gt]

omit hp in
theorem sweepEnd_agrees_iff {last : Command} (hlast : C.getLast? = some last)
    (hc : C[j]? = some c) :
    lastDrawn limits j (sweepEnd m params C) =
      lastDrawn limits j (renderRange m { params with currentRecord := last.recordIndex + 1 } C 0
        C.length ⟨0, 0⟩).1 ↔
    (shown limits (fullStroke m { params with currentRecord := c.recordIndex + 1 } C j) = none →
      shown limits (fullStroke m { params with currentRecord := c.recordIndex } C j) = none ∧
        shown limits (fullStroke m params C j) = none) := by
  have hj : j < C.length := (List.getElem?_eq_some_iff.mp hc).1
  rw [List.getLast?_eq_getElem?] at hlast
  have hle : c.recordIndex ≤ last.recordIndex := by
    by_cases heq : j = C.length - 1
    · rw [← heq, hc] at hlast
      exact (congrArg Command.recordIndex (Option.some.inj hlast)).le
    · exact (h.lt hc hlast (by omega)).le
  rw [lastDrawn_renderRange hj, lastDrawn_sweepEnd hc,
    fullStroke_done hc (h.nonneg hc) (by omega : c.recordIndex < last.recordIndex + 1)
      (Int.lt_succ c.recordIndex), or_eq_self_iff, Option.or_eq_none_iff]

end Agreement

section File

variable {α : Type} [Field α] [LinearOrder α] [FloorRing α]

/-- After every step of the sweep and after its end each command was drawn last as in one drawing of
all commands. -/
structure ShowsLive (limits : Limits) (m : Cmath α) (params : RenderParams) (C : List Command) :
    Prop where
  step : ∀ k c, C[k]? = some c → ∀ j < C.length,
    lastDrawn limits j (sweepTo m params C (k + 1)).strokes =
      lastDrawn limits j (renderRange m { params with currentRecord := c.recordIndex } C 0 C.length
        ⟨0, 0⟩).1
  finish : ∀ last, C.getLast? = some last → ∀ j < C.length,
    lastDrawn limits j (sweepEnd m params C) =
      lastDrawn limits j (renderRange m { params with currentRecord := last.recordIndex + 1 } C 0
        C.length ⟨0, 0⟩).1

theorem showsLive_iff {limits : Limits} {m : Cmath α} {params : RenderParams} {C : List Command}
    (h : Ascending 0 (C.map (·.recordIndex))) (hp : params.currentRecord = -1) :
    ShowsLive limits m params C ↔ ∀ c ∈ C, Redrawn limits params c := by
  constructor
  · intro hshows c hmem
    obtain ⟨j, hj, hc⟩ := List.mem_iff_getElem.mp hmem
    have hc : C[j]? = some c := List.getElem?_eq_some_iff.mpr ⟨hj, hc⟩
    obtain ⟨last, hlast⟩ : ∃ last, C.getLast? = some last :=
      ⟨_, List.getLast?_eq_some_getLast (List.ne_nil_of_mem hmem)⟩
    have hlive := ((sweepTo_agrees_iff h hp hc hc).mp (hshows.step j c hc j hj)).1 rfl
    have hdone := (sweepEnd_agrees_iff h hlast hc).mp (hshows.finish last hlast j hj)
    exact (redrawn_iff m hp hc (h.nonneg hc)).mpr ⟨hlive, fun hnone => (hdone hnone).1⟩
  · intro hredrawn
    have hall : ∀ {j c}, C[j]? = some c →
        (shown limits (fullStroke m { params with currentRecord := c.recordIndex } C j) = none →
          shown limits (fullStroke m params C j) = none) ∧
        (shown limits (fullStroke m { params with currentRecord := c.recordIndex + 1 } C j) = none →
          shown limits (fullStroke m { params with currentRecord := c.recordIndex } C j) = none) :=
      fun hc => (redrawn_iff m hp hc (h.nonneg hc)).mp (hredrawn _ (List.mem_of_getElem? hc))
    constructor
    · intro k d hd j hj
      have hc := List.getElem?_eq_getElem hj
      obtain ⟨hlive, hdone⟩ := hall hc
      exact (sweepTo_agrees_iff h hp hd hc).mpr
        ⟨fun _ => hlive, fun _ hnone => ⟨hdone hnone, hlive (hdone hnone)⟩⟩
    · intro last hlast j hj
      have hc := List.getElem?_eq_getElem hj
      obtain ⟨hlive, hdone⟩ := hall hc
      exact (sweepEnd_agrees_iff h hlast hc).mpr
        fun hnone => ⟨hdone hnone, hlive (hdone hnone)⟩

/-- The numbers of the fitted commands are increasing, a test run draws what the sweep draws, and
that shows what one drawing of all commands shows exactly if no stroke stays that a refused one was
to cover. -/
theorem sweep_shows_iff (limits : Limits) (m : Cmath α) (fs : FileSystem) (filename : Text)
    (result : ParseResult) (hparse : parseFile fs filename = .ok result)
    (thrMM minArcRadius : Rat) (W H : Int) (web : Style) (hOff vOff : Int) :
    let C := (fitCommands (flattenCommandsMM result.commands thrMM) W H 40).commands
    let params := makeParams web minArcRadius hOff vOff
    (C.map (·.recordIndex)).Pairwise (· < ·) ∧
      (∀ job : PreviewWorker.Job, job.total = C.length → DrawsSweep m params C job) ∧
      (ShowsLive limits m params C ↔ ∀ c ∈ C, Redrawn limits params c) := by
  intro C params
  have h : Ascending 0 (C.map (·.recordIndex)) := by
    rw [recordIndex_fitCommands, recordIndex_flattenCommandsMM]
    exact parseFile_ascending hparse
  exact ⟨h.1, fun job htotal => drawsSweep m params C htotal, showsLive_iff h rfl⟩

/-- The lines `G1 X1` and `G2 X2 I2`. -/
def arcFile : Text :=
  ['G', '1', ' ', 'X', '1', '\n', 'G', '2', ' ', 'X', '2', ' ', 'I', '2', '\n']

def arcCommands : List Command :=
  (fitCommands (flattenCommandsMM (parseContent arcFile).commands 0) 2000 4000 40).commands

theorem sweep_shows_arcFile : ShowsLive opencv exact (makeParams {} 0 0 0) arcCommands := by
  apply (sweep_shows_iff opencv exact (.ofFiles [(['a'], arcFile)]) ['a'] _ rfl 0 0 2000 4000 {} 0
    0).2.2.mpr
  intro c _ base hbase
  have hthickness : base.thickness = 1 ∨ base.thickness = 2 := by
    obtain ⟨pen, hpen, rfl⟩ := Option.map_eq_some_iff.mp hbase
    cases ht : c.type <;> simp only [ht, basePen, Option.some.injEq, reduceCtorEq] at hpen
    all_goals
      subst hpen
      split <;> simp [makeParams]
  obtain h | h := hthickness <;> simp [takesPen, livePen, donePen, opencv, makeParams, h]

/-- The line `G1 X1`. -/
def lineFile : Text := ['G', '1', ' ', 'X', '1', '\n']

/-- Lines of the thickness 0 are not drawn, and the stroke of the current one stays. -/
theorem sweep_lineFile : ¬∀ (fs : FileSystem) (filename : Text) (result : ParseResult),
    parseFile fs filename = .ok result → ∀ (thrMM minArcRadius : Rat) (W H : Int) (web : Style)
      (hOff vOff : Int), ShowsLive opencv exact (makeParams web minArcRadius hOff vOff)
        (fitCommands (flattenCommandsMM result.commands thrMM) W H 40).commands := by
  intro h
  have hparse : parseFile (.ofFiles [(['a'], lineFile)]) ['a'] = .ok (parseContent lineFile) := rfl
  have hshows := h _ _ _ hparse 0 0 2000 4000 { thicknessG1 := 0 } 0 0
  have hnums : Ascending 0 ((fitCommands (flattenCommandsMM (parseContent lineFile).commands 0) 2000
      4000 40).commands.map (·.recordIndex)) := by
    rw [recordIndex_fitCommands, recordIndex_flattenCommandsMM]
    exact parseFile_ascending hparse
  obtain ⟨c, hmem, htype⟩ : ∃ c ∈ (fitCommands (flattenCommandsMM (parseContent lineFile).commands 0)
      2000 4000 40).commands, c.type = .G01 := by
    apply List.mem_map.mp
    decide +kernel
  have hredrawn := (showsLive_iff hnums rfl).mp hshows c hmem ⟨⟨0, 255, 0⟩, 0⟩ ?_
  · have hdone := hredrawn.2
    simp [takesPen, sampled, isArc, htype, opencv, livePen, donePen, makeParams] at hdone
  · simp [plainPen, htype, isArc, basePen, makeParams]

end File

end Datenbereitstellung.SweepDrawing
