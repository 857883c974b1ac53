import Mathlib.Analysis.SpecialFunctions.Complex.Arg
import Datenbereitstellung.ArcFlatten

namespace Datenbereitstellung.PreviewRenderer

open GCodeParser ArcFlatten

/-- The channels that are ever set of a `cv::Scalar`. -/
structure Scalar where
  b : Rat
  g : Rat
  r : Rat
  deriving DecidableEq

structure Style where
  colorG0 : Scalar := ⟨128, 128, 128⟩
  colorG1 : Scalar := ⟨0, 255, 0⟩
  colorG2 : Scalar := ⟨0, 0, 255⟩
  colorG3 : Scalar := ⟨255, 0, 0⟩
  thicknessG0 : Int := 1
  thicknessG1 : Int := 2
  thicknessG2 : Int := 2
  thicknessG3 : Int := 2
  liveColor : Scalar := ⟨0, 255, 255⟩
  doneColor : Scalar := ⟨90, 90, 90⟩
  liveThickness : Int := 3
  doneThickness : Int := 0
  antialiased : Bool := true

structure RenderParams extends Style where
  horizontalOffset : Int := 0
  verticalOffset : Int := 0
  minArcRadius : Rat := 0
  currentRecord : Int := -1

structure Pen where
  color : Scalar
  thickness : Int
  deriving DecidableEq

inductive Shape
  | line (p q : Int × Int)
  | polylines (pts : List (Int × Int))
  deriving DecidableEq

/-- One call of `cv::line` or `cv::polylines`. -/
structure Primitive where
  shape : Shape
  pen : Pen
  antialiased : Bool
  deriving DecidableEq

/-- The call that draws the command at the index `command`. -/
structure Stroke where
  command : Nat
  primitive : Primitive
  deriving DecidableEq

/-- The thicknesses with which `cv::line` and `cv::polylines` do not throw. -/
structure Limits where
  line : Int → Bool
  polylines : Int → Bool

def opencv : Limits where
  line thickness := 0 < thickness && thickness ≤ 32767
  polylines thickness := 0 ≤ thickness && thickness ≤ 32767

def Limits.takes (limits : Limits) (p : Primitive) : Bool :=
  match p.shape with
  | .line _ _ => limits.line p.pen.thickness
  | .polylines _ => limits.polylines p.pen.thickness

inductive ArcDirection
  | Clockwise
  | CounterClockwise
  deriving DecidableEq

section Sampling

variable {α : Type} [Field α] [LinearOrder α] [FloorRing α]

/-- What the sampling of an arc takes from `<cmath>` and OpenCV. -/
structure Cmath (α : Type) where
  hypot : α → α → α
  atan2 : α → α → α
  cos : α → α
  sin : α → α
  CV_PI : α

/-- Halves are rounded away from zero. -/
def llround (x : α) : Int := if 0 ≤ x then ⌊x + 1 / 2⌋ else ⌈x - 1 / 2⌉

def toInt (i : Int) : Int := i.bmod (2 ^ 32)

def FP_SCALE : Int := 2 ^ 8

def EPSILON : Rat := 1 / 1000000

def toFixedPoint (x y : α) (horizontalOffset verticalOffset : Int) : Int × Int :=
  (toInt (llround ((x + horizontalOffset) * FP_SCALE)),
    toInt (llround ((y + verticalOffset) * FP_SCALE)))

variable (m : Cmath α)

/-- `while (sweep >= 0.0) sweep -= 2.0 * CV_PI`. -/
def sweepClockwise (sweep : α) : α :=
  if 0 ≤ sweep then sweep - (⌊sweep / (2 * m.CV_PI)⌋ + 1 : Int) * (2 * m.CV_PI) else sweep

/-- `while (sweep <= 0.0) sweep += 2.0 * CV_PI`. -/
def sweepCounterClockwise (sweep : α) : α :=
  if sweep ≤ 0 then sweep + (⌊-sweep / (2 * m.CV_PI)⌋ + 1 : Int) * (2 * m.CV_PI) else sweep

def arcSweep (direction : ArcDirection) (thetaS thetaE : α) : α :=
  let sweep := match direction with
    | .Clockwise => sweepClockwise m (thetaE - thetaS)
    | .CounterClockwise => sweepCounterClockwise m (thetaE - thetaS)
  if |sweep| < 1 / 1000000000 then 2 * m.CV_PI else sweep

/-- About three pixels for each segment. -/
def segments (sweep r : α) : Nat :=
  (max 2 (min (toInt (llround (|sweep| * r / 3))) 4000)).toNat

def sampleArc (startPos endPos center : Point2D) (direction : ArcDirection) : List (α × α) :=
  let dx : α := ((startPos.x - center.x : Rat) : α)
  let dy : α := ((startPos.y - center.y : Rat) : α)
  let r := m.hypot dx dy
  let thetaS := m.atan2 dy dx
  let thetaE := m.atan2 ((endPos.y - center.y : Rat) : α) ((endPos.x - center.x : Rat) : α)
  let sweep := arcSweep m direction thetaS thetaE
  let segs := segments sweep r
  (List.range (segs + 1)).map fun i =>
    let th := thetaS + sweep * (i / segs)
    (center.x + r * m.cos th, center.y + r * m.sin th)

theorem sweepClockwise_spec [IsStrictOrderedRing α] (hpi : 0 < m.CV_PI) (sweep : α) :
    ∃ n : Nat, sweepClockwise m sweep = sweep - n * (2 * m.CV_PI) ∧ sweepClockwise m sweep < 0 ∧
      ∀ i < n, 0 ≤ sweep - i * (2 * m.CV_PI) := by
  have hturn : 0 < 2 * m.CV_PI := by positivity
  by_cases hs : 0 ≤ sweep
  · have hfloor : 0 ≤ ⌊sweep / (2 * m.CV_PI)⌋ := Int.floor_nonneg.mpr (by positivity)
    obtain ⟨n, hn⟩ := Int.eq_ofNat_of_zero_le hfloor
    have hlt := Int.lt_floor_add_one (sweep / (2 * m.CV_PI))
    have hle := Int.floor_le (sweep / (2 * m.CV_PI))
    rw [hn, div_lt_iff₀ hturn] at hlt
    rw [hn, le_div_iff₀ hturn] at hle
    push_cast at hlt hle
    refine ⟨n + 1, ?_, ?_, fun i hi => ?_⟩
    · simp only [sweepClockwise, if_pos hs, hn]
      push_cast
      ring
    · simp only [sweepClockwise, if_pos hs, hn]
      push_cast
      linarith
    · have hin : (i : α) ≤ n := by exact_mod_cast Nat.lt_succ_iff.mp hi
      have hmul := mul_le_mul_of_nonneg_right hin hturn.le
      linarith
  · refine ⟨0, ?_, ?_, fun i hi => absurd hi (Nat.not_lt_zero i)⟩
    · simp [sweepClockwise, hs]
    · rw [sweepClockwise, if_neg hs]
      exact not_le.mp hs

theorem sweepCounterClockwise_eq [IsStrictOrderedRing α] (sweep : α) :
    sweepCounterClockwise m sweep = -sweepClockwise m (-sweep) := by
  rw [sweepCounterClockwise, sweepClockwise]
  by_cases hs : sweep ≤ 0
  · rw [if_pos hs, if_pos (neg_nonneg.mpr hs)]
    ring
  · rw [if_neg hs, if_neg fun h => hs (neg_nonneg.mp h), neg_neg]

/-- Arithmetic without rounding. -/
noncomputable def exact : Cmath ℝ where
  hypot x y := √(x ^ 2 + y ^ 2)
  atan2 y x := Complex.arg ⟨x, y⟩
  cos := Real.cos
  sin := Real.sin
  CV_PI := Real.pi

theorem hypot_le_epsilon (x y : Rat) :
    exact.hypot x y ≤ (EPSILON : Rat) ↔ radiusSq x y ≤ EPSILON * EPSILON := by
  have heps : (0 : ℝ) ≤ (EPSILON : Rat) := by norm_num [EPSILON]
  have hsq : (x : ℝ) ^ 2 + (y : ℝ) ^ 2 = (radiusSq x y : Rat) := by
    push_cast [radiusSq]
    ring
  rw [exact]
  rw [Real.sqrt_le_left heps, hsq, sq]
  exact_mod_cast Iff.rfl

end Sampling

section Rendering

variable {α : Type} [Field α] [LinearOrder α] [FloorRing α] (m : Cmath α) (params : RenderParams)

def renderLine (startPos endPos : Point2D) (pen : Pen) : Primitive :=
  { shape := .line
      (toFixedPoint startPos.x startPos.y params.horizontalOffset params.verticalOffset)
      (toFixedPoint endPos.x endPos.y params.horizontalOffset params.verticalOffset)
    pen, antialiased := params.antialiased }

def renderArc (startPos endPos centerOffset : Point2D) (direction : ArcDirection) (pen : Pen) :
    Primitive :=
  let center : Point2D := ⟨startPos.x + centerOffset.x, startPos.y + centerOffset.y⟩
  let rSq := radiusSq (startPos.x - center.x) (startPos.y - center.y)
  if rSq ≤ EPSILON * EPSILON then renderLine params startPos endPos pen
  else if shouldFlatten rSq params.minArcRadius then
    renderLine params startPos endPos ⟨params.colorG1, params.thicknessG1⟩
  else
    { shape := .polylines ((sampleArc m startPos endPos center direction).map fun p =>
        toFixedPoint p.1 p.2 params.horizontalOffset params.verticalOffset)
      pen, antialiased := params.antialiased }

/-- The colour and thickness of the type. -/
def basePen : CommandType → Option Pen
  | .None => none
  | .G00 => some ⟨params.colorG0, params.thicknessG0⟩
  | .G01 => some ⟨params.colorG1, params.thicknessG1⟩
  | .G02 => some ⟨params.colorG2, params.thicknessG2⟩
  | .G03 => some ⟨params.colorG3, params.thicknessG3⟩

/-- Done commands and the current one have a colour of their own. -/
def progressPen (recordIndex : Int) (pen : Pen) : Pen :=
  if params.currentRecord ≥ 0 ∧ recordIndex ≥ 0 then
    if recordIndex < params.currentRecord then
      ⟨params.doneColor, if params.doneThickness > 0 then params.doneThickness else pen.thickness⟩
    else if recordIndex = params.currentRecord then
      ⟨params.liveColor, if params.liveThickness > 0 then params.liveThickness else pen.thickness⟩
    else pen
  else pen

def isArc (type : CommandType) : Bool := type = .G02 || type = .G03

/-- The command is drawn as the samples of an arc. -/
def sampled (c : Command) : Bool :=
  isArc c.type && !decide (radiusSq c.arcCenter.x c.arcCenter.y ≤ EPSILON * EPSILON) &&
    !shouldFlatten (radiusSq c.arcCenter.x c.arcCenter.y) params.minArcRadius

def renderCommand (cmd : Command) (startPos : Point2D) : Option Primitive :=
  let flattenToLine := isArc cmd.type &&
    shouldFlatten (radiusSq cmd.arcCenter.x cmd.arcCenter.y) params.minArcRadius
  (basePen params cmd.type).map fun base =>
    let base := if flattenToLine then ⟨params.colorG1, params.thicknessG1⟩ else base
    let pen := progressPen params cmd.recordIndex base
    if isArc cmd.type && !flattenToLine then
      let direction := if cmd.type = .G02 then .Clockwise else .CounterClockwise
      renderArc m params startPos cmd.endPosition cmd.arcCenter direction pen
    else renderLine params startPos cmd.endPosition pen

/-- The calls of the loop over `cmds`, which begin at the index `i`. A call that throws leaves nothing
in the picture, and changes neither the other calls nor the positions. -/
def renderLoop : List Command → (i : Nat) → (cur : Point2D) → List Stroke × Point2D
  | [], _, cur => ([], cur)
  | cmd :: cmds, i, cur =>
    let drawn := renderLoop cmds (i + 1) cmd.endPosition
    (((renderCommand m params cmd cur).map (Stroke.mk i)).toList ++ drawn.1, drawn.2)

def renderRange (commands : List Command) (first last : Nat) (startPos : Point2D) :
    List Stroke × Point2D :=
  renderLoop m params ((commands.take last).drop first) first startPos

end Rendering

end Datenbereitstellung.PreviewRenderer
