import Mathlib.Analysis.Real.Pi.Bounds
import Mathlib.Data.Rat.Floor
import Datenbereitstellung.SweepDrawing

namespace Datenbereitstellung.ArcEnds

open GCodeParser ArcFlatten PreviewRenderer
open SweepDrawing (startOf)
open Real (pi)

section Rounding

theorem llround_cast (q : Rat) : llround (q : ℝ) = llround q := by
  have hup : (q : ℝ) + 1 / 2 = ((q + 1 / 2 : Rat) : ℝ) := by push_cast; rfl
  have hdown : (q : ℝ) - 1 / 2 = ((q - 1 / 2 : Rat) : ℝ) := by push_cast; rfl
  simp only [llround, hup, hdown, Rat.floor_cast, Rat.ceil_cast, Rat.cast_nonneg]

theorem toFixedPoint_cast (x y : Rat) (hOff vOff : Int) :
    toFixedPoint (x : ℝ) (y : ℝ) hOff vOff = toFixedPoint x y hOff vOff := by
  have hcast : ∀ (z : Rat) (i : Int),
      ((z : ℝ) + i) * (FP_SCALE : Int) = (((z + i) * FP_SCALE : Rat) : ℝ) := by
    intro z i
    push_cast
    rfl
  simp only [toFixedPoint, hcast, llround_cast]

end Rounding

section Angles

theorem hypot_mul_cos (x y : ℝ) : exact.hypot x y * exact.cos (exact.atan2 y x) = x := by
  have h := Complex.norm_mul_cos_arg ⟨x, y⟩
  rwa [Complex.norm_eq_sqrt_sq_add_sq] at h

theorem hypot_mul_sin (x y : ℝ) : exact.hypot x y * exact.sin (exact.atan2 y x) = y := by
  have h := Complex.norm_mul_sin_arg ⟨x, y⟩
  rwa [Complex.norm_eq_sqrt_sq_add_sq] at h

theorem abs_atan2_sub_lt (x y x' y' : ℝ) : |exact.atan2 y' x' - exact.atan2 y x| < 2 * pi :=
  Complex.abs_arg_sub_arg_lt _ _

theorem sweepClockwise_range (sweep : ℝ) (h : -(2 * pi) < sweep) :
    ∃ n : ℤ, sweepClockwise exact sweep = sweep - n * (2 * pi) ∧
      -(2 * pi) ≤ sweepClockwise exact sweep ∧ sweepClockwise exact sweep < 0 := by
  obtain ⟨n, heq, hneg, hloop⟩ := sweepClockwise_spec exact Real.pi_pos sweep
  refine ⟨n, by exact_mod_cast heq, ?_, hneg⟩
  rw [heq]
  cases n with
  | zero => simpa [exact] using h.le
  | succ n =>
    have := hloop n (Nat.lt_succ_self n)
    push_cast
    simp only [exact] at this ⊢
    linarith

def forward (direction : ArcDirection) (thetaS thetaE : ℝ) : ℝ :=
  match direction with
  | .Clockwise => thetaS - thetaE
  | .CounterClockwise => thetaE - thetaS

/-- The end lies so little ahead of the start that the sweep is taken for a full circle. -/
inductive JustAhead (direction : ArcDirection) (thetaS thetaE : ℝ) : Prop
  | turns (n : ℤ) (hpos : 0 < forward direction thetaS thetaE + n * (2 * pi))
      (hlt : forward direction thetaS thetaE + n * (2 * pi) < 1 / 1000000000)

theorem forward_sweep (direction : ArcDirection) {thetaS thetaE : ℝ}
    (h : |thetaE - thetaS| < 2 * pi) :
    ∃ (n : ℤ) (a : ℝ), a = forward direction thetaS thetaE + n * (2 * pi) ∧ 0 < a ∧ a ≤ 2 * pi ∧
      arcSweep exact direction thetaS thetaE = if a < 1 / 1000000000 then 2 * pi else
        match direction with | .Clockwise => -a | .CounterClockwise => a := by
  obtain ⟨hlo, hhi⟩ := abs_lt.mp h
  cases direction with
  | Clockwise =>
    obtain ⟨n, heq, hge, hneg⟩ := sweepClockwise_range _ hlo
    refine ⟨n, -sweepClockwise exact (thetaE - thetaS), ?_, by linarith, by linarith, ?_⟩
    · rw [heq, forward]
      ring
    · simp only [arcSweep, abs_of_neg hneg, neg_neg]
      rfl
  | CounterClockwise =>
    obtain ⟨n, heq, hge, hneg⟩ := sweepClockwise_range (-(thetaE - thetaS)) (by linarith)
    refine ⟨n, -sweepClockwise exact (-(thetaE - thetaS)), ?_, by linarith, by linarith, ?_⟩
    · rw [heq, forward]
      ring
    · simp only [arcSweep, sweepCounterClockwise_eq, abs_neg, abs_of_neg hneg]
      rfl

open Classical in
theorem last_angle (direction : ArcDirection) {thetaS thetaE : ℝ} (h : |thetaE - thetaS| < 2 * pi) :
    ∃ n : ℤ, thetaS + arcSweep exact direction thetaS thetaE =
      (if JustAhead direction thetaS thetaE then thetaS else thetaE) + n * (2 * pi) := by
  obtain ⟨n, a, ha, hpos, hle, hsweep⟩ := forward_sweep direction h
  by_cases hsmall : a < 1 / 1000000000
  · rw [hsweep, if_pos hsmall, if_pos ⟨n, ha ▸ hpos, ha ▸ hsmall⟩]
    exact ⟨1, by push_cast; ring⟩
  · have hnot : ¬JustAhead direction thetaS thetaE := by
      rintro ⟨k, hk, hk'⟩
      have hturn := Real.two_pi_pos
      obtain hkn | hkn := Int.lt_or_le k n
      · have : (k : ℝ) + 1 ≤ n := by exact_mod_cast hkn
        nlinarith
      · have : (n : ℝ) ≤ k := by exact_mod_cast hkn
        nlinarith
    rw [hsweep, if_neg hsmall, if_neg hnot, ha]
    cases direction with
    | Clockwise => exact ⟨-n, by simp only [forward]; push_cast; ring⟩
    | CounterClockwise => exact ⟨n, by simp only [forward]; ring⟩

end Angles

section Samples

noncomputable def angleFrom (center p : Point2D) : ℝ :=
  exact.atan2 ((p.y - center.y : Rat) : ℝ) ((p.x - center.x : Rat) : ℝ)

noncomputable def distance (center p : Point2D) : ℝ :=
  exact.hypot ((p.x - center.x : Rat) : ℝ) ((p.y - center.y : Rat) : ℝ)

noncomputable def onCircle (center : Point2D) (r th : ℝ) : ℝ × ℝ :=
  (center.x + r * exact.cos th, center.y + r * exact.sin th)

theorem onCircle_distance (center p : Point2D) :
    onCircle center (distance center p) (angleFrom center p) = ((p.x : ℝ), (p.y : ℝ)) := by
  rw [onCircle, distance, angleFrom, hypot_mul_cos, hypot_mul_sin]
  push_cast
  simp

theorem onCircle_turns (center : Point2D) (r th : ℝ) (n : ℤ) :
    onCircle center r (th + n * (2 * pi)) = onCircle center r th := by
  simp only [onCircle, exact, Real.cos_add_int_mul_two_pi, Real.sin_add_int_mul_two_pi]

variable (startPos endPos center : Point2D) (direction : ArcDirection)

theorem sampleArc_eq : sampleArc exact startPos endPos center direction =
    let sweep := arcSweep exact direction (angleFrom center startPos) (angleFrom center endPos)
    let segs := segments sweep (distance center startPos)
    (List.range (segs + 1)).map fun i : Nat =>
      onCircle center (distance center startPos)
        (angleFrom center startPos + sweep * (i / segs)) := by
  rw [sampleArc]
  simp only [List.bind_eq_flatMap, List.pure_def, ← List.map_eq_flatMap, List.map_map]
  rfl

theorem segments_pos (sweep r : ℝ) : 0 < segments sweep r := by
  rw [segments]
  omega

theorem sampleArc_head? : (sampleArc exact startPos endPos center direction).head? =
    some ((startPos.x : ℝ), (startPos.y : ℝ)) := by
  rw [sampleArc_eq]
  simp [List.head?_range, onCircle_distance]

open Classical in
theorem sampleArc_getLast? : (sampleArc exact startPos endPos center direction).getLast? =
    some (if JustAhead direction (angleFrom center startPos) (angleFrom center endPos) then
        ((startPos.x : ℝ), (startPos.y : ℝ))
      else onCircle center (distance center startPos) (angleFrom center endPos)) := by
  have hrange : |angleFrom center endPos - angleFrom center startPos| < 2 * pi :=
    abs_atan2_sub_lt _ _ _ _
  obtain ⟨n, hn⟩ := last_angle direction hrange
  have hsegs := segments_pos (arcSweep exact direction (angleFrom center startPos)
    (angleFrom center endPos)) (distance center startPos)
  rw [sampleArc_eq, List.getLast?_map, List.getLast?_range, if_neg (Nat.succ_ne_zero _)]
  simp only [Option.map_some, Nat.add_sub_cancel]
  rw [div_self (by exact_mod_cast hsegs.ne'), mul_one, hn, onCircle_turns]
  split_ifs with h
  · rw [onCircle_distance]
  · rfl

end Samples

section Vertices

def firstVertex : Shape → Option (Int × Int)
  | .line p _ => some p
  | .polylines pts => pts.head?

def lastVertex : Shape → Option (Int × Int)
  | .line _ q => some q
  | .polylines pts => pts.getLast?

def centerOf (startPos centerOffset : Point2D) : Point2D :=
  ⟨startPos.x + centerOffset.x, startPos.y + centerOffset.y⟩

/-- Neither degenerate nor flattened. -/
structure SampledArc (params : RenderParams) (centerOffset : Point2D) : Prop where
  radius : ((EPSILON : Rat) : ℝ) < exact.hypot centerOffset.x centerOffset.y
  kept : shouldFlatten (radiusSq centerOffset.x centerOffset.y) params.minArcRadius = false

def fixedPoint (params : RenderParams) (p : Point2D) : Int × Int :=
  toFixedPoint p.x p.y params.horizontalOffset params.verticalOffset

/-- The point of the circle in the direction of the end is drawn where the end is; after a full
circle it is the start that must be there. -/
def Closes (params : RenderParams) (startPos endPos centerOffset : Point2D)
    (direction : ArcDirection) : Prop :=
  let center := centerOf startPos centerOffset
  let arrival := onCircle center (distance center startPos) (angleFrom center endPos)
  let fullCircle := JustAhead direction (angleFrom center startPos) (angleFrom center endPos)
  (fullCircle → fixedPoint params startPos = fixedPoint params endPos) ∧
    (¬fullCircle → toFixedPoint arrival.1 arrival.2 params.horizontalOffset params.verticalOffset =
      fixedPoint params endPos)

variable {params : RenderParams} {startPos endPos centerOffset : Point2D}

theorem radiusSq_centerOf : radiusSq (startPos.x - (startPos.x + centerOffset.x))
    (startPos.y - (startPos.y + centerOffset.y)) = radiusSq centerOffset.x centerOffset.y := by
  simp only [radiusSq]
  ring

theorem renderArc_shape (h : SampledArc params centerOffset) (direction : ArcDirection)
    (pen : Pen) : (renderArc exact params startPos endPos centerOffset direction pen).shape =
      .polylines ((sampleArc exact startPos endPos (centerOf startPos centerOffset) direction).map
        fun p => toFixedPoint p.1 p.2 params.horizontalOffset params.verticalOffset) := by
  have hr := mt (hypot_le_epsilon _ _).mpr (not_le.mpr h.radius)
  simp only [renderArc, radiusSq_centerOf, if_neg hr, h.kept, Bool.false_eq_true, if_false]
  rfl

theorem renderArc_first (h : SampledArc params centerOffset) (direction : ArcDirection)
    (pen : Pen) :
    firstVertex (renderArc exact params startPos endPos centerOffset direction pen).shape =
      some (fixedPoint params startPos) := by
  rw [renderArc_shape h, firstVertex, List.head?_map, sampleArc_head?, Option.map_some,
    toFixedPoint_cast]
  rfl

theorem renderArc_last_iff (h : SampledArc params centerOffset) (direction : ArcDirection)
    (pen : Pen) :
    lastVertex (renderArc exact params startPos endPos centerOffset direction pen).shape =
      some (fixedPoint params endPos) ↔ Closes params startPos endPos centerOffset direction := by
  rw [renderArc_shape h, lastVertex, List.getLast?_map, sampleArc_getLast?, Option.map_some,
    Option.some_inj, Closes]
  split_ifs with hfull
  · simp only [hfull, not_true_eq_false, true_implies, false_implies, and_true, toFixedPoint_cast]
    rfl
  · simp only [hfull, not_false_eq_true, true_implies, false_implies, true_and]

theorem closes_of_distance (params : RenderParams) (direction : ArcDirection)
    (h : distance (centerOf startPos centerOffset) endPos =
      distance (centerOf startPos centerOffset) startPos)
    (hnot : ¬JustAhead direction (angleFrom (centerOf startPos centerOffset) startPos)
      (angleFrom (centerOf startPos centerOffset) endPos)) :
    Closes params startPos endPos centerOffset direction := by
  refine ⟨fun hfull => absurd hfull hnot, fun _ => ?_⟩
  rw [← h, onCircle_distance, toFixedPoint_cast]
  rfl

end Vertices

section Path

variable {params : RenderParams}

def directionOf (c : Command) : ArcDirection :=
  if c.type = .G02 then .Clockwise else .CounterClockwise

theorem renderArc_of_not_sampled {o : Point2D} (h : ¬SampledArc params o)
    (startPos endPos : Point2D) (direction : ArcDirection) (pen : Pen) :
    (renderArc exact params startPos endPos o direction pen).shape =
      .line (fixedPoint params startPos) (fixedPoint params endPos) := by
  simp only [renderArc, radiusSq_centerOf]
  by_cases hr : radiusSq o.x o.y ≤ EPSILON * EPSILON
  · rw [if_pos hr]
    rfl
  · have hf : shouldFlatten (radiusSq o.x o.y) params.minArcRadius = true := by
      by_contra hf
      exact h ⟨not_le.mp (mt (hypot_le_epsilon _ _).mp hr), by simpa using hf⟩
    rw [if_neg hr, if_pos hf]
    rfl

theorem renderCommand_shape {c : Command} {startPos : Point2D} {prim : Primitive}
    (h : renderCommand exact params c startPos = some prim) :
    (isArc c.type = true ∧ SampledArc params c.arcCenter ∧ ∃ pen, prim =
        renderArc exact params startPos c.endPosition c.arcCenter (directionOf c) pen) ∨
      (¬(isArc c.type = true ∧ SampledArc params c.arcCenter) ∧
        prim.shape = .line (fixedPoint params startPos) (fixedPoint params c.endPosition)) := by
  obtain ⟨base, -, rfl⟩ := Option.map_eq_some_iff.mp h
  by_cases harc : isArc c.type = true
  · by_cases hs : SampledArc params c.arcCenter
    · left
      refine ⟨harc, hs, ?_⟩
      simp only [harc, hs.kept, Bool.and_false, Bool.not_false, Bool.and_true, if_true]
      exact ⟨_, rfl⟩
    · right
      refine ⟨fun hb => hs hb.2, ?_⟩
      simp only [harc, Bool.true_and]
      split
      · exact renderArc_of_not_sampled hs _ _ _ _
      · rfl
  · right
    refine ⟨fun hb => harc hb.1, ?_⟩
    simp only [harc, Bool.false_and, Bool.false_eq_true, if_false]
    rfl

theorem renderCommand_first {c : Command} {startPos : Point2D} {prim : Primitive}
    (h : renderCommand exact params c startPos = some prim) :
    firstVertex prim.shape = some (fixedPoint params startPos) := by
  obtain ⟨-, hs, pen, rfl⟩ | ⟨-, hline⟩ := renderCommand_shape h
  · exact renderArc_first hs _ pen
  · rw [hline]
    rfl

theorem renderCommand_last_iff {c : Command} {startPos : Point2D} {prim : Primitive}
    (h : renderCommand exact params c startPos = some prim) :
    lastVertex prim.shape = some (fixedPoint params c.endPosition) ↔
      (isArc c.type = true → SampledArc params c.arcCenter →
        Closes params startPos c.endPosition c.arcCenter (directionOf c)) := by
  obtain ⟨harc, hs, pen, rfl⟩ | ⟨hno, hline⟩ := renderCommand_shape h
  · rw [renderArc_last_iff hs]
    exact ⟨fun hc _ _ => hc, fun hc => hc harc hs⟩
  · rw [hline]
    exact iff_of_true rfl fun harc hs => absurd ⟨harc, hs⟩ hno

theorem mem_renderLoop {α : Type} [Field α] [LinearOrder α] [FloorRing α] {m : Cmath α}
    {cmds : List Command} {i : Nat} {cur : Point2D} {s : Stroke} :
    s ∈ (renderLoop m params cmds i cur).1 ↔ ∃ j c, cmds[j]? = some c ∧ s.command = i + j ∧
      renderCommand m params c (startOf cur cmds j) = some s.primitive := by
  induction cmds generalizing i cur with
  | nil => simp [renderLoop]
  | cons cmd cmds ih =>
    have hhead : s ∈ ((renderCommand m params cmd cur).map (Stroke.mk i)).toList ↔
        s.command = i ∧ renderCommand m params cmd cur = some s.primitive := by
      obtain ⟨k, prim⟩ := s
      cases renderCommand m params cmd cur with
      | none => simp
      | some p => simp [eq_comm]
    simp only [renderLoop, List.mem_append, hhead, ih]
    constructor
    · rintro (⟨hk, hp⟩ | ⟨j, c, hc, hk, hp⟩)
      · exact ⟨0, cmd, rfl, hk, hp⟩
      · exact ⟨j + 1, c, hc, by omega, hp⟩
    · rintro ⟨j, c, hc, hk, hp⟩
      cases j with
      | zero =>
        obtain rfl : cmd = c := Option.some.inj hc
        exact .inl ⟨hk, hp⟩
      | succ j => exact .inr ⟨j, c, hc, by omega, hp⟩

/-- The stroke of each command ends where the one of the next command begins. -/
def Unbroken (strokes : List Stroke) : Prop :=
  ∀ s ∈ strokes, ∀ s' ∈ strokes, s'.command = s.command + 1 →
    lastVertex s.primitive.shape = firstVertex s'.primitive.shape

/-- Every arc with a command behind it closes. -/
def ArcsClose (params : RenderParams) (C : List Command) (startPos : Point2D) : Prop :=
  ∀ j c c', C[j]? = some c → C[j + 1]? = some c' → c.type ≠ .None → c'.type ≠ .None →
    isArc c.type = true → SampledArc params c.arcCenter →
      Closes params (startOf startPos C j) c.endPosition c.arcCenter (directionOf c)

theorem unbroken_iff (params : RenderParams) (C : List Command) (startPos : Point2D) :
    Unbroken (renderRange exact params C 0 C.length startPos).1 ↔
      ArcsClose params C startPos := by
  have hdrawn : ∀ {c : Command}, c.type ≠ .None → ∀ p, ∃ prim,
      renderCommand exact params c p = some prim := fun hc p =>
    Option.ne_none_iff_exists'.mp
      (mt (SweepDrawing.renderCommand_eq_none_iff exact params _ p).mp hc)
  have hmem : ∀ {s : Stroke}, s ∈ (renderRange exact params C 0 C.length startPos).1 ↔
      ∃ j c, C[j]? = some c ∧ s.command = j ∧
        renderCommand exact params c (startOf startPos C j) = some s.primitive := by
    intro s
    rw [renderRange, List.take_length, List.drop_zero, mem_renderLoop]
    simp only [Nat.zero_add]
  constructor
  · intro h j c c' hc hc' ht ht'
    obtain ⟨prim, hp⟩ := hdrawn ht (startOf startPos C j)
    obtain ⟨prim', hp'⟩ := hdrawn ht' (startOf startPos C (j + 1))
    have hjoin := h ⟨j, prim⟩ (hmem.mpr ⟨j, c, hc, rfl, hp⟩) ⟨j + 1, prim'⟩
      (hmem.mpr ⟨j + 1, c', hc', rfl, hp'⟩) rfl
    apply (renderCommand_last_iff hp).mp
    rw [hjoin, renderCommand_first hp', SweepDrawing.startOf_succ hc]
  · intro h s hs s' hs' hnext
    obtain ⟨j, c, hc, hj, hp⟩ := hmem.mp hs
    obtain ⟨j', c', hc', hj', hp'⟩ := hmem.mp hs'
    obtain rfl : j' = j + 1 := by omega
    have hnone : ∀ {c : Command} {p prim}, renderCommand exact params c p = some prim →
        c.type ≠ .None := by
      intro c p prim hp hc
      rw [(SweepDrawing.renderCommand_eq_none_iff exact params c p).mpr hc] at hp
      cases hp
    rw [renderCommand_first hp', SweepDrawing.startOf_succ hc]
    exact (renderCommand_last_iff hp).mpr (h j c c' hc hc' (hnone hp) (hnone hp'))

/-- A sampled arc begins at its start, and ends at its end if that lies on its circle up to
rounding; the whole path is unbroken if this holds of every arc but the last. -/
theorem renderArc_ends_iff (params : RenderParams) :
    (∀ (startPos endPos centerOffset : Point2D) (direction : ArcDirection) (pen : Pen),
      SampledArc params centerOffset →
      ((firstVertex (renderArc exact params startPos endPos centerOffset direction pen).shape =
            some (fixedPoint params startPos) ∧
          lastVertex (renderArc exact params startPos endPos centerOffset direction pen).shape =
            some (fixedPoint params endPos)) ↔
        Closes params startPos endPos centerOffset direction)) ∧
      ∀ (C : List Command) (startPos : Point2D),
        Unbroken (renderRange exact params C 0 C.length startPos).1 ↔
          ArcsClose params C startPos := by
  refine ⟨fun startPos endPos o direction pen h => ?_, unbroken_iff params⟩
  rw [renderArc_last_iff h]
  exact and_iff_right (renderArc_first h direction pen)

theorem angleFrom_right {center p : Point2D} (hx : center.x ≤ p.x) (hy : p.y = center.y) :
    angleFrom center p = 0 := by
  apply Complex.arg_eq_zero_iff.mpr
  simp [hx, hy]

theorem angleFrom_left {center p : Point2D} (hx : p.x < center.x) (hy : p.y = center.y) :
    angleFrom center p = pi := by
  apply Complex.arg_eq_pi_iff.mpr
  simp [hx, hy]

theorem angle_start : angleFrom (centerOf ⟨0, 0⟩ ⟨1, 0⟩) ⟨0, 0⟩ = pi :=
  angleFrom_left (by decide +kernel) (by decide +kernel)

theorem not_justAhead_opposite : ¬JustAhead .Clockwise pi 0 := by
  rintro ⟨n, hpos, hlt⟩
  have hpi := Real.pi_gt_three
  simp only [forward] at hpos hlt
  obtain hn | hn := Int.lt_or_le n 0
  · have : (n : ℝ) + 1 ≤ 0 := by exact_mod_cast hn
    nlinarith
  · have : (0 : ℝ) ≤ n := by exact_mod_cast hn
    nlinarith

theorem sampledArc_one : SampledArc {} ⟨1, 0⟩ where
  radius := not_le.mp fun h => absurd ((hypot_le_epsilon 1 0).mp h) (by decide +kernel)
  kept := by decide +kernel

theorem distance_one {p : Point2D} (h : p = ⟨0, 0⟩ ∨ p = ⟨2, 0⟩) :
    distance (centerOf ⟨0, 0⟩ ⟨1, 0⟩) p = 1 := by
  obtain rfl | rfl := h <;> norm_num [distance, centerOf, exact]

theorem renderArc_ends_halfCircle (pen : Pen) :
    lastVertex (renderArc exact {} ⟨0, 0⟩ ⟨2, 0⟩ ⟨1, 0⟩ .Clockwise pen).shape =
      some (fixedPoint {} ⟨2, 0⟩) := by
  have hcloses : Closes {} ⟨0, 0⟩ ⟨2, 0⟩ ⟨1, 0⟩ .Clockwise := by
    apply closes_of_distance
    · rw [distance_one (.inl rfl), distance_one (.inr rfl)]
    · have hend : angleFrom (centerOf ⟨0, 0⟩ ⟨1, 0⟩) ⟨2, 0⟩ = 0 :=
        angleFrom_right (by decide +kernel) (by decide +kernel)
      rw [angle_start, hend]
      exact not_justAhead_opposite
  exact (((renderArc_ends_iff {}).1 _ _ _ _ pen sampledArc_one).mpr hcloses).2

/-- An arc from (0, 0) around (1, 0) to (10, 0), which ends at (2, 0). -/
theorem renderArc_ends_offCircle : ¬∀ (params : RenderParams)
    (startPos endPos centerOffset : Point2D) (direction : ArcDirection) (pen : Pen),
    SampledArc params centerOffset →
      firstVertex (renderArc exact params startPos endPos centerOffset direction pen).shape =
          some (fixedPoint params startPos) ∧
        lastVertex (renderArc exact params startPos endPos centerOffset direction pen).shape =
          some (fixedPoint params endPos) := by
  intro h
  have hlast := (h {} ⟨0, 0⟩ ⟨10, 0⟩ ⟨1, 0⟩ .Clockwise ⟨⟨0, 0, 0⟩, 1⟩ sampledArc_one).2
  have hcloses := ((renderArc_last_iff sampledArc_one _ _).mp hlast).2
  have hend : angleFrom (centerOf ⟨0, 0⟩ ⟨1, 0⟩) ⟨10, 0⟩ = 0 :=
    angleFrom_right (by decide +kernel) (by decide +kernel)
  rw [angle_start, hend, distance_one (.inl rfl)] at hcloses
  have harrival : onCircle (centerOf ⟨0, 0⟩ ⟨1, 0⟩) 1 0 = (((2 : Rat) : ℝ), ((0 : Rat) : ℝ)) := by
    norm_num [onCircle, centerOf, exact]
  have hsame := hcloses not_justAhead_opposite
  rw [harrival, toFixedPoint_cast] at hsame
  exact absurd hsame (by decide +kernel)

end Path

end Datenbereitstellung.ArcEnds
