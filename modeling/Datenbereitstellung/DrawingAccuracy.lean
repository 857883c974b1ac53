import Mathlib
import Datenbereitstellung.CanvasFit
import Datenbereitstellung.Lib.Chords

namespace Datenbereitstellung.DrawingAccuracy

open GCodeParser PreviewRenderer ArcEnds Lib.Chords
open CanvasFit (sampled_iff vertices pointsOf fitScale distance_centerOf)
open SweepDrawing (startOf fitCommands scaleCommand)
open Real (pi)

section Tool

def place (p : Point2D) : ℂ := ⟨p.x, p.y⟩

noncomputable def fullTurn : ℝ := (2 : Nat) * pi

theorem fullTurn_eq : fullTurn = 2 * pi := by
  norm_num [fullTurn]

theorem fullTurn_pos : 0 < fullTurn := fullTurn_eq ▸ Real.two_pi_pos

/-- The angle by which the tool turns on an arc; it is a full circle where the ends are the same. -/
noncomputable def turn (direction : ArcDirection) (thetaS thetaE : ℝ) : ℝ :=
  toIocMod fullTurn_pos 0 (forward direction thetaS thetaE)

def side : ArcDirection → ℝ
  | .Clockwise => -1
  | .CounterClockwise => 1

noncomputable def toolOnArc (startPos endPos center : Point2D) (direction : ArcDirection)
    (u : ℝ) : ℂ :=
  circleMap (place center) (distance center startPos) (angleFrom center startPos +
    side direction * turn direction (angleFrom center startPos) (angleFrom center endPos) * u)

/-- Where the tool is when it has made the part `u` of a command, an arc or a line. -/
noncomputable def tool (arc : Bool) (startPos : Point2D) (c : Command) (u : ℝ) : ℂ :=
  match arc with
  | true => toolOnArc startPos c.endPosition (centerOf startPos c.arcCenter) (directionOf c) u
  | false => AffineMap.lineMap (place startPos) (place c.endPosition) u

variable {direction : ArcDirection} {thetaS thetaE : ℝ}

theorem arcSweep_eq (h : |thetaE - thetaS| < 2 * pi) (hahead : ¬JustAhead direction thetaS thetaE) :
    arcSweep exact direction thetaS thetaE = side direction * turn direction thetaS thetaE := by
  obtain ⟨n, a, ha, hpos, hle, hsweep⟩ := forward_sweep direction h
  have hbig : ¬a < 1 / 1000000000 := fun hlt => hahead ⟨n, ha ▸ hpos, ha ▸ hlt⟩
  have hturn : turn direction thetaS thetaE = a := by
    apply (toIocMod_eq_iff fullTurn_pos).mpr
    rw [fullTurn_eq]
    refine ⟨⟨hpos, by linarith⟩, -n, ?_⟩
    rw [ha, zsmul_eq_mul]
    push_cast
    ring
  rw [hsweep, if_neg hbig, hturn]
  cases direction with
  | Clockwise => exact (neg_one_mul a).symm
  | CounterClockwise => exact (one_mul a).symm

variable (direction) in
theorem abs_arcSweep_le (h : |thetaE - thetaS| < 2 * pi) :
    |arcSweep exact direction thetaS thetaE| ≤ 2 * pi := by
  obtain ⟨n, a, ha, hpos, hle, hsweep⟩ := forward_sweep direction h
  rw [hsweep]
  by_cases hsmall : a < 1 / 1000000000
  · rw [if_pos hsmall, abs_of_pos Real.two_pi_pos]
  · rw [if_neg hsmall]
    cases direction with
    | Clockwise => rwa [abs_neg, abs_of_pos hpos]
    | CounterClockwise => rwa [abs_of_pos hpos]

end Tool

section Pixels

theorem abs_llround_sub_le (x : ℝ) : |(llround x : ℝ) - x| ≤ 1 / 2 := by
  rw [llround]
  by_cases hx : 0 ≤ x
  · rw [if_pos hx, abs_le]
    have hle := Int.floor_le (x + 1 / 2)
    have hlt := Int.lt_floor_add_one (x + 1 / 2)
    constructor <;> linarith
  · rw [if_neg hx, abs_le]
    have hle := Int.le_ceil (x - 1 / 2)
    have hlt := Int.ceil_lt_add_one (x - 1 / 2)
    constructor <;> linarith

/-- An `int` can have this coordinate as a fixed-point number. -/
def FitsInt (off : Int) (x : ℝ) : Prop := |x + off| ≤ (2 ^ 23 - 1 : Int)

theorem toInt_llround {off : Int} {x : ℝ} (h : FitsInt off x) :
    toInt (llround ((x + off) * (FP_SCALE : Int))) = llround ((x + off) * (FP_SCALE : Int)) := by
  obtain ⟨hlo, hhi⟩ := abs_le.mp (abs_llround_sub_le ((x + off) * (FP_SCALE : Int)))
  obtain ⟨hl, hu⟩ := abs_le.mp h
  push_cast at hl hu
  have hscale : ((FP_SCALE : Int) : ℝ) = 256 := by norm_num [FP_SCALE]
  rw [hscale] at hlo hhi ⊢
  have hge : -2 ^ 31 ≤ llround ((x + off) * 256) := by
    have : (-2 ^ 31 : ℝ) ≤ llround ((x + off) * 256) := by linarith
    exact_mod_cast this
  have hlt : llround ((x + off) * 256) < 2 ^ 31 := by
    have : (llround ((x + off) * 256) : ℝ) < 2 ^ 31 := by linarith
    exact_mod_cast this
  exact Int.bmod_eq_of_le (by omega) (by omega)

theorem abs_fixedPoint_sub_le {off : Int} {x : ℝ} (h : FitsInt off x) :
    |(toInt (llround ((x + off) * (FP_SCALE : Int))) : ℝ) / (FP_SCALE : Int) - off - x| ≤
      1 / (2 * (FP_SCALE : Int)) := by
  have hscale : (0 : ℝ) < (FP_SCALE : Int) := by norm_num [FP_SCALE]
  have hround := abs_llround_sub_le ((x + off) * (FP_SCALE : Int))
  have heq : (llround ((x + off) * (FP_SCALE : Int)) : ℝ) / (FP_SCALE : Int) - off - x =
      (llround ((x + off) * (FP_SCALE : Int)) - (x + off) * (FP_SCALE : Int)) / (FP_SCALE : Int) := by
    field_simp
    ring
  rw [toInt_llround h, heq, abs_div, abs_of_pos hscale, div_le_div_iff₀ hscale (by positivity)]
  nlinarith

noncomputable def pixel (params : RenderParams) (v : Int × Int) : ℂ :=
  ⟨v.1 / (FP_SCALE : Int) - params.horizontalOffset, v.2 / (FP_SCALE : Int) - params.verticalOffset⟩

structure Fits (params : RenderParams) (x y : ℝ) : Prop where
  x : FitsInt params.horizontalOffset x
  y : FitsInt params.verticalOffset y

theorem norm_pixel_sub_le {params : RenderParams} {x y : ℝ} (h : Fits params x y) :
    ‖pixel params (toFixedPoint x y params.horizontalOffset params.verticalOffset) - ⟨x, y⟩‖ ≤
      1 / (FP_SCALE : Int) := by
  apply (Complex.norm_le_abs_re_add_abs_im _).trans
  have hx := abs_fixedPoint_sub_le h.x
  have hy := abs_fixedPoint_sub_le h.y
  have hsum :
      (1 : ℝ) / (2 * (FP_SCALE : Int)) + 1 / (2 * (FP_SCALE : Int)) = 1 / (FP_SCALE : Int) := by
    norm_num [FP_SCALE]
  rw [← hsum]
  exact add_le_add hx hy

end Pixels

section Segments

/-- How far the chords of an arc may be from it, in pixels: what the three pixels of a segment make,
or the greatest number of segments. -/
noncomputable def accuracy (r : ℝ) : ℝ :=
  max (min (3 / 2 : Rat) ((2 : Nat) / r)) (r * (pi / (4000 : Nat)) ^ 2 / (2 : Nat))

theorem accuracy_eq (r : ℝ) :
    accuracy r = max (min (3 / 2) (2 / r)) (r * (pi / 4000) ^ 2 / 2) := by
  norm_num [accuracy]

variable {sweep r : ℝ}

theorem segments_cases (hr : 0 ≤ r) (hsize : r ≤ 10 ^ 9) (hsweep : |sweep| ≤ 2 * pi) :
    segments sweep r = 4000 ∨ 2 ≤ segments sweep r ∧ |sweep| * r / 3 ≤ segments sweep r + 1 / 2 := by
  have hlen : |sweep| * r ≤ 2 * 3.15 * 10 ^ 9 :=
    mul_le_mul (hsweep.trans (by linarith [Real.pi_lt_d2])) hsize hr (by norm_num)
  have hnonneg : 0 ≤ |sweep| * r := mul_nonneg (abs_nonneg _) hr
  obtain ⟨hlo, hhi⟩ := abs_le.mp (abs_llround_sub_le (|sweep| * r / 3))
  have hge : -1 ≤ llround (|sweep| * r / 3) := by
    have : (-1 : ℝ) ≤ llround (|sweep| * r / 3) := by linarith
    exact_mod_cast this
  have hlt : llround (|sweep| * r / 3) < 2 ^ 31 := by
    have : (llround (|sweep| * r / 3) : ℝ) < 2 ^ 31 := by linarith
    exact_mod_cast this
  have hint : toInt (llround (|sweep| * r / 3)) = llround (|sweep| * r / 3) :=
    Int.bmod_eq_of_le (by omega) (by omega)
  by_cases hmany : 4000 ≤ llround (|sweep| * r / 3)
  · left
    rw [segments, hint]
    omega
  · right
    have hseg : 2 ≤ segments sweep r ∧ llround (|sweep| * r / 3) ≤ segments sweep r := by
      rw [segments, hint]
      omega
    have hcast : (llround (|sweep| * r / 3) : ℝ) ≤ segments sweep r := by exact_mod_cast hseg.2
    exact ⟨hseg.1, by linarith⟩

theorem chord_le_accuracy (hr : 0 < r) (hsize : r ≤ 10 ^ 9) (hsweep : |sweep| ≤ 2 * pi) :
    r * (sweep / segments sweep r) ^ 2 / 8 ≤ accuracy r := by
  have habs : (sweep / segments sweep r) ^ 2 = (|sweep| / segments sweep r) ^ 2 := by
    rw [div_pow, div_pow, sq_abs]
  rw [habs, accuracy_eq]
  obtain hmany | ⟨htwo, hlen⟩ := segments_cases hr.le hsize hsweep
  · apply le_max_of_le_right
    rw [hmany]
    have hstep : (|sweep| / (4000 : Nat)) ^ 2 ≤ (2 * pi / 4000) ^ 2 := by
      push_cast
      gcongr
    nlinarith
  · apply le_max_of_le_left
    have htwo' : (2 : ℝ) ≤ segments sweep r := by exact_mod_cast htwo
    have hpos : (0 : ℝ) < segments sweep r := by linarith
    generalize hx : |sweep| / segments sweep r = x
    have hxnonneg : 0 ≤ x := hx ▸ div_nonneg (abs_nonneg _) hpos.le
    have hxr : x * r ≤ 15 / 4 := by
      rw [← hx, div_mul_eq_mul_div, div_le_iff₀ hpos]
      linarith
    have hxpi : x ≤ pi := by
      rw [← hx, div_le_iff₀ hpos]
      nlinarith [Real.pi_pos]
    apply le_min
    · have hpi := Real.pi_lt_d2
      nlinarith
    · rw [le_div_iff₀ hr]
      nlinarith [mul_nonneg hxnonneg hr.le]

end Segments

section Strokes

variable {params : RenderParams}

/-- Drawn from vertex to vertex, the shape keeps beside the path. -/
def Near (params : RenderParams) (shape : Shape) (path : ℝ → ℂ) (ε : ℝ) : Prop :=
  ∃ n : Nat, 0 < n ∧ (vertices shape).length = n + 1 ∧ ∀ (i : Nat) v w,
    (vertices shape)[i]? = some v → (vertices shape)[i + 1]? = some w → ∀ t ∈ Set.Icc (0 : ℝ) 1,
      ‖AffineMap.lineMap (pixel params v) (pixel params w) t - path ((i + t) / n)‖ ≤ ε

theorem norm_pixel_fixedPoint_le {p : Point2D} (h : Fits params p.x p.y) :
    ‖pixel params (fixedPoint params p) - place p‖ ≤ 1 / (FP_SCALE : Int) := by
  rw [fixedPoint, ← toFixedPoint_cast]
  exact norm_pixel_sub_le h

theorem near_line {p q : Point2D} (hp : Fits params p.x p.y) (hq : Fits params q.x q.y) :
    Near params (.line (fixedPoint params p) (fixedPoint params q))
      (fun u => AffineMap.lineMap (place p) (place q) u) (1 / (FP_SCALE : Int)) := by
  refine ⟨1, Nat.one_pos, rfl, fun i v w hv hw t ht => ?_⟩
  cases i with
  | zero =>
    obtain rfl := Option.some.inj hv
    obtain rfl := Option.some.inj hw
    have htime : ((0 : Nat) + t) / (1 : Nat) = t := by
      push_cast
      ring
    rw [htime]
    exact norm_lineMap_sub_lineMap_le (norm_pixel_fixedPoint_le hp) (norm_pixel_fixedPoint_le hq) ht
  | succ i => cases hw

theorem onCircle_eq (center : Point2D) (r th : ℝ) :
    (⟨(onCircle center r th).1, (onCircle center r th).2⟩ : ℂ) = circleMap (place center) r th := by
  apply Complex.ext
  · rw [circleMap, Complex.add_re, Complex.re_ofReal_mul, Complex.exp_ofReal_mul_I_re]
    rfl
  · rw [circleMap, Complex.add_im, Complex.im_ofReal_mul, Complex.exp_ofReal_mul_I_im]
    rfl

theorem near_arc {startPos endPos center : Point2D} {direction : ArcDirection}
    (hr : 0 < distance center startPos) (hsize : distance center startPos ≤ 10 ^ 9)
    (hfits : ∀ q ∈ sampleArc exact startPos endPos center direction, Fits params q.1 q.2)
    (hahead : ¬JustAhead direction (angleFrom center startPos) (angleFrom center endPos)) :
    Near params (.polylines ((sampleArc exact startPos endPos center direction).map fun p =>
        toFixedPoint p.1 p.2 params.horizontalOffset params.verticalOffset))
      (toolOnArc startPos endPos center direction)
      (accuracy (distance center startPos) + 1 / (FP_SCALE : Int)) := by
  have hrange : |angleFrom center endPos - angleFrom center startPos| < 2 * pi :=
    abs_atan2_sub_lt _ _ _ _
  have hchord := chord_le_accuracy hr hsize (abs_arcSweep_le direction hrange)
  have hsweep := arcSweep_eq hrange hahead
  have hpos := segments_pos (arcSweep exact direction (angleFrom center startPos)
    (angleFrom center endPos)) (distance center startPos)
  rw [sampleArc_eq] at hfits ⊢
  dsimp only at hfits ⊢
  generalize arcSweep exact direction (angleFrom center startPos) (angleFrom center endPos) = sweep
    at hchord hsweep hpos hfits ⊢
  generalize segments sweep (distance center startPos) = n at hchord hpos hfits ⊢
  have hvertex : ∀ (i : Nat) v, (vertices (.polylines (((List.range (n + 1)).map fun i : Nat =>
      onCircle center (distance center startPos) (angleFrom center startPos + sweep * (i / n))).map
        fun p => toFixedPoint p.1 p.2 params.horizontalOffset params.verticalOffset)))[i]? = some v →
      ‖pixel params v - circleMap (place center) (distance center startPos)
        (angleFrom center startPos + sweep * (i / n))‖ ≤ 1 / (FP_SCALE : Int) := by
    intro i v hv
    rw [vertices, List.map_map] at hv
    obtain ⟨hi, rfl⟩ := List.getElem?_eq_some_iff.mp hv
    rw [List.getElem_map, List.getElem_range, ← onCircle_eq]
    rw [List.length_map, List.length_range] at hi
    exact norm_pixel_sub_le (hfits _ (List.mem_map_of_mem (List.mem_range.mpr hi)))
  refine ⟨n, hpos, by simp [vertices], fun i v w hv hw t ht => ?_⟩
  have hround := norm_lineMap_sub_lineMap_le (hvertex i v hv) (hvertex (i + 1) w hw) ht
  have harc := norm_circleMap_sub_chord_le (place center) hr.le
    (angleFrom center startPos + sweep * (i / n)) (sweep / n) ht
  have hnext : angleFrom center startPos + sweep * (i / n) + sweep / n =
      angleFrom center startPos + sweep * ((i + 1 : Nat) / n) := by
    push_cast
    ring
  have htool : toolOnArc startPos endPos center direction ((i + t) / n) =
      circleMap (place center) (distance center startPos)
        (angleFrom center startPos + sweep * (i / n) + t * (sweep / n)) := by
    rw [toolOnArc, ← hsweep]
    congr 1
    ring
  rw [hnext, norm_sub_rev] at harc
  rw [htool, add_comm (accuracy _)]
  exact (norm_sub_le_norm_sub_add_norm_sub _ _ _).trans (add_le_add hround (harc.trans hchord))

/-- What the drawing needs of a command: fixed-point numbers for its coordinates, and of an arc that
it is not too large and not taken for a full circle. -/
structure Drawable (params : RenderParams) (startPos : Point2D) (c : Command) : Prop where
  points : ∀ q ∈ pointsOf params c startPos, Fits params q.1 q.2
  size : sampled params c = true → exact.hypot c.arcCenter.x c.arcCenter.y ≤ 10 ^ 9
  ahead : sampled params c = true →
    ¬JustAhead (directionOf c) (angleFrom (centerOf startPos c.arcCenter) startPos)
      (angleFrom (centerOf startPos c.arcCenter) c.endPosition)

/-- How far a stroke may be from the path: a line is only rounded. -/
noncomputable def deviation (params : RenderParams) (c : Command) : ℝ :=
  (if sampled params c then accuracy (exact.hypot c.arcCenter.x c.arcCenter.y) else 0) +
    1 / (FP_SCALE : Int)

theorem near_renderCommand {c : Command} {startPos : Point2D} {prim : Primitive}
    (h : renderCommand exact params c startPos = some prim) (hd : Drawable params startPos c) :
    Near params prim.shape (tool (sampled params c) startPos c) (deviation params c) := by
  obtain ⟨harc, hs, pen, rfl⟩ | ⟨hno, hline⟩ := renderCommand_shape h
  · have hsampled := (sampled_iff params c).mpr ⟨harc, hs⟩
    have heps : (0 : ℝ) < (EPSILON : Rat) := by norm_num [EPSILON]
    have hr : 0 < distance (centerOf startPos c.arcCenter) startPos := by
      rw [distance_centerOf]
      exact heps.trans hs.radius
    have hsize : distance (centerOf startPos c.arcCenter) startPos ≤ 10 ^ 9 := by
      rw [distance_centerOf]
      exact hd.size hsampled
    have hfits := hd.points
    rw [pointsOf, if_pos hsampled] at hfits
    have hnear := near_arc hr hsize
      (fun q hq => hfits q (List.mem_cons_of_mem _ (List.mem_cons_of_mem _ hq))) (hd.ahead hsampled)
    rw [renderArc_shape hs, deviation, if_pos hsampled, ← distance_centerOf startPos, hsampled]
    exact hnear
  · have hsampled : sampled params c = false := by
      rw [← Bool.not_eq_true]
      exact mt (sampled_iff params c).mp hno
    rw [hline, deviation, hsampled, if_neg Bool.false_ne_true, zero_add]
    exact near_line (hd.points _ List.mem_cons_self)
      (hd.points _ (List.mem_cons_of_mem _ List.mem_cons_self))

end Strokes

section Drawing

variable (params : RenderParams) (C : List Command) (startPos : Point2D)

/-- In exact arithmetic, every stroke of a drawing follows the way of the tool of its command from
beginning to end, nowhere farther from it than its deviation. -/
theorem drawing_near (hdraw : ∀ j c, C[j]? = some c → c.type ≠ .None →
      Drawable params (startOf startPos C j) c) :
    ∀ s ∈ (renderRange exact params C 0 C.length startPos).1, ∃ c, C[s.command]? = some c ∧
      Near params s.primitive.shape (tool (sampled params c) (startOf startPos C s.command) c)
        (deviation params c) := by
  intro s hs
  rw [renderRange, List.take_length, List.drop_zero, mem_renderLoop] at hs
  obtain ⟨j, c, hc, hj, hp⟩ := hs
  rw [Nat.zero_add] at hj
  subst hj
  have htype : c.type ≠ .None := by
    intro hnone
    rw [(SweepDrawing.renderCommand_eq_none_iff exact params c _).mpr hnone] at hp
    cases hp
  exact ⟨c, hc, near_renderCommand hp (hdraw _ c hc htype)⟩

theorem strokesOf_drawing {C : List Command} {j : Nat} {c : Command} (hc : C[j]? = some c)
    (htype : c.type ≠ .None) :
    ∃ s, SweepDrawing.strokesOf j (renderRange exact params C 0 C.length ⟨0, 0⟩).1 = [s] := by
  have hsome : renderCommand exact params c (startOf ⟨0, 0⟩ C j) ≠ none :=
    fun h => htype ((SweepDrawing.renderCommand_eq_none_iff exact params c _).mp h)
  obtain ⟨p, hp⟩ := Option.ne_none_iff_exists'.mp hsome
  refine ⟨⟨j, p⟩, ?_⟩
  rw [SweepDrawing.strokesOf_renderRange exact params C (List.getElem?_eq_some_iff.mp hc).1,
    SweepDrawing.fullStroke, hc]
  simp [hp]

end Drawing

section Preview

theorem place_scale (scale : Rat) (p : Point2D) :
    place (CanvasFit.scalePoint scale p) = (scale : ℝ) * place p := by
  apply Complex.ext
  · simp [place, CanvasFit.scalePoint, mul_comm]
  · simp [place, CanvasFit.scalePoint, mul_comm]

theorem tool_scale {scale : Rat} (hscale : 0 < scale) (arc : Bool) (startPos : Point2D) (c : Command)
    (u : ℝ) : tool arc (CanvasFit.scalePoint scale startPos) (scaleCommand scale c) u =
      (scale : ℝ) * tool arc startPos c u := by
  have hend : (scaleCommand scale c).endPosition = CanvasFit.scalePoint scale c.endPosition := rfl
  cases arc with
  | true =>
    have hcenter : centerOf (CanvasFit.scalePoint scale startPos) (scaleCommand scale c).arcCenter =
        CanvasFit.scalePoint scale (centerOf startPos c.arcCenter) :=
      CanvasFit.centerOf_scale scale startPos c.arcCenter
    have hdir : directionOf (scaleCommand scale c) = directionOf c := rfl
    simp only [tool, toolOnArc, hend, hcenter, hdir, CanvasFit.angleFrom_scale hscale,
      CanvasFit.distance_scale hscale, place_scale, circleMap]
    push_cast
    ring
  | false =>
    simp only [tool, hend, place_scale, AffineMap.lineMap_apply_module, Complex.real_smul]
    ring

theorem hypot_scale {scale : Rat} (hscale : 0 < scale) (c : Command) :
    exact.hypot (scaleCommand scale c).arcCenter.x (scaleCommand scale c).arcCenter.y =
      scale * exact.hypot c.arcCenter.x c.arcCenter.y := by
  have hcenter := CanvasFit.centerOf_scale scale ⟨0, 0⟩ c.arcCenter
  have hdistance := CanvasFit.distance_scale hscale (centerOf ⟨0, 0⟩ c.arcCenter) ⟨0, 0⟩
  rwa [← hcenter, distance_centerOf, distance_centerOf] at hdistance

theorem fitsInt_of_inside {size off : Int} {x : ℝ} (hsize : size ≤ 2 ^ 23 - 1)
    (h : CanvasFit.Inside size off x) : FitsInt off x := by
  have hcast : (size : ℝ) ≤ (2 ^ 23 - 1 : Int) := by exact_mod_cast hsize
  rw [FitsInt, abs_of_nonneg h.1]
  exact h.2.trans hcast

variable {params : RenderParams} {cmds : List Command} {W H : Int}

variable (hW : 80 < W) (hW' : W ≤ 2 ^ 23 - 1) (hH : 80 < H) (hH' : H ≤ 2 ^ 23 - 1)
  (hhOff : params.horizontalOffset = (fitCommands cmds W H 40).hOff)
  (hvOff : params.verticalOffset = (fitCommands cmds W H 40).vOff)
  (harcs : CanvasFit.ArcsFit params cmds W H)
  (hsize : ∀ c ∈ cmds, sampled params (scaleCommand (fitScale cmds W H) c) = true →
    fitScale cmds W H * exact.hypot c.arcCenter.x c.arcCenter.y ≤ 10 ^ 9)
  (hahead : ∀ j c, cmds[j]? = some c → sampled params (scaleCommand (fitScale cmds W H) c) = true →
    ¬JustAhead (directionOf c)
      (angleFrom (centerOf (startOf ⟨0, 0⟩ cmds j) c.arcCenter) (startOf ⟨0, 0⟩ cmds j))
      (angleFrom (centerOf (startOf ⟨0, 0⟩ cmds j) c.arcCenter) c.endPosition))

include hW hW' hH hH' hhOff hvOff harcs hsize hahead

theorem drawable_fitted (hne : cmds ≠ []) {j : Nat} {c : Command} (hc : cmds[j]? = some c) :
    Drawable params (CanvasFit.scalePoint (fitScale cmds W H) (startOf ⟨0, 0⟩ cmds j))
      (scaleCommand (fitScale cmds W H) c) := by
  have hscale := CanvasFit.fitScale_pos cmds hW hH
  have hcanvas := CanvasFit.onCanvas_of_arcsFit hW (by omega) hH (by omega) harcs
  have hcommands := (CanvasFit.fitCommands_eq cmds hne hW hH).1
  constructor
  · intro q hq
    obtain ⟨hx, hy⟩ := hcanvas j (scaleCommand (fitScale cmds W H) c)
      (by rw [hcommands, List.getElem?_map, hc, Option.map_some]) q
      (by rwa [hcommands, CanvasFit.startOf_fitted])
    exact ⟨hhOff ▸ fitsInt_of_inside hW' hx, hvOff ▸ fitsInt_of_inside hH' hy⟩
  · intro hs
    rw [hypot_scale hscale]
    exact hsize c (List.mem_of_getElem? hc) hs
  · intro hs
    have hcenter := CanvasFit.centerOf_scale (fitScale cmds W H) (startOf ⟨0, 0⟩ cmds j) c.arcCenter
    have hstart := CanvasFit.angleFrom_scale hscale
      (centerOf (startOf ⟨0, 0⟩ cmds j) c.arcCenter) (startOf ⟨0, 0⟩ cmds j)
    have hend := CanvasFit.angleFrom_scale hscale
      (centerOf (startOf ⟨0, 0⟩ cmds j) c.arcCenter) c.endPosition
    rw [← hcenter] at hstart hend
    have hnot := hahead j c hc hs
    rw [← hstart, ← hend] at hnot
    exact hnot

/-- The picture of a program whose arcs fit into it: every command that moves the tool has one stroke,
which follows the enlarged way of the tool as far as the deviation allows. -/
theorem preview_near :
    (∀ j c, cmds[j]? = some c → c.type ≠ .None →
      ∃ s, SweepDrawing.strokesOf j (renderRange exact params (fitCommands cmds W H 40).commands 0
        (fitCommands cmds W H 40).commands.length ⟨0, 0⟩).1 = [s]) ∧
    ∀ s ∈ (renderRange exact params (fitCommands cmds W H 40).commands 0
      (fitCommands cmds W H 40).commands.length ⟨0, 0⟩).1,
    ∃ c, cmds[s.command]? = some c ∧ Near params s.primitive.shape
      (fun u => (fitScale cmds W H : ℝ) * tool (sampled params (scaleCommand (fitScale cmds W H) c))
        (startOf ⟨0, 0⟩ cmds s.command) c u)
      (deviation params (scaleCommand (fitScale cmds W H) c)) := by
  have hscale := CanvasFit.fitScale_pos cmds hW hH
  refine ⟨fun j c hc htype => ?_, fun s hs => ?_⟩
  · have hne : cmds ≠ [] := by
      rintro rfl
      cases hc
    rw [(CanvasFit.fitCommands_eq cmds hne hW hH).1]
    refine strokesOf_drawing params (c := scaleCommand (fitScale cmds W H) c) ?_ htype
    rw [List.getElem?_map, hc, Option.map_some]
  · have hne : cmds ≠ [] := by
      rintro rfl
      simp [fitCommands, renderRange, renderLoop] at hs
    rw [(CanvasFit.fitCommands_eq cmds hne hW hH).1] at hs
    obtain ⟨c', hc', hnear⟩ := drawing_near params _ ⟨0, 0⟩ (fun j c' hc' _ => by
      obtain ⟨c, hc, rfl⟩ := Option.map_eq_some_iff.mp ((List.getElem?_map ..).symm.trans hc')
      rw [CanvasFit.startOf_fitted]
      exact drawable_fitted hW hW' hH hH' hhOff hvOff harcs hsize hahead hne hc) s hs
    obtain ⟨c, hc, rfl⟩ := Option.map_eq_some_iff.mp ((List.getElem?_map ..).symm.trans hc')
    rw [CanvasFit.startOf_fitted] at hnear
    refine ⟨c, hc, ?_⟩
    have htool := tool_scale hscale (sampled params (scaleCommand (fitScale cmds W H) c))
      (startOf ⟨0, 0⟩ cmds s.command) c
    simpa only [Near, htool] using hnear

omit hW hW' hH hH' hhOff hvOff harcs hsize hahead

/-- The half circle `G2 X20 Y0 I10`. -/
def halfCircle : Command :=
  { type := .G02, endPosition := ⟨20, 0⟩, arcCenter := ⟨10, 0⟩, lineNumber := 1
    originalLine := [] }

def halfFit : SweepDrawing.Fit := fitCommands [halfCircle] 2000 4000 40

def halfParams : RenderParams := SweepDrawing.makeParams {} 0 halfFit.hOff halfFit.vOff

theorem fitScale_half : fitScale [halfCircle] 2000 4000 = 96 := by decide +kernel

theorem radius_half : exact.hypot halfCircle.arcCenter.x halfCircle.arcCenter.y = 10 := by
  have hsq : ((10 : Rat) : ℝ) ^ 2 + ((0 : Rat) : ℝ) ^ 2 = 10 ^ 2 := by norm_num
  exact (congrArg Real.sqrt hsq).trans (Real.sqrt_sq (by norm_num))

theorem startOf_half {j : Nat} {c : Command} (hc : [halfCircle][j]? = some c) :
    c = halfCircle ∧ startOf ⟨0, 0⟩ [halfCircle] j = ⟨0, 0⟩ := by
  cases j with
  | zero => exact ⟨(Option.some.inj hc).symm, rfl⟩
  | succ j => cases hc

theorem arcsFit_half : CanvasFit.ArcsFit halfParams [halfCircle] 2000 4000 := by
  have hb : (CanvasFit.boundsOf [halfCircle]).minx = 0 ∧
      (CanvasFit.boundsOf [halfCircle]).maxx = 20 ∧ (CanvasFit.boundsOf [halfCircle]).miny = 0 ∧
      (CanvasFit.boundsOf [halfCircle]).maxy = 0 := by
    decide +kernel
  have hrooms : CanvasFit.roomBelow 2000 0 20 96 = 40 ∧ CanvasFit.roomAbove 2000 0 20 96 = 40 ∧
      CanvasFit.roomBelow 4000 0 0 96 = 1952 ∧ CanvasFit.roomAbove 4000 0 0 96 = 2048 := by
    decide +kernel
  intro j c hc _ q hq
  obtain ⟨rfl, hstart⟩ := startOf_half hc
  rw [hstart] at hq
  obtain ⟨i, _, rfl⟩ := List.mem_map.mp hq
  generalize angleFrom _ _ + _ = th
  have hcenter : centerOf ⟨0, 0⟩ halfCircle.arcCenter = ⟨10, 0⟩ := by decide +kernel
  have hcos := abs_le.mp (Real.abs_cos_le_one th)
  have hsin := abs_le.mp (Real.abs_sin_le_one th)
  rw [fitScale_half, hb.1, hb.2.1, hb.2.2.1, hb.2.2.2, CanvasFit.WithinRooms, CanvasFit.WithinRooms,
    hrooms.1, hrooms.2.1, hrooms.2.2.1, hrooms.2.2.2, distance_centerOf, radius_half, hcenter]
  simp only [onCircle, exact]
  norm_num
  constructor
  · constructor <;> linarith
  · constructor <;> linarith

theorem not_justAhead_half {j : Nat} {c : Command} (hc : [halfCircle][j]? = some c) :
    ¬JustAhead (directionOf c)
      (angleFrom (centerOf (startOf ⟨0, 0⟩ [halfCircle] j) c.arcCenter) (startOf ⟨0, 0⟩ [halfCircle] j))
      (angleFrom (centerOf (startOf ⟨0, 0⟩ [halfCircle] j) c.arcCenter) c.endPosition) := by
  obtain ⟨rfl, hstart⟩ := startOf_half hc
  have hcenter : centerOf ⟨0, 0⟩ halfCircle.arcCenter = ⟨10, 0⟩ := by decide +kernel
  have hleft : angleFrom ⟨10, 0⟩ ⟨0, 0⟩ = pi := angleFrom_left (by decide +kernel) rfl
  have hright : angleFrom ⟨10, 0⟩ halfCircle.endPosition = 0 :=
    angleFrom_right (by decide +kernel) rfl
  rw [hstart, hcenter, hleft, hright]
  rintro ⟨n, hpos, hlt⟩
  have hpi := Real.pi_gt_three
  have hforward : forward (directionOf halfCircle) pi 0 = pi := sub_zero pi
  rw [hforward] at hpos hlt
  obtain hn | hn := Int.lt_or_le n 0
  · have hn' : (n : ℝ) ≤ -1 := by exact_mod_cast Int.le_sub_one_of_lt hn
    nlinarith
  · have hn' : (0 : ℝ) ≤ n := by exact_mod_cast hn
    nlinarith

theorem preview_near_half : CanvasFit.ArcsFit halfParams [halfCircle] 2000 4000 ∧
    (∃ s, SweepDrawing.strokesOf 0 (renderRange exact halfParams halfFit.commands 0
      halfFit.commands.length ⟨0, 0⟩).1 = [s]) ∧
    ∀ s ∈ (renderRange exact halfParams halfFit.commands 0
        halfFit.commands.length ⟨0, 0⟩).1,
      ∃ c, [halfCircle][s.command]? = some c ∧ Near halfParams s.primitive.shape
        (fun u => (fitScale [halfCircle] 2000 4000 : ℝ) *
          tool (sampled halfParams (scaleCommand (fitScale [halfCircle] 2000 4000) c))
            (startOf ⟨0, 0⟩ [halfCircle] s.command) c u)
        (deviation halfParams (scaleCommand (fitScale [halfCircle] 2000 4000) c)) := by
  have hsize : (fitScale [halfCircle] 2000 4000 : ℝ) *
      exact.hypot halfCircle.arcCenter.x halfCircle.arcCenter.y ≤ 10 ^ 9 := by
    rw [radius_half, fitScale_half]
    norm_num
  have hnear := preview_near (by decide) (by decide) (by decide) (by decide) rfl rfl arcsFit_half
    (fun c hc _ => List.mem_singleton.mp hc ▸ hsize) fun j c hc _ => not_justAhead_half hc
  exact ⟨arcsFit_half, hnear.1 0 halfCircle rfl (by decide), hnear.2⟩

end Preview

end Datenbereitstellung.DrawingAccuracy
