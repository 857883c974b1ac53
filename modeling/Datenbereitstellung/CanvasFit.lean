import Datenbereitstellung.ArcEnds
import Datenbereitstellung.Lib.Samples

namespace Datenbereitstellung.CanvasFit

open GCodeParser ArcFlatten PreviewRenderer SweepDrawing ArcEnds
open Real (pi)

section Fitting

variable (cmds : List Command) (W H : Int)

def boundsOf : Bounds := cmds.foldl Bounds.add {}

def span (lo hi : Rat) : Rat := max 1 (hi - lo)

def fitScale : Rat :=
  let b := boundsOf cmds
  min ((W - 80) / span b.minx b.maxx) ((H - 80) / span b.miny b.maxy)

/-- The pixels between the edge of a canvas of `size` pixels and the end point next to it. -/
def roomBelow (size : Int) (lo hi scale : Rat) : Rat :=
  llround ((size - span lo hi * scale) / 2 - lo * scale) + lo * scale

theorem foldl_add_le (cmds : List Command) (b : Bounds) :
    (cmds.foldl Bounds.add b).minx ≤ b.minx ∧ b.maxx ≤ (cmds.foldl Bounds.add b).maxx ∧
      (cmds.foldl Bounds.add b).miny ≤ b.miny ∧ b.maxy ≤ (cmds.foldl Bounds.add b).maxy := by
  induction cmds generalizing b with
  | nil => exact ⟨le_rfl, le_rfl, le_rfl, le_rfl⟩
  | cons c cmds ih =>
    obtain ⟨h₁, h₂, h₃, h₄⟩ := ih (b.add c)
    exact ⟨h₁.trans (min_le_left _ _), (le_max_left _ _).trans h₂, h₃.trans (min_le_left _ _),
      (le_max_left _ _).trans h₄⟩

structure Contains (b : Bounds) (p : Point2D) : Prop where
  minx : b.minx ≤ p.x
  maxx : p.x ≤ b.maxx
  miny : b.miny ≤ p.y
  maxy : p.y ≤ b.maxy

theorem contains_endPosition (b : Bounds) {c : Command} (hc : c ∈ cmds) :
    Contains (cmds.foldl Bounds.add b) c.endPosition := by
  induction cmds generalizing b with
  | nil => cases hc
  | cons d cmds ih =>
    obtain rfl | hc := List.mem_cons.mp hc
    · obtain ⟨h₁, h₂, h₃, h₄⟩ := foldl_add_le cmds (b.add c)
      exact ⟨h₁.trans (min_le_right _ _), (le_max_right _ _).trans h₂,
        h₃.trans (min_le_right _ _), (le_max_right _ _).trans h₄⟩
    · exact ih (b.add d) hc

theorem contains_origin : Contains (boundsOf cmds) ⟨0, 0⟩ := by
  obtain ⟨h₁, h₂, h₃, h₄⟩ := foldl_add_le cmds {}
  exact ⟨h₁, h₂, h₃, h₄⟩

theorem contains_startOf (j : Nat) : Contains (boundsOf cmds) (startOf ⟨0, 0⟩ cmds j) := by
  have hends : ∀ c ∈ cmds, Contains (boundsOf cmds) c.endPosition :=
    fun c hc => contains_endPosition cmds {} hc
  have hrun : ∀ (cs : List Command) (cur : Point2D) (j : Nat), Contains (boundsOf cmds) cur →
      (∀ c ∈ cs, Contains (boundsOf cmds) c.endPosition) →
      Contains (boundsOf cmds) (startOf cur cs j) := by
    intro cs
    induction cs with
    | nil =>
      intro cur j hcur _
      cases j <;> exact hcur
    | cons c cs ih =>
      intro cur j hcur hcs
      cases j with
      | zero => exact hcur
      | succ j => exact ih c.endPosition j (hcs c (by simp)) fun d hd => hcs d (by simp [hd])
  exact hrun cmds ⟨0, 0⟩ j (contains_origin cmds) hends

end Fitting

section Rooms

def roomAbove (size : Int) (lo hi scale : Rat) : Rat :=
  size - (hi - lo) * scale - roomBelow size lo hi scale

theorem abs_llround_sub_le (q : Rat) : |(llround q : Rat) - q| ≤ 1 / 2 := by
  rw [llround]
  split
  · have hle := Int.floor_le (q + 1 / 2)
    have hlt := Int.lt_floor_add_one (q + 1 / 2)
    rw [abs_le]
    constructor <;> linarith
  · have hle := Int.le_ceil (q - 1 / 2)
    have hlt := Int.ceil_lt_add_one (q - 1 / 2)
    rw [abs_le]
    constructor <;> linarith

variable {size : Int} {lo hi scale : Rat}

theorem one_le_span (lo hi : Rat) : 1 ≤ span lo hi := le_max_left _ _

theorem rooms_ge (hscale : 0 < scale) (hfit : span lo hi * scale ≤ size - 80) :
    79 / 2 ≤ roomBelow size lo hi scale ∧ 79 / 2 ≤ roomAbove size lo hi scale := by
  obtain ⟨hl, hu⟩ := abs_le.mp (abs_llround_sub_le ((size - span lo hi * scale) / 2 - lo * scale))
  have hspan : (hi - lo) * scale ≤ span lo hi * scale :=
    mul_le_mul_of_nonneg_right (le_max_right _ _) hscale.le
  rw [roomAbove, roomBelow]
  constructor <;> linarith

theorem toInt_offset (hscale : 0 < scale) (hlo : lo ≤ 0) (hhi : 0 ≤ hi) (hsize : size < 2 ^ 31)
    (hfit : span lo hi * scale ≤ size - 80) :
    ((toInt (llround ((size - span lo hi * scale) / 2 - lo * scale)) : Int) : Rat) =
      roomBelow size lo hi scale - lo * scale := by
  obtain ⟨hb, ha⟩ := rooms_ge hscale hfit
  have hloScale : lo * scale ≤ 0 := mul_nonpos_of_nonpos_of_nonneg hlo hscale.le
  have hhiScale : 0 ≤ hi * scale := mul_nonneg hhi hscale.le
  have hoffset : (llround ((size - span lo hi * scale) / 2 - lo * scale) : Rat) =
      roomBelow size lo hi scale - lo * scale := by
    rw [roomBelow]
    ring
  have hnonneg : 0 ≤ llround ((size - span lo hi * scale) / 2 - lo * scale) := by
    have : (0 : Rat) ≤ llround ((size - span lo hi * scale) / 2 - lo * scale) := by
      rw [hoffset]
      linarith
    exact_mod_cast this
  have hle : llround ((size - span lo hi * scale) / 2 - lo * scale) ≤ size := by
    have : (llround ((size - span lo hi * scale) / 2 - lo * scale) : Rat) ≤ size := by
      rw [hoffset]
      unfold roomAbove at ha
      linarith
    exact_mod_cast this
  rw [← hoffset, toInt, Int.bmod_eq_of_le (by omega) (by omega)]

end Rooms

section Points

variable (params : RenderParams) (scale : Rat)

theorem sampled_iff (c : Command) :
    sampled params c = true ↔ isArc c.type = true ∧ SampledArc params c.arcCenter := by
  simp only [sampled, Bool.and_eq_true, Bool.not_eq_true', decide_eq_false_iff_not, and_assoc]
  apply and_congr_right
  intro _
  constructor
  · rintro ⟨hr, hf⟩
    exact ⟨not_le.mp (mt (hypot_le_epsilon _ _).mp hr), hf⟩
  · rintro ⟨hr, hf⟩
    exact ⟨mt (hypot_le_epsilon _ _).mpr (not_le.mpr hr), hf⟩

/-- The samples of an arc in the coordinates of the file, where the picture is larger by `scale`. -/
noncomputable def arcSamples (c : Command) (startPos : Point2D) : List (ℝ × ℝ) :=
  let center := centerOf startPos c.arcCenter
  let r := distance center startPos
  let sweep :=
    arcSweep exact (directionOf c) (angleFrom center startPos) (angleFrom center c.endPosition)
  let segs := segments sweep (scale * r)
  (List.range (segs + 1)).map fun i : Nat =>
    onCircle center r (angleFrom center startPos + sweep * (i / segs))

/-- The points of a command before `toFixedPoint`: its start, its end, and the samples of an arc. -/
noncomputable def pointsOf (c : Command) (startPos : Point2D) : List (ℝ × ℝ) :=
  ((startPos.x : ℝ), (startPos.y : ℝ)) :: ((c.endPosition.x : ℝ), (c.endPosition.y : ℝ)) ::
    if sampled params c then
      sampleArc exact startPos c.endPosition (centerOf startPos c.arcCenter) (directionOf c)
    else []

def vertices : Shape → List (Int × Int)
  | .line p q => [p, q]
  | .polylines pts => pts

/-- Every vertex that is drawn is one of these points. -/
theorem vertices_renderRange (C : List Command) {s : Stroke}
    (hs : s ∈ (renderRange exact params C 0 C.length ⟨0, 0⟩).1) {v : Int × Int}
    (hv : v ∈ vertices s.primitive.shape) :
    ∃ j c q, C[j]? = some c ∧ q ∈ pointsOf params c (startOf ⟨0, 0⟩ C j) ∧
      v = toFixedPoint q.1 q.2 params.horizontalOffset params.verticalOffset := by
  rw [renderRange, List.take_length, List.drop_zero, mem_renderLoop] at hs
  obtain ⟨j, c, hc, -, hp⟩ := hs
  refine ⟨j, c, ?_⟩
  obtain ⟨harc, hsamp, pen, hprim⟩ | ⟨-, hline⟩ := renderCommand_shape hp
  · rw [hprim, renderArc_shape hsamp, vertices, List.mem_map] at hv
    obtain ⟨q, hq, rfl⟩ := hv
    have hsampled := (sampled_iff params c).mpr ⟨harc, hsamp⟩
    exact ⟨q, hc, by simp [pointsOf, hsampled, hq], rfl⟩
  · rw [hline, vertices, List.mem_cons, List.mem_singleton] at hv
    obtain rfl | rfl := hv
    · exact ⟨_, hc, List.mem_cons_self, (toFixedPoint_cast _ _ _ _).symm⟩
    · exact ⟨_, hc, List.mem_cons_of_mem _ List.mem_cons_self, (toFixedPoint_cast _ _ _ _).symm⟩

def scalePoint (p : Point2D) : Point2D := ⟨p.x * scale, p.y * scale⟩

theorem startOf_scale (C : List Command) (cur : Point2D) (j : Nat) :
    startOf (scalePoint scale cur) (C.map (scaleCommand scale)) j =
      scalePoint scale (startOf cur C j) := by
  induction C generalizing cur j with
  | nil => cases j <;> rfl
  | cons c C ih =>
    cases j with
    | zero => rfl
    | succ j => exact ih c.endPosition j

theorem centerOf_scale (p o : Point2D) :
    centerOf (scalePoint scale p) (scalePoint scale o) = scalePoint scale (centerOf p o) := by
  simp [centerOf, scalePoint, add_mul]

variable {scale}

theorem angleFrom_scale (hscale : 0 < scale) (center p : Point2D) :
    angleFrom (scalePoint scale center) (scalePoint scale p) = angleFrom center p := by
  have hreal : (0 : ℝ) < scale := by exact_mod_cast hscale
  have hpoint : (⟨((p.x * scale - center.x * scale : Rat) : ℝ),
      ((p.y * scale - center.y * scale : Rat) : ℝ)⟩ : ℂ) =
      (scale : ℝ) * ⟨((p.x - center.x : Rat) : ℝ), ((p.y - center.y : Rat) : ℝ)⟩ := by
    apply Complex.ext <;> simp <;> ring
  exact (congrArg Complex.arg hpoint).trans (Complex.arg_real_mul _ hreal)

theorem distance_scale (hscale : 0 < scale) (center p : Point2D) :
    distance (scalePoint scale center) (scalePoint scale p) = scale * distance center p := by
  have hreal : (0 : ℝ) ≤ scale := by exact_mod_cast hscale.le
  have hsq : ((p.x * scale - center.x * scale : Rat) : ℝ) ^ 2 +
      ((p.y * scale - center.y * scale : Rat) : ℝ) ^ 2 =
      (scale : ℝ) ^ 2 * (((p.x - center.x : Rat) : ℝ) ^ 2 + ((p.y - center.y : Rat) : ℝ) ^ 2) := by
    push_cast
    ring
  simp only [distance, exact, scalePoint]
  rw [hsq, Real.sqrt_mul (sq_nonneg _), Real.sqrt_sq hreal]

theorem onCircle_scale (center : Point2D) (r th : ℝ) :
    onCircle (scalePoint scale center) (scale * r) th =
      (scale * (onCircle center r th).1, scale * (onCircle center r th).2) := by
  simp only [onCircle, scalePoint]
  push_cast
  congr 1 <;> ring

theorem sampleArc_scale (hscale : 0 < scale) (c : Command) (startPos : Point2D) :
    sampleArc exact (scalePoint scale startPos) (scaleCommand scale c).endPosition
        (centerOf (scalePoint scale startPos) (scaleCommand scale c).arcCenter)
        (directionOf (scaleCommand scale c)) =
      (arcSamples scale c startPos).map fun q : ℝ × ℝ => (scale * q.1, scale * q.2) := by
  have hcenter : centerOf (scalePoint scale startPos) (scaleCommand scale c).arcCenter =
      scalePoint scale (centerOf startPos c.arcCenter) := centerOf_scale scale startPos c.arcCenter
  have hend : (scaleCommand scale c).endPosition = scalePoint scale c.endPosition := rfl
  have hdir : directionOf (scaleCommand scale c) = directionOf c := rfl
  rw [sampleArc_eq, hcenter, hend, hdir, angleFrom_scale hscale, angleFrom_scale hscale,
    distance_scale hscale, arcSamples, List.map_map]
  apply List.map_congr_left
  intro i _
  exact onCircle_scale _ _ _

end Points

section Canvas

def Inside (size off : Int) (x : ℝ) : Prop := 0 ≤ x + off ∧ x + off ≤ size

/-- In the coordinates of the file: beyond the end points there is room for it. -/
def WithinRooms (size : Int) (lo hi scale : Rat) (x : ℝ) : Prop :=
  (lo - x) * scale ≤ (roomBelow size lo hi scale : Rat) ∧
    (x - hi) * scale ≤ (roomAbove size lo hi scale : Rat)

theorem inside_iff {size off : Int} {lo hi scale : Rat}
    (hoff : (off : Rat) = roomBelow size lo hi scale - lo * scale) (x : ℝ) :
    Inside size off (scale * x) ↔ WithinRooms size lo hi scale x := by
  have hreal : (off : ℝ) = (roomBelow size lo hi scale : Rat) - lo * scale := by exact_mod_cast hoff
  have habove : ((roomAbove size lo hi scale : Rat) : ℝ) =
      size - (hi - lo) * scale - (roomBelow size lo hi scale : Rat) := by
    rw [roomAbove]
    push_cast
    rfl
  rw [Inside, WithinRooms, hreal, habove]
  constructor
  · rintro ⟨h₀, h₁⟩
    constructor <;> linarith
  · rintro ⟨h₀, h₁⟩
    constructor <;> linarith

theorem withinRooms_of_between {size : Int} {lo hi scale x : Rat} (hscale : 0 < scale)
    (hfit : span lo hi * scale ≤ size - 80) (hlo : lo ≤ x) (hhi : x ≤ hi) :
    WithinRooms size lo hi scale (x : ℝ) := by
  obtain ⟨hb, ha⟩ := rooms_ge hscale hfit
  have hbelow : (lo - x) * scale ≤ 0 :=
    mul_nonpos_of_nonpos_of_nonneg (sub_nonpos.mpr hlo) hscale.le
  have habove : (x - hi) * scale ≤ 0 :=
    mul_nonpos_of_nonpos_of_nonneg (sub_nonpos.mpr hhi) hscale.le
  constructor
  · exact_mod_cast (by linarith : (lo - x) * scale ≤ roomBelow size lo hi scale)
  · exact_mod_cast (by linarith : (x - hi) * scale ≤ roomAbove size lo hi scale)

/-- The whole path of a fitted list of commands. -/
def OnCanvas (params : RenderParams) (fit : Fit) (W H : Int) : Prop :=
  ∀ j c, fit.commands[j]? = some c → ∀ q ∈ pointsOf params c (startOf ⟨0, 0⟩ fit.commands j),
    Inside W fit.hOff q.1 ∧ Inside H fit.vOff q.2

/-- No sample of an arc exceeds the extreme end points by more than the room behind them. -/
def ArcsFit (params : RenderParams) (cmds : List Command) (W H : Int) : Prop :=
  let b := boundsOf cmds
  let scale := fitScale cmds W H
  ∀ j c, cmds[j]? = some c → sampled params (scaleCommand scale c) = true →
    ∀ q ∈ arcSamples scale c (startOf ⟨0, 0⟩ cmds j),
      WithinRooms W b.minx b.maxx scale q.1 ∧ WithinRooms H b.miny b.maxy scale q.2

variable (cmds : List Command) {W H : Int}

theorem fitScale_pos (hW : 80 < W) (hH : 80 < H) : 0 < fitScale cmds W H := by
  have hpos : ∀ (size : Int) (lo hi : Rat), 80 < size → 0 < (size - 80 : Rat) / span lo hi := by
    intro size lo hi hsize
    have : (80 : Rat) < size := by exact_mod_cast hsize
    exact div_pos (sub_pos.mpr this) (lt_of_lt_of_le one_pos (one_le_span lo hi))
  exact lt_min (hpos W _ _ hW) (hpos H _ _ hH)

theorem span_mul_fitScale_le (W H : Int) :
    span (boundsOf cmds).minx (boundsOf cmds).maxx * fitScale cmds W H ≤ W - 80 ∧
      span (boundsOf cmds).miny (boundsOf cmds).maxy * fitScale cmds W H ≤ H - 80 := by
  have hspan : ∀ lo hi, 0 < span lo hi := fun lo hi => lt_of_lt_of_le one_pos (one_le_span lo hi)
  constructor
  · rw [mul_comm, ← le_div_iff₀ (hspan _ _)]
    exact min_le_left _ _
  · rw [mul_comm, ← le_div_iff₀ (hspan _ _)]
    exact min_le_right _ _

theorem fitCommands_eq (hne : cmds ≠ []) (hW : 80 < W) (hH : 80 < H) :
    (fitCommands cmds W H 40).commands = cmds.map (scaleCommand (fitScale cmds W H)) ∧
      (fitCommands cmds W H 40).hOff = toInt (llround ((W - span (boundsOf cmds).minx
        (boundsOf cmds).maxx * fitScale cmds W H) / 2 - (boundsOf cmds).minx * fitScale cmds W H)) ∧
      (fitCommands cmds W H 40).vOff = toInt (llround ((H - span (boundsOf cmds).miny
        (boundsOf cmds).maxy * fitScale cmds W H) / 2 -
          (boundsOf cmds).miny * fitScale cmds W H)) := by
  have hempty : cmds.isEmpty = false := by simpa using hne
  have hscale : min ((W - 2 * 40 : Rat) / max 1 ((cmds.foldl Bounds.add {}).maxx -
        (cmds.foldl Bounds.add {}).minx)) ((H - 2 * 40 : Rat) /
        max 1 ((cmds.foldl Bounds.add {}).maxy - (cmds.foldl Bounds.add {}).miny)) =
      fitScale cmds W H := by
    norm_num [fitScale, boundsOf, span]
  have hpos := fitScale_pos cmds hW hH
  simp only [fitCommands, hempty, Bool.false_eq_true, if_false, hscale, if_neg (not_le.mpr hpos)]
  exact ⟨trivial, rfl, rfl⟩

theorem startOf_fitted (scale : Rat) (j : Nat) :
    startOf ⟨0, 0⟩ (cmds.map (scaleCommand scale)) j =
      scalePoint scale (startOf ⟨0, 0⟩ cmds j) := by
  have horigin : scalePoint scale ⟨0, 0⟩ = ⟨0, 0⟩ := by simp [scalePoint]
  rw [← startOf_scale, horigin]

variable {cmds} (hne : cmds ≠ []) (hW : 80 < W) (hW' : W < 2 ^ 31) (hH : 80 < H) (hH' : H < 2 ^ 31)

include hne hW hW' hH hH'

theorem inside_fitCommands :
    (∀ x : ℝ, Inside W (fitCommands cmds W H 40).hOff (fitScale cmds W H * x) ↔
      WithinRooms W (boundsOf cmds).minx (boundsOf cmds).maxx (fitScale cmds W H) x) ∧
    ∀ y : ℝ, Inside H (fitCommands cmds W H 40).vOff (fitScale cmds W H * y) ↔
      WithinRooms H (boundsOf cmds).miny (boundsOf cmds).maxy (fitScale cmds W H) y := by
  obtain ⟨-, hhOff, hvOff⟩ := fitCommands_eq cmds hne hW hH
  obtain ⟨hfitx, hfity⟩ := span_mul_fitScale_le cmds W H
  have hscale := fitScale_pos cmds hW hH
  have horigin := contains_origin cmds
  constructor
  · apply inside_iff
    rw [hhOff, toInt_offset hscale horigin.minx horigin.maxx hW' hfitx]
  · apply inside_iff
    rw [hvOff, toInt_offset hscale horigin.miny horigin.maxy hH' hfity]

theorem inside_of_contains {p : Point2D} (hp : Contains (boundsOf cmds) p) :
    Inside W (fitCommands cmds W H 40).hOff ((p.x * fitScale cmds W H : Rat) : ℝ) ∧
      Inside H (fitCommands cmds W H 40).vOff ((p.y * fitScale cmds W H : Rat) : ℝ) := by
  obtain ⟨hx, hy⟩ := inside_fitCommands hne hW hW' hH hH'
  obtain ⟨hfitx, hfity⟩ := span_mul_fitScale_le cmds W H
  have hscale := fitScale_pos cmds hW hH
  rw [Rat.cast_mul, Rat.cast_mul, mul_comm (p.x : ℝ), mul_comm (p.y : ℝ), hx, hy]
  exact ⟨withinRooms_of_between hscale hfitx hp.minx hp.maxx,
    withinRooms_of_between hscale hfity hp.miny hp.maxy⟩

omit hne in
theorem arcsFit_of_onCanvas {params : RenderParams}
    (h : OnCanvas params (fitCommands cmds W H 40) W H) : ArcsFit params cmds W H := by
  intro j c hc hs q hq
  have hne : cmds ≠ [] := by
    rintro rfl
    simp at hc
  obtain ⟨hx, hy⟩ := inside_fitCommands hne hW hW' hH hH'
  have hcmds := (fitCommands_eq cmds hne hW hH).1
  have hc' : (fitCommands cmds W H 40).commands[j]? =
      some (scaleCommand (fitScale cmds W H) c) := by
    rw [hcmds, List.getElem?_map, hc, Option.map_some]
  rw [← hx, ← hy]
  apply h j _ hc' ((fitScale cmds W H : ℝ) * q.1, (fitScale cmds W H : ℝ) * q.2)
  rw [hcmds, startOf_fitted, pointsOf, if_pos hs, sampleArc_scale (fitScale_pos cmds hW hH)]
  exact List.mem_cons_of_mem _ (List.mem_cons_of_mem _ (List.mem_map.mpr ⟨q, hq, rfl⟩))

omit hne in
theorem onCanvas_of_arcsFit {params : RenderParams} (h : ArcsFit params cmds W H) :
    OnCanvas params (fitCommands cmds W H 40) W H := by
  intro j c' hc' q hq
  have hne : cmds ≠ [] := by
    rintro rfl
    simp [fitCommands] at hc'
  obtain ⟨hx, hy⟩ := inside_fitCommands hne hW hW' hH hH'
  rw [(fitCommands_eq cmds hne hW hH).1] at hc' hq
  obtain ⟨c, hc, rfl⟩ := Option.map_eq_some_iff.mp ((List.getElem?_map ..).symm.trans hc')
  rw [startOf_fitted, pointsOf, sampleArc_scale (fitScale_pos cmds hW hH)] at hq
  obtain rfl | hq := List.mem_cons.mp hq
  · exact inside_of_contains hne hW hW' hH hH' (contains_startOf cmds j)
  obtain rfl | hq := List.mem_cons.mp hq
  · have hend := contains_endPosition cmds {} (List.mem_of_getElem? hc)
    exact inside_of_contains hne hW hW' hH hH' hend
  split_ifs at hq with hs
  · obtain ⟨r, hr, rfl⟩ := List.mem_map.mp hq
    rw [hx, hy]
    exact h j c hc hs r hr
  · cases hq

omit hne in
theorem onCanvas_iff_arcsFit (params : RenderParams) :
    OnCanvas params (fitCommands cmds W H 40) W H ↔ ArcsFit params cmds W H :=
  ⟨arcsFit_of_onCanvas hW hW' hH hH', onCanvas_of_arcsFit hW hW' hH hH'⟩

end Canvas

section Sides

inductive Side
  | right
  | top
  | left
  | bottom

noncomputable def Side.angle : Side → ℝ
  | .right => 0
  | .top => pi / (2 : Nat)
  | .left => pi
  | .bottom => -(pi / (2 : Nat))

def Side.reach (side : Side) (q : ℝ × ℝ) : ℝ :=
  match side with
  | .right => q.1
  | .top => q.2
  | .left => -q.1
  | .bottom => -q.2

def extent (b : Bounds) : Side → Rat
  | .right => b.maxx
  | .top => b.maxy
  | .left => -b.minx
  | .bottom => -b.miny

/-- The pixels between there and the edge of the canvas. -/
def rim (b : Bounds) (W H : Int) (scale : Rat) : Side → Rat
  | .right => roomAbove W b.minx b.maxx scale
  | .top => roomAbove H b.miny b.maxy scale
  | .left => roomBelow W b.minx b.maxx scale
  | .bottom => roomBelow H b.miny b.maxy scale

variable {b : Bounds} {W H : Int} {scale : Rat}

/-- What is left of the rim at the point is not negative. -/
def BeforeEdge (b : Bounds) (W H : Int) (scale : Rat) (side : Side) (reach : ℝ) : Prop :=
  (reach - (extent b side : Rat)) * scale ≤ (rim b W H scale side : Rat)

theorem withinRooms_iff (q : ℝ × ℝ) :
    WithinRooms W b.minx b.maxx scale q.1 ∧ WithinRooms H b.miny b.maxy scale q.2 ↔
      ∀ side, BeforeEdge b W H scale side (side.reach q) := by
  have hneg : ∀ lo : Rat, ∀ x : ℝ, -x - ((-lo : Rat) : ℝ) = lo - x := by
    intro lo x
    push_cast
    ring
  constructor
  · rintro ⟨⟨hleft, hright⟩, hbottom, htop⟩ side
    cases side with
    | right => exact hright
    | top => exact htop
    | left => exact (congrArg (· * (scale : ℝ)) (hneg b.minx q.1)).trans_le hleft
    | bottom => exact (congrArg (· * (scale : ℝ)) (hneg b.miny q.2)).trans_le hbottom
  · intro h
    refine ⟨⟨?_, h .right⟩, ?_, h .top⟩
    · exact (congrArg (· * (scale : ℝ)) (hneg b.minx q.1)).symm.trans_le (h .left)
    · exact (congrArg (· * (scale : ℝ)) (hneg b.miny q.2)).symm.trans_le (h .bottom)

theorem reach_onCircle (side : Side) (center : Point2D) (r th : ℝ) :
    side.reach (onCircle center r th) =
      side.reach ((center.x : ℝ), (center.y : ℝ)) + r * Real.cos (th - side.angle) := by
  cases side with
  | right => simp [Side.reach, Side.angle, onCircle, exact]
  | top => simp [Side.reach, Side.angle, onCircle, exact, Real.cos_sub_pi_div_two]
  | left =>
    simp only [Side.reach, Side.angle, onCircle, exact, Real.cos_sub_pi]
    ring
  | bottom =>
    simp only [Side.reach, Side.angle, onCircle, exact, Nat.cast_ofNat, sub_neg_eq_add,
      Real.cos_add_pi_div_two]
    ring

theorem beforeEdge_iff (hscale : 0 < scale) {r : ℝ} (hr : 0 < r) (side : Side) (p y : ℝ) :
    BeforeEdge b W H scale side (p + r * y) ↔
      y ≤ ((rim b W H scale side : Rat) / scale + (extent b side : Rat) - p) / r := by
  have hreal : (0 : ℝ) < scale := by exact_mod_cast hscale
  rw [BeforeEdge, le_div_iff₀ hr, ← le_div_iff₀ hreal]
  constructor
  · intro h
    linarith
  · intro h
    linarith

end Sides

section Arcs

theorem distance_centerOf (startPos o : Point2D) :
    distance (centerOf startPos o) startPos = exact.hypot o.x o.y := by
  rw [distance, centerOf, exact]
  dsimp only
  congr 1
  push_cast
  ring

/-- The angle from the start of an arc to its end, with the sign of its direction. -/
noncomputable def sweepOf (c : Command) (startPos : Point2D) : ℝ :=
  let center := centerOf startPos c.arcCenter
  arcSweep exact (directionOf c) (angleFrom center startPos) (angleFrom center c.endPosition)

/-- The arc does not cross the edge: neither where it ends nor next to where it passes the direction,
which is at most half a piece of the sweep away. -/
structure ArcStays (b : Bounds) (W H : Int) (scale : Rat) (c : Command) (startPos : Point2D)
    (side : Side) : Prop where
  finish :
    let center := centerOf startPos c.arcCenter
    BeforeEdge b W H scale side (side.reach (onCircle center (distance center startPos)
      (angleFrom center startPos + sweepOf c startPos)))
  passed :
    let center := centerOf startPos c.arcCenter
    let r := distance center startPos
    let pieces := segments (sweepOf c startPos) (scale * r)
    let piece := sweepOf c startPos / pieces
    ∀ t ∈ Set.Icc (0 : ℝ) pieces,
      (∃ k : ℤ, angleFrom center startPos + piece * t = side.angle + k * (2 * pi)) →
      BeforeEdge b W H scale side
        (side.reach ((center.x : ℝ), (center.y : ℝ)) + r * Real.cos (piece * (t - round t)))

theorem sweepOf_ne_zero (c : Command) (startPos : Point2D) : sweepOf c startPos ≠ 0 := by
  have hrange : |angleFrom (centerOf startPos c.arcCenter) c.endPosition -
      angleFrom (centerOf startPos c.arcCenter) startPos| < 2 * pi := abs_atan2_sub_lt _ _ _ _
  obtain ⟨n, a, -, hpos, -, hsweep⟩ := forward_sweep (directionOf c) hrange
  rw [sweepOf, hsweep]
  split_ifs
  · exact Real.two_pi_pos.ne'
  · cases directionOf c with
    | Clockwise => exact (neg_neg_of_pos hpos).ne
    | CounterClockwise => exact hpos.ne'

variable {b : Bounds} {W H : Int} {scale : Rat} {c : Command} {startPos : Point2D}

theorem arcStays_iff (hscale : 0 < scale)
    (hr : 0 < distance (centerOf startPos c.arcCenter) startPos) (side : Side)
    (hstart : BeforeEdge b W H scale side (side.reach ((startPos.x : ℝ), (startPos.y : ℝ)))) :
    (∀ q ∈ arcSamples scale c startPos, BeforeEdge b W H scale side (side.reach q)) ↔
      ArcStays b W H scale c startPos side := by
  have hpieces := segments_pos (sweepOf c startPos)
    (scale * distance (centerOf startPos c.arcCenter) startPos)
  set center := centerOf startPos c.arcCenter with hcenter
  set r := distance center startPos with hdist
  set pieces := segments (sweepOf c startPos) (scale * r) with hsegs
  set piece := sweepOf c startPos / pieces with hpiece
  have hne : (pieces : ℝ) ≠ 0 := by exact_mod_cast hpieces.ne'
  have hpiece0 : piece ≠ 0 := div_ne_zero (sweepOf_ne_zero c startPos) hne
  have hend : angleFrom center startPos + sweepOf c startPos - side.angle =
      angleFrom center startPos - side.angle + piece * pieces := by
    rw [hpiece]
    field_simp
    ring
  have hsample : ∀ i : Nat, angleFrom center startPos + sweepOf c startPos * (i / pieces) -
      side.angle = angleFrom center startPos - side.angle + piece * i := by
    intro i
    rw [hpiece]
    ring
  have hall : (∀ q ∈ arcSamples scale c startPos, BeforeEdge b W H scale side (side.reach q)) ↔
      ∀ i ≤ pieces, BeforeEdge b W H scale side (side.reach ((center.x : ℝ), (center.y : ℝ)) +
        r * Real.cos (angleFrom center startPos - side.angle + piece * i)) := by
    simp only [arcSamples, List.mem_map, List.mem_range, forall_exists_index, and_imp,
      forall_apply_eq_imp_iff₂, Nat.lt_succ_iff]
    refine forall₂_congr fun i _ => ?_
    rw [← hsample, ← reach_onCircle]
    rfl
  have hbegin : Real.cos (angleFrom center startPos - side.angle) ≤
      ((rim b W H scale side : Rat) / scale + (extent b side : Rat) -
        side.reach ((center.x : ℝ), (center.y : ℝ))) / r := by
    rw [← beforeEdge_iff hscale hr, ← reach_onCircle, hdist, onCircle_distance]
    exact hstart
  simp only [hall, beforeEdge_iff hscale hr]
  rw [Lib.Samples.cos_samples_le_iff _ hpiece0, and_iff_right hbegin, ← beforeEdge_iff hscale hr,
    ← hend, ← reach_onCircle]
  constructor
  · rintro ⟨hfinish, hpassed⟩
    refine ⟨hfinish, fun t ht hk => (beforeEdge_iff hscale hr side _ _).mpr (hpassed t ht ?_)⟩
    obtain ⟨k, hk⟩ := hk
    exact ⟨k, by linarith⟩
  · rintro ⟨hfinish, hpassed⟩
    refine ⟨hfinish, fun t ht hk => (beforeEdge_iff hscale hr side _ _).mp (hpassed t ht ?_)⟩
    obtain ⟨k, hk⟩ := hk
    exact ⟨k, by linarith⟩

end Arcs

section Fitted

variable {cmds : List Command} {W H : Int} (hW : 80 < W) (hH : 80 < H)

include hW hH

theorem beforeEdge_startOf (j : Nat) (side : Side) :
    BeforeEdge (boundsOf cmds) W H (fitScale cmds W H) side
      (side.reach (((startOf ⟨0, 0⟩ cmds j).x : ℝ), ((startOf ⟨0, 0⟩ cmds j).y : ℝ))) := by
  obtain ⟨hfitx, hfity⟩ := span_mul_fitScale_le cmds W H
  have hscale := fitScale_pos cmds hW hH
  have hin := contains_startOf cmds j
  exact (withinRooms_iff _).mp ⟨withinRooms_of_between hscale hfitx hin.minx hin.maxx,
    withinRooms_of_between hscale hfity hin.miny hin.maxy⟩ side

theorem radius_pos_of_sampled {params : RenderParams} {c : Command}
    (hs : sampled params (scaleCommand (fitScale cmds W H) c) = true) (startPos : Point2D) :
    0 < distance (centerOf startPos c.arcCenter) startPos := by
  have hscale := fitScale_pos cmds hW hH
  have hreal : (0 : ℝ) < fitScale cmds W H := by exact_mod_cast hscale
  have hradius := ((sampled_iff params _).mp hs).2.radius
  have heps : (0 : ℝ) < (EPSILON : Rat) := by norm_num [EPSILON]
  have hcenter : centerOf (scalePoint (fitScale cmds W H) startPos)
      (scaleCommand (fitScale cmds W H) c).arcCenter =
        scalePoint (fitScale cmds W H) (centerOf startPos c.arcCenter) :=
    centerOf_scale _ startPos c.arcCenter
  rw [← distance_centerOf (scalePoint (fitScale cmds W H) startPos), hcenter,
    distance_scale hscale] at hradius
  exact (mul_pos_iff_of_pos_left hreal).mp (heps.trans hradius)

theorem arcsFit_iff (params : RenderParams) : ArcsFit params cmds W H ↔
    ∀ j c, cmds[j]? = some c → sampled params (scaleCommand (fitScale cmds W H) c) = true →
      ∀ side, ArcStays (boundsOf cmds) W H (fitScale cmds W H) c (startOf ⟨0, 0⟩ cmds j) side := by
  refine forall₄_congr fun j c hc hs => ?_
  have hscale := fitScale_pos cmds hW hH
  have hr := radius_pos_of_sampled hW hH hs (startOf ⟨0, 0⟩ cmds j)
  simp only [withinRooms_iff, ← arcStays_iff hscale hr _ (beforeEdge_startOf hW hH j _)]
  exact ⟨fun h side q hq => h q hq side, fun h q hq side => h side q hq⟩

/-- The fitted path lies on the canvas exactly if no arc crosses an edge, neither at its end nor
where it passes the direction to the edge. -/
theorem onCanvas_iff (hW' : W < 2 ^ 31) (hH' : H < 2 ^ 31) (params : RenderParams) :
    OnCanvas params (fitCommands cmds W H 40) W H ↔
      ∀ j c, cmds[j]? = some c → sampled params (scaleCommand (fitScale cmds W H) c) = true →
        ∀ side, ArcStays (boundsOf cmds) W H (fitScale cmds W H) c (startOf ⟨0, 0⟩ cmds j) side :=
  (onCanvas_iff_arcsFit hW hW' hH hH' params).trans (arcsFit_iff hW hH params)

end Fitted

section Bulge

/-- The line `G1 X10`, which has no arc. -/
def straight : Command :=
  { type := .G01, endPosition := ⟨10, 0⟩, arcCenter := ⟨0, 0⟩, lineNumber := 1, originalLine := [] }

theorem onCanvas_straight : OnCanvas {} (fitCommands [straight] 2000 4000 40) 2000 4000 := by
  apply (onCanvas_iff (by decide) (by decide) (by decide) (by decide) {}).mpr
  intro j c hc hs
  obtain rfl := List.mem_singleton.mp (List.mem_of_getElem? hc)
  cases hs

/-- The full circle `G2 X0 Y0 I-100`. -/
def fullCircle : Command :=
  { type := .G02, endPosition := ⟨0, 0⟩, arcCenter := ⟨-100, 0⟩, lineNumber := 1
    originalLine := [] }

theorem arcSweep_full : arcSweep exact .Clockwise 0 0 = -(2 * pi) := by
  have hturn := Real.two_pi_pos
  have hsweep : sweepClockwise exact (0 - 0 : ℝ) = -(2 * pi) := by
    simp [sweepClockwise, exact]
  have hbig : ¬|(-(2 * pi) : ℝ)| < 1 / 1000000000 := by
    have := Real.pi_gt_three
    rw [abs_neg, abs_of_pos hturn]
    linarith
  simp only [arcSweep, hsweep, if_neg hbig]

theorem segments_full : segments (-(2 * pi)) ((1920 : ℝ) * 100) = 4000 := by
  have hlo := Real.pi_gt_three
  have hhi := Real.pi_le_four
  have harg : |(-(2 * pi) : ℝ)| * (1920 * 100) / 3 = 128000 * pi := by
    rw [abs_neg, abs_of_pos Real.two_pi_pos]
    ring
  have hnonneg : (0 : ℝ) ≤ 128000 * pi := by positivity
  have hge : 4000 ≤ ⌊128000 * pi + 1 / 2⌋ := Int.le_floor.mpr (by push_cast; linarith)
  have hlt : ⌊128000 * pi + 1 / 2⌋ < 1000000 := Int.floor_lt.mpr (by push_cast; linarith)
  rw [segments, harg, llround, if_pos hnonneg, toInt, Int.bmod_eq_of_le (by omega) (by omega)]
  omega

theorem mem_arcSamples_full : ((-200 : ℝ), (0 : ℝ)) ∈ arcSamples 1920 fullCircle ⟨0, 0⟩ := by
  have hcenter : centerOf ⟨0, 0⟩ fullCircle.arcCenter = ⟨-100, 0⟩ := by decide +kernel
  have hend : fullCircle.endPosition = ⟨0, 0⟩ := rfl
  have hdir : directionOf fullCircle = .Clockwise := rfl
  have hangle : angleFrom ⟨-100, 0⟩ ⟨0, 0⟩ = 0 := angleFrom_right (by decide +kernel) rfl
  have hdist : distance ⟨-100, 0⟩ ⟨0, 0⟩ = 100 := by
    have hsq : ((0 - -100 : Rat) : ℝ) ^ 2 + ((0 - 0 : Rat) : ℝ) ^ 2 = 100 ^ 2 := by norm_num
    exact (congrArg Real.sqrt hsq).trans (Real.sqrt_sq (by norm_num))
  have hcast : ((1920 : Rat) : ℝ) = 1920 := by norm_num
  have hhalf : (0 : ℝ) + -(2 * pi) * ((2000 : Nat) / (4000 : Nat)) = -pi := by
    push_cast
    ring
  simp only [arcSamples, hcenter, hend, hdir, hangle, hdist, arcSweep_full, hcast, segments_full]
  refine List.mem_map.mpr ⟨2000, List.mem_range.mpr (by norm_num), ?_⟩
  rw [hhalf]
  norm_num [onCircle, exact]

theorem not_onCanvas_fullCircle : ¬∀ (params : RenderParams) (cmds : List Command) (W H : Int),
    80 < W → W < 2 ^ 31 → 80 < H → H < 2 ^ 31 →
      OnCanvas params (fitCommands cmds W H 40) W H := by
  intro h
  have hscale : fitScale [fullCircle] 2000 4000 = 1920 := by decide +kernel
  have hfits := arcsFit_of_onCanvas (by decide) (by decide) (by decide) (by decide)
    (h {} [fullCircle] 2000 4000 (by decide) (by decide) (by decide) (by decide))
  have hroom := (hfits 0 fullCircle rfl (by rw [hscale]; decide +kernel) (-200, 0)
    (by rw [hscale]; exact mem_arcSamples_full)).1.1
  have hbelow : roomBelow 2000 (boundsOf [fullCircle]).minx (boundsOf [fullCircle]).maxx 1920 =
      40 := by
    decide +kernel
  have hminx : (boundsOf [fullCircle]).minx = 0 := by decide +kernel
  rw [hscale, hbelow, hminx] at hroom
  norm_num at hroom

end Bulge

end Datenbereitstellung.CanvasFit
