import Datenbereitstellung.PreviewRenderer

namespace Datenbereitstellung.PreviewPaths

open GCodeParser ArcFlatten PreviewRenderer

def flattenCommand (t : Rat) (c : Command) : Command :=
  if isArc c.type && shouldFlatten (radiusSq c.arcCenter.x c.arcCenter.y) t then
    { c with type := .G01 }
  else c

theorem shouldFlatten_of_nonpos {t : Rat} (ht : t ≤ 0) (rSq : Rat) : shouldFlatten rSq t = false := by
  simp [shouldFlatten, not_lt.mpr ht]

theorem flattenCommandsMM_eq (cmds : List Command) (t : Rat) :
    flattenCommandsMM cmds t = cmds.map (flattenCommand t) := by
  rw [flattenCommandsMM]
  by_cases ht : t ≤ 0
  · have hid : flattenCommand t = id := by
      funext c
      simp [flattenCommand, shouldFlatten_of_nonpos ht]
    rw [if_pos ht, hid, List.map_id]
  · rw [if_neg ht]
    refine List.map_congr_left fun c _ => ?_
    cases hc : c.type <;> simp [flattenCommand, isArc, hc]

section Command

variable {α : Type} [Field α] [LinearOrder α] [FloorRing α] (m : Cmath α) (params : RenderParams)

theorem renderArc_minArcRadius {t : Rat} {o : Point2D} (h : shouldFlatten (radiusSq o.x o.y) t = false)
    (startPos endPos : Point2D) (direction : ArcDirection) (pen : Pen) :
    renderArc m { params with minArcRadius := t } startPos endPos o direction pen =
      renderArc m { params with minArcRadius := 0 } startPos endPos o direction pen := by
  have hr : radiusSq (startPos.x - (startPos.x + o.x)) (startPos.y - (startPos.y + o.y)) =
      radiusSq o.x o.y := by
    simp only [radiusSq]
    ring
  simp only [renderArc, hr, h, shouldFlatten_of_nonpos le_rfl]
  rfl

theorem renderCommand_flattened {t : Rat} {c : Command} (hc : isArc c.type = true)
    (hf : shouldFlatten (radiusSq c.arcCenter.x c.arcCenter.y) t = true) (startPos : Point2D) :
    renderCommand m { params with minArcRadius := t } c startPos =
      renderCommand m { params with minArcRadius := 0 } { c with type := .G01 } startPos := by
  obtain ⟨type, endPosition, arcCenter, lineNumber, recordIndex, originalLine⟩ := c
  cases type with
  | None | G00 | G01 => cases hc
  | G02 | G03 =>
    simp only [renderCommand, isArc, basePen, hf]
    rfl

theorem renderCommand_kept {t : Rat} {c : Command}
    (hf : (isArc c.type && shouldFlatten (radiusSq c.arcCenter.x c.arcCenter.y) t) = false)
    (startPos : Point2D) :
    renderCommand m { params with minArcRadius := t } c startPos =
      renderCommand m { params with minArcRadius := 0 } c startPos := by
  obtain ⟨type, endPosition, arcCenter, lineNumber, recordIndex, originalLine⟩ := c
  cases type with
  | None | G00 | G01 => rfl
  | G02 | G03 =>
    have hkept : shouldFlatten (radiusSq arcCenter.x arcCenter.y) t = false := hf
    simp only [renderCommand, hkept, shouldFlatten_of_nonpos le_rfl]
    exact congrArg some (renderArc_minArcRadius m params hkept _ _ _ _)

theorem renderCommand_flatten (t : Rat) (c : Command) (startPos : Point2D) :
    renderCommand m { params with minArcRadius := t } c startPos =
      renderCommand m { params with minArcRadius := 0 } (flattenCommand t c) startPos := by
  rw [flattenCommand]
  cases hf : isArc c.type && shouldFlatten (radiusSq c.arcCenter.x c.arcCenter.y) t with
  | true =>
    obtain ⟨hc, hs⟩ := Bool.and_eq_true_iff.mp hf
    exact renderCommand_flattened m params hc hs startPos
  | false => exact renderCommand_kept m params hf startPos

theorem renderLoop_flatten (t : Rat) (cmds : List Command) (i : Nat) (cur : Point2D) :
    renderLoop m { params with minArcRadius := t } cmds i cur =
      renderLoop m { params with minArcRadius := 0 } (cmds.map (flattenCommand t)) i cur := by
  induction cmds generalizing i cur with
  | nil => rfl
  | cons c cmds ih =>
    have hpos : (flattenCommand t c).endPosition = c.endPosition := by
      rw [flattenCommand]
      split <;> rfl
    simp only [List.map_cons, renderLoop, ih, hpos, renderCommand_flatten m params t c]

/-- Flattening while drawing and flattening before it give the same strokes. -/
theorem renderRange_flattenCommandsMM (C : List Command) (s : Point2D) (t : Rat) :
    renderRange m { params with minArcRadius := t } C 0 C.length s =
      renderRange m { params with minArcRadius := 0 } (flattenCommandsMM C t) 0 C.length s := by
  simp only [renderRange]
  rw [flattenCommandsMM_eq, List.drop_zero, List.drop_zero, List.take_length,
    List.take_of_length_le (List.length_map _).le]
  exact renderLoop_flatten m params t C 0 s

end Command

end Datenbereitstellung.PreviewPaths
