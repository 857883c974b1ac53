import Datenbereitstellung.SweepDrawing

namespace Datenbereitstellung.LiveMarks

open GCodeParser PreviewRenderer SweepDrawing

variable {α : Type} [Field α] [LinearOrder α] [FloorRing α] {m : Cmath α} {params : RenderParams}
variable {C : List Command} {c : Command} {j : Nat} {limits : Limits}

section Pens

def drawnOf (limits : Limits) (j : Nat) (strokes : List Stroke) : List Stroke :=
  (strokesOf j strokes).filter fun s => limits.takes s.primitive

def pensOf (limits : Limits) (j : Nat) (strokes : List Stroke) : List Pen :=
  (drawnOf limits j strokes).map fun s => s.primitive.pen

theorem pensOf_sweepEnd (hp : params.currentRecord = -1) (hc : C[j]? = some c) {base : Pen}
    (hpen : plainPen params c = some base) : pensOf limits j (sweepEnd m params C) =
      [base, progressPen { params with currentRecord := c.recordIndex } c.recordIndex base,
        progressPen { params with currentRecord := c.recordIndex + 1 } c.recordIndex base].filter
          (takesPen limits params c) := by
  have hopen : fullStroke m params C j = fullStroke m { params with currentRecord := -1 } C j := by
    rw [← hp]
  obtain ⟨s₀, hs₀, hpen₀, htakes₀⟩ := fullStroke_spec (m := m) limits hc hpen (-1)
  obtain ⟨s₁, hs₁, hpen₁, htakes₁⟩ := fullStroke_spec (m := m) limits hc hpen c.recordIndex
  obtain ⟨s₂, hs₂, hpen₂, htakes₂⟩ := fullStroke_spec (m := m) limits hc hpen (c.recordIndex + 1)
  have hplain : progressPen { params with currentRecord := -1 } c.recordIndex base = base := by
    simp [progressPen]
  rw [hplain] at hpen₀
  rw [pensOf, drawnOf, strokesOf_sweepEnd hc, marked, marked, hopen, hs₀, hs₁, hs₂, ← hpen₁, ← hpen₂,
    ← hpen₀]
  simp only [Option.toList_some, List.cons_append, List.nil_append, List.filter_cons, htakes₀,
    htakes₁, htakes₂, List.filter_nil]
  split_ifs <;> rfl

theorem pensOf_eq_nil (hp : params.currentRecord = -1) (hc : C[j]? = some c)
    (hpen : plainPen params c = none) : pensOf limits j (sweepEnd m params C) = [] := by
  have hopen : fullStroke m params C j = fullStroke m { params with currentRecord := -1 } C j := by
    rw [← hp]
  rw [pensOf, drawnOf, strokesOf_sweepEnd hc, marked, marked, hopen, fullStroke_none hc hpen,
    fullStroke_none hc hpen, fullStroke_none hc hpen]
  rfl

theorem progressPen_unnumbered (hc : c.recordIndex < 0) (r : Int) (pen : Pen) :
    progressPen { params with currentRecord := r } c.recordIndex pen = pen := by
  rw [progressPen]
  rw [if_neg fun h => absurd h.2 (not_le.mpr hc)]

end Pens

section Covering

/-- The last stroke of a numbered command has the colour of the done ones, and none that was drawn
before in the colour of the current one is thicker. -/
def Covered (limits : Limits) (params : RenderParams) (c : Command) (j : Nat)
    (strokes : List Stroke) : Prop :=
  ∀ last, lastDrawn limits j strokes = some last →
    (0 ≤ c.recordIndex → last.primitive.pen.color = params.doneColor) ∧
      ∀ s ∈ drawnOf limits j strokes, s.primitive.pen.color = params.liveColor →
        s.primitive.pen.thickness ≤ last.primitive.pen.thickness

/-- Where OpenCV takes the done command, it is drawn as thick as the current one, and as the open one
if that has the colour of the current one. Else the last stroke it takes has the colour of the done
ones. -/
def Covers (limits : Limits) (params : RenderParams) (c : Command) : Prop :=
  ∀ base, plainPen params c = some base → 0 ≤ c.recordIndex →
    let takes := fun pen => takesPen limits params c pen = true
    let live := livePen params base
    let done := donePen params base
    (takes done → (takes base → base.color = params.liveColor → base.thickness ≤ done.thickness) ∧
      (takes live → live.thickness ≤ done.thickness)) ∧
    (¬takes done → takes live → params.liveColor = params.doneColor ∧
      (takes base → base.color = params.liveColor → base.thickness ≤ live.thickness)) ∧
    (¬takes done → ¬takes live → takes base → base.color = params.doneColor)

theorem covered_iff_pens (strokes : List Stroke) :
    Covered limits params c j strokes ↔ ∀ last, (pensOf limits j strokes).getLast? = some last →
      (0 ≤ c.recordIndex → last.color = params.doneColor) ∧
        ∀ pen ∈ pensOf limits j strokes, pen.color = params.liveColor →
          pen.thickness ≤ last.thickness := by
  have hlast : (pensOf limits j strokes).getLast? =
      (lastDrawn limits j strokes).map fun s => s.primitive.pen := List.getLast?_map
  rw [hlast, Covered]
  simp only [Option.map_eq_some_iff, forall_exists_index, and_imp, forall_apply_eq_imp_iff₂, pensOf,
    List.mem_map]

theorem covered_iff (hp : params.currentRecord = -1) (hc : C[j]? = some c) :
    Covered limits params c j (sweepEnd m params C) ↔ Covers limits params c := by
  rw [covered_iff_pens, Covers]
  cases hpen : plainPen params c with
  | none => simp [pensOf_eq_nil hp hc hpen]
  | some base =>
    rw [pensOf_sweepEnd hp hc hpen]
    by_cases hnum : 0 ≤ c.recordIndex
    · rw [progressPen_live hnum, progressPen_done hnum (Int.lt_succ _)]
      -- which of the three strokes is the last one depends on what OpenCV takes
      by_cases hdone : takesPen limits params c (donePen params base) = true <;>
        by_cases hlive : takesPen limits params c (livePen params base) = true <;>
          by_cases hbase : takesPen limits params c base = true <;>
            simp [hdone, hlive, hbase, hnum]
    · rw [progressPen_unnumbered (not_le.mp hnum), progressPen_unnumbered (not_le.mp hnum)]
      by_cases hbase : takesPen limits params c base = true <;>
        simp [hbase, hnum]

/-- After the end of a sweep no marking of the current command is left exactly if the strokes that
OpenCV takes are so thick. -/
theorem sweepEnd_covers_iff (limits : Limits) (m : Cmath α) (web : Style) (minArcRadius : Rat)
    (hOff vOff : Int) (C : List Command) :
    let params := makeParams web minArcRadius hOff vOff
    (∀ j c, C[j]? = some c → Covered limits params c j (sweepEnd m params C)) ↔
      ∀ c ∈ C, Covers limits params c := by
  intro params
  have hp : params.currentRecord = -1 := rfl
  constructor
  · intro h c hmem
    obtain ⟨j, hj, hc⟩ := List.mem_iff_getElem.mp hmem
    have hc : C[j]? = some c := List.getElem?_eq_some_iff.mpr ⟨hj, hc⟩
    exact (covered_iff hp hc).mp (h j c hc)
  · intro h j c hc
    exact (covered_iff hp hc).mpr (h c (List.mem_of_getElem? hc))

/-- The line `G1 X1`. -/
def oneLine : Command :=
  { type := .G01, endPosition := ⟨1, 0⟩, arcCenter := ⟨0, 0⟩, lineNumber := 1, recordIndex := 0
    originalLine := [] }

theorem not_covered_oneLine : ¬∀ (web : Style) (minArcRadius : Rat) (hOff vOff : Int)
    (C : List Command), 1 ≤ web.thicknessG0 → 1 ≤ web.thicknessG1 → 1 ≤ web.thicknessG2 →
      1 ≤ web.thicknessG3 → 0 ≤ web.liveThickness → 0 ≤ web.doneThickness →
      ∀ j c, C[j]? = some c → Covered opencv (makeParams web minArcRadius hOff vOff) c j
        (sweepEnd exact (makeParams web minArcRadius hOff vOff) C) := by
  intro h
  have hcovered := h {} 0 0 0 [oneLine] (by decide) (by decide) (by decide) (by decide) (by decide)
    (by decide) 0 oneLine rfl
  have hcovers := (covered_iff rfl rfl).mp hcovered ⟨⟨0, 255, 0⟩, 2⟩ rfl (by decide)
  exact absurd ((hcovers.1 rfl).2 rfl) (by decide)

end Covering

end Datenbereitstellung.LiveMarks
