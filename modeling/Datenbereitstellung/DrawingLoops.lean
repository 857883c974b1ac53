import Datenbereitstellung.PictureErrors
import Datenbereitstellung.SweepDrawing

namespace Datenbereitstellung.DrawingLoops

open Strings GCodeParser PreviewRenderer PictureErrors
open SweepDrawing (startOf renderCommand_eq_none_iff)

variable {α : Type} [Field α] [LinearOrder α] [FloorRing α] (m : Cmath α) (params : RenderParams)
variable (throws : Nat → Primitive → Bool)

def isThrown (i : Nat) (cmd : Command) (startPos : Point2D) : Bool :=
  (renderCommand m params cmd startPos).any (throws i)

structure Attempt extends Stroke where
  startPos : Point2D

def attempt (i : Nat) (cmd : Command) (startPos : Point2D) : List Attempt :=
  ((renderCommand m params cmd startPos).map fun p => ⟨⟨i, p⟩, startPos⟩).toList

/-- What the loop of `render` attempts to draw; behind an exception the position stays. -/
def attemptLoop : List Command → (i : Nat) → (currentPos : Point2D) → List Attempt
  | [], _, _ => []
  | cmd :: cmds, i, currentPos =>
    attempt m params i cmd currentPos ++
      attemptLoop cmds (i + 1)
        (if isThrown m params throws i cmd currentPos then currentPos else cmd.endPosition)

/-- Both loops attempt the same, and each command is drawn from the end of its predecessor. -/
structure SameDrawing (C : List Command) : Prop where
  primitives : (attemptLoop m params throws C 0 ⟨0, 0⟩).map (·.primitive) =
    (renderRange m params C 0 C.length ⟨0, 0⟩).1.map (·.primitive)
  starts : ∀ a ∈ attemptLoop m params throws C 0 ⟨0, 0⟩, a.startPos = startOf ⟨0, 0⟩ C a.command

/-- A command that throws ends where it starts, if something is drawn behind it. -/
def Stays (cmds : List Command) (i : Nat) (startPos : Point2D) : Prop :=
  ∀ j c d, cmds[j]? = some c → cmds[j + 1]? = some d → d.type ≠ .None →
    isThrown m params throws (i + j) c (startOf startPos cmds j) = true →
    c.endPosition = startOf startPos cmds j

variable {m params throws}

theorem stays_cons (cmd : Command) (cmds : List Command) (i : Nat) (startPos : Point2D) :
    Stays m params throws (cmd :: cmds) i startPos ↔
      (∀ d, cmds[0]? = some d → d.type ≠ .None → isThrown m params throws i cmd startPos = true →
        cmd.endPosition = startPos) ∧
        Stays m params throws cmds (i + 1) cmd.endPosition := by
  constructor
  · intro h
    refine ⟨fun d hd => h 0 cmd d rfl hd, fun j c d hc hd ht hthrown => ?_⟩
    rw [Nat.add_right_comm] at hthrown
    exact h (j + 1) c d hc hd ht hthrown
  · rintro ⟨hhead, htail⟩ j c d hc hd ht hthrown
    cases j with
    | zero =>
      obtain rfl : cmd = c := Option.some.inj hc
      exact hhead d hd ht hthrown
    | succ j =>
      apply htail j c d hc hd ht
      rwa [Nat.add_right_comm]

theorem isThrown_eq_false_of_none {cmd : Command} (h : cmd.type = .None) (i : Nat)
    (startPos : Point2D) : isThrown m params throws i cmd startPos = false := by
  rw [isThrown, (renderCommand_eq_none_iff m params cmd startPos).mpr h]
  rfl

theorem attempt_eq_nil_of_none {cmd : Command} (h : cmd.type = .None) (i : Nat)
    (startPos : Point2D) : attempt m params i cmd startPos = [] := by
  rw [attempt, (renderCommand_eq_none_iff m params cmd startPos).mpr h]
  rfl

variable (m params) in
theorem exists_attempt {cmd : Command} (h : cmd.type ≠ .None) (i : Nat) (startPos : Point2D) :
    ∃ p, attempt m params i cmd startPos = [⟨⟨i, p⟩, startPos⟩] := by
  obtain ⟨p, hp⟩ := Option.ne_none_iff_exists'.mp
    (mt (renderCommand_eq_none_iff m params cmd startPos).mp h)
  exact ⟨p, by rw [attempt, hp]; rfl⟩

theorem le_command_of_mem (cmds : List Command) (i : Nat) (currentPos : Point2D) :
    ∀ a ∈ attemptLoop m params throws cmds i currentPos, i ≤ a.command := by
  induction cmds generalizing i currentPos with
  | nil => exact fun a ha => by cases ha
  | cons cmd cmds ih =>
    intro a ha
    obtain ha | ha := List.mem_append.mp ha
    · by_cases ht : cmd.type = .None
      · rw [attempt_eq_nil_of_none ht] at ha
        cases ha
      · obtain ⟨p, hp⟩ := exists_attempt m params ht i currentPos
        rw [hp] at ha
        rw [List.mem_singleton.mp ha]
    · exact (Nat.le_succ i).trans (ih _ _ a ha)

/-- The attempts of a list start where the commands before them end. -/
def StartsRight (cmds : List Command) (i : Nat) (startPos : Point2D) (as : List Attempt) : Prop :=
  ∀ a ∈ as, a.startPos = startOf startPos cmds (a.command - i)

theorem startsRight_cons (cmd : Command) (cmds : List Command) (i : Nat)
    (currentPos startPos : Point2D) (h : cmd.type ≠ .None → currentPos = startPos)
    {as : List Attempt} (has : ∀ a ∈ as, i + 1 ≤ a.command) :
    StartsRight (cmd :: cmds) i startPos (attempt m params i cmd currentPos ++ as) ↔
      StartsRight cmds (i + 1) cmd.endPosition as := by
  have htail : ∀ a ∈ as, startOf startPos (cmd :: cmds) (a.command - i) =
      startOf cmd.endPosition cmds (a.command - (i + 1)) := by
    intro a ha
    have hle := has a ha
    obtain ⟨n, hn⟩ : ∃ n, a.command - i = n + 1 := ⟨a.command - (i + 1), by omega⟩
    have hn' : a.command - (i + 1) = n := by omega
    rw [hn, hn']
    rfl
  constructor
  · intro hall a ha
    rw [← htail a ha]
    exact hall a (List.mem_append_right _ ha)
  · intro hall a ha
    obtain ha | ha := List.mem_append.mp ha
    · by_cases ht : cmd.type = .None
      · rw [attempt_eq_nil_of_none ht] at ha
        cases ha
      · obtain ⟨p, hp⟩ := exists_attempt m params ht i currentPos
        rw [hp] at ha
        obtain rfl := List.mem_singleton.mp ha
        simpa [startOf] using h ht
    · rw [htail a ha]
      exact hall a ha

def HeadFrom (cmds : List Command) (currentPos startPos : Point2D) : Prop :=
  ∀ d, cmds[0]? = some d → d.type ≠ .None → currentPos = startPos

theorem headFrom_of_startsRight {cmds : List Command} {i : Nat} {currentPos startPos : Point2D}
    (h : StartsRight cmds i startPos (attemptLoop m params throws cmds i currentPos)) :
    HeadFrom cmds currentPos startPos := by
  intro d hd ht
  cases cmds with
  | nil => cases hd
  | cons c cmds =>
    obtain rfl : c = d := Option.some.inj hd
    obtain ⟨p, hp⟩ := exists_attempt m params ht i currentPos
    have hmem : (⟨⟨i, p⟩, currentPos⟩ : Attempt) ∈
        attemptLoop m params throws (c :: cmds) i currentPos :=
      List.mem_append_left _ (hp ▸ List.mem_singleton_self _)
    simpa [startOf] using h _ hmem

theorem startsRight_iff_stays (cmds : List Command) (i : Nat) (currentPos startPos : Point2D)
    (h : HeadFrom cmds currentPos startPos) :
    StartsRight cmds i startPos (attemptLoop m params throws cmds i currentPos) ↔
      Stays m params throws cmds i startPos := by
  induction cmds generalizing i currentPos startPos with
  | nil => exact iff_of_true (fun a ha => by cases ha) fun j c d hc => by cases hc
  | cons cmd cmds ih =>
    have hcmd : cmd.type ≠ .None → currentPos = startPos := h cmd rfl
    have hthrown : isThrown m params throws i cmd currentPos =
        isThrown m params throws i cmd startPos := by
      by_cases ht : cmd.type = .None
      · rw [isThrown_eq_false_of_none ht, isThrown_eq_false_of_none ht]
      · rw [hcmd ht]
    rw [attemptLoop, startsRight_cons cmd cmds i currentPos startPos hcmd (le_command_of_mem _ _ _),
      stays_cons, hthrown]
    -- where the next command is drawn from decides about the head of the rest
    cases hth : isThrown m params throws i cmd startPos with
    | false =>
      simp only [Bool.false_eq_true, if_false]
      rw [ih (i + 1) _ _ fun _ _ _ => rfl]
      exact (and_iff_right fun _ _ _ hf => by cases hf).symm
    | true =>
      have ht : cmd.type ≠ .None := fun ht => by rw [isThrown_eq_false_of_none ht] at hth; cases hth
      simp only [if_true, hcmd ht]
      constructor
      · intro hright
        have hhead := headFrom_of_startsRight hright
        exact ⟨fun d hd hdt _ => (hhead d hd hdt).symm, (ih _ _ _ hhead).mp hright⟩
      · rintro ⟨hhead, htail⟩
        exact (ih _ _ _ fun d hd hdt => (hhead d hd hdt trivial).symm).mpr htail

theorem primitives_of_stays (cmds : List Command) (i : Nat) (currentPos startPos : Point2D)
    (h : HeadFrom cmds currentPos startPos) (hstays : Stays m params throws cmds i startPos) :
    (attemptLoop m params throws cmds i currentPos).map (·.primitive) =
      (renderLoop m params cmds i startPos).1.map (·.primitive) := by
  induction cmds generalizing i currentPos startPos with
  | nil => rfl
  | cons cmd cmds ih =>
    obtain ⟨hhead, htail⟩ := (stays_cons cmd cmds i startPos).mp hstays
    have hdraw : (attempt m params i cmd currentPos).map (·.primitive) =
        ((renderCommand m params cmd startPos).map (Stroke.mk i)).toList.map (·.primitive) := by
      by_cases ht : cmd.type = .None
      · rw [attempt_eq_nil_of_none ht, (renderCommand_eq_none_iff m params cmd startPos).mpr ht]
        rfl
      · rw [h cmd rfl ht, attempt]
        cases renderCommand m params cmd startPos <;> rfl
    simp only [attemptLoop, renderLoop, List.map_append, hdraw]
    congr 1
    refine ih _ _ _ ?_ htail
    intro d hd hdt
    split
    · rename_i hth
      have ht : cmd.type ≠ .None := fun ht => by rw [isThrown_eq_false_of_none ht] at hth; cases hth
      have hpos := h cmd rfl ht
      rw [hpos] at hth ⊢
      exact (hhead d hd hdt hth).symm
    · rfl

/-- `render` draws as `renderRange` does, each command from the end of its predecessor, exactly if a
command that throws moves nowhere, unless nothing is drawn behind it. -/
theorem attempts_eq_iff (m : Cmath α) (params : RenderParams) (throws : Nat → Primitive → Bool)
    (C : List Command) :
    SameDrawing m params throws C ↔ Stays m params throws C 0 ⟨0, 0⟩ := by
  have hstart : StartsRight C 0 ⟨0, 0⟩ (attemptLoop m params throws C 0 ⟨0, 0⟩) ↔
      Stays m params throws C 0 ⟨0, 0⟩ := startsRight_iff_stays C 0 ⟨0, 0⟩ ⟨0, 0⟩ fun _ _ _ => rfl
  constructor
  · intro h
    exact hstart.mp h.starts
  · intro h
    refine ⟨?_, hstart.mpr h⟩
    rw [renderRange, List.take_length, List.drop_zero]
    exact primitives_of_stays C 0 ⟨0, 0⟩ ⟨0, 0⟩ (fun _ _ _ => rfl) h

/-- The lines `G1 X1` and `G1 X2`. -/
def twoLines : List Command :=
  [{ type := .G01, endPosition := ⟨1, 0⟩, arcCenter := ⟨0, 0⟩, lineNumber := 1,
      originalLine := [] },
    { type := .G01, endPosition := ⟨2, 0⟩, arcCenter := ⟨0, 0⟩, lineNumber := 2,
      originalLine := [] }]

theorem attempts_twoLines : ¬∀ (params : RenderParams) (throws : Nat → Primitive → Bool)
    (C : List Command), (attemptLoop exact params throws C 0 ⟨0, 0⟩).map (·.primitive) =
      (renderRange exact params C 0 C.length ⟨0, 0⟩).1.map (·.primitive) := by
  intro h
  have hfar : toFixedPoint (0 : Rat) 0 0 0 ≠ toFixedPoint (1 : Rat) 0 0 0 := by
    decide +kernel
  have hsame := h {} (fun i _ => i = 0) twoLines
  simp [attemptLoop, attempt, renderRange, renderLoop, twoLines, isThrown, renderCommand, isArc,
    basePen, renderLine, progressPen, hfar] at hsame

theorem drawn_drawCommands (what : Text) (params : PictureParams) (cmds : List Command) (i : Nat)
    (currentPos : Point2D) (img : Image) :
    (drawCommands what m params cmds currentPos img).drawn = img.drawn ++
      ((attemptLoop m params.toRenderParams (fun _ p => !decide (ValidThickness p.pen.thickness))
        cmds i currentPos).map (·.primitive)).filter
          (fun p => decide (ValidThickness p.pen.thickness)) := by
  induction cmds generalizing i currentPos img with
  | nil => simp [drawCommands, attemptLoop]
  | cons cmd cmds ih =>
    cases hd : renderCommand m params.toRenderParams cmd currentPos with
    | none => simp [drawCommands, attemptLoop, attempt, drawCommand, isThrown, hd, ih (i + 1)]
    | some p =>
      by_cases hv : ValidThickness p.pen.thickness <;>
        simp [drawCommands, attemptLoop, attempt, drawCommand, isThrown, hd, draw, hv, ih (i + 1)]

end Datenbereitstellung.DrawingLoops
