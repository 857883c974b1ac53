import Mathlib.Analysis.SpecialFunctions.Sqrt
import Datenbereitstellung.GCodeParser

namespace Datenbereitstellung.ArcFlatten

open Strings GCodeParser Lib.Words

/-- The square of `radiusFromIJ`: the radius itself need not be rational. -/
def radiusSq (I J : Rat) : Rat := I * I + J * J

/-- `shouldFlatten`, of the square of the radius. -/
def shouldFlatten (radiusSq threshold : Rat) : Bool :=
  decide (threshold > 0) && decide (radiusSq > 0) && decide (radiusSq < threshold * threshold)

theorem shouldFlatten_iff (I J t : Rat) : shouldFlatten (radiusSq I J) t = true ↔
    (0 : ℝ) < t ∧ 0 < √((I : ℝ) ^ 2 + (J : ℝ) ^ 2) ∧ √((I : ℝ) ^ 2 + (J : ℝ) ^ 2) < t := by
  have hsq : ((radiusSq I J : Rat) : ℝ) = (I : ℝ) ^ 2 + (J : ℝ) ^ 2 := by
    push_cast [radiusSq]
    ring
  simp only [shouldFlatten, Bool.and_eq_true, decide_eq_true_eq, and_assoc, gt_iff_lt]
  rw [← hsq, Real.sqrt_pos, Rat.cast_pos, Rat.cast_pos]
  refine and_congr_right fun ht => and_congr_right fun _ => ?_
  have ht' : (0 : ℝ) < t := by exact_mod_cast ht
  rw [Real.sqrt_lt' ht', ← Rat.cast_lt (K := ℝ)]
  push_cast
  rw [pow_two]

/-- An unreadable number is 0 here, where the parser throws. -/
def parseValue (s : Text) : Rat := (stod (replaceComma s)).getD 0

structure ArcScan where
  gIdx : Int := -1
  isArc : Bool := false
  I : Rat := 0
  J : Rat := 0

def attachedValue (t : Text) (rest : List Text) : Text :=
  if t.tail.isEmpty then rest.headD [] else t.tail

/-- The first loop, from the token `k` on. -/
def scanLoop : List Text → (k : Int) → ArcScan → ArcScan
  | [], _, s => s
  | t :: rest, k, s =>
    let gnum := gNumber t
    if gnum ≠ [] then
      if gnum = ['2'] ∨ gnum = ['3'] then scanLoop rest (k + 1) { s with gIdx := k, isArc := true }
      else scanLoop rest (k + 1) s
    else if letterOf t = some .I then
      scanLoop rest (k + 1) { s with I := parseValue (attachedValue t rest) }
    else if letterOf t = some .J then
      scanLoop rest (k + 1) { s with J := parseValue (attachedValue t rest) }
    else scanLoop rest (k + 1) s

def isOffset (t : Text) : Bool := letterOf t = some .I || letterOf t = some .J

/-- The second loop, from the token `k` on. -/
def rebuildLoop : List Text → (k gIdx : Int) → (out : Text) → Text
  | [], _, _, out => out
  | t :: rest, k, gIdx, out =>
    if k = gIdx then rebuildLoop rest (k + 1) gIdx (appendWord ' ' out ['G', '0', '1'])
    else if isOffset t then
      if t.length = 1 then match rest with
        -- the value is the next token, and skipped with its letter
        | _ :: rest' => rebuildLoop rest' (k + 2) gIdx out
        | [] => out
      else rebuildLoop rest (k + 1) gIdx out
    else rebuildLoop rest (k + 1) gIdx (appendWord ' ' out t)

def flattenArcLine (line : Text) (threshold : Rat) : Text :=
  if threshold ≤ 0 then line
  else if (tokens line).isEmpty then line
  else
    let s := scanLoop (tokens line) 0 {}
    if !s.isArc then line
    else if !shouldFlatten (radiusSq s.I s.J) threshold then line
    else rebuildLoop (tokens line) 0 s.gIdx []

section AnyConversion

def scanLoopWith (parseValue : Text → Rat) : List Text → (k : Int) → ArcScan → ArcScan
  | [], _, s => s
  | t :: rest, k, s =>
    let gnum := gNumber t
    if gnum ≠ [] then
      if gnum = ['2'] ∨ gnum = ['3'] then
        scanLoopWith parseValue rest (k + 1) { s with gIdx := k, isArc := true }
      else scanLoopWith parseValue rest (k + 1) s
    else if letterOf t = some .I then
      scanLoopWith parseValue rest (k + 1) { s with I := parseValue (attachedValue t rest) }
    else if letterOf t = some .J then
      scanLoopWith parseValue rest (k + 1) { s with J := parseValue (attachedValue t rest) }
    else scanLoopWith parseValue rest (k + 1) s

/-- `flattenArcLine` with any function for `std::stod`. -/
def flattenArcLineWith (stod : Text → Option Rat) (line : Text) (threshold : Rat) : Text :=
  if threshold ≤ 0 then line
  else if (tokens line).isEmpty then line
  else
    let s := scanLoopWith (fun v => (stod (replaceComma v)).getD 0) (tokens line) 0 {}
    if !s.isArc then line
    else if !shouldFlatten (radiusSq s.I s.J) threshold then line
    else rebuildLoop (tokens line) 0 s.gIdx []

theorem scanLoopWith_parseValue (ts : List Text) (k : Int) (s : ArcScan) :
    scanLoopWith parseValue ts k s = scanLoop ts k s := by
  induction ts generalizing k s with
  | nil => rfl
  | cons t ts ih => simp only [scanLoopWith, scanLoop, ih]

theorem flattenArcLineWith_stod (line : Text) (threshold : Rat) :
    flattenArcLineWith stod line threshold = flattenArcLine line threshold := by
  have hs : scanLoopWith (fun v => (stod (replaceComma v)).getD 0) (tokens line) 0 {} =
      scanLoop (tokens line) 0 {} := scanLoopWith_parseValue (tokens line) 0 {}
  simp only [flattenArcLineWith, flattenArcLine, hs]

end AnyConversion

/-- The rewriting of the parsed commands, for the preview. -/
def flattenCommandsMM (cmds : List Command) (thresholdMM : Rat) : List Command :=
  if thresholdMM ≤ 0 then cmds
  else cmds.map fun c =>
    if c.type = .G02 ∨ c.type = .G03 then
      if shouldFlatten (radiusSq c.arcCenter.x c.arcCenter.y) thresholdMM then { c with type := .G01 }
      else c
    else c

section Rewriting

def isArcWord (t : Text) : Bool := gNumber t = ['2'] || gNumber t = ['3']

def isLastArc (t : Text) (rest : List Text) : Bool := isArcWord t && !rest.any isArcWord

/-- The line as words: the last arc word becomes `G01`, the offsets are left out. -/
def rewriteWords : List Text → List Text
  | [] => []
  | t :: rest =>
    if isLastArc t rest then ['G', '0', '1'] :: rewriteWords rest
    else if isOffset t then
      if t.length = 1 then match rest with
        | _ :: rest' => rewriteWords rest'
        | [] => []
      else rewriteWords rest
    else t :: rewriteWords rest

section Equations

variable {t : Text} {rest : List Text}

theorem rewriteWords_cons (t : Text) (rest : List Text) : rewriteWords (t :: rest) =
    if isLastArc t rest then ['G', '0', '1'] :: rewriteWords rest
    else if isOffset t then
      if t.length = 1 then rewriteWords rest.tail else rewriteWords rest
    else t :: rewriteWords rest := by
  cases rest <;> simp [rewriteWords]

theorem rewriteWords_last (h : isLastArc t rest = true) :
    rewriteWords (t :: rest) = ['G', '0', '1'] :: rewriteWords rest := by
  rw [rewriteWords_cons, if_pos h]

theorem rewriteWords_letter (h : ¬isLastArc t rest = true) (ho : isOffset t = true)
    (hl : t.length = 1) : rewriteWords (t :: rest) = rewriteWords rest.tail := by
  rw [rewriteWords_cons, if_neg h, if_pos ho, if_pos hl]

theorem rewriteWords_offset (h : ¬isLastArc t rest = true) (ho : isOffset t = true)
    (hl : ¬t.length = 1) : rewriteWords (t :: rest) = rewriteWords rest := by
  rw [rewriteWords_cons, if_neg h, if_pos ho, if_neg hl]

theorem rewriteWords_keep (h : ¬isLastArc t rest = true) (ho : ¬isOffset t = true) :
    rewriteWords (t :: rest) = t :: rewriteWords rest := by
  rw [rewriteWords_cons, if_neg h, if_neg ho]

theorem rebuildLoop_cons (t : Text) (rest : List Text) (k gIdx : Int) (out : Text) :
    rebuildLoop (t :: rest) k gIdx out =
      if k = gIdx then rebuildLoop rest (k + 1) gIdx (appendWord ' ' out ['G', '0', '1'])
      else if isOffset t then
        if t.length = 1 then if rest = [] then out else rebuildLoop rest.tail (k + 2) gIdx out
        else rebuildLoop rest (k + 1) gIdx out
      else rebuildLoop rest (k + 1) gIdx (appendWord ' ' out t) := by
  cases rest <;> simp [rebuildLoop]

theorem rebuildLoop_at {k gIdx : Int} (h : k = gIdx) (out : Text) :
    rebuildLoop (t :: rest) k gIdx out =
      rebuildLoop rest (k + 1) gIdx (appendWord ' ' out ['G', '0', '1']) := by
  rw [rebuildLoop_cons, if_pos h]

theorem rebuildLoop_letter {k gIdx : Int} (h : k ≠ gIdx) (ho : isOffset t = true)
    (hl : t.length = 1) (u out : Text) :
    rebuildLoop (t :: u :: rest) k gIdx out = rebuildLoop rest (k + 2) gIdx out := by
  rw [rebuildLoop_cons, if_neg h, if_pos ho, if_pos hl, if_neg (List.cons_ne_nil u rest),
    List.tail_cons]

theorem rebuildLoop_letterLast {k gIdx : Int} (h : k ≠ gIdx) (ho : isOffset t = true)
    (hl : t.length = 1) (out : Text) : rebuildLoop [t] k gIdx out = out := by
  rw [rebuildLoop_cons, if_neg h, if_pos ho, if_pos hl, if_pos rfl]

theorem rebuildLoop_offset {k gIdx : Int} (h : k ≠ gIdx) (ho : isOffset t = true)
    (hl : ¬t.length = 1) (out : Text) :
    rebuildLoop (t :: rest) k gIdx out = rebuildLoop rest (k + 1) gIdx out := by
  rw [rebuildLoop_cons, if_neg h, if_pos ho, if_neg hl]

theorem rebuildLoop_keep {k gIdx : Int} (h : k ≠ gIdx) (ho : ¬isOffset t = true) (out : Text) :
    rebuildLoop (t :: rest) k gIdx out = rebuildLoop rest (k + 1) gIdx (appendWord ' ' out t) := by
  rw [rebuildLoop_cons, if_neg h, if_neg ho]

end Equations

/-- The index of the last arc word, `d` if there is none. -/
def arcIndex : List Text → Int → Int → Int
  | [], _, d => d
  | t :: rest, k, d => arcIndex rest (k + 1) (if isArcWord t then k else d)

theorem scanLoopWith_gIdx (f : Text → Rat) (ts : List Text) (k : Int) (s : ArcScan) :
    (scanLoopWith f ts k s).gIdx = arcIndex ts k s.gIdx := by
  induction ts generalizing k s with
  | nil => rfl
  | cons t ts ih =>
    simp only [scanLoopWith, arcIndex, isArcWord]
    split_ifs <;> simp_all

theorem scanLoopWith_isArc (f : Text → Rat) (ts : List Text) (k : Int) (s : ArcScan) :
    (scanLoopWith f ts k s).isArc = (s.isArc || ts.any isArcWord) := by
  induction ts generalizing k s with
  | nil => simp [scanLoopWith]
  | cons t ts ih =>
    simp only [scanLoopWith, List.any_cons, isArcWord]
    split_ifs <;> simp_all

theorem scanLoop_gIdx (ts : List Text) (k : Int) (s : ArcScan) :
    (scanLoop ts k s).gIdx = arcIndex ts k s.gIdx := by
  rw [← scanLoopWith_parseValue, scanLoopWith_gIdx]

theorem scanLoop_isArc (ts : List Text) (k : Int) (s : ArcScan) :
    (scanLoop ts k s).isArc = (s.isArc || ts.any isArcWord) := by
  rw [← scanLoopWith_parseValue, scanLoopWith_isArc]

theorem arcIndex_of_no_arc {ts : List Text} (h : ts.any isArcWord = false) (k d : Int) :
    arcIndex ts k d = d := by
  induction ts generalizing k d with
  | nil => rfl
  | cons t ts ih =>
    simp only [List.any_cons, Bool.or_eq_false_iff] at h
    simp [arcIndex, h.1, ih h.2]

theorem le_arcIndex {ts : List Text} (h : ts.any isArcWord = true) (k d : Int) :
    k ≤ arcIndex ts k d := by
  induction ts generalizing k d with
  | nil => simp at h
  | cons t ts ih =>
    simp only [arcIndex]
    cases hts : ts.any isArcWord with
    | true =>
      have := ih hts (k + 1) (if isArcWord t then k else d)
      omega
    | false =>
      have ht : isArcWord t = true := by simpa [hts] using h
      simp [arcIndex_of_no_arc hts, ht]

theorem arcIndex_cons_of_not_arc {t : Text} (h : isArcWord t = false) (ts : List Text)
    (k d : Int) : arcIndex (t :: ts) k d = arcIndex ts (k + 1) d := by
  simp [arcIndex, h]

theorem eq_arcIndex_iff (t : Text) (ts : List Text) {k d : Int} (hd : d < k) :
    k = arcIndex (t :: ts) k d ↔ isLastArc t ts = true := by
  simp only [arcIndex, isLastArc]
  cases hts : ts.any isArcWord with
  | true =>
    have := le_arcIndex hts (k + 1) (if isArcWord t then k else d)
    simp only [Bool.not_true, Bool.and_false, Bool.false_eq_true, iff_false]
    omega
  | false =>
    rw [arcIndex_of_no_arc hts]
    cases isArcWord t with
    | true => simp
    | false => simp [hd.ne']

theorem isWord_tokens {line t : Text} (h : t ∈ tokens line) : IsWord isspace t := words_isWord h

theorem isWord_rewriteWords {ts : List Text} (h : ∀ t ∈ ts, IsWord isspace t) :
    ∀ t ∈ rewriteWords ts, IsWord isspace t := by
  have hG : IsWord isspace ['G', '0', '1'] := by
    refine ⟨List.cons_ne_nil _ _, fun c hc => ?_⟩
    simp only [List.mem_cons, List.not_mem_nil, or_false] at hc
    obtain rfl | rfl | rfl := hc <;> rfl
  induction ts using rewriteWords.induct with
  | case1 => simp [rewriteWords]
  | case2 t rest hw ih =>
    rw [rewriteWords_last hw]
    rintro u (_ | ⟨_, hu⟩)
    · exact hG
    · exact ih (fun v hv => h v (by simp [hv])) u hu
  | case3 t ho hl v rest' hw ih =>
    rw [rewriteWords_letter hw ho hl]
    exact ih fun u hu => h u (by simp [hu])
  | case4 t ho hl hw =>
    rw [rewriteWords_letter hw ho hl]
    simp [rewriteWords]
  | case5 t rest hw ho hl ih =>
    rw [rewriteWords_offset hw ho hl]
    exact ih fun u hu => h u (by simp [hu])
  | case6 t rest hw ho ih =>
    rw [rewriteWords_keep hw ho]
    rintro u (_ | ⟨_, hu⟩)
    · exact h t (by simp)
    · exact ih (fun v hv => h v (by simp [hv])) u hu

theorem rebuildLoop_head? (ts : List Text) (k gIdx : Int) {out : Text} (ho : out ≠ []) :
    (rebuildLoop ts k gIdx out).head? = out.head? := by
  have happ : ∀ {o : Text} (w : Text), o ≠ [] →
      appendWord ' ' o w ≠ [] ∧ (appendWord ' ' o w).head? = o.head? := by
    intro o w hne
    obtain ⟨c, o', rfl⟩ := List.exists_cons_of_ne_nil hne
    simp [appendWord]
  induction ts, k, gIdx, out using rebuildLoop.induct with
  | case1 k gIdx out => rfl
  | case2 t rest gIdx out ih =>
    rw [rebuildLoop_at rfl, ih (happ _ ho).1]
    exact (happ _ ho).2
  | case3 t k gIdx out hk hf hl u rest ih =>
    rw [rebuildLoop_letter hk hf hl]
    exact ih ho
  | case4 t k gIdx out hk hf hl => rw [rebuildLoop_letterLast hk hf hl]
  | case5 t rest k gIdx out hk hf hl ih =>
    rw [rebuildLoop_offset hk hf hl]
    exact ih ho
  | case6 t rest k gIdx out hk hf ih =>
    rw [rebuildLoop_keep hk hf, ih (happ t ho).1]
    exact (happ t ho).2

end Rewriting

end Datenbereitstellung.ArcFlatten
