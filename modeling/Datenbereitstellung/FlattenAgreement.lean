import Datenbereitstellung.ArcFlatten

namespace Datenbereitstellung.FlattenAgreement

open Strings GCodeParser ArcFlatten Lib.Words

section Letters

def addressLetters : List Char := ['X', 'x', 'Y', 'y', 'I', 'i', 'J', 'j', 'G', 'g']

variable {c : Char}

theorem addressLetter_plain : ∀ c ∈ addressLetters, isspace c = false ∧ digitValue 10 c = none ∧
    c ≠ '.' ∧ c ≠ ',' ∧ c ≠ '-' ∧ c ≠ '+' ∧ c ≠ '0' := by
  intro c hc
  simp only [addressLetters, List.mem_cons, List.not_mem_nil, or_false] at hc
  obtain rfl | rfl | rfl | rfl | rfl | rfl | rfl | rfl | rfl | rfl := hc <;> decide

theorem stod_of_letter (hc : c ∈ addressLetters) (s : Text) :
    stod (replaceComma (c :: s)) = none := by
  obtain ⟨hsp, hd, hdot, hcomma, hminus, hplus, hzero⟩ := addressLetter_plain c hc
  have hr : replaceComma (c :: s) = c :: replaceComma s := by simp [replaceComma, hcomma]
  have hm : mantissa 10 (c :: replaceComma s) = none := by simp [mantissa, digits, hd, hdot]
  rw [hr]
  simp [stod, hsp, hminus, hplus, hzero, number, hm]

theorem letterOf_cons_eq_none {s : Text} (hc : c ∉ addressLetters) : letterOf (c :: s) = none := by
  simp only [addressLetters, List.mem_cons, not_or] at hc
  simp [letterOf, hc]

theorem gNumber_cons_eq_nil {s : Text} (hc : c ∉ addressLetters) : gNumber (c :: s) = [] := by
  simp only [addressLetters, List.mem_cons, not_or] at hc
  cases s <;> simp [gNumber, hc]

theorem gNumber_of_letterOf {w : Text} {L : Letter} (h : letterOf w = some L) : gNumber w = [] := by
  match w with
  | [] => rfl
  | [c] => rfl
  | c :: d :: r =>
    have hG : c ≠ 'G' := by rintro rfl; simp [letterOf] at h
    have hg : c ≠ 'g' := by rintro rfl; simp [letterOf] at h
    simp [gNumber, hG, hg]

theorem letterOf_of_stod {u : Text} {v : Rat} (h : stod (replaceComma u) = some v) :
    letterOf u = none ∧ gNumber u = [] := by
  cases u with
  | nil => exact ⟨rfl, rfl⟩
  | cons c s =>
    by_cases hc : c ∈ addressLetters
    · rw [stod_of_letter hc s] at h
      cases h
    · exact ⟨letterOf_cons_eq_none hc, gNumber_cons_eq_nil hc⟩

end Letters

section Readable

/-- The lines that `parseCoordinates` reads without an exception, with their values. -/
inductive Readable : List Text → List (Letter × Rat) → Prop
  | nil : Readable [] []
  | plain {w : Text} {ss : List Text} {as : List (Letter × Rat)} (hl : letterOf w = none)
      (h : Readable ss as) : Readable (w :: ss) as
  | joined {w : Text} {ss : List Text} {as : List (Letter × Rat)} {L : Letter} {v : Rat}
      (hl : letterOf w = some L) (hn : ¬w.length = 1) (hv : stod (replaceComma w.tail) = some v)
      (h : Readable ss as) : Readable (w :: ss) ((L, v) :: as)
  | detached {w u : Text} {ss : List Text} {as : List (Letter × Rat)} {L : Letter} {v : Rat}
      (hl : letterOf w = some L) (hn : w.length = 1) (hv : stod (replaceComma u) = some v)
      (h : Readable ss as) : Readable (w :: u :: ss) ((L, v) :: as)

theorem one_lt_length_iff {w : Text} {L : Letter} (hl : letterOf w = some L) :
    w.length > 1 ↔ ¬w.length = 1 := by
  cases w with
  | nil => simp [letterOf] at hl
  | cons c s => simp [List.length_pos_iff]

theorem readValue_joined {w : Text} (hn : w.length > 1) (next : Option Text) (v : Rat) :
    readValueAfterLetter w next = .ok v ↔ stod (replaceComma w.tail) = some v := by
  simp only [readValueAfterLetter, hn, if_true]
  cases stod (replaceComma w.tail) <;> simp

theorem readValue_detached {w u : Text} (hn : ¬w.length > 1) (v : Rat) :
    readValueAfterLetter w (some u) = .ok v ↔ stod (replaceComma u) = some v := by
  simp only [readValueAfterLetter, hn, if_false]
  cases stod (replaceComma u) <;> simp

theorem map_eq_ok {ε α β : Type} {f : α → β} {r : Except ε α} {b : β} (h : r.map f = .ok b) :
    ∃ a, r = .ok a ∧ f a = b := by
  cases r with
  | error e => cases h
  | ok a => exact ⟨a, rfl, Except.ok.inj h⟩

theorem readable_of_assignments {ts : List Text} {as : List (Letter × Rat)}
    (h : assignments ts = .ok as) : Readable ts as := by
  induction ts using assignments.induct generalizing as with
  | case1 =>
    cases h
    exact .nil
  | case2 w ss hl ih =>
    simp only [assignments, hl] at h
    exact .plain hl (ih h)
  | case3 w ss L hl e hv => simp [assignments, hl, hv] at h
  | case4 w ss L hl v hv hn ih =>
    simp only [assignments, hl, hv, hn, if_true] at h
    obtain ⟨as', ha, rfl⟩ := map_eq_ok h
    exact .joined hl ((one_lt_length_iff hl).mp hn) ((readValue_joined hn _ v).mp hv) (ih ha)
  | case5 w L hl v hn u ss hv ih =>
    simp only [assignments, hl, hv, hn, if_false] at h
    obtain ⟨as', ha, rfl⟩ := map_eq_ok h
    have hw : w.length = 1 := by
      by_contra hw
      exact hn ((one_lt_length_iff hl).mpr hw)
    exact .detached hl hw ((readValue_detached hn v).mp hv) (ih ha)
  | case6 w L hl v hn hv => simp [readValueAfterLetter, hn] at hv

theorem assignments_of_readable {ts : List Text} {as : List (Letter × Rat)}
    (h : Readable ts as) : assignments ts = .ok as := by
  induction h with
  | nil => rfl
  | plain hl _ ih => simp only [assignments, hl, ih]
  | joined hl hn hv _ ih =>
    have hn' := (one_lt_length_iff hl).mpr hn
    simp only [assignments, hl, (readValue_joined hn' _ _).mpr hv, hn', if_true, ih]
    rfl
  | detached hl hn hv _ ih =>
    have hn' : ¬_ > 1 := fun h => (one_lt_length_iff hl).mp h hn
    simp only [assignments, hl, List.head?_cons, (readValue_detached hn' _).mpr hv, hn', if_false,
      ih]
    rfl

end Readable

section Words

theorem isArcWord_of_gNumber {w : Text} (h : gNumber w = []) : isArcWord w = false := by
  simp [isArcWord, h]

theorem typeOfToken_of_gNumber {w : Text} (h : gNumber w = []) : typeOfToken w = none := by
  simp [typeOfToken, h]

theorem isArcWord_iff (w : Text) :
    isArcWord w = true ↔ typeOfToken w = some .G02 ∨ typeOfToken w = some .G03 := by
  simp only [isArcWord, typeOfToken]
  split_ifs <;> simp_all

theorem not_isLastArc {w : Text} (h : isArcWord w = false) (ss : List Text) :
    ¬isLastArc w ss = true := by
  simp [isLastArc, h]

theorem isOffset_of_none {w : Text} (hl : letterOf w = none) : ¬isOffset w = true := by
  simp [isOffset, hl]

theorem rewriteWords_joined {w : Text} {L : Letter} (hl : letterOf w = some L)
    (hn : ¬w.length = 1) (ss : List Text) :
    rewriteWords (w :: ss) = if isOffset w then rewriteWords ss else w :: rewriteWords ss := by
  have hw := not_isLastArc (isArcWord_of_gNumber (gNumber_of_letterOf hl)) ss
  split_ifs with ho
  · exact rewriteWords_offset hw ho hn
  · exact rewriteWords_keep hw ho

theorem rewriteWords_detached {w u : Text} {L : Letter} (hl : letterOf w = some L)
    (hn : w.length = 1) (hu : letterOf u = none ∧ gNumber u = []) (ss : List Text) :
    rewriteWords (w :: u :: ss) =
      if isOffset w then rewriteWords ss else w :: u :: rewriteWords ss := by
  have hw := not_isLastArc (isArcWord_of_gNumber (gNumber_of_letterOf hl)) (u :: ss)
  split_ifs with ho
  · exact rewriteWords_letter hw ho hn
  · rw [rewriteWords_keep hw ho,
      rewriteWords_keep (not_isLastArc (isArcWord_of_gNumber hu.2) ss) (isOffset_of_none hu.1)]

def isPosition (a : Letter × Rat) : Bool := a.1 = .X || a.1 = .Y

theorem isPosition_eq {w : Text} {L : Letter} (hl : letterOf w = some L) (v : Rat) :
    isPosition (L, v) = !isOffset w := by
  cases L <;> simp [isPosition, isOffset, hl]

theorem Readable.rewrite {ts : List Text} {as : List (Letter × Rat)} (h : Readable ts as) :
    Readable (rewriteWords ts) (as.filter isPosition) := by
  induction h with
  | nil => exact .nil
  | @plain w ss as hl _ ih =>
    by_cases hw : isLastArc w ss = true
    · rw [rewriteWords_last hw]
      exact .plain (by decide) ih
    · rw [rewriteWords_keep hw (isOffset_of_none hl)]
      exact .plain hl ih
  | @joined w ss as L v hl hn hv _ ih =>
    rw [rewriteWords_joined hl hn, List.filter_cons, isPosition_eq hl]
    cases isOffset w with
    | true => exact ih
    | false => exact .joined hl hn hv ih
  | @detached w u ss as L v hl hn hv _ ih =>
    rw [rewriteWords_detached hl hn (letterOf_of_stod hv), List.filter_cons, isPosition_eq hl]
    cases isOffset w with
    | true => exact ih
    | false => exact .detached hl hn hv ih

theorem not_isArcWord_of_isOffset {w : Text} (ho : isOffset w = true) : isArcWord w = false := by
  simp only [isOffset, Bool.or_eq_true, decide_eq_true_eq] at ho
  obtain hl | hl := ho <;> exact isArcWord_of_gNumber (gNumber_of_letterOf hl)

theorem rebuildLoop_eq (ts : List Text) (k d : Int) (hd : d < k) (out : Text) :
    rebuildLoop ts k (arcIndex ts k d) out = (rewriteWords ts).foldl (appendWord ' ') out := by
  induction ts using rewriteWords.induct generalizing k d out with
  | case1 => rfl
  | case2 t rest hw ih =>
    have hi := (eq_arcIndex_iff t rest hd).mpr hw
    rw [rewriteWords_last hw, List.foldl_cons, rebuildLoop_at hi, arcIndex]
    exact ih (k + 1) _ (by split_ifs <;> omega) _
  | case3 t ho hl u rest hw ih =>
    have ha := not_isArcWord_of_isOffset ho
    have hk := mt (eq_arcIndex_iff t (u :: rest) hd).mp hw
    rw [rewriteWords_letter hw ho hl, rebuildLoop_letter hk ho hl, arcIndex_cons_of_not_arc ha,
      arcIndex, add_assoc]
    exact ih (k + 2) _ (by split_ifs <;> omega) out
  | case4 t ho hl hw =>
    have hk := mt (eq_arcIndex_iff t [] hd).mp hw
    rw [rewriteWords_letter hw ho hl, rebuildLoop_letterLast hk ho hl]
    rfl
  | case5 t rest hw ho hl ih =>
    have ha := not_isArcWord_of_isOffset ho
    have hk := mt (eq_arcIndex_iff t rest hd).mp hw
    rw [rewriteWords_offset hw ho hl, rebuildLoop_offset hk ho hl, arcIndex_cons_of_not_arc ha]
    exact ih (k + 1) d (by omega) out
  | case6 t rest hw ho ih =>
    have hk := mt (eq_arcIndex_iff t rest hd).mp hw
    rw [rewriteWords_keep hw ho, List.foldl_cons, rebuildLoop_keep hk ho, arcIndex]
    exact ih (k + 1) _ (by split_ifs <;> omega) _

theorem parseValue_of_stod {u : Text} {v : Rat} (h : stod (replaceComma u) = some v) :
    parseValue u = v := by
  simp [parseValue, h]

theorem attachedValue_joined {w : Text} {L : Letter} (hl : letterOf w = some L)
    (hn : ¬w.length = 1) (ss : List Text) : attachedValue w ss = w.tail := by
  have := (one_lt_length_iff hl).mpr hn
  match w with
  | [] => simp at this
  | [c] => simp at this
  | c :: d :: s => rfl

theorem attachedValue_detached {w : Text} (hn : w.length = 1) (u : Text) (ss : List Text) :
    attachedValue w (u :: ss) = u := by
  obtain ⟨c, rfl⟩ := List.length_eq_one_iff.mp hn
  rfl

theorem scanLoop_letter {w : Text} {L : Letter} (hl : letterOf w = some L) (ss : List Text)
    (k : Int) (s : ArcScan) {v : Rat} (hv : parseValue (attachedValue w ss) = v) (x y : Rat) :
    ∃ s', scanLoop (w :: ss) k s = scanLoop ss (k + 1) s' ∧
      ∃ x' y', Coordinates.mk x' y' s'.I s'.J = (Coordinates.mk x y s.I s.J).set L v := by
  have hg := gNumber_of_letterOf hl
  cases L with
  | X => exact ⟨s, by simp [scanLoop, hg, hl], v, y, rfl⟩
  | Y => exact ⟨s, by simp [scanLoop, hg, hl], x, v, rfl⟩
  | I => exact ⟨{ s with I := v }, by simp [scanLoop, hg, hl, hv], x, y, rfl⟩
  | J => exact ⟨{ s with J := v }, by simp [scanLoop, hg, hl, hv], x, y, rfl⟩

theorem scanLoop_plain {w : Text} (hl : letterOf w = none) (ss : List Text) (k : Int)
    (s : ArcScan) :
    ∃ s', scanLoop (w :: ss) k s = scanLoop ss (k + 1) s' ∧ s'.I = s.I ∧ s'.J = s.J := by
  simp only [scanLoop, hl, reduceCtorEq, if_false]
  split_ifs
  · exact ⟨_, rfl, rfl, rfl⟩
  all_goals exact ⟨s, rfl, rfl, rfl⟩

theorem Readable.scanLoop_eq {ts : List Text} {as : List (Letter × Rat)} (h : Readable ts as)
    (k : Int) (s : ArcScan) (x y : Rat) :
    (scanLoop ts k s).I = ((Coordinates.mk x y s.I s.J).assign as).I ∧
      (scanLoop ts k s).J = ((Coordinates.mk x y s.I s.J).assign as).J := by
  induction h generalizing k s x y with
  | nil => exact ⟨rfl, rfl⟩
  | plain hl _ ih =>
    obtain ⟨s', hs, hI, hJ⟩ := scanLoop_plain hl _ k s
    rw [hs, ← hI, ← hJ]
    exact ih (k + 1) s' x y
  | joined hl hn hv _ ih =>
    have hp := attachedValue_joined hl hn
    obtain ⟨s', hs, x', y', he⟩ :=
      scanLoop_letter hl _ k s ((congrArg parseValue (hp _)).trans (parseValue_of_stod hv)) x y
    rw [hs, Coordinates.assign, List.foldl_cons, ← he]
    exact ih (k + 1) s' x' y'
  | detached hl hn hv _ ih =>
    have hp := attachedValue_detached hn
    obtain ⟨s', hs, x', y', he⟩ :=
      scanLoop_letter hl _ k s ((congrArg parseValue (hp _ _)).trans (parseValue_of_stod hv)) x y
    obtain ⟨s'', hs', hI, hJ⟩ := scanLoop_plain (letterOf_of_stod hv).1 _ (k + 1) s'
    rw [hs, hs', Coordinates.assign, List.foldl_cons, ← he, ← hI, ← hJ]
    exact ih (k + 1 + 1) s'' x' y'

theorem Readable.findSome?_rewrite {ts : List Text} {as : List (Letter × Rat)} (h : Readable ts as) :
    (rewriteWords ts).findSome? typeOfToken =
      if ts.countP isArcWord = 1 ∧ (ts.findSome? typeOfToken = some .G02 ∨
        ts.findSome? typeOfToken = some .G03) then some .G01 else ts.findSome? typeOfToken := by
  induction h with
  | nil => rfl
  | @plain w ss as hl _ ih =>
    by_cases hw : isLastArc w ss = true
    · obtain ⟨ha, hss⟩ : isArcWord w = true ∧ ss.any isArcWord = false := by
        simpa [isLastArc] using hw
      have hc : ss.countP isArcWord = 0 := by simpa [List.countP_eq_zero] using hss
      have hG : typeOfToken ['G', '0', '1'] = some .G01 := by decide
      rw [rewriteWords_last hw, List.findSome?_cons, hG]
      obtain ht | ht := (isArcWord_iff w).mp ha <;> simp [ha, hc, ht]
    · rw [rewriteWords_keep hw (isOffset_of_none hl)]
      cases ha : isArcWord w with
      | true =>
        have hc : ss.countP isArcWord ≠ 0 := by
          rw [Ne, List.countP_eq_zero]
          simpa [isLastArc, ha] using hw
        obtain ht | ht := (isArcWord_iff w).mp ha <;> simp [ha, hc, ht]
      | false =>
        have hna := mt (isArcWord_iff w).mpr (by simp [ha])
        cases ht : typeOfToken w with
        | none => simp [ha, ht, ih]
        | some T =>
          rw [ht] at hna
          simp only [List.findSome?_cons, ht, hna, and_false, if_false]
  | @joined w ss as L v hl hn hv _ ih =>
    have hg := gNumber_of_letterOf hl
    have ha := isArcWord_of_gNumber hg
    have ht := typeOfToken_of_gNumber hg
    simp only [List.countP_cons, ha, List.findSome?_cons, ht]
    by_cases ho : isOffset w = true
    · rw [rewriteWords_joined hl hn, if_pos ho]
      exact ih
    · rw [rewriteWords_joined hl hn, if_neg ho, List.findSome?_cons, ht]
      exact ih
  | @detached w u ss as L v hl hn hv _ ih =>
    have hg := gNumber_of_letterOf hl
    have hu := letterOf_of_stod hv
    have ha := isArcWord_of_gNumber hg
    have hau := isArcWord_of_gNumber hu.2
    have ht := typeOfToken_of_gNumber hg
    have htu := typeOfToken_of_gNumber hu.2
    simp only [List.countP_cons, ha, hau, List.findSome?_cons, ht, htu]
    by_cases ho : isOffset w = true
    · rw [rewriteWords_detached hl hn hu, if_pos ho]
      exact ih
    · rw [rewriteWords_detached hl hn hu, if_neg ho, List.findSome?_cons, ht, List.findSome?_cons,
        htu]
      exact ih

def firstKept : List Text → Option Text
  | [] => none
  | t :: rest =>
    if isOffset t then
      if t.length = 1 then match rest with
        | _ :: rest' => firstKept rest'
        | [] => none
      else firstKept rest
    else some t

theorem firstKept_keep {t : Text} (ho : ¬isOffset t = true) (rest : List Text) :
    firstKept (t :: rest) = some t := by
  cases rest <;> simp [firstKept, ho]

theorem firstKept_offset {t : Text} (ho : isOffset t = true) (hl : ¬t.length = 1)
    (rest : List Text) : firstKept (t :: rest) = firstKept rest := by
  cases rest <;> simp [firstKept, ho, hl]

theorem head_of_isArcWord {t : Text} (h : isArcWord t = true) :
    t.head? = some 'G' ∨ t.head? = some 'g' := by
  match t with
  | [] => cases h
  | [c] => cases h
  | c :: d :: r =>
    by_contra hc
    simp only [List.head?_cons, Option.some.injEq] at hc
    simp [isArcWord, gNumber, hc] at h

theorem Readable.head?_rewrite {ts : List Text} {as : List (Letter × Rat)} (h : Readable ts as)
    {c : Char} (hc : c ≠ 'G' ∧ c ≠ 'g') :
    (rewriteWords ts).head?.bind List.head? = some c ↔ (firstKept ts).bind List.head? = some c := by
  induction h with
  | nil => rfl
  | @plain w ss as hl _ ih =>
    rw [firstKept_keep (isOffset_of_none hl)]
    by_cases hw : isLastArc w ss = true
    · have ha : isArcWord w = true := by
        simp only [isLastArc, Bool.and_eq_true] at hw
        exact hw.1
      rw [rewriteWords_last hw]
      obtain hh | hh := head_of_isArcWord ha <;> simp [hh, hc.1.symm, hc.2.symm]
    · rw [rewriteWords_keep hw (isOffset_of_none hl)]
      rfl
  | @joined w ss as L v hl hn hv _ ih =>
    by_cases ho : isOffset w = true
    · rw [rewriteWords_joined hl hn, if_pos ho, firstKept_offset ho hn]
      exact ih
    · rw [rewriteWords_joined hl hn, if_neg ho, firstKept_keep ho]
      rfl
  | @detached w u ss as L v hl hn hv _ ih =>
    have hu := letterOf_of_stod hv
    by_cases ho : isOffset w = true
    · have hk : firstKept (w :: u :: ss) = firstKept ss := by simp [firstKept, ho, hn]
      rw [rewriteWords_detached hl hn hu, if_pos ho, hk]
      exact ih
    · rw [rewriteWords_detached hl hn hu, if_neg ho, firstKept_keep ho]
      rfl

end Words

section Agreement

/-- What `flattenArcLine` collects makes it rewrite the line. -/
def Rewrites (line : Text) (threshold : Rat) : Prop :=
  let s := scanLoop (tokens line) 0 {}
  s.isArc = true ∧ shouldFlatten (radiusSq s.I s.J) threshold = true

theorem flattenArcLine_of_not_rewrites {l : Text} {t : Rat} (h : ¬Rewrites l t) :
    flattenArcLine l t = l := by
  simp only [Rewrites, not_and, Bool.not_eq_true] at h
  simp only [flattenArcLine]
  split_ifs with h₁ h₂ h₃ h₄ <;> simp_all

theorem flattenArcLine_of_rewrites {l : Text} {t : Rat} (ht : 0 < t) (h : Rewrites l t) :
    flattenArcLine l t = rebuildLoop (tokens l) 0 (arcIndex (tokens l) 0 (-1)) [] := by
  obtain ⟨harc, hsh⟩ := h
  have hne : (tokens l).isEmpty = false := by
    cases htok : tokens l with
    | nil => simp [htok, scanLoop] at harc
    | cons w ws => rfl
  simp only [flattenArcLine, not_le.mpr ht, hne, harc, hsh, scanLoop_gIdx, if_false,
    Bool.not_true, Bool.false_eq_true]

theorem foldl_appendWord_nil_head? (ws : List Text) (h : ∀ w ∈ ws, w ≠ []) :
    (ws.foldl (appendWord ' ') []).head? = ws.head?.bind List.head? := by
  cases ws with
  | nil => rfl
  | cons w ws =>
    rw [List.foldl_cons]
    exact foldl_appendWord_head ' ' ws (h w (by simp))

theorem tokens_flattenArcLine {l : Text} {t : Rat} (ht : 0 < t) (h : Rewrites l t) :
    tokens (flattenArcLine l t) = rewriteWords (tokens l) ∧
      (flattenArcLine l t).head? = (rewriteWords (tokens l)).head?.bind List.head? := by
  have hw : ∀ w ∈ rewriteWords (tokens l), IsWord isspace w :=
    isWord_rewriteWords fun w hw => isWord_tokens hw
  rw [flattenArcLine_of_rewrites ht h, rebuildLoop_eq _ 0 (-1) (by decide)]
  refine ⟨?_, foldl_appendWord_nil_head? _ fun w hm => (hw w hm).1⟩
  rw [tokens, words_foldl_appendWord rfl _ hw, words_nil, List.nil_append]

theorem head?_flattenArcLine_comment {c : Char} (hc : c = ';' ∨ c = '(') (s : Text) (t : Rat) :
    (flattenArcLine (c :: s) t).head? = some c := by
  by_cases hr : 0 < t ∧ Rewrites (c :: s) t
  · obtain ⟨w, ws, hw⟩ := words_head (p := isspace) (c := c) (by obtain rfl | rfl := hc <;> rfl) s
    have ha : isArcWord (c :: w) = false := by
      obtain rfl | rfl := hc <;> cases w <;> simp [isArcWord, gNumber]
    have ho : ¬isOffset (c :: w) = true := by
      obtain rfl | rfl := hc <;> simp [isOffset, letterOf]
    have hk := mt (eq_arcIndex_iff (c :: w) ws (by decide : (-1 : Int) < 0)).mp
      (not_isLastArc ha ws)
    rw [flattenArcLine_of_rewrites hr.1 hr.2, tokens, hw, rebuildLoop_keep hk ho]
    exact rebuildLoop_head? ws _ _ (by simp [appendWord])
  · obtain ht | ht := lt_or_ge 0 t
    · rw [flattenArcLine_of_not_rewrites fun h => hr ⟨ht, h⟩]
      rfl
    · simp [flattenArcLine, ht]

/-- The command of the rewritten line against the command that the preview rewrites. -/
structure SameMove (t : Rat) (c c' : Command) : Prop where
  type : (flattenCommandsMM [c] t).map (·.type) = [c'.type]
  endPosition : c'.endPosition = c.endPosition
  arcCenter : c'.type = .G02 ∨ c'.type = .G03 → c'.arcCenter = c.arcCenter

def SameResult (t : Rat) : Option Command → Option Command → Prop
  | none, none => True
  | some c, some c' => SameMove t c c'
  | _, _ => False

/-- A line whose rewriting the parser reads as intended: what is left does not begin like a
comment, and an arc that decides the type is the only arc word. -/
structure Flattenable (l : Text) : Prop where
  notComment : (firstKept (tokens l)).bind List.head? ≠ some ';' ∧
    (firstKept (tokens l)).bind List.head? ≠ some '('
  singleArc : detectCommandType l = .G02 ∨ detectCommandType l = .G03 →
    (tokens l).countP isArcWord = 1

theorem flattenCommandsMM_type (c : Command) {t : Rat} (ht : 0 < t) :
    (flattenCommandsMM [c] t).map (·.type) =
      [if (c.type = .G02 ∨ c.type = .G03) ∧
        shouldFlatten (radiusSq c.arcCenter.x c.arcCenter.y) t = true then .G01 else c.type] := by
  simp only [flattenCommandsMM, not_le.mpr ht, if_false, List.map_cons, List.map_nil]
  split_ifs <;> simp_all

theorem detectCommandType_flattenArcLine {l : Text} {t : Rat} (ht : 0 < t) (h : Rewrites l t)
    {as : List (Letter × Rat)} (hr : Readable (tokens l) as) :
    detectCommandType (flattenArcLine l t) =
      if (tokens l).countP isArcWord = 1 ∧ (detectCommandType l = .G02 ∨ detectCommandType l = .G03)
      then .G01 else detectCommandType l := by
  rw [detectCommandType, (tokens_flattenArcLine ht h).1, hr.findSome?_rewrite]
  have hg : ∀ (o : Option CommandType) (T : CommandType), T ≠ .None →
      (o.getD .None = T ↔ o = some T) := by
    intro o T hT
    cases o with
    | none => simp [hT.symm]
    | some T' => simp
  simp only [detectCommandType, hg _ .G02 (by decide), hg _ .G03 (by decide)]
  split_ifs <;> rfl

theorem assign_filter_isPosition (as : List (Letter × Rat)) (x y i j i' j' : Rat) :
    ((Coordinates.mk x y i j).assign (as.filter isPosition)).newX =
        ((Coordinates.mk x y i' j').assign as).newX ∧
      ((Coordinates.mk x y i j).assign (as.filter isPosition)).newY =
        ((Coordinates.mk x y i' j').assign as).newY := by
  induction as generalizing x y i j i' j' with
  | nil => exact ⟨rfl, rfl⟩
  | cons a as ih =>
    obtain ⟨L, v⟩ := a
    cases L with
    | X => exact ih v y i j i' j'
    | Y => exact ih x v i j i' j'
    | I => exact ih x y i j v j'
    | J => exact ih x y i j i' v

theorem isArc_of_detect {l : Text} (h : detectCommandType l = .G02 ∨ detectCommandType l = .G03) :
    (scanLoop (tokens l) 0 {}).isArc = true := by
  rw [scanLoop_isArc, Bool.false_or]
  unfold detectCommandType at h
  cases ht : (tokens l).findSome? typeOfToken with
  | none => simp [ht] at h
  | some T =>
    obtain ⟨w, hw, hT⟩ := List.exists_of_findSome?_eq_some ht
    refine List.any_eq_true.mpr ⟨w, hw, (isArcWord_iff w).mpr ?_⟩
    simpa [ht, hT] using h

theorem rewrites_iff_of_arc {l : Text} {n : Int} {p : Point2D} {t : Rat}
    {as : List (Letter × Rat)} (hr : Readable (tokens l) as)
    (h : detectCommandType l = .G02 ∨ detectCommandType l = .G03) :
    Rewrites l t ↔ shouldFlatten (radiusSq (commandOf l n p as).arcCenter.x
      (commandOf l n p as).arcCenter.y) t = true := by
  obtain ⟨hI, hJ⟩ := hr.scanLoop_eq 0 {} p.x p.y
  simp only [Rewrites, isArc_of_detect h, hI, hJ, true_and]
  rfl

theorem sameMove_self {l : Text} {n : Int} {p : Point2D} {t : Rat} (ht : 0 < t)
    {as : List (Letter × Rat)} (hr : Readable (tokens l) as) (h : ¬Rewrites l t) :
    SameMove t (commandOf l n p as) (commandOf l n p as) where
  type := by
    rw [flattenCommandsMM_type _ ht, if_neg]
    rintro ⟨ha, hs⟩
    exact h ((rewrites_iff_of_arc hr ha).mpr hs)
  endPosition := rfl
  arcCenter _ := rfl

theorem sameMove_iff {l : Text} {n : Int} {p : Point2D} {t : Rat} (ht : 0 < t) (h : Rewrites l t)
    {as : List (Letter × Rat)} (hr : Readable (tokens l) as) :
    SameMove t (commandOf l n p as) (commandOf (flattenArcLine l t) n p (as.filter isPosition)) ↔
      (detectCommandType l = .G02 ∨ detectCommandType l = .G03 →
        (tokens l).countP isArcWord = 1) := by
  have htype : (commandOf (flattenArcLine l t) n p (as.filter isPosition)).type =
      detectCommandType (flattenArcLine l t) := rfl
  have hd := detectCommandType_flattenArcLine ht h hr
  constructor
  · intro hs ha
    have hm := hs.type
    rw [flattenCommandsMM_type _ ht, if_pos ⟨ha, (rewrites_iff_of_arc hr ha).mp h⟩, htype, hd] at hm
    by_contra hc
    simp only [hc, false_and, if_false, List.cons.injEq, and_true] at hm
    simp [← hm] at ha
  · intro hc
    refine ⟨?_, ?_, ?_⟩
    · rw [flattenCommandsMM_type _ ht, htype, hd]
      by_cases ha : detectCommandType l = .G02 ∨ detectCommandType l = .G03
      · rw [if_pos ⟨ha, (rewrites_iff_of_arc hr ha).mp h⟩, if_pos ⟨hc ha, ha⟩]
      · rw [if_neg fun hh => ha hh.1, if_neg fun hh => ha hh.2]
        rfl
    · obtain ⟨hx, hy⟩ := assign_filter_isPosition as p.x p.y 0 0 0 0
      exact Point2D.mk.injEq .. ▸ ⟨hx, hy⟩
    · intro ha
      rw [htype, hd] at ha
      split_ifs at ha with hif
      · simp at ha
      · exact (hif ⟨hc ha, ha⟩).elim

theorem parseLine_comment {line : Text} (h : line.head? = some ';' ∨ line.head? = some '(')
    (n : Int) (p : Point2D) : parseLine line n p = .ok none := by
  cases line with
  | nil => simp at h
  | cons c s => rw [parseLine, if_neg (by simp), if_pos h]

theorem detect_ne_none_of_isArc {l : Text} (h : (scanLoop (tokens l) 0 {}).isArc = true) :
    detectCommandType l ≠ .None := by
  rw [scanLoop_isArc, Bool.false_or] at h
  obtain ⟨w, hw, ha⟩ := List.any_eq_true.mp h
  rw [detectCommandType]
  cases ht : (tokens l).findSome? typeOfToken with
  | none =>
    have := List.findSome?_eq_none_iff.mp ht w hw
    simp [isArcWord_iff, this] at ha
  | some T =>
    obtain ⟨v, -, hT⟩ := List.exists_of_findSome?_eq_some ht
    rintro rfl
    simp only [typeOfToken] at hT
    split_ifs at hT <;> cases hT

theorem comment_of_rewrites {l : Text} {t : Rat} (h : Rewrites l t) {n : Int} {p : Point2D}
    {o : Option Command} (ho : parseLine l n p = .ok o) (hy : ¬YieldsCommand l) :
    l.head? = some ';' ∨ l.head? = some '(' := by
  by_contra hc
  have ht := detect_ne_none_of_isArc h.1
  have hne : l ≠ [] := by
    rintro rfl
    exact ht rfl
  rw [not_or] at hc
  rw [parseLine_of_not_comment hne hc.1 hc.2 ht] at ho
  obtain ⟨as, ha, -⟩ := map_eq_ok ho
  exact hy ⟨hne, hc.1, hc.2, ht, as, ha⟩

theorem agree_of_not_rewrites {l : Text} {n : Int} {p : Point2D} {t : Rat} (ht : 0 < t)
    {o : Option Command} (ho : parseLine l n p = .ok o) (hR : ¬Rewrites l t) :
    ∃ o', parseLine (flattenArcLine l t) n p = .ok o' ∧ SameResult t o o' := by
  rw [flattenArcLine_of_not_rewrites hR]
  refine ⟨o, ho, ?_⟩
  cases o with
  | none => trivial
  | some c =>
    obtain ⟨-, as, ha, rfl⟩ := parseLine_eq_some.mp ho
    exact sameMove_self ht (readable_of_assignments ha) hR

theorem agree_of_comment {l : Text} {n : Int} {p : Point2D} {t : Rat} {o : Option Command}
    (ho : parseLine l n p = .ok o) (hR : Rewrites l t) (hy : ¬YieldsCommand l) :
    ∃ o', parseLine (flattenArcLine l t) n p = .ok o' ∧ SameResult t o o' := by
  have hc := comment_of_rewrites hR ho hy
  obtain ⟨c, s, rfl⟩ : ∃ c s, l = c :: s := by
    cases l with
    | nil => simp at hc
    | cons c s => exact ⟨c, s, rfl⟩
  rw [parseLine_comment hc] at ho
  cases ho
  simp only [List.head?_cons, Option.some.injEq] at hc
  have hh := head?_flattenArcLine_comment hc s t
  exact ⟨none, parseLine_comment (by rw [hh]; simpa using hc) n p, trivial⟩

/-- A rewritten command agrees exactly if it is flattenable. -/
theorem agree_iff_of_yieldsCommand {l : Text} {n : Int} {p : Point2D} {t : Rat} (ht : 0 < t)
    {o : Option Command} (ho : parseLine l n p = .ok o) (hR : Rewrites l t)
    (hy : YieldsCommand l) :
    (∃ o', parseLine (flattenArcLine l t) n p = .ok o' ∧ SameResult t o o') ↔ Flattenable l := by
  obtain ⟨hne, hs, hp, hd, as, ha⟩ := hy
  have hr := readable_of_assignments ha
  rw [parseLine_of_not_comment hne hs hp hd, ha] at ho
  obtain rfl := Except.ok.inj ho
  obtain ⟨htok, hhead⟩ := tokens_flattenArcLine ht hR
  have hsemi := hr.head?_rewrite (c := ';') (by decide)
  have hparen := hr.head?_rewrite (c := '(') (by decide)
  rw [← hhead] at hsemi hparen
  have hsm := sameMove_iff (n := n) (p := p) ht hR hr
  by_cases hcm : (flattenArcLine l t).head? = some ';' ∨ (flattenArcLine l t).head? = some '('
  · rw [parseLine_comment hcm]
    refine iff_of_false ?_ ?_
    · rintro ⟨o', ho', hres⟩
      cases ho'
      exact hres
    · intro hf
      exact hcm.elim (fun h => hf.notComment.1 (hsemi.mp h))
        fun h => hf.notComment.2 (hparen.mp h)
  · rw [not_or] at hcm
    have hd' : detectCommandType (flattenArcLine l t) ≠ .None := by
      rw [detectCommandType_flattenArcLine ht hR hr]
      split_ifs
      · decide
      · exact hd
    have hne' : flattenArcLine l t ≠ [] := by
      intro h
      rw [h] at hd'
      exact hd' rfl
    rw [parseLine_of_not_comment hne' hcm.1 hcm.2 hd', htok, assignments_of_readable hr.rewrite]
    constructor
    · rintro ⟨o', ho', hres⟩
      cases ho'
      exact ⟨⟨mt hsemi.mpr hcm.1, mt hparen.mpr hcm.2⟩, hsm.mp hres⟩
    · intro hf
      exact ⟨_, rfl, hsm.mpr hf.singleArc⟩

/-- The line that is sent and the command that is drawn agree, unless the rewritten line begins
like a comment or keeps an arc word before its last one. -/
theorem parseLine_flattenArcLine_iff (l : Text) (n : Int) (p : Point2D) (t : Rat) (ht : 0 < t)
    (o : Option Command) (ho : parseLine l n p = .ok o) :
    (∃ o', parseLine (flattenArcLine l t) n p = .ok o' ∧ SameResult t o o') ↔
      (Rewrites l t → YieldsCommand l → Flattenable l) := by
  by_cases hR : Rewrites l t
  · by_cases hy : YieldsCommand l
    · rw [agree_iff_of_yieldsCommand ht ho hR hy]
      exact ⟨fun hf _ _ => hf, fun h => h hR hy⟩
    · exact iff_of_true (agree_of_comment ho hR hy) fun _ h => (hy h).elim
  · exact iff_of_true (agree_of_not_rewrites ht ho hR) fun h => (hR h).elim

/-- `G2 G3 X1 I1`, which becomes `G2 G01 X1`. -/
def twoArcWords : Text := ['G', '2', ' ', 'G', '3', ' ', 'X', '1', ' ', 'I', '1']

theorem parseLine_flattenArcLine_twoArcWords : ¬∀ (l : Text) (n : Int) (p : Point2D) (t : Rat),
    0 < t → ∀ o, parseLine l n p = .ok o →
      ∃ o', parseLine (flattenArcLine l t) n p = .ok o' ∧ SameResult t o o' := by
  intro h
  have ho : parseLine twoArcWords 1 ⟨0, 0⟩ =
      .ok (some { type := .G02, endPosition := ⟨1, 0⟩, arcCenter := ⟨1, 0⟩, lineNumber := 1
                  originalLine := twoArcWords }) := by decide +kernel
  have hf : parseLine (flattenArcLine twoArcWords 2) 1 ⟨0, 0⟩ =
      .ok (some { type := .G02, endPosition := ⟨1, 0⟩, arcCenter := ⟨0, 0⟩, lineNumber := 1
                  originalLine := ['G', '2', ' ', 'G', '0', '1', ' ', 'X', '1'] }) := by
    decide +kernel
  obtain ⟨o', ho', hres⟩ := h twoArcWords 1 ⟨0, 0⟩ 2 (by decide) _ ho
  rw [hf] at ho'
  cases ho'
  exact absurd hres.type (by decide +kernel)

/-- `G2 X1 I1` -/
def oneArcWord : Text := ['G', '2', ' ', 'X', '1', ' ', 'I', '1']

theorem parseLine_flattenArcLine_oneArcWord :
    ∃ o', parseLine (flattenArcLine oneArcWord 2) 1 ⟨0, 0⟩ = .ok o' ∧
      SameResult 2 (some { type := .G02, endPosition := ⟨1, 0⟩, arcCenter := ⟨1, 0⟩, lineNumber := 1
                           originalLine := oneArcWord }) o' :=
  (parseLine_flattenArcLine_iff oneArcWord 1 ⟨0, 0⟩ 2 (by decide) _ (by decide +kernel)).mpr
    fun _ _ => ⟨by decide +kernel, by decide +kernel⟩

end Agreement

end Datenbereitstellung.FlattenAgreement
