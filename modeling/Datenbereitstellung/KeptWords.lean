import Datenbereitstellung.FlattenAgreement

namespace Datenbereitstellung.KeptWords

open Strings GCodeParser ArcFlatten FlattenAgreement

section Unchanged

/-- What makes the parser take a line for an arc: no comment, a G2 or G3 as the first word that is a
command, and values that it can read. -/
structure ReadsArc (l : Text) : Prop where
  notComment : l.head? ≠ some ';' ∧ l.head? ≠ some '('
  arcFirst : detectCommandType l = .G02 ∨ detectCommandType l = .G03
  readable : ∃ as, assignments (tokens l) = .ok as

theorem no_arc_iff (l : Text) (n : Int) (p : Point2D) :
    (∀ cmd, parseLine l n p = .ok (some cmd) → cmd.type = .G00 ∨ cmd.type = .G01) ↔
      ¬ReadsArc l := by
  constructor
  · intro h ⟨⟨hs, hp⟩, ha, as, has⟩
    have hd : detectCommandType l ≠ .None := by
      obtain ha | ha := ha <;> simp [ha]
    have hne : l ≠ [] := by
      rintro rfl
      exact hd rfl
    have hcmd : (commandOf l n p as).type = .G00 ∨ (commandOf l n p as).type = .G01 :=
      h _ (parseLine_eq_some.mpr ⟨⟨hne, hs, hp, hd, as, has⟩, as, has, rfl⟩)
    change detectCommandType l = .G00 ∨ detectCommandType l = .G01 at hcmd
    obtain ha | ha := ha <;> simp [ha] at hcmd
  · intro h cmd hcmd
    obtain ⟨⟨-, hs, hp, hd, -⟩, as, has, rfl⟩ := parseLine_eq_some.mp hcmd
    change detectCommandType l = .G00 ∨ detectCommandType l = .G01
    cases ht : detectCommandType l with
    | None => exact absurd ht hd
    | G00 => exact .inl rfl
    | G01 => exact .inr rfl
    | G02 => exact absurd ⟨⟨hs, hp⟩, .inl ht, as, has⟩ h
    | G03 => exact absurd ⟨⟨hs, hp⟩, .inr ht, as, has⟩ h

theorem countP_rewriteWords (ts : List Text) :
    (rewriteWords ts).countP isArcWord ≤ ts.countP isArcWord - 1 := by
  induction ts using rewriteWords.induct with
  | case1 => simp [rewriteWords]
  | case2 t rest hw ih =>
    have hrest : rest.countP isArcWord = 0 := by
      simp only [isLastArc, Bool.and_eq_true, Bool.not_eq_true', List.any_eq_false] at hw
      exact List.countP_eq_zero.mpr hw.2
    have hG : ¬isArcWord ['G', '0', '1'] = true := by decide
    rw [rewriteWords_last hw, List.countP_cons_of_neg hG]
    omega
  | case3 t ho hl u rest hw ih =>
    rw [rewriteWords_letter hw ho hl, List.tail_cons, List.countP_cons, List.countP_cons]
    omega
  | case4 t ho hl hw =>
    rw [rewriteWords_letter hw ho hl]
    exact Nat.zero_le _
  | case5 t rest hw ho hl ih =>
    rw [rewriteWords_offset hw ho hl, List.countP_cons]
    omega
  | case6 t rest hw ho ih =>
    rw [rewriteWords_keep hw ho]
    by_cases ha : isArcWord t = true
    · have hrest : 0 < rest.countP isArcWord := by
        simpa [isLastArc, ha, List.countP_pos_iff] using hw
      rw [List.countP_cons_of_pos ha, List.countP_cons_of_pos ha]
      omega
    · rw [List.countP_cons_of_neg ha, List.countP_cons_of_neg ha]
      exact ih

theorem flattenArcLine_eq_self_iff (l : Text) (t : Rat) :
    flattenArcLine l t = l ↔ (0 < t → ¬Rewrites l t) := by
  constructor
  · intro h ht hr
    have hcount := countP_rewriteWords (tokens l)
    rw [← (tokens_flattenArcLine ht hr).1, h] at hcount
    have harc : (tokens l).any isArcWord = true := by
      have := hr.1
      rwa [scanLoop_isArc, Bool.false_or] at this
    have hpos : 0 < (tokens l).countP isArcWord := by
      simpa [List.countP_pos_iff] using harc
    omega
  · intro h
    obtain ht | ht := lt_or_ge 0 t
    · exact flattenArcLine_of_not_rewrites (h ht)
    · simp [flattenArcLine, ht]

/-- Only an arc is rewritten, unless the line is a comment, has another command before its arc word
or a value that cannot be read. -/
theorem flattenArcLine_unchanged_iff (l : Text) (t : Rat) (n : Int) (p : Point2D) :
    ((∀ cmd, parseLine l n p = .ok (some cmd) → cmd.type = .G00 ∨ cmd.type = .G01) →
      flattenArcLine l t = l) ↔ (0 < t → Rewrites l t → ReadsArc l) := by
  rw [no_arc_iff, flattenArcLine_eq_self_iff]
  constructor
  · intro h ht hr
    by_contra ha
    exact h ha ht hr
  · intro h ha ht hr
    exact ha (h ht hr)

/-- `G1 G2 X1 I1`, which becomes `G1 G01 X1`. -/
def lineAndArc : Text := ['G', '1', ' ', 'G', '2', ' ', 'X', '1', ' ', 'I', '1']

theorem flattenArcLine_lineAndArc : ¬∀ (l : Text) (t : Rat) (n : Int) (p : Point2D),
    (∀ cmd, parseLine l n p = .ok (some cmd) → cmd.type = .G00 ∨ cmd.type = .G01) →
      flattenArcLine l t = l := by
  intro h
  have hl := (no_arc_iff lineAndArc 1 ⟨0, 0⟩).mpr fun hr => by
    have := hr.arcFirst
    revert this
    decide +kernel
  exact absurd (h lineAndArc 2 1 ⟨0, 0⟩ hl) (by decide +kernel)

end Unchanged

section Words

def isNumber (u : Text) : Bool := (stod (replaceComma u)).isSome

/-- The value of a bare letter is the next token. -/
def hasValue (t : Text) (rest : List Text) : Bool :=
  t.length = 1 && rest.head?.any isNumber

/-- The words of a line without its offsets, each a letter with its value, and with `G01` for the
last arc word. -/
def keptWords : List Text → List Text
  | [] => []
  | t :: rest =>
    if isLastArc t rest then ['G', '0', '1'] :: keptWords rest
    else if isOffset t then
      if hasValue t rest then match rest with
        | _ :: rest' => keptWords rest'
        | [] => []
      else keptWords rest
    else t :: keptWords rest

/-- Every token that is skipped behind a bare `I` or `J` is its value, or an offset that would be
left out by itself. -/
def skipsValues : List Text → Bool
  | [] => true
  | t :: rest =>
    if isOffset t && t.length = 1 then match rest with
      | u :: rest' => (isNumber u || isOffset u && !hasValue u rest') && skipsValues rest'
      | [] => true
    else skipsValues rest

section Equations

variable {t u v : Text} {rest : List Text}

theorem keptWords_cons (t : Text) (rest : List Text) : keptWords (t :: rest) =
    if isLastArc t rest then ['G', '0', '1'] :: keptWords rest
    else if isOffset t then if hasValue t rest then keptWords rest.tail else keptWords rest
    else t :: keptWords rest := by
  cases rest <;> simp [keptWords]

theorem skipsValues_cons (t : Text) (rest : List Text) : skipsValues (t :: rest) =
    if isOffset t && t.length = 1 then
      rest.head?.all (fun u => isNumber u || isOffset u && !hasValue u rest.tail) &&
        skipsValues rest.tail
    else skipsValues rest := by
  cases rest <;> simp [skipsValues]

theorem not_isNumber_of_letter {c : Char} (hc : c ∈ addressLetters) (s : Text) :
    isNumber (c :: s) = false := by
  rw [isNumber, stod_of_letter hc s]
  rfl

theorem isNumber_plain (h : isNumber u = true) : isOffset u = false ∧ isArcWord u = false := by
  obtain ⟨v, hv⟩ := Option.isSome_iff_exists.mp h
  obtain ⟨hl, hg⟩ := letterOf_of_stod hv
  exact ⟨by simpa using isOffset_of_none hl, isArcWord_of_gNumber hg⟩

theorem keptWords_last (h : isLastArc t rest = true) :
    keptWords (t :: rest) = ['G', '0', '1'] :: keptWords rest := by
  rw [keptWords_cons, if_pos h]

theorem keptWords_value (h : ¬isLastArc t (u :: rest) = true) (ho : isOffset t = true)
    (hl : t.length = 1) (hu : isNumber u = true) : keptWords (t :: u :: rest) = keptWords rest := by
  rw [keptWords_cons, if_neg h, if_pos ho, if_pos (by simp [hasValue, hl, hu]), List.tail_cons]

theorem keptWords_offset (h : ¬isLastArc t rest = true) (ho : isOffset t = true)
    (hv : ¬hasValue t rest = true) : keptWords (t :: rest) = keptWords rest := by
  rw [keptWords_cons, if_neg h, if_pos ho, if_neg hv]

theorem keptWords_keep (h : ¬isLastArc t rest = true) (ho : ¬isOffset t = true) :
    keptWords (t :: rest) = t :: keptWords rest := by
  rw [keptWords_cons, if_neg h, if_neg ho]

theorem keptWords_number (hv : isNumber v = true) (rest : List Text) :
    keptWords (v :: rest) = v :: keptWords rest := by
  obtain ⟨ho, ha⟩ := isNumber_plain hv
  exact keptWords_keep (not_isLastArc ha rest) (by simp [ho])

theorem keptWords_word (ho : ¬isOffset u = true) (hu : ¬isNumber u = true) (rest : List Text) :
    ∃ w, isNumber w = false ∧ keptWords (u :: rest) = w :: keptWords rest := by
  by_cases h : isLastArc u rest = true
  · exact ⟨_, not_isNumber_of_letter (by decide) _, keptWords_last h⟩
  · exact ⟨u, by simpa using hu, keptWords_keep h ho⟩

theorem keptWords_hasValue (ho : isOffset u = true) (hv : hasValue u rest = true) :
    ∃ v, isNumber v = true ∧ keptWords rest = v :: keptWords (u :: rest) := by
  simp only [hasValue, Bool.and_eq_true, decide_eq_true_eq] at hv
  cases rest with
  | nil => simp at hv
  | cons v rest =>
    have hn : isNumber v = true := by simpa using hv.2
    have hw := not_isLastArc (not_isArcWord_of_isOffset ho) (v :: rest)
    refine ⟨v, hn, ?_⟩
    rw [keptWords_value hw ho hv.1 hn, keptWords_number hn]

theorem keptWords_letter (hw : ¬isLastArc t (u :: rest) = true) (ho : isOffset t = true)
    (hl : t.length = 1) :
    (isNumber u || isOffset u && !hasValue u rest) = true ∧
        keptWords (t :: u :: rest) = keptWords rest ∨
      (isNumber u || isOffset u && !hasValue u rest) = false ∧
        ((∃ v, isNumber v = true ∧ keptWords rest = v :: keptWords (t :: u :: rest)) ∨
          ∃ w, isNumber w = false ∧ keptWords (t :: u :: rest) = w :: keptWords rest) := by
  by_cases hu : isNumber u = true
  · exact .inl ⟨by simp [hu], keptWords_value hw ho hl hu⟩
  rw [keptWords_offset hw ho (by simp [hasValue, hu])]
  by_cases hou : isOffset u = true
  · by_cases hv : hasValue u rest = true
    · exact .inr ⟨by simp [hu, hv], .inl (keptWords_hasValue hou hv)⟩
    · have hwu := not_isLastArc (not_isArcWord_of_isOffset hou) rest
      exact .inl ⟨by simp [hou, hv], keptWords_offset hwu hou hv⟩
  · exact .inr ⟨by simp [hu, hou], .inr (keptWords_word hou hu rest)⟩

end Equations

theorem countP_keptWords (ts : List Text) :
    (keptWords ts).countP isNumber ≤ (rewriteWords ts).countP isNumber ∧
      (rewriteWords ts).countP (fun u => !isNumber u) ≤
        (keptWords ts).countP (fun u => !isNumber u) := by
  induction ts using rewriteWords.induct with
  | case1 => simp [keptWords, rewriteWords]
  | case2 t rest hw ih =>
    rw [keptWords_last hw, rewriteWords_last hw]
    simp only [List.countP_cons]
    omega
  | case3 t ho hl u rest hw ih =>
    rw [rewriteWords_letter hw ho hl, List.tail_cons]
    obtain ⟨-, hk⟩ | ⟨-, ⟨v, hn, hk⟩ | ⟨w, hn, hk⟩⟩ := keptWords_letter hw ho hl
    · rw [hk]
      exact ih
    · simp only [hk, List.countP_cons, hn, Bool.not_true, Bool.false_eq_true, if_true,
        if_false] at ih
      omega
    · simp only [hk, List.countP_cons, hn, Bool.not_false, Bool.false_eq_true, if_true, if_false]
      omega
  | case4 t ho hl hw =>
    rw [rewriteWords_letter hw ho hl, keptWords_offset hw ho (by simp [hasValue])]
    simp [keptWords, rewriteWords]
  | case5 t rest hw ho hl ih =>
    rw [rewriteWords_offset hw ho hl, keptWords_offset hw ho (by simp [hasValue, hl])]
    exact ih
  | case6 t rest hw ho ih =>
    rw [rewriteWords_keep hw ho, keptWords_keep hw ho]
    simp only [List.countP_cons]
    omega

theorem rewriteWords_eq_keptWords_iff (ts : List Text) :
    rewriteWords ts = keptWords ts ↔ skipsValues ts = true := by
  induction ts using rewriteWords.induct with
  | case1 => simp [keptWords, rewriteWords, skipsValues]
  | case2 t rest hw ih =>
    have hno : isOffset t = false := by
      by_contra ho
      simp only [Bool.not_eq_false] at ho
      exact not_isLastArc (not_isArcWord_of_isOffset ho) rest hw
    rw [keptWords_last hw, rewriteWords_last hw, skipsValues_cons, hno]
    simpa using ih
  | case3 t ho hl u rest hw ih =>
    have hcount := countP_keptWords rest
    rw [rewriteWords_letter hw ho hl, skipsValues_cons, List.tail_cons]
    simp only [ho, hl, decide_true, Bool.and_self, if_true, List.head?_cons, Option.all_some,
      Bool.and_eq_true, ← ih]
    obtain ⟨hskip, hk⟩ | ⟨hskip, hk⟩ := keptWords_letter hw ho hl
    · simp [hskip, hk]
    · apply iff_of_false
      · intro he
        obtain ⟨v, hn, hk⟩ | ⟨w, hn, hk⟩ := hk
        · simp only [he, hk, List.countP_cons, hn, if_true] at hcount
          omega
        · simp only [he, hk, List.countP_cons, hn, Bool.not_false, if_true] at hcount
          omega
      · simp [hskip]
  | case4 t ho hl hw =>
    rw [rewriteWords_letter hw ho hl, keptWords_offset hw ho (by simp [hasValue])]
    simp [keptWords, rewriteWords, skipsValues]
  | case5 t rest hw ho hl ih =>
    rw [rewriteWords_offset hw ho hl, keptWords_offset hw ho (by simp [hasValue, hl]),
      skipsValues_cons, ih]
    simp [hl]
  | case6 t rest hw ho ih =>
    rw [rewriteWords_keep hw ho, keptWords_keep hw ho, skipsValues_cons]
    simpa [ho] using ih

/-- Every other word is kept if no bare `I` or `J` takes a word for its value. -/
theorem tokens_flattenArcLine_iff (l : Text) (t : Rat) :
    (flattenArcLine l t ≠ l → tokens (flattenArcLine l t) = keptWords (tokens l)) ↔
      (0 < t → Rewrites l t → skipsValues (tokens l) = true) := by
  constructor
  · intro h ht hr
    have hne : flattenArcLine l t ≠ l := fun he => (flattenArcLine_eq_self_iff l t).mp he ht hr
    rw [← rewriteWords_eq_keptWords_iff, ← (tokens_flattenArcLine ht hr).1]
    exact h hne
  · intro h hne
    obtain ⟨ht, hr⟩ : 0 < t ∧ Rewrites l t := by
      simpa [flattenArcLine_eq_self_iff] using hne
    rw [(tokens_flattenArcLine ht hr).1, rewriteWords_eq_keptWords_iff]
    exact h ht hr

/-- `G2 I X5 I1`, which becomes `G01`. -/
def bareOffset : Text := ['G', '2', ' ', 'I', ' ', 'X', '5', ' ', 'I', '1']

theorem tokens_flattenArcLine_bareOffset : ¬∀ (l : Text) (t : Rat), flattenArcLine l t ≠ l →
    tokens (flattenArcLine l t) = keptWords (tokens l) := by
  intro h
  exact absurd (h bareOffset 2 (by decide +kernel)) (by decide +kernel)

end Words

end Datenbereitstellung.KeptWords
