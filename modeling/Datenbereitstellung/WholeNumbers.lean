import Datenbereitstellung.ToolPath

namespace Datenbereitstellung.WholeNumbers

open Strings GCodeParser ToolPath

section Grammar

def signs : List Text := [[], ['-'], ['+']]

def IsMantissa (s : Text) : Prop :=
  ∃ whole fraction, (s = whole ∧ fraction = [] ∨ s = whole ++ '.' :: fraction) ∧
    whole ++ fraction ≠ [] ∧ ∀ c ∈ whole ++ fraction, c.isDigit = true

def IsExponent (s : Text) : Prop :=
  ∃ mark sign ds, s = mark :: (sign ++ ds) ∧ (mark = 'e' ∨ mark = 'E') ∧ sign ∈ signs ∧
    ds ≠ [] ∧ ∀ c ∈ ds, c.isDigit = true

/-- The whole text is one decimal number; `exponents` tells whether it may have an exponent. -/
def IsDecimal (exponents : Bool) (s : Text) : Prop :=
  ∃ sign m e, s = sign ++ (m ++ e) ∧ sign ∈ signs ∧ IsMantissa m ∧
    (e = [] ∨ exponents = true ∧ IsExponent e)

theorem isDecimal_char {exponents : Bool} {s : Text} (h : IsDecimal exponents s) :
    ∀ c ∈ s, c.isDigit = true ∨ c ∈ ['-', '+', '.', 'e', 'E'] := by
  have hsigns : ∀ sign ∈ signs, ∀ c ∈ sign, c ∈ ['-', '+', '.', 'e', 'E'] := by simp [signs]
  obtain ⟨sign, m, e, rfl, hsign, ⟨whole, fraction, hm, -, hdigit⟩, he⟩ := h
  intro c hc
  obtain hc | hc | hc : c ∈ sign ∨ c ∈ m ∨ c ∈ e := by simpa using hc
  · exact .inr (hsigns sign hsign c hc)
  · obtain ⟨rfl, rfl⟩ | rfl := hm
    · exact .inl (hdigit c (by simpa using hc))
    · obtain hc | rfl | hc : c ∈ whole ∨ c = '.' ∨ c ∈ fraction := by simpa using hc
      · exact .inl (hdigit c (by simp [hc]))
      · exact .inr (by decide)
      · exact .inl (hdigit c (by simp [hc]))
  · obtain rfl | ⟨-, mark, sign', ds, rfl, hmark, hsign', -, hds⟩ := he
    · cases hc
    · obtain rfl | hc | hc : c = mark ∨ c ∈ sign' ∨ c ∈ ds := by simpa using hc
      · obtain rfl | rfl := hmark
        · exact .inr (by decide)
        · exact .inr (by decide)
      · exact .inr (hsigns sign' hsign' c hc)
      · exact .inl (hds c hc)

end Grammar

section Words

variable (stod : Text → Option Rat)

/-- The words of a line that begin with a letter, each with its value text; the next token is
taken from the line where it is the value. -/
def valueWords : List Text → List (Letter × Option Text)
  | [] => []
  | w :: ss =>
    match letterOf w with
    | none => valueWords ss
    | some L =>
      if w.length > 1 then (L, some w.tail) :: valueWords ss
      else match ss with
        | u :: ss' => (L, some u) :: valueWords ss'
        | [] => [(L, none)]

/-- Every word has a value text, and `std::stod` takes it. -/
def AllTaken (ts : List Text) : Prop :=
  ∀ p ∈ valueWords ts, ∃ v, p.2.bind (fun u => stod (replaceComma u)) = some v

instance (ts : List Text) : Decidable (AllTaken stod ts) :=
  decidable_of_iff (∀ p ∈ valueWords ts, (p.2.bind fun u => stod (replaceComma u)).isSome = true) <| by
    simp only [AllTaken, Option.isSome_iff_exists]

variable {stod}

theorem convertWith_iff (u : Text) (v : Rat) :
    convertWith stod u = .ok v ↔ stod (replaceComma u) = some v := by
  rw [convertWith]
  cases stod (replaceComma u) <;> simp

theorem readValueAfterLetterWith_iff (w : Text) (next : Option Text) (v : Rat) :
    readValueAfterLetterWith stod w next = .ok v ↔
      (if w.length > 1 then some w.tail else next).bind (fun u => stod (replaceComma u)) = some v := by
  unfold readValueAfterLetterWith
  by_cases hn : w.length > 1
  · rw [if_pos hn, if_pos hn]
    exact convertWith_iff w.tail v
  · rw [if_neg hn, if_neg hn]
    cases next with
    | none => simp
    | some u => exact convertWith_iff u v

theorem parseCoordinatesWith_iff (ts : List Text) (c : Coordinates) :
    (∃ c', parseCoordinatesWith stod ts c = .ok c') ↔ AllTaken stod ts := by
  induction ts, c using parseCoordinatesWith.induct stod with
  | case1 c => exact iff_of_true ⟨c, rfl⟩ fun p hp => by cases hp
  | case2 w ss c hl ih =>
    have hwords : valueWords (w :: ss) = valueWords ss := by simp only [valueWords, hl]
    rw [AllTaken, hwords, ← AllTaken, ← ih]
    simp only [parseCoordinatesWith, hl]
  | case3 w ss c L hl e hv =>
    have hmem : (L, if w.length > 1 then some w.tail else ss.head?) ∈ valueWords (w :: ss) := by
      by_cases hn : w.length > 1
      · simp [valueWords, hl, hn]
      · cases ss <;> simp [valueWords, hl, hn]
    refine iff_of_false ?_ fun h => ?_
    · rintro ⟨c', hc'⟩
      simp [parseCoordinatesWith, hl, hv] at hc'
    · obtain ⟨v, hval⟩ := h _ hmem
      rw [← readValueAfterLetterWith_iff, hv] at hval
      cases hval
  | case4 w ss c L hl v hv hn ih =>
    have hval := (readValueAfterLetterWith_iff w ss.head? v).mp hv
    rw [if_pos hn] at hval
    have hwords : valueWords (w :: ss) = (L, some w.tail) :: valueWords ss := by
      simp only [valueWords, hl, hn, if_true]
    rw [AllTaken, hwords, List.forall_mem_cons, ← AllTaken, ← ih, and_iff_right ⟨v, hval⟩]
    simp only [parseCoordinatesWith, hl, hv, hn, if_true]
  | case5 w c L hl v hn u ss hv ih =>
    have hval := (readValueAfterLetterWith_iff w _ v).mp hv
    rw [if_neg hn] at hval
    have hwords : valueWords (w :: u :: ss) = (L, some u) :: valueWords ss := by
      simp only [valueWords, hl, hn, if_false]
    rw [AllTaken, hwords, List.forall_mem_cons, ← AllTaken, ← ih, and_iff_right ⟨v, hval⟩]
    simp only [parseCoordinatesWith, hl, hv, hn, if_false]
  | case6 c w L hl v hn hv => simp [readValueAfterLetterWith, hn] at hv

end Words

section Lines

variable {stod : Text → Option Rat} {line : Text} {n : Int} {p : Point2D}

theorem parseLineWith_of_command (hs : onlySpace line = false) (h : IsCommandLine line) :
    parseLineWith stod line n p =
      (parseCoordinatesWith stod (tokens line) ⟨p.x, p.y, 0, 0⟩).map fun c =>
        some { type := detectCommandType line, lineNumber := n, originalLine := line
               endPosition := ⟨c.newX, c.newY⟩, arcCenter := ⟨c.I, c.J⟩ } := by
  obtain ⟨hne, hsemi, hparen, ht⟩ := (isCommandLine_iff hs).mp h
  simp only [parseLineWith, List.isEmpty_iff, hne, hsemi, hparen, ht, or_self, if_false]

theorem parseLineWith_taken (hs : onlySpace line = false) (h : IsCommandLine line)
    (htaken : AllTaken stod (tokens line)) :
    ∃ c, parseLineWith stod line n p = .ok (some c) ∧ c.lineNumber = n := by
  obtain ⟨c, hc⟩ := (parseCoordinatesWith_iff (tokens line) ⟨p.x, p.y, 0, 0⟩).mpr htaken
  rw [parseLineWith_of_command hs h, hc]
  exact ⟨_, rfl, rfl⟩

theorem parseLineWith_refused (hs : onlySpace line = false) (h : IsCommandLine line)
    (htaken : ¬AllTaken stod (tokens line)) : ∃ e, parseLineWith stod line n p = .error e := by
  rw [parseLineWith_of_command hs h]
  cases hc : parseCoordinatesWith stod (tokens line) ⟨p.x, p.y, 0, 0⟩ with
  | error e => exact ⟨e, rfl⟩
  | ok c => exact absurd ((parseCoordinatesWith_iff _ _).mp ⟨c, hc⟩) htaken

theorem parseLineWith_skipped (hs : onlySpace line = false) (h : ¬IsCommandLine line) :
    parseLineWith stod line n p = .ok none := by
  rw [isCommandLine_iff hs] at h
  simp only [parseLineWith, List.isEmpty_iff]
  split_ifs with hne hc ht
  · rfl
  · rfl
  · rfl
  · rw [not_or] at hc
    exact absurd ⟨hne, hc.1, hc.2, ht⟩ h

variable (stod) in
/-- The numbers of the lines that are commands, and whose values are taken or not. -/
def numbersOf (taken : Bool) (ls : List (Text × Nat)) : List Int :=
  (ls.filter fun q => IsCommandLine q.1 ∧ decide (AllTaken stod (tokens q.1)) = taken).map
    fun q => (q.2 : Int)

theorem numbersOf_cons (taken : Bool) (q : Text × Nat) (ls : List (Text × Nat)) :
    numbersOf stod taken (q :: ls) =
      if IsCommandLine q.1 ∧ decide (AllTaken stod (tokens q.1)) = taken then
        (q.2 : Int) :: numbersOf stod taken ls
      else numbersOf stod taken ls := by
  rw [numbersOf, List.filter_cons]
  split_ifs with h <;> simp_all [numbersOf]

theorem parseLoopWith_numbers (ls : List Text) (n : Nat) (i : Int) (p : Point2D)
    (r : ParseResult) :
    (parseLoopWith stod ls n i p r).errorLines =
        r.errorLines ++ numbersOf stod false (numberedFrom (n + 1) ls) ∧
      (parseLoopWith stod ls n i p r).commands.map (·.lineNumber) =
        r.commands.map (·.lineNumber) ++ numbersOf stod true (numberedFrom (n + 1) ls) := by
  induction ls generalizing n i p r with
  | nil => exact ⟨(List.append_nil _).symm, (List.append_nil _).symm⟩
  | cons l ls ih =>
    have hcons : numberedFrom (n + 1) (l :: ls) = (stripEnd l, n + 1) :: numberedFrom (n + 2) ls :=
      rfl
    rw [hcons, numbersOf_cons, numbersOf_cons]
    cases hl : onlySpace (stripEnd l) with
    | true =>
      have hno := not_isCommandLine_of_onlySpace hl
      simp only [parseLoopWith, hl, if_true, hno, false_and, if_false]
      exact ih (n + 1) i p r
    | false =>
      simp only [parseLoopWith, hl, Bool.false_eq_true, if_false]
      by_cases hcmd : IsCommandLine (stripEnd l)
      · by_cases htaken : AllTaken stod (tokens (stripEnd l))
        · obtain ⟨c, hp, hn⟩ := parseLineWith_taken (n := (n : Int) + 1) (p := p) hl hcmd htaken
          rw [hp]
          obtain ⟨herr, hnum⟩ := ih (n + 1) (i + 1) c.endPosition
            { r with commands := r.commands ++ [{ c with recordIndex := i }] }
          simp only [hcmd, htaken, decide_true, true_and, if_true, Bool.true_eq_false, if_false]
          refine ⟨herr, hnum.trans ?_⟩
          simp [hn]
        · obtain ⟨e, hp⟩ := parseLineWith_refused (n := (n : Int) + 1) (p := p) hl hcmd htaken
          rw [hp]
          obtain ⟨herr, hnum⟩ := ih (n + 1) (i + 1) p
            { r with
              errorLines := r.errorLines ++ [(n + 1 : Int)]
              errorMessages := r.errorMessages ++
                [lit "Line " ++ toText (n + 1 : Int) ++ lit ": " ++ e] }
          simp only [hcmd, htaken, decide_false, true_and, if_true, Bool.false_eq_true, if_false]
          refine ⟨herr.trans ?_, hnum⟩
          simp
      · rw [parseLineWith_skipped hl hcmd]
        simp only [hcmd, false_and, if_false]
        exact ih (n + 1) (i + 1) p r

variable (stod) in
theorem parseContentWith_numbers (content : Text) :
    (parseContentWith stod content).errorLines = numbersOf stod false (numbered content) ∧
      (parseContentWith stod content).commands.map (·.lineNumber) =
        numbersOf stod true (numbered content) := by
  cases content with
  | nil => exact ⟨rfl, rfl⟩
  | cons ch content => exact parseLoopWith_numbers (getlines (ch :: content)) 0 0 ⟨0, 0⟩ {}

end Lines

section Statement

variable {stod : Text → Option Rat}

def valueTexts (line : Text) : List Text :=
  (valueWords (tokens line)).filterMap fun p => p.2.map replaceComma

/-- The line with the number is listed as an error and contributes no command. -/
def Rejected (r : ParseResult) (n : Nat) : Prop :=
  (n : Int) ∈ r.errorLines ∧ ∀ c ∈ r.commands, c.lineNumber ≠ n

theorem mem_numbered_unique {content : Text} {q q' : Text × Nat} (hq : q ∈ numbered content)
    (hq' : q' ∈ numbered content) (h : q.2 = q'.2) : q = q' := by
  obtain ⟨-, hl⟩ := List.mem_zipIdx_iff_le_and_getElem?_sub.mp hq
  obtain ⟨-, hl'⟩ := List.mem_zipIdx_iff_le_and_getElem?_sub.mp hq'
  rw [h, hl'] at hl
  exact Prod.ext (Option.some.inj hl).symm h

theorem mem_numbersOf_iff {content : Text} {q : Text × Nat} (hq : q ∈ numbered content)
    (taken : Bool) : (q.2 : Int) ∈ numbersOf stod taken (numbered content) ↔
      IsCommandLine q.1 ∧ decide (AllTaken stod (tokens q.1)) = taken := by
  rw [numbersOf, List.mem_map]
  constructor
  · rintro ⟨q', hq', h⟩
    obtain ⟨hm, hu⟩ := List.mem_filter.mp hq'
    obtain rfl := mem_numbered_unique hm hq (Int.ofNat.inj h)
    exact of_decide_eq_true hu
  · intro hu
    exact ⟨q, List.mem_filter.mpr ⟨hq, decide_eq_true hu⟩, rfl⟩

theorem rejected_iff_refused {content : Text} {q : Text × Nat} (hq : q ∈ numbered content)
    (hcmd : IsCommandLine q.1) :
    Rejected (parseContentWith stod content) q.2 ↔ ¬AllTaken stod (tokens q.1) := by
  obtain ⟨herr, hnum⟩ := parseContentWith_numbers stod content
  rw [Rejected, herr, mem_numbersOf_iff hq, and_iff_right hcmd, decide_eq_false_iff_not]
  refine and_iff_left_of_imp fun hno c hc hn => hno ?_
  have hmem := List.mem_map_of_mem (f := (·.lineNumber)) hc
  rw [hnum, hn, mem_numbersOf_iff hq] at hmem
  exact of_decide_eq_true hmem.2

/-- A line with half a number is rejected exactly if `std::stod` refuses the value of some word of it,
or some word has none. -/
theorem rejected_iff (stod : Text → Option Rat) (exponents : Bool) (content : Text)
    (q : Text × Nat) (hq : q ∈ numbered content) (hcmd : IsCommandLine q.1) :
    ((∃ v ∈ valueTexts q.1, ¬IsDecimal exponents v) →
        Rejected (parseContentWith stod content) q.2) ↔
      (∀ v ∈ valueTexts q.1, IsDecimal exponents v) ∨ ¬AllTaken stod (tokens q.1) := by
  rw [rejected_iff_refused hq hcmd]
  constructor
  · intro h
    by_cases hall : ∀ v ∈ valueTexts q.1, IsDecimal exponents v
    · exact .inl hall
    · obtain ⟨v, hv, hnot⟩ : ∃ v ∈ valueTexts q.1, ¬IsDecimal exponents v := by simpa using hall
      exact .inr (h ⟨v, hv, hnot⟩)
  · rintro (hall | hread) ⟨v, hv, hnot⟩
    · exact absurd (hall v hv) hnot
    · exact hread

/-- `G1 X10Y20` -/
def joinedWords : Text := ['G', '1', ' ', 'X', '1', '0', 'Y', '2', '0']

theorem rejected_joinedWords : ¬∃ exponents : Bool, ∀ (content : Text), ∀ q ∈ numbered content,
    IsCommandLine q.1 → (∃ v ∈ valueTexts q.1, ¬IsDecimal exponents v) →
      Rejected (parseContentWith Strings.stod content) q.2 := by
  rintro ⟨exponents, h⟩
  have hq : (joinedWords, 1) ∈ numbered joinedWords := by decide +kernel
  have hv : ['1', '0', 'Y', '2', '0'] ∈ valueTexts joinedWords := by decide +kernel
  have hnot : ¬IsDecimal exponents ['1', '0', 'Y', '2', '0'] := fun hd =>
    absurd (isDecimal_char hd 'Y' (by decide)) (by decide)
  have hr := h joinedWords _ hq (by decide +kernel) ⟨_, hv, hnot⟩
  rw [parseContentWith_stod] at hr
  have he : (parseContent joinedWords).errorLines = [] := by decide +kernel
  have hm := hr.1
  rw [he] at hm
  cases hm

/-- `G1 X10Y20 Y` -/
def missingValue : Text := joinedWords ++ [' ', 'Y']

theorem rejected_missingValue : Rejected (parseContent missingValue) 1 := by
  have hv : ['1', '0', 'Y', '2', '0'] ∈ valueTexts missingValue := by decide +kernel
  have hnot : ¬IsDecimal true ['1', '0', 'Y', '2', '0'] := fun hd =>
    absurd (isDecimal_char hd 'Y' (by decide)) (by decide)
  rw [← parseContentWith_stod]
  exact (rejected_iff Strings.stod true missingValue (missingValue, 1) (by decide +kernel)
    (by decide +kernel)).mpr (.inr (by decide +kernel)) ⟨_, hv, hnot⟩

end Statement

end Datenbereitstellung.WholeNumbers
