import Datenbereitstellung.FlattenAgreement

namespace Datenbereitstellung.ToolPath

open Strings Files GCodeParser FlattenAgreement

section GWords

/-- What may follow the zeros of a G word, with the type that it stands for. -/
def endings : List (Text × CommandType) :=
  [([], .G00), (['0'], .G00), (['1'], .G01), (['2'], .G02), (['3'], .G03)]

/-- `G`, zeros, and one of the endings, with at least one character after the `G`. -/
def GWord (t : Text) (T : CommandType) : Prop :=
  ∃ c z e, (c = 'G' ∨ c = 'g') ∧ (e, T) ∈ endings ∧ t = c :: (List.replicate z '0' ++ e) ∧
    2 ≤ t.length

theorem gNumber_eq {c : Char} (hc : c = 'G' ∨ c = 'g') {s : Text} (hs : s ≠ []) :
    gNumber (c :: s) =
      if s.dropWhile (fun e => e == '0') = [] then ['0'] else s.dropWhile (fun e => e == '0') := by
  cases s with
  | nil => exact absurd rfl hs
  | cons d r => simp only [gNumber, hc, if_true, List.isEmpty_iff]

theorem typeOfToken_of_gWord {t : Text} {T : CommandType} (h : GWord t T) :
    typeOfToken t = some T := by
  obtain ⟨c, z, e, hc, he, rfl, hlen⟩ := h
  have hs : List.replicate z '0' ++ e ≠ [] := by
    intro hs
    simp [hs] at hlen
  have hdrop : (List.replicate z '0' ++ e).dropWhile (fun e => e == '0') =
      e.dropWhile (fun e => e == '0') := by
    rw [List.dropWhile_append_of_pos (by simp)]
  rw [typeOfToken, gNumber_eq hc hs, hdrop]
  simp only [endings, List.mem_cons, Prod.mk.injEq, List.not_mem_nil, or_false] at he
  obtain ⟨rfl, rfl⟩ | ⟨rfl, rfl⟩ | ⟨rfl, rfl⟩ | ⟨rfl, rfl⟩ | ⟨rfl, rfl⟩ := he <;> rfl

theorem exists_replicate_dropWhile (s : Text) :
    ∃ z, s = List.replicate z '0' ++ s.dropWhile (fun e => e == '0') := by
  refine ⟨(s.takeWhile (fun e => e == '0')).length, ?_⟩
  conv_lhs => rw [← List.takeWhile_append_dropWhile (p := fun e => e == '0') (l := s)]
  congr 1
  refine List.eq_replicate_iff.mpr ⟨rfl, fun e he => ?_⟩
  simpa using List.mem_takeWhile_imp he

theorem gWord_of_typeOfToken {t : Text} {T : CommandType} (h : typeOfToken t = some T) :
    GWord t T := by
  have hne : gNumber t ≠ [] := by
    intro hn
    simp [typeOfToken, hn] at h
  cases t with
  | nil => exact absurd rfl hne
  | cons c t =>
    cases t with
    | nil => exact absurd rfl hne
    | cons d r =>
      have hc : c = 'G' ∨ c = 'g' := by
        by_contra hc
        exact hne (by simp [gNumber, hc])
      obtain ⟨z, hz⟩ := exists_replicate_dropWhile (d :: r)
      refine ⟨c, z, (d :: r).dropWhile (fun e => e == '0'), hc, ?_, by rw [← hz], by simp⟩
      rw [typeOfToken, gNumber_eq hc (List.cons_ne_nil d r)] at h
      by_cases hd : (d :: r).dropWhile (fun e => e == '0') = []
      · rw [if_pos hd] at h
        obtain rfl : CommandType.G00 = T := Option.some.inj h
        rw [hd]
        decide
      · rw [if_neg hd] at h
        generalize (d :: r).dropWhile (fun e => e == '0') = n at h
        split_ifs at h with h0 h1 h2 h3
        all_goals
          obtain rfl := Option.some.inj h
          simp [endings, *]

theorem typeOfToken_eq_some {t : Text} {T : CommandType} : typeOfToken t = some T ↔ GWord t T :=
  ⟨gWord_of_typeOfToken, typeOfToken_of_gWord⟩

instance (t : Text) : Decidable (∃ T, GWord t T) :=
  decidable_of_iff ((typeOfToken t).isSome = true) <| by
    simp only [Option.isSome_iff_exists, typeOfToken_eq_some]

/-- The first G word of the line has the type `T`. -/
def FirstGWord (line : Text) (T : CommandType) : Prop :=
  ∃ pre t post, tokens line = pre ++ t :: post ∧ (∀ u ∈ pre, ¬∃ T, GWord u T) ∧ GWord t T

theorem firstGWord_of_detect {line : Text} (h : detectCommandType line ≠ .None) :
    FirstGWord line (detectCommandType line) := by
  cases hf : (tokens line).findSome? typeOfToken with
  | none => simp [detectCommandType, hf] at h
  | some T =>
    obtain ⟨pre, t, post, htok, ht, hpre⟩ := List.findSome?_eq_some_iff.mp hf
    have hT : detectCommandType line = T := by simp [detectCommandType, hf]
    rw [hT]
    refine ⟨pre, t, post, htok, fun u hu => ?_, typeOfToken_eq_some.mp ht⟩
    rintro ⟨T', hT'⟩
    have hnone := hpre u hu
    rw [typeOfToken_eq_some.mpr hT'] at hnone
    cases hnone

theorem detect_ne_none_iff (line : Text) :
    detectCommandType line ≠ .None ↔ ∃ t ∈ tokens line, ∃ T, GWord t T := by
  constructor
  · intro h
    obtain ⟨pre, t, post, htok, -, ht⟩ := firstGWord_of_detect h
    exact ⟨t, by simp [htok], _, ht⟩
  · rintro ⟨t, ht, T, hT⟩ hn
    cases hf : (tokens line).findSome? typeOfToken with
    | none =>
      have := List.findSome?_eq_none_iff.mp hf t ht
      rw [typeOfToken_of_gWord hT] at this
      cases this
    | some T' =>
      obtain ⟨u, -, hu⟩ := List.exists_of_findSome?_eq_some hf
      obtain rfl : T' = .None := by simpa [detectCommandType, hf] using hn
      obtain ⟨c, z, e, -, he, -⟩ := gWord_of_typeOfToken hu
      simp [endings] at he

end GWords

section Values

/-- The number that a value text begins with, written with a decimal point or comma. -/
def valueOf (text : Text) : Option Rat := stod (replaceComma text)

/-- The words of a line that begin with a letter, each with its value text: the rest of the word,
or else the next token. -/
def coordinateWords : List Text → List (Letter × Option Text)
  | [] => []
  | w :: ss =>
    match letterOf w with
    | none => coordinateWords ss
    | some L => (L, if w.length > 1 then some w.tail else ss.head?) :: coordinateWords ss

def AllReadable (ts : List Text) : Prop :=
  ∀ p ∈ coordinateWords ts, ∃ v, p.2.bind valueOf = some v

instance (ts : List Text) : Decidable (AllReadable ts) :=
  decidable_of_iff (∀ p ∈ coordinateWords ts, (p.2.bind valueOf).isSome = true) <| by
    simp only [AllReadable, Option.isSome_iff_exists]

def lastValue (L : Letter) (ts : List Text) : Option Rat :=
  ((coordinateWords ts).filter (·.1 = L)).getLast?.bind fun p => p.2.bind valueOf

theorem coordinateWords_plain {w : Text} (hl : letterOf w = none) (ss : List Text) :
    coordinateWords (w :: ss) = coordinateWords ss := by
  simp only [coordinateWords, hl]

theorem coordinateWords_joined {w : Text} {L : Letter} (hl : letterOf w = some L)
    (hn : ¬w.length = 1) (ss : List Text) :
    coordinateWords (w :: ss) = (L, some w.tail) :: coordinateWords ss := by
  simp only [coordinateWords, hl, (one_lt_length_iff hl).mpr hn, if_true]

theorem coordinateWords_detached {w : Text} {L : Letter} (hl : letterOf w = some L)
    (hn : w.length = 1) (ss : List Text) :
    coordinateWords (w :: ss) = (L, ss.head?) :: coordinateWords ss := by
  have hn' : ¬w.length > 1 := by omega
  simp only [coordinateWords, hl, hn', if_false]

theorem coordinateWords_of_readable {ts : List Text} {as : List (Letter × Rat)}
    (h : Readable ts as) :
    (coordinateWords ts).map (fun p => (p.1, p.2.bind valueOf)) =
      as.map (fun a => (a.1, some a.2)) := by
  induction h with
  | nil => rfl
  | plain hl _ ih =>
    rw [coordinateWords_plain hl]
    exact ih
  | joined hl hn hv _ ih =>
    rw [coordinateWords_joined hl hn, List.map_cons, List.map_cons, ih]
    exact congrArg (fun v => (_, v) :: _) hv
  | detached hl hn hv _ ih =>
    rw [coordinateWords_detached hl hn, coordinateWords_plain (letterOf_of_stod hv).1,
      List.map_cons, List.map_cons, ih]
    exact congrArg (fun v => (_, v) :: _) hv

theorem allReadable_of_readable {ts : List Text} {as : List (Letter × Rat)}
    (h : Readable ts as) : AllReadable ts := by
  intro p hp
  have hm := List.mem_map_of_mem (f := fun p => (p.1, p.2.bind valueOf)) hp
  rw [coordinateWords_of_readable h] at hm
  obtain ⟨a, -, ha⟩ := List.mem_map.mp hm
  exact ⟨a.2, (congrArg Prod.snd ha).symm⟩

theorem readValue_iff (w : Text) (next : Option Text) (v : Rat) :
    readValueAfterLetter w next = .ok v ↔
      (if w.length > 1 then some w.tail else next).bind valueOf = some v := by
  by_cases hn : w.length > 1
  · rw [readValue_joined hn, if_pos hn]
    rfl
  · rw [if_neg hn]
    cases next with
    | none => simp [readValueAfterLetter, hn]
    | some u => exact readValue_detached hn v

theorem exists_assignments_of_allReadable {ts : List Text} (h : AllReadable ts) :
    ∃ as, assignments ts = .ok as := by
  induction ts using assignments.induct with
  | case1 => exact ⟨[], rfl⟩
  | case2 w ss hl ih =>
    rw [AllReadable, coordinateWords_plain hl] at h
    obtain ⟨as, ha⟩ := ih h
    exact ⟨as, by simp only [assignments, hl, ha]⟩
  | case3 w ss L hl e hv =>
    have hmem : (L, if w.length > 1 then some w.tail else ss.head?) ∈ coordinateWords (w :: ss) := by
      simp [coordinateWords, hl]
    obtain ⟨v, hval⟩ := h _ hmem
    rw [← readValue_iff, hv] at hval
    cases hval
  | case4 w ss L hl v hv hn ih =>
    have hn' := (one_lt_length_iff hl).mp hn
    rw [AllReadable, coordinateWords_joined hl hn'] at h
    obtain ⟨as, ha⟩ := ih fun p hp => h p (List.mem_cons_of_mem _ hp)
    exact ⟨(L, v) :: as, by simp only [assignments, hl, hv, hn, if_true, ha]; rfl⟩
  | case5 w L hl v hn u ss hv ih =>
    have hu := letterOf_of_stod ((readValue_detached hn v).mp hv)
    have hn' : w.length = 1 := by
      by_contra hw
      exact hn ((one_lt_length_iff hl).mpr hw)
    rw [AllReadable, coordinateWords_detached hl hn', coordinateWords_plain hu.1] at h
    obtain ⟨as, ha⟩ := ih fun p hp => h p (List.mem_cons_of_mem _ hp)
    exact ⟨(L, v) :: as, by simp only [assignments, hl, hv, hn, if_false, ha]; rfl⟩
  | case6 w L hl v hn hv => simp [readValueAfterLetter, hn] at hv

theorem allReadable_iff (ts : List Text) : AllReadable ts ↔ ∃ as, assignments ts = .ok as := by
  constructor
  · exact exists_assignments_of_allReadable
  · rintro ⟨as, h⟩
    exact allReadable_of_readable (readable_of_assignments h)

theorem lastValue_of_readable {ts : List Text} {as : List (Letter × Rat)} (h : Readable ts as)
    (L : Letter) : lastValue L ts = ((as.filter (·.1 = L)).getLast?).map (·.2) := by
  have hfilter : ((coordinateWords ts).filter (·.1 = L)).map (fun p => (p.1, p.2.bind valueOf)) =
      (as.filter (·.1 = L)).map (fun a => (a.1, some a.2)) := by
    have hw := congrArg (List.filter fun p => decide (p.1 = L)) (coordinateWords_of_readable h)
    rw [List.filter_map, List.filter_map] at hw
    exact hw
  have hlast := congrArg List.getLast? hfilter
  rw [List.getLast?_map, List.getLast?_map] at hlast
  rw [lastValue]
  cases hp : ((coordinateWords ts).filter (·.1 = L)).getLast? with
  | none =>
    rw [hp] at hlast
    cases ha : (as.filter (·.1 = L)).getLast? with
    | none => rfl
    | some a => simp [ha] at hlast
  | some p =>
    rw [hp] at hlast
    cases ha : (as.filter (·.1 = L)).getLast? with
    | none => simp [ha] at hlast
    | some a =>
      rw [ha] at hlast
      simp only [Option.map_some, Option.some.injEq, Prod.mk.injEq] at hlast
      exact hlast.2

def coordinate (c : Coordinates) : Letter → Rat
  | .X => c.newX
  | .Y => c.newY
  | .I => c.I
  | .J => c.J

theorem coordinate_set (c : Coordinates) (K L : Letter) (v : Rat) :
    coordinate (c.set K v) L = if K = L then v else coordinate c L := by
  cases K <;> cases L <;> rfl

theorem coordinate_assign (c : Coordinates) (as : List (Letter × Rat)) (L : Letter) :
    coordinate (c.assign as) L =
      (((as.filter (·.1 = L)).getLast?).map (·.2)).getD (coordinate c L) := by
  induction as using List.reverseRecOn with
  | nil => rfl
  | append_singleton as a ih =>
    rw [Coordinates.assign, List.foldl_append, List.foldl_cons, List.foldl_nil, coordinate_set,
      List.filter_append]
    by_cases ha : a.1 = L
    · simp [ha]
    · rw [if_neg ha, List.filter_cons_of_neg (by simpa using ha), List.filter_nil, List.append_nil]
      exact ih

end Values

section Lines

def isComment (line : Text) : Bool := line.head? = some ';' || line.head? = some '('

def IsCommandLine (line : Text) : Prop :=
  (∃ c ∈ line, isspace c = false) ∧ isComment line = false ∧ ∃ t ∈ tokens line, ∃ T, GWord t T

instance : DecidablePred IsCommandLine := fun line =>
  @instDecidableAnd _ _ (List.decidableBEx (fun c => isspace c = false) line)
    (inferInstanceAs (Decidable (_ ∧ _)))

/-- The line contributes a command. -/
def Contributes (line : Text) : Prop := IsCommandLine line ∧ AllReadable (tokens line)

instance : DecidablePred Contributes := fun _ => inferInstanceAs (Decidable (_ ∧ _))

/-- The line would contribute a command but for an unreadable coordinate. -/
def Unreadable (line : Text) : Prop := IsCommandLine line ∧ ¬AllReadable (tokens line)

instance : DecidablePred Unreadable := fun _ => inferInstanceAs (Decidable (_ ∧ _))

structure Move (line : Text) (start : Point2D) (c : Command) : Prop where
  type : FirstGWord line c.type
  x : c.endPosition.x = (lastValue .X (tokens line)).getD start.x
  y : c.endPosition.y = (lastValue .Y (tokens line)).getD start.y
  i : c.arcCenter.x = (lastValue .I (tokens line)).getD 0
  j : c.arcCenter.y = (lastValue .J (tokens line)).getD 0

variable {line : Text}

theorem isCommandLine_iff (hs : onlySpace line = false) :
    IsCommandLine line ↔ line ≠ [] ∧ line.head? ≠ some ';' ∧ line.head? ≠ some '(' ∧
      detectCommandType line ≠ .None := by
  have hblank : ∃ c ∈ line, isspace c = false := by simpa [onlySpace] using hs
  have hne : line ≠ [] := by
    rintro rfl
    cases hs
  rw [IsCommandLine, ← detect_ne_none_iff]
  simp [isComment, hblank, hne, and_assoc]

theorem move_commandOf {as : List (Letter × Rat)} (ht : detectCommandType line ≠ .None)
    (ha : assignments (tokens line) = .ok as) (n : Int) (p : Point2D) :
    Move line p (commandOf line n p as) := by
  have hr := readable_of_assignments ha
  refine ⟨firstGWord_of_detect ht, ?_, ?_, ?_, ?_⟩
  · rw [lastValue_of_readable hr]
    exact coordinate_assign _ as .X
  · rw [lastValue_of_readable hr]
    exact coordinate_assign _ as .Y
  · rw [lastValue_of_readable hr]
    exact coordinate_assign _ as .I
  · rw [lastValue_of_readable hr]
    exact coordinate_assign _ as .J

theorem parseLine_contributes (hs : onlySpace line = false) (h : Contributes line) (n : Int)
    (p : Point2D) : ∃ c, parseLine line n p = .ok (some c) ∧ c.lineNumber = n ∧ Move line p c := by
  obtain ⟨hne, hsemi, hparen, ht⟩ := (isCommandLine_iff hs).mp h.1
  obtain ⟨as, ha⟩ := (allReadable_iff _).mp h.2
  refine ⟨commandOf line n p as, ?_, rfl, move_commandOf ht ha n p⟩
  rw [parseLine_of_not_comment hne hsemi hparen ht, ha]
  rfl

theorem parseLine_unreadable (hs : onlySpace line = false) (h : Unreadable line) (n : Int)
    (p : Point2D) : ∃ e, parseLine line n p = .error e := by
  obtain ⟨hne, hsemi, hparen, ht⟩ := (isCommandLine_iff hs).mp h.1
  rw [parseLine_of_not_comment hne hsemi hparen ht]
  cases ha : assignments (tokens line) with
  | error e => exact ⟨e, rfl⟩
  | ok as => exact absurd ((allReadable_iff _).mpr ⟨as, ha⟩) h.2

theorem parseLine_skipped (hs : onlySpace line = false) (h : ¬IsCommandLine line) (n : Int)
    (p : Point2D) : parseLine line n p = .ok none := by
  rw [isCommandLine_iff hs] at h
  simp only [parseLine, List.isEmpty_iff]
  split_ifs with hne hc ht
  · rfl
  · rfl
  · rfl
  · rw [not_or] at hc
    exact absurd ⟨hne, hc.1, hc.2, ht⟩ h

end Lines

section Run

def numberedFrom (n : Nat) (ls : List Text) : List (Text × Nat) := (ls.map stripEnd).zipIdx n

/-- The commands and the error lines that the lines yield from a position on. -/
inductive Traced : List (Text × Nat) → Point2D → List Command → List Int → Prop
  | nil (p : Point2D) : Traced [] p [] []
  | skip {line : Text} {n : Nat} {ls : List (Text × Nat)} {p : Point2D} {cs : List Command}
      {es : List Int} (h : ¬IsCommandLine line) (t : Traced ls p cs es) :
      Traced ((line, n) :: ls) p cs es
  | error {line : Text} {n : Nat} {ls : List (Text × Nat)} {p : Point2D} {cs : List Command}
      {es : List Int} (h : Unreadable line) (t : Traced ls p cs es) :
      Traced ((line, n) :: ls) p cs (n :: es)
  | command {line : Text} {n : Nat} {ls : List (Text × Nat)} {p : Point2D} {cs : List Command}
      {es : List Int} {c : Command} (h : Contributes line) (hn : c.lineNumber = n)
      (hc : Move line p c) (t : Traced ls c.endPosition cs es) :
      Traced ((line, n) :: ls) p (c :: cs) es

theorem not_isCommandLine_of_onlySpace {line : Text} (h : onlySpace line = true) :
    ¬IsCommandLine line := by
  rintro ⟨⟨c, hc, hs⟩, -⟩
  rw [List.all_eq_true.mp h c hc] at hs
  cases hs

theorem parseLoop_traced (ls : List Text) (n : Nat) (i : Int) (p : Point2D) (r : ParseResult) :
    ∃ cs es, (parseLoop ls n i p r).commands = r.commands ++ cs ∧
      (parseLoop ls n i p r).errorLines = r.errorLines ++ es ∧
      Traced (numberedFrom (n + 1) ls) p cs es := by
  induction ls generalizing n i p r with
  | nil => exact ⟨[], [], by simp [parseLoop], by simp [parseLoop], .nil p⟩
  | cons l ls ih =>
    have hcons : numberedFrom (n + 1) (l :: ls) = (stripEnd l, n + 1) :: numberedFrom (n + 2) ls :=
      rfl
    rw [hcons]
    cases hl : onlySpace (stripEnd l) with
    | true =>
      obtain ⟨cs, es, hcs, hes, ht⟩ := ih (n + 1) i p r
      simp only [parseLoop, hl, if_true]
      exact ⟨cs, es, hcs, hes, .skip (not_isCommandLine_of_onlySpace hl) ht⟩
    | false =>
      simp only [parseLoop, hl, Bool.false_eq_true, if_false]
      by_cases hcmd : IsCommandLine (stripEnd l)
      · by_cases hread : AllReadable (tokens (stripEnd l))
        · obtain ⟨c, hp, hn, hm⟩ := parseLine_contributes hl ⟨hcmd, hread⟩ (n + 1 : Int) p
          obtain ⟨cs, es, hcs, hes, ht⟩ := ih (n + 1) (i + 1) c.endPosition
            { r with commands := r.commands ++ [{ c with recordIndex := i }] }
          rw [hp]
          refine ⟨{ c with recordIndex := i } :: cs, es, ?_, hes, ?_⟩
          · simpa using hcs
          · exact .command ⟨hcmd, hread⟩ hn ⟨hm.type, hm.x, hm.y, hm.i, hm.j⟩ ht
        · obtain ⟨e, hp⟩ := parseLine_unreadable hl ⟨hcmd, hread⟩ (n + 1 : Int) p
          obtain ⟨cs, es, hcs, hes, ht⟩ := ih (n + 1) (i + 1) p
            { r with
              errorLines := r.errorLines ++ [(n + 1 : Int)]
              errorMessages := r.errorMessages ++
                [lit "Line " ++ toText (n + 1 : Int) ++ lit ": " ++ e] }
          rw [hp]
          refine ⟨cs, ((n + 1 : Nat) : Int) :: es, hcs, ?_, .error ⟨hcmd, hread⟩ ht⟩
          simpa using hes
      · obtain ⟨cs, es, hcs, hes, ht⟩ := ih (n + 1) (i + 1) p r
        rw [parseLine_skipped hl hcmd]
        exact ⟨cs, es, hcs, hes, .skip hcmd ht⟩

/-- Where the command with the index `k` starts: at the end of the one before. -/
def startOf (p : Point2D) (cs : List Command) (k : Nat) : Point2D :=
  ((cs.take k).getLast?.map (·.endPosition)).getD p

theorem startOf_succ (p : Point2D) (c : Command) (cs : List Command) (k : Nat) :
    startOf p (c :: cs) (k + 1) = startOf c.endPosition cs k := by
  cases k with
  | zero => rfl
  | succ k =>
    cases cs with
    | nil => rfl
    | cons d cs => rfl

variable {ls : List (Text × Nat)} {p : Point2D} {cs : List Command} {es : List Int}

theorem Traced.lineNumber (t : Traced ls p cs es) :
    cs.map (·.lineNumber) = (ls.filter (fun q => Contributes q.1)).map (fun q => (q.2 : Int)) := by
  induction t with
  | nil => rfl
  | skip h _ ih =>
    rw [List.filter_cons_of_neg (by simpa using fun hc : Contributes _ => h hc.1)]
    exact ih
  | error h _ ih =>
    rw [List.filter_cons_of_neg (by simpa using fun hc : Contributes _ => h.2 hc.2)]
    exact ih
  | command h hn _ _ ih =>
    rw [List.filter_cons_of_pos (by simpa using h), List.map_cons, List.map_cons, hn, ih]

theorem Traced.errorLines (t : Traced ls p cs es) :
    es = (ls.filter (fun q => Unreadable q.1)).map (fun q => (q.2 : Int)) := by
  induction t with
  | nil => rfl
  | skip h _ ih =>
    rw [List.filter_cons_of_neg (by simpa using fun hc : Unreadable _ => h hc.1)]
    exact ih
  | error h _ ih => rw [List.filter_cons_of_pos (by simpa using h), List.map_cons, ← ih]
  | command h _ _ _ ih =>
    rw [List.filter_cons_of_neg (by simpa using fun hc : Unreadable _ => hc.2 h.2)]
    exact ih

theorem Traced.move (t : Traced ls p cs es) {k : Nat} {c : Command} (hc : cs[k]? = some c) :
    ∃ q, (ls.filter (fun q => Contributes q.1))[k]? = some q ∧ Move q.1 (startOf p cs k) c := by
  induction t generalizing k with
  | nil => cases hc
  | skip h _ ih =>
    rw [List.filter_cons_of_neg (by simpa using fun hc : Contributes _ => h hc.1)]
    exact ih hc
  | error h _ ih =>
    rw [List.filter_cons_of_neg (by simpa using fun hc : Contributes _ => h.2 hc.2)]
    exact ih hc
  | @command line n _ _ _ _ _ h _ hm _ ih =>
    rw [List.filter_cons_of_pos (by simpa using h)]
    cases k with
    | zero =>
      cases hc
      exact ⟨(line, n), rfl, hm⟩
    | succ k =>
      rw [startOf_succ]
      exact ih hc

end Run

section Statement

/-- The lines of the file as they are parsed, with their numbers. -/
def numbered (content : Text) : List (Text × Nat) := numberedFrom 1 (getlines content)

def contributing (content : Text) : List (Text × Nat) :=
  (numbered content).filter (fun q => Contributes q.1)

def unreadable (content : Text) : List (Text × Nat) :=
  (numbered content).filter (fun q => Unreadable q.1)

/-- The commands are the modal tool path of the file. -/
structure Modal (content : Text) (r : ParseResult) : Prop where
  lineNumber : r.commands.map (·.lineNumber) = (contributing content).map (fun q => (q.2 : Int))
  move : ∀ (k : Nat) (c : Command), r.commands[k]? = some c →
    ∃ q, (contributing content)[k]? = some q ∧ Move q.1 (startOf ⟨0, 0⟩ r.commands k) c
  errorLines : r.errorLines = (unreadable content).map (fun q => (q.2 : Int))
  success : r.success = r.errorLines.isEmpty

theorem modal_parseContent (content : Text) : Modal content (parseContent content) := by
  cases content with
  | nil => exact ⟨rfl, fun k c hc => (by cases hc), rfl, rfl⟩
  | cons ch content =>
    obtain ⟨cs, es, hcs, hes, t⟩ := parseLoop_traced (getlines (ch :: content)) 0 0 ⟨0, 0⟩ {}
    have hcommands : (parseContent (ch :: content)).commands = cs := hcs
    have herrors : (parseContent (ch :: content)).errorLines = es := hes
    refine ⟨?_, ?_, ?_, rfl⟩
    · rw [hcommands]
      exact t.lineNumber
    · rw [hcommands]
      exact fun k c hc => t.move hc
    · rw [herrors]
      exact t.errorLines

/-- A readable file is parsed into its modal tool path. -/
theorem parseFile_modal (fs : FileSystem) (filename content : Text)
    (hstatus : fs.status filename = .ok (some .regular))
    (hcontent : fs.content filename = some content) :
    ∃ r, parseFile fs filename = .ok r ∧ Modal content r := by
  exact ⟨parseContent content, parseFile_of_content hstatus hcontent, modal_parseContent content⟩

/-- The lines `G1 X1`, `;`, `G2 Y2 I1` and `G1 X`. -/
def fourLines : Text :=
  ['G', '1', ' ', 'X', '1', '\n', ';', '\n', 'G', '2', ' ', 'Y', '2', ' ', 'I', '1', '\n',
    'G', '1', ' ', 'X']

theorem parseFile_modal_fourLines :
    ∃ r, parseFile (.ofFiles [(['f'], fourLines)]) ['f'] = .ok r ∧ Modal fourLines r ∧
      contributing fourLines =
        [(['G', '1', ' ', 'X', '1'], 1), (['G', '2', ' ', 'Y', '2', ' ', 'I', '1'], 3)] := by
  obtain ⟨r, hr, hm⟩ :=
    parseFile_modal (.ofFiles [(['f'], fourLines)]) ['f'] fourLines (by decide) (by decide)
  exact ⟨r, hr, hm, by decide +kernel⟩

end Statement

end Datenbereitstellung.ToolPath
