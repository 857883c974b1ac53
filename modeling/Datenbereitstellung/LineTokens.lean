import Datenbereitstellung.ToolPath

namespace Datenbereitstellung.LineTokens

open Strings Files GCodeParser ToolPath Lib.Words

section Tokens

variable {l l' : Text}

theorem detectCommandType_congr (h : tokens l = tokens l') :
    detectCommandType l = detectCommandType l' := by
  rw [detectCommandType, detectCommandType, h]

theorem parseLine_of_none (h : detectCommandType l = .None) (n : Int) (p : Point2D) :
    parseLine l n p = .ok none := by
  simp only [parseLine, h, if_true]
  split_ifs <;> rfl

theorem parseLine_of_isComment (h : isComment l = true) (n : Int) (p : Point2D) :
    parseLine l n p = .ok none := by
  have hc : l.head? = some ';' ∨ l.head? = some '(' := by simpa [isComment] using h
  simp only [parseLine, hc, if_true]
  split_ifs <;> rfl

theorem parseLine_of_command (hc : isComment l = false) (ht : detectCommandType l ≠ .None)
    (n : Int) (p : Point2D) :
    parseLine l n p = (assignments (tokens l)).map (fun as => some (commandOf l n p as)) := by
  have hne : l ≠ [] := by
    rintro rfl
    exact ht rfl
  have hhead : l.head? ≠ some ';' ∧ l.head? ≠ some '(' := by simpa [isComment] using hc
  exact parseLine_of_not_comment hne hhead.1 hhead.2 ht

theorem parseLine_congr (h : tokens l = tokens l') (hc : isComment l = isComment l') (n : Int)
    (p : Point2D) : parseLine l' n p =
      (parseLine l n p).map (Option.map fun c => { c with originalLine := l' }) := by
  by_cases ht : detectCommandType l = .None
  · rw [parseLine_of_none ht, parseLine_of_none ((detectCommandType_congr h).symm.trans ht)]
    rfl
  · cases hl : isComment l with
    | true =>
      rw [parseLine_of_isComment hl, parseLine_of_isComment (hc.symm.trans hl)]
      rfl
    | false =>
      have ht' : detectCommandType l' ≠ .None := detectCommandType_congr h ▸ ht
      rw [parseLine_of_command hl ht, parseLine_of_command (hc.symm.trans hl) ht', ← h]
      cases assignments (tokens l) with
      | error e => rfl
      | ok as =>
        have hcmd : commandOf l' n p as = { commandOf l n p as with originalLine := l' } := by
          rw [commandOf, ← detectCommandType_congr h]
          rfl
        exact congrArg (fun c => Except.ok (some c)) hcmd

end Tokens

section TwoLines

/-- Both throw, or both yield no command, or both yield the same move. -/
def SameOutcome : Except Text (Option Command) → Except Text (Option Command) → Prop
  | .error _, .error _ => True
  | .ok none, .ok none => True
  | .ok (some c), .ok (some c') =>
    c.type = c'.type ∧ c.endPosition = c'.endPosition ∧ c.arcCenter = c'.arcCenter
  | _, _ => False

theorem sameOutcome_map (r : Except Text (Option Command)) (l' : Text) :
    SameOutcome r (r.map (Option.map fun c => { c with originalLine := l' })) := by
  cases r with
  | error e => trivial
  | ok o =>
    cases o with
    | none => trivial
    | some c => exact ⟨rfl, rfl, rfl⟩

theorem not_sameOutcome_of_command {l l' : Text} (hl : isComment l = true)
    (hl' : isComment l' = false) (ht : detectCommandType l' ≠ .None) (n : Int) (p : Point2D) :
    ¬SameOutcome (parseLine l n p) (parseLine l' n p) ∧
      ¬SameOutcome (parseLine l' n p) (parseLine l n p) := by
  rw [parseLine_of_isComment hl, parseLine_of_command hl' ht]
  cases assignments (tokens l') with
  | error e => exact ⟨id, id⟩
  | ok as => exact ⟨id, id⟩

/-- Lines with the same tokens are parsed alike unless they hold a G word and just one of them
begins like a comment. -/
theorem parseLine_sameTokens_iff (l l' : Text) (h : tokens l = tokens l') (n : Int) (p : Point2D) :
    SameOutcome (parseLine l n p) (parseLine l' n p) ↔
      (detectCommandType l ≠ .None → isComment l = isComment l') := by
  constructor
  · intro hs ht
    have ht' : detectCommandType l' ≠ .None := detectCommandType_congr h ▸ ht
    cases hl : isComment l with
    | true =>
      cases hl' : isComment l' with
      | true => rfl
      | false => exact absurd hs (not_sameOutcome_of_command hl hl' ht' n p).1
    | false =>
      cases hl' : isComment l' with
      | true => exact absurd hs (not_sameOutcome_of_command hl' hl ht n p).2
      | false => rfl
  · intro hc
    by_cases ht : detectCommandType l = .None
    · rw [parseLine_of_none ht, parseLine_of_none ((detectCommandType_congr h).symm.trans ht)]
      trivial
    · rw [parseLine_congr h (hc ht) n p]
      exact sameOutcome_map _ l'

/-- `; G1 X1` -/
def comment : Text := [';', ' ', 'G', '1', ' ', 'X', '1']

theorem parseLine_sameTokens_indented : ¬∀ l l' : Text, tokens l = tokens l' →
    ∀ (n : Int) (p : Point2D), SameOutcome (parseLine l n p) (parseLine l' n p) := by
  intro h
  have hl : parseLine comment 1 ⟨0, 0⟩ = .ok none := by decide +kernel
  have hl' : parseLine (' ' :: comment) 1 ⟨0, 0⟩ =
      .ok (some { type := .G01, endPosition := ⟨1, 0⟩, arcCenter := ⟨0, 0⟩, lineNumber := 1
                  originalLine := ' ' :: comment }) := by decide +kernel
  have hs := h comment (' ' :: comment) (by decide +kernel) 1 ⟨0, 0⟩
  rw [hl, hl'] at hs
  exact hs

/-- `G1 X1` -/
def move : Text := ['G', '1', ' ', 'X', '1']

theorem parseLine_sameTokens_indentedMove :
    SameOutcome (parseLine move 1 ⟨0, 0⟩) (parseLine (' ' :: move) 1 ⟨0, 0⟩) :=
  (parseLine_sameTokens_iff move (' ' :: move) (by decide +kernel) 1 ⟨0, 0⟩).mpr
    fun _ => by decide

end TwoLines

section TwoLoops

variable {l : Text}

theorem tokens_stripEnd (l : Text) : tokens (stripEnd l) = tokens l :=
  words_rdropWhile isspace_of_isTrailing l

theorem isComment_stripEnd (h : onlySpace l = false) : isComment (stripEnd l) = isComment l := by
  have hne : stripEnd l ≠ [] := by
    intro hn
    rw [← onlySpace_stripEnd, hn] at h
    cases h
  have hhead : l.head? = (stripEnd l).head? := by
    conv_lhs => rw [← List.rdropWhile_append_rtakeWhile (p := isTrailing) (l := l)]
    exact List.head?_append_of_ne_nil _ hne
  rw [isComment, isComment, hhead]

theorem parseLine_of_onlySpace (h : onlySpace l = true) (n : Int) (p : Point2D) :
    parseLine l n p = .ok none := by
  refine parseLine_of_none ?_ n p
  have htok : tokens l = [] := words_of_seps fun c hc => List.all_eq_true.mp h c hc
  rw [detectCommandType, htok]
  rfl

/-- The command of `parseFile` for the one that `parseString` yields. -/
structure SameCommand (c c' : Command) : Prop where
  type : c'.type = c.type
  endPosition : c'.endPosition = c.endPosition
  arcCenter : c'.arcCenter = c.arcCenter
  lineNumber : c'.lineNumber = c.lineNumber
  originalLine : c'.originalLine = stripEnd c.originalLine

structure SameResult (s f : ParseResult) : Prop where
  commands : List.Forall₂ SameCommand s.commands f.commands
  errorLines : f.errorLines = s.errorLines
  errorMessages : f.errorMessages = s.errorMessages

theorem parseLine_originalLine {n : Int} {p : Point2D} {c : Command}
    (h : parseLine l n p = .ok (some c)) : c.originalLine = l := by
  obtain ⟨-, as, -, rfl⟩ := parseLine_eq_some.mp h
  rfl

theorem sameResult_loops (ls : List Text) (n i : Int) (p : Point2D) {s f : ParseResult}
    (h : SameResult s f) : SameResult (parseStringLoop ls n p s) (parseLoop ls n i p f) := by
  induction ls generalizing n i p s f with
  | nil => exact h
  | cons l ls ih =>
    simp only [parseLoop, parseStringLoop, onlySpace_stripEnd]
    cases hs : onlySpace l with
    | true =>
      rw [parseLine_of_onlySpace hs, if_pos rfl]
      exact ih (n + 1) i p h
    | false =>
      rw [if_neg Bool.false_ne_true,
        parseLine_congr (tokens_stripEnd l).symm (isComment_stripEnd hs).symm]
      cases hp : parseLine l (n + 1) p with
      | error e =>
        refine ih (n + 1) (i + 1) p ⟨h.commands, ?_, ?_⟩
        · rw [h.errorLines]
        · rw [h.errorMessages]
      | ok o =>
        cases o with
        | none => exact ih (n + 1) (i + 1) p h
        | some c =>
          refine ih (n + 1) (i + 1) c.endPosition ⟨?_, h.errorLines, h.errorMessages⟩
          refine List.rel_append h.commands (.cons ⟨rfl, rfl, rfl, rfl, ?_⟩ .nil)
          exact congrArg stripEnd (parseLine_originalLine hp).symm

/-- What `parseFile` makes of a file with the content is what `parseString` makes of the content;
an empty file has a warning of its own. -/
structure SameParse (content : Text) (s f : ParseResult) : Prop where
  commands : List.Forall₂ SameCommand s.commands f.commands
  errorLines : f.errorLines = s.errorLines
  success : f.success = s.success
  errorMessages : f.errorMessages =
    if content = [] then [lit "Warning: File is empty"] else s.errorMessages

theorem sameParse_parseContent (content : Text) :
    SameParse content (parseString content) (parseContent content) := by
  cases content with
  | nil => exact ⟨.nil, rfl, rfl, rfl⟩
  | cons c content =>
    have h := sameResult_loops (getlines (c :: content)) 0 0 ⟨0, 0⟩
      (s := {}) (f := {}) ⟨.nil, rfl, rfl⟩
    exact ⟨h.commands, h.errorLines, congrArg List.isEmpty h.errorLines, h.errorMessages⟩

theorem parseString_parseFile (fs : FileSystem) (filename content : Text)
    (hstatus : fs.status filename = .ok (some .regular))
    (hcontent : fs.content filename = some content) :
    ∃ r, parseFile fs filename = .ok r ∧ SameParse content (parseString content) r :=
  ⟨parseContent content, parseFile_of_content hstatus hcontent, sameParse_parseContent content⟩

def crlfFile : Text :=
  ['G', '1', ' ', 'X', '1', '\r', '\n', ' ', '\r', '\n', 'G', '1', ' ', 'X', '\r', '\n']

theorem parseString_parseFile_crlf :
    ∃ r, parseFile (.ofFiles [(['f'], crlfFile)]) ['f'] = .ok r ∧
      SameParse crlfFile (parseString crlfFile) r ∧ r.errorLines = [3] := by
  obtain ⟨r, hr, h⟩ :=
    parseString_parseFile (.ofFiles [(['f'], crlfFile)]) ['f'] crlfFile (by decide) (by decide)
  have he : (parseString crlfFile).errorLines = [3] := by decide +kernel
  exact ⟨r, hr, h, h.errorLines.trans he⟩

end TwoLoops

end Datenbereitstellung.LineTokens
