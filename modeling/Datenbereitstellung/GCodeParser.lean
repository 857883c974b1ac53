import Datenbereitstellung.Files

namespace Datenbereitstellung.GCodeParser

open Strings Files

inductive CommandType
  | None
  | G00
  | G01
  | G02
  | G03
  deriving DecidableEq

structure Point2D where
  x : Rat
  y : Rat
  deriving DecidableEq

structure Command where
  type : CommandType
  endPosition : Point2D
  arcCenter : Point2D
  lineNumber : Int
  recordIndex : Int := -1
  originalLine : Text
  deriving DecidableEq

structure ParseResult where
  commands : List Command := []
  errorLines : List Int := []
  errorMessages : List Text := []
  success : Bool := true

/-- The number behind `G` without its leading zeros; empty if the token is no G word. -/
def gNumber (token : Text) : Text :=
  match token with
  | c :: d :: r =>
    if c = 'G' ∨ c = 'g' then
      let n := (d :: r).dropWhile (fun e => e == '0')
      if n.isEmpty then ['0'] else n
    else []
  | _ => []

def typeOfToken (token : Text) : Option CommandType :=
  let n := gNumber token
  if n = ['0'] then some .G00
  else if n = ['1'] then some .G01
  else if n = ['2'] then some .G02
  else if n = ['3'] then some .G03
  else none

def detectCommandType (line : Text) : CommandType :=
  ((tokens line).findSome? typeOfToken).getD .None

inductive Letter
  | X
  | Y
  | I
  | J
  deriving DecidableEq

def letterOf (word : Text) : Option Letter :=
  match word with
  | c :: _ =>
    if c = 'X' ∨ c = 'x' then some .X
    else if c = 'Y' ∨ c = 'y' then some .Y
    else if c = 'I' ∨ c = 'i' then some .I
    else if c = 'J' ∨ c = 'j' then some .J
    else none
  | [] => none

structure Coordinates where
  newX : Rat
  newY : Rat
  I : Rat
  J : Rat

def Coordinates.set (c : Coordinates) (letter : Letter) (v : Rat) : Coordinates :=
  match letter with
  | .X => { c with newX := v }
  | .Y => { c with newY := v }
  | .I => { c with I := v }
  | .J => { c with J := v }

/-- The value of a word that begins with a letter: the rest of the word, or the next token `next`
of the stream. -/
def readValueAfterLetter (word : Text) (next : Option Text) : Except Text Rat :=
  let convert (value : Text) : Except Text Rat :=
    match stod (replaceComma value) with
    | some v => .ok v
    | none => .error (lit "Invalid numeric value: " ++ replaceComma value)
  if word.length > 1 then convert word.tail
  else match next with
    | none => .error (lit "Missing value after letter")
    | some value => convert value

def coordinateError (word e : Text) : Text :=
  lit "Failed to parse coordinate '" ++ word ++ lit "': " ++ e

/-- The loop of `parseCoordinates`; the list is the stream with its tokens still to be read. -/
def parseCoordinates : List Text → Coordinates → Except Text Coordinates
  | [], c => .ok c
  | word :: ss, c =>
    match letterOf word with
    | none => parseCoordinates ss c
    | some letter =>
      match readValueAfterLetter word ss.head? with
      | .error e => .error (coordinateError word e)
      | .ok v =>
        if word.length > 1 then parseCoordinates ss (c.set letter v)
        else match ss with
          -- the value was a token of its own and has been taken from the stream
          | _ :: ss' => parseCoordinates ss' (c.set letter v)
          | [] => .ok (c.set letter v)

def parseLine (line : Text) (lineNumber : Int) (currentPos : Point2D) :
    Except Text (Option Command) :=
  if line.isEmpty then .ok none
  else if line.head? = some ';' ∨ line.head? = some '(' then .ok none
  else
    let type := detectCommandType line
    if type = .None then .ok none
    else
      (parseCoordinates (tokens line) ⟨currentPos.x, currentPos.y, 0, 0⟩).map fun c =>
        some { type, lineNumber, originalLine := line
               endPosition := ⟨c.newX, c.newY⟩, arcCenter := ⟨c.I, c.J⟩ }

def parseLoop : List Text → (lineNumber recordIndex : Int) → (currentPosition : Point2D) →
    ParseResult → ParseResult
  | [], _, _, _, result => result
  | line :: rest, lineNumber, recordIndex, currentPosition, result =>
    let lineNumber := lineNumber + 1
    let line := stripEnd line
    if onlySpace line then parseLoop rest lineNumber recordIndex currentPosition result
    else
      match parseLine line lineNumber currentPosition with
      | .ok (some cmd) =>
        parseLoop rest lineNumber (recordIndex + 1) cmd.endPosition
          { result with commands := result.commands ++ [{ cmd with recordIndex := recordIndex }] }
      | .ok none => parseLoop rest lineNumber (recordIndex + 1) currentPosition result
      | .error e =>
        parseLoop rest lineNumber (recordIndex + 1) currentPosition
          { result with
            errorLines := result.errorLines ++ [lineNumber]
            errorMessages := result.errorMessages ++
              [lit "Line " ++ toText lineNumber ++ lit ": " ++ e] }

/-- What `parseFile` does once the file is open. -/
def parseContent (content : Text) : ParseResult :=
  if content.isEmpty then
    { errorMessages := [lit "Warning: File is empty"] }
  else
    let result := parseLoop (getlines content) 0 0 ⟨0, 0⟩ {}
    { result with success := result.errorLines.isEmpty }

def isValidFilePath (fs : FileSystem) (path : Text) : Except Text Bool :=
  (fs.status path).map (fun kind => kind == some .regular)

def parseFile (fs : FileSystem) (filename : Text) : Except Text ParseResult :=
  (isValidFilePath fs filename).map fun valid =>
    if !valid then
      { success := false, errorMessages := [lit "Invalid file path: " ++ filename] }
    else match fs.content filename with
      | none => { success := false, errorMessages := [lit "Cannot open file: " ++ filename] }
      | some content => parseContent content

theorem parseFile_of_content {fs : FileSystem} {filename content : Text}
    (hstatus : fs.status filename = .ok (some .regular))
    (hcontent : fs.content filename = some content) :
    parseFile fs filename = .ok (parseContent content) := by
  simp [parseFile, isValidFilePath, hstatus, hcontent, Except.map]

/-- The loop of `parseString`. -/
def parseStringLoop : List Text → (lineNumber : Int) → (currentPosition : Point2D) → ParseResult →
    ParseResult
  | [], _, _, result => result
  | line :: rest, lineNumber, currentPosition, result =>
    let lineNumber := lineNumber + 1
    match parseLine line lineNumber currentPosition with
    | .ok (some cmd) =>
      parseStringLoop rest lineNumber cmd.endPosition
        { result with commands := result.commands ++ [cmd] }
    | .ok none => parseStringLoop rest lineNumber currentPosition result
    | .error e =>
      parseStringLoop rest lineNumber currentPosition
        { result with
          errorLines := result.errorLines ++ [lineNumber]
          errorMessages := result.errorMessages ++
            [lit "Line " ++ toText lineNumber ++ lit ": " ++ e] }

def parseString (content : Text) : ParseResult :=
  let result := parseStringLoop (getlines content) 0 ⟨0, 0⟩ {}
  { result with success := result.errorLines.isEmpty }

section AnyConversion

variable (stod : Text → Option Rat)

def convertWith (value : Text) : Except Text Rat :=
  match stod (replaceComma value) with
  | some v => .ok v
  | none => .error (lit "Invalid numeric value: " ++ replaceComma value)

/-- `readValueAfterLetter` with any function for `std::stod`; below, the whole parser with it. -/
def readValueAfterLetterWith (word : Text) (next : Option Text) : Except Text Rat :=
  if word.length > 1 then convertWith stod word.tail
  else match next with
    | none => .error (lit "Missing value after letter")
    | some value => convertWith stod value

def parseCoordinatesWith : List Text → Coordinates → Except Text Coordinates
  | [], c => .ok c
  | word :: ss, c =>
    match letterOf word with
    | none => parseCoordinatesWith ss c
    | some letter =>
      match readValueAfterLetterWith stod word ss.head? with
      | .error e => .error (coordinateError word e)
      | .ok v =>
        if word.length > 1 then parseCoordinatesWith ss (c.set letter v)
        else match ss with
          | _ :: ss' => parseCoordinatesWith ss' (c.set letter v)
          | [] => .ok (c.set letter v)

def parseLineWith (line : Text) (lineNumber : Int) (currentPos : Point2D) :
    Except Text (Option Command) :=
  if line.isEmpty then .ok none
  else if line.head? = some ';' ∨ line.head? = some '(' then .ok none
  else
    let type := detectCommandType line
    if type = .None then .ok none
    else
      (parseCoordinatesWith stod (tokens line) ⟨currentPos.x, currentPos.y, 0, 0⟩).map fun c =>
        some { type, lineNumber, originalLine := line
               endPosition := ⟨c.newX, c.newY⟩, arcCenter := ⟨c.I, c.J⟩ }

def parseLoopWith : List Text → (lineNumber recordIndex : Int) → (currentPosition : Point2D) →
    ParseResult → ParseResult
  | [], _, _, _, result => result
  | line :: rest, lineNumber, recordIndex, currentPosition, result =>
    let lineNumber := lineNumber + 1
    let line := stripEnd line
    if onlySpace line then parseLoopWith rest lineNumber recordIndex currentPosition result
    else
      match parseLineWith stod line lineNumber currentPosition with
      | .ok (some cmd) =>
        parseLoopWith rest lineNumber (recordIndex + 1) cmd.endPosition
          { result with commands := result.commands ++ [{ cmd with recordIndex := recordIndex }] }
      | .ok none => parseLoopWith rest lineNumber (recordIndex + 1) currentPosition result
      | .error e =>
        parseLoopWith rest lineNumber (recordIndex + 1) currentPosition
          { result with
            errorLines := result.errorLines ++ [lineNumber]
            errorMessages := result.errorMessages ++
              [lit "Line " ++ toText lineNumber ++ lit ": " ++ e] }

def parseContentWith (content : Text) : ParseResult :=
  if content.isEmpty then
    { errorMessages := [lit "Warning: File is empty"] }
  else
    let result := parseLoopWith stod (getlines content) 0 0 ⟨0, 0⟩ {}
    { result with success := result.errorLines.isEmpty }

end AnyConversion

section Instance

theorem readValueAfterLetterWith_stod (word : Text) (next : Option Text) :
    readValueAfterLetterWith stod word next = readValueAfterLetter word next := rfl

theorem parseCoordinatesWith_stod (ss : List Text) (c : Coordinates) :
    parseCoordinatesWith stod ss c = parseCoordinates ss c := by
  induction ss, c using parseCoordinates.induct with
  | case1 c => rfl
  | case2 word ss c hl ih => simp only [parseCoordinatesWith, parseCoordinates, hl, ih]
  | case3 word ss c letter hl e hv =>
    simp only [parseCoordinatesWith, parseCoordinates, readValueAfterLetterWith_stod, hl, hv]
  | case4 word ss c letter hl v hv hw ih =>
    simp only [parseCoordinatesWith, parseCoordinates, readValueAfterLetterWith_stod, hl, hv, hw,
      if_true, ih]
  | case5 c word letter hl v hw x ss' hv ih =>
    simp only [parseCoordinatesWith, parseCoordinates, readValueAfterLetterWith_stod, hl, hv, hw,
      if_false, ih]
  | case6 c word letter hl v hw hv =>
    simp only [parseCoordinatesWith, parseCoordinates, readValueAfterLetterWith_stod, hl, hv, hw,
      if_false]

theorem parseLineWith_stod (line : Text) (lineNumber : Int) (currentPos : Point2D) :
    parseLineWith stod line lineNumber currentPos = parseLine line lineNumber currentPos := by
  simp only [parseLineWith, parseLine, parseCoordinatesWith_stod]

theorem parseLoopWith_stod (ls : List Text) (n i : Int) (p : Point2D) (r : ParseResult) :
    parseLoopWith stod ls n i p r = parseLoop ls n i p r := by
  induction ls generalizing n i p r with
  | nil => rfl
  | cons line rest ih => simp only [parseLoopWith, parseLoop, parseLineWith_stod, ih]

theorem parseContentWith_stod (content : Text) :
    parseContentWith stod content = parseContent content := by
  simp only [parseContentWith, parseContent, parseLoopWith_stod]

end Instance

section Words

/-- The values that the words of a line assign, in the order of the line. -/
def assignments : List Text → Except Text (List (Letter × Rat))
  | [] => .ok []
  | word :: ss =>
    match letterOf word with
    | none => assignments ss
    | some letter =>
      match readValueAfterLetter word ss.head? with
      | .error e => .error (coordinateError word e)
      | .ok v =>
        if word.length > 1 then (assignments ss).map ((letter, v) :: ·)
        else match ss with
          | _ :: ss' => (assignments ss').map ((letter, v) :: ·)
          | [] => .ok [(letter, v)]

def Coordinates.assign (c : Coordinates) (as : List (Letter × Rat)) : Coordinates :=
  as.foldl (fun c a => c.set a.1 a.2) c

theorem parseCoordinates_eq (ss : List Text) (c : Coordinates) :
    parseCoordinates ss c = (assignments ss).map c.assign := by
  induction ss, c using parseCoordinates.induct with
  | case1 c => rfl
  | case2 word ss c hl ih => simp [parseCoordinates, assignments, hl, ih]
  | case3 word ss c letter hl e hv => simp [parseCoordinates, assignments, hl, hv, Except.map]
  | case4 word ss c letter hl v hv hw ih =>
    simp only [parseCoordinates, assignments, hl, hv, hw, if_true, ih]
    cases assignments ss <;> rfl
  | case5 c word letter hl v hw x ss' hv ih =>
    simp only [parseCoordinates, assignments, hl, hv, hw, if_false, ih]
    cases assignments ss' <;> rfl
  | case6 c word letter hl v hw hv =>
    simp only [parseCoordinates, assignments, hl, hv, hw, if_false]
    rfl

/-- Whether a line yields a command does not depend on its number or on the position. -/
def YieldsCommand (line : Text) : Prop :=
  line ≠ [] ∧ line.head? ≠ some ';' ∧ line.head? ≠ some '(' ∧ detectCommandType line ≠ .None ∧
    ∃ as, assignments (tokens line) = .ok as

/-- The command that the values `as` of a line make. -/
def commandOf (line : Text) (n : Int) (p : Point2D) (as : List (Letter × Rat)) : Command :=
  let c := (Coordinates.mk p.x p.y 0 0).assign as
  { type := detectCommandType line, lineNumber := n, originalLine := line
    endPosition := ⟨c.newX, c.newY⟩, arcCenter := ⟨c.I, c.J⟩ }

theorem parseLine_of_not_comment {line : Text} {n : Int} {p : Point2D} (hne : line ≠ [])
    (hs : line.head? ≠ some ';') (hp : line.head? ≠ some '(')
    (ht : detectCommandType line ≠ .None) :
    parseLine line n p = (assignments (tokens line)).map (fun as => some (commandOf line n p as)) := by
  simp only [parseLine, List.isEmpty_iff, hne, hs, hp, ht, or_self, if_false, parseCoordinates_eq]
  cases assignments (tokens line) <;> rfl

theorem parseLine_eq_some {line : Text} {n : Int} {p : Point2D} {cmd : Command} :
    parseLine line n p = .ok (some cmd) ↔
      YieldsCommand line ∧ ∃ as, assignments (tokens line) = .ok as ∧ cmd = commandOf line n p as := by
  constructor
  · intro h
    have hne : line ≠ [] := by rintro rfl; simp [parseLine] at h
    have hs : line.head? ≠ some ';' := by intro hs; simp [parseLine, hs, hne] at h
    have hp : line.head? ≠ some '(' := by intro hp; simp [parseLine, hp, hne] at h
    have ht : detectCommandType line ≠ .None := by
      intro ht; simp [parseLine, hs, hp, ht] at h
    rw [parseLine_of_not_comment hne hs hp ht] at h
    cases ha : assignments (tokens line) with
    | error e => simp [ha, Except.map] at h
    | ok as =>
      rw [ha] at h
      refine ⟨⟨hne, hs, hp, ht, as, ha⟩, as, rfl, ?_⟩
      simpa [Except.map] using h.symm
  · rintro ⟨⟨hne, hs, hp, ht, -⟩, as, ha, rfl⟩
    rw [parseLine_of_not_comment hne hs hp ht, ha]
    rfl

theorem exists_parseLine_iff (line : Text) (n : Int) (p : Point2D) :
    (∃ cmd, parseLine line n p = .ok (some cmd)) ↔ YieldsCommand line := by
  constructor
  · rintro ⟨cmd, h⟩
    exact (parseLine_eq_some.mp h).1
  · intro h
    obtain ⟨as, ha⟩ := h.2.2.2.2
    exact ⟨commandOf line n p as, parseLine_eq_some.mpr ⟨h, as, ha, rfl⟩⟩

end Words

end Datenbereitstellung.GCodeParser
