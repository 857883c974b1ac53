import Datenbereitstellung.GCodeParser
import Datenbereitstellung.ProjectFileReader

namespace Datenbereitstellung.RecordNumbering

open Strings Files GCodeParser ProjectFileReader

/-- The commands `cs` stand for the data lines of `ls`, numbered from `i` on. -/
structure Numbered (ls : List Text) (i : Int) (cs : List Command) : Prop where
  line_of : ∀ c ∈ cs, ∃ j : Nat, c.recordIndex = i + j ∧
    (dataLines ls)[j]? = some c.originalLine ∧ YieldsCommand c.originalLine
  command_of : ∀ (j : Nat) (l : Text), (dataLines ls)[j]? = some l → YieldsCommand l →
    ∃ c ∈ cs, c.recordIndex = i + j

theorem Numbered.nil (i : Int) : Numbered [] i [] where
  line_of := by simp
  command_of := by simp [dataLines]

theorem Numbered.blank {l : Text} (hl : onlySpace l = true) {ls : List Text} {i : Int}
    {cs : List Command} (h : Numbered ls i cs) : Numbered (l :: ls) i cs where
  line_of := by rw [dataLines_cons_blank hl]; exact h.line_of
  command_of := by rw [dataLines_cons_blank hl]; exact h.command_of

theorem Numbered.shift {l : Text} (hl : onlySpace l = false) {ls : List Text} {i : Int}
    {cs : List Command} (h : Numbered ls (i + 1) cs) :
    ∀ c ∈ cs, ∃ j : Nat, c.recordIndex = i + j ∧
      (dataLines (l :: ls))[j]? = some c.originalLine ∧ YieldsCommand c.originalLine := by
  intro c hc
  obtain ⟨j, hj, hline, hy⟩ := h.line_of c hc
  refine ⟨j + 1, by rw [hj]; push_cast; ring, ?_, hy⟩
  rw [dataLines_cons_data hl]
  simpa using hline

theorem Numbered.skip {l : Text} (hl : onlySpace l = false) (hy : ¬YieldsCommand (stripEnd l))
    {ls : List Text} {i : Int} {cs : List Command} (h : Numbered ls (i + 1) cs) :
    Numbered (l :: ls) i cs where
  line_of := h.shift hl
  command_of := by
    intro j m hj hm
    rw [dataLines_cons_data hl] at hj
    cases j with
    | zero =>
      simp only [List.getElem?_cons_zero, Option.some.injEq] at hj
      exact (hy (hj ▸ hm)).elim
    | succ j =>
      obtain ⟨c, hc, he⟩ := h.command_of j m (by simpa using hj) hm
      exact ⟨c, hc, by rw [he]; push_cast; ring⟩

theorem Numbered.command {l : Text} (hl : onlySpace l = false) {ls : List Text} {i : Int}
    {cs : List Command} (h : Numbered ls (i + 1) cs) {c : Command} (hi : c.recordIndex = i)
    (hc : c.originalLine = stripEnd l) (hy : YieldsCommand (stripEnd l)) :
    Numbered (l :: ls) i (c :: cs) where
  line_of := by
    intro d hd
    obtain rfl | hd := List.mem_cons.mp hd
    · exact ⟨0, by simp [hi], by simp [dataLines_cons_data hl, hc], hc ▸ hy⟩
    · exact h.shift hl d hd
  command_of := by
    intro j m hj hm
    rw [dataLines_cons_data hl] at hj
    cases j with
    | zero => exact ⟨c, by simp, by simp [hi]⟩
    | succ j =>
      obtain ⟨d, hd, he⟩ := h.command_of j m (by simpa using hj) hm
      exact ⟨d, by simp [hd], by rw [he]; push_cast; ring⟩

theorem parseLoop_numbered (ls : List Text) (n i : Int) (p : Point2D) (r : ParseResult) :
    ∃ cs, (parseLoop ls n i p r).commands = r.commands ++ cs ∧ Numbered ls i cs := by
  induction ls generalizing n i p r with
  | nil => exact ⟨[], by simp [parseLoop], Numbered.nil i⟩
  | cons l ls ih =>
    cases hl : onlySpace l with
    | true =>
      obtain ⟨cs, hcs, hn⟩ := ih (n + 1) i p r
      exact ⟨cs, by simpa [parseLoop, hl] using hcs, hn.blank hl⟩
    | false =>
      simp only [parseLoop, onlySpace_stripEnd, hl, Bool.false_eq_true, if_false]
      have hy := exists_parseLine_iff (stripEnd l) (n + 1) p
      cases hp : parseLine (stripEnd l) (n + 1) p with
      | error e =>
        obtain ⟨cs, hcs, hn⟩ := ih (n + 1) (i + 1) p
          { r with
            errorLines := r.errorLines ++ [n + 1]
            errorMessages := r.errorMessages ++ [lit "Line " ++ toText (n + 1) ++ lit ": " ++ e] }
        exact ⟨cs, hcs, hn.skip hl fun h => by simpa [hp] using hy.mpr h⟩
      | ok o =>
        cases o with
        | none =>
          obtain ⟨cs, hcs, hn⟩ := ih (n + 1) (i + 1) p r
          exact ⟨cs, hcs, hn.skip hl fun h => by simpa [hp] using hy.mpr h⟩
        | some cmd =>
          obtain ⟨cs, hcs, hn⟩ := ih (n + 1) (i + 1) cmd.endPosition
            { r with commands := r.commands ++ [{ cmd with recordIndex := i }] }
          obtain ⟨-, as, -, rfl⟩ := parseLine_eq_some.mp hp
          exact ⟨_, by simpa using hcs, hn.command hl rfl rfl (hy.mp ⟨_, hp⟩)⟩

theorem parseContent_numbered (content : Text) :
    Numbered (getlines content) 0 (parseContent content).commands := by
  rw [parseContent]
  cases content with
  | nil => exact Numbered.nil 0
  | cons c content =>
    obtain ⟨cs, hcs, hn⟩ := parseLoop_numbered (getlines (c :: content)) 0 0 ⟨0, 0⟩ {}
    simp only [List.isEmpty_cons, Bool.false_eq_true, if_false, hcs, List.nil_append]
    exact hn

/-- The first `m` blocks one after the other, as `transferProjectData` reads them. -/
def sentRecords (content : Text) (blockSize m : Nat) : List Text :=
  (List.range m).flatMap (fun k => readDataBlock content (k : Nat) blockSize)

/-- Some number of blocks holds the line at the index `i`. -/
def Sent (content : Text) (blockSize : Nat) (i : Int) (line : Text) : Prop :=
  0 ≤ i ∧ ∃ m, (sentRecords content blockSize m)[i.toNat]? = some line

theorem sent_iff (content : Text) {B : Nat} (hB : 1 ≤ B) (j : Nat) (line : Text) :
    Sent content B j line ↔ (records content)[j]? = some line := by
  simp only [Sent, sentRecords]
  simp only [flatMap_readDataBlock content B hB, Int.toNat_natCast, Int.natCast_nonneg, true_and]
  constructor
  · rintro ⟨m, h⟩
    rw [List.getElem?_take] at h
    split at h
    · exact h
    · cases h
  · intro h
    refine ⟨j + 1, ?_⟩
    rw [List.getElem?_take, if_pos, h]
    calc j < (j + 1) * 1 := by omega
      _ ≤ (j + 1) * B := Nat.mul_le_mul_left _ hB

/-- The header line carries no data, or there is no line at all. -/
def HeaderBlank (content : Text) : Prop := ∀ l ∈ (getlines content).head?, onlySpace l = true

theorem dataLines_of_headerBlank {content : Text} (h : HeaderBlank content) :
    dataLines (getlines content) = records content := by
  unfold HeaderBlank at h
  rw [records]
  cases hl : getlines content with
  | nil => rfl
  | cons l ls => exact dataLines_cons_blank (h l (by simp [hl])) ls

theorem dataLines_of_not_headerBlank {content : Text} (h : ¬HeaderBlank content) :
    ∃ header, dataLines (getlines content) = header :: records content := by
  unfold HeaderBlank at h
  rw [records]
  cases hl : getlines content with
  | nil => simp [hl] at h
  | cons l ls =>
    have hb : onlySpace l = false := by simpa [hl] using h
    exact ⟨stripEnd l, dataLines_cons_data hb ls⟩

/-- A list that is its own shift cannot hold a line with `P`, since there is a last one. -/
theorem not_mem_of_shifted {α : Type} {P : α → Prop} (x : α) (xs : List α)
    (h : ∀ (j : Nat) (l : α), (x :: xs)[j]? = some l → P l → xs[j]? = some l) :
    ∀ l ∈ x :: xs, ¬P l := by
  have key : ∀ (d j : Nat), xs.length = d + j → ∀ l, (x :: xs)[j]? = some l → ¬P l := by
    intro d
    induction d with
    | zero =>
      intro j hj l hl hP
      have hs := h j l hl hP
      simp [List.getElem?_eq_none (by omega : xs.length ≤ j)] at hs
    | succ d ih =>
      intro j hj l hl hP
      exact ih (j + 1) (by omega) l (by simpa using h j l hl hP) hP
  intro l hl
  obtain ⟨j, hj⟩ := List.mem_iff_getElem?.mp hl
  have hlt : j < (x :: xs).length := (List.getElem?_eq_some_iff.mp hj).1
  simp only [List.length_cons] at hlt
  exact key (xs.length - j) j (by omega) l hj

/-- The numbers of the parser are those of the sent records exactly if the header line is not
counted by the parser either, or nothing is numbered at all. -/
theorem recordIndex_sent_iff (content : Text) (B : Nat) (hB : 1 ≤ B) :
    (∀ c ∈ (parseContent content).commands, Sent content B c.recordIndex c.originalLine) ↔
      HeaderBlank content ∨ ∀ l ∈ dataLines (getlines content), ¬YieldsCommand l := by
  have hn := parseContent_numbered content
  have hsent : ∀ c ∈ (parseContent content).commands, ∀ j : Nat, c.recordIndex = 0 + j →
      (Sent content B c.recordIndex c.originalLine ↔
        (records content)[j]? = some c.originalLine) := by
    intro c _ j hj
    rw [hj, zero_add]
    exact sent_iff content hB j c.originalLine
  constructor
  · intro h
    by_cases hb : HeaderBlank content
    · exact .inl hb
    · right
      obtain ⟨header, hd⟩ := dataLines_of_not_headerBlank hb
      rw [hd]
      apply not_mem_of_shifted
      intro j l hj hy
      rw [← hd] at hj
      obtain ⟨c, hc, hi⟩ := hn.command_of j l hj hy
      obtain ⟨j', hi', hline, -⟩ := hn.line_of c hc
      have hjj : j' = j := by omega
      have hl : c.originalLine = l := by
        rw [hjj, hj] at hline
        exact (Option.some.inj hline).symm
      rw [← hl]
      exact (hsent c hc j hi).mp (h c hc)
  · rintro (hb | hno) c hc
    · obtain ⟨j, hi, hline, -⟩ := hn.line_of c hc
      rw [dataLines_of_headerBlank hb] at hline
      exact (hsent c hc j hi).mpr hline
    · obtain ⟨j, -, hline, hy⟩ := hn.line_of c hc
      exact (hno _ (List.mem_of_getElem? hline) hy).elim

/-- The lines `(H)` and `G1 X1`: a header and one record. -/
def headerFile : Text := ['(', 'H', ')', '\n', 'G', '1', ' ', 'X', '1', '\n']

theorem recordIndex_sent_headerFile : ¬∀ (content : Text) (B : Nat), 1 ≤ B →
    ∀ c ∈ (parseContent content).commands, Sent content B c.recordIndex c.originalLine := by
  intro h
  have hc : (parseContent headerFile).commands =
      [{ type := .G01, endPosition := ⟨1, 0⟩, arcCenter := ⟨0, 0⟩, lineNumber := 2
         recordIndex := 1, originalLine := ['G', '1', ' ', 'X', '1'] }] := by decide +kernel
  have hs := h headerFile 1 le_rfl
  rw [hc] at hs
  have hl := (sent_iff headerFile le_rfl 1 _).mp (hs _ (List.mem_singleton.mpr rfl))
  have hr : records headerFile = [['G', '1', ' ', 'X', '1']] := by decide +kernel
  rw [hr] at hl
  cases hl

/-- An empty line and the line `G1 X1`. -/
def blankHeaderFile : Text := ['\n', 'G', '1', ' ', 'X', '1', '\n']

theorem recordIndex_sent_blankHeaderFile :
    Sent blankHeaderFile 3 0 ['G', '1', ' ', 'X', '1'] := by
  have hc : (parseContent blankHeaderFile).commands =
      [{ type := .G01, endPosition := ⟨1, 0⟩, arcCenter := ⟨0, 0⟩, lineNumber := 2
         recordIndex := 0, originalLine := ['G', '1', ' ', 'X', '1'] }] := by decide +kernel
  have hb : HeaderBlank blankHeaderFile := by
    have hl : (getlines blankHeaderFile).head? = some [] := by decide +kernel
    simp [HeaderBlank, hl, onlySpace]
  have h := (recordIndex_sent_iff blankHeaderFile 3 (by decide)).mpr (.inl hb)
  rw [hc] at h
  exact h _ (List.mem_singleton.mpr rfl)

end Datenbereitstellung.RecordNumbering
