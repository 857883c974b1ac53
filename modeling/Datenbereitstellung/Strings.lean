import Mathlib.Algebra.Group.Nat.Defs
import Mathlib.Data.Rat.Defs
import Datenbereitstellung.Lib.Words

namespace Datenbereitstellung.Strings

open Lib.Words

/-- A `std::string`: one `Char` below 256 for each byte. -/
abbrev Text := List Char

/-- A literal of the source, in its UTF-8 bytes. -/
def lit (s : String) : Text := s.toUTF8.toList.map (fun b => Char.ofNat b.toNat)

/-- `std::to_string` of an integer. -/
def toText (i : Int) : Text := (toString i).toList

/-- `std::isspace` and the blanks of `operator>>`, as the bytes of UTF-8 texts are classified. -/
def isspace (c : Char) : Bool :=
  c == ' ' || c == '\t' || c == '\n' || c == '\x0b' || c == '\x0c' || c == '\r'

/-- The lines that a loop of `std::getline` delivers. -/
def getlines (content : Text) : List Text := lines '\n' content

/-- The tokens that a loop of `ss >> token` delivers. -/
def tokens (line : Text) : List Text := words isspace line

/-- Carriage return, line feed, blank and tab: what both readers strip at the end of a line. -/
def isTrailing (c : Char) : Bool := c == '\r' || c == '\n' || c == ' ' || c == '\t'

def stripEnd (line : Text) : Text := line.rdropWhile isTrailing

def onlySpace (line : Text) : Bool := line.all isspace

theorem isspace_of_isTrailing (c : Char) (h : isTrailing c = true) : isspace c = true := by
  simp only [isTrailing, Bool.or_eq_true, beq_iff_eq] at h
  obtain ((rfl | rfl) | rfl) | rfl := h <;> decide

@[simp] theorem onlySpace_stripEnd (line : Text) : onlySpace (stripEnd line) = onlySpace line :=
  all_rdropWhile isspace_of_isTrailing line

/-- `std::replace(s.begin(), s.end(), ',', '.')`. -/
def replaceComma (s : Text) : Text := s.map (fun c => if c = ',' then '.' else c)

section Numbers

def digitValue (base : Nat) (c : Char) : Option Nat :=
  let v := if '0' ≤ c ∧ c ≤ '9' then some (c.toNat - '0'.toNat)
    else if 'a' ≤ c ∧ c ≤ 'f' then some (c.toNat - 'a'.toNat + 10)
    else if 'A' ≤ c ∧ c ≤ 'F' then some (c.toNat - 'A'.toNat + 10)
    else none
  v.filter (· < base)

/-- The leading digits, and what follows them. -/
def digits (base : Nat) : Text → List Nat × Text
  | [] => ([], [])
  | c :: s =>
    match digitValue base c with
    | some d => (d :: (digits base s).1, (digits base s).2)
    | none => ([], c :: s)

def ofDigits (base : Nat) (ds : List Nat) : Nat := ds.foldl (fun n d => n * base + d) 0

/-- Digits with at most one point among them: their value as an integer, the number of
digits behind the point, and the rest. -/
def mantissa (base : Nat) (s : Text) : Option (Nat × Nat × Text) :=
  let (whole, r) := digits base s
  let (fraction, rest) := match r with
    | '.' :: r' => digits base r'
    | _ => ([], r)
  if whole.isEmpty && fraction.isEmpty then none
  else some (ofDigits base (whole ++ fraction), fraction.length, rest)

/-- An exponent, `0` where none can be read. -/
def exponent (marks : List Char) : Text → Int
  | c :: s =>
    if c ∈ marks then
      match s with
      | '-' :: s' => -(ofDigits 10 (digits 10 s').1 : Int)
      | '+' :: s' => ofDigits 10 (digits 10 s').1
      | _ => ofDigits 10 (digits 10 s).1
    else 0
  | [] => 0

def power (base : Nat) (e : Int) : Rat :=
  if 0 ≤ e then mkRat ((base ^ e.toNat : Nat) : Int) 1 else mkRat 1 (base ^ (-e).toNat)

def number (base expBase : Nat) (marks : List Char) (s : Text) : Option Rat :=
  (mantissa base s).map fun (m, f, rest) =>
    (m : Rat) * power base (-(f : Int)) * power expBase (exponent marks rest)

/-- `std::stod` over exact numbers: the value of the longest numeric prefix, decimal or
hexadecimal; `none` where there is none. Without rounding there is no `inf` or `nan`, and no range to
leave. -/
def stod (s : Text) : Option Rat :=
  let s := s.dropWhile isspace
  let (negative, s) := match s with
    | '-' :: r => (true, r)
    | '+' :: r => (false, r)
    | _ => (false, s)
  let v := match s with
    | '0' :: x :: r =>
      if x = 'x' ∨ x = 'X' then some ((number 16 2 ['p', 'P'] r).getD 0)
      else number 10 10 ['e', 'E'] s
    | _ => number 10 10 ['e', 'E'] s
  v.map (fun v => if negative then -v else v)

example : stod ['-', '1', '2', '.', '5', 'a'] = some (-25 / 2) := by decide +kernel

end Numbers

end Datenbereitstellung.Strings
