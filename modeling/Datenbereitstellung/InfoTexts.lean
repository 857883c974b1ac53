import Datenbereitstellung.ProjectManager

namespace Datenbereitstellung.InfoTexts

open Strings OpcUa Lib.Program
open ProjectManager (toSize pushErrorMessage pushInfo)

section Client

/-- The value of a string node; `none` is a value of another type. -/
abbrev Node := Option Text

/-- How the calls of `writeChars` end. -/
structure Calls where
  malloc : Bool := true
  write : Bool := true

/-- The byte at a place from the beginning of a C string on: its own bytes, the NUL, and what lies
behind it in the memory. -/
def byteAt (s : Text) (beyond : Nat → Char) (place : Nat) : Char :=
  if h : place < s.length then s[place]
  else if place = s.length then '\x00' else beyond (place - s.length - 1)

/-- `OPCClient::writeChars`, with the places of the C string that `memcpy` reads. The server stores
what a successful write sends, and nothing on a failed one. -/
def writeChars (beyond : Nat → Char) (isNull : Bool) (calls : Calls) (node : Node)
    (valueToWrite : Text) (length : Int) : Written × Node × List Nat :=
  if !calls.malloc then (⟨false, 1⟩, node, [])
  else
    let places := List.range (toSize length)
    let data := places.map (byteAt valueToWrite beyond)
    let uaStr := data.take (length % 2 ^ 32).toNat
    if isNull then (⟨false, 1⟩, node, places)
    else if calls.write then (⟨true, 0⟩, some uaStr, places)
    else (⟨false, 2⟩, node, places)

def readString (client isNull read : Bool) (node : Node) : Reading Text :=
  if !client then ⟨[], false, 1⟩
  else if isNull then ⟨[], false, 2⟩
  else if !read then ⟨[], false, 3⟩
  else match node with
    | some value => ⟨value, true, 0⟩
    | none => ⟨[], false, 5⟩

end Client

section Copies

variable {s : Text} {beyond : Nat → Char} {n : Nat}

theorem map_byteAt (h : n ≤ s.length) : (List.range n).map (byteAt s beyond) = s.take n := by
  apply List.ext_getElem
  · simp [h]
  intro place hplace hplace'
  have hlt : place < s.length := by
    rw [List.length_take] at hplace'
    omega
  rw [List.getElem_map, List.getElem_range, List.getElem_take, byteAt, dif_pos hlt]

theorem writeChars_natCast (isNull : Bool) (calls : Calls) (node : Node) (hn : n < 2 ^ 31) :
    writeChars beyond isNull calls node s n =
      if !calls.malloc then (⟨false, 1⟩, node, [])
      else if isNull then (⟨false, 1⟩, node, List.range n)
      else if calls.write then
        (⟨true, 0⟩, some ((List.range n).map (byteAt s beyond)), List.range n)
      else (⟨false, 2⟩, node, List.range n) := by
  have hsize : toSize (n : Int) = n := by
    rw [toSize]
    omega
  have hlength : ((n : Int) % 2 ^ 32).toNat = n := by omega
  have htake : ((List.range n).map (byteAt s beyond)).take n =
      (List.range n).map (byteAt s beyond) := by
    apply List.take_of_length_le
    rw [List.length_map, List.length_range]
  simp only [writeChars, hsize, hlength, htake]

end Copies

section Statement

/-- What was written is read, up to the given length, and no byte behind the terminator of the C
string was touched for that. -/
def ReadsBack (beyond : Nat → Char) (s : Text) (n : Nat) : Prop :=
  ∀ (isNull : Bool) (calls : Calls) (node node' : Node) (places : List Nat),
    writeChars beyond isNull calls node s n = (⟨true, 0⟩, node', places) →
    readString true isNull true node' = ⟨if s.length ≤ n then s else s.take n, true, 0⟩ ∧
      ∀ place ∈ places, place ≤ s.length

/-- The PLC is shown the text of a write to `Info_Text`. -/
def Shown (beyond : Nat → Char) : Req → Prop
  | .writeInfoText text length => ReadsBack beyond text length
  | _ => True

variable {beyond : Nat → Char} {s : Text} {n : Nat}

theorem readsBack_of_le (hn : n < 2 ^ 31) (h : n ≤ s.length) : ReadsBack beyond s n := by
  intro isNull calls node node' places hwrite
  rw [writeChars_natCast isNull calls node hn, map_byteAt h] at hwrite
  have hexpected : (if s.length ≤ n then s else s.take n) = s.take n := by
    split
    · exact (List.take_of_length_le ‹_›).symm
    · rfl
  rw [hexpected]
  split at hwrite
  · simp at hwrite
  split at hwrite
  · simp at hwrite
  split at hwrite
  · rename_i hnull _
    simp only [Prod.mk.injEq, true_and] at hwrite
    obtain ⟨rfl, rfl⟩ := hwrite
    constructor
    · simp [readString, hnull]
    · intro place hplace
      exact ((List.mem_range.mp hplace).trans_le h).le
  · simp at hwrite

theorem le_of_readsBack (hn : n < 2 ^ 31) (h : ReadsBack beyond s n) : n ≤ s.length := by
  by_contra hlt
  obtain ⟨hread, -⟩ := h false {} none _ _ (writeChars_natCast false {} none hn)
  rw [if_pos (by omega)] at hread
  have hvalue := congrArg (fun r : Reading Text => r.value.length) hread
  simp [readString] at hvalue
  omega

/-- A text comes back exactly if it is at least as long as the length that is given for it. No
message of less than 255 bytes is shown as it is. -/
theorem readsBack_iff (beyond : Nat → Char) (s : Text) :
    (∀ n < 2 ^ 31, ReadsBack beyond s n ↔ n ≤ s.length) ∧
      (∀ code, (pushErrorMessage s code).Only (Shown beyond) ↔ 255 ≤ s.length) ∧
      ((pushInfo s).Only (Shown beyond) ↔ 255 ≤ s.length) := by
  have hback : ∀ n < 2 ^ 31, ReadsBack beyond s n ↔ n ≤ s.length :=
    fun n hn => ⟨le_of_readsBack hn, readsBack_of_le hn⟩
  refine ⟨hback, fun code => ?_, ?_⟩
  · rw [← hback 255 (by decide)]
    constructor
    · intro h
      exact (h.2 ⟨true, 0⟩).1
    · intro h
      refine ⟨trivial, fun error => ⟨h, fun message => ⟨trivial, fun status => ?_⟩⟩⟩
      simp only [Prog.bind]
      split
      · trivial
      · trivial
  · rw [← hback 255 (by decide)]
    constructor
    · intro h
      exact h.1
    · intro h
      exact ⟨h, fun _ => trivial⟩

theorem readsBack_oneByte : ReadsBack (fun _ => 'x') ['a'] 1 :=
  ((readsBack_iff (fun _ => 'x') ['a']).1 1 (by decide)).mpr (by decide)

/-- `Moin Moin!` -/
def greeting : Text := ['M', 'o', 'i', 'n', ' ', 'M', 'o', 'i', 'n', '!']

theorem not_readsBack_greeting : ¬∀ (beyond : Nat → Char) (s : Text) (n : Nat), '\x00' ∉ s →
    n < 2 ^ 31 → ReadsBack beyond s n := by
  intro h
  have hback := h (fun _ => 'x') greeting 255 (by decide) (by decide)
  obtain ⟨-, hplaces⟩ := hback false {} none _ _ rfl
  have hplace : 254 ≤ greeting.length := hplaces 254 (List.mem_range.mpr (by decide))
  exact absurd hplace (by decide)

end Statement

end Datenbereitstellung.InfoTexts
