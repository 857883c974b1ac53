import Datenbereitstellung.ProjectManager

namespace Datenbereitstellung.Handshake

open Strings Files OpcUa ProjectManager Lib.Program Lib.Rely
open ProjectFileReader (countRecords)

variable {π : Type}

section View

/-- The answers that decide what is transferred, oldest first. -/
structure View where
  names : List (Reading Text) := []
  statuses : List (Except Text (Option FileKind)) := []
  contents : List (Text × Option Text) := []
  renders : List (Except Text Int) := []
  published : List (Except Text Unit) := []

def View.add (v : View) : (q : Req) → Ans q → View
  | .readProjektName, a => { v with names := v.names ++ [a] }
  | .status _, a => { v with statuses := v.statuses ++ [a] }
  | .openFile path, a => { v with contents := v.contents ++ [(path, a)] }
  | .renderPreview _ _, a => { v with renders := v.renders ++ [a] }
  | .publishImage, a => { v with published := v.published ++ [a] }
  | _, _ => v

def view : List Event → View
  | [] => {}
  | .call q a :: log => (view log).add q a
  | .consumed _ _ :: log => view log

def Named (r : Reading Text) : Prop := r.success = true ∧ r.value ≠ []

/-- The first lookup found the project, its records were counted and its picture was made. -/
structure Shown (cfg : Config) (v : View) (r : Reading Text) (content : Text) : Prop where
  named : Named r
  found : ∃ kind, v.statuses.head? = some (.ok (some kind))
  counted : v.contents.head? = some (projectPath cfg.folderPath r.value, some content)
  rendered : ∃ code, v.renders = [.ok code]
  published : ∀ p ∈ v.published, p = .ok ()

structure Looked (cfg : Config) (v : View) (r₁ r₂ : Reading Text) (content₁ : Text) : Prop where
  shown : Shown cfg v r₁ content₁
  count_ne : toInt32 (countRecords content₁) ≠ 0
  named : Named r₂
  names : v.names = [r₁, r₂]

def Found (cfg : Config) (v : View) (r₂ : Reading Text) : Prop :=
  ∃ s₁ kind c₁ content₂ rest, v.statuses = [s₁, .ok (some kind)] ∧
    v.contents = c₁ :: (projectPath cfg.folderPath r₂.value, some content₂) :: rest

def Thrown (v : View) : Prop := ∃ s₁ e, v.statuses = [s₁, .error e]

/-- The transfer gets as far as writing flags. -/
def Engages (cfg : Config) (v : View) : Prop :=
  ∃ r₁ r₂ content₁, Looked cfg v r₁ r₂ content₁ ∧ (Found cfg v r₂ ∨ Thrown v)

def Prepared (cfg : Config) (v : View) (t : Transfer) : Prop :=
  ∃ r₁ r₂ content₁, Looked cfg v r₁ r₂ content₁ ∧ Found cfg v r₂ ∧
    t.filePath = projectPath cfg.folderPath r₂.value ∧
    t.anzBlocke = blockCount (toInt32 (countRecords content₁)) cfg.lenDataArray

end View

section Machine

/-- Where the transfer stands between two calls that matter to the PLC. -/
inductive Pc
  | prelude
  | prepared (t : Transfer)
  | published (t : Transfer)
  | opening (t : Transfer) (flag : Nat)
  | waiting (t : Transfer)
  | granted (t : Transfer)
  | cleared (t : Transfer)
  | indexed (t : Transfer)
  | loaded (t : Transfer) (block : List Text)
  | patching (t : Transfer) (block : List Text) (array : StringArray)
  | filled (t : Transfer)
  | sent (t : Transfer)
  | acking (t : Transfer)
  | acked (t : Transfer)
  | cancelling (t : Transfer)
  | closing (result : Bool) (flag : Nat)
  | done (result : Bool)

def Quiet : Req → Prop
  | .writeBool n _ => n = .Error
  | .writeInt16 n _ => n = .StatusCode
  | .writeStrings _ _ => False
  | .readProjektName | .status _ | .openFile _ | .renderPreview _ _ | .publishImage => False
  | _ => True

def Preliminary : Req → Prop
  | .writeBool n _ => n = .Error ∨ n = .ProjektVorhanden
  | .writeInt16 n _ => n ≠ .IndexData
  | .writeStrings _ _ => False
  | _ => True

theorem preliminary_of_quiet {q : Req} (hq : Quiet q) : Preliminary q := by
  cases q with
  | writeBool n v => exact .inl hq
  | writeInt16 n v =>
    obtain rfl : n = .StatusCode := hq
    simp [Preliminary]
  | writeStrings n v => exact hq
  | _ => trivial

def Fits (a : Reading StringArray) (block : List Text) : Prop :=
  a.success = true ∧ ¬(0 + 1 > (dims a.value).1 ∨ 0 + block.length > (dims a.value).2)

/-- One call of the transfer, as a step of the handshake. -/
inductive Trans (cfg : Config) : Pc → (q : Req) → Ans q → Pc → Prop
  | quiet (pc : Pc) {q : Req} (h : Quiet q) (a : Ans q) : Trans cfg pc q a pc
  | look {q : Req} (h : Preliminary q) (a : Ans q) : Trans cfg .prelude q a .prelude
  | publish (t : Transfer) (a : Written) : Trans cfg (.prepared t)
      (.writeInt16 .AnzDatenblöcke (toInt16 t.anzBlocke)) a (.published t)
  | reset (t : Transfer) (a : Written) :
      Trans cfg (.published t) (.writeInt16 .IndexData 0) a (.opening t 0)
  | openWriteData (t : Transfer) (a : Written) :
      Trans cfg (.opening t 0) (.writeBool .WriteData false) a (.opening t 1)
  | openReadData (t : Transfer) (a : Written) :
      Trans cfg (.opening t 1) (.writeBool .ReadData true) a (.opening t 2)
  | openBeendet (t : Transfer) (a : Written) :
      Trans cfg (.opening t 2) (.writeBool .UebertgarungBeendet false) a (.opening t 3)
  | threshold (t : Transfer) (a : Reading Rat) : Trans cfg (.opening t 3) .readMinArcRadius a
      (.waiting { t with arcThreshold := if a.success then a.value else 0 })
  | tick (t : Transfer) (a : Nat) :
      Trans cfg (.waiting t) .now a (.waiting { t with lastProgress := a })
  | grant (t : Transfer) {a : Reading Bool} (hs : a.success = true) (hv : a.value = true) :
      Trans cfg (.waiting t) (.readBool .ReadData) a (.granted t)
  | clear (t : Transfer) (a : Written) :
      Trans cfg (.granted t) (.writeBool .ReadData false) a (.cleared t)
  | index (t : Transfer) (a : Written) : Trans cfg (.cleared t)
      (.writeInt16 .IndexData (toInt16 (t.currentBlock + 1))) a (.indexed t)
  | load (t : Transfer) (content : Text) : Trans cfg (.indexed t) (.openFile t.filePath)
      (some content) (.loaded t (blockLines cfg t content))
  | lose (t : Transfer) : Trans cfg (.indexed t) (.openFile t.filePath) none (.closing false 0)
  | fetch (t : Transfer) {block : List Text} {a : Reading StringArray} (h : Fits a block) :
      Trans cfg (.loaded t block) (.readStrings .DataArray) a (.patching t block a.value)
  | misfit (t : Transfer) {block : List Text} {a : Reading StringArray}
      (h : ¬Fits a block ∨ a.value.elements.length = 0) :
      Trans cfg (.loaded t block) (.readStrings .DataArray) a (.closing true 0)
  | fill (t : Transfer) (block : List Text) (v : StringArray) {a : Written}
      (hs : a.success = true) : Trans cfg (.patching t block v)
        (.writeStrings .DataArray (v.patched 0 0 [block] block.length)) a (.filled t)
  | spill (t : Transfer) (block : List Text) (v : StringArray) {a : Written}
      (hs : ¬a.success = true) : Trans cfg (.patching t block v)
        (.writeStrings .DataArray (v.patched 0 0 [block] block.length)) a (.closing true 0)
  | announce (t : Transfer) (a : Written) : Trans cfg (.filled t) (.writeBool .WriteData true) a
      (.sent { t with currentBlock := t.currentBlock + 1 })
  | sentTick (t : Transfer) (a : Nat) :
      Trans cfg (.sent t) .now a (.sent { t with lastProgress := a })
  | abort (t : Transfer) {a : Reading Bool} (hs : a.success = true) (hv : a.value = true) :
      Trans cfg (.waiting t) (.readBool .ubertragenAbbrechen) a (.cancelling t)
  | cancel (t : Transfer) (a : Written) :
      Trans cfg (.cancelling t) (.writeBool .ubertragenAbbrechen false) a (.closing true 0)
  | dead (t : Transfer) : Trans cfg (.waiting t) .keepAlive false (.closing true 0)
  | expired (t : Transfer) (n : Nat) :
      Trans cfg (.waiting t) (.handshakeExpired n) true (.closing true 0)
  | complete (t : Transfer) (h : t.currentBlock ≥ t.anzBlocke) (text : Text) (n : Nat)
      (a : Written) : Trans cfg (.waiting t) (.writeInfoText text n) a (.acking t)
  | sentAll (t : Transfer) (h : t.currentBlock ≥ t.anzBlocke) (text : Text) (n : Nat)
      (a : Written) : Trans cfg (.sent t) (.writeInfoText text n) a (.acking t)
  | ackLate (t : Transfer) (n : Nat) : Trans cfg (.acking t) (.ackExpired n) true (.closing true 0)
  | ackDead (t : Transfer) : Trans cfg (.acking t) .keepAlive false (.closing true 0)
  | ackCleared (t : Transfer) {a : Reading Bool} (hs : a.success = true) (hv : a.value = false) :
      Trans cfg (.acking t) (.readBool .WriteData) a (.closing true 0)
  | ackRead (t : Transfer) {a : Reading Bool} (hs : a.success = true) (hv : a.value = true) :
      Trans cfg (.acking t) (.readBool .ReadData) a (.acked t)
  | ackClear (t : Transfer) (a : Written) :
      Trans cfg (.acked t) (.writeBool .ReadData false) a (.closing true 0)
  | closeWriteData (b : Bool) (a : Written) :
      Trans cfg (.closing b 0) (.writeBool .WriteData false) a (.closing b 1)
  | closeReadData (b : Bool) (a : Written) :
      Trans cfg (.closing b 1) (.writeBool .ReadData false) a (.closing b 2)
  | closeBeendet (b : Bool) (a : Written) :
      Trans cfg (.closing b 2) (.writeBool .UebertgarungBeendet true) a (.done b)

variable (cfg : Config) (allow : World π → (q : Req) → Ans q → Prop)
variable (rely : World π → World π → Prop)

/-- The runs of the handshake, interleaved with what the others do. -/
inductive Run (w₀ : World π) : Pc → World π → Prop
  | init : Run w₀ .prelude w₀
  | others {pc : Pc} {w w' : World π} (h : Run w₀ pc w) (hr : rely w w') : Run w₀ pc w'
  | call {pc pc' : Pc} {w : World π} {q : Req} {a : Ans q} (h : Run w₀ pc w)
      (ht : Truthful w q a) (ha : allow w q a) (hs : Trans cfg pc q a pc') : Run w₀ pc' (w.after q a)
  | prepare {w : World π} {t : Transfer} (h : Run w₀ .prelude w)
      (hp : Prepared cfg (view w.log) t) (hz : t.currentBlock = 0) : Run w₀ (.prepared t) w
  | resume {w : World π} {t : Transfer} (h : Run w₀ (.sent t) w)
      (hn : ¬t.currentBlock ≥ t.anzBlocke) : Run w₀ (.waiting t) w
  | fail {w : World π} (h : Run w₀ .prelude w)
      (hf : ∃ r₁ r₂ content₁, Looked cfg (view w.log) r₁ r₂ content₁ ∧ Thrown (view w.log)) :
      Run w₀ (.closing false 0) w

end Machine

end Datenbereitstellung.Handshake
