import Mathlib.Algebra.Group.Int.Defs
import Mathlib.Logic.Function.Basic
import Datenbereitstellung.Strings

namespace Datenbereitstellung.SettingsStore

open Strings

/-- The settings of `kDefaults`. -/
inductive Key
  | webUseTls
  | webCertHosts
  | opcEnabled
  | dataExchangeEnabled
  | ProgrammId
  | ipSPS
  | ns
  | folderPath
  | MaximaleAnzahlProjekte
  | LenDataArray
  | sizeObjx
  | sizeObjy
  | webserVerImgSizeX
  | webserVerImgSizeY
  | iMinArcRadius
  | iError
  | iInfo
  | iHeartbeat
  | iStatusCode
  | iDataArry
  | iProjektArray
  | iUpdateProjektList
  | iProjektlistUpdated
  | showProjektInfo
  | iProjektName
  | iLenProjekt
  | iAnzDatenblöcke
  | ProjektVorhanden
  | ProjektInfoWrote
  | iReadProjekt
  | iWriteData
  | iIndexData
  | iReadData
  | iabbruchUbertragen
  | iUebertgarungBeendet
  | iUebertragungslaege
  | iFarbeG0
  | iStaerkeG0
  | iFarbeG1
  | iStaerkeG1
  | iFarbeG2
  | iStaerkeG2
  | iFarbeG3
  | iStaerkeG3
  | iFarbeLive
  | iFarbeErledigt
  | iStaerkeLive
  | iStaerkeErledigt
  | iLiveStand
  | iLiveBreak
  | objektgroesseX
  | objektgroesseY
  | previewMinArcRadius
  | previewColorG0
  | previewColorG1
  | previewColorG2
  | previewColorG3
  | previewThicknessG0
  | previewThicknessG1
  | previewThicknessG2
  | previewThicknessG3
  | previewLiveColor
  | previewDoneColor
  | previewLiveThickness
  | previewDoneThickness
  deriving DecidableEq

def isLiveKey : Key → Bool
  | .dataExchangeEnabled | .opcEnabled | .previewColorG0 | .previewColorG1 | .previewColorG2
  | .previewColorG3 | .previewDoneColor | .previewDoneThickness | .previewLiveColor
  | .previewLiveThickness | .previewMinArcRadius | .previewThicknessG0 | .previewThicknessG1
  | .previewThicknessG2 | .previewThicknessG3 => true
  | _ => false

/-- `cache_` after `init`: it has every key of `kDefaults` and no other. -/
abbrev Cache := Key → Text

/-- `std::stoi`; `none` where it throws. -/
def stoi (s : Text) : Option Int :=
  let s := s.dropWhile isspace
  let (negative, s) := match s with
    | '-' :: r => (true, r)
    | '+' :: r => (false, r)
    | _ => (false, s)
  let ds := (digits 10 s).1
  let v : Int := if negative then -(ofDigits 10 ds : Int) else ofDigits 10 ds
  if ds.isEmpty ∨ v < -2 ^ 31 ∨ v ≥ 2 ^ 31 then none else some v

example : stoi [' ', '4', '2', 'x'] = some 42 := by decide

structure Accepted where
  cache : Cache
  accepted : List (Key × Text) := []
  needsReconnect : Bool := false

def acceptValue (r : Accepted) (kv : Key × Text) : Accepted :=
  if r.cache kv.1 = kv.2 then r
  else
    { cache := Function.update r.cache kv.1 kv.2
      accepted := r.accepted ++ [kv]
      needsReconnect := r.needsReconnect || !isLiveKey kv.1 }

/-- The loop of `setMany` over the values. A name that is no key is skipped there, so that only
known keys are among the values here. -/
def acceptValues (cache : Cache) (values : List (Key × Text)) : Accepted :=
  values.foldl acceptValue { cache }

theorem acceptValues_cache (cache : Cache) (values : List (Key × Text)) {k : Key}
    (hk : isLiveKey k = false) (h : (acceptValues cache values).needsReconnect = false) :
    (acceptValues cache values).cache k = cache k := by
  suffices key : ∀ (values : List (Key × Text)) (r : Accepted),
      (values.foldl acceptValue r).needsReconnect = false →
        r.needsReconnect = false ∧ (values.foldl acceptValue r).cache k = r.cache k from
    (key values { cache } h).2
  intro values
  induction values with
  | nil => exact fun r hr => ⟨hr, rfl⟩
  | cons kv values ih =>
    intro r hr
    obtain ⟨hn, hc⟩ := ih (acceptValue r kv) hr
    rw [List.foldl_cons, hc]
    rw [acceptValue] at hn ⊢
    split at hn
    · exact ⟨hn, by rw [if_pos (by assumption)]⟩
    · rename_i hne
      rw [if_neg hne]
      simp only [Bool.or_eq_false_iff, Bool.not_eq_false'] at hn
      refine ⟨hn.1, Function.update_of_ne ?_ _ _⟩
      rintro rfl
      rw [hn.2] at hk
      cases hk

section Threads

/-- What a call of `setMany` has still to do when it has released `mtx_`. -/
structure InProgress where
  rev : Bool
  bootRev : Bool

/-- The store and the calls of `setMany` in progress, with what the worker last read. -/
structure World where
  cache : Cache
  rev : Nat
  bootRev : Nat
  inProgress : List InProgress
  got : Cache

/-- The section of `setMany` that holds `mtx_`. -/
def World.store (w : World) (values : List (Key × Text)) : World :=
  { w with cache := (acceptValues w.cache values).cache
           inProgress := { rev := !(acceptValues w.cache values).accepted.isEmpty
                           bootRev := (acceptValues w.cache values).needsReconnect } ::
             w.inProgress }

/-- The atomic steps of any number of threads that call `setMany`. -/
inductive SetMany : World → World → Prop
  | store (w : World) (values : List (Key × Text)) : SetMany w (w.store values)
  | rev (w : World) (before after : List InProgress) (c : InProgress) (hc : c.rev = true)
      (h : w.inProgress = before ++ c :: after) : SetMany w
      { w with rev := w.rev + 1, inProgress := before ++ { c with rev := false } :: after }
  | bootRev (w : World) (before after : List InProgress) (c : InProgress) (hr : c.rev = false)
      (hc : c.bootRev = true) (h : w.inProgress = before ++ c :: after) : SetMany w
      { w with bootRev := w.bootRev + 1
               inProgress := before ++ { c with bootRev := false } :: after }
  | done (w : World) (before after : List InProgress) (c : InProgress) (hr : c.rev = false)
      (hc : c.bootRev = false) (h : w.inProgress = before ++ c :: after) : SetMany w
      { w with inProgress := before ++ after }

end Threads

end Datenbereitstellung.SettingsStore
