import Datenbereitstellung.Strings

namespace Datenbereitstellung.AppState

open Strings

/-- The texts that `previewWorkerLoop` tells apart. -/
inductive Action
  | list
  | render
  | testrun
  | other
  deriving DecidableEq

structure PreviewCommand where
  action : Action
  project : Text
  intervalMs : Int := 0
  deriving DecidableEq

structure Status where
  running : Bool := false
  step : Int := 0
  total : Int := 0
  project : Text := []
  message : Text := []
  deriving DecidableEq

structure State where
  pending : Option PreviewCommand := none
  stop : Bool := false
  status : Status := {}
  folder : Text := []
  projectList : List Text := []
  gen : Nat := 0

namespace State

variable (s : State)

def enqueue (cmd : PreviewCommand) : State := { s with pending := some cmd }

def takeCommand : Option PreviewCommand × State := (s.pending, { s with pending := none })

def requestStop : State := { s with stop := true }

def takeStop : Bool × State := (s.stop, { s with stop := false })

def setStatus (st : Status) : State := { s with status := st }

def bumpGeneration : State := { s with gen := s.gen + 1 }

def setProjects (folder : Text) (projects : List Text) : State :=
  { s with folder := folder, projectList := projects }

end State

end Datenbereitstellung.AppState
