import DomainColoring.Settings
import DomainColoring.Storage.Step

/-!
# Settings files
-/

namespace DomainColoring.Settings

variable {m : Type → Type} [Monad m]

/-- The settings in a file, if drawing can use them. -/
def load (h : Host m) (path : Path) : m (Except PlotError Settings) := do
  match ← h.readText path with
  | .ok text => pure (read text)
  | .error e => pure (.error (.storage e.message))

/-- The settings in a file if there is one, the standard ones otherwise. -/
def loadOrStandard (h : Host m) : Option Path → m (Except PlotError Settings)
  | some path => load h path
  | none => pure (.ok standard)

/-- The steps that save settings. The file itself is not touched before the last one. -/
def saveSteps (path : Path) (s : Settings) : List StorageStep :=
  StorageStep.makeParent path ++ StorageStep.replaceFile path (.text s.write)

/-- Saves settings in a file, making the directory for it if need be. -/
def save (h : Host m) (path : Path) (s : Settings) : m (Except PlotError Unit) := do
  match ← h.performAll (saveSteps path s) with
  | .ok () => pure (.ok ())
  | .error e => pure (.error (.storage e.message))

end DomainColoring.Settings
