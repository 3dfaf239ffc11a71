/-
# Configuration

The settings of a check come in three layers. The command line counts first, then a file, then
the defaults. The file is the one that the command line names, which has to be there, or else the
usual one in the repository, if it is there. Each setting is layered by itself.

Key definitions: `ConfigurationError`, `configurationFile`, `Settings.override`,
`resolveSettings`.
-/
import AbiGate.Command.Arguments
import AbiGate.Document.Settings
import AbiGate.Document.Toml
import AbiGate.Tool.Surroundings

namespace AbiGate

/-- Why a check has no settings. -/
inductive ConfigurationError where
  | unreadable (file : Path) (fault : FileFault)
  /-- The file is no TOML text, or a setting in it has a value of another type. -/
  | invalid (file : Path)
  deriving DecidableEq, Repr

def ConfigurationError.message : ConfigurationError → String
  | unreadable file fault => s!"failed to read config {file}: {fault.message}"
  | invalid file => s!"invalid config {file}"

/-- The name of the usual file in a repository. -/
def configurationName : Path := ⟨"abiguard.toml"⟩

/-- The settings in the text of a file. -/
def Settings.ofText? (text : String) : Option Settings :=
  (Toml.read? text).bind (Settings.ofDocument? Toml.documents)

/-- The settings, except for what the command line says. -/
def Settings.override (s : Settings) (a : Arguments) : Settings :=
  { s with
    policy := if a.allowRemovals then { removals := .exempt } else s.policy
    baseline := {
      remote := a.remote.getD s.baseline.remote
      reference := a.baseline.getD s.baseline.reference
      strategy := a.strategy.getD s.baseline.strategy } }

variable {m : Type → Type} [Monad m]

/-- The file that the settings are read from, if there is one. -/
def configurationFile (around : Surroundings m) (a : Arguments) : m (Option Path) :=
  match a.config with
  | some file => return some file
  | none => do
    let usual := a.repository.join configurationName
    return if ← around.isFile usual then some usual else none

/-- Reads the settings from a file. -/
def loadSettings (around : Surroundings m) (file : Path) :
    ExceptT ConfigurationError m Settings := do
  match ← around.files.readText file with
  | .error fault => throw (.unreadable file fault)
  | .ok text =>
    match Settings.ofText? text with
    | some settings => return settings
    | none => throw (.invalid file)

/-- The settings of a check. -/
def resolveSettings (around : Surroundings m) (a : Arguments) :
    ExceptT ConfigurationError m Settings := do
  match ← ExceptT.lift (configurationFile around a) with
  | some file => return (← loadSettings around file).override a
  | none => return Settings.override {} a

end AbiGate
