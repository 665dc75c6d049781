import Rollout.Decimal.Layout
import Rollout.Duration
import Rollout.Framework
import Rollout.Text.Quoted

/-!
The configuration of a run.

Every setting has a default. Durations are kept as they are written and read when they are needed,
so a configuration is checked before it is used: the check finds the first fault in a fixed order.
-/
namespace Rollout

/-- How tasks are launched. -/
structure LaunchSettings where
  /-- The least time between two launches. -/
  interval : String
  /-- The script that is fetched and run on each host. -/
  script : String
  interpreter : String
  deriving DecidableEq, Repr

/-- How offers are answered. -/
structure OfferSettings where
  /-- The seconds for which unused offers are not wanted again. -/
  refuseSeconds : Float
  deriving DecidableEq, Repr

/-- How a run is watched. -/
structure WatchdogSettings where
  /-- How long a run may go on without progress before that is reported. -/
  stallTimeout : String
  deriving DecidableEq, Repr

/-- All settings. -/
structure Config where
  framework : FrameworkInfo
  launch : LaunchSettings
  offers : OfferSettings
  watchdog : WatchdogSettings
  deriving DecidableEq, Repr

def FrameworkInfo.default : FrameworkInfo := ⟨"install-cni", ""⟩

def LaunchSettings.default : LaunchSettings := ⟨"2s", "install.py", "python"⟩

def OfferSettings.default : OfferSettings := ⟨5.0⟩

def WatchdogSettings.default : WatchdogSettings := ⟨"5m"⟩

def Config.default : Config := ⟨.default, .default, .default, .default⟩

/-- Why a file could not be read. -/
inductive FileError where
  | notFound
  | notADirectory
  | isADirectory
  | nameTooLong
  | nulInName
  /-- The file is no UTF-8. -/
  | notText
  | other (message : String)
  deriving DecidableEq, Repr

def FileError.message : FileError → String
  | .notFound => "No such file or directory (os error 2)"
  | .notADirectory => "Not a directory (os error 20)"
  | .isADirectory => "Is a directory (os error 21)"
  | .nameTooLong => "File name too long (os error 36)"
  | .nulInName => "file name contained an unexpected NUL byte"
  | .notText => "stream did not contain valid UTF-8"
  | .other message => message

/-- What is wrong with a configuration. -/
inductive ConfigError where
  | unreadable (path : String) (cause : FileError)
  /-- The text is no configuration. What is wrong and where is told by the text itself. -/
  | malformed (text : List Char)
  /-- A setting that should be a duration is none. -/
  | duration (text : String)
  | invalid (setting reason : String)
  deriving DecidableEq, Repr

/-- What is said of an error, but for the account of a malformed text. -/
def ConfigError.message : ConfigError → String
  | .unreadable path cause => s!"failed to read config file {path}: {cause.message}"
  | .malformed _ => "failed to parse config"
  | .duration text => "invalid duration: " ++ Text.quote text
  | .invalid setting reason => s!"invalid value for {setting}: {reason}"

/-- Reads the text of a setting as a duration. -/
def Duration.ofSetting (text : String) : Except ConfigError Duration :=
  match Duration.parse? text with
  | some d => .ok d
  | none => .error (.duration text)

namespace Config

def launchInterval (c : Config) : Except ConfigError Duration :=
  Duration.ofSetting c.launch.interval

def stallTimeout (c : Config) : Except ConfigError Duration :=
  Duration.ofSetting c.watchdog.stallTimeout

/-- The fault of settings other than durations. -/
def fault? (c : Config) (timeout : Duration) : Option ConfigError :=
  if timeout.isZero then some (.invalid "watchdog.stall_timeout" "must be greater than zero")
  else if !c.offers.refuseSeconds.isFinite || c.offers.refuseSeconds < 0.0 then
    some (.invalid "offers.refuse_seconds"
      (Decimal.prose c.offers.refuseSeconds ++ " is not a non-negative number"))
  else if (Text.trim c.launch.script.toList).isEmpty then
    some (.invalid "launch.script" "must not be empty")
  else none

/-- Checks a configuration. -/
def validate (c : Config) : Except ConfigError Unit := do
  let _ ← c.launchInterval
  let timeout ← c.stallTimeout
  match c.fault? timeout with
  | some e => throw e
  | none => return

/-- The configuration, if it passes the check. -/
def validated (c : Config) : Except ConfigError Config := do
  c.validate
  return c

end Config

end Rollout
