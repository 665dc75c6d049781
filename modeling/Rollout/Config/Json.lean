import Rollout.Config.Basic
import Rollout.Json.Shape

/-!
The configuration in JSON. Sections and settings may be left out.
-/
namespace Rollout

open Json

/-- A framework's name and user, each of which may be left out. -/
def FrameworkInfo.settingsOfJson? (v : Json) : Option FrameworkInfo := do
  let [name, user] ← slots? ["name", "user"] v | none
  some ⟨← name.withDefault default.name string?, ← user.withDefault default.user string?⟩

def LaunchSettings.toJson (s : LaunchSettings) : Json :=
  .obj [("interval", .str s.interval), ("script", .str s.script),
    ("interpreter", .str s.interpreter)]

def LaunchSettings.ofJson? (v : Json) : Option LaunchSettings := do
  let [interval, script, interpreter] ← slots? ["interval", "script", "interpreter"] v | none
  some ⟨← interval.withDefault default.interval string?,
    ← script.withDefault default.script string?,
    ← interpreter.withDefault default.interpreter string?⟩

def OfferSettings.toJson (s : OfferSettings) : Json :=
  .obj [("refuse_seconds", .number s.refuseSeconds)]

def OfferSettings.ofJson? (v : Json) : Option OfferSettings := do
  let [refuse] ← slots? ["refuse_seconds"] v | none
  some ⟨← refuse.withDefault default.refuseSeconds float?⟩

def WatchdogSettings.toJson (s : WatchdogSettings) : Json :=
  .obj [("stall_timeout", .str s.stallTimeout)]

def WatchdogSettings.ofJson? (v : Json) : Option WatchdogSettings := do
  let [timeout] ← slots? ["stall_timeout"] v | none
  some ⟨← timeout.withDefault default.stallTimeout string?⟩

namespace Config

def toJson (c : Config) : Json :=
  .obj [("framework", c.framework.toJson), ("launch", c.launch.toJson),
    ("offers", c.offers.toJson), ("watchdog", c.watchdog.toJson)]

def ofJson? (v : Json) : Option Config := do
  let [framework, launch, offers, watchdog] ←
    slots? ["framework", "launch", "offers", "watchdog"] v | none
  some ⟨← framework.withDefault .default FrameworkInfo.settingsOfJson?,
    ← launch.withDefault .default LaunchSettings.ofJson?,
    ← offers.withDefault .default OfferSettings.ofJson?,
    ← watchdog.withDefault .default WatchdogSettings.ofJson?⟩

end Config

end Rollout
