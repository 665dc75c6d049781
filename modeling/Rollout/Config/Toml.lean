import Rollout.Config.Basic
import Rollout.Toml.Document
import Rollout.Toml.Record

/-!
The configuration in TOML. Sections and settings may be left out.
-/
namespace Rollout

open Toml

def FrameworkInfo.ofToml? (v : Value) : Option FrameworkInfo := do
  let [name, user] ← fields? ["name", "user"] v | none
  some ⟨← field default.name text? name, ← field default.user text? user⟩

def LaunchSettings.ofToml? (v : Value) : Option LaunchSettings := do
  let [interval, script, interpreter] ← fields? ["interval", "script", "interpreter"] v | none
  some ⟨← field default.interval text? interval, ← field default.script text? script,
    ← field default.interpreter text? interpreter⟩

def OfferSettings.ofToml? (v : Value) : Option OfferSettings := do
  let [refuse] ← fields? ["refuse_seconds"] v | none
  some ⟨← field default.refuseSeconds double? refuse⟩

def WatchdogSettings.ofToml? (v : Value) : Option WatchdogSettings := do
  let [timeout] ← fields? ["stall_timeout"] v | none
  some ⟨← field default.stallTimeout text? timeout⟩

namespace Config

def ofToml? (v : Value) : Option Config := do
  let [framework, launch, offers, watchdog] ←
    fields? ["framework", "launch", "offers", "watchdog"] v | none
  some ⟨← field .default FrameworkInfo.ofToml? framework,
    ← field .default LaunchSettings.ofToml? launch, ← field .default OfferSettings.ofToml? offers,
    ← field .default WatchdogSettings.ofToml? watchdog⟩

/-- The configuration that a text is, unchecked. -/
def read? (text : List Char) : Option Config := do
  ofToml? (.table .header (← Toml.parse? text))

/-- The configuration that a text is, checked. -/
def ofText (text : List Char) : Except ConfigError Config :=
  match read? text with
  | some c => c.validated
  | none => .error (.malformed text)

end Config

end Rollout
