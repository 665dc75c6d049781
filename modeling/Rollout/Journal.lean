/-!
Journal entries: what the program has to say about a run while it goes on.
-/
namespace Rollout

/-- How serious an entry is. -/
inductive Level where
  | warn | error
  deriving DecidableEq, Repr

def Level.text : Level → String
  | .warn => "WARN"
  | .error => "ERROR"

/-- A message with named details. -/
structure Entry where
  level : Level
  message : String
  fields : List (String × String)
  deriving DecidableEq, Repr

namespace Entry

def warn (message : String) (fields : List (String × String)) : Entry := ⟨.warn, message, fields⟩

def error (message : String) (fields : List (String × String)) : Entry := ⟨.error, message, fields⟩

end Entry

end Rollout
