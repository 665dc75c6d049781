/-!
The identity under which the program registers with the master.
-/
namespace Rollout

abbrev FrameworkId := String

/-- A framework's name, and the user its tasks run as; an empty user is left to the master. -/
structure FrameworkInfo where
  name : String
  user : String
  deriving DecidableEq, Repr

end Rollout
