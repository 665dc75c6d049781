import Rollout.Registry

/-!
The roster of a run: the registry of hosts, the count of completions, and how many task identifiers
have been drawn so far.
-/
namespace Rollout

/-- What a run knows about its hosts and tasks. -/
structure Roster where
  registry : Registry
  /-- The hosts counted as done, one by one, when their task succeeded. -/
  completed : Nat
  /-- The task identifiers drawn so far. -/
  drawn : Nat
  deriving DecidableEq

def Roster.empty : Roster := ⟨.empty, 0, 0⟩

end Rollout
