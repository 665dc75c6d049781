/-!
Waiting on a clock in milliseconds.

A wait that is given by its length ends early if it is longer than any wait can be. One that is
given by the time at which it ends has no such limit, but the clock itself has: it counts seconds in
63 bits, and a later time cannot even be told.
-/
namespace Rollout.Wait

/-- The longest wait: thirty years of 365 days. -/
def longest : Nat := 30 * 365 * 24 * 60 * 60 * 1000

/-- How long a wait of some length really is. -/
def span (length : Nat) : Nat := min length longest

/-- The last time that a clock can tell, if it starts at zero: the last one with less than `2 ^ 63`
whole seconds. -/
def horizon : Nat := 9223372036854775808 * 1000 - 1

end Rollout.Wait
