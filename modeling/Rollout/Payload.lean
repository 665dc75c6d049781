import Rollout.Offer

/-!
The payload: the installer script, where it is fetched from, and how it is called.
-/
namespace Rollout

/-- The installer that every task runs, with its two parameters. -/
structure Payload where
  baseUrl : String
  script : String
  interpreter : String
  first : String
  second : String
  deriving DecidableEq, Repr

namespace Payload

/-- The base without the slashes it ends with. -/
def trimmedBase (p : Payload) : String :=
  String.ofList (p.baseUrl.toList.reverse.dropWhile (· == '/')).reverse

/-- Where the script is fetched from. -/
def scriptUri (p : Payload) : String := p.trimmedBase ++ "/" ++ p.script

/-- The command line: interpreter, script and both parameters as they are, a space between two. -/
def commandLine (p : Payload) : String :=
  p.interpreter ++ " " ++ p.script ++ " " ++ p.first ++ " " ++ p.second

def command (p : Payload) : CommandSpec := ⟨[p.scriptUri], p.commandLine⟩

end Payload

end Rollout
