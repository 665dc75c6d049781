import Rollout.Master.Error
import Rollout.Text.Blank
import Rollout.Uri

/-!
The address of the master, as it is given by a user.

It is a host, perhaps with a port, perhaps behind `http://` and before a slash. The master is called
at one fixed path of that host.
-/
namespace Rollout.Master

/-- The port that is added if the address names none. -/
def defaultPort : List Char := ['5', '0', '5', '0']

/-- Where the master takes calls. -/
def schedulerPath : List Char := "/api/v1/scheduler".toList

/-- A text without the schemes it starts with. -/
def withoutScheme : List Char → List Char
  | 'h' :: 't' :: 't' :: 'p' :: ':' :: '/' :: '/' :: rest => withoutScheme rest
  | cs => cs

/-- A text without the slashes it ends with. -/
def withoutSlashes (cs : List Char) : List Char := (cs.reverse.dropWhile (· == '/')).reverse

/-- What an address says beyond its decoration. -/
def bareAddress (cs : List Char) : List Char := withoutSlashes (withoutScheme (Text.trim cs))

/-- The address names a port: a colon stands behind the last closing bracket, or anywhere if there
is no bracket. -/
def namesPort (cs : List Char) : Bool := (Uri.afterLast ']' cs).contains ':'

/-- An address with a port. -/
def withPort (cs : List Char) : List Char :=
  if namesPort cs then cs else cs ++ ':' :: defaultPort

/-- Where calls to the master with this address go, if it is an address. -/
def endpointOf? (cs : List Char) : Option Uri :=
  let bare := bareAddress cs
  if bare.isEmpty || bare.contains '/' then none
  else Uri.ofChars? (withPort bare ++ schedulerPath)

/-- Where calls to the master go. -/
def endpointOf (address : String) : Except MasterError Uri :=
  match endpointOf? address.toList with
  | some uri => .ok uri
  | none => .error (.invalidAddress address)

end Rollout.Master
