import Rollout.Decimal.Natural

/-!
Absolute `http` addresses.

Behind the scheme stands the authority, which says who is addressed and goes on to the first `/`,
`?` or `#`; then come the path, a query after `?`, and a fragment after `#`, which is dropped,
whatever it is. An authority may hold a user before `@`, a host, which is in brackets if it has
colons of its own, and a port. It is written in ASCII, while a path and a query may have other
characters too. Ports are not checked, and letters keep their case.
-/
namespace Rollout

/-- An address without its scheme. -/
structure Uri where
  authority : List Char
  path : List Char
  query : Option (List Char)
  deriving DecidableEq, Repr

namespace Uri

def scheme : List Char := ['h', 't', 't', 'p', ':', '/', '/']

/-- The characters that end an authority. -/
def endsAuthority (c : Char) : Bool := c == '/' || c == '?' || c == '#'

/-! ### Authorities -/

/-- What is known of an authority while it is read from left to right. -/
structure Scan where
  /-- The colons since the user or the host in brackets ended. -/
  colons : Nat
  opened : Bool
  closed : Bool
  /-- There was a percent sign since the user or the host in brackets ended. -/
  percent : Bool
  deriving DecidableEq, Repr

def Scan.initial : Scan := ⟨0, false, false, false⟩

/-- More colons than this are too many wherever they stand. -/
def colonLimit : Nat := 8

/-- The characters that stand for nothing but themselves: letters, digits and some marks. -/
def isPlain (c : Char) : Bool := c.isAlphanum || "!$&'()*+,-.;=_~".toList.contains c

/-- One character of an authority. -/
def Scan.step (s : Scan) (c : Char) : Option Scan :=
  if c = ':' then if colonLimit ≤ s.colons then none else some { s with colons := s.colons + 1 }
  else if c = '[' then if s.percent || s.opened then none else some { s with opened := true }
  else if c = ']' then if s.closed || !s.opened then none else some ⟨0, true, true, false⟩
  else if c = '@' then some { s with colons := 0, percent := false }
  else if c = '%' then some { s with percent := true }
  else if isPlain c then some s
  else none

/-- The authority may end here. -/
def Scan.isFinal (s : Scan) : Bool := s.opened == s.closed && s.colons ≤ 1 && !s.percent

/-- A text is an authority: it names a host, and its marks are where they belong. -/
def isAuthority (cs : List Char) : Bool :=
  !cs.isEmpty && cs.getLast? != some '@' && (cs.foldlM Scan.step .initial).any Scan.isFinal

/-! ### Paths and queries -/

/-- The characters beyond ASCII; paths and queries take them as they are. -/
def isBeyond (c : Char) : Bool := 0x80 ≤ c.toNat

def isPathChar (c : Char) : Bool :=
  isBeyond c || c.isAlphanum || "!$&'()*+,-./:;=@[\\]^_|~\"\x7b\x7d%".toList.contains c

def isQueryChar (c : Char) : Bool :=
  isBeyond c || c.isAlphanum || "!$&'()*+,-./:;=?@[\\]^_|~`\x7b\x7d%".toList.contains c

/-- Splits a text before the first character that `stop` holds of. -/
def splitBefore (stop : Char → Bool) (cs : List Char) : List Char × List Char :=
  (cs.takeWhile (!stop ·), cs.dropWhile (!stop ·))

/-- The path and the query in what stands behind an authority. -/
def pathAndQuery (cs : List Char) : List Char × Option (List Char) :=
  let (path, rest) := splitBefore (fun c => c == '?' || c == '#') cs
  match rest with
  | '?' :: r => (path, some (splitBefore (· == '#') r).1)
  | _ => (path, none)

/-- The longest address that is read, in bytes and with its fragment. -/
def lengthLimit : Nat := 65534

/-- The length of a text in bytes. -/
def byteLength (cs : List Char) : Nat := cs.foldr (fun c n => c.utf8Size + n) 0

/-- Reads what stands behind the scheme. -/
def ofChars? (cs : List Char) : Option Uri :=
  let (authority, rest) := splitBefore endsAuthority cs
  let (path, query) := pathAndQuery rest
  if byteLength (scheme ++ cs) ≤ lengthLimit && isAuthority authority && path.all isPathChar &&
      (query.getD []).all isQueryChar then
    some ⟨authority, path, query⟩
  else none

/-! ### Parts -/

/-- What is asked for at the host; an empty path is the root. -/
def target (u : Uri) : List Char :=
  (if u.path.isEmpty then ['/'] else u.path) ++
    match u.query with
    | some q => '?' :: q
    | none => []

/-- The address as text. -/
def text (u : Uri) : String := String.ofList (scheme ++ u.authority ++ u.target)

/-- The part of a text behind the last `c`, or the whole text. -/
def afterLast (c : Char) (cs : List Char) : List Char := (cs.reverse.takeWhile (· != c)).reverse

/-- The host, without the brackets that may stand around it. -/
def host (u : Uri) : List Char :=
  match afterLast '@' u.authority with
  | '[' :: r => r.takeWhile (· != ']')
  | cs => cs.takeWhile (· != ':')

/-- The port that is used if none is named. -/
def defaultPort : Nat := 80

/-- The port to connect to: what stands behind the last colon, if that is the number of a port. -/
def port (u : Uri) : Nat :=
  let named := if u.authority.contains ':' then Decimal.word? (afterLast ':' u.authority) else none
  (named.filter (· < 0x10000)).getD defaultPort

end Uri

end Rollout
