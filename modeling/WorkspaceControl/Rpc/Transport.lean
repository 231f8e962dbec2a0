import WorkspaceControl.Text.Parts
import WorkspaceControl.Text.Percent

/-!
# Where requests are sent

A transport sends the request for an address, in the form that the address has on the way, or refuses
the address and says why. All that is known of a transport is what it does with addresses; the rest of
the program takes it as it comes.

`Transport.plain` is a transport for addresses that are written as they are sent. It is used where no
other is given.
-/

namespace WorkspaceControl.Rpc

/-- What is done with an address: where a request for it is sent, or why none is. -/
abbrev Transport := String → Except String String

/-- The query of an address as it is sent: quotes are escaped there as well. -/
def Request.escapeQuotes (query : List Char) : List Char :=
  query.flatMap fun c => if c = '\'' then ['%', '2', '7'] else [c]

namespace Transport

/-- A transport that sends nothing. -/
def closed (reason : String) : Transport := fun _ => .error reason

/-- The schemes that requests are sent over. -/
def schemes : List String := ["http:", "https:"]

/-- The scheme of an address and what stands behind it. -/
def scheme? (url : List Char) : Option (String × List Char) :=
  schemes.findSome? fun scheme =>
    if scheme.toList.isPrefixOf url then some (scheme, url.drop scheme.length) else none

/-- Whether a character of a host stands for itself. -/
def isHostChar (c : Char) : Bool := c.isLower || c.isDigit || ['-', '.'].contains c

/-- Whether a port is written in full, and is none that goes without saying. -/
def isPort (port : List Char) : Bool :=
  port.all Char.isDigit && port.head? ≠ some '0' && (port.length = 4 || port.length = 3) &&
    port ≠ ['4', '4', '3']

/-- Whether a character of a path stands for itself. A dot does not, as it may be a detour. -/
def isPathChar (c : Char) : Bool := c.isAlphanum || ['-', '_', '~', '/'].contains c

/-- Whether a character of a query stands for itself, if it is no quote. -/
def isQueryChar (c : Char) : Bool := Percent.unreserved c || ['%', '=', '&', '/', '?'].contains c

/-- Whether a host, with a port or without, is written as it is sent. -/
def isPlainHost (host : List Char) : Bool :=
  let (name, port) := Parts.divide ':' host
  !name.isEmpty && name.all isHostChar && port.all isPort

/-- Whether a host, a path and a query are written as they are sent, but for the quotes. -/
def isPlain (host path query : List Char) : Bool :=
  isPlainHost host && !path.isEmpty && path.all isPathChar && query.all isQueryChar

/-- Sends to what stands behind a scheme, if it is written as it is sent. -/
def sendPlain (scheme : String) (rest : List Char) : Except String String :=
  let (place, query) := Parts.divide '?' (rest.dropWhile (· = '/'))
  let host := place.takeWhile (· ≠ '/')
  if isPlain host (place.drop host.length) (query.getD []) then
    let query := query.elim [] fun query => '?' :: Request.escapeQuotes query
    .ok (scheme ++ "//" ++ String.ofList (place ++ query))
  else .error "builder error"

/-- Sends to addresses that are written as they are sent and refuses all others. Whatever number of
slashes follows the scheme, the host comes next; quotes in the query are escaped, and a fragment is
left out. Hosts that are numbers are taken to be written in full. -/
def plain : Transport := fun url =>
  match scheme? (url.toList.takeWhile (· ≠ '#')) with
  | some (scheme, rest) => sendPlain scheme rest
  | none => .error "builder error"

end Transport

end WorkspaceControl.Rpc
