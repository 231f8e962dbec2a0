import WorkspaceControl.Text.Percent

/-!
# Addresses of calls

The address of a call is the base address of the service, the path of the call and a query. The
query is empty for no pairs; otherwise `?` and one `key=value` group per pair in the given order,
with `&` between groups and both parts percent encoded.
-/

namespace WorkspaceControl.Rpc

/-- A named text in a query. -/
abbrev QueryPair := String × String

/-- One `key=value` group. -/
def writePair (pair : QueryPair) : List Char :=
  Percent.encode pair.1 ++ '=' :: Percent.encode pair.2

/-- A query with its question mark, or nothing. -/
def writeQuery : List QueryPair → List Char
  | [] => []
  | pair :: pairs => '?' :: (writePair pair ++ pairs.flatMap fun p => '&' :: writePair p)

/-- The address of a path with a query under a base address. -/
def buildUrl (base path : String) (query : List QueryPair) : String :=
  base ++ path ++ String.ofList (writeQuery query)

/-- A text without the slashes at its end. -/
def trimSlashes (base : String) : String :=
  String.ofList (base.toList.reverse.dropWhile (· = '/')).reverse

end WorkspaceControl.Rpc
