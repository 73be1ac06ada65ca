import StopArrivals.Text.Blank
import StopArrivals.Text.Search

/-!
# The endpoint for traces

Collectors take traces under a path of their own, which a configured endpoint may leave out.
-/

namespace StopArrivals

def tracesPath : List Char := "/v1/traces".toList

/-- Without the slashes at its end. -/
def dropEndSlashes (cs : List Char) : List Char :=
  (cs.reverse.dropWhile fun c => c == '/').reverse

/-- The endpoint with the path for traces. A blank one stays empty, and one that holds the path
anywhere is taken as it is. -/
def traceEndpoint (endpoint : String) : String :=
  let cs := trimChars endpoint.toList
  if cs = [] then ""
  else if isPartOf tracesPath cs then String.ofList cs
  else String.ofList (dropEndSlashes cs ++ tracesPath)

end StopArrivals
