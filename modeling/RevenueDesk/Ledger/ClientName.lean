/-
# Client names

The clients of the ledger are named like `47D_Disney Streaming - Media`: a marker, the
client and, behind a dash, the branch.  Charts show the client alone.
-/
import RevenueDesk.Text.Blank
import RevenueDesk.Text.Letter

namespace RevenueDesk.Ledger

/-- The marker that client names may begin with. -/
def clientMarker : List Char := ['4', '7', 'D', '_']

/-- The name of a client on a chart: without the marker, up to the first dash, trimmed.
The trimmed full name stands in where that leaves nothing. -/
def shortClientName (fullName : String) : String :=
  let cs := fullName.toList
  let short := Text.trim (((Text.dropStart? clientMarker cs).getD cs).takeWhile (· != '-'))
  if short.isEmpty then Text.trimmed fullName else String.ofList short

end RevenueDesk.Ledger
