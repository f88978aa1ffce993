/-!
# Why a request fails

Unknown things and forbidden types are decided before anything is rendered. A
storage failure carries the text of the failing lookup and ends the request at
any point. The texts here are for the caller inside the program; what a client
is told is the business of `Web`.
-/
namespace ContentProjection

inductive Fault where
  | notFound
  | forbidden
  | internal (detail : String)
  | storage (detail : String)
  deriving DecidableEq, Repr

namespace Fault

/-- What becomes of a call in which sorting stops. The number of the task is left out. -/
def unsortable : Fault :=
  .internal ("request task failed: task panicked with message " ++
    "\"user-provided comparison function does not correctly implement a total order\"")

def message : Fault → String
  | notFound => "Not found."
  | forbidden => "Forbidden."
  | internal detail => "Internal error: " ++ detail
  | storage detail => "Storage error: " ++ detail

end Fault
end ContentProjection
