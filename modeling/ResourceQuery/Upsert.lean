import ResourceQuery.Http.Request
import ResourceQuery.QueryParams

/-! # Rows that are there already

On which columns an inserted row is found to be there already, and whether it is then left alone. -/

namespace ResourceQuery

/-- **What becomes of conflicting rows.** -/
structure Upsert where
  onConflict : Option String
  ignoreDuplicates : Bool
deriving DecidableEq, Repr

/-- What a request says about conflicting rows. -/
def Upsert.ofRequest (params : QueryParams) (headers : RequestHeaders) : Upsert where
  onConflict := (params.first? "on_conflict").filter (· ≠ "")
  ignoreDuplicates := headers.prefer.contains (.resolution .ignoreDuplicates)

end ResourceQuery
