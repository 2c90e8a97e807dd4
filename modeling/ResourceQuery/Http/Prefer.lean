import ResourceQuery.Text.Blank
import ResourceQuery.Text.Split
import ResourceQuery.Number.Decimal

/-! # Preferences

The `Prefer` header: directives `key=value` between commas, blanks around keys and values ignored. What
has no equals sign is no directive. A directive outside the vocabulary, in its key or in its value, is
kept as it is. -/

namespace ResourceQuery

/-- How rows are counted. -/
inductive CountStrategy where
  | exact | planned | estimated
deriving DecidableEq, Repr

/-- What becomes of rows that are there already. -/
inductive Resolution where
  | mergeDuplicates | ignoreDuplicates
deriving DecidableEq, Repr

/-- What a change answers with. -/
inductive ReturnPreference where
  | minimal | headersOnly | representation
deriving DecidableEq, Repr

/-- How the transaction ends. -/
inductive TxMode where
  | commit | rollback
deriving DecidableEq, Repr

/-- What stands for the columns that a payload leaves out. -/
inductive MissingPolicy where
  | null | default
deriving DecidableEq, Repr

/-- Whether unknown preferences are errors. -/
inductive Handling where
  | strict | lenient
deriving DecidableEq, Repr

namespace CountStrategy

/-- The strategies and their words. -/
def words : List (String × CountStrategy) :=
  [("exact", exact), ("planned", planned), ("estimated", estimated)]

/-- The word of a strategy. -/
def word : CountStrategy → String
  | exact => "exact"
  | planned => "planned"
  | estimated => "estimated"

end CountStrategy

namespace Resolution

/-- The resolutions and their words. -/
def words : List (String × Resolution) :=
  [("merge-duplicates", mergeDuplicates), ("ignore-duplicates", ignoreDuplicates)]

/-- The word of a resolution. -/
def word : Resolution → String
  | mergeDuplicates => "merge-duplicates"
  | ignoreDuplicates => "ignore-duplicates"

end Resolution

namespace ReturnPreference

/-- The preferences and their words. -/
def words : List (String × ReturnPreference) :=
  [("minimal", minimal), ("headers-only", headersOnly), ("representation", representation)]

/-- The word of a preference. -/
def word : ReturnPreference → String
  | minimal => "minimal"
  | headersOnly => "headers-only"
  | representation => "representation"

end ReturnPreference

namespace TxMode

/-- The modes and their words. -/
def words : List (String × TxMode) := [("commit", commit), ("rollback", rollback)]

/-- The word of a mode. -/
def word : TxMode → String
  | commit => "commit"
  | rollback => "rollback"

end TxMode

namespace MissingPolicy

/-- The policies and their words. -/
def words : List (String × MissingPolicy) := [("null", null), ("default", default)]

/-- The word of a policy. -/
def word : MissingPolicy → String
  | null => "null"
  | default => "default"

end MissingPolicy

namespace Handling

/-- The ways of handling and their words. -/
def words : List (String × Handling) := [("strict", strict), ("lenient", lenient)]

/-- The word of a way of handling. -/
def word : Handling → String
  | strict => "strict"
  | lenient => "lenient"

end Handling

/-- **A preference.** -/
inductive Preference where
  | count (c : CountStrategy)
  | resolution (r : Resolution)
  | returning (r : ReturnPreference)
  | tx (t : TxMode)
  | missing (m : MissingPolicy)
  | handling (h : Handling)
  | maxAffected (n : Int)
  | timezone (zone : String)
  | params (value : String)
  | other (key value : String)
deriving DecidableEq, Repr

namespace Preference

/-- A whole number of 64 bits: digits after an optional sign. -/
def int64? (cs : List Char) : Option Int :=
  let s := spanSign cs
  let n : Int := if s.1 then -(digitsValue s.2 : Int) else (digitsValue s.2 : Int)
  if s.2 ≠ [] ∧ s.2.all Char.isDigit ∧ fitsInt64 n then some n else none

/-- The preference of a key and a value, if both are in the vocabulary. -/
def known? (key value : String) : Option Preference :=
  if key = "count" then (CountStrategy.words.lookup value).map count
  else if key = "resolution" then (Resolution.words.lookup value).map resolution
  else if key = "return" then (ReturnPreference.words.lookup value).map returning
  else if key = "tx" then (TxMode.words.lookup value).map tx
  else if key = "missing" then (MissingPolicy.words.lookup value).map missing
  else if key = "handling" then (Handling.words.lookup value).map handling
  else if key = "max-affected" then (int64? value.toList).map maxAffected
  else if key = "timezone" then some (timezone value)
  else if key = "params" then some (params value)
  else none

/-- **The preference of a key and a value.** -/
def ofPair (key value : String) : Preference := (known? key value).getD (other key value)

/-- The key of a preference. -/
def key : Preference → String
  | count _ => "count"
  | resolution _ => "resolution"
  | returning _ => "return"
  | tx _ => "tx"
  | missing _ => "missing"
  | handling _ => "handling"
  | maxAffected _ => "max-affected"
  | timezone _ => "timezone"
  | params _ => "params"
  | other key _ => key

/-- A directive, if the text is one. -/
def ofChars? (cs : List Char) : Option Preference :=
  (Text.splitOnce '=' (Text.trim cs)).map fun (k, v) =>
    ofPair (String.ofList (Text.trim k)) (String.ofList (Text.trim v))

/-- **The preferences of a header**, in order. -/
def parseAll (header : String) : List Preference :=
  (Text.splitOn ',' header.toList).filterMap ofChars?

end Preference

end ResourceQuery
