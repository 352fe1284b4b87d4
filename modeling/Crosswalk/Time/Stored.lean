import Crosswalk.Json
import Crosswalk.Time

/-!
# Stored timestamps

A timestamp is stored as an object with the keys `seconds` and `nanos`, in either order and among
any others, or as the array of the two numbers. Each of them has to be there once, and has to fit.
-/

namespace Crosswalk.Timestamp

open Text Reading

/-- The timestamp of two numbers, if they fit. -/
def ofInts? (seconds nanos : Int) : Option Timestamp :=
  if -9223372036854775808 ≤ seconds ∧ seconds ≤ 9223372036854775807 ∧ -2147483648 ≤ nanos ∧
      nanos ≤ 2147483647 then
    some ⟨.ofInt seconds, .ofInt nanos⟩
  else none

/-- Reads a member of a stored object. Only the numbers of a timestamp are kept. -/
def readMember : Reading (String × Int) := do
  let key ← Json.readText
  Json.expectSign ':'
  if key = "seconds" ∨ key = "nanos" then return (key, ← Json.readInteger)
  else
    Json.skipValue ((← get).length + 1)
    return (key, 0)

/-- The number under a key, if there is exactly one. -/
def only? (key : String) (members : List (String × Int)) : Option Int :=
  match members.filter (·.1 = key) with
  | [(_, n)] => some n
  | _ => none

/-- Reads the document of a timestamp. -/
def readStored : Reading Timestamp := do
  Json.skipBlanks
  let numbers ←
    if (← peek?) = some '[' then Json.readBetween '[' ']' Json.readInteger
    else
      let members ← Json.readBetween '\x7b' '\x7d' readMember
      pure ((only? "seconds" members).toList ++ (only? "nanos" members).toList)
  Json.skipBlanks
  match numbers with
  | [seconds, nanos] => StateT.lift (ofInts? seconds nanos)
  | _ => failure

/-- The timestamp that a document stores. -/
def ofJson? (text : String) : Option Timestamp :=
  readStored.all? text.toList

end Crosswalk.Timestamp
