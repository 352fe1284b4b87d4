import Crosswalk.Toml.Quoted
import Crosswalk.Toml.Scalar
import Crosswalk.Toml.Table

/-!
# Reading a TOML document

A document is read as a list of statements, one a line: a header opens a table, and an assignment
adds a key to the table that was opened last. Then the statements are carried out on an empty table.
Either step can refuse the document.

Arrays and tables on one line are nested in each other at most 79 deep, and dotted keys have at most
as many parts. Lists of items are read with an explicit bound on their number, for which the length
of the text is enough.
-/

namespace Crosswalk.Toml

open Text Reading

/-- What a line of a document says. -/
inductive Statement
  /-- The last key of a header is the table's own; a header in double brackets opens one more table
  of a list. -/
  | header (path : List String) (key : String) (listed : Bool)
  | assign (path : List String) (key : String) (node : Node)

/-- The greatest depth of nesting, and the greatest number of parts of a key. -/
def depthLimit : Nat := 79

/-! ### Keys -/

def isKeyChar (c : Char) : Bool := c.isAlphanum || c = '_' || c = '-'

/-- Reads one part of a key. -/
def readSimpleKey : Reading String := do
  match ← peek? with
  | some '"' =>
    expect '"'
    return .ofList (← readLine '"' ((← get).length + 1))
  | some '\'' =>
    expect '\''
    return .ofList (← readLine '\'' ((← get).length + 1))
  | _ =>
    let key ← run isKeyChar
    guard (key ≠ [])
    return .ofList key

/-- Reads the parts of a key that are joined by dots, with gaps around them. -/
def readParts : Nat → Reading (List String)
  | 0 => failure
  | fuel + 1 => do
    skipGap
    let key ← readSimpleKey
    skipGap
    if ← accept '.' then return key :: (← readParts fuel)
    else return [key]

/-- Reads a key, and sets its last part apart. -/
def readKey : Reading (List String × String) := do
  let parts ← readParts ((← get).length + 1)
  guard (parts.length ≤ depthLimit)
  return (parts.dropLast, ← StateT.lift parts.getLast?)

/-! ### Values -/

/-- A text without the gaps, line ends and comments at its front. The first argument says whether it
begins within a comment. -/
def dropFiller : Bool → List Char → List Char
  | _, '\n' :: rest | _, '\r' :: '\n' :: rest => dropFiller false rest
  | true, c :: rest => if isPlain c then dropFiller true rest else c :: rest
  | false, c :: rest =>
    if c = '#' then dropFiller true rest
    else if isGap c then dropFiller false rest
    else c :: rest
  | _, [] => []

/-- Reads a bare value. A date may be followed by its time behind a space. -/
def readBare : Reading Node := do
  let word ← run isBare
  match word with
  | ['t', 'r', 'u', 'e'] => return .boolean true
  | ['f', 'a', 'l', 's', 'e'] => return .boolean false
  | _ =>
    if reads readDate word then
      match ← get with
      | ' ' :: rest =>
        if reads readOffsetTime (rest.takeWhile isBare) then set (rest.dropWhile isBare)
      | _ => pure ()
      return .other
    else
      guard (isInteger word || isFloat word || isMoment word)
      return .other

/-- Reads the items of an array up to its end. A comma may follow the last one. -/
def readItems (item : Reading Node) : Nat → Reading (List Node)
  | 0 => failure
  | fuel + 1 => do
    modify (dropFiller false)
    if ← accept ']' then return []
    else
      let first ← item
      modify (dropFiller false)
      if ← accept ',' then return first :: (← readItems item fuel)
      else
        expect ']'
        return [first]

/-- Reads a key and its value. -/
def readAssignment (value : Reading Node) : Reading ((List String × String) × Node) := do
  let key ← readKey
  expect '='
  skipGap
  return (key, ← value)

/-- Reads the entries of a table on one line, of which there is at least one, up to its end. -/
def readEntries (value : Reading Node) : Nat → Entries → Reading Entries
  | 0, _ => failure
  | fuel + 1, entries => do
    let ((path, key), node) ← readAssignment value
    let entries ← StateT.lift (entries.assign path key node .inline)
    skipGap
    if ← accept ',' then readEntries value fuel entries
    else
      expect '}'
      return entries

/-- Reads a value, given how the values inside it are read if there may be any. -/
def readWithin (inner? : Option (Reading Node)) : Reading Node := do
  match ← peek? with
  | some '"' =>
    expect '"'
    return .text (← readQuoted '"')
  | some '\'' =>
    expect '\''
    return .text (← readQuoted '\'')
  | some '[' =>
    expect '['
    let inner ← StateT.lift inner?
    return .array (← readItems inner ((← get).length + 1))
  | some '{' =>
    expect '{'
    let inner ← StateT.lift inner?
    skipGap
    if ← accept '}' then return .table .inline []
    else return .table .inline (← readEntries inner ((← get).length + 1) [])
  | _ => readBare

/-- Reads a value in which arrays and tables are nested at most so deep. -/
def readValue : Nat → Reading Node
  | 0 => readWithin none
  | room + 1 => readWithin (some (readValue room))

/-! ### Statements -/

/-- Reads the end of a line, before which there may be a comment. -/
def readLineEnd : Reading Unit := do
  skipGap
  if ← accept '#' then discard (run isPlain)
  guard ((← acceptNewline) || (← atEnd))

/-- Reads a header. -/
def readHeader : Reading Statement := do
  expect '['
  let listed ← accept '['
  let (path, key) ← readKey
  expect ']'
  if listed then expect ']'
  return .header path key listed

/-- Reads the statements of a document, one a line. -/
def readStatements : Nat → Reading (List Statement)
  | 0 => failure
  | fuel + 1 => do
    skipGap
    match ← peek? with
    | none => return []
    | some c =>
      if c ∈ ['#', '\n', '\r'] then
        readLineEnd
        readStatements fuel
      else
        let statement ←
          if c = '[' then readHeader
          else do
            let ((path, key), node) ← readAssignment (readValue depthLimit)
            pure (.assign path key node)
        readLineEnd
        return statement :: (← readStatements fuel)

/-- Carries out statements, given the table so far and the path of the header that was opened
last. -/
def carryOut : List Statement → List String → Entries → Option Entries
  | [], _, root => some root
  | .header path key false :: rest, _, root =>
    (root.openTable path key).bind (carryOut rest (path ++ [key]))
  | .header path key true :: rest, _, root =>
    (root.openItem path key).bind (carryOut rest (path ++ [key]))
  | .assign path key node :: rest, opened, root =>
    (root.atHeader (Entries.assign path key node) opened).bind (carryOut rest opened)

/-- The table that a text describes. A mark of its byte order may stand first. -/
def document? (text : String) : Option Entries := do
  let cs := match text.toList with
    | '\uFEFF' :: rest => rest
    | cs => cs
  let statements ← all? (readStatements (cs.length + 1)) cs
  carryOut statements [] []

end Crosswalk.Toml
