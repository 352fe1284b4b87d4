import Crosswalk.Schema
import Crosswalk.Text.Quoted

/-!
# Declarations in diagnostics

How diagnostics write the declaration of a record type, with every field on the same line.
-/

namespace Crosswalk

namespace Column

/-- A field with its position. -/
def debugText (S : Schema) (c : Column) : String :=
  "FieldDescriptor \x7b name: " ++ Text.quote c.name ++ ", index: " ++ toString c.index ++
    ", kind: " ++ c.kind.debugText S.nameOf ++ ", sensitive: " ++
    (if c.sensitive then "true" else "false") ++ " \x7d"

end Column

/-- A record type with all its fields. -/
def TypeDecl.debugText (S : Schema) (d : TypeDecl) : String :=
  "TypeDescriptor \x7b name: " ++ Text.quote d.name ++ ", fields: [" ++
    ", ".intercalate (d.columns.map (Column.debugText S)) ++ "] \x7d"

end Crosswalk
