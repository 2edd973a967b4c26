import Recurrence.Json.Fault
import Recurrence.Storage.FileSystem

/-!
# What can go wrong with a stored schedule

A schedule can be kept in a file, as JSON or as text, or in the tables of a database.
-/

namespace Recurrence

/-- Why the tables of a database cannot be read. -/
inductive DatabaseFault where
  /-- A text is not what the column is meant to hold. -/
  | conversion (index : Nat) (cause : ParseError)
  /-- The bytes of a text are no text. -/
  | encoding (index : Nat) (fault : Utf8Fault)
  /-- A value is no text. -/
  | columnType (type : String) (index : Nat) (column : String)
  | noTable (table : String)
deriving DecidableEq

/-- The text shown to a user. -/
def DatabaseFault.message : DatabaseFault → String
  | conversion index cause =>
    s!"Conversion error from type Text at index: {index}, " ++ cause.message
  | encoding index fault =>
    s!"Conversion error from type Text at index: {index}, " ++ fault.message
  | columnType type index column =>
    s!"Invalid column type {type} at index: {index}, name: {column}"
  | noTable table => s!"no such table: {table}"

/-- Why a schedule cannot be stored or loaded. -/
inductive StorageError where
  | json (error : Json.Error)
  /-- A file is open, but no JSON can be read from it or written to it. -/
  | jsonFile (fault : FileFault)
  | file (fault : FileFault)
  | parse (cause : ParseError)
  | database (fault : DatabaseFault)

/-- The text shown to a user. -/
def StorageError.message : StorageError → String
  | json error => "serialization error: " ++ error.message
  | jsonFile fault => "serialization error: " ++ fault.message
  | file fault => "io error: " ++ fault.message
  | parse cause => "invalid stored expression: " ++ cause.message
  | database fault => "sqlite error: " ++ fault.message

end Recurrence
