import Recurrence.Schedule
import Recurrence.Storage.Error

/-!
# Schedules in a database

A `Database` has two tables.  One holds the canonical text of each member, by position; the other
only tells whether a schedule was ever saved.  Saving replaces all rows; loading reads them in
order of position, and the first row that is no expression decides.

The rows can also be changed from outside, and then hold any text or bytes.  This needs a database
in a file: one in memory has nothing but what is saved through it, and is gone when it is opened
again.
-/

namespace Recurrence

variable [ZoneDatabase]

/-- A value in a column. -/
inductive Cell where
  | null
  | text (content : String)
  | blob (bytes : Bytes)
deriving DecidableEq

namespace Cell

/-- The text of a cell in a column, which has an index and a name. -/
def asText (index : Nat) (column : String) : Cell → Except DatabaseFault String
  | .null => .error (.columnType "Null" index column)
  | .text content => .ok content
  | .blob _ => .error (.columnType "Blob" index column)

/-- The text of a cell in a column of any type, where bytes are taken for those of a text. -/
def castText (index : Nat) (column : String) : Cell → Except DatabaseFault String
  | .null => .error (.columnType "Null" index column)
  | .text content => .ok content
  | .blob bytes =>
    match Text.utf8Fault? bytes with
    | some fault => .error (.encoding index fault)
    | none => .ok ((Text.ofUtf8? bytes).getD "")

/-- What the text of a cell says. -/
def parsed {α : Type} (parse : String → Except ParseError α) (column : String) (cell : Cell) :
    Except DatabaseFault α := do
  let content ← cell.asText 0 column
  (parse content).mapError (.conversion 0)

/-- Reads an expression. -/
def expression (column : String) (cell : Cell) : Except DatabaseFault Expression :=
  cell.parsed Expression.parse column

/-- Reads a schedule. -/
def schedule (column : String) (cell : Cell) : Except DatabaseFault Schedule :=
  cell.parsed Schedule.parse column

/-- An expression as the value of a column. -/
def ofExpression (e : Expression) : Cell :=
  .text e.text

/-- A schedule as the value of a column. -/
def ofSchedule (schedule : Schedule) : Cell :=
  .text schedule.text

end Cell

/-- A row of the table of expressions. -/
structure Row where
  position : Int
  cell : Cell
deriving DecidableEq

/-- Whether a schedule was saved, and the rows, in ascending order of position. -/
structure Database where
  inMemory : Bool
  saved : Bool
  rows : List Row
deriving DecidableEq

/-- A change to a database.  The last three are made from outside. -/
inductive DatabaseChange where
  | save (schedule : Schedule)
  | reopen
  /-- Puts a row in its place, instead of the one at the same position. -/
  | insert (row : Row)
  /-- Deletes the row at a position, if there is one. -/
  | delete (position : Int)
  /-- Forgets that a schedule was saved. -/
  | unmark
deriving DecidableEq

namespace Database

/-- The table of expressions. -/
def expressionTable : String := "calendar_expressions"

/-- The table that tells whether a schedule was saved. -/
def stateTable : String := "schedule_state"

/-- The column of the texts. -/
def expressionColumn : String := "expression"

/-- A database in which nothing was saved. -/
def new (inMemory : Bool) : Database :=
  ⟨inMemory, false, []⟩

/-- The database after it was opened again. -/
def reopen (db : Database) : Database :=
  if db.inMemory then new true else db

/-- The rows of some members, the first of which has the given position. -/
def rowsOf (position : Int) : List Expression → List Row
  | [] => []
  | e :: rest => ⟨position, .ofExpression e⟩ :: rowsOf (position + 1) rest

/-- The database after a schedule was saved. -/
def save (db : Database) (schedule : Schedule) : Database :=
  { db with saved := true, rows := rowsOf 0 schedule.members }

/-- The schedule that was saved, if there is one. -/
def load (db : Database) : Except DatabaseFault (Option Schedule) :=
  if db.saved then do
    let members ← db.rows.mapM fun row => row.cell.expression expressionColumn
    return some ⟨members⟩
  else return none

/-! ### Changes from outside -/

/-- The rows after one was put in its place, instead of the one at the same position. -/
def insertRow (row : Row) : List Row → List Row
  | [] => [row]
  | other :: rest =>
    if row.position < other.position then row :: other :: rest
    else if row.position = other.position then row :: rest
    else other :: insertRow row rest

/-- What is seen or done from outside, which needs a table that a database in memory does not
show. -/
def fromOutside {α : Type} (db : Database) (table : String) (result : α) :
    Except DatabaseFault α :=
  if db.inMemory then .error (.noTable table) else .ok result

/-- The database after a change. -/
def change (db : Database) : DatabaseChange → Except DatabaseFault Database
  | .save schedule => .ok (db.save schedule)
  | .reopen => .ok db.reopen
  | .insert row => db.fromOutside expressionTable { db with rows := insertRow row db.rows }
  | .delete position =>
    db.fromOutside expressionTable
      { db with rows := db.rows.filter fun row => row.position ≠ position }
  | .unmark => db.fromOutside stateTable { db with saved := false }

/-- The positions and texts of all rows. -/
def texts (db : Database) : Except DatabaseFault (List (Int × String)) := do
  let rows ← db.fromOutside expressionTable db.rows
  rows.mapM fun row => do
    return (row.position, ← row.cell.castText 1 expressionColumn)

end Database

end Recurrence
