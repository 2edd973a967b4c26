import Mathlib.Data.List.Sort
import Mathlib.Logic.Function.Basic
import Recurrence.Proofs.Reading
import Recurrence.Storage.Database

/-!
# The tables of a database

What a database does is said by its statements: a row has a place of its own in `Tables`, a row cannot be
inserted in a place that is taken, and the statements of a transaction are carried out together or not at
all (`Tables.transaction`).  Rows are selected in ascending order of position (`Tables.Selects`).

A schedule is saved by a transaction that never fails, whatever rows there are (`Tables.after_save`).
-/

namespace Recurrence

/-! ### Cells -/

namespace Cell

variable [ZoneDatabase]

/-- A cell with a text that stands for an expression. -/
def Reads (cell : Cell) (e : Expression) : Prop :=
  ∃ content, cell = .text content ∧ Expression.parse content = .ok e

/-- What is wrong with a cell that is no such text. -/
inductive Faulty (column : String) : Cell → DatabaseFault → Prop
  | null : Faulty column .null (.columnType "Null" 0 column)
  | blob (bytes : Bytes) : Faulty column (.blob bytes) (.columnType "Blob" 0 column)
  | text {content : String} {cause : ParseError} (rejected : Expression.parse content = .error cause) :
      Faulty column (.text content) (.conversion 0 cause)

variable {column : String} {cell : Cell} {e : Expression} {fault : DatabaseFault}

theorem expression_eq_ok_iff : cell.expression column = .ok e ↔ cell.Reads e := by
  rw [expression, parsed, bind_eq_ok_iff, Reads]
  simp only [mapError_eq_ok_iff]
  refine exists_congr fun content => and_congr_left fun _ => ?_
  cases cell <;> simp [asText]

theorem expression_eq_error_iff : cell.expression column = .error fault ↔ cell.Faulty column fault := by
  cases cell with
  | null => exact ⟨by rintro ⟨⟩; exact .null, by rintro ⟨⟩; rfl⟩
  | blob bytes => exact ⟨by rintro ⟨⟩; exact .blob bytes, by rintro ⟨⟩; rfl⟩
  | text content =>
    change (Expression.parse content).mapError (DatabaseFault.conversion 0) = .error fault ↔ _
    constructor
    · intro h
      cases hparse : Expression.parse content with
      | ok e => rw [hparse] at h; cases h
      | error cause =>
        rw [hparse] at h
        cases h
        exact .text hparse
    · rintro ⟨⟩
      rename_i rejected
      rw [rejected]
      rfl

end Cell

/-! ### Rows in order -/

/-- A row in front of another one. -/
def Row.Before (row other : Row) : Prop :=
  row.position < other.position

instance : Std.Irrefl Row.Before where
  irrefl row := Int.lt_irrefl row.position

instance : Std.Antisymm Row.Before where
  antisymm _ _ h h' := absurd h' (Int.lt_asymm h)

/-! ### Statements -/

/-- What is loaded: the schedule, if one was saved, or what is wrong. -/
abbrev StoreAnswer [ZoneDatabase] :=
  Except DatabaseFault (Option Schedule)

/-- The cell at each position that has a row, and whether there is a row in the table that tells
whether a schedule was saved. -/
structure Tables where
  cell? : Int → Option Cell
  marked : Bool

/-- A statement that changes the tables. -/
inductive Statement where
  | deleteAll
  | delete (position : Int)
  | insert (row : Row)
  /-- Inserts a row, instead of the one in its place. -/
  | replace (row : Row)
  | mark
  | unmark

namespace Tables

/-- The tables without rows. -/
def empty : Tables := ⟨fun _ => none, false⟩

/-- The tables after a statement; a row cannot be inserted in a place that is taken. -/
def run (tables : Tables) : Statement → Option Tables
  | .deleteAll => some { tables with cell? := fun _ => none }
  | .delete position => some { tables with cell? := Function.update tables.cell? position none }
  | .insert row =>
    if (tables.cell? row.position).isSome then none
    else some { tables with cell? := Function.update tables.cell? row.position (some row.cell) }
  | .replace row =>
    some { tables with cell? := Function.update tables.cell? row.position (some row.cell) }
  | .mark => some { tables with marked := true }
  | .unmark => some { tables with marked := false }

/-- The tables after a transaction, which are the same if one of its statements fails. -/
def transaction (tables : Tables) (statements : List Statement) : Tables :=
  (statements.foldlM run tables).getD tables

/-- The rows that are selected in ascending order of position. -/
structure Selects (tables : Tables) (rows : List Row) : Prop where
  ascending : rows.Pairwise Row.Before
  mem_iff : ∀ row, row ∈ rows ↔ tables.cell? row.position = some row.cell

theorem Selects.unique {tables : Tables} {rows rows' : List Row} (h : tables.Selects rows)
    (h' : tables.Selects rows') : rows = rows' :=
  h.ascending.eq_of_mem_iff h'.ascending fun row => (h.mem_iff row).trans (h'.mem_iff row).symm

variable [ZoneDatabase]

/-- The statements that save a schedule. -/
def saveStatements (schedule : Schedule) : List Statement :=
  .deleteAll ::
    ((schedule.members.zipIdx.map fun (e, index) => .insert ⟨index, .ofExpression e⟩) ++ [.mark])

/-- The tables after a change to a database in a file. -/
def after (tables : Tables) : DatabaseChange → Tables
  | .save schedule => tables.transaction (saveStatements schedule)
  | .reopen => tables
  | .insert row => tables.transaction [.replace row]
  | .delete position => tables.transaction [.delete position]
  | .unmark => tables.transaction [.unmark]

/-- What can be loaded from the tables: nothing without the mark; else the expressions of all rows, or
what is wrong with the first row that has none. -/
inductive Loads (tables : Tables) : StoreAnswer → Prop
  | unmarked (unmarked : tables.marked = false) : Loads tables (.ok none)
  | members {rows : List Row} {members : List Expression} (marked : tables.marked = true)
      (selects : tables.Selects rows)
      (reads : List.Forall₂ (fun row e => row.cell.Reads e) rows members) :
      Loads tables (.ok (some ⟨members⟩))
  | fault {row : Row} {fault : DatabaseFault} (marked : tables.marked = true)
      (holds : tables.cell? row.position = some row.cell)
      (faulty : row.cell.Faulty Database.expressionColumn fault)
      (lowest : ∀ other : Row, other.Before row → tables.cell? other.position = some other.cell →
        ∃ e, other.cell.Reads e) :
      Loads tables (.error fault)

/-! ### Saving -/

/-- The cell at a position, if the members have the positions from `start` on. -/
def cellAt (start : Int) (members : List Expression) (position : Int) : Option Cell :=
  if position < start then none
  else members[(position - start).toNat]?.map .ofExpression

theorem cellAt_cons (start : Int) (e : Expression) (members : List Expression) (position : Int) :
    cellAt start (e :: members) position
      = if position = start then some (.ofExpression e) else cellAt (start + 1) members position := by
  rw [cellAt, cellAt]
  by_cases heq : position = start
  · simp [heq]
  rw [if_neg heq]
  by_cases hlt : position < start
  · rw [if_pos hlt, if_pos (by omega)]
  · have hindex : (position - start).toNat = (position - (start + 1)).toNat + 1 := by omega
    rw [if_neg hlt, if_neg (by omega), hindex, List.getElem?_cons_succ]

/-- The members are inserted one after the other, since nothing is in their places. -/
theorem foldlM_run_insert (members : List Expression) {start : Nat} {tables : Tables}
    (hfree : ∀ position : Int, start ≤ position → tables.cell? position = none) :
    ((members.zipIdx start).map fun (e, index) =>
        Statement.insert ⟨index, .ofExpression e⟩).foldlM run tables
      = some { tables with
          cell? := fun position => (cellAt start members position).or (tables.cell? position) } := by
  induction members generalizing start tables with
  | nil =>
    have hnone (position : Int) : cellAt start [] position = none := by simp [cellAt]
    simp only [hnone, Option.none_or]
    rfl
  | cons e members ih =>
    let after : Tables :=
      { tables with cell? := Function.update tables.cell? start (some (.ofExpression e)) }
    have hself : after.cell? start = some (.ofExpression e) := Function.update_self ..
    have hother {position : Int} (h : position ≠ start) :
        after.cell? position = tables.cell? position := Function.update_of_ne h ..
    have hrun : run tables (.insert ⟨start, .ofExpression e⟩) = some after := by
      rw [run, hfree start (Int.le_refl start)]
      rfl
    -- the places of the other members are still free
    have hfree' (position : Int) (h : ((start + 1 : Nat) : Int) ≤ position) :
        after.cell? position = none := by
      rw [hother (by omega)]
      exact hfree position (by omega)
    rw [List.zipIdx_cons, List.map_cons, List.foldlM_cons, hrun]
    refine (ih hfree').trans ?_
    congr 2
    funext position
    rw [cellAt_cons, Int.natCast_succ]
    by_cases heq : position = start
    · rw [if_pos heq, heq, hself, cellAt, if_pos (by omega)]
      rfl
    · rw [if_neg heq, hother heq]

/-- After a schedule was saved there are the rows of its members and the mark, whatever there was before. -/
theorem after_save (tables : Tables) (schedule : Schedule) :
    tables.after (.save schedule) = ⟨cellAt 0 schedule.members, true⟩ := by
  have hinserts := @foldlM_run_insert _ schedule.members 0 ⟨fun _ => none, tables.marked⟩ fun _ _ => rfl
  simp only [Option.or_none] at hinserts
  rw [after, transaction, saveStatements, List.foldlM_cons]
  change Option.getD (List.foldlM run ⟨fun _ => none, tables.marked⟩ _) _ = _
  rw [List.foldlM_append, hinserts]
  rfl

end Tables

end Recurrence
