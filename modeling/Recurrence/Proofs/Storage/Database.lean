import Mathlib.Data.List.Nodup
import Recurrence.Proofs.Schedule.Text
import Recurrence.Proofs.Storage.Tables
import Recurrence.Zone.Standard

/-!
# The database under any history

The rows of a `Database` stand for tables (`Database.tables`), and each change to it is the change to the
tables (`Database.exists_change`).  What is loaded is what can be loaded from the tables
(`Database.load_eq_iff`).  So in any history of a database in a file each answer is the one that the tables
give at this point, and after a schedule was saved it is what is loaded from then on
(`Database.serve_new`).
-/

namespace Recurrence

namespace Database

/-- The tables that the rows stand for. -/
def tables (db : Database) : Tables where
  cell? position := (db.rows.find? fun row => row.position = position).map Row.cell
  marked := db.saved

/-- A database in a file, with its rows in order. -/
structure Kept (db : Database) : Prop where
  inFile : db.inMemory = false
  ascending : db.rows.Pairwise Row.Before

variable {db : Database} {rows : List Row} {row other : Row} {position : Int}

theorem kept_new : (new false).Kept := ⟨rfl, List.Pairwise.nil⟩

theorem reopen_eq (h : db.Kept) : db.reopen = db := by
  rw [reopen, h.inFile]
  rfl

/-! ### Rows -/

theorem find?_position_eq_some_iff (h : rows.Pairwise Row.Before) :
    (rows.find? fun row => row.position = position) = some row ↔
      row ∈ rows ∧ row.position = position := by
  constructor
  · intro hfind
    exact ⟨List.mem_of_find?_eq_some hfind, by simpa using List.find?_some hfind⟩
  · rintro ⟨hrow, rfl⟩
    have hnodup : (rows.map Row.position).Nodup :=
      List.pairwise_map.mpr (h.imp fun hlt => Int.ne_of_lt hlt)
    cases hfind : rows.find? fun other => other.position = row.position with
    | none => exact absurd (List.find?_eq_none.mp hfind row hrow) (by simp)
    | some other =>
      have hposition : other.position = row.position := by simpa using List.find?_some hfind
      rw [List.inj_on_of_nodup_map hnodup (List.mem_of_find?_eq_some hfind) hrow hposition]

theorem cell?_eq_some_iff (h : db.rows.Pairwise Row.Before) {position : Int} {cell : Cell} :
    db.tables.cell? position = some cell ↔ ⟨position, cell⟩ ∈ db.rows := by
  rw [tables, Option.map_eq_some_iff]
  simp only [find?_position_eq_some_iff h]
  constructor
  · rintro ⟨row, ⟨hrow, rfl⟩, rfl⟩
    exact hrow
  · exact fun hrow => ⟨_, ⟨hrow, rfl⟩, rfl⟩

theorem selects_tables (h : db.rows.Pairwise Row.Before) : db.tables.Selects db.rows where
  ascending := h
  mem_iff _ := (cell?_eq_some_iff h).symm

/-- Which cells the tables have is said by the rows that there are. -/
theorem cell?_tables_eq (h : db.rows.Pairwise Row.Before) {cell? : Int → Option Cell}
    (hmem : ∀ row : Row, row ∈ db.rows ↔ cell? row.position = some row.cell) :
    db.tables.cell? = cell? := by
  funext position
  refine Option.ext fun cell => ?_
  exact (cell?_eq_some_iff h).trans (hmem ⟨position, cell⟩)

theorem mem_insertRow_iff (h : rows.Pairwise Row.Before) : other ∈ insertRow row rows ↔
    other = row ∨ other ∈ rows ∧ other.position ≠ row.position := by
  induction rows with
  | nil => simp [insertRow]
  | cons first rows ih =>
    obtain ⟨hfirst, hrows⟩ := List.pairwise_cons.mp h
    rw [insertRow]
    split_ifs with hlt heq
    · -- all other rows are behind the new one
      have hbehind : ∀ other ∈ first :: rows, row.position < other.position :=
        List.forall_mem_cons.mpr ⟨hlt, fun other hother => Int.lt_trans hlt (hfirst other hother)⟩
      rw [List.mem_cons]
      exact or_congr_right (iff_self_and.mpr fun hother => Int.ne_of_gt (hbehind other hother))
    · -- the first row gives its place to the new one
      have hbehind (hother : other ∈ rows) : other.position ≠ row.position :=
        heq ▸ Int.ne_of_gt (hfirst other hother)
      rw [List.mem_cons, List.mem_cons]
      refine or_congr_right ⟨fun hother => ⟨.inr hother, hbehind hother⟩, ?_⟩
      rintro ⟨rfl | hother, hne⟩
      · exact absurd heq.symm hne
      · exact hother
    · rw [List.mem_cons, List.mem_cons, ih hrows]
      constructor
      · rintro (rfl | rfl | ⟨hother, hne⟩)
        · exact .inr ⟨.inl rfl, Ne.symm heq⟩
        · exact .inl rfl
        · exact .inr ⟨.inr hother, hne⟩
      · rintro (rfl | ⟨rfl | hother, hne⟩)
        · exact .inr (.inl rfl)
        · exact .inl rfl
        · exact .inr (.inr ⟨hother, hne⟩)

theorem pairwise_insertRow (h : rows.Pairwise Row.Before) (row : Row) :
    (insertRow row rows).Pairwise Row.Before := by
  induction rows with
  | nil => exact List.pairwise_singleton ..
  | cons first rows ih =>
    obtain ⟨hfirst, hrows⟩ := List.pairwise_cons.mp h
    rw [insertRow]
    split_ifs with hlt heq
    · refine List.pairwise_cons.mpr ⟨List.forall_mem_cons.mpr ⟨hlt, fun other hother => ?_⟩, h⟩
      exact Int.lt_trans hlt (hfirst other hother)
    · refine List.pairwise_cons.mpr ⟨fun other hother => ?_, hrows⟩
      have hbefore : first.position < other.position := hfirst other hother
      rwa [← heq] at hbefore
    · refine List.pairwise_cons.mpr ⟨fun other hother => ?_, ih hrows⟩
      rcases (mem_insertRow_iff hrows).mp hother with rfl | ⟨hother, _⟩
      · exact lt_of_le_of_ne (Int.not_lt.mp hlt) (Ne.symm heq)
      · exact hfirst other hother

theorem cell?_insertRow (h : db.rows.Pairwise Row.Before) (row : Row) :
    { db with rows := insertRow row db.rows }.tables.cell?
      = Function.update db.tables.cell? row.position (some row.cell) := by
  refine cell?_tables_eq (pairwise_insertRow h row) fun other => ?_
  rw [mem_insertRow_iff h, ← cell?_eq_some_iff h]
  by_cases hposition : other.position = row.position
  · rw [hposition, Function.update_self]
    constructor
    · rintro (rfl | ⟨_, hne⟩)
      · rfl
      · exact absurd rfl hne
    · intro hcell
      obtain ⟨position, cell⟩ := other
      cases hposition
      cases hcell
      exact .inl rfl
  · rw [Function.update_of_ne hposition]
    constructor
    · rintro (rfl | ⟨hcell, _⟩)
      · exact absurd rfl hposition
      · exact hcell
    · exact fun hcell => .inr ⟨hcell, hposition⟩

theorem cell?_delete (h : db.rows.Pairwise Row.Before) (position : Int) :
    { db with rows := db.rows.filter fun row => row.position ≠ position }.tables.cell?
      = Function.update db.tables.cell? position none := by
  refine cell?_tables_eq (h.filter _) fun row => ?_
  rw [List.mem_filter, ← cell?_eq_some_iff h, decide_eq_true_iff]
  by_cases hposition : row.position = position
  · rw [hposition, Function.update_self]
    exact iff_of_false (fun hrow => hrow.2 rfl) (Option.some_ne_none row.cell).symm
  · rw [Function.update_of_ne hposition]
    exact and_iff_left hposition

/-! ### Members -/

variable [ZoneDatabase] {schedule : Schedule}

theorem mem_rowsOf_iff {start : Int} {members : List Expression} :
    row ∈ rowsOf start members ↔ Tables.cellAt start members row.position = some row.cell := by
  induction members generalizing start with
  | nil => simp [rowsOf, Tables.cellAt]
  | cons e members ih =>
    rw [rowsOf, List.mem_cons, Tables.cellAt_cons, ih]
    split_ifs with hfirst
    · -- no row of the other members is at the first position
      have hnone : Tables.cellAt (start + 1) members row.position = none := by
        rw [Tables.cellAt, if_pos (by omega)]
      rw [hnone, Option.some.injEq]
      constructor
      · rintro (rfl | ⟨⟨⟩⟩)
        rfl
      · intro hcell
        exact .inl (hcell ▸ hfirst ▸ rfl)
    · exact or_iff_right fun hrow => hfirst (hrow ▸ rfl)

theorem pairwise_rowsOf (start : Int) (members : List Expression) :
    (rowsOf start members).Pairwise Row.Before := by
  induction members generalizing start with
  | nil => exact List.Pairwise.nil
  | cons e members ih =>
    refine List.pairwise_cons.mpr ⟨fun row hrow => ?_, ih (start + 1)⟩
    have hcell := mem_rowsOf_iff.mp hrow
    rw [Tables.cellAt] at hcell
    split_ifs at hcell with hlt
    exact Int.lt_of_add_one_le (Int.not_lt.mp hlt)

/-! ### Changes -/

theorem kept_save (h : db.Kept) (schedule : Schedule) : (db.save schedule).Kept :=
  ⟨h.inFile, pairwise_rowsOf 0 schedule.members⟩

theorem tables_save (db : Database) (schedule : Schedule) :
    (db.save schedule).tables = ⟨Tables.cellAt 0 schedule.members, true⟩ := by
  have hcells : (db.save schedule).tables.cell? = Tables.cellAt 0 schedule.members :=
    cell?_tables_eq (pairwise_rowsOf 0 schedule.members) fun _ => mem_rowsOf_iff
  exact congrArg (Tables.mk · true) hcells

/-- A database in a file can be changed, and the change is the one to its tables. -/
theorem exists_change (h : db.Kept) (change : DatabaseChange) : ∃ after,
    db.change change = .ok after ∧ after.Kept ∧ after.tables = db.tables.after change := by
  have hinFile := h.inFile
  have houtside {α : Type} (table : String) (result : α) : db.fromOutside table result = .ok result := by
    rw [fromOutside, hinFile]
    rfl
  cases change with
  | save schedule =>
    exact ⟨_, rfl, kept_save h schedule, by rw [tables_save, Tables.after_save]⟩
  | reopen => exact ⟨db, congrArg Except.ok (reopen_eq h), h, rfl⟩
  | insert row =>
    exact ⟨_, houtside _ _, ⟨hinFile, pairwise_insertRow h.ascending row⟩,
      congrArg (Tables.mk · db.saved) (cell?_insertRow h.ascending row)⟩
  | delete position =>
    exact ⟨_, houtside _ _, ⟨hinFile, h.ascending.filter _⟩,
      congrArg (Tables.mk · db.saved) (cell?_delete h.ascending position)⟩
  | unmark => exact ⟨_, houtside _ _, ⟨hinFile, h.ascending⟩, rfl⟩

/-! ### Loading -/

/-- Reads an expression from each row. -/
def readRows (rows : List Row) : Except DatabaseFault (List Expression) :=
  rows.mapM fun row => row.cell.expression expressionColumn

theorem readRows_eq_ok_iff {members : List Expression} : readRows rows = .ok members ↔
    List.Forall₂ (fun row e => row.cell.Reads e) rows members := by
  simp only [readRows, mapM_eq_ok_iff, Cell.expression_eq_ok_iff]

/-- The rows that are read before the bad one are those with a lower position. -/
theorem readRows_eq_error_iff (h : rows.Pairwise Row.Before) {fault : DatabaseFault} :
    readRows rows = .error fault ↔ ∃ row ∈ rows, row.cell.Faulty expressionColumn fault ∧
      ∀ other ∈ rows, other.Before row → ∃ e, other.cell.Reads e := by
  simp only [readRows, mapM_eq_error_iff, Cell.expression_eq_ok_iff, Cell.expression_eq_error_iff]
  constructor
  · rintro ⟨front, row, rest, rfl, hfront, hrow⟩
    refine ⟨row, by simp, hrow, fun other hother hbefore => ?_⟩
    rcases List.mem_append.mp hother with hother | hother
    · exact hfront other hother
    · have hrest := (List.pairwise_append.mp h).2.1
      rcases List.mem_cons.mp hother with rfl | hother
      · exact absurd hbefore (Int.lt_irrefl _)
      · exact absurd hbefore (Int.lt_asymm ((List.pairwise_cons.mp hrest).1 other hother))
  · rintro ⟨row, hmem, hrow, hlower⟩
    obtain ⟨front, rest, rfl⟩ := List.append_of_mem hmem
    have hbefore := (List.pairwise_append.mp h).2.2
    refine ⟨front, row, rest, rfl, fun other hother => ?_, hrow⟩
    exact hlower other (List.mem_append_left _ hother) (hbefore other hother row (List.mem_cons_self ..))

theorem load_of_unmarked (h : db.saved = false) : db.load = .ok none := by
  rw [load, h]
  rfl

theorem load_of_marked (h : db.saved = true) :
    db.load = (readRows db.rows).map fun members => some ⟨members⟩ := by
  rw [load, if_pos h]
  change readRows db.rows >>= _ = _
  cases readRows db.rows <;> rfl

theorem loads_load (h : db.rows.Pairwise Row.Before) : db.tables.Loads db.load := by
  have hselects := selects_tables h
  cases hsaved : db.saved with
  | false =>
    rw [load_of_unmarked hsaved]
    exact .unmarked hsaved
  | true =>
    rw [load_of_marked hsaved]
    cases hread : readRows db.rows with
    | ok members => exact .members hsaved hselects (readRows_eq_ok_iff.mp hread)
    | error fault =>
      obtain ⟨row, hrow, hfaulty, hlower⟩ := (readRows_eq_error_iff h).mp hread
      refine .fault hsaved ((hselects.mem_iff row).mp hrow) hfaulty fun other hbefore hother => ?_
      exact hlower other ((hselects.mem_iff other).mpr hother) hbefore

theorem load_of_loads (h : db.rows.Pairwise Row.Before) {answer : StoreAnswer}
    (hloads : db.tables.Loads answer) : db.load = answer := by
  have hselects := selects_tables h
  cases hloads with
  | unmarked unmarked => exact load_of_unmarked unmarked
  | members marked selects reads =>
    -- there is only one way to put the rows in order
    rw [selects.unique hselects] at reads
    rw [load_of_marked marked, readRows_eq_ok_iff.mpr reads]
    rfl
  | @fault row _ marked holds faulty lowest =>
    have hread := (readRows_eq_error_iff h).mpr ⟨row, (hselects.mem_iff row).mpr holds, faulty,
      fun other hother hbefore => lowest other hbefore ((hselects.mem_iff other).mp hother)⟩
    rw [load_of_marked marked, hread]
    rfl

theorem load_eq_iff (h : db.rows.Pairwise Row.Before) {answer : StoreAnswer} :
    db.load = answer ↔ db.tables.Loads answer :=
  ⟨fun hload => hload ▸ loads_load h, load_of_loads h⟩

theorem reads_rowsOf {members : List Expression} (h : ∀ e ∈ members, e.WellFormed) (start : Int) :
    List.Forall₂ (fun row e => row.cell.Reads e) (rowsOf start members) members := by
  induction members generalizing start with
  | nil => exact .nil
  | cons e members ih =>
    obtain ⟨he, hmembers⟩ := List.forall_mem_cons.mp h
    exact .cons ⟨_, rfl, Expression.parse_text he⟩ (ih hmembers (start + 1))

theorem load_save (db : Database) (h : schedule.WellFormed) :
    (db.save schedule).load = .ok (some schedule) := by
  have hascending := pairwise_rowsOf 0 schedule.members
  exact load_of_loads hascending (.members rfl (selects_tables hascending) (reads_rowsOf h 0))

end Database

/-! ### Histories -/

/-- What is done with a database: it is changed, or a schedule is loaded. -/
inductive StoreStep [ZoneDatabase] where
  | change (change : DatabaseChange)
  | load
deriving DecidableEq

/-- Each answer is one that the tables can give when it is asked for, which leaves them as they are. -/
inductive Tables.Serves [ZoneDatabase] : Tables → List StoreStep → List StoreAnswer → Tables → Prop
  | nil (tables : Tables) : Serves tables [] [] tables
  | change {tables final : Tables} {change : DatabaseChange} {steps : List StoreStep}
      {answers : List StoreAnswer} (rest : Serves (tables.after change) steps answers final) :
      Serves tables (.change change :: steps) answers final
  | load {tables final : Tables} {steps : List StoreStep} {answer : StoreAnswer}
      {answers : List StoreAnswer} (loads : tables.Loads answer)
      (rest : Serves tables steps answers final) :
      Serves tables (.load :: steps) (answer :: answers) final

namespace Database

variable [ZoneDatabase] {db : Database}

/-- The database after some steps, and what was loaded in them. -/
def serve (db : Database) : List StoreStep → Except DatabaseFault (Database × List StoreAnswer)
  | [] => .ok (db, [])
  | .change change :: steps => do (← db.change change).serve steps
  | .load :: steps => (db.serve steps).map fun (after, answers) => (after, db.load :: answers)

theorem exists_serve (h : db.Kept) (steps : List StoreStep) : ∃ after answers,
    db.serve steps = .ok (after, answers) ∧ after.Kept ∧
      db.tables.Serves steps answers after.tables := by
  induction steps generalizing db with
  | nil => exact ⟨db, [], rfl, h, .nil _⟩
  | cons step steps ih =>
    cases step with
    | change change =>
      obtain ⟨changed, hchange, hkept, htables⟩ := exists_change h change
      obtain ⟨after, answers, hserve, hafter, hserves⟩ := ih hkept
      refine ⟨after, answers, ?_, hafter, .change (htables ▸ hserves)⟩
      rw [serve, hchange]
      exact hserve
    | load =>
      obtain ⟨after, answers, hserve, hafter, hserves⟩ := ih h
      refine ⟨after, db.load :: answers, ?_, hafter, .load (loads_load h.ascending) hserves⟩
      rw [serve, hserve]
      rfl

/-- As long as nothing is changed, each answer is the same. -/
theorem serve_quiet (h : db.Kept) {quiet : List StoreStep}
    (hquiet : ∀ step ∈ quiet, step = .load ∨ step = .change .reopen) :
    db.serve quiet = .ok (db, List.replicate (quiet.count .load) db.load) := by
  induction quiet with
  | nil => rfl
  | cons step quiet ih =>
    obtain ⟨hstep, hrest⟩ := List.forall_mem_cons.mp hquiet
    rcases hstep with rfl | rfl
    · rw [serve, ih hrest, List.count_cons_self, List.replicate_succ]
      rfl
    · have hne : StoreStep.change .reopen ≠ .load := nofun
      have hcount : (StoreStep.change .reopen :: quiet).count .load = quiet.count .load :=
        List.count_cons_of_ne hne
      rw [hcount, ← ih hrest]
      exact congrArg (Database.serve · quiet) (reopen_eq h)

theorem rowsOf_eq_mapIdx (start : Int) (members : List Expression) : rowsOf start members
    = members.mapIdx fun index e => ⟨start + index, .text e.text⟩ := by
  induction members generalizing start with
  | nil => rfl
  | cons e members ih =>
    have hnext (index : Nat) : start + 1 + index = start + (index + 1 : Nat) := by omega
    rw [rowsOf, ih, List.mapIdx_cons, Int.natCast_zero, Int.add_zero]
    simp only [hnext]
    rfl

/-- In any history of a database in a file, each answer is one that the tables give: nothing without the
mark, else the expressions of all rows in order, or what is wrong with the first bad row.  When a schedule
was saved, there are its rows and the mark and nothing else, and each answer from then on is the
schedule, as long as nothing is changed. -/
theorem serve_new (steps : List StoreStep) : ∃ db answers,
    (new false).serve steps = .ok (db, answers) ∧ Tables.empty.Serves steps answers db.tables ∧
    (∀ answer, db.load = answer ↔ db.tables.Loads answer) ∧
    (db.load = .ok none ↔ db.tables.marked = false) ∧
    ∀ schedule : Schedule, (∀ e ∈ schedule.members, ∃ text, Expression.parse text = .ok e) →
      ∀ quiet : List StoreStep, (∀ step ∈ quiet, step = .load ∨ step = .change .reopen) →
        ∃ after, db.serve (.change (.save schedule) :: quiet)
            = .ok (after, List.replicate (quiet.count .load) (.ok (some schedule))) ∧
          after.tables.marked = true ∧
          after.tables.Selects (schedule.members.mapIdx fun index e => ⟨index, .text e.text⟩) := by
  obtain ⟨db, answers, hserve, hkept, hserves⟩ := exists_serve kept_new steps
  refine ⟨db, answers, hserve, hserves, fun answer => load_eq_iff hkept.ascending, ?_, ?_⟩
  · rw [load_eq_iff hkept.ascending]
    exact ⟨fun | .unmarked unmarked => unmarked, .unmarked⟩
  · intro schedule hparsed quiet hquiet
    have hsaved := kept_save hkept schedule
    refine ⟨db.save schedule, ?_, rfl, ?_⟩
    · rw [← load_save db (Schedule.wellFormed_of_parsed hparsed)]
      exact serve_quiet hsaved hquiet
    · have hrows := rowsOf_eq_mapIdx 0 schedule.members
      simp only [Int.zero_add] at hrows
      rw [← hrows]
      exact selects_tables hsaved.ascending

end Database

/-- A row of bytes in front of those that were saved decides, until it is deleted; what was put in the
place of a row is loaded, and nothing without the mark.  Then a shorter schedule is saved. -/
theorem Database.serve_new_edited : ∃ weekly yearly : Expression, Expression.parse "Mon,Wed 12:00" = .ok weekly ∧
    Expression.parse "02-29" = .ok yearly ∧ ∃ db after,
      (new false).serve [.load, .change (.save ⟨[yearly, yearly]⟩), .change (.insert ⟨-1, .blob [0x61]⟩),
        .load, .change (.delete (-1)), .change (.insert ⟨1, .text "Mon,Wed 12:00"⟩), .load,
        .change .unmark, .load]
        = .ok (db, [.ok none, .error (.columnType "Blob" 0 "expression"), .ok (some ⟨[yearly, weekly]⟩),
          .ok none]) ∧
      db.serve [.change (.save ⟨[weekly]⟩), .load, .change .reopen, .load]
        = .ok (after, [.ok (some ⟨[weekly]⟩), .ok (some ⟨[weekly]⟩)]) ∧
      after.tables.Selects [⟨0, .text "Mon,Wed *-*-* 12:00:00"⟩] := by
  let midnight : TimePattern := .omitted
  let weekly : Expression := ⟨⟨[⟨1, none⟩, ⟨3, none⟩]⟩, .omitted,
    ⟨⟨[⟨12, none, none⟩]⟩, midnight.minutes, midnight.seconds⟩, .machine⟩
  let yearly : Expression := ⟨.all, ⟨.all .years, ⟨[⟨2, none, none⟩]⟩, ⟨[⟨29, none, none⟩]⟩⟩, midnight,
    .machine⟩
  let steps : List StoreStep := [.load, .change (.save ⟨[yearly, yearly]⟩),
    .change (.insert ⟨-1, .blob [0x61]⟩), .load, .change (.delete (-1)),
    .change (.insert ⟨1, .text "Mon,Wed 12:00"⟩), .load, .change .unmark, .load]
  let rows : List Row := [⟨0, .ofExpression yearly⟩, ⟨1, .text "Mon,Wed 12:00"⟩]
  have hweekly : Expression.parse "Mon,Wed 12:00" = .ok weekly := by decide +kernel
  have hrun : (new false).serve steps = .ok (⟨false, false, rows⟩, [.ok none,
      .error (.columnType "Blob" 0 "expression"), .ok (some ⟨[yearly, weekly]⟩), .ok none]) := by
    decide +kernel
  obtain ⟨db, answers, hserve, _, _, _, hsave⟩ := serve_new steps
  rw [hrun] at hserve
  cases hserve
  obtain ⟨after, hafter, _, hselects⟩ := hsave ⟨[weekly]⟩ (by simpa using ⟨_, hweekly⟩)
    [.load, .change .reopen, .load] (by decide)
  have htext : weekly.text = "Mon,Wed *-*-* 12:00:00" := by decide +kernel
  rw [← htext]
  exact ⟨weekly, yearly, hweekly, by decide +kernel, _, after, hrun, hafter, hselects⟩

end Recurrence
