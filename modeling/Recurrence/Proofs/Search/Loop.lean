import Mathlib.Logic.Relation
import Recurrence.Proofs.Search.Run

/-!
# The search, turn by turn

A search goes from state to state, each of which is a stage and a cursor that has come to it
(`Search.State`).  `State.turn` says what comes of a state: the next one, or the end of the search.
The search by passes is this loop (`Expression.answers_nextBy`).

The units of a cursor may have run over when a stage is entered, and how far depends on the stage:
the units of the stages before are placed (`Entered`), the others are at most one beyond their field
(`Bounded`).  Each turn keeps this (`State.Inv.moves`), and it rules out every dead end: only the year
can be used up, and what is settled in the end is a reading of a clock.  A turn never takes the cursor
back, and moves it on if a pass begins again, so the loop comes to an end even if nothing limits the
number of passes (`State.Inv.exists_answers`).
-/

namespace Recurrence

open Calendar

namespace Search

/-! ### The loop -/

/-- The stage after a given one. -/
def Stage.succ? : Stage → Option Stage
  | year => some month
  | month => some day
  | day => some weekday
  | weekday => some hour
  | hour => some minute
  | minute => some second
  | second => none

/-- Where a search has come to: the stage that is entered, with what cursor, and how often a pass has
begun again before. -/
structure State where
  stage : Stage
  cursor : Cursor
  restarts : Nat
deriving DecidableEq

/-- What comes of a state. -/
inductive Turn where
  /-- The search goes on. -/
  | next (state : State)
  /-- The reading of the cursor stands for an instant after the given one. -/
  | found (stamp : Stamp)
  /-- No reading is left. -/
  | exhausted
  /-- The cursor is settled, but it is no reading of a clock. -/
  | unreadable
  /-- Passes have begun again too often. -/
  | gaveUp
deriving DecidableEq

namespace State

/-- The state in which a search after an instant starts. -/
def start (clock : Clock) (after : Instant) : State :=
  ⟨.year, .startingAfter (.ofSeconds (clock.read after.seconds)), 0⟩

/-- A pass begins again, unless that has happened too often.  There need not be a limit to it. -/
def restart (ceiling : Option Nat) (s : State) (c : Cursor) : Turn :=
  if ∃ most ∈ ceiling, most ≤ s.restarts + 1 then .gaveUp else .next ⟨.year, c, s.restarts + 1⟩

/-- One turn of the loop. -/
def turn [ZoneDatabase] (e : Expression) (clock : Clock) (after : Instant) (ceiling : Option Nat)
    (s : State) : Turn :=
  match step e s.stage s.cursor with
  | .exhausted => .exhausted
  | .restart c => s.restart ceiling c
  | .settled c =>
    match s.stage.succ? with
    | some stage => .next ⟨stage, c, s.restarts⟩
    | none =>
      match c.wall? with
      | none => .unreadable
      | some wall =>
        match clock.instantAfter wall.seconds after with
        | some stamp => .found stamp
        | none => s.restart ceiling { c with second := c.second + 1 }

end State

/-- With what the search ends, if it ends with this turn. -/
def Turn.answer? : Turn → Option (Option Stamp)
  | next _ => none
  | found stamp => some (some stamp)
  | exhausted | unreadable | gaveUp => some none

/-! ### Stages and cursors -/

/-- The stages of a pass from a given one on. -/
def Stage.onward : Stage → List Stage
  | year => all
  | month => [month, day, weekday, hour, minute, second]
  | day => [day, weekday, hour, minute, second]
  | weekday => [weekday, hour, minute, second]
  | hour => [hour, minute, second]
  | minute => [minute, second]
  | second => [second]

theorem Stage.onward_eq (stage : Stage) :
    stage.onward = stage :: (stage.succ?.elim [] Stage.onward) := by
  cases stage <;> rfl

/-- From the last stage back to the first. -/
theorem Stage.succ?_induction {P : Stage → Prop} (last : ∀ stage, stage.succ? = none → P stage)
    (earlier : ∀ stage next, stage.succ? = some next → P next → P stage) (stage : Stage) : P stage := by
  have hsecond : P .second := last _ rfl
  have hminute : P .minute := earlier _ _ rfl hsecond
  have hhour : P .hour := earlier _ _ rfl hminute
  have hweekday : P .weekday := earlier _ _ rfl hhour
  have hday : P .day := earlier _ _ rfl hweekday
  have hmonth : P .month := earlier _ _ rfl hday
  cases stage with
  | year => exact earlier _ _ rfl hmonth
  | month => exact hmonth
  | day => exact hday
  | weekday => exact hweekday
  | hour => exact hhour
  | minute => exact hminute
  | second => exact hsecond

theorem Stage.ne_year_of_succ? {stage next : Stage} (h : stage.succ? = some next) : next ≠ .year := by
  cases stage <;> cases h <;> decide

theorem State.restart_cases (ceiling : Option Nat) (s : State) (c : Cursor) :
    s.restart ceiling c = .gaveUp ∨ s.restart ceiling c = .next ⟨.year, c, s.restarts + 1⟩ := by
  unfold restart
  split_ifs
  · exact .inl rfl
  · exact .inr rfl

theorem State.eq_of_restart_eq_next {ceiling : Option Nat} {s t : State} {c : Cursor}
    (h : s.restart ceiling c = .next t) :
    t = ⟨.year, c, s.restarts + 1⟩ := by
  rcases s.restart_cases ceiling c with hgaveUp | hnext
  · rw [hgaveUp] at h
    cases h
  · rw [hnext] at h
    exact (Turn.next.inj h).symm

variable {c c' : Cursor} {stage : Stage}

/-- Every unit but the year is where a pass may leave it: at most one beyond its field. -/
structure Bounded (c : Cursor) : Prop where
  month : 1 ≤ c.month ∧ c.month ≤ 13
  day : 1 ≤ c.day ∧ c.day ≤ 32
  hour : c.hour ≤ 24
  minute : c.minute ≤ 60
  second : c.second ≤ 60

theorem Carried.bounded (h : Carried c) : Bounded c :=
  ⟨h.month, h.day, h.hour, h.minute, h.second⟩

theorem Bounded.clearBelow (h : Bounded c) (stage : Stage) : Bounded (c.clearBelow stage) := by
  obtain ⟨hmonth, hday, hhour, hminute, hsecond⟩ := h
  cases stage <;> constructor <;> simp only [Cursor.clearBelow, Field.min] <;> omega

theorem bounded_of_startingAfter (s : Int) : Bounded (.startingAfter (.ofSeconds s)) := by
  obtain ⟨hdate, hhour, hminute, hsecond⟩ := WallTime.isReal_ofSeconds s
  have hmonth := hdate.month_bounds
  have hlength := monthLength_bounds (WallTime.ofSeconds s).date.year hmonth
  have hday := hdate.1
  have hday' := hdate.2
  constructor <;> simp only [Cursor.startingAfter] <;> omega

/-- How many cursors there are from a given one on. -/
def cursorsLeft (c : Cursor) : Nat :=
  (((((2200 - c.year) * 13 + (13 - c.month)) * 32 + (32 - c.day)) * 25 + (24 - c.hour)) * 61 +
    (60 - c.minute)) * 61 + (60 - c.second)

theorem cursorsLeft_lt (h : Bounded c) (h' : Bounded c') (hyear : c'.year ≤ 2200) (hlt : c < c') :
    cursorsLeft c' < cursorsLeft c := by
  obtain ⟨hmonth, hday, hhour, hminute, hsecond⟩ := h
  obtain ⟨hmonth', hday', hhour', hminute', hsecond'⟩ := h'
  rw [Cursor.lt_iff] at hlt
  unfold cursorsLeft
  omega

section place

variable {series : Series} {current max : Nat} {put : Nat → Cursor} {carry : Cursor → Step}

theorem bounded_of_place (hput : ∀ v ∈ series.values max, Bounded (put v))
    (hcarry : ∀ c, carry c ≠ .settled c')
    (h : place stage (series.next? current max) put carry = .settled c') : Bounded c' := by
  cases hnext : series.next? current max with
  | none =>
    rw [hnext] at h
    cases h
  | some next =>
    have hmem : next.value ∈ series.values max := by
      obtain ⟨_, ⟨⟨hmem, _⟩, _⟩ | ⟨_, hmem, _⟩⟩ := Series.next?_eq_some hnext
      · exact hmem
      · exact hmem
    simp only [hnext, place] at h
    split_ifs at h
    · exact absurd h (hcarry _)
    · cases h
      exact (hput _ hmem).clearBelow stage
    · cases h
      exact hput _ hmem

theorem place_ne_exhausted (hne : series.values max ≠ []) (hcarry : ∀ c, carry c ≠ .exhausted) :
    place stage (series.next? current max) put carry ≠ .exhausted := by
  refine place_elim (P := (· ≠ .exhausted)) hne ?_ ?_ ?_
  · rintro _ ⟨⟩
  · rintro _ _ _ _ ⟨⟩
  · intro v _ _ _
    exact hcarry _

end place

/-! ### From state to state -/

section Reaches

variable [ZoneDatabase] (e : Expression) (clock : Clock) (after : Instant) (ceiling : Option Nat)

/-- The search comes from one state to another one. -/
def Reaches : State → State → Prop :=
  Relation.ReflTransGen fun s t => s.turn e clock after ceiling = .next t

/-- The search that has come to a state will end, with the given answer. -/
def Answers (s : State) (answer : Option Stamp) : Prop :=
  ∃ t, Reaches e clock after ceiling s t ∧ (t.turn e clock after ceiling).answer? = some answer

end Reaches

variable [ZoneDatabase] {e : Expression} {clock : Clock} {after : Instant} {ceiling : Option Nat}
  {s t : State} {answer : Option Stamp}

theorem Answers.of_turn (h : s.turn e clock after ceiling = .next t)
    (ht : Answers e clock after ceiling t answer) : Answers e clock after ceiling s answer := by
  obtain ⟨u, htu, hu⟩ := ht
  exact ⟨u, .head h htu, hu⟩

theorem Answers.of_answer? (h : (s.turn e clock after ceiling).answer? = some answer) :
    Answers e clock after ceiling s answer :=
  ⟨s, .refl, h⟩

theorem Answers.of_reaches (h : Reaches e clock after ceiling s t)
    (ht : Answers e clock after ceiling t answer) : Answers e clock after ceiling s answer := by
  obtain ⟨u, htu, hu⟩ := ht
  exact ⟨u, h.trans htu, hu⟩

/-- A search has one end at most. -/
theorem eq_of_reaches {u : State} (hs : Reaches e clock after ceiling u s)
    (ht : Reaches e clock after ceiling u t) (hs' : ∀ v, s.turn e clock after ceiling ≠ .next v)
    (ht' : ∀ v, t.turn e clock after ceiling ≠ .next v) : s = t := by
  induction hs using Relation.ReflTransGen.head_induction_on with
  | refl =>
    rcases ht.cases_head with heq | ⟨v, hv, _⟩
    · exact heq
    · exact absurd hv (hs' v)
  | head hturn _ ih =>
    rcases ht.cases_head with rfl | ⟨v, hv, hvt⟩
    · exact absurd hturn (ht' _)
    · rw [hturn] at hv
      obtain rfl := Turn.next.inj hv
      exact ih hvt

/-- Whatever turn ends a search, it gives the answer. -/
theorem Answers.eq_of_answer? {answer' : Option Stamp} (h : Answers e clock after ceiling s answer)
    (hreach : Reaches e clock after ceiling s t)
    (ht : (t.turn e clock after ceiling).answer? = some answer') : answer' = answer := by
  obtain ⟨u, hu, hanswer⟩ := h
  have hlast : t = u := by
    refine eq_of_reaches hreach hu ?_ ?_
    · intro v hv
      rw [hv] at ht
      cases ht
    · intro v hv
      rw [hv] at hanswer
      cases hanswer
  rw [← hlast, ht] at hanswer
  exact Option.some.inj hanswer

/-! ### Passes as turns -/

theorem turn_of_settled {next : Stage} (h : step e s.stage s.cursor = .settled c)
    (hnext : s.stage.succ? = some next) :
    s.turn e clock after ceiling = .next ⟨next, c, s.restarts⟩ := by
  simp only [State.turn, h, hnext]

/-- A pass goes on by turns until the stage that decides what comes of it. -/
theorem exists_reaches_descend (e : Expression) (clock : Clock) (after : Instant)
    (ceiling : Option Nat) (stage : Stage) (c : Cursor) (restarts : Nat) :
    ∃ t, Reaches e clock after ceiling ⟨stage, c, restarts⟩ t ∧ t.restarts = restarts ∧
      step e t.stage t.cursor = descend e stage.onward c ∧
      ∀ c', descend e stage.onward c = .settled c' → t.stage.succ? = none := by
  induction stage using Stage.succ?_induction generalizing c with
  | last stage hlast =>
    have hdescend : descend e stage.onward c = step e stage c := by
      rw [Stage.onward_eq, hlast]
      simp only [Option.elim, descend]
      split
      next hsettled => exact hsettled.symm
      next => rfl
    exact ⟨_, .refl, rfl, hdescend.symm, fun _ _ => hlast⟩
  | earlier stage next hnext ih =>
    rw [Stage.onward_eq, hnext]
    simp only [Option.elim, descend]
    cases hstep : step e stage c with
    | settled c' =>
      obtain ⟨t, hreach, hrestarts, hstop, hlast⟩ := ih c'
      exact ⟨t, .head (turn_of_settled hstep hnext) hreach, hrestarts, hstop, hlast⟩
    | restart c' =>
      refine ⟨_, .refl, rfl, hstep, ?_⟩
      rintro _ ⟨⟩
    | exhausted =>
      refine ⟨_, .refl, rfl, hstep, ?_⟩
      rintro _ ⟨⟩

section run

variable {most passes : Nat}

theorem answers_restart {run : Option Stamp} (hpasses : s.restarts + (passes + 1) = max most 1)
    (hturn : s.turn e clock after (some most) = s.restart (some most) c)
    (hzero : passes = 0 → run = none)
    (hmore : 0 < passes → Answers e clock after (some most) ⟨.year, c, s.restarts + 1⟩ run) :
    Answers e clock after (some most) s run := by
  by_cases hgiveUp : most ≤ s.restarts + 1
  · refine .of_answer? ?_
    rw [hturn, State.restart, if_pos ⟨most, rfl, hgiveUp⟩, hzero (by omega)]
    rfl
  · refine .of_turn ?_ (hmore (by omega))
    rw [hturn, State.restart, if_neg]
    rintro ⟨_, ⟨⟩, hle⟩
    exact hgiveUp hle

/-- The passes of a run are turns of the loop. -/
theorem answers_run (hpasses : 0 < passes) {restarts : Nat} (h : restarts + passes = max most 1) :
    Answers e clock after (some most) ⟨.year, c, restarts⟩ (run e clock after passes c) := by
  induction passes generalizing c restarts with
  | zero => exact absurd hpasses (Nat.lt_irrefl 0)
  | succ passes ih =>
    obtain ⟨t, hreach, hrestarts, hstop, hlast⟩ :=
      exists_reaches_descend e clock after (some most) .year c restarts
    have hpass : step e t.stage t.cursor = pass e c := hstop
    refine .of_reaches hreach ?_
    subst hrestarts
    cases hcase : pass e c with
    | exhausted =>
      rw [run_of_exhausted hcase]
      refine .of_answer? ?_
      simp only [State.turn, hpass, hcase, Turn.answer?]
    | restart c' =>
      rw [run_of_restart hcase]
      refine answers_restart h ?_ ?_ fun hmore => ih hmore (by omega)
      · simp only [State.turn, hpass, hcase]
      · rintro rfl
        rfl
    | settled c' =>
      have hnext : t.stage.succ? = none := hlast c' hcase
      cases hwall : c'.wall? with
      | none =>
        refine .of_answer? ?_
        simp only [State.turn, run, hpass, hcase, hnext, hwall, Turn.answer?]
      | some wall =>
        cases hstamp : clock.instantAfter wall.seconds after with
        | some stamp =>
          refine .of_answer? ?_
          simp only [State.turn, run, hpass, hcase, hnext, hwall, hstamp, Turn.answer?]
        | none =>
          have hrun : run e clock after (passes + 1) c
              = run e clock after passes { c' with second := c'.second + 1 } := by
            simp only [run, hcase, hwall, hstamp]
          rw [hrun]
          refine answers_restart h ?_ ?_ fun hmore => ih hmore (by omega)
          · simp only [State.turn, hpass, hcase, hnext, hwall, hstamp]
          · rintro rfl
            rfl

end run

/-! ### What a stage relies on -/

/-- What a pass relies on when it enters a stage: the units of the stages before are placed. -/
def Entered (e : Expression) : Stage → Cursor → Prop
  | .year, _ => True
  | .month, c => YearPlaced e c
  | .day, c => MonthPlaced e c
  | .weekday, c => DayPlaced e c
  | .hour, c => DatePlaced e c
  | .minute, c => HourPlaced e c
  | .second, c => MinutePlaced e c

/-- What holds when a stage is settled: the next one can be entered, or the whole cursor is placed. -/
def Settled (e : Expression) (stage : Stage) (c : Cursor) : Prop :=
  stage.succ?.elim (Placed e c) fun next => Entered e next c

theorem Placed.bounded (hwf : e.WellFormed) (h : Placed e c) : Bounded c := by
  have hmonth := h.month_bounds hwf
  have hday := h.day_bounds hwf
  have hhour := h.hour_le hwf
  have hminute := h.minute_le hwf
  have hsecond := h.second_le hwf
  constructor <;> omega

/-- The second after a match may have run over. -/
theorem Placed.bounded_bump (hwf : e.WellFormed) (h : Placed e c) :
    Bounded { c with second := c.second + 1 } := by
  have hbounded := h.bounded hwf
  have hsecond := h.second_le hwf
  exact ⟨hbounded.month, hbounded.day, hbounded.hour, hbounded.minute, by dsimp only; omega⟩

/-! ### What comes of a stage -/

theorem step_outcome (hwf : e.WellFormed) (h : Entered e stage c) :
    Outcome e c (Settled e stage) (step e stage c) := by
  cases stage with
  | year => exact yearStage_outcome hwf
  | month => exact monthStage_outcome hwf h
  | day => exact dayStage_outcome hwf h
  | weekday => exact weekdayStage_outcome hwf h
  | hour => exact hourStage_outcome hwf h
  | minute => exact minuteStage_outcome hwf h
  | second => exact secondStage_outcome hwf h

/-- A stage that is settled leaves no unit out of bounds. -/
theorem bounded_of_step (hwf : e.WellFormed) (hentered : Entered e stage c) (h : Bounded c)
    (hstep : step e stage c = .settled c') : Bounded c' := by
  cases stage with
  | year =>
    rw [step] at hstep
    refine bounded_of_place (fun v _ => ?_) (fun _ => by simp) hstep
    exact ⟨h.month, h.day, h.hour, h.minute, h.second⟩
  | month =>
    rw [step] at hstep
    refine bounded_of_place (fun v hv => ?_) (fun _ => by simp) hstep
    have hv' : 1 ≤ v ∧ v ≤ 12 := hwf.date.months.bounds hv
    exact ⟨by dsimp only; omega, h.day, h.hour, h.minute, h.second⟩
  | day =>
    rw [step] at hstep
    by_cases hnil : e.date.days.values (daysInMonth c.year c.month) = []
    · rw [placeDay_of_eq_nil hwf hnil] at hstep
      cases hstep
    · rw [placeDay_of_ne_nil hnil] at hstep
      refine bounded_of_place (fun v hv => ?_) (fun _ => by simp) hstep
      have hday := ((mem_values_daysInMonth hwf hentered).mp hv).1
      have hv' : 1 ≤ v ∧ v ≤ 31 := hwf.date.days.bounds hday
      exact ⟨h.month, by dsimp only; omega, h.hour, h.minute, h.second⟩
  | weekday =>
    rw [step, placeWeekday] at hstep
    split at hstep
    · cases hstep
    · split_ifs at hstep
      cases hstep
      exact h
  | hour =>
    rw [step] at hstep
    refine bounded_of_place (fun v hv => ?_) (fun _ => by simp) hstep
    have hv' : 0 ≤ v ∧ v ≤ 23 := hwf.time.hours.bounds hv
    exact ⟨h.month, h.day, by dsimp only; omega, h.minute, h.second⟩
  | minute =>
    rw [step] at hstep
    refine bounded_of_place (fun v hv => ?_) (fun _ => by simp) hstep
    have hv' : 0 ≤ v ∧ v ≤ 59 := hwf.time.minutes.bounds hv
    exact ⟨h.month, h.day, h.hour, by dsimp only; omega, h.second⟩
  | second =>
    rw [step] at hstep
    refine bounded_of_place (fun v hv => ?_) (fun _ => by simp) hstep
    have hv' : 0 ≤ v ∧ v ≤ 59 := hwf.time.seconds.bounds hv
    exact ⟨h.month, h.day, h.hour, h.minute, by dsimp only; omega⟩

/-- Only years can be used up. -/
theorem eq_year_of_step_eq_exhausted (hwf : e.WellFormed) (hentered : Entered e stage c)
    (hstep : step e stage c = .exhausted) : stage = .year := by
  by_contra hyear
  refine absurd hstep ?_
  cases stage with
  | year => exact absurd rfl hyear
  | month =>
    rw [step]
    exact place_ne_exhausted hwf.date.months.values_ne_nil fun _ => by simp
  | day =>
    rw [step]
    by_cases hnil : e.date.days.values (daysInMonth c.year c.month) = []
    · rw [placeDay_of_eq_nil hwf hnil]
      simp
    · rw [placeDay_of_ne_nil hnil]
      exact place_ne_exhausted hnil fun _ => by simp
  | weekday =>
    have hvalid := DayPlaced.isValid_date hwf hentered
    rw [step, placeWeekday, Cursor.date?_eq_some hvalid]
    dsimp only
    split_ifs <;> simp
  | hour =>
    rw [step]
    exact place_ne_exhausted hwf.time.hours.values_ne_nil fun _ => by simp
  | minute =>
    rw [step]
    exact place_ne_exhausted hwf.time.minutes.values_ne_nil fun _ => by simp
  | second =>
    rw [step]
    exact place_ne_exhausted hwf.time.seconds.values_ne_nil fun _ => by simp

/-! ### What comes of a state -/

theorem Entered.yearPlaced (h : Entered e stage c) (hstage : stage ≠ .year) : YearPlaced e c := by
  cases stage with
  | year => exact absurd rfl hstage
  | month => exact h
  | day => exact MonthPlaced.toYearPlaced h
  | weekday => exact DayPlaced.toMonthPlaced h |>.toYearPlaced
  | hour => exact DatePlaced.toDayPlaced h |>.toYearPlaced
  | minute => exact HourPlaced.toDatePlaced h |>.toYearPlaced
  | second => exact MinutePlaced.toHourPlaced h |>.toYearPlaced

/-- What holds whenever a stage is entered. -/
structure State.Inv (e : Expression) (s : State) : Prop where
  entered : Entered e s.stage s.cursor
  bounded : Bounded s.cursor

theorem State.inv_start (e : Expression) (clock : Clock) (after : Instant) :
    (start clock after).Inv e :=
  ⟨trivial, bounded_of_startingAfter _⟩

/-- Everything that a turn can come to, and why. -/
inductive TurnsTo (e : Expression) (clock : Clock) (after : Instant) (ceiling : Option Nat)
    (s : State) : Turn → Prop
  | settled {c : Cursor} {stage : Stage} (step : step e s.stage s.cursor = .settled c)
    (next : s.stage.succ? = some stage) :
    TurnsTo e clock after ceiling s (.next ⟨stage, c, s.restarts⟩)
  | carried {c : Cursor} {r : Turn} (step : step e s.stage s.cursor = .restart c)
    (restart : s.restart ceiling c = r) : TurnsTo e clock after ceiling s r
  | exhausted (step : step e s.stage s.cursor = .exhausted) :
    TurnsTo e clock after ceiling s .exhausted
  | unreadable {c : Cursor} (step : step e s.stage s.cursor = .settled c)
    (last : s.stage.succ? = none) (reading : c.wall? = none) :
    TurnsTo e clock after ceiling s .unreadable
  | found {c : Cursor} {wall : WallTime} {stamp : Stamp} (step : step e s.stage s.cursor = .settled c)
    (last : s.stage.succ? = none) (reading : c.wall? = some wall)
    (live : clock.instantAfter wall.seconds after = some stamp) :
    TurnsTo e clock after ceiling s (.found stamp)
  | rejected {c : Cursor} {wall : WallTime} {r : Turn} (step : step e s.stage s.cursor = .settled c)
    (last : s.stage.succ? = none) (reading : c.wall? = some wall)
    (dead : clock.instantAfter wall.seconds after = none)
    (restart : s.restart ceiling { c with second := c.second + 1 } = r) :
    TurnsTo e clock after ceiling s r

theorem turnsTo_turn (e : Expression) (clock : Clock) (after : Instant) (ceiling : Option Nat)
    (s : State) : TurnsTo e clock after ceiling s (s.turn e clock after ceiling) := by
  unfold State.turn
  split
  next hstep => exact .exhausted hstep
  next c hstep => exact .carried hstep rfl
  next c hstep =>
    split
    next stage hnext => exact .settled hstep hnext
    next hlast =>
      split
      next hwall => exact .unreadable hstep hlast hwall
      next wall hwall =>
        split
        next stamp hlive => exact .found hstep hlast hwall hlive
        next hdead => exact .rejected hstep hlast hwall hdead rfl

theorem TurnsTo.of_turn_eq {r : Turn} (h : s.turn e clock after ceiling = r) :
    TurnsTo e clock after ceiling s r :=
  h ▸ turnsTo_turn e clock after ceiling s

theorem step_of_turn_eq_exhausted (h : s.turn e clock after ceiling = .exhausted) :
    step e s.stage s.cursor = .exhausted := by
  have hnot (c : Cursor) : s.restart ceiling c ≠ .exhausted := by
    rcases s.restart_cases ceiling c with heq | heq <;> simp [heq]
  cases TurnsTo.of_turn_eq h with
  | exhausted hstep => exact hstep
  | carried _ hrestart => exact absurd hrestart (hnot _)
  | rejected _ _ _ _ hrestart => exact absurd hrestart (hnot _)

/-- What becomes of a state when the search goes on. -/
structure Moves (e : Expression) (clock : Clock) (after : Instant) (s t : State) : Prop where
  inv : t.Inv e
  year_le : t.cursor.year ≤ 2200
  moved : s.stage.succ? = some t.stage ∧ t.restarts = s.restarts ∧ s.cursor ≤ t.cursor ∨
    t.stage = .year ∧ t.restarts = s.restarts + 1 ∧ s.cursor < t.cursor
  /-- No match that could be found is passed over. -/
  none : ∀ m, Placed e m → Live clock after m → s.cursor ≤ m → t.cursor ≤ m

theorem State.Inv.moves (hwf : e.WellFormed) (h : s.Inv e)
    (hturn : s.turn e clock after ceiling = .next t) : Moves e clock after s t := by
  have houtcome := step_outcome hwf h.entered
  cases TurnsTo.of_turn_eq hturn with
  | @settled c next hstep hnext =>
    rw [hstep] at houtcome
    obtain ⟨hsettled, hle, _, hnone⟩ | _ | _ := houtcome
    have hentered : Entered e next c := by
      rw [Settled, hnext] at hsettled
      exact hsettled
    have hyear := (hentered.yearPlaced (Stage.ne_year_of_succ? hnext)).year_bounds hwf
    exact ⟨⟨hentered, bounded_of_step hwf h.entered h.bounded hstep⟩, by dsimp only; omega,
      .inl ⟨hnext, rfl, hle⟩, fun m hm _ => hnone m hm⟩
  | @carried c _ hstep hrestart =>
    obtain rfl := State.eq_of_restart_eq_next hrestart
    rw [hstep] at houtcome
    obtain _ | ⟨hcarried, hlt, _, hnone⟩ | _ := houtcome
    exact ⟨⟨trivial, hcarried.bounded⟩, hcarried.year.2, .inr ⟨rfl, rfl, hlt⟩,
      fun m hm _ => hnone m hm⟩
  | @rejected c wall _ hstep hlast hwall hdead hrestart =>
    obtain rfl := State.eq_of_restart_eq_next hrestart
    rw [hstep] at houtcome
    obtain ⟨hsettled, hle, _, hnone⟩ | _ | _ := houtcome
    have hplaced : Placed e c := by
      rw [Settled, hlast] at hsettled
      exact hsettled
    have hyear := hplaced.year_bounds hwf
    have hlt : s.cursor < { c with second := c.second + 1 } :=
      hle.trans_lt (Cursor.bump_le_iff.mp le_rfl)
    refine ⟨⟨trivial, hplaced.bounded_bump hwf⟩, by dsimp only; omega, .inr ⟨rfl, rfl, hlt⟩, ?_⟩
    intro m hm hlive hcm
    -- the match that is rejected is not live
    have hvalid := ((matches_wall_iff hwf).mpr hplaced).1
    have hne : c ≠ m := by
      rintro rfl
      rw [Cursor.wall?_eq_some hvalid] at hwall
      obtain rfl := Option.some.inj hwall
      simp [Live, hdead] at hlive
    exact Cursor.bump_le_iff.mpr ((hnone m hm hcm).lt_of_ne hne)

/-- What is settled in the end is a reading of a clock. -/
theorem State.Inv.isValid_of_settled (hwf : e.WellFormed) (h : s.Inv e)
    (hlast : s.stage.succ? = none) (hstep : step e s.stage s.cursor = .settled c) :
    c.wall.IsValid := by
  have houtcome := step_outcome hwf h.entered
  rw [hstep] at houtcome
  obtain ⟨hsettled, _, _, _⟩ | _ | _ := houtcome
  rw [Settled, hlast] at hsettled
  exact ((matches_wall_iff hwf).mpr hsettled).1

theorem State.Inv.turn_ne_unreadable (hwf : e.WellFormed) (h : s.Inv e) :
    s.turn e clock after ceiling ≠ .unreadable := by
  intro hturn
  have hnot (c : Cursor) : s.restart ceiling c ≠ .unreadable := by
    rcases s.restart_cases ceiling c with heq | heq <;> simp [heq]
  cases TurnsTo.of_turn_eq hturn with
  | carried _ hrestart => exact hnot _ hrestart
  | unreadable hstep hlast hwall =>
    rw [Cursor.wall?_eq_some (h.isValid_of_settled hwf hlast hstep)] at hwall
    cases hwall
  | rejected _ _ _ _ hrestart => exact hnot _ hrestart

/-! ### Runs of the loop -/

theorem State.Inv.of_reaches (hwf : e.WellFormed) (h : s.Inv e)
    (hreach : Reaches e clock after ceiling s t) : t.Inv e := by
  induction hreach with
  | refl => exact h
  | tail _ hturn ih => exact (ih.moves hwf hturn).inv

/-- In a later pass the cursor has moved on. -/
theorem State.Inv.cursor_of_reaches (hwf : e.WellFormed) (h : s.Inv e)
    (hreach : Reaches e clock after ceiling s t) :
    s.cursor ≤ t.cursor ∧ s.restarts ≤ t.restarts ∧ (s.restarts < t.restarts → s.cursor < t.cursor) := by
  induction hreach with
  | refl => exact ⟨le_rfl, le_rfl, fun hlt => absurd hlt (lt_irrefl _)⟩
  | @tail t u hreach hturn ih =>
    obtain ⟨hle, hrestarts, hlater⟩ := ih
    obtain ⟨_, heq, hle'⟩ | ⟨_, heq, hlt⟩ := ((h.of_reaches hwf hreach).moves hwf hturn).moved
    · refine ⟨hle.trans hle', by omega, fun h => ?_⟩
      rw [heq] at h
      exact (hlater h).trans_le hle'
    · exact ⟨(hle.trans_lt hlt).le, by omega, fun _ => hle.trans_lt hlt⟩

/-- No match that could be found is passed over. -/
theorem State.Inv.le_of_reaches (hwf : e.WellFormed) (h : s.Inv e)
    (hreach : Reaches e clock after ceiling s t) {m : Cursor} (hm : Placed e m)
    (hlive : Live clock after m) (hle : s.cursor ≤ m) : t.cursor ≤ m := by
  induction hreach with
  | refl => exact hle
  | tail hreach hturn ih => exact ((h.of_reaches hwf hreach).moves hwf hturn).none _ hm hlive ih

/-- How many turns there are from a given one on, at most. -/
def State.turnsLeft (s : State) : Nat :=
  cursorsLeft s.cursor * 7 + s.stage.onward.length

theorem Moves.turnsLeft_lt (hs : s.Inv e) (h : Moves e clock after s t) :
    t.turnsLeft < s.turnsLeft := by
  unfold State.turnsLeft
  obtain ⟨hnext, _, hle⟩ | ⟨hyear, _, hlt⟩ := h.moved
  · have hcursors : cursorsLeft t.cursor ≤ cursorsLeft s.cursor := by
      rcases hle.eq_or_lt with heq | hlt
      · rw [heq]
      · exact (cursorsLeft_lt hs.bounded h.inv.bounded h.year_le hlt).le
    have hstages : s.stage.onward.length = t.stage.onward.length + 1 := by
      rw [Stage.onward_eq, hnext]
      rfl
    omega
  · have hcursors := cursorsLeft_lt hs.bounded h.inv.bounded h.year_le hlt
    have hall : t.stage.onward.length = 7 := by
      rw [hyear]
      rfl
    have hpos : 0 < s.stage.onward.length := by
      rw [Stage.onward_eq]
      exact Nat.succ_pos _
    omega

/-- The loop comes to an end, even if nothing limits the number of passes. -/
theorem State.Inv.exists_answers (hwf : e.WellFormed) (h : s.Inv e) :
    ∃ answer, Answers e clock after ceiling s answer := by
  induction hturns : s.turnsLeft using Nat.strong_induction_on generalizing s with
  | _ n ih =>
    subst hturns
    cases hturn : s.turn e clock after ceiling with
    | next t =>
      have hmoves := h.moves hwf hturn
      obtain ⟨answer, hanswer⟩ := ih _ (hmoves.turnsLeft_lt h) hmoves.inv rfl
      exact ⟨answer, .of_turn hturn hanswer⟩
    | found stamp => exact ⟨some stamp, .of_answer? (by rw [hturn]; rfl)⟩
    | exhausted => exact ⟨none, .of_answer? (by rw [hturn]; rfl)⟩
    | unreadable => exact ⟨none, .of_answer? (by rw [hturn]; rfl)⟩
    | gaveUp => exact ⟨none, .of_answer? (by rw [hturn]; rfl)⟩

/-- What the loop relies on in a state. -/
structure State.Sound (e : Expression) (s : State) : Prop where
  bounded : Bounded s.cursor
  month : s.stage = .day → (1970 ≤ s.cursor.year ∧ s.cursor.year ≤ 2199) ∧
    1 ≤ s.cursor.month ∧ s.cursor.month ≤ 12
  date : s.stage = .weekday → s.cursor.date?.isSome
  /-- What is settled by the last stage is a date, and a reading of a clock. -/
  wall : ∀ c, s.stage = .second → step e .second s.cursor = .settled c →
    c.date?.isSome ∧ c.wall?.isSome
  exhausted : step e s.stage s.cursor = .exhausted → s.stage = .year

theorem State.Inv.sound (hwf : e.WellFormed) (h : s.Inv e) : s.Sound e := by
  obtain ⟨stage, c, restarts⟩ := s
  have hentered := h.entered
  refine ⟨h.bounded, ?month, ?date, ?wall, eq_year_of_step_eq_exhausted hwf hentered⟩
  case month =>
    rintro rfl
    have hplaced : MonthPlaced e c := hentered
    exact ⟨hplaced.year_bounds hwf, hplaced.month_bounds hwf⟩
  case date =>
    rintro rfl
    have hvalid : c.wall.date.IsValid := DayPlaced.isValid_date hwf hentered
    exact Option.isSome_of_eq_some (Cursor.date?_eq_some hvalid)
  case wall =>
    rintro c' rfl hstep
    have hvalid : c'.wall.IsValid := h.isValid_of_settled hwf rfl hstep
    exact ⟨Option.isSome_of_eq_some (Cursor.date?_eq_some hvalid.1),
      Option.isSome_of_eq_some (Cursor.wall?_eq_some hvalid)⟩

end Search

namespace Expression

open Search

variable [ZoneDatabase] {e : Expression} {clock : Clock} {after : Instant}

/-- The search by passes answers what the loop ends with. -/
theorem answers_nextBy (e : Expression) (clock : Clock) (after : Instant) (limit : SearchLimit) :
    Answers e clock after (some limit.maxPasses) (.start clock after) (e.nextBy clock limit after) := by
  have hpos : 0 < limit.passes := Nat.lt_of_lt_of_le Nat.zero_lt_one (le_max_right _ _)
  exact answers_run hpos (Nat.zero_add _)

/-! ### Searches that give up -/

/-- The search gives up, since passes have begun again as often as it may happen. -/
def CutOff (e : Expression) (clock : Clock) (limit : SearchLimit) (after : Instant) : Prop :=
  ∃ s, Reaches e clock after (some limit.maxPasses) (.start clock after) s ∧
    s.turn e clock after (some limit.maxPasses) = .gaveUp

variable {limit : SearchLimit}

theorem not_cutOff_of_nextBy_eq_some {stamp : Stamp} (h : e.nextBy clock limit after = some stamp) :
    ¬e.CutOff clock limit after := by
  rintro ⟨s, hs, hgaveUp⟩
  have hnone : none = e.nextBy clock limit after :=
    (answers_nextBy e clock after limit).eq_of_answer? hs (by rw [hgaveUp]; rfl)
  rw [h] at hnone
  cases hnone

/-- A search that finds nothing, but has not given up, has nothing to find. -/
theorem not_live_of_nextBy_eq_none (hwf : e.WellFormed) (h : e.nextBy clock limit after = none)
    (huncut : ¬e.CutOff clock limit after) {wall : WallTime} (hwall : e.Matches wall)
    (hlater : clock.read after.seconds < wall.seconds) :
    clock.instantAfter wall.seconds after = none := by
  obtain ⟨m, hm, rfl⟩ := exists_cursor_of_matches hwf hwall
  have hstart : (State.start clock after).Inv e := State.inv_start e clock after
  obtain ⟨t, ht, hanswer⟩ := answers_nextBy e clock after limit
  have hinv := hstart.of_reaches hwf ht
  rw [h] at hanswer
  by_contra hlive
  -- the match has not been passed over, so years are not used up in the end
  have hle : t.cursor ≤ m :=
    hstart.le_of_reaches hwf ht hm (Option.isSome_iff_ne_none.mpr hlive)
      ((startingAfter_le_iff hwf hm).mpr hlater)
  have houtcome := step_outcome hwf hinv.entered
  cases hturn : t.turn e clock after (some limit.maxPasses) with
  | next u =>
    rw [hturn] at hanswer
    cases hanswer
  | found stamp =>
    rw [hturn] at hanswer
    cases hanswer
  | exhausted =>
    rw [step_of_turn_eq_exhausted hturn] at houtcome
    obtain _ | _ | hnone := houtcome
    exact hnone m hm hle
  | unreadable => exact absurd hturn (hinv.turn_ne_unreadable hwf)
  | gaveUp => exact huncut ⟨t, ht, hturn⟩

/-! ### What the loop keeps -/

/-- A search is the loop under its limit.  Under every limit, and under none, the loop never comes to a
state it could not go on from, other than a year for which no later one is left; each time a pass begins
again the cursor is greater than before, by year, month, day, hour, minute and second in this order; and
the loop comes to an end. -/
theorem loop_sound {text : String} (parsed : parse text = .ok e) (clock : Clock) (after : Instant) :
    (∀ limit : SearchLimit, Answers e clock after (some limit.maxPasses) (.start clock after)
      (e.nextBy clock limit after)) ∧
    ∀ ceiling : Option Nat,
      (∀ s, Reaches e clock after ceiling (.start clock after) s → s.Sound e) ∧
      (∀ s t, Reaches e clock after ceiling (.start clock after) s →
        Reaches e clock after ceiling s t → s.restarts < t.restarts → s.cursor < t.cursor) ∧
      ∃ answer, Answers e clock after ceiling (.start clock after) answer := by
  have hwf := wellFormed_of_parse parsed
  have hstart : (State.start clock after).Inv e := State.inv_start e clock after
  refine ⟨answers_nextBy e clock after, fun ceiling => ⟨?sound, ?greater, ?ends⟩⟩
  case sound =>
    intro s hreach
    exact (hstart.of_reaches hwf hreach).sound hwf
  case greater =>
    intro s t hs ht hlater
    obtain ⟨_, _, hgreater⟩ := (hstart.of_reaches hwf hs).cursor_of_reaches hwf ht
    exact hgreater hlater
  case ends => exact hstart.exists_answers hwf

end Expression

/-- The last day of January is no Sunday in 2024, so the next pass begins with the 32nd. -/
theorem Expression.loop_sound_dayPast : ∃ e, parse "Sun *-1-31 UTC" = .ok e ∧
    ∃ s, Search.Reaches e e.zone.clock (.ofSeconds 1706572800) none
        (.start e.zone.clock (.ofSeconds 1706572800)) s ∧
      s.cursor = ⟨2024, 1, 32, 0, 0, 0⟩ ∧ s.restarts = 1 ∧ s.Sound e ∧
      (∀ t, Search.Reaches e e.zone.clock (.ofSeconds 1706572800) none s t → 1 < t.restarts →
        s.cursor < t.cursor) ∧
      ∃ answer, Search.Answers e e.zone.clock (.ofSeconds 1706572800) none
        (.start e.zone.clock (.ofSeconds 1706572800)) answer := by
  let e : Expression :=
    ⟨⟨[⟨7, none⟩]⟩, ⟨.omitted .years, ⟨[⟨1, none, none⟩]⟩, ⟨[⟨31, none, none⟩]⟩⟩, .omitted,
      .named "UTC" (by decide +kernel)⟩
  have parsed : parse "Sun *-1-31 UTC" = .ok e := by decide +kernel
  obtain ⟨_, hloop⟩ := loop_sound parsed e.zone.clock (.ofSeconds 1706572800)
  obtain ⟨hsound, hgreater, hends⟩ := hloop none
  -- the year and the month stay, the day moves on to the last one
  have hreach : Search.Reaches e e.zone.clock (.ofSeconds 1706572800) none
      (.start e.zone.clock (.ofSeconds 1706572800)) ⟨.year, ⟨2024, 1, 32, 0, 0, 0⟩, 1⟩ := by
    apply Relation.ReflTransGen.head (b := ⟨.month, ⟨2024, 1, 30, 0, 0, 1⟩, 0⟩) (by decide +kernel)
    apply Relation.ReflTransGen.head (b := ⟨.day, ⟨2024, 1, 30, 0, 0, 1⟩, 0⟩) (by decide +kernel)
    apply Relation.ReflTransGen.head (b := ⟨.weekday, ⟨2024, 1, 31, 0, 0, 0⟩, 0⟩) (by decide +kernel)
    exact Relation.ReflTransGen.single (by decide +kernel)
  exact ⟨e, parsed, _, hreach, rfl, rfl, hsound _ hreach, fun t => hgreater _ t hreach, hends⟩

end Recurrence
