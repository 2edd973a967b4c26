import Mathlib.Data.Set.Card
import Recurrence.Proofs.Search.Passed

/-!
# Dates that a search has to try

A search moves on past a date on a wrong weekday by beginning a pass again.  So on the way to the first
match, passes begin again at least as often as there are dates on which the expression would have a match
but for its weekdays (`Expression.FindsAfter.ncard_datesBefore_le`).
-/

namespace Recurrence

open Calendar

/-- The expression without its filter on weekdays. -/
def Expression.unfiltered [ZoneDatabase] (e : Expression) : Expression :=
  { e with weekdays := .all }

theorem Expression.WellFormed.unfiltered [ZoneDatabase] {e : Expression} (h : e.WellFormed) :
    e.unfiltered.WellFormed :=
  ⟨WeekdaySeries.wellFormed_all, h.date, h.time⟩

theorem contains_all_weekday (date : Date) : WeekdaySeries.all.contains date.weekday = true := by
  simp [WeekdaySeries.contains, WeekdaySeries.all, WeekdaySpan.contains, date.weekday_bounds]

namespace Search

variable [ZoneDatabase] {e : Expression} {clock : Clock} {after : Instant} {ceiling : Option Nat}
  {s t : State} {c c' m : Cursor} {stage : Stage}

/-! ### Without the filter -/

/-- Only the stage of the weekday looks at the weekdays. -/
theorem step_unfiltered (hstage : stage ≠ .weekday) :
    step e.unfiltered stage c = step e stage c := by
  cases stage <;> first | rfl | exact absurd rfl hstage

theorem DatePlaced.unfiltered (h : DayPlaced e c) : DatePlaced e.unfiltered c :=
  ⟨⟨⟨⟨h.year⟩, h.month⟩, h.day, h.real⟩, contains_all_weekday _⟩

theorem Entered.unfiltered (h : Entered e stage c) : Entered e.unfiltered stage c := by
  cases stage with
  | year => trivial
  | month =>
    have h : YearPlaced e c := h
    exact ⟨h.year⟩
  | day =>
    have h : MonthPlaced e c := h
    exact ⟨⟨h.year⟩, h.month⟩
  | weekday =>
    have h : DayPlaced e c := h
    exact (DatePlaced.unfiltered h).toDayPlaced
  | hour =>
    have h : DatePlaced e c := h
    exact DatePlaced.unfiltered h.toDayPlaced
  | minute =>
    have h : HourPlaced e c := h
    exact ⟨DatePlaced.unfiltered h.toDayPlaced, h.hour⟩
  | second =>
    have h : MinutePlaced e c := h
    exact ⟨⟨DatePlaced.unfiltered h.toDayPlaced, h.hour⟩, h.minute⟩

/-! ### What a turn leaves behind -/

/-- The dates on the way from one cursor to another one, which is not included, on which the expression
would have a match but for its weekdays. -/
def datesBefore (e : Expression) (c m : Cursor) : Set Cursor :=
  {p | ∃ n, Placed e.unfiltered n ∧ c ≤ n ∧ n < m ∧ n.clearBelow .day = p}

theorem finite_datesBefore (hwf : e.WellFormed) : (datesBefore e c m).Finite := by
  refine finite_bounded.subset ?_
  rintro _ ⟨n, hn, _, _, rfl⟩
  have hyear := hn.year_bounds hwf.unfiltered
  exact ⟨(hn.bounded hwf.unfiltered).clearBelow .day, by simp only [Cursor.clearBelow]; omega⟩

theorem datesBefore_subset (hnone : PassesNone e.unfiltered c c') :
    datesBefore e c m ⊆ datesBefore e c' m := by
  rintro p ⟨n, hn, hle, hlt, rfl⟩
  exact ⟨n, hn, hnone n hn hle, hlt, rfl⟩

theorem passesNone_of_step_eq_settled (hwf : e.WellFormed) (h : Entered e stage c)
    (hstep : step e stage c = .settled c') : PassesNone e.unfiltered c c' := by
  by_cases hstage : stage = .weekday
  · subst hstage
    rw [step, placeWeekday] at hstep
    split at hstep
    · cases hstep
    · split_ifs at hstep
      cases hstep
      exact fun _ _ hle => hle
  · have houtcome := step_outcome hwf.unfiltered h.unfiltered
    rw [step_unfiltered hstage, hstep] at houtcome
    obtain ⟨_, _, _, hnone⟩ | _ | _ := houtcome
    exact hnone

/-- A pass that begins again leaves one date behind at most, on a wrong weekday. -/
theorem datesBefore_subset_of_step_eq_restart (hwf : e.WellFormed) (h : Entered e stage c)
    (hstep : step e stage c = .restart c') :
    datesBefore e c m ⊆ insert (c.clearBelow .day) (datesBefore e c' m) := by
  by_cases hstage : stage = .weekday
  · subst hstage
    rw [step, placeWeekday] at hstep
    split at hstep
    · cases hstep
    · split_ifs at hstep
      cases hstep
      rintro p ⟨n, hn, hle, hlt, rfl⟩
      by_cases hsame : n.clearBelow .day = c.clearBelow .day
      · exact .inl hsame
      · refine .inr ⟨n, hn, ?_, hlt, rfl⟩
        simp only [Cursor.clearBelow, Cursor.mk.injEq, and_true, Field.min] at hsame ⊢
        rw [Cursor.le_iff] at hle ⊢
        dsimp only
        omega
  · have houtcome := step_outcome hwf.unfiltered h.unfiltered
    rw [step_unfiltered hstage, hstep] at houtcome
    obtain _ | ⟨_, _, _, hnone⟩ | _ := houtcome
    exact (datesBefore_subset hnone).trans (Set.subset_insert _ _)

theorem datesBefore_subset_bump :
    datesBefore e c m ⊆ insert (c.clearBelow .day) (datesBefore e { c with second := c.second + 1 } m) := by
  rintro p ⟨n, hn, hle, hlt, rfl⟩
  rcases hle.eq_or_lt with rfl | hcn
  · exact .inl rfl
  · exact .inr ⟨n, hn, Cursor.bump_le_iff.mpr hcn, hlt, rfl⟩

theorem State.Inv.ncard_datesBefore_le_of_turn (hwf : e.WellFormed) (h : s.Inv e)
    (hturn : s.turn e clock after ceiling = .next t) :
    (datesBefore e s.cursor m).ncard + s.restarts ≤ (datesBefore e t.cursor m).ncard + t.restarts := by
  have hless {c c' : Cursor} {p : Cursor}
      (hsub : datesBefore e c m ⊆ insert p (datesBefore e c' m)) :
      (datesBefore e c m).ncard ≤ (datesBefore e c' m).ncard + 1 :=
    (Set.ncard_le_ncard hsub ((finite_datesBefore hwf).insert _)).trans (Set.ncard_insert_le _ _)
  cases TurnsTo.of_turn_eq hturn with
  | settled hstep _ =>
    have hnone := passesNone_of_step_eq_settled hwf h.entered hstep
    exact Nat.add_le_add_right
      (Set.ncard_le_ncard (datesBefore_subset hnone) (finite_datesBefore hwf)) _
  | carried hstep hrestart =>
    obtain rfl := State.eq_of_restart_eq_next hrestart
    have hone := hless (datesBefore_subset_of_step_eq_restart (m := m) hwf h.entered hstep)
    dsimp only at hone ⊢
    omega
  | @rejected c _ _ hstep _ _ _ hrestart =>
    obtain rfl := State.eq_of_restart_eq_next hrestart
    have hnone := passesNone_of_step_eq_settled hwf h.entered hstep
    have hone := hless (datesBefore_subset_bump (e := e) (c := c) (m := m))
    have hsettled := Set.ncard_le_ncard (datesBefore_subset (m := m) hnone) (finite_datesBefore hwf)
    dsimp only at hone ⊢
    omega

theorem exists_step_of_turn_eq_found {stamp : Stamp} (h : s.turn e clock after ceiling = .found stamp) :
    ∃ c, step e s.stage s.cursor = .settled c ∧ s.stage.succ? = none := by
  have hnot (c : Cursor) : s.restart ceiling c ≠ .found stamp := by
    rcases s.restart_cases ceiling c with heq | heq <;> simp [heq]
  cases TurnsTo.of_turn_eq h with
  | carried _ hrestart => exact absurd hrestart (hnot _)
  | found hstep hlast _ _ => exact ⟨_, hstep, hlast⟩
  | rejected _ _ _ _ hrestart => exact absurd hrestart (hnot _)

/-- Every date that is left behind has cost a pass. -/
theorem State.Inv.ncard_datesBefore_le (hwf : e.WellFormed) (h : s.Inv e)
    (hreach : Reaches e clock after ceiling s t) :
    (datesBefore e s.cursor m).ncard + s.restarts ≤ (datesBefore e t.cursor m).ncard + t.restarts := by
  induction hreach with
  | refl => exact Nat.le_refl _
  | tail hreach hturn ih =>
    exact ih.trans ((h.of_reaches hwf hreach).ncard_datesBefore_le_of_turn hwf hturn)

end Search

namespace Expression

open Search

variable [ZoneDatabase] {e : Expression} {clock : Clock} {after : Instant} {stamp : Stamp}
  {restarts : Nat} {m : Cursor}

/-- Up to the first match, passes begin again at least as often as there are dates to try. -/
theorem FindsAfter.ncard_datesBefore_le (hwf : e.WellFormed)
    (h : e.FindsAfter clock after stamp restarts)
    (hfirst : IsLeast {n | Placed e n ∧ (State.start clock after).cursor ≤ n} m) :
    (datesBefore e (State.start clock after).cursor m).ncard ≤ restarts := by
  obtain ⟨s, hreach, hfound, rfl⟩ := h
  have hstart := State.inv_start e clock after
  have hs := hstart.of_reaches hwf hreach
  have hcost := hstart.ncard_datesBefore_le hwf hreach (m := m)
  -- what is found is not before the first match, and there is nothing to try before what is found
  have hnothing : datesBefore e s.cursor m = ∅ := by
    obtain ⟨c, hstep, hlast⟩ := exists_step_of_turn_eq_found hfound
    have houtcome := step_outcome hwf hs.entered
    rw [hstep] at houtcome
    obtain ⟨hsettled, hle, _, _⟩ | _ | _ := houtcome
    have hplaced : Placed e c := by
      rw [Settled, hlast] at hsettled
      exact hsettled
    have hmc : m ≤ c := hfirst.2 ⟨hplaced, (hstart.cursor_of_reaches hwf hreach).1.trans hle⟩
    refine Set.eq_empty_of_subset_empty
      ((datesBefore_subset (passesNone_of_step_eq_settled hwf hs.entered hstep)).trans ?_)
    rintro p ⟨n, _, hcn, hnm, _⟩
    exact absurd (hnm.trans_le hmc) (not_lt.mpr hcn)
  rw [hnothing, Set.ncard_empty] at hcost
  have hzero : (State.start clock after).restarts = 0 := rfl
  omega

end Expression

end Recurrence
