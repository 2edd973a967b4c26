import Mathlib.Algebra.Order.BigOperators.Group.List
import Mathlib.Data.Set.Card
import Recurrence.Proofs.Search.Ceiling

/-!
# What a search passes on its way

Whenever a pass begins again, the search leaves something behind that fits the expression so far and
still has no match in what is left of it: a year if the month starts over, a month if the day does, a
date if it falls on a wrong weekday or the hour starts over, and so on.  So on the way to a match, passes
begin again at most as often as there are such years, months, dates, hours, minutes and seconds to pass
(`State.Inv.restarts_add_toll_le`).  Of most kinds there is one at most, since a match is not far once its
date is found (`toll_le`).
-/

namespace Recurrence

namespace Search

theorem Stage.mem_all (stage : Stage) : stage ∈ all := by
  cases stage <;> decide

theorem finite_bounded : {p : Cursor | Bounded p ∧ p.year ≤ 2200}.Finite := by
  -- no two of them are followed by equally many
  refine Set.Finite.of_injOn (f := cursorsLeft) (t := {n | n < 100000000000}) ?_ ?_ (Set.finite_lt_nat _)
  · rintro p _
    show cursorsLeft p < 100000000000
    unfold cursorsLeft
    omega
  · rintro a ⟨ha, hayear⟩ b ⟨hb, hbyear⟩ heq
    rcases lt_trichotomy a b with hlt | rfl | hlt
    · exact absurd heq (cursorsLeft_lt ha hb hbyear hlt).ne'
    · rfl
    · exact absurd heq (cursorsLeft_lt hb ha hayear hlt).ne

theorem carry_of_place_eq_restart {stage : Stage} {next : Option Successor} {put : Nat → Cursor}
    {carry : Cursor → Step} {c' : Cursor} (h : place stage next put carry = .restart c') :
    ∃ v, carry (put v) = .restart c' := by
  cases next with
  | none => cases h
  | some next =>
    simp only [place] at h
    split_ifs at h
    exact ⟨next.value, h⟩

variable [ZoneDatabase] {e : Expression} {clock : Clock} {after : Instant} {ceiling : Option Nat}
  {s t : State} {c c' m p : Cursor} {stage prev : Stage}

/-! ### Cursors on the way -/

/-- The years, months, dates, hours, minutes or seconds, according to the stage, that fit the expression
and lie on the way from one cursor to another one, which is not included.  The first cursor of each stands
for it. -/
def passed (e : Expression) (stage : Stage) (c m : Cursor) : Set Cursor :=
  {p | Settled e stage p ∧ p.clearBelow stage = p ∧ c.clearBelow stage ≤ p ∧ p < m.clearBelow stage}

/-- How many there are of all kinds. -/
noncomputable def toll (e : Expression) (c m : Cursor) : Nat :=
  (Stage.all.map fun stage => (passed e stage c m).ncard).sum

/-- A stage that is settled stays so whatever the finer units are. -/
theorem Settled.clearBelow (h : Settled e stage c) : Settled e stage (c.clearBelow stage) := by
  cases stage with
  | year =>
    have h : YearPlaced e c := h
    exact ⟨h.year⟩
  | month =>
    have h : MonthPlaced e c := h
    exact ⟨⟨h.year⟩, h.month⟩
  | day =>
    have h : DayPlaced e c := h
    exact ⟨⟨⟨h.year⟩, h.month⟩, h.day, h.real⟩
  | weekday =>
    have h : DatePlaced e c := h
    exact ⟨⟨⟨⟨h.year⟩, h.month⟩, h.day, h.real⟩, h.weekday⟩
  | hour =>
    have h : HourPlaced e c := h
    exact ⟨⟨⟨⟨⟨h.year⟩, h.month⟩, h.day, h.real⟩, h.weekday⟩, h.hour⟩
  | minute =>
    have h : MinutePlaced e c := h
    exact ⟨⟨⟨⟨⟨⟨h.year⟩, h.month⟩, h.day, h.real⟩, h.weekday⟩, h.hour⟩, h.minute⟩
  | second => exact h

theorem Settled.yearPlaced (h : Settled e stage c) : YearPlaced e c := by
  cases hnext : stage.succ? with
  | none =>
    rw [Settled, hnext] at h
    have h : Placed e c := h
    exact h.toYearPlaced
  | some next =>
    rw [Settled, hnext] at h
    exact Entered.yearPlaced h (Stage.ne_year_of_succ? hnext)

theorem Settled.bounded (hwf : e.WellFormed) (h : Settled e stage c) :
    Bounded (c.clearBelow stage) := by
  cases stage with
  | year => constructor <;> simp only [Cursor.clearBelow, Field.min] <;> omega
  | month =>
    have hmonth := MonthPlaced.month_bounds hwf h
    constructor <;> simp only [Cursor.clearBelow, Field.min] <;> omega
  | day =>
    have hmonth := MonthPlaced.month_bounds hwf (DayPlaced.toMonthPlaced h)
    have hday := DayPlaced.day_bounds hwf h
    constructor <;> simp only [Cursor.clearBelow, Field.min] <;> omega
  | weekday =>
    have h : DatePlaced e c := h
    have hmonth := h.month_bounds hwf
    have hday := h.day_bounds hwf
    constructor <;> simp only [Cursor.clearBelow, Field.min] <;> omega
  | hour =>
    have h : HourPlaced e c := h
    have hmonth := h.month_bounds hwf
    have hday := h.day_bounds hwf
    have hhour := h.hour_le hwf
    constructor <;> simp only [Cursor.clearBelow, Field.min] <;> omega
  | minute =>
    have h : MinutePlaced e c := h
    have hmonth := h.month_bounds hwf
    have hday := h.day_bounds hwf
    have hhour := h.hour_le hwf
    have hminute := h.minute_le hwf
    constructor <;> simp only [Cursor.clearBelow, Field.min] <;> omega
  | second => exact Placed.bounded hwf h

theorem finite_passed (hwf : e.WellFormed) : (passed e stage c m).Finite := by
  refine finite_bounded.subset ?_
  rintro p ⟨hsettled, hclear, _⟩
  have hyear := hsettled.yearPlaced.year_bounds hwf
  exact ⟨hclear ▸ hsettled.bounded hwf, by omega⟩

/-! ### What a turn leaves behind -/

theorem passed_subset (hle : c ≤ c') : passed e stage c' m ⊆ passed e stage c m := by
  rintro p ⟨hsettled, hclear, hle', hlt⟩
  exact ⟨hsettled, hclear, (Cursor.clearBelow_mono stage hle).trans hle', hlt⟩

theorem toll_mono (hwf : e.WellFormed) (hle : c ≤ c') : toll e c' m ≤ toll e c m :=
  List.sum_le_sum fun _ _ => Set.ncard_le_ncard (passed_subset hle) (finite_passed hwf)

/-- A search that goes on behind a cursor has passed it. -/
theorem toll_lt (hwf : e.WellFormed) (hsettled : Settled e stage c)
    (hlt : c.clearBelow stage < c'.clearBelow stage) (hle : c' ≤ m) : toll e c' m < toll e c m := by
  have hcc' : c ≤ c' := (Cursor.lt_of_clearBelow_lt hlt).le
  -- what is left behind counts on the way from the old cursor, and not on the way from the new one
  have hmem : c.clearBelow stage ∈ passed e stage c m :=
    ⟨hsettled.clearBelow, Cursor.clearBelow_clearBelow stage c, le_rfl,
      hlt.trans_le (Cursor.clearBelow_mono stage hle)⟩
  have hnot : c.clearBelow stage ∉ passed e stage c' m := fun h => absurd h.2.2.1 (not_le.mpr hlt)
  have hless : (passed e stage c' m).ncard < (passed e stage c m).ncard :=
    Set.ncard_lt_ncard ⟨passed_subset hcc', fun hsub => hnot (hsub hmem)⟩ (finite_passed hwf)
  exact List.sum_lt_sum _ _
    (fun _ _ => Set.ncard_le_ncard (passed_subset hcc') (finite_passed hwf))
    ⟨stage, stage.mem_all, hless⟩

/-- If a stage has to begin again, the units before it move on. -/
theorem clearBelow_lt_of_step_eq_restart (h : step e stage c = .restart c') :
    ∃ prev, prev.succ? = some stage ∧ c.clearBelow prev < c'.clearBelow prev := by
  cases stage with
  | year =>
    rw [step] at h
    obtain ⟨v, hcarry⟩ := carry_of_place_eq_restart h
    cases hcarry
  | month =>
    rw [step] at h
    obtain ⟨v, hcarry⟩ := carry_of_place_eq_restart h
    cases hcarry
    exact ⟨.year, rfl, Cursor.lt_iff.mpr (.inl (Nat.lt_succ_self _))⟩
  | day =>
    refine ⟨.month, rfl, Cursor.lt_iff.mpr (.inr ?_)⟩
    rw [step, placeDay] at h
    split at h
    · split_ifs at h
      cases h
      exact ⟨rfl, .inl (Nat.lt_succ_self _)⟩
    · obtain ⟨v, hcarry⟩ := carry_of_place_eq_restart h
      cases hcarry
      exact ⟨rfl, .inl (Nat.lt_succ_self _)⟩
  | weekday =>
    rw [step, placeWeekday] at h
    split at h
    · cases h
    · split_ifs at h
      cases h
      exact ⟨.day, rfl, Cursor.lt_iff.mpr (.inr ⟨rfl, .inr ⟨rfl, .inl (Nat.lt_succ_self _)⟩⟩)⟩
  | hour =>
    rw [step] at h
    obtain ⟨v, hcarry⟩ := carry_of_place_eq_restart h
    cases hcarry
    exact ⟨.weekday, rfl, Cursor.lt_iff.mpr (.inr ⟨rfl, .inr ⟨rfl, .inl (Nat.lt_succ_self _)⟩⟩)⟩
  | minute =>
    rw [step] at h
    obtain ⟨v, hcarry⟩ := carry_of_place_eq_restart h
    cases hcarry
    exact ⟨.hour, rfl,
      Cursor.lt_iff.mpr (.inr ⟨rfl, .inr ⟨rfl, .inr ⟨rfl, .inl (Nat.lt_succ_self _)⟩⟩⟩)⟩
  | second =>
    rw [step] at h
    obtain ⟨v, hcarry⟩ := carry_of_place_eq_restart h
    cases hcarry
    exact ⟨.minute, rfl, Cursor.lt_iff.mpr
      (.inr ⟨rfl, .inr ⟨rfl, .inr ⟨rfl, .inr ⟨rfl, .inl (Nat.lt_succ_self _)⟩⟩⟩⟩)⟩

/-- Each time a pass begins again, there is less to pass. -/
theorem State.Inv.restarts_add_toll_le_of_turn (hwf : e.WellFormed) (h : s.Inv e)
    (hturn : s.turn e clock after ceiling = .next t) (hle : t.cursor ≤ m) :
    t.restarts + toll e t.cursor m ≤ s.restarts + toll e s.cursor m := by
  have houtcome := step_outcome hwf h.entered
  cases TurnsTo.of_turn_eq hturn with
  | @settled c next hstep hnext =>
    rw [hstep] at houtcome
    obtain ⟨_, hsc, _, _⟩ | _ | _ := houtcome
    exact Nat.add_le_add_left (toll_mono hwf hsc) _
  | @carried c _ hstep hrestart =>
    obtain rfl := State.eq_of_restart_eq_next hrestart
    obtain ⟨prev, hprev, hlt⟩ := clearBelow_lt_of_step_eq_restart hstep
    -- the units before the stage fit, and the search goes on behind them
    have hsettled : Settled e prev s.cursor := by
      rw [Settled, hprev]
      exact h.entered
    have hless := toll_lt hwf hsettled hlt hle
    dsimp only at hless ⊢
    omega
  | @rejected c wall _ hstep hlast hwall hdead hrestart =>
    obtain rfl := State.eq_of_restart_eq_next hrestart
    rw [hstep] at houtcome
    obtain ⟨hsettled, hsc, _, _⟩ | _ | _ := houtcome
    have hplaced : Placed e c := by
      rw [Settled, hlast] at hsettled
      exact hsettled
    -- the match stands for no instant after the given one; its second is left behind
    have hlt : c < { c with second := c.second + 1 } := Cursor.bump_le_iff.mp le_rfl
    have hsettled' : Settled e .second c := hplaced
    have hless := toll_lt hwf hsettled' hlt hle
    have hmono : toll e c m ≤ toll e s.cursor m := toll_mono hwf hsc
    dsimp only at hless ⊢
    omega

/-- On the way to a match, passes begin again as often as there is something to pass, at most. -/
theorem State.Inv.restarts_add_toll_le (hwf : e.WellFormed) (h : s.Inv e)
    (hreach : Reaches e clock after ceiling s t) (hm : Placed e m) (hlive : Live clock after m)
    (hle : s.cursor ≤ m) : t.restarts + toll e t.cursor m ≤ s.restarts + toll e s.cursor m := by
  induction hreach with
  | refl => exact Nat.le_refl _
  | @tail u t hreach hturn ih =>
    -- no state of the search is beyond the match
    have htm := h.le_of_reaches hwf (hreach.tail hturn) hm hlive hle
    exact ((h.of_reaches hwf hreach).restarts_add_toll_le_of_turn hwf hturn htm).trans ih

/-! ### Up to the first match -/

section First

variable (hfirst : IsLeast {n | Placed e n ∧ c ≤ n} m)

include hfirst

/-- What is passed on the way to the first match has no match left, unless it is where the way begins. -/
theorem clearBelow_ne_of_mem_passed (hp : p ∈ passed e stage c m) (hne : p ≠ c.clearBelow stage)
    {n : Cursor} (hn : Placed e n) : n.clearBelow stage ≠ p := by
  rintro rfl
  obtain ⟨_, _, hle, hlt⟩ := hp
  have hcn : c < n := Cursor.lt_of_clearBelow_lt (hle.lt_of_ne hne.symm)
  have hnm : n < m := Cursor.lt_of_clearBelow_lt hlt
  exact absurd (hfirst.2 ⟨hn, hcn.le⟩) (not_le.mpr hnm)

theorem passed_subset_singleton
    (hfill : ∀ p, Settled e stage p → ∃ n, Placed e n ∧ n.clearBelow stage = p.clearBelow stage) :
    passed e stage c m ⊆ {c.clearBelow stage} := by
  intro p hp
  by_contra hne
  obtain ⟨n, hn, heq⟩ := hfill p hp.1
  exact clearBelow_ne_of_mem_passed hfirst hp hne hn (heq.trans hp.2.1)

theorem ncard_passed_le_one
    (hfill : ∀ p, Settled e stage p → ∃ n, Placed e n ∧ n.clearBelow stage = p.clearBelow stage) :
    (passed e stage c m).ncard ≤ 1 := by
  have hle := Set.ncard_le_ncard (passed_subset_singleton hfirst hfill) (Set.finite_singleton _)
  rwa [Set.ncard_singleton] at hle

theorem passed_second_eq_empty : passed e .second c m = ∅ := by
  refine Set.eq_empty_of_forall_notMem ?_
  rintro p ⟨hp, _, hle, hlt⟩
  exact absurd (hfirst.2 ⟨hp, hle⟩) (not_le.mpr hlt)

end First

theorem exists_admits {field : Field} (h : (e.series field).Fits field) : ∃ v, e.Admits field v :=
  List.exists_mem_of_ne_nil _ h.values_ne_nil

/-- A minute that fits the expression has a match, and so has an hour and a date. -/
theorem MinutePlaced.exists_placed (hwf : e.WellFormed) (h : MinutePlaced e p) :
    ∃ n, Placed e n ∧ n.clearBelow .minute = p.clearBelow .minute := by
  obtain ⟨v, hv⟩ : ∃ v, e.Admits .seconds v := exists_admits hwf.time.seconds
  exact ⟨{ p with second := v }, ⟨⟨⟨⟨⟨⟨⟨h.year⟩, h.month⟩, h.day, h.real⟩, h.weekday⟩, h.hour⟩, h.minute⟩,
    hv⟩, rfl⟩

theorem HourPlaced.exists_placed (hwf : e.WellFormed) (h : HourPlaced e p) :
    ∃ n, Placed e n ∧ n.clearBelow .hour = p.clearBelow .hour := by
  obtain ⟨v, hv⟩ : ∃ v, e.Admits .minutes v := exists_admits hwf.time.minutes
  have hminute : MinutePlaced e { p with minute := v } :=
    ⟨⟨⟨⟨⟨⟨h.year⟩, h.month⟩, h.day, h.real⟩, h.weekday⟩, h.hour⟩, hv⟩
  obtain ⟨n, hn, heq⟩ := hminute.exists_placed hwf
  have hclear := congrArg (Cursor.clearBelow .hour) heq
  exact ⟨n, hn, hclear⟩

theorem DatePlaced.exists_placed (hwf : e.WellFormed) (h : DatePlaced e p) :
    ∃ n, Placed e n ∧ n.clearBelow .weekday = p.clearBelow .weekday := by
  obtain ⟨v, hv⟩ : ∃ v, e.Admits .hours v := exists_admits hwf.time.hours
  have hhour : HourPlaced e { p with hour := v } :=
    ⟨⟨⟨⟨⟨h.year⟩, h.month⟩, h.day, h.real⟩, h.weekday⟩, hv⟩
  obtain ⟨n, hn, heq⟩ := hhour.exists_placed hwf
  have hclear := congrArg (Cursor.clearBelow .weekday) heq
  exact ⟨n, hn, hclear⟩

/-- All but the years, months and dates that are passed on the way to the first match are where the way
begins. -/
theorem toll_le (hwf : e.WellFormed) (hfirst : IsLeast {n | Placed e n ∧ c ≤ n} m) :
    toll e c m ≤ (passed e .year c m).ncard + (passed e .month c m).ncard +
      (passed e .day c m).ncard + 3 := by
  have hweekday : (passed e .weekday c m).ncard ≤ 1 :=
    ncard_passed_le_one hfirst fun _ h => DatePlaced.exists_placed hwf h
  have hhour : (passed e .hour c m).ncard ≤ 1 :=
    ncard_passed_le_one hfirst fun _ h => HourPlaced.exists_placed hwf h
  have hminute : (passed e .minute c m).ncard ≤ 1 :=
    ncard_passed_le_one hfirst fun _ h => MinutePlaced.exists_placed hwf h
  have hsecond : (passed e .second c m).ncard = 0 := by
    rw [passed_second_eq_empty hfirst, Set.ncard_empty]
  simp only [toll, Stage.all, List.map_cons, List.map_nil, List.sum_cons, List.sum_nil]
  omega

end Search

end Recurrence
