import Recurrence.Proofs.Calendar.Date
import Recurrence.Proofs.Zone.Spaced
import Recurrence.Zone.Rule

/-!
# The rules keep the clocks spaced

Whatever the year, a rule turns the clock within a fixed window of it (`ZoneRule.window_bounds`).  So
rules whose windows lie apart make a clock that is `Spaced` (`ZoneRules.Apart.spaced_clock`), and whether
they do is decided by a few comparisons of windows.
-/

namespace Recurrence

open Calendar

/-! ### Windows -/

/-- The first day of the month that a rule can mean in any year. -/
def DayRule.firstDay (month : Nat) : DayRule → Int
  | on day => day
  | last _ => monthLength 1 month - 6
  | onOrAfter _ day => day

/-- The last day of the month that a rule can mean in any year. -/
def DayRule.lastDay (month : Nat) : DayRule → Int
  | on day => day
  | last _ => monthLength 0 month
  | onOrAfter _ day => day + 6

theorem DayRule.dayNumber_bounds (rule : DayRule) (year : Int) (month : Nat) :
    yearStart year + daysBefore 1 month + rule.firstDay month - 1 ≤ rule.dayNumber year month ∧
      rule.dayNumber year month ≤ yearStart year + daysBefore 0 month + rule.lastDay month - 1 := by
  have hlength := monthLength_le year month
  have hbefore := daysBefore_le year month
  cases rule <;> simp only [dayNumber, firstDay, lastDay, Date.dayNumber] <;> omega

namespace ZoneRule

/-- The start of the window in which a rule turns the clock, in seconds from the start of the year. -/
def windowStart (rule : ZoneRule) : Int :=
  (daysBefore 1 rule.month + rule.day.firstDay rule.month - 1) * 86400 + rule.time - rule.before

/-- The end of the window. -/
def windowEnd (rule : ZoneRule) : Int :=
  (daysBefore 0 rule.month + rule.day.lastDay rule.month - 1) * 86400 + rule.time - rule.before

theorem window_bounds (rule : ZoneRule) (year : Nat) :
    yearStart year * 86400 + rule.windowStart ≤ (rule.transition year).instant ∧
      (rule.transition year).instant ≤ yearStart year * 86400 + rule.windowEnd := by
  have hday := rule.day.dayNumber_bounds year rule.month
  unfold windowStart windowEnd transition
  dsimp only
  omega

theorem mem_transitions {rule : ZoneRule} {t : Transition} : t ∈ rule.transitions ↔
    ∃ year, rule.firstYear ≤ year ∧ year ≤ rule.lastYear ∧ rule.transition year = t := by
  simp only [transitions, List.mem_map, List.mem_range'_1]
  refine exists_congr fun year => ?_
  constructor
  · rintro ⟨hyear, heq⟩
    exact ⟨hyear.1, by omega, heq⟩
  · rintro ⟨hfirst, hlast, heq⟩
    exact ⟨⟨hfirst, by omega⟩, heq⟩

/-- The windows of two rules lie more than two days apart, in the same year and from one year to the
next, as far as there are such years. -/
def ApartFrom (r s : ZoneRule) : Prop :=
  (s.lastYear ≤ r.firstYear ∨ r.windowEnd + 172800 < s.windowStart + 31536000) ∧
    (r.lastYear ≤ s.firstYear ∨ s.windowEnd + 172800 < r.windowStart + 31536000) ∧
    (r.lastYear < s.firstYear ∨ s.lastYear < r.firstYear ∨ r.windowEnd + 172800 < s.windowStart ∨
      s.windowEnd + 172800 < r.windowStart)

instance (r s : ZoneRule) : Decidable (r.ApartFrom s) :=
  inferInstanceAs (Decidable (_ ∧ _))

theorem ApartFrom.farFrom {r s : ZoneRule} (h : r.ApartFrom s) {t u : Transition}
    (ht : t ∈ r.transitions) (hu : u ∈ s.transitions) : t.FarFrom u := by
  obtain ⟨hbefore, hafter, hsame⟩ := h
  obtain ⟨y, hyfirst, hylast, rfl⟩ := mem_transitions.mp ht
  obtain ⟨z, hzfirst, hzlast, rfl⟩ := mem_transitions.mp hu
  have hr := r.window_bounds y
  have hs := s.window_bounds z
  unfold Transition.FarFrom
  rcases lt_trichotomy y z with hlt | rfl | hlt
  · -- a year has 365 days at least
    have hyear := yearStart_add_le (Int.ofNat_lt.mpr hlt)
    omega
  · omega
  · have hyear := yearStart_add_le (Int.ofNat_lt.mpr hlt)
    omega

/-- From one year to the next a rule turns the clock after more than two days. -/
def Recurs (r : ZoneRule) : Prop :=
  r.windowEnd + 172800 < r.windowStart + 31536000

instance (r : ZoneRule) : Decidable r.Recurs :=
  inferInstanceAs (Decidable (_ < _))

theorem Recurs.pairwise_transitions {r : ZoneRule} (h : r.Recurs) :
    r.transitions.Pairwise Transition.FarFrom := by
  have hyears : (List.range' r.firstYear (r.lastYear + 1 - r.firstYear)).Pairwise (· < ·) :=
    List.pairwise_lt_range'
  refine List.pairwise_map.mpr (hyears.imp fun {y z} hlt => .inl ?_)
  have hy := r.window_bounds y
  have hz := r.window_bounds z
  have hyear := yearStart_add_le (Int.ofNat_lt.mpr hlt)
  unfold Recurs at h
  omega

end ZoneRule

/-! ### Clocks -/

namespace Clock

variable {clock : Clock} {t u : Transition} {transitions : List Transition}

theorem mem_insert : u ∈ insert t transitions ↔ u = t ∨ u ∈ transitions := by
  induction transitions with
  | nil => exact List.mem_cons
  | cons v rest ih =>
    unfold insert
    split_ifs
    · exact List.mem_cons
    · rw [List.mem_cons, ih, List.mem_cons]
      tauto

theorem pairwise_insert (h : transitions.Pairwise fun t u => t.instant + 172800 < u.instant)
    (hfar : ∀ u ∈ transitions, t.FarFrom u) :
    (insert t transitions).Pairwise fun t u => t.instant + 172800 < u.instant := by
  induction transitions with
  | nil => exact List.pairwise_singleton _ _
  | cons v rest ih =>
    obtain ⟨hv, hrest⟩ := List.pairwise_cons.mp h
    have hvt := hfar v (List.mem_cons_self ..)
    unfold Transition.FarFrom at hvt
    unfold insert
    split_ifs with hle
    · refine List.pairwise_cons.mpr ⟨fun u hu => ?_, h⟩
      rcases List.mem_cons.mp hu with rfl | hu
      · omega
      · have := hv u hu
        omega
    · refine List.pairwise_cons.mpr ⟨fun u hu => ?_, ih hrest fun u hu =>
        hfar u (List.mem_cons_of_mem _ hu)⟩
      rcases mem_insert.mp hu with rfl | hu
      · omega
      · exact hv u hu

/-- A spaced clock stays so if it is also turned at an instant that is far from the others. -/
theorem Spaced.turn (h : clock.Spaced) (hoffset : -86400 < t.offset ∧ t.offset < 86400)
    (hfar : ∀ u ∈ clock.transitions, t.FarFrom u) : (clock.turn t).Spaced := by
  refine ⟨fun o ho => ?_, pairwise_insert h.transitions hfar⟩
  rcases List.mem_cons.mp ho with rfl | ho
  · exact h.offsets _ (List.mem_cons_self ..)
  · obtain ⟨u, hu, rfl⟩ := List.mem_map.mp ho
    rcases mem_insert.mp hu with rfl | hu
    · exact hoffset
    · exact h.offsets _ (List.mem_cons_of_mem _ (List.mem_map_of_mem hu))

theorem mem_transitions_foldr_turn :
    u ∈ (transitions.foldr turn clock).transitions ↔ u ∈ transitions ∨ u ∈ clock.transitions := by
  induction transitions with
  | nil => simp
  | cons t rest ih =>
    rw [List.foldr_cons, turn, mem_insert, ih, List.mem_cons, or_assoc]

theorem spaced_foldr_turn {offset : Int} (hinitial : -86400 < offset ∧ offset < 86400)
    (hoffsets : ∀ t ∈ transitions, -86400 < t.offset ∧ t.offset < 86400)
    (hfar : transitions.Pairwise Transition.FarFrom) :
    (transitions.foldr turn (fixed offset)).Spaced := by
  induction transitions with
  | nil =>
    refine ⟨fun o ho => ?_, List.Pairwise.nil⟩
    rw [List.mem_singleton.mp ho]
    exact hinitial
  | cons t rest ih =>
    obtain ⟨ht, hrest⟩ := List.pairwise_cons.mp hfar
    refine (ih (fun u hu => hoffsets u (List.mem_cons_of_mem _ hu)) hrest).turn
      (hoffsets t (List.mem_cons_self ..)) fun u hu => ?_
    rcases mem_transitions_foldr_turn.mp hu with hu | hu
    · exact ht u hu
    · cases hu

end Clock

/-- Every rule keeps to itself from year to year, and the windows of different rules lie apart. -/
structure ZoneRules.Apart (rules : ZoneRules) : Prop where
  initial : -86400 < rules.initial ∧ rules.initial < 86400
  offsets : ∀ r ∈ rules.rules, -86400 < r.after ∧ r.after < 86400
  recurs : ∀ r ∈ rules.rules, r.Recurs
  apart : rules.rules.Pairwise ZoneRule.ApartFrom

instance (rules : ZoneRules) : Decidable rules.Apart :=
  decidable_of_iff (_ ∧ _ ∧ _ ∧ _) ⟨fun h => ⟨h.1, h.2.1, h.2.2.1, h.2.2.2⟩,
    fun h => ⟨h.initial, h.offsets, h.recurs, h.apart⟩⟩

theorem ZoneRules.Apart.spaced_clock {rules : ZoneRules} (h : rules.Apart) : rules.clock.Spaced := by
  refine Clock.spaced_foldr_turn h.initial (fun t ht => ?_) (List.pairwise_flatMap.mpr ⟨?_, ?_⟩)
  · obtain ⟨r, hr, hmem⟩ := List.mem_flatMap.mp ht
    obtain ⟨y, _, _, rfl⟩ := ZoneRule.mem_transitions.mp hmem
    exact h.offsets r hr
  · exact fun r hr => (h.recurs r hr).pairwise_transitions
  · refine h.apart.imp ?_
    intro r s hrs t ht u hu
    exact hrs.farFrom ht hu

end Recurrence
