import Mathlib.Data.Set.Finite.Lattice
import Recurrence.Proofs.Search.Occurrences
import Recurrence.Schedule

/-!
# The occurrences of a schedule

The occurrences of a schedule whose members follow steady clocks are those of its members, merged
(`Schedule.occurrences_merge`): the instants at which a member matches, ascending, each once.  Every
step asks all members again at the instant that one of them has found, so it has to be shown that none
of them loses an occurrence by that, or repeats one.  An exact answer depends on nothing but the
instant it is asked at, and so the earliest of exact answers is an exact answer for all members
together (`Schedule.exactAt_nextWithin`).
-/

namespace Recurrence

namespace Schedule

variable {stamp : Stamp} {stamps : List Stamp}

/-! ### The earliest of some stamps -/

theorem earliest_eq_none (h : earliest stamps = none) : stamps = [] := by
  cases stamps with
  | nil => rfl
  | cons first rest =>
    unfold earliest at h
    split at h
    · cases h
    · split_ifs at h

/-- Of the stamps with the earliest instant, the first one counts. -/
theorem exists_of_earliest_eq_some (h : earliest stamps = some stamp) :
    ∃ before rest, stamps = before ++ stamp :: rest ∧
      (∀ other ∈ before, stamp.instant.Before other.instant) ∧
      ∀ other ∈ rest, ¬other.instant.Before stamp.instant := by
  induction stamps generalizing stamp with
  | nil => cases h
  | cons first rest ih =>
    unfold earliest at h
    split at h
    next hnone =>
      rw [earliest_eq_none hnone]
      obtain rfl := Option.some.inj h
      exact ⟨[], [], rfl, by simp, by simp⟩
    next other hother =>
      obtain ⟨before, rest', heq, hbefore, hrest⟩ := ih hother
      split_ifs at h with hlt
      · obtain rfl := Option.some.inj h
        refine ⟨first :: before, rest', by rw [heq, List.cons_append], ?_, hrest⟩
        exact List.forall_mem_cons.mpr ⟨hlt, hbefore⟩
      · obtain rfl := Option.some.inj h
        refine ⟨[], rest, rfl, by simp, ?_⟩
        -- no stamp of the rest is earlier than the one that counts there
        have hleast : ∀ stamp ∈ rest, ¬stamp.instant.Before other.instant := by
          rw [heq]
          intro stamp hstamp
          rcases List.mem_append.mp hstamp with hstamp | hstamp
          · have := hbefore stamp hstamp
            unfold Instant.Before at *
            omega
          · rcases List.mem_cons.mp hstamp with rfl | hstamp
            · unfold Instant.Before
              omega
            · exact hrest stamp hstamp
        intro stamp hstamp
        have := hleast stamp hstamp
        unfold Instant.Before at *
        omega

theorem mem_of_earliest_eq_some (h : earliest stamps = some stamp) : stamp ∈ stamps := by
  obtain ⟨before, rest, rfl, _, _⟩ := exists_of_earliest_eq_some h
  exact List.mem_append_right _ (List.mem_cons_self ..)

theorem not_before_of_earliest_eq_some (h : earliest stamps = some stamp) {other : Stamp}
    (hother : other ∈ stamps) : ¬other.instant.Before stamp.instant := by
  obtain ⟨before, rest, rfl, hbefore, hrest⟩ := exists_of_earliest_eq_some h
  rcases List.mem_append.mp hother with hother | hother
  · have := hbefore other hother
    unfold Instant.Before at *
    omega
  · rcases List.mem_cons.mp hother with rfl | hother
    · unfold Instant.Before
      omega
    · exact hrest other hother

/-! ### The instants of a schedule -/

variable [ZoneDatabase] {limit : SearchLimit} {schedule : Schedule} {after : Instant}

/-- A member matches at an instant. -/
def MatchesAt (schedule : Schedule) (i : Int) : Prop :=
  ∃ e ∈ schedule.members, e.MatchesAt e.zone.clock i

/-- The instants after a given one at which a member matches. -/
def matchesAfter (schedule : Schedule) (after : Instant) : Set Int :=
  {i | after.Before (.ofSeconds i) ∧ schedule.MatchesAt i}

/-- The search of a member gives up. -/
def CutOff (schedule : Schedule) (limit : SearchLimit) (after : Instant) : Prop :=
  ∃ e ∈ schedule.members, e.CutOff e.zone.clock limit after

/-- The earliest of exact answers is exact for all members together. -/
theorem exactAt_nextWithin (hexact : ∀ e ∈ schedule.members,
      ExactAt (e.nextWithin limit) {i | e.MatchesAt e.zone.clock i} after) :
    ExactAt (schedule.nextWithin limit) {i | schedule.MatchesAt i} after := by
  constructor
  · intro stamp h
    obtain ⟨e, he, hfound⟩ := List.mem_filterMap.mp (mem_of_earliest_eq_some h)
    obtain ⟨i, hi, ⟨hafter, hmatches⟩, _⟩ := (hexact e he).least stamp hfound
    refine ⟨i, hi, ⟨hafter, e, he, hmatches⟩, ?_⟩
    rintro j ⟨hj, other, hother, hother'⟩
    have hmem : j ∈ instantsAfter {i | other.MatchesAt other.zone.clock i} after := ⟨hj, hother'⟩
    cases hfound' : other.nextWithin limit after with
    | none =>
      rw [(hexact other hother).empty hfound'] at hmem
      exact absurd hmem (Set.notMem_empty j)
    | some found =>
      obtain ⟨k, hk, hleast⟩ := (hexact other hother).least found hfound'
      have hkj : k ≤ j := hleast.2 hmem
      -- what the other member has found is not earlier
      have hnot := not_before_of_earliest_eq_some h (List.mem_filterMap.mpr ⟨other, hother, hfound'⟩)
      rw [hi, hk, Instant.before_ofSeconds] at hnot
      exact (not_lt.mp hnot).trans hkj
  · intro h
    refine Set.eq_empty_of_forall_notMem ?_
    rintro i ⟨hafter, e, he, hmatches⟩
    have hnone : e.nextWithin limit after = none := by
      have hnil := earliest_eq_none h
      rw [List.filterMap_eq_nil_iff] at hnil
      exact hnil e he
    have hmem : i ∈ instantsAfter {i | e.MatchesAt e.zone.clock i} after := ⟨hafter, hmatches⟩
    rw [(hexact e he).empty hnone] at hmem
    exact hmem

theorem before_of_nextWithin_eq_some (hwf : ∀ e ∈ schedule.members, e.WellFormed)
    (h : schedule.nextWithin limit after = some stamp) : after.Before stamp.instant := by
  obtain ⟨e, he, hfound⟩ := List.mem_filterMap.mp (mem_of_earliest_eq_some h)
  exact Expression.before_of_nextBy_eq_some (hwf e he) hfound

theorem finite_matchesAfter
    (hsteady : ∀ e ∈ schedule.members, ∃ offset, e.zone.clock.Steady offset) (after : Instant) :
    (schedule.matchesAfter after).Finite := by
  have hunion : (⋃ e ∈ {e | e ∈ schedule.members}, e.matchesAfter e.zone.clock after).Finite := by
    refine Set.Finite.biUnion (List.finite_toSet _) fun e he => ?_
    obtain ⟨offset, hoffset⟩ := hsteady e he
    exact e.finite_matchesAfter hoffset after
  refine hunion.subset ?_
  rintro i ⟨hafter, e, he, hmatches⟩
  exact Set.mem_biUnion he ⟨hafter, hmatches⟩

/-- The occurrences of a schedule by steady clocks are ever later.  Up to where the search of a member
is cut off, they are the instants at which a member matches: all of them, ascending, each once.  The same
holds of a single expression and any limit. -/
theorem occurrences_merge {schedule : Schedule}
    (parsed : ∀ e ∈ schedule.members, ∃ text, Expression.parse text = .ok e)
    (steady : ∀ e ∈ schedule.members, ∃ offset, e.zone.clock.Steady offset) (after : Instant) :
    Enumerates schedule.next (schedule.occurrences after) (schedule.CutOff .default)
      (schedule.matchesAfter after) after ∧
    ∀ e ∈ schedule.members, ∀ limit : SearchLimit,
      Enumerates (e.nextWithin limit) (e.occurrences limit after) (e.CutOff e.zone.clock limit)
        (e.matchesAfter e.zone.clock after) after := by
  have hwf : ∀ e ∈ schedule.members, e.WellFormed := by
    intro e he
    obtain ⟨text, htext⟩ := parsed e he
    exact Expression.wellFormed_of_parse htext
  constructor
  · refine enumerates_successive (fun _ _ => before_of_nextWithin_eq_some hwf)
      (finite_matchesAfter steady after) fun asked huncut => exactAt_nextWithin fun e he => ?_
    obtain ⟨offset, hoffset⟩ := steady e he
    exact Expression.exactAt_nextBy (hwf e he) hoffset fun hcut => huncut ⟨e, he, hcut⟩
  · intro e he limit
    obtain ⟨offset, hoffset⟩ := steady e he
    exact enumerates_successive (fun _ _ => Expression.before_of_nextBy_eq_some (hwf e he))
      (e.finite_matchesAfter hoffset after) fun asked => Expression.exactAt_nextBy (hwf e he) hoffset

end Schedule

/-- Both members match at eight o'clock UTC, and only the second one does half an hour later. -/
theorem Schedule.occurrences_merge_coinciding : ∃ a b, Expression.parse "*-*-* 08:00" = .ok a ∧
    Expression.parse "*-*-* 22:00,30 Etc/GMT-14" = .ok b ∧
    ∃ l : List Int, l.Pairwise (· < ·) ∧
      (∀ i, i ∈ l ↔ i ∈ (Schedule.mk [a, b]).matchesAfter (.ofSeconds 0)) ∧
      ((Schedule.mk [a, b]).occurrences (.ofSeconds 0) 3).map Stamp.instant
        = (l.take 3).map .ofSeconds ∧
      l.take 3 = [28800, 30600, 115200] := by
  let a : Expression := ⟨.all, .omitted, ⟨⟨[⟨8, none, none⟩]⟩, ⟨[⟨0, none, none⟩]⟩, ⟨[⟨0, none, none⟩]⟩⟩,
    .machine⟩
  let b : Expression := ⟨.all, .omitted,
    ⟨⟨[⟨22, none, none⟩]⟩, ⟨[⟨0, none, none⟩, ⟨30, none, none⟩]⟩, ⟨[⟨0, none, none⟩]⟩⟩,
    .named "Etc/GMT-14" (by decide +kernel)⟩
  let schedule : Schedule := ⟨[a, b]⟩
  have hparse : Expression.parse "*-*-* 08:00" = .ok a ∧
      Expression.parse "*-*-* 22:00,30 Etc/GMT-14" = .ok b := by
    decide +kernel
  have hclock : a.zone.clock = .fixed 0 ∧ b.zone.clock = .fixed 50400 := by decide +kernel
  have parsed : ∀ e ∈ schedule.members, ∃ text, Expression.parse text = .ok e := by
    intro e he
    obtain rfl | rfl : e = a ∨ e = b := by simpa [schedule] using he
    · exact ⟨_, hparse.1⟩
    · exact ⟨_, hparse.2⟩
  have steady : ∀ e ∈ schedule.members, ∃ offset, e.zone.clock.Steady offset := by
    intro e he
    obtain rfl | rfl : e = a ∨ e = b := by simpa [schedule] using he
    · exact ⟨0, hclock.1 ▸ Clock.steady_fixed 0⟩
    · exact ⟨50400, hclock.2 ▸ Clock.steady_fixed 50400⟩
  obtain ⟨⟨_, ⟨l, hsorted, hmem, hcomplete⟩, _⟩, _⟩ := occurrences_merge parsed steady (.ofSeconds 0)
  have hfound : (schedule.occurrences (.ofSeconds 0) 3).map Stamp.instant
      = [28800, 30600, 115200].map .ofSeconds := by
    decide +kernel
  -- at the three instants that are asked, both members find an occurrence
  have huncut : ∀ asked ∈ (Instant.ofSeconds 0 ::
      (schedule.occurrences (.ofSeconds 0) 3).map Stamp.instant).take 3,
      ¬schedule.CutOff .default asked := by
    rw [hfound]
    rintro asked hasked ⟨e, he, hcut⟩
    have hsome : ∀ asked ∈ [0, 28800, 30600].map Instant.ofSeconds, ∀ e ∈ schedule.members,
        (e.nextBy e.zone.clock .default asked).isSome := by
      decide +kernel
    obtain ⟨stamp, hstamp⟩ := Option.isSome_iff_exists.mp (hsome asked hasked e he)
    exact Expression.not_cutOff_of_nextBy_eq_some hstamp hcut
  have heq := hcomplete 3 huncut
  refine ⟨a, b, hparse.1, hparse.2, l, hsorted, hmem, heq, ?_⟩
  rw [hfound] at heq
  exact (List.map_injective_iff.mpr fun i j h => congrArg Instant.seconds h) heq.symm

end Recurrence
