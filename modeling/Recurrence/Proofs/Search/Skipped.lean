import Recurrence.Proofs.Search.Turned

/-!
# Readings that are skipped

A skipped reading that matches stands for an instant soon after the jump.  A search that starts before
the jump comes to that instant, if not to an earlier one.  A search that starts behind the jump, though
still before that instant, does not, unless another match is shown on the way: the clock shows a later
reading by then, from which the search goes forward (`Expression.comesBy_iff_of_jumpsOver`).
-/

namespace Recurrence

open Calendar

namespace Clock.Spaced

variable {clock : Clock} {i j s t v w : Int} {after : Instant} {stamp : Stamp}

/-! ### Around a jump -/

/-- What stands for an earlier reading, if the way to it begins before the jump, does not come later than
what stands for the skipped one. -/
theorem le_instantOfSkipped_of_lt (h : clock.Spaced) (ht : clock.JumpsOver t w)
    (hbefore : after.seconds < t) (hlater : clock.read after.seconds < v) (hle : v ≤ w)
    (hstamp : clock.instantAfter v after = some stamp) :
    stamp.instant.seconds ≤ clock.instantOfSkipped w := by
  have htw := h.le_instantOfSkipped ht
  obtain ⟨k, rfl, ⟨hmem, _⟩, hk⟩ := instantAfter_eq_some_iff.mp hstamp
  show k ≤ _
  obtain ⟨s, has, hst, hread | hjump⟩ := exists_read_or_jumpsOver hbefore.le hlater
    (hle.trans ht.after.le)
  · -- the reading is shown before the jump
    have hks : k ≤ s := hk ⟨(mem_candidates_of_read hread).mpr hread, has⟩
    omega
  · rw [mem_candidates_of_skips (h.skips_of_jumpsOver hjump)] at hmem
    rcases hst.eq_or_lt with rfl | hlt
    · -- it is skipped by the same jump
      rw [hmem, h.instantOfSkipped_eq hjump, h.instantOfSkipped_eq ht]
      omega
    · -- it is skipped by an earlier jump
      have hfar := h.lt_of_turnedAt hjump.turnedAt ht.turnedAt hlt
      have hks := h.instantOfSkipped_lt hjump
      omega

/-- Between a jump and what stands for a skipped reading, all readings in between are shown. -/
theorem exists_read_of_lt (h : clock.Spaced) (ht : clock.JumpsOver t w) (hti : t ≤ i) (hij : i ≤ j)
    (hj : j ≤ clock.instantOfSkipped w) (hlater : clock.read i < v) (hle : v ≤ clock.read j) :
    ∃ k, i < k ∧ k ≤ j ∧ clock.read k = v := by
  obtain ⟨k, hik, hkj, hread | hjump⟩ := exists_read_or_jumpsOver hij hlater hle
  · exact ⟨k, hik, hkj, hread⟩
  · have hfar := h.lt_of_turnedAt ht.turnedAt hjump.turnedAt (by omega)
    have hnear := h.instantOfSkipped_lt ht
    omega

end Clock.Spaced

namespace Expression

variable [ZoneDatabase] {e : Expression} {clock : Clock} {limit : SearchLimit} {after : Instant}
  {stamp : Stamp} {i t v w : Int}

/-- A search finds an instant, and none later than a given one. -/
def ComesBy (e : Expression) (clock : Clock) (limit : SearchLimit) (after : Instant) (i : Int) : Prop :=
  ∃ stamp, e.nextBy clock limit after = some stamp ∧ stamp.instant.seconds ≤ i

section JumpsOver

variable (hspaced : clock.Spaced) (hlimit : 100000 ≤ limit.maxPasses) (hjump : clock.JumpsOver t w)

include hspaced hlimit hjump

theorem comesBy_of_lt (hwf : e.WellFormed) (hmatches : e.Matches (.ofSeconds w))
    (hbefore : after.seconds < t) : e.ComesBy clock limit after (clock.instantOfSkipped w) := by
  have hw : w ∈ e.readingsAfter (clock.read after.seconds) :=
    ⟨hspaced.read_lt_of_jumpsOver hjump hbefore, hmatches⟩
  rcases nextBy_of_spaced hwf hspaced hlimit with ⟨v, stamp, hv, hstamp, hfound⟩ | ⟨hempty, _⟩
  · exact ⟨stamp, hfound,
      hspaced.le_instantOfSkipped_of_lt hjump hbefore hv.1.1 (hv.2 hw) hstamp⟩
  · exact absurd (hempty ▸ hw) (Set.notMem_empty w)

/-- What is found behind the jump, but early, is shown then: the clock is not turned again so soon. -/
theorem exists_mem_matchesAfter_of_comesBy (hwf : e.WellFormed) (hbehind : t ≤ after.seconds)
    (h : e.ComesBy clock limit after (clock.instantOfSkipped w)) :
    ∃ i ∈ e.matchesAfter clock after, i ≤ clock.instantOfSkipped w := by
  obtain ⟨stamp, hfound, hle⟩ := h
  rcases nextBy_of_spaced hwf hspaced hlimit with ⟨v, found, hv, hstamp, hfound'⟩ | ⟨_, hfound'⟩
  · obtain rfl := Option.some.inj (hfound.symm.trans hfound')
    obtain ⟨k, rfl, ⟨hmem, hafter⟩, _⟩ := Clock.instantAfter_eq_some_iff.mp hstamp
    have hkw : k ≤ clock.instantOfSkipped w := hle
    have hshown : ¬clock.Skips v := by
      intro hskips
      rw [Clock.mem_candidates_of_skips hskips] at hmem
      obtain ⟨s, hs⟩ := hspaced.exists_jumpsOver_of_skips hskips
      have hts : t < s := by
        by_contra hst
        have hearlier := hspaced.lt_read_of_jumpsOver hs (i := after.seconds) (by omega)
        have hlater := hv.1.1
        omega
      have hfar := hspaced.lt_of_turnedAt hjump.turnedAt hs.turnedAt hts
      have hnear := hspaced.instantOfSkipped_lt hjump
      have hsv := hspaced.le_instantOfSkipped hs
      omega
    refine ⟨k, ⟨Instant.before_ofSeconds.mpr hafter, ?_⟩, hkw⟩
    rw [MatchesAt, Clock.read_of_mem_candidates hshown hmem]
    exact hv.1.2
  · rw [hfound] at hfound'
    cases hfound'

/-- What is shown on the way is found. -/
theorem comesBy_of_mem_matchesAfter (hwf : e.WellFormed) (hbehind : t ≤ after.seconds)
    (hi : i ∈ e.matchesAfter clock after) (hle : i ≤ clock.instantOfSkipped w) :
    e.ComesBy clock limit after (clock.instantOfSkipped w) := by
  obtain ⟨hafter, hmatches⟩ := hi
  rw [Instant.before_ofSeconds] at hafter
  have hnear := hspaced.instantOfSkipped_lt hjump
  have hoffset : clock.offsetAt after.seconds = clock.offsetAt t :=
    hspaced.offsetAt_eq_after hjump.turnedAt hbehind (by omega)
  have hoffset' : clock.offsetAt i = clock.offsetAt t :=
    hspaced.offsetAt_eq_after hjump.turnedAt (by omega) (by omega)
  have hlater : clock.read after.seconds < clock.read i := by
    unfold Clock.read
    omega
  rcases nextBy_of_spaced hwf hspaced hlimit with ⟨v, stamp, hv, hstamp, hfound⟩ | ⟨hempty, _⟩
  · obtain ⟨k, rfl, _, hk⟩ := Clock.instantAfter_eq_some_iff.mp hstamp
    obtain ⟨j, haj, hji, hread⟩ := hspaced.exists_read_of_lt hjump hbehind hafter.le hle hv.1.1
      (hv.2 ⟨hlater, hmatches⟩)
    have hkj : k ≤ j := hk ⟨(Clock.mem_candidates_of_read hread).mpr hread, haj⟩
    exact ⟨_, hfound, hkj.trans (hji.trans hle)⟩
  · exact absurd (hempty ▸ ⟨hlater, hmatches⟩) (Set.notMem_empty (clock.read i))

end JumpsOver

/-- A clock is turned forward over a matching reading.  A search comes to the instant that would have shown
it, had the clock not been turned, or to an earlier one, exactly if it starts before the jump, or if
another match is shown on the way. -/
theorem comesBy_iff_of_jumpsOver {text : String} (parsed : parse text = .ok e)
    (hspaced : clock.Spaced) (hlimit : 100000 ≤ limit.maxPasses) (hjump : clock.JumpsOver t w)
    (hmatches : e.Matches (.ofSeconds w)) :
    e.ComesBy clock limit after (w - clock.offsetAt (t - 1)) ↔
      after.Before (.ofSeconds t) ∨
        ∃ i ∈ e.matchesAfter clock after, i ≤ w - clock.offsetAt (t - 1) := by
  have hwf := wellFormed_of_parse parsed
  rw [Instant.before_ofSeconds, ← hspaced.instantOfSkipped_eq hjump]
  by_cases hlt : after.seconds < t
  · exact iff_of_true (comesBy_of_lt hspaced hlimit hjump hwf hmatches hlt) (.inl hlt)
  · rw [or_iff_right hlt]
    rw [not_lt] at hlt
    constructor
    · exact exists_mem_matchesAfter_of_comesBy hspaced hlimit hjump hwf hlt
    · rintro ⟨i, hi, hle⟩
      exact comesBy_of_mem_matchesAfter hspaced hlimit hjump hwf hlt hi hle

end Expression

/-- Half past two is skipped, and stands for half past three.  Asked five minutes behind the jump, the
search comes to twenty past three on the way. -/
theorem Expression.comesBy_iff_of_jumpsOver_onTheWay :
    ∃ e, parse "2,3:20,30 Europe/Paris" = .ok e ∧ e.zone.clock.Spaced ∧
      e.zone.clock.JumpsOver 1711846800 1711852200 ∧ e.Matches (.ofSeconds 1711852200) ∧
      1711852200 - e.zone.clock.offsetAt 1711846799 = 1711848600 ∧
      e.ComesBy e.zone.clock ⟨100000⟩ (.ofSeconds 1711847100) 1711848600 := by
  let e : Expression :=
    ⟨.all, .omitted, ⟨⟨[⟨2, none, none⟩, ⟨3, none, none⟩]⟩, ⟨[⟨20, none, none⟩, ⟨30, none, none⟩]⟩,
      ⟨[⟨0, none, none⟩]⟩⟩, .named "Europe/Paris" (List.mem_of_getElem? (i := 464) rfl)⟩
  have parsed : parse "2,3:20,30 Europe/Paris" = .ok e := by decide +kernel
  have hspaced : e.zone.clock.Spaced := e.zone.spaced_clock
  obtain ⟨hwinter, hsummer, hsummer'⟩ : e.zone.clock.offsetAt (1711846800 - 1) = 3600 ∧
      e.zone.clock.offsetAt 1711846800 = 7200 ∧ e.zone.clock.offsetAt 1711848000 = 7200 := by
    decide +kernel
  have hjump : e.zone.clock.JumpsOver 1711846800 1711852200 :=
    ⟨by rw [Clock.read, hwinter]; decide, by rw [Clock.read, hsummer]; decide⟩
  obtain ⟨hmatches, hmatches'⟩ : e.Matches (.ofSeconds 1711852200) ∧
      e.Matches (.ofSeconds (1711848000 + 7200)) := by
    decide +kernel
  have hinstant : 1711852200 - e.zone.clock.offsetAt (1711846800 - 1) = 1711848600 := by
    rw [hwinter]
    rfl
  have hshown : e.MatchesAt e.zone.clock 1711848000 := by
    rw [MatchesAt, Clock.read, hsummer']
    exact hmatches'
  have hiff : e.ComesBy e.zone.clock ⟨100000⟩ (.ofSeconds 1711847100) _ ↔ _ :=
    comesBy_iff_of_jumpsOver parsed hspaced (by decide) hjump hmatches
  rw [hinstant] at hiff
  exact ⟨e, parsed, hspaced, hjump, hmatches, hinstant, hiff.mpr (.inr
    ⟨1711848000, ⟨Instant.before_ofSeconds.mpr (by decide), hshown⟩, by decide⟩)⟩

/-- Half past two is skipped, and stands for half past three.  Asked ten minutes behind the jump, the
search answers with the next night. -/
theorem Expression.not_comesBy_behind :
    ∃ e, parse "02:30 America/New_York" = .ok e ∧
      e.zone.clock.JumpsOver 1710054000 1710037800 ∧ e.Matches (.ofSeconds 1710037800) ∧
      1710037800 - e.zone.clock.offsetAt 1710053999 = 1710055800 ∧
      e.nextBy e.zone.clock ⟨100000⟩ (.ofSeconds 1710054600)
        = some ⟨.ofSeconds 1710138600, -14400⟩ ∧
      ¬e.ComesBy e.zone.clock ⟨100000⟩ (.ofSeconds 1710054600) 1710055800 := by
  let e : Expression :=
    ⟨.all, .omitted, ⟨⟨[⟨2, none, none⟩]⟩, ⟨[⟨30, none, none⟩]⟩, ⟨[⟨0, none, none⟩]⟩⟩,
      .named "America/New_York" (List.mem_of_getElem? (i := 170) rfl)⟩
  have parsed : parse "02:30 America/New_York" = .ok e := by decide +kernel
  obtain ⟨hwinter, hsummer⟩ : e.zone.clock.offsetAt (1710054000 - 1) = -18000 ∧
      e.zone.clock.offsetAt 1710054000 = -14400 := by
    decide +kernel
  have hjump : e.zone.clock.JumpsOver 1710054000 1710037800 :=
    ⟨by rw [Clock.read, hwinter]; decide, by rw [Clock.read, hsummer]; decide⟩
  have hmatches : e.Matches (.ofSeconds 1710037800) := by decide +kernel
  have hinstant : 1710037800 - e.zone.clock.offsetAt (1710054000 - 1) = 1710055800 := by
    rw [hwinter]
    rfl
  have found : e.nextBy e.zone.clock ⟨100000⟩ (.ofSeconds 1710054600)
      = some ⟨.ofSeconds 1710138600, -14400⟩ := by
    decide +kernel
  refine ⟨e, parsed, hjump, hmatches, hinstant, found, ?_⟩
  rintro ⟨stamp, h, hle⟩
  obtain rfl := Option.some.inj (found.symm.trans h)
  exact absurd hle (by decide)

end Recurrence
