import Recurrence.Proofs.Search.Loop

/-!
# Searches and their limits

A limit changes nothing but where a search gives up: turn by turn the search under a limit is the search
without one, as long as passes have not begun again too often (`Search.turn_some_eq`).  So a search finds
under a limit what it finds without one, provided that it does so early enough
(`Expression.nextBy_eq_some_iff`).  A greater limit never changes what is found, and a search that gives up
under one limit and finds something under another one has to begin again as often as the former allows
(`Expression.nextBy_limits`).
-/

namespace Recurrence

namespace Search

variable [ZoneDatabase] {e : Expression} {clock : Clock} {after : Instant} {ceiling : Option Nat}
  {most : Nat} {s t : State}

/-- A turn under a limit is one without, unless a pass would have to begin again too often. -/
theorem turn_some_eq (e : Expression) (clock : Clock) (after : Instant) (most : Nat) (s : State) :
    s.turn e clock after (some most) =
      match s.turn e clock after none with
      | .next t => if s.restarts < t.restarts ∧ most ≤ t.restarts then .gaveUp else .next t
      | other => other := by
  have hrestart (c : Cursor) : s.restart (some most) c =
      match s.restart none c with
      | .next t => if s.restarts < t.restarts ∧ most ≤ t.restarts then .gaveUp else .next t
      | other => other := by
    simp [State.restart]
  unfold State.turn
  split
  next => rfl
  next => exact hrestart _
  next c =>
    split
    next => simp
    next =>
      split
      next => rfl
      next =>
        split
        next => rfl
        next => exact hrestart _

theorem turn_none_of_turn_some (h : s.turn e clock after (some most) = .next t) :
    s.turn e clock after none = .next t ∧ ¬(s.restarts < t.restarts ∧ most ≤ t.restarts) := by
  rw [turn_some_eq] at h
  split at h
  next u hturn =>
    split_ifs at h with hmany
    obtain rfl := Turn.next.inj h
    exact ⟨hturn, hmany⟩
  next hother => exact absurd h (hother t)

theorem turn_some_of_turn_none (h : s.turn e clock after none = .next t)
    (hfew : ¬(s.restarts < t.restarts ∧ most ≤ t.restarts)) :
    s.turn e clock after (some most) = .next t := by
  rw [turn_some_eq, h]
  exact if_neg hfew

theorem turn_some_eq_found_iff {stamp : Stamp} :
    s.turn e clock after (some most) = .found stamp ↔ s.turn e clock after none = .found stamp := by
  rw [turn_some_eq]
  split
  next t hturn =>
    rw [hturn]
    split_ifs <;> simp
  next => rfl

theorem restarts_le_of_turn (h : s.turn e clock after ceiling = .next t) : s.restarts ≤ t.restarts := by
  cases TurnsTo.of_turn_eq h with
  | settled => exact Nat.le_refl _
  | carried _ hrestart =>
    rw [State.eq_of_restart_eq_next hrestart]
    exact Nat.le_succ _
  | rejected _ _ _ _ hrestart =>
    rw [State.eq_of_restart_eq_next hrestart]
    exact Nat.le_succ _

theorem restarts_le_of_reaches (h : Reaches e clock after ceiling s t) : s.restarts ≤ t.restarts := by
  induction h with
  | refl => exact Nat.le_refl _
  | tail _ hturn ih => exact ih.trans (restarts_le_of_turn hturn)

/-- What is reached under a limit is reached without one, before passes have begun again too often. -/
theorem reaches_none_of_reaches_some (h : Reaches e clock after (some most) s t) :
    Reaches e clock after none s t ∧ (t.restarts = s.restarts ∨ t.restarts < most) := by
  induction h with
  | refl => exact ⟨.refl, .inl rfl⟩
  | @tail u t _ hturn ih =>
    obtain ⟨hreach, hrestarts⟩ := ih
    obtain ⟨hturn', hfew⟩ := turn_none_of_turn_some hturn
    have hle := restarts_le_of_turn hturn
    exact ⟨hreach.tail hturn', by omega⟩

theorem reaches_some_of_reaches_none (h : Reaches e clock after none s t)
    (hfew : t.restarts = s.restarts ∨ t.restarts < most) : Reaches e clock after (some most) s t := by
  induction h with
  | refl => exact .refl
  | @tail u t hreach hturn ih =>
    have hsu := restarts_le_of_reaches hreach
    have hut := restarts_le_of_turn hturn
    exact (ih (by omega)).tail (turn_some_of_turn_none hturn (by omega))

end Search

namespace Expression

open Search

variable [ZoneDatabase] {e : Expression} {clock : Clock} {limit : SearchLimit} {after : Instant}
  {stamp : Stamp}

/-- A search without a limit finds an instant after passes have begun again so many times. -/
def FindsAfter (e : Expression) (clock : Clock) (after : Instant) (stamp : Stamp) (restarts : Nat) :
    Prop :=
  ∃ s, Reaches e clock after none (.start clock after) s ∧
    s.turn e clock after none = .found stamp ∧ s.restarts = restarts

theorem FindsAfter.unique {stamp' : Stamp} {restarts restarts' : Nat}
    (h : e.FindsAfter clock after stamp restarts) (h' : e.FindsAfter clock after stamp' restarts') :
    restarts = restarts' := by
  obtain ⟨s, hs, hfound, rfl⟩ := h
  obtain ⟨t, ht, hfound', rfl⟩ := h'
  have hend : ∀ v, s.turn e clock after none ≠ .next v := by simp [hfound]
  have hend' : ∀ v, t.turn e clock after none ≠ .next v := by simp [hfound']
  rw [eq_of_reaches hs ht hend hend']

/-- What is found without a limit is found under one, if passes begin again less often. -/
theorem nextBy_eq_some_iff : e.nextBy clock limit after = some stamp ↔
    ∃ restarts, e.FindsAfter clock after stamp restarts ∧ restarts < limit.passes := by
  have hzero : (State.start clock after).restarts = 0 := rfl
  constructor
  · intro h
    obtain ⟨t, ht, hanswer⟩ := answers_nextBy e clock after limit
    obtain ⟨hreach, hfew⟩ := reaches_none_of_reaches_some ht
    rw [h] at hanswer
    have hfound : t.turn e clock after (some limit.maxPasses) = .found stamp := by
      cases hturn : t.turn e clock after (some limit.maxPasses) with
      | found found =>
        rw [hturn] at hanswer
        exact congrArg _ (Option.some.inj (Option.some.inj hanswer))
      | _ =>
        rw [hturn] at hanswer
        cases hanswer
    refine ⟨t.restarts, ⟨t, hreach, turn_some_eq_found_iff.mp hfound, rfl⟩, ?_⟩
    unfold SearchLimit.passes
    omega
  · rintro ⟨_, ⟨s, hreach, hfound, rfl⟩, hfew⟩
    have hs : Reaches e clock after (some limit.maxPasses) (.start clock after) s := by
      refine reaches_some_of_reaches_none hreach ?_
      unfold SearchLimit.passes at hfew
      omega
    have hfound' : s.turn e clock after (some limit.maxPasses) = .found stamp :=
      turn_some_eq_found_iff.mpr hfound
    exact ((answers_nextBy e clock after limit).eq_of_answer? hs (by rw [hfound']; rfl)).symm

/-! ### Two limits -/

variable {fewer more : SearchLimit} {restarts : Nat}

/-- A greater limit never changes what is found. -/
theorem nextBy_eq_some_of_le (hle : fewer.maxPasses ≤ more.maxPasses)
    (h : e.nextBy clock fewer after = some stamp) : e.nextBy clock more after = some stamp := by
  obtain ⟨restarts, hfinds, hfew⟩ := nextBy_eq_some_iff.mp h
  have hpasses : fewer.passes ≤ more.passes := max_le_max_right 1 hle
  exact nextBy_eq_some_iff.mpr ⟨restarts, hfinds, hfew.trans_le hpasses⟩

/-- What is not found under a limit takes as many restarts as the limit allows. -/
theorem FindsAfter.passes_le (h : e.FindsAfter clock after stamp restarts)
    (hnone : e.nextBy clock limit after = none) : limit.passes ≤ restarts := by
  by_contra hfew
  have hsome : e.nextBy clock limit after = some stamp :=
    nextBy_eq_some_iff.mpr ⟨restarts, h, not_le.mp hfew⟩
  rw [hnone] at hsome
  cases hsome

/-- A search that finds an instant under a limit finds the same one under every greater limit.  One that
finds nothing under a limit, but something under a greater one, begins again at least as often as the
smaller limit says before it gets there.  Under every limit a search finds exactly what it finds without
one after fewer restarts than that, where 0 says the same as 1. -/
theorem nextBy_limits (e : Expression) (clock : Clock) (after : Instant) :
    (∀ fewer more : SearchLimit, fewer.maxPasses ≤ more.maxPasses → ∀ stamp,
      e.nextBy clock fewer after = some stamp → e.nextBy clock more after = some stamp) ∧
    (∀ fewer more : SearchLimit, fewer.maxPasses ≤ more.maxPasses → ∀ stamp,
      e.nextBy clock fewer after = none → e.nextBy clock more after = some stamp →
        ∃ restarts, e.FindsAfter clock after stamp restarts ∧ max fewer.maxPasses 1 ≤ restarts) ∧
    ∀ (limit : SearchLimit) (stamp : Stamp), e.nextBy clock limit after = some stamp ↔
      ∃ restarts, e.FindsAfter clock after stamp restarts ∧ restarts < max limit.maxPasses 1 := by
  refine ⟨fun fewer more hle stamp => nextBy_eq_some_of_le hle, ?late,
    fun limit stamp => nextBy_eq_some_iff⟩
  case late =>
    intro fewer more _ stamp hnone hsome
    obtain ⟨restarts, hfinds, _⟩ := nextBy_eq_some_iff.mp hsome
    exact ⟨restarts, hfinds, hfinds.passes_le hnone⟩

end Expression

/-- From March 2024 on, the next leap day is found after seven restarts: one to leave the year, and two for
each of the common years that follow. -/
theorem Expression.nextBy_limits_leapDay : ∃ e, parse "*-02-29" = .ok e ∧
    e.nextBy e.zone.clock ⟨7⟩ (.ofSeconds 1709251200) = none ∧
    e.nextBy e.zone.clock ⟨8⟩ (.ofSeconds 1709251200) = some ⟨.ofSeconds 1835395200, 0⟩ ∧
    e.nextBy e.zone.clock ⟨4294967295⟩ (.ofSeconds 1709251200)
      = some ⟨.ofSeconds 1835395200, 0⟩ ∧
    e.FindsAfter e.zone.clock (.ofSeconds 1709251200) ⟨.ofSeconds 1835395200, 0⟩ 7 := by
  let e : Expression :=
    ⟨.all, ⟨.omitted .years, ⟨[⟨2, none, none⟩]⟩, ⟨[⟨29, none, none⟩]⟩⟩, .omitted, .machine⟩
  have parsed : parse "*-02-29" = .ok e := by decide +kernel
  have hnone : e.nextBy e.zone.clock ⟨7⟩ (.ofSeconds 1709251200) = none := by decide +kernel
  have found : e.nextBy e.zone.clock ⟨8⟩ (.ofSeconds 1709251200)
      = some ⟨.ofSeconds 1835395200, 0⟩ := by
    decide +kernel
  obtain ⟨hmore, hlate, hiff⟩ := nextBy_limits e e.zone.clock (.ofSeconds 1709251200)
  obtain ⟨restarts, hfinds, hmany⟩ := hlate ⟨7⟩ ⟨8⟩ (by decide) _ hnone found
  obtain ⟨restarts', hfinds', hfew⟩ := (hiff ⟨8⟩ _).mp found
  obtain rfl := hfinds.unique hfinds'
  obtain rfl : restarts = 7 := by
    dsimp only at hmany hfew
    omega
  exact ⟨e, parsed, hnone, found, hmore ⟨8⟩ ⟨4294967295⟩ (by decide) _ found, hfinds⟩

end Recurrence
