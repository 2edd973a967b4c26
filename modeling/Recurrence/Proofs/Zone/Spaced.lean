import Mathlib.Data.Int.Init
import Mathlib.Data.List.Pairwise
import Mathlib.Tactic.ByContra
import Recurrence.Proofs.Zone.Clock

/-!
# Clocks that are turned seldom

A clock is `Spaced` if its offsets are less than a day and it is turned at most once in any two days.
This is so for the zones that have rules (`Zone.spaced_clock`).  By such a clock a reading is skipped
only by a single jump (`Clock.Spaced.skips_of_jumpsOver`, `Clock.Spaced.exists_jumpsOver_of_skips`), and
`Clock.instantOfSkipped` maps it to an instant soon after the jump.  Time goes on in spite of the
turns: every reading later than what the clock shows at an instant still stands for a later instant
(`Clock.Spaced.instantAfter_isSome`).
-/

namespace Recurrence

/-- Two transitions lie more than two days apart. -/
def Transition.FarFrom (t u : Transition) : Prop :=
  t.instant + 172800 < u.instant ∨ u.instant + 172800 < t.instant

instance : Std.Symm Transition.FarFrom :=
  ⟨fun _ _ => Or.symm⟩

namespace Clock

variable {clock : Clock} {i j t w : Int}

/-- All offsets are less than a day, and the transitions lie more than two days apart. -/
structure Spaced (clock : Clock) : Prop where
  offsets : ∀ o ∈ clock.initial :: clock.transitions.map Transition.offset, -86400 < o ∧ o < 86400
  transitions : clock.transitions.Pairwise fun t u => t.instant + 172800 < u.instant

/-! ### Offsets -/

/-- Between two transitions the offset stays the same. -/
theorem offsetAt_eq_of_forall (hij : i ≤ j)
    (h : ∀ t ∈ clock.transitions, t.instant ≤ i ∨ j < t.instant) :
    clock.offsetAt i = clock.offsetAt j := by
  have hthrough (transitions : List Transition) (offset : Int)
      (h : ∀ t ∈ transitions, t.instant ≤ i ∨ j < t.instant) :
      offsetThrough offset i transitions = offsetThrough offset j transitions := by
    induction transitions generalizing offset with
    | nil => rfl
    | cons t rest ih =>
      rw [offsetThrough, offsetThrough]
      rcases h t (List.mem_cons_self ..) with hle | hlt
      · rw [if_pos hle, if_pos (hle.trans hij)]
        exact ih t.offset fun u hu => h u (List.mem_cons_of_mem _ hu)
      · rw [if_neg (by omega), if_neg (by omega)]
  exact hthrough _ _ h

theorem Spaced.offsetAt_bounds (h : clock.Spaced) (i : Int) :
    -86400 < clock.offsetAt i ∧ clock.offsetAt i < 86400 :=
  h.offsets _ (offsetThrough_mem _ _ _)

/-- The clock is turned at an instant. -/
def TurnedAt (clock : Clock) (t : Int) : Prop :=
  clock.offsetAt (t - 1) ≠ clock.offsetAt t

/-- Between two instants with different offsets the clock is turned. -/
theorem exists_turnedAt_of_ne (hij : i ≤ j) (hne : clock.offsetAt i ≠ clock.offsetAt j) :
    ∃ t, i < t ∧ t ≤ j ∧ clock.TurnedAt t := by
  induction j, hij using Int.leInduction with
  | base => exact absurd rfl hne
  | succ j hij ih =>
    by_cases heq : clock.offsetAt i = clock.offsetAt j
    · refine ⟨j + 1, by omega, le_rfl, ?_⟩
      rwa [TurnedAt, Int.add_sub_cancel, ← heq]
    · obtain ⟨t, hit, htj, ht⟩ := ih heq
      exact ⟨t, hit, by omega, ht⟩

/-- An instant at which the clock is turned is that of a transition, and all others are far away. -/
theorem Spaced.far_of_turnedAt (h : clock.Spaced) (ht : clock.TurnedAt t) {u : Transition}
    (hu : u ∈ clock.transitions) :
    u.instant + 172800 < t ∨ u.instant = t ∨ t + 172800 < u.instant := by
  -- without a transition the offset would have stayed the same
  obtain ⟨v, hv, hvt⟩ : ∃ v ∈ clock.transitions, v.instant = t := by
    by_contra hnot
    push Not at hnot
    exact ht (offsetAt_eq_of_forall (by omega) fun v hv => by have := hnot v hv; omega)
  by_cases heq : u = v
  · exact .inr (.inl (heq ▸ hvt))
  · have hfar : clock.transitions.Pairwise Transition.FarFrom := h.transitions.imp .inl
    rcases hfar.forall hu hv heq with hlt | hlt <;> omega

theorem Spaced.offsetAt_eq_after (h : clock.Spaced) (ht : clock.TurnedAt t) (hle : t ≤ i)
    (hnear : i ≤ t + 172800) : clock.offsetAt i = clock.offsetAt t := by
  refine (offsetAt_eq_of_forall hle fun u hu => ?_).symm
  rcases h.far_of_turnedAt ht hu with hfar | hfar | hfar <;> omega

theorem Spaced.offsetAt_eq_before (h : clock.Spaced) (ht : clock.TurnedAt t) (hlt : i < t)
    (hnear : t - 172800 ≤ i) : clock.offsetAt i = clock.offsetAt (t - 1) := by
  refine offsetAt_eq_of_forall (by omega) fun u hu => ?_
  rcases h.far_of_turnedAt ht hu with hfar | hfar | hfar <;> omega

/-- After the clock is turned it is not turned again for two days. -/
theorem Spaced.lt_of_turnedAt (h : clock.Spaced) (hi : clock.TurnedAt i) (ht : clock.TurnedAt t)
    (hlt : i < t) : i + 172800 < t := by
  by_contra hnear
  refine ht ?_
  rw [h.offsetAt_eq_after hi (by omega) (by omega), h.offsetAt_eq_after hi hlt.le (by omega)]

/-! ### Jumps -/

/-- The clock is turned forward at an instant, over a reading. -/
structure JumpsOver (clock : Clock) (t w : Int) : Prop where
  before : clock.read (t - 1) < w
  after : w < clock.read t

theorem JumpsOver.turnedAt (h : clock.JumpsOver t w) : clock.TurnedAt t := by
  intro heq
  have hbefore := h.before
  have hafter := h.after
  unfold read at hbefore hafter
  omega

/-- On its way to a later reading the clock shows every one in between, or jumps over it. -/
theorem exists_read_or_jumpsOver (hij : i ≤ j) (hi : clock.read i < w) (hj : w ≤ clock.read j) :
    ∃ t, i < t ∧ t ≤ j ∧ (clock.read t = w ∨ clock.JumpsOver t w) := by
  induction j, hij using Int.leInduction with
  | base => omega
  | succ j hij ih =>
    by_cases hle : w ≤ clock.read j
    · obtain ⟨t, hit, htj, ht⟩ := ih hle
      exact ⟨t, hit, by omega, ht⟩
    · refine ⟨j + 1, by omega, le_rfl, ?_⟩
      rcases hj.eq_or_lt with heq | hlt
      · exact .inl heq.symm
      · exact .inr ⟨by rw [Int.add_sub_cancel]; omega, hlt⟩

namespace Spaced

/-- From the jump on, the clock shows later readings only. -/
theorem lt_read_of_jumpsOver (h : clock.Spaced) (ht : clock.JumpsOver t w) (hle : t ≤ i) :
    w < clock.read i := by
  have hafter := ht.after
  have hoffset := h.offsetAt_bounds t
  have hoffset' := h.offsetAt_bounds i
  unfold read at hafter ⊢
  -- within two days the offset is that after the jump; later, no offset can make up for them
  by_cases hnear : i ≤ t + 172800
  · rw [h.offsetAt_eq_after ht.turnedAt hle hnear]
    omega
  · omega

/-- Up to the jump, the clock shows earlier readings only. -/
theorem read_lt_of_jumpsOver (h : clock.Spaced) (ht : clock.JumpsOver t w) (hlt : i < t) :
    clock.read i < w := by
  have hbefore := ht.before
  have hoffset := h.offsetAt_bounds (t - 1)
  have hoffset' := h.offsetAt_bounds i
  unfold read at hbefore ⊢
  -- likewise with the offset before the jump
  by_cases hnear : t - 172800 ≤ i
  · rw [h.offsetAt_eq_before ht.turnedAt hlt hnear]
    omega
  · omega

theorem skips_of_jumpsOver (h : clock.Spaced) (ht : clock.JumpsOver t w) : clock.Skips w := by
  intro i
  by_cases hle : t ≤ i
  · exact (h.lt_read_of_jumpsOver ht hle).ne'
  · exact (h.read_lt_of_jumpsOver ht (by omega)).ne

/-- The offset a day before a skipped reading is that before the jump. -/
theorem instantOfSkipped_eq (h : clock.Spaced) (ht : clock.JumpsOver t w) :
    clock.instantOfSkipped w = w - clock.offsetAt (t - 1) := by
  have hbefore := ht.before
  have hafter := ht.after
  have hoffset := h.offsetAt_bounds (t - 1)
  have hoffset' := h.offsetAt_bounds t
  unfold read at hbefore hafter
  rw [instantOfSkipped, h.offsetAt_eq_before ht.turnedAt (by omega) (by omega)]

theorem le_instantOfSkipped (h : clock.Spaced) (ht : clock.JumpsOver t w) :
    t ≤ clock.instantOfSkipped w := by
  have hbefore := ht.before
  rw [h.instantOfSkipped_eq ht]
  unfold read at hbefore
  omega

/-- What stands for a skipped reading is less than two days after the jump. -/
theorem instantOfSkipped_lt (h : clock.Spaced) (ht : clock.JumpsOver t w) :
    clock.instantOfSkipped w < t + 172800 := by
  have hafter := ht.after
  have hoffset := h.offsetAt_bounds (t - 1)
  have hoffset' := h.offsetAt_bounds t
  rw [h.instantOfSkipped_eq ht]
  unfold read at hafter
  omega

/-- A reading is skipped only if the clock jumps over it. -/
theorem exists_jumpsOver_of_skips (h : clock.Spaced) (hskips : clock.Skips w) :
    ∃ t, clock.JumpsOver t w := by
  have hlow : clock.read (w - 86400) < w := by
    have := h.offsetAt_bounds (w - 86400)
    unfold read
    omega
  have hhigh : w ≤ clock.read (w + 86400) := by
    have := h.offsetAt_bounds (w + 86400)
    unfold read
    omega
  obtain ⟨t, _, _, hread | hjump⟩ := exists_read_or_jumpsOver (by omega) hlow hhigh
  · exact absurd hread (hskips t)
  · exact ⟨t, hjump⟩

/-- Every reading later than what the clock shows at an instant stands for a later one. -/
theorem instantAfter_isSome (h : clock.Spaced) {after : Instant}
    (hlater : clock.read after.seconds < w) : (clock.instantAfter w after).isSome := by
  have hoffset := h.offsetAt_bounds after.seconds
  have hoffset' := h.offsetAt_bounds (w + 86400)
  have hspan : after.seconds ≤ w + 86400 := by
    unfold read at hlater
    omega
  obtain ⟨t, hafter, _, hread | hjump⟩ := exists_read_or_jumpsOver hspan hlater
    (by unfold read; omega)
  · -- the reading is shown later on
    exact instantAfter_isSome_iff.mpr ⟨t, (mem_candidates_of_read hread).mpr hread, hafter⟩
  · -- the clock jumps over it later on
    exact instantAfter_isSome_iff.mpr ⟨clock.instantOfSkipped w,
      (mem_candidates_of_skips (h.skips_of_jumpsOver hjump)).mpr rfl,
      hafter.trans_le (h.le_instantOfSkipped hjump)⟩

end Spaced

end Clock

end Recurrence
