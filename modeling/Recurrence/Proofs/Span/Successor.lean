import Recurrence.Proofs.Span.Values

/-!
# One value after the other

`Series.next?` asks a series for the value that comes next.  The answer is the least value from a given
one on, or the least one of all if there is none, and the sign of its way tells which of these it is
(`Series.next_cyclic`).  Asking again behind each answer goes through the values of the series: what is
still to come are the values from the given one on (`Series.filter_eq_cons_of_not_wrapped`), until the
series starts over (`Series.filter_eq_nil_of_wrapped`), so each value is met once and in order
(`Series.sweeps_iff`).
-/

namespace Recurrence.Series

variable {series : Series} {max current : Nat} {next : Successor} {visited : List Nat}

/-- A series is asked for the value from `current` on, and behind each answer for the next one, until it
starts over.  Behind the greatest number there is nothing to ask for. -/
inductive Sweeps (series : Series) (max : Nat) : Nat → List Nat → Prop
  | wraps {current : Nat} {next : Successor} (hnext : series.next? current max = some next)
      (hwrapped : next.wrapped = true) : Sweeps series max current []
  | greatest {current : Nat} {next : Successor} (hnext : series.next? current max = some next)
      (hwrapped : next.wrapped = false) (hgreatest : next.value = Text.maxNumber) :
      Sweeps series max current [next.value]
  | onward {current : Nat} {next : Successor} {visited : List Nat}
      (hnext : series.next? current max = some next) (hwrapped : next.wrapped = false)
      (hless : next.value < Text.maxNumber) (hrest : Sweeps series max (next.value + 1) visited) :
      Sweeps series max current (next.value :: visited)

/-! ### One answer -/

/-- Whether the series starts over is told by the sign of the way. -/
theorem wrapped_iff (h : series.next? current max = some next) :
    next.wrapped = true ↔ next.value < current := by
  rw [Successor.wrapped, decide_eq_true_eq, (next?_eq_some h).1]
  omega

theorem isLeast_of_not_wrapped (h : series.next? current max = some next)
    (hwrapped : next.wrapped = false) :
    IsLeast {v | v ∈ series.values max ∧ current ≤ v} next.value := by
  obtain ⟨_, hleast | ⟨hless, hleast⟩⟩ := next?_eq_some h
  · exact hleast
  · rw [(wrapped_iff h).mpr (hless _ hleast.1)] at hwrapped
    cases hwrapped

theorem isLeast_of_wrapped (h : series.next? current max = some next)
    (hwrapped : next.wrapped = true) :
    (∀ v ∈ series.values max, v < current) ∧ IsLeast {v | v ∈ series.values max} next.value := by
  have hlt := (wrapped_iff h).mp hwrapped
  obtain ⟨_, hleast | hover⟩ := next?_eq_some h
  · exact absurd hleast.1.2 (Nat.not_le.mpr hlt)
  · exact hover

theorem next?_eq_none_iff_covers (hmax : max ≤ Text.maxNumber) :
    series.next? current max = none ↔ ∀ v ≤ max, ¬series.Covers v := by
  rw [next?_eq_none_iff, List.eq_nil_iff_forall_not_mem]
  simp only [mem_values hmax, not_and]

/-- An answer that starts over is the first value. -/
theorem head?_values_of_wrapped (h : series.next? current max = some next)
    (hwrapped : next.wrapped = true) : (series.values max).head? = some next.value := by
  obtain ⟨_, hmem, hleast⟩ := isLeast_of_wrapped h hwrapped
  have hsorted := series.pairwise_values max
  cases hvalues : series.values max with
  | nil =>
    rw [Set.mem_ofPred_eq, hvalues] at hmem
    cases hmem
  | cons first rest =>
    rw [hvalues] at hsorted hmem hleast
    have hle : next.value ≤ first := hleast (List.mem_cons_self ..)
    rcases List.mem_cons.mp hmem with heq | hrest
    · rw [List.head?_cons, heq]
    · have := (List.pairwise_cons.mp hsorted).1 _ hrest
      omega

/-! ### The values to come -/

/-- An answer that does not start over is the first of the values to come, and the others come behind
it. -/
theorem filter_eq_cons_of_not_wrapped (h : series.next? current max = some next)
    (hwrapped : next.wrapped = false) :
    (series.values max).filter (current ≤ ·)
      = next.value :: (series.values max).filter (next.value + 1 ≤ ·) := by
  obtain ⟨⟨hmem, hle⟩, hleast⟩ := isLeast_of_not_wrapped h hwrapped
  have hsorted := series.pairwise_values max
  have hbehind : (next.value :: (series.values max).filter (next.value + 1 ≤ ·)).Pairwise (· < ·) := by
    refine List.pairwise_cons.mpr ⟨fun v hv => ?_, hsorted.filter _⟩
    exact of_decide_eq_true (List.mem_filter.mp hv).2
  refine (hsorted.filter _).eq_of_mem_iff hbehind fun v => ?_
  rw [List.mem_cons, List.mem_filter, List.mem_filter, decide_eq_true_eq, decide_eq_true_eq]
  constructor
  · rintro ⟨hv, hcurrent⟩
    rcases (hleast ⟨hv, hcurrent⟩).eq_or_lt with heq | hlt
    · exact .inl heq.symm
    · exact .inr ⟨hv, hlt⟩
  · rintro (rfl | ⟨hv, hlt⟩)
    · exact ⟨hmem, hle⟩
    · exact ⟨hv, by omega⟩

theorem filter_eq_nil_of_wrapped (h : series.next? current max = some next)
    (hwrapped : next.wrapped = true) : (series.values max).filter (current ≤ ·) = [] := by
  rw [List.filter_eq_nil_iff]
  intro v hv
  have := (isLeast_of_wrapped h hwrapped).1 v hv
  rw [decide_eq_true_eq]
  omega

/-- There is no value behind the greatest number. -/
theorem filter_lt_eq_nil (hmax : max ≤ Text.maxNumber) :
    (series.values max).filter (Text.maxNumber + 1 ≤ ·) = [] := by
  rw [List.filter_eq_nil_iff]
  intro v hv
  have := ((mem_values hmax).mp hv).1
  rw [decide_eq_true_eq]
  omega

/-! ### The whole way -/

theorem Sweeps.eq_filter (h : series.Sweeps max current visited) (hmax : max ≤ Text.maxNumber) :
    series.values max ≠ [] ∧ visited = (series.values max).filter (current ≤ ·) := by
  have hne {current : Nat} {next : Successor} (hnext : series.next? current max = some next) :
      series.values max ≠ [] := by
    intro hnil
    rw [next?_eq_none_iff.mpr hnil] at hnext
    cases hnext
  induction h with
  | wraps hnext hwrapped => exact ⟨hne hnext, (filter_eq_nil_of_wrapped hnext hwrapped).symm⟩
  | greatest hnext hwrapped hgreatest =>
    rw [filter_eq_cons_of_not_wrapped hnext hwrapped, hgreatest, filter_lt_eq_nil hmax]
    exact ⟨hne hnext, rfl⟩
  | onward hnext hwrapped _ _ ih =>
    rw [filter_eq_cons_of_not_wrapped hnext hwrapped, ← ih.2]
    exact ⟨hne hnext, rfl⟩

/-- The way comes to an end, by induction on the values to come. -/
theorem sweeps_filter (hne : series.values max ≠ []) (hmax : max ≤ Text.maxNumber) :
    series.Sweeps max current ((series.values max).filter (current ≤ ·)) := by
  generalize hcoming : (series.values max).filter (current ≤ ·) = coming
  induction coming generalizing current with
  | nil =>
    obtain ⟨next, hnext⟩ := Option.ne_none_iff_exists'.mp fun h => hne (next?_eq_none_iff.mp h)
    cases hwrapped : next.wrapped with
    | true => exact .wraps hnext hwrapped
    | false =>
      rw [filter_eq_cons_of_not_wrapped hnext hwrapped] at hcoming
      cases hcoming
  | cons v coming ih =>
    obtain ⟨next, hnext⟩ := Option.ne_none_iff_exists'.mp fun h => hne (next?_eq_none_iff.mp h)
    cases hwrapped : next.wrapped with
    | true =>
      rw [filter_eq_nil_of_wrapped hnext hwrapped] at hcoming
      cases hcoming
    | false =>
      have hle : next.value ≤ max :=
        ((mem_values hmax).mp (isLeast_of_not_wrapped hnext hwrapped).1.1).1
      rw [filter_eq_cons_of_not_wrapped hnext hwrapped] at hcoming
      obtain ⟨rfl, hrest⟩ := List.cons.inj hcoming
      rcases (hle.trans hmax).eq_or_lt with hgreatest | hless
      · rw [hgreatest, filter_lt_eq_nil hmax] at hrest
        rw [← hrest]
        exact .greatest hnext hwrapped hgreatest
      · exact .onward hnext hwrapped hless (ih hrest)

/-- Asked for from zero on, the values of a series come one by one and in order. -/
theorem sweeps_iff (hmax : max ≤ Text.maxNumber) :
    series.Sweeps max 0 visited ↔ series.values max ≠ [] ∧ visited = series.values max := by
  have hall : (series.values max).filter (0 ≤ ·) = series.values max :=
    List.filter_eq_self.mpr fun v _ => decide_eq_true (Nat.zero_le v)
  constructor
  · intro h
    obtain ⟨hne, hvisited⟩ := h.eq_filter hmax
    exact ⟨hne, hvisited.trans hall⟩
  · rintro ⟨hne, hvisited⟩
    rw [hvisited, ← hall]
    exact sweeps_filter hne hmax

/-- The next value up to a bound of 32 bits is the least one from `current` on, and if there is none, the
series starts over with its least value; there is no next value only if there is no value at all.  Asked
for one behind the other from zero on, until the series starts over or the greatest number is reached,
they are all of its values in ascending order; where it starts over, it is with the first of them. -/
theorem next_cyclic (series : Series) (hmax : max ≤ Text.maxNumber) :
    (∀ current, series.next? current max = none ↔ ∀ v ≤ max, ¬series.Covers v) ∧
    (∀ current next, series.next? current max = some next →
      next.diff = next.value - current ∧
      (IsLeast {v | v ≤ max ∧ series.Covers v ∧ current ≤ v} next.value ∧ next.wrapped = false ∧
          (next.advanced = true ↔ next.value ≠ current) ∨
        (∀ v ≤ max, series.Covers v → v < current) ∧
          IsLeast {v | v ≤ max ∧ series.Covers v} next.value ∧ next.wrapped = true ∧
          (series.values max).head? = some next.value)) ∧
    (series.values max).Pairwise (· < ·) ∧
    ∀ visited, series.Sweeps max 0 visited ↔
      series.values max ≠ [] ∧ visited = series.values max := by
  refine ⟨fun _ => next?_eq_none_iff_covers hmax, fun current next hnext => ?_,
    series.pairwise_values max, fun _ => sweeps_iff hmax⟩
  obtain ⟨hdiff, _⟩ := next?_eq_some hnext
  refine ⟨hdiff, ?_⟩
  cases hwrapped : next.wrapped with
  | false =>
    have hleast := isLeast_of_not_wrapped hnext hwrapped
    have hadvanced : next.advanced = true ↔ next.value ≠ current := by
      have hle : current ≤ next.value := hleast.1.2
      rw [Successor.advanced, decide_eq_true_eq, hdiff]
      omega
    simp only [mem_values hmax, and_assoc] at hleast
    exact .inl ⟨hleast, rfl, hadvanced⟩
  | true =>
    have hhead := head?_values_of_wrapped hnext hwrapped
    obtain ⟨hless, hleast⟩ := isLeast_of_wrapped hnext hwrapped
    simp only [mem_values hmax] at hless hleast
    exact .inr ⟨fun v hv hcovers => hless v ⟨hv, hcovers⟩, hleast, rfl, hhead⟩

/-- One span runs downwards and covers nothing, and one is repeated up to the greatest number.  Asked from
32 on with a bound of 31, the series starts over; the way up to the greatest number ends there. -/
theorem next_cyclic_startsOver :
    let series : Series := ⟨[⟨30, some 28, none⟩, ⟨4294967290, none, some 5⟩, ⟨7, some 8, some 0⟩]⟩
    31 ≤ Text.maxNumber ∧ 4294967295 ≤ Text.maxNumber ∧
    (series.next? 0 6 = none ∧ ∀ v ≤ 6, ¬series.Covers v) ∧
    (series.next? 32 31 = some ⟨7, -25⟩ ∧ (∀ v ≤ 31, series.Covers v → v < 32) ∧
      IsLeast {v | v ≤ 31 ∧ series.Covers v} 7) ∧
    (series.next? 9 4294967295 = some ⟨4294967290, 4294967281⟩ ∧
      IsLeast {v | v ≤ 4294967295 ∧ series.Covers v ∧ 9 ≤ v} 4294967290) ∧
    series.Sweeps 31 0 [7, 8] ∧ series.Sweeps 4294967295 0 [7, 8, 4294967290, 4294967295] := by
  intro series
  have hsix : 6 ≤ Text.maxNumber := by decide
  have hday : 31 ≤ Text.maxNumber := by decide
  have hall : 4294967295 ≤ Text.maxNumber := by decide
  have hnone : series.next? 0 6 = none := by decide +kernel
  have hover : series.next? 32 31 = some ⟨7, -25⟩ := by decide +kernel
  have honward : series.next? 9 4294967295 = some ⟨4294967290, 4294967281⟩ := by decide +kernel
  obtain ⟨habsent, -⟩ := series.next_cyclic hsix
  obtain ⟨-, hdays, -, hsweep⟩ := series.next_cyclic hday
  obtain ⟨-, hnumbers, -, hsweepAll⟩ := series.next_cyclic hall
  refine ⟨hday, hall, ⟨hnone, (habsent 0).mp hnone⟩, ⟨hover, ?_⟩, ⟨honward, ?_⟩,
    (hsweep _).mpr (by decide +kernel), (hsweepAll _).mpr (by decide +kernel)⟩
  · obtain ⟨-, ⟨-, hwrapped, -⟩ | ⟨hless, hleast, -⟩⟩ := hdays 32 _ hover
    · exact absurd hwrapped (by decide)
    · exact ⟨hless, hleast⟩
  · obtain ⟨-, ⟨hleast, -⟩ | ⟨-, -, hwrapped, -⟩⟩ := hnumbers 9 _ honward
    · exact hleast
    · exact absurd hwrapped (by decide)

end Recurrence.Series
