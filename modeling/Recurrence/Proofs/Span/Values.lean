import Mathlib.Data.List.Sort
import Mathlib.Order.Bounds.Basic
import Mathlib.Tactic.SplitIfs
import Recurrence.Span.Basic

/-!
# The values of a series

`Span.Covers` says in numbers of any size which values a span stands for: those of its copies, which
are shifted by the multiples of its step.  `Series.mem_values` says that the computed values are
these, up to a bound of 32 bits: that a copy which would start past `maxNumber` is not made, and
that one which would end past it is cut off, never shows.  The values are strictly ascending
(`Series.pairwise_values`), so `Series.next?` finds the least one from a given value on, or the
least one of all (`Series.next?_eq_some`).  Nothing else about a series shows in its values: two
series that cover the same numbers have the same list of them (`Series.values_eq_values_iff`).
-/

namespace Recurrence

/-! ### Ascending lists -/

namespace Ascending

theorem mem_union {v : Nat} {s t : List Nat} : v ∈ union s t ↔ v ∈ s ∨ v ∈ t := by
  fun_induction union s t with
  | case1 t => simp
  | case2 s => simp
  | case3 a s b t hlt ih => rw [List.mem_cons, ih, List.mem_cons, List.mem_cons]; tauto
  | case4 a s b t hnot hlt ih => rw [List.mem_cons, ih, List.mem_cons, List.mem_cons]; tauto
  | case5 a s b t hnot hnot' ih =>
    obtain rfl : a = b := by omega
    rw [List.mem_cons, ih, List.mem_cons, List.mem_cons]
    tauto

theorem pairwise_union {s t : List Nat} (hs : s.Pairwise (· < ·)) (ht : t.Pairwise (· < ·)) :
    (union s t).Pairwise (· < ·) := by
  fun_induction union s t with
  | case1 t => exact ht
  | case2 s => exact hs
  | case3 a s b t hlt ih =>
    obtain ⟨ha, hs⟩ := List.pairwise_cons.mp hs
    refine List.pairwise_cons.mpr ⟨fun v hv => ?_, ih hs ht⟩
    rcases mem_union.mp hv with hv | hv
    · exact ha v hv
    · rcases List.mem_cons.mp hv with rfl | hv
      · exact hlt
      · exact hlt.trans ((List.pairwise_cons.mp ht).1 v hv)
  | case4 a s b t hnot hlt ih =>
    obtain ⟨hb, ht⟩ := List.pairwise_cons.mp ht
    refine List.pairwise_cons.mpr ⟨fun v hv => ?_, ih hs ht⟩
    rcases mem_union.mp hv with hv | hv
    · rcases List.mem_cons.mp hv with rfl | hv
      · exact hlt
      · exact hlt.trans ((List.pairwise_cons.mp hs).1 v hv)
    · exact hb v hv
  | case5 a s b t hnot hnot' ih =>
    obtain ⟨ha, hs⟩ := List.pairwise_cons.mp hs
    obtain ⟨hb, ht⟩ := List.pairwise_cons.mp ht
    refine List.pairwise_cons.mpr ⟨fun v hv => ?_, ih hs ht⟩
    rcases mem_union.mp hv with hv | hv
    · exact ha v hv
    · have := hb v hv
      omega

/-- An ascending list is known by which numbers up to its bound are in it. -/
theorem eq_iff {s t : List Nat} {max : Nat} {P Q : Nat → Prop} (hs : s.Pairwise (· < ·))
    (ht : t.Pairwise (· < ·)) (hmems : ∀ v, v ∈ s ↔ v ≤ max ∧ P v)
    (hmemt : ∀ v, v ∈ t ↔ v ≤ max ∧ Q v) : s = t ↔ ∀ v ≤ max, P v ↔ Q v := by
  constructor
  · rintro rfl v hv
    have hboth := (hmems v).symm.trans (hmemt v)
    rwa [and_congr_right_iff, forall_prop_of_true hv] at hboth
  · intro hsame
    refine hs.eq_of_mem_iff ht fun v => ?_
    rw [hmems, hmemt]
    exact and_congr_right (hsame v)

end Ascending

/-! ### Spans -/

namespace Span

/-- The values that a span stands for: those of the copy that is shifted by `k` steps. -/
def Covers (span : Span) (v : Nat) : Prop :=
  ∃ k, (span.step.getD 0 = 0 → k = 0) ∧ span.first + k * span.step.getD 0 ≤ v ∧
    v ≤ span.last.getD span.first + k * span.step.getD 0

theorem mem_copyValues {first max v : Nat} {last : Option Nat} (h : first ≤ max) :
    v ∈ copyValues first last max ↔ v ≤ max ∧ first ≤ v ∧ v ≤ last.getD first := by
  cases last with
  | none =>
    simp only [copyValues, List.mem_singleton, Option.getD_none]
    omega
  | some last =>
    simp only [copyValues, List.mem_range'_1, Option.getD_some]
    omega

theorem pairwise_copyValues (first max : Nat) (last : Option Nat) :
    (copyValues first last max).Pairwise (· < ·) := by
  cases last with
  | none => exact List.pairwise_singleton _ _
  | some last => exact List.pairwise_lt_range'

theorem mem_valuesFrom {step max first v : Nat} {last : Option Nat} (hmax : max ≤ Text.maxNumber) :
    v ∈ valuesFrom step max first last ↔ v ≤ max ∧ ∃ k, (step = 0 → k = 0) ∧
      first + k * step ≤ v ∧ v ≤ last.getD first + k * step := by
  fun_induction valuesFrom step max first last with
  | case1 first last hlt =>
    simp only [List.not_mem_nil, false_iff, not_and, not_exists]
    intro hv k _ hle
    omega
  | case2 first last hle hstop =>
    rw [mem_copyValues (Nat.not_lt.mp hle)]
    refine and_congr_right fun hv => ⟨fun h => ⟨0, by simpa using h⟩, ?_⟩
    rintro ⟨k, hk, hlow, hhigh⟩
    -- a second copy would start past the bound
    have hzero : k = 0 := by
      by_contra hne
      have hstep : step ≠ 0 := fun h => hne (hk h)
      have hmul : step ≤ k * step := Nat.le_mul_of_pos_left step (Nat.pos_of_ne_zero hne)
      rcases hstop with h | h
      · exact hstep h
      · omega
    rw [hzero, Nat.zero_mul, Nat.add_zero] at hlow hhigh
    exact ⟨hlow, hhigh⟩
  | case3 first last hle hgo ih =>
    rw [Ascending.mem_union, mem_copyValues (Nat.not_lt.mp hle), ih]
    -- the ends of the later copies agree below `maxNumber`, where they may have been cut off
    have hlast (k : Nat) (hv : v ≤ max) :
        v ≤ (last.map fun l => min (l + step) Text.maxNumber).getD (first + step) + k * step ↔
          v ≤ last.getD first + (k + 1) * step := by
      rw [Nat.succ_mul]
      cases last with
      | none => simp only [Option.map_none, Option.getD_none]; omega
      | some l => simp only [Option.map_some, Option.getD_some]; omega
    constructor
    · rintro (⟨hv, hlow, hhigh⟩ | ⟨hv, k, hk, hlow, hhigh⟩)
      · exact ⟨hv, 0, by simp, by simpa using hlow, by simpa using hhigh⟩
      · refine ⟨hv, k + 1, fun h => absurd (Or.inl h) hgo, ?_, (hlast k hv).mp hhigh⟩
        rw [Nat.succ_mul]
        omega
    · rintro ⟨hv, k, hk, hlow, hhigh⟩
      cases k with
      | zero => exact .inl ⟨hv, by simpa using hlow, by simpa using hhigh⟩
      | succ k =>
        refine .inr ⟨hv, k, fun h => absurd (Or.inl h) hgo, ?_, (hlast k hv).mpr hhigh⟩
        rw [Nat.succ_mul] at hlow
        omega

theorem mem_values {span : Span} {max v : Nat} (hmax : max ≤ Text.maxNumber) :
    v ∈ span.values max ↔ v ≤ max ∧ span.Covers v :=
  mem_valuesFrom hmax

theorem pairwise_valuesFrom (step max first : Nat) (last : Option Nat) :
    (valuesFrom step max first last).Pairwise (· < ·) := by
  fun_induction valuesFrom step max first last with
  | case1 => exact List.Pairwise.nil
  | case2 first last => exact pairwise_copyValues first max last
  | case3 first last _ _ ih => exact Ascending.pairwise_union (pairwise_copyValues first max last) ih

theorem first_le_of_covers {span : Span} {v : Nat} (h : span.Covers v) : span.first ≤ v := by
  obtain ⟨k, _, hlow, _⟩ := h
  omega

end Span

/-! ### Series -/

namespace Series

variable {series other : Series} {max bound current v : Nat}

/-- The values that a series stands for. -/
def Covers (series : Series) (v : Nat) : Prop :=
  ∃ span ∈ series.spans, span.Covers v

theorem mem_values (hmax : max ≤ Text.maxNumber) :
    v ∈ series.values max ↔ v ≤ max ∧ series.Covers v := by
  obtain ⟨spans⟩ := series
  induction spans with
  | nil => simp [values, Covers]
  | cons span spans ih =>
    have hcons : values ⟨span :: spans⟩ max = Ascending.union (span.values max) (values ⟨spans⟩ max) :=
      rfl
    rw [hcons, Ascending.mem_union, ih, Span.mem_values hmax]
    constructor
    · rintro (⟨hv, hspan⟩ | ⟨hv, other, hother, hcovers⟩)
      · exact ⟨hv, span, List.mem_cons_self .., hspan⟩
      · exact ⟨hv, other, List.mem_cons_of_mem _ hother, hcovers⟩
    · rintro ⟨hv, other, hother, hcovers⟩
      rcases List.mem_cons.mp hother with rfl | hother
      · exact .inl ⟨hv, hcovers⟩
      · exact .inr ⟨hv, other, hother, hcovers⟩

theorem pairwise_values (series : Series) (max : Nat) : (series.values max).Pairwise (· < ·) := by
  obtain ⟨spans⟩ := series
  induction spans with
  | nil => exact List.Pairwise.nil
  | cons span spans ih => exact Ascending.pairwise_union (Span.pairwise_valuesFrom _ _ _ _) ih

/-- A smaller bound only leaves the greater values out. -/
theorem mem_values_of_le (hle : bound ≤ max) (hmax : max ≤ Text.maxNumber) :
    v ∈ series.values bound ↔ v ∈ series.values max ∧ v ≤ bound := by
  rw [mem_values hmax, mem_values (hle.trans hmax)]
  constructor
  · rintro ⟨hv, h⟩
    exact ⟨⟨hv.trans hle, h⟩, hv⟩
  · rintro ⟨⟨_, h⟩, hv⟩
    exact ⟨hv, h⟩

theorem values_eq_filter (hle : bound ≤ max) (hmax : max ≤ Text.maxNumber) :
    series.values bound = (series.values max).filter (· ≤ bound) := by
  have hsorted : ((series.values max).filter (· ≤ bound)).Pairwise (· < ·) :=
    (series.pairwise_values max).filter _
  refine (series.pairwise_values bound).eq_of_mem_iff hsorted fun v => ?_
  rw [mem_values_of_le hle hmax, List.mem_filter, decide_eq_true_eq]

/-- Two series have the same values exactly if they cover the same numbers, however they are written. -/
theorem values_eq_values_iff (hmax : max ≤ Text.maxNumber) :
    series.values max = other.values max ↔ ∀ v ≤ max, series.Covers v ↔ other.Covers v :=
  Ascending.eq_iff (series.pairwise_values max) (other.pairwise_values max) (fun _ => mem_values hmax)
    fun _ => mem_values hmax

/-- The values of a series up to a bound of 32 bits are listed in ascending order, and they are the values
of the copies of its spans in arithmetic without bounds.  A smaller bound only leaves the greater ones
out. -/
theorem values_exact (series : Series) (hmax : max ≤ Text.maxNumber) :
    (series.values max).Pairwise (· < ·) ∧
    (∀ v, v ∈ series.values max ↔ v ≤ max ∧ ∃ span ∈ series.spans, span.Covers v) ∧
    ∀ bound ≤ max, series.values bound = (series.values max).filter (· ≤ bound) :=
  ⟨series.pairwise_values max, fun _ => mem_values hmax, fun _ hle => values_eq_filter hle hmax⟩

/-- The second copy of the first span would end past the greatest number, and the third one would start
past it.  The other spans are a range from a greater value to a smaller one and a single value, with
steps of zero. -/
theorem values_exact_greatest :
    let series : Series :=
      ⟨[⟨4294967290, some 4294967292, some 4⟩, ⟨5, some 3, some 0⟩, ⟨7, none, some 0⟩]⟩
    4294967295 ≤ Text.maxNumber ∧
    series.values 4294967295
      = [7, 4294967290, 4294967291, 4294967292, 4294967294, 4294967295] ∧
    (∃ span ∈ series.spans, span.Covers 4294967295) ∧
    (¬∃ span ∈ series.spans, span.Covers 4294967293) ∧
    series.values 4294967290 = [7, 4294967290] := by
  intro series
  have hmax : 4294967295 ≤ Text.maxNumber := by decide
  have hvalues : series.values 4294967295
      = [7, 4294967290, 4294967291, 4294967292, 4294967294, 4294967295] := by
    decide +kernel
  obtain ⟨_, hmem, hbound⟩ := series.values_exact hmax
  refine ⟨hmax, hvalues, ?_, ?_, ?_⟩
  · exact ((hmem 4294967295).mp (by rw [hvalues]; decide)).2
  · intro hcovers
    have habsent := (hmem 4294967293).mpr ⟨by decide, hcovers⟩
    rw [hvalues] at habsent
    exact absurd habsent (by decide)
  · rw [hbound 4294967290 (by decide), hvalues]
    decide

theorem next?_eq_none_iff : series.next? current max = none ↔ series.values max = [] := by
  rw [next?, Option.map_eq_none_iff, Option.orElse_eq_orElse, Option.orElse_eq_or,
    Option.or_eq_none_iff, List.head?_eq_none_iff]
  refine ⟨fun h => h.2, fun h => ⟨?_, h⟩⟩
  rw [h]
  rfl

/-- The next value is the least one from `current` on; if there is none, the series starts over. -/
theorem next?_eq_some {next : Successor} (h : series.next? current max = some next) :
    next.diff = next.value - current ∧
      (IsLeast {v | v ∈ series.values max ∧ current ≤ v} next.value ∨
        (∀ v ∈ series.values max, v < current) ∧
          IsLeast {v | v ∈ series.values max} next.value) := by
  have hsorted := series.pairwise_values max
  rw [next?, Option.map_eq_some_iff] at h
  obtain ⟨value, hvalue, rfl⟩ := h
  refine ⟨rfl, ?_⟩
  cases hfind : (series.values max).find? (current ≤ ·) with
  | some found =>
    obtain rfl : found = value := by
      rw [hfind] at hvalue
      exact Option.some.inj hvalue
    obtain ⟨hle, before, rest, heq, hbefore⟩ := List.find?_eq_some_iff_append.mp hfind
    rw [heq] at hsorted ⊢
    refine .inl ⟨⟨by simp, of_decide_eq_true hle⟩, ?_⟩
    rintro v ⟨hv, hcurrent⟩
    rcases List.mem_append.mp hv with hv | hv
    · have := hbefore v hv
      simp only [Bool.not_eq_true', decide_eq_false_iff_not] at this
      exact absurd hcurrent this
    · rcases List.mem_cons.mp hv with rfl | hv
      · exact Nat.le_refl _
      · have hrest := (List.pairwise_append.mp hsorted).2.1
        exact ((List.pairwise_cons.mp hrest).1 v hv).le
  | none =>
    rw [List.find?_eq_none] at hfind
    refine .inr ⟨fun v hv => ?_, ?_⟩
    · have := hfind v hv
      rw [decide_eq_true_eq] at this
      omega
    · have hhead : (series.values max).head? = some value := by
        rw [List.find?_eq_none.mpr hfind] at hvalue
        exact hvalue
      obtain ⟨rest, heq⟩ := List.head?_eq_some_iff.mp hhead
      rw [heq] at hsorted ⊢
      refine ⟨List.mem_cons_self .., fun v hv => ?_⟩
      rcases List.mem_cons.mp hv with rfl | hv
      · exact Nat.le_refl _
      · exact ((List.pairwise_cons.mp hsorted).1 v hv).le

end Series

end Recurrence
