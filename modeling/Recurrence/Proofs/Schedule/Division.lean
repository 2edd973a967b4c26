import Recurrence.Proofs.Schedule.Merge

/-!
# Divided work

The members of a schedule may be asked for their next occurrences by several workers.  The list is dealt
out in its order (`Division`), and what is found in two parts that lie side by side is brought together
to the earlier one of both, or the first one if they are at the same instant.  This is associative, so
the list may be divided in any way (`Division.found_eq`): what comes out is what the first member with
the earliest instant has found (`Schedule.nextWithin_leftmost`).
-/

namespace Recurrence

/-! ### The earlier of two stamps -/

/-- The earlier one of two stamps, and the first one if they are at the same instant. -/
def Stamp.earlier (a b : Stamp) : Stamp :=
  if b.instant.Before a.instant then b else a

instance : Std.Associative Stamp.earlier where
  assoc a b c := by
    by_cases hba : b.instant.Before a.instant
    · by_cases hcb : c.instant.Before b.instant
      · have hca := hcb.trans hba
        simp only [Stamp.earlier, if_pos hba, if_pos hcb, if_pos hca]
      · simp only [Stamp.earlier, if_pos hba, if_neg hcb]
    · by_cases hcb : c.instant.Before b.instant
      · simp only [Stamp.earlier, if_neg hba, if_pos hcb]
      · have hca : ¬c.instant.Before a.instant := by
          unfold Instant.Before at *
          omega
        simp only [Stamp.earlier, if_neg hba, if_neg hcb, if_neg hca]

theorem Instant.eq_of_not_before {a b : Instant} (hab : ¬a.Before b) (hba : ¬b.Before a) : a = b := by
  obtain ⟨seconds, nanos⟩ := a
  obtain ⟨seconds', nanos'⟩ := b
  simp only [Before] at hab hba
  obtain ⟨rfl, rfl⟩ : seconds = seconds' ∧ nanos = nanos' := by omega
  rfl

/-- What is found in the back counts if it is strictly earlier, or if nothing is found in front. -/
def Overtakes (back front : Option Stamp) : Prop :=
  front = none ∨ ∃ b ∈ back, ∃ f ∈ front, b.instant.Before f.instant

section merge

variable {front back : Option Stamp}

theorem merge_assoc (a b c : Option Stamp) :
    Option.merge Stamp.earlier (Option.merge Stamp.earlier a b) c
      = Option.merge Stamp.earlier a (Option.merge Stamp.earlier b c) :=
  Std.Associative.assoc a b c

theorem merge_of_overtakes (h : Overtakes back front) : Option.merge Stamp.earlier front back = back := by
  rcases h with rfl | ⟨b, hb, f, hf, hlt⟩
  · exact Option.merge_none_left
  · rw [Option.mem_def.mp hb, Option.mem_def.mp hf, Option.merge_some_some, Stamp.earlier, if_pos hlt]

theorem merge_of_not_overtakes (h : ¬Overtakes back front) :
    Option.merge Stamp.earlier front back = front := by
  cases front with
  | none => exact absurd (.inl rfl) h
  | some f =>
    cases back with
    | none => exact Option.merge_none_right
    | some b =>
      have hlt : ¬b.instant.Before f.instant := fun hlt => h (.inr ⟨b, rfl, f, rfl, hlt⟩)
      rw [Option.merge_some_some, Stamp.earlier, if_neg hlt]

end merge

namespace Schedule

variable {stamps front back : List Stamp} {stamp : Stamp}

theorem earliest_cons (stamp : Stamp) (rest : List Stamp) :
    earliest (stamp :: rest) = Option.merge Stamp.earlier (some stamp) (earliest rest) := by
  rw [earliest]
  cases earliest rest with
  | none => rfl
  | some other => rw [Option.merge_some_some, Stamp.earlier, apply_ite some]

theorem earliest_append (front back : List Stamp) :
    earliest (front ++ back) = Option.merge Stamp.earlier (earliest front) (earliest back) := by
  induction front with
  | nil => exact Option.merge_none_left.symm
  | cons stamp front ih =>
    rw [List.cons_append, earliest_cons, ih, earliest_cons, merge_assoc]

theorem earliest_eq_none_iff : earliest stamps = none ↔ stamps = [] :=
  ⟨earliest_eq_none, fun h => h ▸ rfl⟩

/-- The earliest stamp is later than none, and earlier than all that stand in front of it. -/
theorem earliest_eq_some_iff : earliest stamps = some stamp ↔
    ∃ before rest, stamps = before ++ stamp :: rest ∧
      (∀ other ∈ before, stamp.instant.Before other.instant) ∧
      ∀ other ∈ rest, ¬other.instant.Before stamp.instant := by
  refine ⟨exists_of_earliest_eq_some, ?_⟩
  rintro ⟨before, rest, rfl, hbefore, hrest⟩
  have hfound : earliest (stamp :: rest) = some stamp := by
    rw [earliest_cons]
    refine merge_of_not_overtakes ?_
    rintro (hnone | ⟨other, hother, _, ⟨⟩, hlt⟩)
    · cases hnone
    · exact hrest other (mem_of_earliest_eq_some hother) hlt
  rw [earliest_append, hfound]
  refine merge_of_overtakes ?_
  cases h : earliest before with
  | none => exact .inl rfl
  | some other => exact .inr ⟨stamp, rfl, other, rfl, hbefore other (mem_of_earliest_eq_some h)⟩

/-- The instant of the earliest stamp does not depend on their order. -/
theorem map_instant_earliest_of_perm (h : front.Perm back) :
    (earliest front).map Stamp.instant = (earliest back).map Stamp.instant := by
  cases hfront : earliest front with
  | none =>
    rw [earliest_eq_none_iff] at hfront
    rw [hfront] at h
    rw [← h.nil_eq]
    rfl
  | some a =>
    cases hback : earliest back with
    | none =>
      rw [earliest_eq_none_iff.mp hback] at h
      rw [h.eq_nil] at hfront
      cases hfront
    | some b =>
      have hab := not_before_of_earliest_eq_some hback (h.mem_iff.mp (mem_of_earliest_eq_some hfront))
      have hba := not_before_of_earliest_eq_some hfront (h.mem_iff.mpr (mem_of_earliest_eq_some hback))
      exact congrArg some (Instant.eq_of_not_before hab hba)

end Schedule

/-! ### Dealing out a list -/

/-- How a list is dealt out: to nobody if it is empty, to one worker if it has one member, and else its
front and its back to two workers, who may deal out their parts again. -/
inductive Division (α : Type) where
  | nothing
  | single (a : α)
  | parts (front back : Division α)

namespace Division

variable {α : Type}

/-- The list that is dealt out. -/
def members : Division α → List α
  | nothing => []
  | single a => [a]
  | parts front back => front.members ++ back.members

/-- What all workers together find. -/
def found (search : α → Option Stamp) : Division α → Option Stamp
  | nothing => none
  | single a => search a
  | parts front back => Option.merge Stamp.earlier (front.found search) (back.found search)

/-- All that matters is what there is to be found, and in which order. -/
theorem found_eq (search : α → Option Stamp) (division : Division α) :
    division.found search = Schedule.earliest (division.members.filterMap search) := by
  induction division with
  | nothing => rfl
  | single a =>
    rw [members, found, List.filterMap_cons]
    cases search a <;> rfl
  | parts front back ihfront ihback =>
    rw [found, members, ihfront, ihback, List.filterMap_append, Schedule.earliest_append]

end Division

/-! ### The next occurrence of a schedule -/

namespace Schedule

variable [ZoneDatabase] {limit : SearchLimit} {schedule : Schedule} {after : Instant}
  {stamp : Stamp}

/-- A member finds the stamp, the members in front of it find only later ones, and those behind it find
none that is earlier. -/
def FoundFirst (schedule : Schedule) (search : Expression → Option Stamp) (stamp : Stamp) : Prop :=
  ∃ before e rest, schedule.members = before ++ e :: rest ∧ search e = some stamp ∧
    (∀ other ∈ before, ∀ found ∈ search other, stamp.instant.Before found.instant) ∧
    ∀ other ∈ rest, ∀ found ∈ search other, ¬found.instant.Before stamp.instant

theorem nextWithin_eq_none_iff : schedule.nextWithin limit after = none ↔
    ∀ e ∈ schedule.members, e.nextWithin limit after = none := by
  rw [nextWithin, earliest_eq_none_iff, List.filterMap_eq_nil_iff]

theorem earliest_filterMap_eq_some_iff {search : Expression → Option Stamp} :
    earliest (schedule.members.filterMap search) = some stamp ↔ schedule.FoundFirst search stamp := by
  rw [earliest_eq_some_iff]
  constructor
  · rintro ⟨found, later, heq, hfound, hlater⟩
    obtain ⟨before, behind, hmembers, rfl, hbehind⟩ := List.filterMap_eq_append_iff.mp heq
    obtain ⟨silent, e, rest, rfl, hsilent, he, rfl⟩ := List.filterMap_eq_cons_iff.mp hbehind
    refine ⟨before ++ silent, e, rest, by rw [hmembers, List.append_assoc], he, ?_, ?_⟩
    · intro other hother stamp' hstamp'
      rcases List.mem_append.mp hother with hother | hother
      · exact hfound stamp' (List.mem_filterMap.mpr ⟨other, hother, hstamp'⟩)
      · rw [hsilent other hother] at hstamp'
        cases hstamp'
    · intro other hother stamp' hstamp'
      exact hlater stamp' (List.mem_filterMap.mpr ⟨other, hother, hstamp'⟩)
  · rintro ⟨before, e, rest, hmembers, he, hbefore, hrest⟩
    refine ⟨before.filterMap search, rest.filterMap search, ?_, ?_, ?_⟩
    · rw [hmembers, List.filterMap_append, List.filterMap_cons_some he]
    · intro stamp' hstamp'
      obtain ⟨other, hother, hfound⟩ := List.mem_filterMap.mp hstamp'
      exact hbefore other hother stamp' hfound
    · intro stamp' hstamp'
      obtain ⟨other, hother, hfound⟩ := List.mem_filterMap.mp hstamp'
      exact hrest other hother stamp' hfound

theorem nextWithin_of_append {front back : Schedule}
    (h : schedule.members = front.members ++ back.members) :
    schedule.nextWithin limit after
      = Option.merge Stamp.earlier (front.nextWithin limit after) (back.nextWithin limit after) := by
  rw [nextWithin, h, List.filterMap_append, earliest_append]
  rfl

/-- A schedule finds nothing if none of its members does, and else the earliest stamp of them, as the
first member that has this instant finds it.  So of two parts the one in front decides, unless the other
is strictly earlier or it finds nothing itself; every way to divide the members gives the same; and
their order has no influence on the instant. -/
theorem nextWithin_leftmost (schedule : Schedule) (limit : SearchLimit) (after : Instant) :
    (schedule.nextWithin limit after = none ↔
      ∀ e ∈ schedule.members, e.nextWithin limit after = none) ∧
    (∀ stamp, schedule.nextWithin limit after = some stamp ↔
      schedule.FoundFirst (fun e => e.nextWithin limit after) stamp) ∧
    (∀ front back : Schedule, schedule.members = front.members ++ back.members →
      let overtaken := Overtakes (back.nextWithin limit after) (front.nextWithin limit after)
      (overtaken → schedule.nextWithin limit after = back.nextWithin limit after) ∧
        (¬overtaken → schedule.nextWithin limit after = front.nextWithin limit after)) ∧
    (∀ division : Division Expression, division.members = schedule.members →
      division.found (fun e => e.nextWithin limit after) = schedule.nextWithin limit after) ∧
    ∀ other : Schedule, other.members.Perm schedule.members →
      (other.nextWithin limit after).map Stamp.instant
        = (schedule.nextWithin limit after).map Stamp.instant := by
  refine ⟨nextWithin_eq_none_iff, fun stamp => earliest_filterMap_eq_some_iff, ?_, ?_, ?_⟩
  · intro front back h
    rw [nextWithin_of_append h]
    exact ⟨merge_of_overtakes, merge_of_not_overtakes⟩
  · intro division h
    rw [division.found_eq, h, nextWithin]
  · intro other h
    exact map_instant_earliest_of_perm (h.filterMap _)

end Schedule

/-- Two members at the same instant in different zones, and one without any occurrence in between: each
order shows the offset of the member that comes first, and so does each way to divide the members. -/
theorem Schedule.nextWithin_leftmost_coinciding : ∃ a never b : Expression,
    Expression.parse "*-*-* 08:00" = .ok a ∧ Expression.parse "1970-01-01" = .ok never ∧
      Expression.parse "*-*-* 22:00 Etc/GMT-14" = .ok b ∧
      let search := fun e : Expression => e.nextWithin .default (.ofSeconds 0)
      (Schedule.mk [a, never, b]).nextWithin .default (.ofSeconds 0) = some ⟨.ofSeconds 28800, 0⟩ ∧
      (Division.parts .nothing (.parts (.single b) (.parts (.single never) (.single a)))).found search
        = some ⟨.ofSeconds 28800, 50400⟩ ∧
      ((Schedule.mk [b, never, a]).nextWithin .default (.ofSeconds 0)).map Stamp.instant
        = some (.ofSeconds 28800) := by
  let a : Expression := ⟨.all, .omitted, ⟨⟨[⟨8, none, none⟩]⟩, ⟨[⟨0, none, none⟩]⟩, ⟨[⟨0, none, none⟩]⟩⟩,
    .machine⟩
  let never : Expression := ⟨.all, ⟨⟨[⟨1970, none, none⟩]⟩, ⟨[⟨1, none, none⟩]⟩, ⟨[⟨1, none, none⟩]⟩⟩,
    .omitted, .machine⟩
  let b : Expression := ⟨.all, .omitted, ⟨⟨[⟨22, none, none⟩]⟩, ⟨[⟨0, none, none⟩]⟩, ⟨[⟨0, none, none⟩]⟩⟩,
    .named "Etc/GMT-14" (by decide +kernel)⟩
  have hsearch : a.nextWithin .default (.ofSeconds 0) = some ⟨.ofSeconds 28800, 0⟩ ∧
      never.nextWithin .default (.ofSeconds 0) = none ∧
      b.nextWithin .default (.ofSeconds 0) = some ⟨.ofSeconds 28800, 50400⟩ := by
    decide +kernel
  have hnot : ¬(Instant.ofSeconds 28800).Before (.ofSeconds 28800) := by decide
  have hfirst : (Schedule.mk [a, never, b]).nextWithin .default (.ofSeconds 0)
      = some ⟨.ofSeconds 28800, 0⟩ := by
    refine ((nextWithin_leftmost _ _ _).2.1 _).mpr ⟨[], a, [never, b], rfl, hsearch.1, by simp, ?_⟩
    simp [hsearch, hnot]
  have hlast : (Schedule.mk [b, never, a]).nextWithin .default (.ofSeconds 0)
      = some ⟨.ofSeconds 28800, 50400⟩ := by
    refine ((nextWithin_leftmost _ _ _).2.1 _).mpr ⟨[], b, [never, a], rfl, hsearch.2.2, by simp, ?_⟩
    simp [hsearch, hnot]
  refine ⟨a, never, b, by decide +kernel, by decide +kernel, by decide +kernel, hfirst, ?_, ?_⟩
  · exact ((nextWithin_leftmost (Schedule.mk [b, never, a]) _ _).2.2.2.1 _ rfl).trans hlast
  · rw [(nextWithin_leftmost (Schedule.mk [a, never, b]) _ _).2.2.2.2 _ ?_, hfirst]
    · rfl
    · decide +kernel

end Recurrence
