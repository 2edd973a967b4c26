import Mathlib.Data.Finset.Sort
import Mathlib.Data.Int.Interval
import Recurrence.Proofs.Search.Loop
import Recurrence.Proofs.Search.Steady

/-!
# What is found one after the other

`successive` asks a search again and again, each time at the instant that was found last.  If every
answer is exact (`ExactAt`), that is the first of some instants after the one it was asked at, then the
answers are these instants in ascending order, and none of them is missing (`instants_successive`).  By a
steady clock, an answer is exact unless the search gives up (`Expression.exactAt_nextBy`).

What asks the search may as well be an iterator, which is called one time after another
(`calls_eq`): once it has come to its end it stays there.
-/

namespace Recurrence

open Calendar

/-! ### The order of the instants -/

theorem Instant.Before.trans {a b c : Instant} (hab : a.Before b) (hbc : b.Before c) : a.Before c := by
  unfold Before at *
  omega

/-- A search never goes back. -/
theorem pairwise_successive {next : Instant → Option Stamp}
    (hnext : ∀ after stamp, next after = some stamp → after.Before stamp.instant) (count : Nat)
    (after : Instant) :
    (after :: (successive next count after).map Stamp.instant).Pairwise Instant.Before := by
  induction count generalizing after with
  | zero => exact List.pairwise_singleton _ _
  | succ count ih =>
    rw [successive]
    cases h : next after with
    | none => exact List.pairwise_singleton _ _
    | some stamp =>
      have hrest := ih stamp.instant
      refine List.pairwise_cons.mpr ⟨fun i hi => ?_, hrest⟩
      rcases List.mem_cons.mp hi with rfl | hi
      · exact hnext after stamp h
      · exact (hnext after stamp h).trans ((List.pairwise_cons.mp hrest).1 i hi)

/-! ### Iterators -/

/-- A call of an iterator, which holds the instant that it asks the search at, and nothing any more once
it has come to its end. -/
def call (next : Instant → Option Stamp) : Option Instant → Option Stamp × Option Instant
  | none => (none, none)
  | some after => (next after, (next after).map Stamp.instant)

/-- What an iterator answers, call by call. -/
def calls (next : Instant → Option Stamp) : Nat → Option Instant → List (Option Stamp)
  | 0, _ => []
  | count + 1, held => (call next held).1 :: calls next count (call next held).2

theorem calls_none (next : Instant → Option Stamp) (count : Nat) :
    calls next count none = List.replicate count none := by
  induction count with
  | zero => rfl
  | succ count ih =>
    rw [calls, List.replicate_succ]
    exact congrArg _ ih

/-- An iterator answers with what is found, and then with nothing for ever. -/
theorem calls_eq (next : Instant → Option Stamp) (count : Nat) (after : Instant) :
    calls next count (some after) = (successive next count after).map some ++
      List.replicate (count - (successive next count after).length) none := by
  induction count generalizing after with
  | zero => rfl
  | succ count ih =>
    rw [calls, successive]
    cases h : next after with
    | none =>
      simp only [call, h, Option.map_none, calls_none, List.map_nil, List.nil_append, List.length_nil,
        Nat.sub_zero, List.replicate_succ]
    | some stamp =>
      simp only [call, h, Option.map_some, ih, List.map_cons, List.cons_append, List.length_cons,
        Nat.add_sub_add_right]

/-! ### Exact answers -/

/-- The ones among some instants that come after a given one. -/
def instantsAfter (instants : Set Int) (after : Instant) : Set Int :=
  {i | after.Before (.ofSeconds i) ∧ i ∈ instants}

/-- Asked at an instant, a search finds the first one of some instants after it, and nothing only if
none is left. -/
structure ExactAt (next : Instant → Option Stamp) (instants : Set Int) (after : Instant) : Prop where
  least : ∀ stamp, next after = some stamp →
    ∃ i, stamp.instant = .ofSeconds i ∧ IsLeast (instantsAfter instants after) i
  empty : next after = none → instantsAfter instants after = ∅

/-- Behind the first instant of an ascending list come the others. -/
theorem mem_tail_iff {instants : Set Int} {after : Instant} {i : Int} {l : List Int}
    (hsorted : (i :: l).Pairwise (· < ·)) (hmem : ∀ j, j ∈ i :: l ↔ j ∈ instantsAfter instants after)
    (j : Int) : j ∈ l ↔ j ∈ instantsAfter instants (.ofSeconds i) := by
  have hrest := (List.pairwise_cons.mp hsorted).1
  have hi := (hmem i).mp (List.mem_cons_self ..)
  constructor
  · intro hj
    have hj' := (hmem j).mp (List.mem_cons_of_mem i hj)
    exact ⟨Instant.before_ofSeconds.mpr (hrest j hj), hj'.2⟩
  · rintro ⟨hij, hj⟩
    have hafter : after.Before (.ofSeconds j) := hi.1.trans hij
    rcases List.mem_cons.mp ((hmem j).mpr ⟨hafter, hj⟩) with rfl | hj
    · exact absurd (Instant.before_ofSeconds.mp hij) (lt_irrefl _)
    · exact hj

/-- Exact answers are the first instants of the ascending list. -/
theorem instants_successive {next : Instant → Option Stamp} {instants : Set Int} {l : List Int}
    {after : Instant} (hsorted : l.Pairwise (· < ·))
    (hmem : ∀ i, i ∈ l ↔ i ∈ instantsAfter instants after) (count : Nat)
    (hexact : ∀ asked ∈ (after :: (successive next count after).map Stamp.instant).take count,
      ExactAt next instants asked) :
    (successive next count after).map Stamp.instant = (l.take count).map .ofSeconds := by
  induction count generalizing l after with
  | zero => rfl
  | succ count ih =>
    have hfirst : ExactAt next instants after := hexact after (List.mem_cons_self ..)
    cases h : next after with
    | none =>
      have hnil : l = [] := by
        rw [List.eq_nil_iff_forall_not_mem]
        intro i hi
        have hin := (hmem i).mp hi
        rw [hfirst.empty h] at hin
        exact hin
      rw [successive, h, hnil]
      rfl
    | some stamp =>
      obtain ⟨i, hi, hleast⟩ := hfirst.least stamp h
      cases l with
      | nil => exact absurd ((hmem i).mpr hleast.1) List.not_mem_nil
      | cons j l =>
        -- the first of the list is the least
        have hij : j = i := by
          have hji := hleast.2 ((hmem j).mp (List.mem_cons_self ..))
          rcases List.mem_cons.mp ((hmem i).mpr hleast.1) with heq | hmem'
          · exact heq.symm
          · have := (List.pairwise_cons.mp hsorted).1 i hmem'
            omega
        subst hij
        have htail := mem_tail_iff hsorted hmem
        rw [← hi] at htail
        have hlater : ∀ asked ∈ (stamp.instant :: (successive next count stamp.instant).map
            Stamp.instant).take count, ExactAt next instants asked := by
          intro asked hasked
          apply hexact
          rw [successive, h]
          exact List.mem_cons_of_mem _ hasked
        rw [successive, h]
        simp only [List.map_cons, List.take_succ_cons, hi]
        rw [← hi, ih (List.pairwise_cons.mp hsorted).2 htail hlater]

/-- A finite set of instants has an ascending list. -/
theorem exists_ascending_list {instants : Set Int} (h : instants.Finite) :
    ∃ l : List Int, l.Pairwise (· < ·) ∧ ∀ i, i ∈ l ↔ i ∈ instants := by
  refine ⟨h.toFinset.sort, h.toFinset.sortedLT_sort.pairwise, fun i => ?_⟩
  rw [Finset.mem_sort, Set.Finite.mem_toFinset]

/-- What the answers of a search are, from an instant on: ever later instants, each of which is the next
one of the given ones, up to where the search is cut off for the first time.  An iterator has the same
answers, and has no more of them once it has come to its end. -/
structure Enumerates (next : Instant → Option Stamp) (found : Nat → List Stamp)
    (cutOff : Instant → Prop) (instants : Set Int) (after : Instant) : Prop where
  increasing : ∀ count, ((found count).map Stamp.instant).Pairwise Instant.Before
  complete : ∃ l : List Int, l.Pairwise (· < ·) ∧ (∀ i, i ∈ l ↔ i ∈ instants) ∧
    ∀ count, (∀ asked ∈ (after :: (found count).map Stamp.instant).take count, ¬cutOff asked) →
      (found count).map Stamp.instant = (l.take count).map .ofSeconds
  calls_eq : ∀ count, calls next count (some after) = (found count).map some ++
    List.replicate (count - (found count).length) none

theorem enumerates_successive {next : Instant → Option Stamp} {cutOff : Instant → Prop}
    {instants : Set Int} {after : Instant}
    (hnext : ∀ after stamp, next after = some stamp → after.Before stamp.instant)
    (hfinite : (instantsAfter instants after).Finite)
    (hexact : ∀ asked, ¬cutOff asked → ExactAt next instants asked) :
    Enumerates next (fun count => successive next count after) cutOff (instantsAfter instants after)
      after := by
  obtain ⟨l, hsorted, hmem⟩ := exists_ascending_list hfinite
  refine ⟨fun count => (pairwise_successive hnext count after).of_cons, ⟨l, hsorted, hmem, ?_⟩,
    fun count => calls_eq next count after⟩
  intro count huncut
  exact instants_successive hsorted hmem count fun asked hasked => hexact asked (huncut asked hasked)

/-! ### The occurrences of an expression -/

namespace Expression

variable [ZoneDatabase] {e : Expression} {clock : Clock} {limit : SearchLimit} {after : Instant}
  {offset : Int}

theorem before_of_nextBy_eq_some (hwf : e.WellFormed) {stamp : Stamp}
    (h : e.nextBy clock limit after = some stamp) : after.Before stamp.instant := by
  obtain ⟨wall, _, _, hstamp, _⟩ := exists_of_nextBy_eq_some hwf h
  obtain ⟨i, rfl, ⟨_, hafter⟩, _⟩ := Clock.instantAfter_eq_some_iff.mp hstamp
  exact Instant.before_ofSeconds.mpr hafter

/-- A search by a steady clock that does not give up is exact. -/
theorem exactAt_nextBy (hwf : e.WellFormed) (hsteady : clock.Steady offset)
    (huncut : ¬e.CutOff clock limit after) :
    ExactAt (e.nextBy clock limit) {i | e.MatchesAt clock i} after := by
  constructor
  · intro stamp h
    obtain ⟨i, rfl, hleast⟩ := isLeast_of_nextBy_eq_some hwf hsteady h
    exact ⟨i, rfl, hleast⟩
  · intro h
    refine Set.eq_empty_of_forall_notMem ?_
    rintro i ⟨hafter, hmatches⟩
    rw [Instant.before_ofSeconds] at hafter
    have hlater : clock.read after.seconds < (WallTime.ofSeconds (clock.read i)).seconds := by
      rw [WallTime.seconds_ofSeconds, hsteady.read_eq, hsteady.read_eq]
      omega
    have hdead := not_live_of_nextBy_eq_none hwf h huncut hmatches hlater
    rw [WallTime.seconds_ofSeconds, hsteady.read_eq] at hdead
    -- but the instant itself shows the reading
    have hlive := hsteady.instantAfter_eq_some_iff.mpr
      ⟨rfl, show after.seconds < i + offset - offset by omega⟩
    rw [hdead] at hlive
    cases hlive

/-- No reading matches after the last year. -/
theorem seconds_lt_of_matches {wall : WallTime} (h : e.Matches wall) :
    wall.seconds < yearStart 2200 * 86400 := by
  obtain ⟨⟨hdate, hhour, hminute, hsecond⟩, hzero, hyear, _⟩ := h
  have hle : wall.date.year.toNat ≤ 2199 :=
    ((Series.mem_values Field.years.max_le_maxNumber).mp hyear).1
  have hday : wall.date.dayNumber < yearStart 2200 := calc
    wall.date.dayNumber < yearStart (wall.date.year + 1) :=
      Date.dayNumber_lt_yearStart (Date.isReal_of_isValid hdate)
    _ ≤ yearStart 2200 := yearStart_mono (by omega)
  unfold WallTime.seconds
  omega

theorem finite_matchesAfter (e : Expression) (hsteady : clock.Steady offset) (after : Instant) :
    (e.matchesAfter clock after).Finite := by
  refine (Set.finite_Ioo after.seconds (yearStart 2200 * 86400 - offset)).subset ?_
  rintro i ⟨hafter, hmatches⟩
  have hlt := seconds_lt_of_matches hmatches
  rw [WallTime.seconds_ofSeconds, hsteady.read_eq] at hlt
  exact ⟨Instant.before_ofSeconds.mp hafter, by omega⟩

end Expression

end Recurrence
