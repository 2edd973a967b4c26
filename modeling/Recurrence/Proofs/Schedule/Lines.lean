import Recurrence.Proofs.Expression.Sites
import Recurrence.Proofs.Schedule.Text

/-!
# The lines of a schedule

A text that is no schedule has a first line that is neither blank nor an expression, and the cause is that
of this line, with its number (`Schedule.read_eq_error_iff`).  Lines are read one after another, so a text
that is joined from two by a line break stands for the members of both, and the numbers of the lines of
the second one go on where those of the first one end (`Schedule.read_append`).
-/

namespace Recurrence

open Text (Separated)

/-- A line with something in it has words, so it is not rejected for having none. -/
theorem Expression.ne_emptyExpression_of_read [ZoneDatabase] {line : List Char}
    {cause : ParseError} (h : read line = .error cause) (hblank : Text.isBlankLine line = false) :
    cause ≠ .emptyExpression := by
  rintro rfl
  have hblanks : Text.HasWords [] line := by
    cases read_eq_error_iff.mp h with
    | noWords hwords => exact hwords
    | atSite _ _ _ _ _ _ hsite => cases hsite
  cases hblanks with
  | blanks hgap =>
    rw [Text.isBlankLine, List.all_eq_true.mpr hgap] at hblank
    cases hblank

namespace Schedule

variable [ZoneDatabase] {s : List Char} {number : Nat} {lines : List (List Char)} {cause : ParseError}

/-! ### The first line at fault -/

theorem readLines_eq_error_iff : readLines number lines = .error cause ↔
    ∃ front line rest leaf, lines = front ++ line :: rest ∧
      (∀ earlier ∈ front, Text.isBlankLine earlier = true ∨ ∃ e, Expression.read earlier = .ok e) ∧
      Text.isBlankLine line = false ∧ Expression.read line = .error leaf ∧
      cause = .inMember (number + front.length) leaf := by
  induction lines generalizing number with
  | nil => simp [readLines]
  | cons first lines ih =>
    have hnumber (front : List (List Char)) :
        number + (first :: front).length = number + 1 + front.length := by
      rw [List.length_cons, Nat.add_assoc, Nat.add_comm 1]
    constructor
    · intro h
      rw [readLines] at h
      split_ifs at h with hfirst
      · obtain ⟨front, line, rest, leaf, rfl, hfront, hblank, hline, rfl⟩ := ih.mp h
        exact ⟨first :: front, line, rest, leaf, rfl, List.forall_mem_cons.mpr ⟨.inl hfirst, hfront⟩,
          hblank, hline, by rw [hnumber]⟩
      cases hread : Expression.read first with
      | error leaf =>
        rw [hread] at h
        cases h
        exact ⟨[], first, lines, leaf, rfl, by simp, eq_false_of_ne_true hfirst, hread, rfl⟩
      | ok e =>
        rw [hread] at h
        obtain ⟨front, line, rest, leaf, rfl, hfront, hblank, hline, rfl⟩ :=
          ih.mp (map_eq_error_iff.mp h)
        exact ⟨first :: front, line, rest, leaf, rfl,
          List.forall_mem_cons.mpr ⟨.inr ⟨e, hread⟩, hfront⟩, hblank, hline, by rw [hnumber]⟩
    · rintro ⟨front, line, rest, leaf, hsplit, hfront, hblank, hline, rfl⟩
      rw [readLines]
      cases front with
      | nil =>
        cases hsplit
        rw [hblank, hline]
        rfl
      | cons first' front =>
        cases hsplit
        obtain ⟨hfirst, hfront⟩ := List.forall_mem_cons.mp hfront
        have hrest := ih.mpr ⟨front, line, rest, leaf, rfl, hfront, hblank, hline, by rw [hnumber]⟩
        rw [hrest]
        rcases hfirst with hfirst | ⟨e, hfirst⟩
        · rw [if_pos hfirst]
        · rw [Expression.isBlankLine_of_read hfirst, hfirst]
          rfl

/-- What is wrong with a text that is no schedule: the first line that is neither blank nor an expression,
which is told by its number. -/
inductive Fault (s : List Char) : ParseError → Prop
  | atLine {front rest : List (List Char)} {line : List Char} {leaf : ParseError}
      (hlines : Separated '\n' (front ++ line :: rest) s)
      (hfront : ∀ earlier ∈ front,
        Text.isBlankLine earlier = true ∨ ∃ e, Expression.read earlier = .ok e)
      (hblank : Text.isBlankLine line = false) (hline : Expression.read line = .error leaf)
      (hleaf : leaf ≠ .emptyExpression) : Fault s (.inMember front.length leaf)

/-- A text is rejected exactly for what is wrong with it. -/
theorem read_eq_error_iff : read s = .error cause ↔ Fault s cause := by
  rw [read, map_eq_error_iff, readLines_eq_error_iff]
  simp only [Nat.zero_add]
  constructor
  · rintro ⟨front, line, rest, leaf, hlines, hfront, hblank, hline, rfl⟩
    exact .atLine (Text.splitOn_eq_iff.mp hlines) hfront hblank hline
      (Expression.ne_emptyExpression_of_read hline hblank)
  · rintro ⟨hlines, hfront, hblank, hline, _⟩
    exact ⟨_, _, _, _, Text.splitOn_eq_iff.mpr hlines, hfront, hblank, hline, rfl⟩

/-! ### Texts that are joined -/

/-- The cause with the number of its line moved on. -/
def moved (count : Nat) : ParseError → ParseError
  | .inMember line cause => .inMember (line + count) cause
  | cause => cause

theorem readLines_add (count : Nat) : readLines (number + count) lines =
    (readLines number lines).mapError (moved count) := by
  induction lines generalizing number with
  | nil => rfl
  | cons line lines ih =>
    rw [readLines, readLines, Nat.add_right_comm, ih]
    split_ifs
    · rfl
    cases Expression.read line with
    | error cause => rfl
    | ok e => cases readLines (number + 1) lines <;> rfl

theorem readLines_append (front rest : List (List Char)) : readLines number (front ++ rest) =
    readLines number front >>= fun members =>
      (readLines (number + front.length) rest).map (members ++ ·) := by
  induction front generalizing number with
  | nil =>
    rw [readLines, List.nil_append, List.length_nil, Nat.add_zero]
    cases readLines number rest <;> rfl
  | cons line front ih =>
    rw [List.cons_append, readLines, readLines, ih, List.length_cons, Nat.add_assoc, Nat.add_comm 1]
    split_ifs
    · rfl
    cases Expression.read line with
    | error cause => rfl
    | ok e =>
      cases readLines (number + 1) front with
      | error cause => rfl
      | ok members => cases readLines (number + (front.length + 1)) rest <;> rfl

/-- The lines of the first text are read, and then those of the second one with the numbers that come
after them. -/
theorem read_append_break_append (a b : List Char) : read (a ++ '\n' :: b) =
    read a >>= fun first => ((read b).mapError (moved (a.count '\n' + 1))).map fun second =>
      ⟨first.members ++ second.members⟩ := by
  have hlines : readLines (0 + (a.splitOn '\n').length) (b.splitOn '\n') =
      (readLines 0 (b.splitOn '\n')).mapError (moved (a.count '\n' + 1)) := by
    rw [readLines_add, Text.length_splitOn]
  rw [read, read, read, List.splitOn_append_cons_self, readLines_append, hlines]
  cases readLines 0 (a.splitOn '\n') with
  | error cause => rfl
  | ok first => cases readLines 0 (b.splitOn '\n') <;> rfl

/-- Of two texts with a line break between them, the first one decides if it is rejected; if both are
accepted, their members come one after the other, and if only the second one is rejected, its line is
counted from behind the first text. -/
theorem parse_joined (a b : String) :
    (∀ first second, parse a = .ok first → parse b = .ok second →
      parse (a ++ "\n" ++ b) = .ok ⟨first.members ++ second.members⟩) ∧
    (∀ cause, parse a = .error cause → parse (a ++ "\n" ++ b) = .error cause) ∧
    ∀ first line cause, parse a = .ok first → parse b = .error (.inMember line cause) →
      parse (a ++ "\n" ++ b) = .error (.inMember (line + 1 + a.toList.count '\n') cause) := by
  have hjoined : parse (a ++ "\n" ++ b) = parse a >>= fun first =>
      ((parse b).mapError (moved (a.toList.count '\n' + 1))).map fun second =>
        ⟨first.members ++ second.members⟩ := by
    have htext : (a ++ "\n" ++ b).toList = a.toList ++ '\n' :: b.toList := by simp
    rw [parse, htext, read_append_break_append]
    rfl
  refine ⟨fun first second ha hb => ?_, fun cause ha => ?_, fun first line cause ha hb => ?_⟩
  · rw [hjoined, ha, hb]
    rfl
  · rw [hjoined, ha]
    rfl
  · rw [hjoined, ha, hb, Nat.add_assoc, Nat.add_comm 1]
    rfl

end Schedule

/-- The lines of blanks at the end of the first text are no members, but they count. -/
theorem Schedule.parse_joined_countsBlankLines : ∃ nine ten cause, parse "9:00\n \n" = .ok ⟨[nine]⟩ ∧
    parse "10:00" = .ok ⟨[ten]⟩ ∧ parse "\n13-1" = .error (.inMember 1 cause) ∧
    parse ("9:00\n \n" ++ "\n" ++ "10:00") = .ok ⟨[nine, ten]⟩ ∧
    parse ("\n13-1" ++ "\n" ++ "9:00\n \n") = .error (.inMember 1 cause) ∧
    parse ("9:00\n \n" ++ "\n" ++ "\n13-1") = .error (.inMember 4 cause) := by
  let daily (hour : Nat) : Expression :=
    ⟨.all, .omitted, ⟨⟨[.single hour]⟩, ⟨[.single 0]⟩, ⟨[.single 0]⟩⟩, .machine⟩
  have hnine : parse "9:00\n \n" = .ok ⟨[daily 9]⟩ := by decide +kernel
  have hten : parse "10:00" = .ok ⟨[daily 10]⟩ := by decide +kernel
  have hmonth : parse "\n13-1"
      = .error (.inMember 1 (.inField .months (.atElement 0 (.outOfRange 13 1 12)))) := by
    decide +kernel
  exact ⟨daily 9, daily 10, _, hnine, hten, hmonth, (parse_joined _ _).1 _ _ hnine hten,
    (parse_joined _ _).2.1 _ hmonth, (parse_joined _ _).2.2 _ 1 _ hnine hmonth⟩

/-- A text is rejected as an expression, or as a schedule, exactly for what is wrong with it. -/
theorem parse_eq_error_iff_fault [ZoneDatabase] (text : String) (cause : ParseError) :
    (Expression.parse text = .error cause ↔ Expression.Fault text.toList cause) ∧
      (Schedule.parse text = .error cause ↔ Schedule.Fault text.toList cause) :=
  ⟨Expression.read_eq_error_iff, Schedule.read_eq_error_iff⟩

-- of all that is wrong here, the second element of the months comes first
example : Schedule.parse "9:00\n \nMon 1,13..40,2-x 25:00" =
    .error (.inMember 2 (.inField .months (.atElement 1 (.outOfRange 13 1 12)))) := by
  decide +kernel

end Recurrence
