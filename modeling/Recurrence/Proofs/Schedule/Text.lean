import Recurrence.Proofs.Expression.RoundTrip
import Recurrence.Proofs.Text.Grammar
import Recurrence.Schedule

/-!
# The text of a schedule

A text is read line by line: the members are what the lines stand for that are not blank, in their order
(`Schedule.read_eq_ok_iff`).  The canonical text of an expression has no line break in it and is not
blank, so the canonical text of a schedule is read as this schedule (`Schedule.read_chars`), also behind
a line break at its end (`Schedule.read_append_break`).
-/

namespace Recurrence

/-! ### The canonical text of an expression is a line -/

namespace Expression

variable [ZoneDatabase] {e : Expression}

theorem wellFormed_of_read {line : List Char} (h : read line = .ok e) : e.WellFormed :=
  @wellFormed_of_parse _ (String.ofList line) _ (by rwa [parse, String.toList_ofList])

theorem read_chars (h : e.WellFormed) : read e.chars = .ok e := by
  have hread := parse_text h
  rwa [parse, text, String.toList_ofList] at hread

/-- The only blanks of the canonical text are spaces. -/
theorem break_not_mem_chars (h : e.WellFormed) : '\n' ∉ e.chars := by
  intro hmem
  rcases Text.mem_intercalate_singleton hmem with hspace | ⟨word, hword, hmem⟩
  · cases hspace
  · have hblank := isBlank_of_mem_words h hword hmem
    revert hblank
    decide

/-- A line that is an expression is not blank. -/
theorem isBlankLine_of_read {line : List Char} (h : read line = .ok e) :
    Text.isBlankLine line = false := by
  obtain ⟨hne, _⟩ := ofWords_eq_ok_iff.mp h
  by_contra hblank
  rw [Bool.not_eq_false, Text.isBlankLine, List.all_eq_true] at hblank
  exact hne (Text.words_eq_iff.mpr (.blanks hblank))

end Expression

namespace Schedule

variable [ZoneDatabase] {schedule : Schedule} {members : List Expression} {number : Nat}
  {lines : List (List Char)} {s : List Char}

/-- Every member is one that a text can stand for. -/
def WellFormed (schedule : Schedule) : Prop :=
  ∀ e ∈ schedule.members, e.WellFormed

/-! ### Reading line by line -/

/-- The lines of a text that are not blank. -/
def memberLines (s : List Char) : List (List Char) :=
  (s.splitOn '\n').filter fun line => !Text.isBlankLine line

theorem readLines_eq_ok_iff : readLines number lines = .ok members ↔
    List.Forall₂ (fun line e => Expression.read line = .ok e)
      (lines.filter fun line => !Text.isBlankLine line) members := by
  induction lines generalizing number members with
  | nil => cases members <;> simp [readLines]
  | cons line lines ih =>
    rw [readLines, List.filter_cons]
    by_cases hblank : Text.isBlankLine line = true
    · simp only [hblank, if_true, Bool.not_true, Bool.false_eq_true, if_false, ih]
    · simp only [hblank, Bool.not_false, if_true, List.forall₂_cons_left_iff]
      cases hread : Expression.read line with
      | error cause => simp
      | ok e =>
        rw [if_neg Bool.false_ne_true, map_eq_ok_iff]
        constructor
        · rintro ⟨members, hmembers, rfl⟩
          exact ⟨e, members, rfl, ih.mp hmembers, rfl⟩
        · rintro ⟨_, members, ⟨⟩, hmembers, rfl⟩
          exact ⟨members, ih.mpr hmembers, rfl⟩

/-- A schedule is read from the lines that are not blank, one member from each. -/
theorem read_eq_ok_iff : read s = .ok schedule ↔
    List.Forall₂ (fun line e => Expression.read line = .ok e) (memberLines s) schedule.members := by
  rw [read, map_eq_ok_iff]
  simp only [readLines_eq_ok_iff]
  constructor
  · rintro ⟨members, hmembers, rfl⟩
    exact hmembers
  · exact fun hmembers => ⟨schedule.members, hmembers, rfl⟩

/-- The members that the lines of a text stand for, one for each line that is not blank. -/
def Lists (text : String) (members : List Expression) : Prop :=
  List.Forall₂ (fun line e => Expression.read line = .ok e) (memberLines text.toList) members

theorem parse_eq_ok_iff_lists {text : String} :
    parse text = .ok schedule ↔ Lists text schedule.members :=
  read_eq_ok_iff

/-- A line break at the end changes nothing. -/
theorem read_append_break (s : List Char) : read (s ++ ['\n']) = read s := by
  have hlines : (s ++ ['\n']).splitOn '\n' = s.splitOn '\n' ++ [[]] := by
    rw [List.splitOn_append_cons_self, List.splitOn_nil]
  have hmore (number : Nat) (lines : List (List Char)) :
      readLines number (lines ++ [[]]) = readLines number lines := by
    induction lines generalizing number with
    | nil => rfl
    | cons line lines ih =>
      rw [List.cons_append, readLines, readLines, ih]
  rw [read, read, hlines, hmore]

theorem wellFormed_of_parse {text : String} (h : parse text = .ok schedule) : schedule.WellFormed := by
  intro e he
  obtain ⟨line, _, hread⟩ := exists_of_forall₂_of_mem (parse_eq_ok_iff_lists.mp h) he
  exact Expression.wellFormed_of_read hread

theorem wellFormed_of_parsed (h : ∀ e ∈ schedule.members, ∃ text, Expression.parse text = .ok e) :
    schedule.WellFormed := by
  intro e he
  obtain ⟨text, htext⟩ := h e he
  exact Expression.wellFormed_of_parse htext

/-! ### The canonical text -/

theorem memberLines_chars (h : schedule.WellFormed) :
    memberLines schedule.chars = schedule.members.map Expression.chars := by
  rw [memberLines, chars]
  by_cases hempty : schedule.members = []
  · rw [hempty]
    rfl
  have hbreak : ∀ line ∈ schedule.members.map Expression.chars, '\n' ∉ line :=
    List.forall_mem_map.mpr fun e he => Expression.break_not_mem_chars (h e he)
  rw [List.splitOn_intercalate _ hbreak (by simpa using hempty), List.filter_eq_self]
  refine List.forall_mem_map.mpr fun e he => ?_
  rw [Expression.isBlankLine_of_read (Expression.read_chars (h e he))]
  rfl

/-- The canonical text of a schedule stands for this schedule. -/
theorem read_chars (h : schedule.WellFormed) : read schedule.chars = .ok schedule := by
  rw [read_eq_ok_iff, memberLines_chars h, List.forall₂_map_left_iff, List.forall₂_same]
  exact fun e he => Expression.read_chars (h e he)

theorem parse_text (h : schedule.WellFormed) : parse schedule.text = .ok schedule := by
  rw [parse, text, String.toList_ofList]
  exact read_chars h

end Schedule

end Recurrence
