import Recurrence.Json.Decode

/-!
# Changes to a schedule

A `ScheduleEdit` puts other members in the place of all members of a schedule, adds one, or
removes one.  What it is given is text, so an edit may fail (`ScheduleEdit.apply`); then it has no
effect (`Schedule.edit`).
-/

namespace Recurrence

variable [ZoneDatabase]

/-- A change to a schedule. -/
inductive ScheduleEdit where
  /-- Takes the members from a text with one per line. -/
  | parse (text : String)
  /-- Takes the members from some texts. -/
  | collect (texts : List String)
  /-- Takes the members from a JSON document. -/
  | decode (document : String)
  /-- Adds a member at the end. -/
  | push (text : String)
  /-- Removes the member at an index. -/
  | remove (index : Nat)
deriving DecidableEq

/-- Why a schedule cannot be changed. -/
inductive EditFault where
  | parse (cause : ParseError)
  | json (error : Json.Error)
  | noMember (index : Nat)

/-- The schedule after a change. -/
def ScheduleEdit.apply (schedule : Schedule) : ScheduleEdit → Except EditFault Schedule
  | parse text => (Schedule.parse text).mapError .parse
  | collect texts => (Schedule.collect texts).mapError .parse
  | decode document => (Json.decode Json.schedule (Text.utf8 document.toList)).mapError .json
  | push text => ((Expression.parse text).map schedule.push).mapError .parse
  | remove index =>
    match schedule.remove? index with
    | some (_, schedule) => .ok schedule
    | none => .error (.noMember index)

namespace Schedule

/-- The schedule after a change, which is the same if the change fails. -/
def edit (schedule : Schedule) (edit : ScheduleEdit) : Schedule :=
  match edit.apply schedule with
  | .ok schedule => schedule
  | .error _ => schedule

/-- The schedule after some changes, one after the other. -/
def editAll (schedule : Schedule) (edits : List ScheduleEdit) : Schedule :=
  edits.foldl edit schedule

end Schedule

end Recurrence
