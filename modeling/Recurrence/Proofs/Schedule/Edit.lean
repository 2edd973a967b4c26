import Recurrence.Proofs.Storage.File
import Recurrence.Schedule.Edit
import Recurrence.Storage.Database

/-!
# Schedules that are edited

An edit replaces the members by those in some texts, adds a member at the end, or takes one out
(`ScheduleEdit.Effect`); it succeeds exactly if it can do so (`ScheduleEdit.apply_eq_ok_iff`), and otherwise
nothing changes.  So whatever edits are made, the members are expressions that were read from texts, and
the schedule comes back from each form in which it can be written (`Schedule.portable_editAll`).
-/

namespace Recurrence

/-! ### One edit -/

namespace ScheduleEdit

variable [ZoneDatabase] {schedule schedule' : Schedule} {edit : ScheduleEdit}
  {members members' : List Expression} {index : Nat}

/-- What becomes of some members by an edit. -/
inductive Effect (members : List Expression) : ScheduleEdit → List Expression → Prop
  | parse {text : String} {members' : List Expression} (lists : Schedule.Lists text members') :
      Effect members (.parse text) members'
  | collect {texts : List String} {members' : List Expression}
      (reads : List.Forall₂ (fun text e => Expression.parse text = .ok e) texts members') :
      Effect members (.collect texts) members'
  | decode {document text : String} {members' : List Expression}
      (holds : Json.decode Json.text (Text.utf8 document.toList) = .ok text)
      (lists : Schedule.Lists text members') : Effect members (.decode document) members'
  | push {text : String} {e : Expression} (reads : Expression.parse text = .ok e) :
      Effect members (.push text) (members ++ [e])
  | remove {front rest : List Expression} {e : Expression} (split : members = front ++ e :: rest) :
      Effect members (.remove front.length) (front ++ rest)

theorem effect_remove_iff : (remove index).Effect members members' ↔
    index < members.length ∧ members.eraseIdx index = members' := by
  constructor
  · rintro ⟨⟩
    rename_i front rest e
    subst_vars
    rw [List.eraseIdx_append_of_length_le (Nat.le_refl _)]
    simp
  · rintro ⟨hlt, rfl⟩
    have hsplit : members = members.take index ++ members[index] :: members.drop (index + 1) := by
      simp
    have heffect := Effect.remove hsplit
    rw [List.length_take_of_le (Nat.le_of_lt hlt)] at heffect
    rwa [List.eraseIdx_eq_take_drop_succ]

/-- An edit succeeds exactly if it has an effect. -/
theorem apply_eq_ok_iff :
    edit.apply schedule = .ok ⟨members'⟩ ↔ edit.Effect schedule.members members' := by
  cases edit with
  | parse text =>
    rw [apply, mapError_eq_ok_iff, Schedule.parse_eq_ok_iff_lists]
    exact ⟨.parse, fun | .parse lists => lists⟩
  | collect texts =>
    rw [apply, mapError_eq_ok_iff, Schedule.collect, map_eq_ok_iff]
    simp only [mapM_eq_ok_iff]
    constructor
    · rintro ⟨members, hreads, ⟨⟩⟩
      exact .collect hreads
    · rintro ⟨⟩
      rename_i hreads
      exact ⟨_, hreads, rfl⟩
  | decode document =>
    rw [apply, mapError_eq_ok_iff, Json.schedule, Json.decode_parsed_eq_ok_iff]
    simp only [Schedule.parse_eq_ok_iff_lists]
    exact ⟨fun ⟨_, holds, lists⟩ => .decode holds lists,
      fun | .decode holds lists => ⟨_, holds, lists⟩⟩
  | push text =>
    rw [apply, mapError_eq_ok_iff, map_eq_ok_iff]
    constructor
    · rintro ⟨e, hreads, ⟨⟩⟩
      exact .push hreads
    · rintro ⟨⟩
      rename_i e hreads
      exact ⟨e, hreads, rfl⟩
  | remove index =>
    rw [apply, effect_remove_iff, Schedule.remove?, Schedule.get?]
    by_cases hlt : index < schedule.members.length
    · simp [hlt]
    · simp [hlt]

theorem edit_of_effect (h : edit.Effect schedule.members members') :
    schedule.edit edit = ⟨members'⟩ := by
  rw [Schedule.edit, apply_eq_ok_iff.mpr h]

/-- An edit that cannot have an effect fails, and leaves the schedule as it is. -/
theorem edit_of_not_effect (h : ∀ members', ¬ edit.Effect schedule.members members') :
    (∃ fault, edit.apply schedule = .error fault) ∧ schedule.edit edit = schedule := by
  rw [Schedule.edit]
  cases happly : edit.apply schedule with
  | ok schedule' => exact absurd (apply_eq_ok_iff.mp happly) (h _)
  | error fault => exact ⟨⟨fault, rfl⟩, rfl⟩

/-! ### Many edits -/

theorem wellFormed_of_effect (h : schedule.WellFormed)
    (heffect : edit.Effect schedule.members members') : (Schedule.mk members').WellFormed := by
  cases heffect with
  | parse lists => exact Schedule.wellFormed_of_parse (Schedule.parse_eq_ok_iff_lists.mpr lists)
  | collect reads =>
    refine Schedule.wellFormed_of_parsed fun e he => ?_
    obtain ⟨text, _, htext⟩ := exists_of_forall₂_of_mem reads he
    exact ⟨text, htext⟩
  | decode _ lists => exact Schedule.wellFormed_of_parse (Schedule.parse_eq_ok_iff_lists.mpr lists)
  | push reads =>
    intro e he
    rcases List.mem_append.mp he with he | he
    · exact h e he
    · cases List.mem_singleton.mp he
      exact Expression.wellFormed_of_parse reads
  | @remove front rest removed split =>
    intro e he
    have hsub : front ++ rest ⊆ schedule.members := by
      rw [split]
      exact ((List.sublist_cons_self removed rest).append_left front).subset
    exact h e (hsub he)

end ScheduleEdit

namespace Schedule

variable [ZoneDatabase]

theorem wellFormed_edit {schedule : Schedule} (h : schedule.WellFormed) (edit : ScheduleEdit) :
    (schedule.edit edit).WellFormed := by
  by_cases heffect : ∃ members', edit.Effect schedule.members members'
  · obtain ⟨members', heffect⟩ := heffect
    rw [ScheduleEdit.edit_of_effect heffect]
    exact ScheduleEdit.wellFormed_of_effect h heffect
  · rw [(ScheduleEdit.edit_of_not_effect (not_exists.mp heffect)).2]
    exact h

theorem wellFormed_editAll {schedule : Schedule} (h : schedule.WellFormed) (edits : List ScheduleEdit) :
    (schedule.editAll edits).WellFormed := by
  induction edits generalizing schedule with
  | nil => exact h
  | cons edit edits ih => exact ih (wellFormed_edit h edit)

/-- A schedule that is read back from each form in which it can be written: its text, a JSON string, the
value of a column of a database, and a file of text, in any file system that can be relied on, along any
path that can be written, and whatever the file held before. -/
structure Portable (schedule : Schedule) : Prop where
  text : parse schedule.text = .ok schedule
  json : Json.decode Json.schedule (Text.utf8 (Json.ofSchedule schedule).toList) = .ok schedule
  column : ∀ column, (Cell.ofSchedule schedule).schedule column = .ok schedule
  file : ∀ {m : Type → Type} [Monad m] {files : FileSystem m} {view : FileView m}, files.Lawful view →
    ∀ (before : view.World) (path : String),
      files.CanWrite view before path (FileFormat.text.encode schedule) →
        ∃ after, FileFormat.text.Keeps files view schedule path before after

theorem WellFormed.portable {schedule : Schedule} (h : schedule.WellFormed) : schedule.Portable where
  text := parse_text h
  json := Json.decode_ofSchedule h
  column _ := bind_eq_ok_iff.mpr ⟨_, rfl, mapError_eq_ok_iff.mpr (parse_text h)⟩
  file lawful _ _ hwrite := FileFormat.exists_keeps lawful h hwrite

/-- After any edits of the empty schedule, the next edit has its effect if it can have one, and changes
nothing otherwise, and the schedule comes back from each form in which it can be written. -/
theorem portable_editAll (edits : List ScheduleEdit) :
    let schedule := empty.editAll edits
    (∀ edit : ScheduleEdit,
      (∃ members', edit.Effect schedule.members members' ∧ edit.apply schedule = .ok ⟨members'⟩ ∧
        schedule.edit edit = ⟨members'⟩) ∨
      (∀ members', ¬ edit.Effect schedule.members members') ∧
        (∃ fault, edit.apply schedule = .error fault) ∧ schedule.edit edit = schedule) ∧
    (∀ index, (∃ fault, (ScheduleEdit.remove index).apply schedule = .error fault) ↔
      schedule.size ≤ index) ∧
    schedule.Portable := by
  intro schedule
  have hwellFormed : schedule.WellFormed :=
    wellFormed_editAll (fun _ he => absurd he List.not_mem_nil) edits
  refine ⟨fun edit => ?_, fun index => ?_, hwellFormed.portable⟩
  · by_cases heffect : ∃ members', edit.Effect schedule.members members'
    · obtain ⟨members', heffect⟩ := heffect
      exact .inl ⟨members', heffect, ScheduleEdit.apply_eq_ok_iff.mpr heffect,
        ScheduleEdit.edit_of_effect heffect⟩
    · rw [not_exists] at heffect
      exact .inr ⟨heffect, ScheduleEdit.edit_of_not_effect heffect⟩
  · constructor
    · rintro ⟨fault, hfault⟩
      by_contra hlt
      have heffect := ScheduleEdit.effect_remove_iff.mpr ⟨Nat.lt_of_not_le hlt, rfl⟩
      rw [ScheduleEdit.apply_eq_ok_iff.mpr heffect] at hfault
      cases hfault
    · intro hle
      refine (ScheduleEdit.edit_of_not_effect fun members' heffect => ?_).1
      exact Nat.not_lt.mpr hle (ScheduleEdit.effect_remove_iff.mp heffect).1

end Schedule

/-- Two edits that fail between three that do not, and one that would fail next; there is just room for the
text of the schedule in a file that has to be made. -/
theorem Schedule.portable_editAll_mixed :
    ∃ schedule, empty.editAll [.parse "Mon\n \n12:00", .push "noon", .remove 5,
        .decode "\"Tue\\nWed\"", .remove 0] = schedule ∧
      schedule.text = "Wed *-*-* 00:00:00" ∧
      (∃ fault, (ScheduleEdit.remove 1).apply schedule = .error fault) ∧ schedule.Portable ∧
      ∃ after, FileFormat.text.Keeps FileTree.fileSystem FileTree.view schedule "./plan"
        { FileTree.empty with capacity := some 19 } after := by
  let edits : List ScheduleEdit := [.parse "Mon\n \n12:00", .push "noon", .remove 5,
    .decode "\"Tue\\nWed\"", .remove 0]
  obtain ⟨_, hremove, hportable⟩ := portable_editAll edits
  let tree : FileTree := { FileTree.empty with capacity := some 19 }
  have hpath : tree.Leads "./plan" ["plan", "home"] :=
    (FileTree.locate_eq_ok_iff true).mp (by decide +kernel)
  have hroom : ∀ capacity ∈ tree.capacity, (tree.put ["plan", "home"] []).size +
      (FileFormat.text.encode (empty.editAll edits)).length ≤ capacity := by
    decide +kernel
  have hwrite := FileTree.canWrite_iff.mpr ⟨_, hpath, hroom⟩
  exact ⟨_, rfl, by decide +kernel, (hremove 1).mpr (by decide +kernel), hportable,
    hportable.file FileTree.lawful_fileSystem tree "./plan" hwrite⟩

end Recurrence
