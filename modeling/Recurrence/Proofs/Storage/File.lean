import Recurrence.Proofs.Json.Documents
import Recurrence.Proofs.Storage.FileTree
import Recurrence.Proofs.Text.Utf8
import Recurrence.Storage.File
import Recurrence.Zone.Standard

/-!
# Schedules that come back from a file

In both formats the contents of a file stand for the schedule they were made of
(`FileFormat.decode_encode`).  So a schedule that is saved along a path to a file is what is loaded from
there, whatever was in the file, and no other file changes (`FileFormat.Keeps`, `FileFormat.exists_keeps`).
-/

namespace Recurrence

namespace FileFormat

variable [ZoneDatabase] {format : FileFormat} {schedule : Schedule} {path : String}

/-! ### Contents -/

theorem decode_encode (format : FileFormat) (h : schedule.WellFormed) :
    format.decode (format.encode schedule) = .ok schedule := by
  cases format with
  | json => rw [decode, encode, mapError_eq_ok_iff, Json.decode_snapshotChars h]
  | text =>
    have hread : Schedule.parse (String.ofList (schedule.chars ++ ['\n'])) = .ok schedule := by
      rw [Schedule.parse, String.toList_ofList, Schedule.read_append_break]
      exact Schedule.read_chars h
    simp only [decode, encode, Text.ofUtf8?_utf8, hread]
    rfl

/-- Whatever a file holds, the members of the schedule that is loaded from it are read from texts. -/
theorem wellFormed_of_decode {contents : Bytes} (h : format.decode contents = .ok schedule) :
    schedule.WellFormed := by
  cases format with
  | json => exact Json.wellFormed_of_decode_snapshot (mapError_eq_ok_iff.mp h)
  | text =>
    unfold decode at h
    dsimp only at h
    split at h
    · exact Schedule.wellFormed_of_parse (mapError_eq_ok_iff.mp h)
    · cases h

/-! ### Files -/

section

variable {m : Type → Type} [Monad m] {files : FileSystem m} {view : FileView m} {world before : view.World}

theorem run_save : view.run (format.save files schedule path) world =
    ((view.run (files.write path (format.encode schedule)) world).1.mapError format.fileError,
      (view.run (files.write path (format.encode schedule)) world).2) := by
  rw [save, view.run_bind, view.run_pure]

theorem run_load : view.run (format.load files path) world =
    (match (view.run (files.read path) world).1 with
      | .ok contents => format.decode contents
      | .error failure => .error (format.fileError failure),
    (view.run (files.read path) world).2) := by
  rw [load, view.run_bind]
  cases (view.run (files.read path) world).1 <;> rw [view.run_pure]

theorem wellFormed_of_load (h : (view.run (format.load files path) world).1 = .ok schedule) :
    schedule.WellFormed := by
  rw [run_load] at h
  dsimp only at h
  split at h
  · exact wellFormed_of_decode h
  · cases h

/-- What becomes of the files when a schedule is saved along a path: the file to which the path leads has
the contents that stand for the schedule, the other files are as before, and the schedule is loaded along
this path. -/
structure Keeps (format : FileFormat) (files : FileSystem m) (view : FileView m) (schedule : Schedule)
    (path : String) (before after : view.World) : Prop where
  save : view.run (format.save files schedule path) before = (.ok (), after)
  contents : ∃ file, view.file? before path = some file ∧
    view.contents? after file = some (format.encode schedule)
  others : view.UnchangedBut path before after
  load : (view.run (format.load files path) after).1 = .ok schedule

theorem Keeps.after_eq {after : view.World} (h : format.Keeps files view schedule path before after) :
    (view.run (files.write path (format.encode schedule)) before).2 = after :=
  congrArg Prod.snd (run_save.symm.trans h.save)

theorem exists_keeps (lawful : files.Lawful view) (h : schedule.WellFormed)
    (hwrite : files.CanWrite view before path (format.encode schedule)) :
    ∃ after, format.Keeps files view schedule path before after := by
  refine ⟨_, ?_, lawful.contents?_write before path _ hwrite, lawful.unchangedBut_write before path _, ?_⟩
  · rw [run_save, hwrite]
    rfl
  · rw [run_load, lawful.read_write before path _ hwrite]
    exact decode_encode format h

/-- In any file system that can be relied on, and along any path that can be written, a schedule of
expressions that were read from texts comes back from a JSON file, whatever the file held before, and so
does every schedule that can be loaded from a JSON file at all. -/
theorem exists_keeps_json (lawful : files.Lawful view) (before : view.World) (path : String) :
    (∀ schedule : Schedule, (∀ e ∈ schedule.members, ∃ text, Expression.parse text = .ok e) →
      files.CanWrite view before path (json.encode schedule) →
        ∃ after, json.Keeps files view schedule path before after) ∧
    ∀ (source : view.World) (sourcePath : String) (schedule : Schedule),
      (view.run (json.load files sourcePath) source).1 = .ok schedule →
        files.CanWrite view before path (json.encode schedule) →
          ∃ after, json.Keeps files view schedule path before after := by
  constructor
  · intro schedule hparsed hwrite
    exact exists_keeps lawful (Schedule.wellFormed_of_parsed hparsed) hwrite
  · intro source sourcePath schedule hload hwrite
    exact exists_keeps lawful (wellFormed_of_load hload) hwrite

end

end FileFormat

/-- A schedule replaces bytes that are no text in a file of a directory, beside another file and where there
is just room enough; then the schedule of a record that is laid out as a list, with an escape in it,
replaces this schedule. -/
theorem FileFormat.exists_keeps_json_replaced :
    ∃ weekly yearly : Expression, Expression.parse "Mon,Wed 12:00" = .ok weekly ∧
      Expression.parse "02-29" = .ok yearly ∧
      ∃ before first second : FileTree,
        json.Keeps FileTree.fileSystem FileTree.view ⟨[weekly, yearly]⟩ "../home/.//plans/plan" before first ∧
        first.contents? ["notes"] = some [0x61] ∧
        FileTree.view.file? first "/home/plans/plan" = some ["plan", "plans", "home"] ∧
        (FileTree.view.run (json.load FileTree.fileSystem "old") first).1 = .ok ⟨[weekly]⟩ ∧
        json.Keeps FileTree.fileSystem FileTree.view ⟨[weekly]⟩ "/home/plans/plan" first second := by
  let midnight : TimePattern := .omitted
  let weekly : Expression := ⟨⟨[⟨1, none⟩, ⟨3, none⟩]⟩, .omitted,
    ⟨⟨[⟨12, none, none⟩]⟩, midnight.minutes, midnight.seconds⟩, .machine⟩
  let yearly : Expression := ⟨.all, ⟨.all .years, ⟨[⟨2, none, none⟩]⟩, ⟨[⟨29, none, none⟩]⟩⟩, midnight,
    .machine⟩
  have hweekly : Expression.parse "Mon,Wed 12:00" = .ok weekly := by decide +kernel
  have hyearly : Expression.parse "02-29" = .ok yearly := by decide +kernel
  have hparsed : ∀ e ∈ [weekly, yearly], ∃ text, Expression.parse text = .ok e := by
    simp only [List.forall_mem_cons]
    exact ⟨⟨_, hweekly⟩, ⟨_, hyearly⟩, by simp⟩
  let old := Text.utf8 "[ [\"\\u004don,Wed 12:00\"]\n]".toList
  let plan : Location := ["plan", "plans", "home"]
  let before : FileTree := ⟨[["home"], ["plans", "home"]],
    [(plan, [0xFF]), (["notes"], [0x61]), (["old", "home"], old)], ["home"], some 106⟩
  have hpath : before.Leads "../home/.//plans/plan" plan :=
    (FileTree.locate_eq_ok_iff true).mp (by decide +kernel)
  have hroom : ∀ capacity ∈ before.capacity,
      (before.put plan []).size + (json.encode ⟨[weekly, yearly]⟩).length ≤ capacity := by
    decide +kernel
  have hwrite := FileTree.canWrite_iff.mpr ⟨plan, hpath, hroom⟩
  obtain ⟨first, hfirst⟩ :=
    (exists_keeps_json FileTree.lawful_fileSystem before _).1 ⟨[weekly, yearly]⟩ hparsed hwrite
  -- the tree is known after the first schedule was saved
  obtain rfl : before.put plan (json.encode ⟨[weekly, yearly]⟩) = first :=
    (FileTree.run_write_snd hpath hwrite).symm.trans hfirst.after_eq
  have hload : (FileTree.view.run (json.load FileTree.fileSystem "old")
      (before.put plan (json.encode ⟨[weekly, yearly]⟩))).1 = .ok ⟨[weekly]⟩ :=
    toOption_eq_some_iff.mp (by decide +kernel)
  have hpath' : (before.put plan (json.encode ⟨[weekly, yearly]⟩)).Leads "/home/plans/plan" plan :=
    (FileTree.locate_eq_ok_iff true).mp (by decide +kernel)
  have hwrite' := FileTree.canWrite_iff.mpr ⟨plan, hpath', (by decide +kernel :
    ∀ capacity ∈ before.capacity, ((before.put plan (json.encode ⟨[weekly, yearly]⟩)).put plan []).size +
      (json.encode ⟨[weekly]⟩).length ≤ capacity)⟩
  obtain ⟨second, hsecond⟩ :=
    (exists_keeps_json FileTree.lawful_fileSystem _ "/home/plans/plan").2 _ "old" _ hload hwrite'
  exact ⟨weekly, yearly, hweekly, hyearly, before, _, second, hfirst, rfl,
    FileTree.file?_view_eq_some_iff.mpr hpath', hload, hsecond⟩

end Recurrence
