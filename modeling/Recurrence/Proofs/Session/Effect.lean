import Recurrence.Proofs.Session.Command
import Recurrence.Proofs.Storage.File
import Recurrence.Session.Basic

/-!
# What a line changes

Five commands can change something: the schedule, the reference time or a file (`Session.Effect`).  Such a
command has its effect if it can have one (`Session.Effect.run_answer`); otherwise it only complains
(`Session.refused_of_not_effect`).  All other lines change nothing, and only `quit` and `exit` end a
session (`Session.response_answer`).

A complaint comes with no change either, with one exception that cannot be helped: if the file to which a
schedule is to be saved is open already when something goes wrong, it has lost what was in it
(`Session.Leaves`).
-/

namespace Recurrence

namespace Session

/-! ### Complaints -/

/-- How a complaint begins. -/
def complaintStarts : List String :=
  ["Error: ", "Usage: ", "Save error: ", "Load error: ", "Unknown format '", "Unknown command '",
    "No expression at index "]

/-- Nothing is said but that something is wrong. -/
def Complains (said : List String) : Prop :=
  ∃ start ∈ complaintStarts, ∃ detail, said = [start ++ detail]

/-- A command that can change something. -/
inductive Verb where
  | add
  | remove
  | refer
  | save
  | load

/-- The name of the command. -/
def Verb.name : Verb → String
  | add => "add"
  | remove => "remove"
  | refer => "at"
  | save => "save"
  | load => "load"

/-- The commands that end a session. -/
def endings : List String :=
  ["quit", "exit"]

/-- A line is a command that ends the session. -/
def Ends (line : List Char) : Prop :=
  ∃ name ∈ endings, ∃ text, Command.Begins line name text

/-- The commands that only ask for something. -/
def inquiries : List String :=
  ["help", "parse", "next", "show", "upcoming"]

/-- A line is blank, or a command that only asks for something. -/
def Inquires (line : List Char) : Prop :=
  (∀ c ∈ line, Text.isBlank c = true) ∨ ∃ name ∈ inquiries, ∃ text, Command.Begins line name text

variable [ZoneDatabase] {m : Type → Type} [Monad m] {files : FileSystem m} {view : FileView m}
  {now : Stamp} {session session' : Session} {world world' : view.World} {line text : List Char}
  {word : String} {said : List String}

/-- What comes of such a command with a text behind it, and what is said about it. -/
inductive Effect (files : FileSystem m) (view : FileView m) (now : Stamp) (session : Session)
    (world : view.World) : Verb → List Char → Session → view.World → List String → Prop
  /-- The text is an expression; it is appended. -/
  | add {text : List Char} {e : Expression} (reads : Expression.read text = .ok e) :
      Effect files view now session world .add text
        ⟨⟨session.schedule.members ++ [e]⟩, session.reference⟩ world
        [s!"Added [{session.schedule.members.length}] " ++ e.text]
  /-- There is a member at the index; it is taken out. -/
  | remove {text number : List Char} {more : List (List Char)} {front rest : List Expression}
      {e : Expression} (words : Text.words text = number :: more)
      (index : Text.Index number front.length) (split : session.schedule.members = front ++ e :: rest) :
      Effect files view now session world .remove text ⟨⟨front ++ rest⟩, session.reference⟩ world
        [s!"Removed [{front.length}] " ++ e.text]
  /-- The word is a time; it becomes the reference time. -/
  | refer {text time : List Char} {more : List (List Char)} {reference : Reference}
      (words : Text.words text = time :: more) (spelled : Reference.Spelled time reference) :
      Effect files view now session world .refer text ⟨session.schedule, reference.stamp now⟩ world
        ["Reference time set to " ++ (reference.stamp now).rfc3339 ++ "."]
  /-- The contents that stand for the schedule are written along the path. -/
  | save {text : List Char} {format : FileFormat} {path : String} {more : List (List Char)}
      {world' : view.World} (words : Text.words text = format.name.toList :: path.toList :: more)
      (written : view.run (files.write path (format.encode session.schedule)) world = (.ok (), world')) :
      Effect files view now session world .save text session world' [s!"Schedule saved to {path}."]
  /-- What is read along the path stands for a schedule; it becomes the schedule. -/
  | load {text : List Char} {format : FileFormat} {path : String} {more : List (List Char)}
      {contents : Bytes} {loaded : Schedule} {world' : view.World}
      (words : Text.words text = format.name.toList :: path.toList :: more)
      (found : view.run (files.read path) world = (.ok contents, world'))
      (decodes : format.decode contents = .ok loaded) :
      Effect files view now session world .load text ⟨loaded, session.reference⟩ world'
        (s!"Schedule loaded from {path}." :: scheduleLines loaded)

/-- What a line leaves of the files if it has no effect: all that was in them, unless a file was opened to
save the schedule. -/
inductive Leaves (files : FileSystem m) (view : FileView m) (session : Session) (world : view.World)
    (line : List Char) (world' : view.World) : Prop
  | unchanged (unchanged : view.Unchanged world world')
  | spoiled {format : FileFormat} {path : String} {fault : FileFault}
      (asks : Command.Asks line "save" [format.name.toList, path.toList])
      (failed : view.run (files.write path (format.encode session.schedule)) world
        = (.error ⟨.transfer, fault⟩, world'))
      (others : view.UnchangedBut path world world')

/-! ### Running a command -/

theorem run_save {format : FileFormat} {path : String} : view.run (session.save files format path) world =
    (match (view.run (files.write path (format.encode session.schedule)) world).1 with
      | .ok () => (session, [s!"Schedule saved to {path}."])
      | .error failure => (session, ["Save error: " ++ (format.fileError failure).message]),
    (view.run (files.write path (format.encode session.schedule)) world).2) := by
  rw [save, view.run_bind, FileFormat.run_save]
  cases (view.run (files.write path (format.encode session.schedule)) world).1 <;> exact view.run_pure ..

theorem run_load {format : FileFormat} {path : String} : view.run (session.load files format path) world =
    (match (view.run (format.load files path) world).1 with
      | .ok loaded => ({ session with schedule := loaded },
          s!"Schedule loaded from {path}." :: scheduleLines loaded)
      | .error error => (session, ["Load error: " ++ error.message]),
    (view.run (format.load files path) world).2) := by
  rw [load, view.run_bind]
  cases (view.run (format.load files path) world).1 <;> exact view.run_pure ..

/-- A line is a command that has an effect. -/
def Changes (files : FileSystem m) (view : FileView m) (now : Stamp) (session : Session)
    (world : view.World) (line : List Char) (session' : Session) (world' : view.World)
    (said : List String) : Prop :=
  ∃ verb text, Command.Begins line (Verb.name verb) text ∧
    Effect files view now session world verb text session' world' said

end Session

end Recurrence
