import Recurrence.Session.Command
import Recurrence.Storage.FileTree

/-!
# Sessions

A `Session` has a schedule and a reference time, and reads and writes files.  It answers each
command with some lines (`Session.perform`) and goes on until it is told to quit or there are no
more lines.  A command that fails changes nothing, but for a file that it has opened to write to.
-/

namespace Recurrence

variable [ZoneDatabase]

/-- What is kept from one command to the next. -/
structure Session where
  schedule : Schedule
  reference : Stamp

namespace Session

/-- The session before the first command. -/
def start (now : Stamp) : Session :=
  ⟨.empty, now⟩

/-! ### What is said -/

/-- The line at the start of a session. -/
def greeting : String := "Calendar Events (CLI) - type 'help' for commands"

/-- What is shown while a command is awaited. -/
def prompt : String := "> "

/-- The list of the commands. -/
def helpLines : List String := [
  "Commands:",
  "  help                               Show this help",
  "  parse <expr...>                    Show the canonical form of an expression",
  "  next <expr...>                     Next occurrence of an expression after the reference time",
  "  at <rfc3339|now>                   Set the reference time (default: now)",
  "  add <expr...>                      Append an expression to the schedule",
  "  remove <index>                     Remove the expression at index",
  "  show                               List the schedule",
  "  upcoming [n]                       Next n occurrences of the schedule (default 5)",
  "  save <json|text> <path>            Persist the schedule to disk",
  "  load <json|text> <path>            Load a schedule from disk",
  "  quit|exit                          Exit"]

/-- The members with their indexes, the first of which is given. -/
def memberLines (index : Nat) : List Expression → List String
  | [] => []
  | e :: rest => (s!"  [{index}] " ++ e.text) :: memberLines (index + 1) rest

/-- The lines that show a schedule. -/
def scheduleLines (schedule : Schedule) : List String :=
  match schedule.members with
  | [] => ["Schedule is empty."]
  | members => memberLines 0 members

/-- The line for a text that is no expression. -/
def errorLine (cause : ParseError) : String :=
  "Error: " ++ cause.message

/-- The line for a format that is not known. -/
def unknownFormatLine (name : String) : String :=
  s!"Unknown format '{name}' (expected json or text)"

/-! ### What is done -/

/-- Answers a request for the next occurrence. -/
def nextLine (session : Session) (e : Expression) : String :=
  match e.next session.reference.instant with
  | some stamp => stamp.rfc3339
  | none => "No next occurrence."

/-- Answers a request for the next occurrences of the schedule. -/
def upcomingLines (session : Session) (count : Nat) : List String :=
  match session.schedule.occurrences session.reference.instant count with
  | [] => ["No upcoming occurrence."]
  | stamps => stamps.map Stamp.rfc3339

/-- Sets the reference time. -/
def refer (session : Session) (stamp : Stamp) : Session × List String :=
  ({ session with reference := stamp }, ["Reference time set to " ++ stamp.rfc3339 ++ "."])

/-- Adds a member to the schedule. -/
def add (session : Session) (e : Expression) : Session × List String :=
  ({ session with schedule := session.schedule.push e },
    [s!"Added [{session.schedule.size}] " ++ e.text])

/-- Removes a member of the schedule. -/
def remove (session : Session) (index : Nat) : Session × List String :=
  match session.schedule.remove? index with
  | some (e, schedule) => ({ session with schedule }, [s!"Removed [{index}] " ++ e.text])
  | none => (session, [s!"No expression at index {index}."])

variable {m : Type → Type} [Monad m] (files : FileSystem m)

/-- Saves the schedule. -/
def save (session : Session) (format : FileFormat) (path : String) :
    m (Session × List String) := do
  match ← format.save files session.schedule path with
  | .ok () => return (session, [s!"Schedule saved to {path}."])
  | .error error => return (session, ["Save error: " ++ error.message])

/-- Loads the schedule. -/
def load (session : Session) (format : FileFormat) (path : String) :
    m (Session × List String) := do
  match ← format.load files path with
  | .ok schedule =>
    return ({ session with schedule },
      s!"Schedule loaded from {path}." :: scheduleLines schedule)
  | .error error => return (session, ["Load error: " ++ error.message])

/-- Carries out a command and gives the lines of the answer. -/
def perform (now : Stamp) (session : Session) (command : Command) :
    m (Session × List String) :=
  match command with
  | .blank => return (session, [])
  | .quit => return (session, [])
  | .help => return (session, helpLines)
  | .parse text =>
    match Expression.read text with
    | .ok e => return (session, [e.text])
    | .error cause => return (session, [errorLine cause])
  | .next text =>
    match Expression.read text with
    | .ok e => return (session, [session.nextLine e])
    | .error cause => return (session, [errorLine cause])
  | .refer (some (.moment stamp)) => return session.refer stamp
  | .refer (some .now) => return session.refer now
  | .refer none => return (session, ["Usage: at <rfc3339|now>"])
  | .add text =>
    match Expression.read text with
    | .ok e => return session.add e
    | .error cause => return (session, [errorLine cause])
  | .remove (some index) => return session.remove index
  | .remove none => return (session, ["Usage: remove <index>"])
  | .list => return (session, scheduleLines session.schedule)
  | .upcoming (some count) => return (session, session.upcomingLines count)
  | .upcoming none => return (session, ["Usage: upcoming [n]"])
  | .save (.file format path) => session.save files format path
  | .save (.unknownFormat name) => return (session, [unknownFormatLine name])
  | .save .incomplete => return (session, ["Usage: save <json|text> <path>"])
  | .load (.file format path) => session.load files format path
  | .load (.unknownFormat name) => return (session, [unknownFormatLine name])
  | .load .incomplete => return (session, ["Usage: load <json|text> <path>"])
  | .unknown name => return (session, [s!"Unknown command '{name}'. Type 'help'."])

/-- Answers a line; none if it ends the session. -/
def answer (now : Stamp) (session : Session) (line : List Char) :
    m (Option (Session × List String)) :=
  match Command.read line with
  | .quit => return none
  | command => do
    let answered ← session.perform files now command
    return some answered

/-- Answers lines, each at its time, until one ends the session, and gives what is shown and what is kept
at the end. -/
def converse (session : Session) : List (Stamp × List Char) → m (Session × String)
  | [] => return (session, prompt)
  | (now, line) :: rest => do
    match ← session.answer files now line with
    | none => return (session, prompt)
    | some (session, lines) =>
      let (session, more) ← converse session rest
      return (session, prompt ++ String.join (lines.map (· ++ "\n")) ++ more)

/-- The lines of an input; what follows the last line break is one if it is not empty. -/
def inputLines (input : String) : List (List Char) :=
  let lines := input.toList.splitOn '\n'
  if lines.getLast? = some [] then lines.dropLast else lines

end Session

/-- A session on some lines, all at one time, in a tree of files: what is shown and kept, and the files at
the end. -/
def Session.hold (now : Stamp) (tree : FileTree) (input : String) : (Session × String) × FileTree :=
  let lines := (Session.inputLines input).map fun line => (now, line)
  let conversation : StateM FileTree (Session × String) :=
    (Session.start now).converse FileTree.fileSystem lines
  conversation.run tree

/-- Everything that is shown in a session that starts without files. -/
def Session.transcript (now : Stamp) (input : String) : String :=
  Session.greeting ++ "\n\n" ++ (Session.hold now .empty input).1.2

end Recurrence
