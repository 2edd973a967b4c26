import Recurrence.Session.Basic
import Recurrence.Zone.Standard
import Std.Time.DateTime.Timestamp

/-!
# The program

Holds a session on standard input and output, with the files of the machine.
-/

namespace Recurrence.Program

/-- The fault behind an error of the machine; which one is meant is told by its number, if need be. -/
def faultOf (error : IO.Error) : FileFault :=
  match error with
  | .noFileOrDirectory .. => .notFound
  | .noSuchThing .. => .notFound
  | .permissionDenied .. => .permissionDenied
  | .inappropriateType _ code _ => if code = 21 then .isDirectory else .notDirectory
  | .invalidArgument _ code _ => if code = 22 then .zeroInPath else .nameTooLong
  | .resourceExhausted _ code _ => if code = 28 then .noSpace else .other (toString error)
  | _ => .other (toString error)

/-- Does something with a file that is opened first. -/
def withFile {α : Type} (path : String) (mode : IO.FS.Mode) (use : IO.FS.Handle → IO α) :
    IO (Except FileFailure α) := do
  match ← EIO.toBaseIO (IO.FS.Handle.mk path mode) with
  | .error error => return .error ⟨.opening, faultOf error⟩
  | .ok handle =>
    let result ← EIO.toBaseIO (use handle)
    return result.mapError fun error => ⟨.transfer, faultOf error⟩

/-- The files of the machine. -/
def machineFiles : FileSystem IO where
  read path := withFile path .read fun handle => do
    let contents ← handle.readBinToEnd
    return contents.toList
  write path contents := withFile path .write fun handle => do
    handle.write ⟨contents.toArray⟩
    handle.flush

/-- The present. -/
def present : IO Stamp := do
  let now ← Std.Time.Timestamp.now
  return ⟨⟨now.toSecondsSinceUnixEpoch.val, now.val.nano.val.toNat⟩, 0⟩

/-- Answers lines until one ends the session. -/
partial def converse (session : Session) : IO Unit := do
  let stdin ← IO.getStdin
  let stdout ← IO.getStdout
  stdout.putStr Session.prompt
  stdout.flush
  let line ← try stdin.getLine catch _ => pure ""
  if line.isEmpty then return
  match ← session.answer machineFiles (← present) line.toList with
  | none => return
  | some (session, lines) =>
    for line in lines do
      stdout.putStrLn line
    converse session

end Recurrence.Program

/-- Holds a session. -/
def main : IO Unit := do
  IO.println (Recurrence.Session.greeting ++ "\n")
  Recurrence.Program.converse (.start (← Recurrence.Program.present))
