import Recurrence.Text.Utf8

/-!
# Files

A `FileSystem` reads and writes whole files along paths.  Either can go wrong before the file is open, and
then nothing was done to it, or while the bytes are transferred: a file that is opened for writing is
emptied first, so a write that fails later leaves the bytes that it had come to.
-/

namespace Recurrence

/-- Why a file cannot be read or written. -/
inductive FileFault where
  | notFound
  | isDirectory
  | notDirectory
  | nameTooLong
  | zeroInPath
  | permissionDenied
  | noSpace
  | invalidText
  /-- Anything else, by the text that is shown. -/
  | other (message : String)
deriving DecidableEq

/-- The text shown to a user. -/
def FileFault.message : FileFault → String
  | notFound => "No such file or directory (os error 2)"
  | isDirectory => "Is a directory (os error 21)"
  | notDirectory => "Not a directory (os error 20)"
  | nameTooLong => "File name too long (os error 36)"
  | zeroInPath => "file name contained an unexpected NUL byte"
  | permissionDenied => "Permission denied (os error 13)"
  | noSpace => "No space left on device (os error 28)"
  | invalidText => "stream did not contain valid UTF-8"
  | other message => message

/-- How far it had come with a file when something went wrong. -/
inductive FileStage where
  /-- The file was not open yet. -/
  | opening
  /-- The file was open, and emptied if it was to be written. -/
  | transfer
deriving DecidableEq

/-- What went wrong with a file, and when. -/
structure FileFailure where
  stage : FileStage
  fault : FileFault
deriving DecidableEq

/-- A place where files can be read and written. -/
structure FileSystem (m : Type → Type) where
  read : String → m (Except FileFailure Bytes)
  write : String → Bytes → m (Except FileFailure Unit)

end Recurrence
