import Recurrence.Json.Decode
import Recurrence.Json.Encode
import Recurrence.Storage.Error

/-!
# Schedules in files

A file holds a schedule as JSON, or as its canonical text and a line break.
-/

namespace Recurrence

variable [ZoneDatabase]

/-- How a schedule is kept in a file. -/
inductive FileFormat where
  | json
  | text
deriving DecidableEq

namespace FileFormat

/-- The name of a format. -/
def name : FileFormat → String
  | json => "json"
  | text => "text"

/-- The format with a given name. -/
def ofName? (name : String) : Option FileFormat :=
  [json, text].find? fun format => format.name = name

/-- The contents of the file of a schedule. -/
def encode (format : FileFormat) (schedule : Schedule) : Bytes :=
  match format with
  | json => Text.utf8 (Json.snapshotChars schedule)
  | text => Text.utf8 (schedule.chars ++ ['\n'])

/-- The schedule in a file with some contents. -/
def decode (format : FileFormat) (contents : Bytes) : Except StorageError Schedule :=
  match format with
  | json => (Json.decode Json.snapshot.record contents).mapError .json
  | text =>
    match Text.ofUtf8? contents with
    | some lines => (Schedule.parse lines).mapError .parse
    | none => .error (.file .invalidText)

/-- The error for a file that cannot be read or written.  JSON is read and written byte by byte, so what
goes wrong then is an error of the JSON. -/
def fileError (format : FileFormat) (failure : FileFailure) : StorageError :=
  if format = json ∧ failure.stage = .transfer then .jsonFile failure.fault else .file failure.fault

variable {m : Type → Type} [Monad m] (files : FileSystem m)

/-- Writes a schedule to a file. -/
def save (format : FileFormat) (schedule : Schedule) (path : String) :
    m (Except StorageError Unit) := do
  let result ← files.write path (format.encode schedule)
  return result.mapError format.fileError

/-- Reads a schedule from a file. -/
def load (format : FileFormat) (path : String) : m (Except StorageError Schedule) := do
  match ← files.read path with
  | .ok contents => return format.decode contents
  | .error failure => return .error (format.fileError failure)

end FileFormat

end Recurrence
