import Recurrence.Instant.Rfc3339
import Recurrence.Storage.File

/-!
# Commands

A line of a session is a command and its arguments.  `Command.read` makes a command of any line;
what it cannot make sense of becomes a command too, and is answered with a hint how to use it.
-/

namespace Recurrence

/-- A point in time, or the present. -/
inductive Reference where
  | now
  | moment (stamp : Stamp)

/-- Reads a reference time. -/
def Reference.read (s : List Char) : Option Reference :=
  if s = ['n', 'o', 'w'] then some now else (Stamp.readRfc3339 s).map moment

/-- The arguments of a command that saves or loads. -/
inductive FileArgument where
  | incomplete
  | unknownFormat (name : String)
  | file (format : FileFormat) (path : String)

/-- Reads the format and the path of a file; further arguments are ignored. -/
def FileArgument.read : List (List Char) → FileArgument
  | format :: path :: _ =>
    match FileFormat.ofName? (String.ofList format) with
    | some known => file known (String.ofList path)
    | none => unknownFormat (String.ofList format)
  | _ => incomplete

/-- What is wanted by a line; an argument that is missing or unreadable is none. -/
inductive Command where
  | blank
  | help
  | quit
  | parse (text : List Char)
  | next (text : List Char)
  | refer (reference : Option Reference)
  | add (text : List Char)
  | remove (index : Option Nat)
  | list
  | upcoming (count : Option Nat)
  | save (argument : FileArgument)
  | load (argument : FileArgument)
  | unknown (name : String)

namespace Command

/-- The number of occurrences that are listed if it is not given. -/
def defaultCount : Nat := 5

/-- Reads a command from its name, the text after the name and the words of that text. -/
def ofName (name : String) (text : List Char) (arguments : List (List Char)) : Command :=
  match name with
  | "help" => help
  | "quit" => quit
  | "exit" => quit
  | "parse" => parse text
  | "next" => next text
  | "at" => refer (arguments.head?.bind Reference.read)
  | "add" => add text
  | "remove" => remove (arguments.head?.bind Text.readIndex)
  | "show" => list
  | "upcoming" =>
    match arguments with
    | [] => upcoming (some defaultCount)
    | count :: _ => upcoming (Text.readIndex count)
  | "save" => save (.read arguments)
  | "load" => load (.read arguments)
  | name => unknown name

/-- Reads a command. -/
def read (line : List Char) : Command :=
  let line := Text.trim line
  match Text.words line with
  | [] => blank
  | name :: arguments =>
    ofName (String.ofList name) (Text.trim (line.drop name.length)) arguments

end Command

end Recurrence
