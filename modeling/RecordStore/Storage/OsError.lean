/-!
# Errors of the operating system

An error of the system has a number and a text, and a message shows both. A name that no file can have
is refused before the system is asked, and its text stands alone.
-/

namespace RecordStore.Storage

/-- Why an operation on files failed. -/
inductive OsError where
  | notFound
  | busy
  | alreadyExists
  | notDirectory
  | isDirectory
  | nameTooLong
  | notEmpty
  | invalidName
  | other (number : Nat) (text : String)
  deriving DecidableEq, Repr

namespace OsError

/-- The number of an error. A name that no file can have is refused before the system is asked, so
that error has none. -/
def number? : OsError → Option Nat
  | notFound => some 2
  | busy => some 16
  | alreadyExists => some 17
  | notDirectory => some 20
  | isDirectory => some 21
  | nameTooLong => some 36
  | notEmpty => some 39
  | invalidName => none
  | other number _ => some number

/-- What an error is called. -/
def text : OsError → String
  | notFound => "No such file or directory"
  | busy => "Device or resource busy"
  | alreadyExists => "File exists"
  | notDirectory => "Not a directory"
  | isDirectory => "Is a directory"
  | nameTooLong => "File name too long"
  | notEmpty => "Directory not empty"
  | invalidName => "file name contained an unexpected NUL byte"
  | other _ text => text

def message (e : OsError) : String :=
  match e.number? with
  | some number => s!"{e.text} (os error {number})"
  | none => e.text

end OsError

end RecordStore.Storage
