/-!
# Failures of the file system

Why a path could not be read, written or listed.  Most failures are those of the
operating system and carry its number; two are found before or after it is asked: a
name that no path can have, and bytes that are not text.
-/

namespace PostRun
namespace Files

/-- Why a file system operation failed. -/
inductive IoError where
  | notFound
  | notADirectory
  | isADirectory
  | nameTooLong
  | permissionDenied
  | system (code : Nat) (description : String)
  | nulInName
  | invalidUtf8
  deriving DecidableEq

namespace IoError

/-- The number that the operating system has for a failure. -/
def code? : IoError → Option Nat
  | notFound => some 2
  | notADirectory => some 20
  | isADirectory => some 21
  | nameTooLong => some 36
  | permissionDenied => some 13
  | system code _ => some code
  | nulInName | invalidUtf8 => none

/-- The failure that has a number. -/
def ofCode (code : Nat) (description : String) : IoError :=
  ([notFound, notADirectory, isADirectory, nameTooLong, permissionDenied].find? fun e =>
    e.code? = some code).getD (system code description)

/-- The class of a failure. -/
def kind : IoError → String
  | notFound => "NotFound"
  | notADirectory => "NotADirectory"
  | isADirectory => "IsADirectory"
  | nameTooLong => "InvalidFilename"
  | permissionDenied => "PermissionDenied"
  | system _ _ => "Uncategorized"
  | nulInName => "InvalidInput"
  | invalidUtf8 => "InvalidData"

/-- The description of a failure. -/
def description : IoError → String
  | notFound => "No such file or directory"
  | notADirectory => "Not a directory"
  | isADirectory => "Is a directory"
  | nameTooLong => "File name too long"
  | permissionDenied => "Permission denied"
  | system _ description => description
  | nulInName => "file name contained an unexpected NUL byte"
  | invalidUtf8 => "stream did not contain valid UTF-8"

/-- The wording of a failure. -/
def message (e : IoError) : String :=
  match e.code? with
  | some code => e.description ++ " (os error " ++ toString code ++ ")"
  | none => e.description

end IoError
end Files
end PostRun
