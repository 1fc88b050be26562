/-!
# Reading files

Why a file cannot be read, and how that is told.
-/

namespace Attest.Files

/-- Why nothing can be read from a path. -/
inductive Error where
  /-- a directory has no entry of the name -/
  | missing
  /-- a file stands where a directory is needed -/
  | notDirectory
  /-- the path or one of its names is too long -/
  | tooLong
  /-- the user may not read the file -/
  | forbidden
  /-- the path leads to a directory, which can be opened but has no content to read -/
  | directory
  | other (reason : String)
  deriving DecidableEq, Repr

/-- The cause in words, with the number that the system gives it. -/
def Error.message : Error → String
  | missing => "No such file or directory (os error 2)"
  | notDirectory => "Not a directory (os error 20)"
  | tooLong => "File name too long (os error 36)"
  | forbidden => "Permission denied (os error 13)"
  | directory => "Failed to read records: Is a directory (os error 21)"
  | other reason => reason

end Attest.Files
