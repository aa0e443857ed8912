/-!
# Refusals of a file system
-/

namespace SchemaForge

/-- Why a file system refuses a call. -/
inductive OsError
  | notPermitted
  | notFound
  | accessDenied
  | alreadyThere
  | notDirectory
  | isDirectory
  | nameTooLong
  | tooManyLinks
  | nulInPath
  | other (reason : String)
  deriving DecidableEq, Repr

/-- The words for a refusal. -/
def OsError.message : OsError → String
  | notPermitted => "Operation not permitted (os error 1)"
  | notFound => "No such file or directory (os error 2)"
  | accessDenied => "Permission denied (os error 13)"
  | alreadyThere => "File exists (os error 17)"
  | notDirectory => "Not a directory (os error 20)"
  | isDirectory => "Is a directory (os error 21)"
  | nameTooLong => "File name too long (os error 36)"
  | tooManyLinks => "Too many levels of symbolic links (os error 40)"
  | nulInPath => "file name contained an unexpected NUL byte"
  | other reason => reason

/-- Is a permission missing? -/
def OsError.isDenial : OsError → Bool
  | notPermitted | accessDenied => true
  | _ => false

end SchemaForge
