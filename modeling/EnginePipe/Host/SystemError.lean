/-!
# System errors

What the system reports when a file or a program cannot be used, with its words and its number.
-/

namespace EnginePipe.Host

/-- What the system reports. -/
inductive SystemError where
  | notFound
  | argumentTooLong
  | execFormat
  | permissionDenied
  | notDirectory
  | isDirectory
  | brokenPipe
  | nameTooLong
  | tooManyLinks
deriving DecidableEq, Repr

/-- The system's words for an error. -/
def SystemError.message : SystemError → String
  | notFound => "No such file or directory (os error 2)"
  | argumentTooLong => "Argument list too long (os error 7)"
  | execFormat => "Exec format error (os error 8)"
  | permissionDenied => "Permission denied (os error 13)"
  | notDirectory => "Not a directory (os error 20)"
  | isDirectory => "Is a directory (os error 21)"
  | brokenPipe => "Broken pipe (os error 32)"
  | nameTooLong => "File name too long (os error 36)"
  | tooManyLinks => "Too many levels of symbolic links (os error 40)"

end EnginePipe.Host
