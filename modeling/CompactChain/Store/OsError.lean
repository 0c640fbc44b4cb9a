set_option autoImplicit false

namespace CompactChain.Store

inductive OsError where
  | noSuchFile
  | alreadyExists
  | notADirectory
  | isADirectory
  | fileTooLarge
  | nameTooLong
  | nulInName
  | notARegularFile
  deriving DecidableEq

namespace OsError

-- None for a request that is refused before it reaches the system.
def number? : OsError → Option Nat
  | .noSuchFile => some 2
  | .alreadyExists => some 17
  | .notADirectory => some 20
  | .isADirectory => some 21
  | .fileTooLarge => some 27
  | .nameTooLong => some 36
  | .nulInName => none
  | .notARegularFile => none

def text : OsError → String
  | .noSuchFile => "No such file or directory"
  | .alreadyExists => "File exists"
  | .notADirectory => "Not a directory"
  | .isADirectory => "Is a directory"
  | .fileTooLarge => "File too large"
  | .nameTooLong => "File name too long"
  | .nulInName => "file name contained an unexpected NUL byte"
  | .notARegularFile => "the source path is neither a regular file nor a symlink to a regular file"

def message (error : OsError) : String :=
  match error.number? with
  | none => error.text
  | some number => error.text ++ " (os error " ++ toString number ++ ")"

end OsError

end CompactChain.Store
