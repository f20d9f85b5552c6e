/-!
Why a file cannot be read.
-/
namespace Fleet

inductive ReadError where
  | missing
  /-- A part of the path that others follow is a file. -/
  | notDirectory
  | isDirectory
  | nameTooLong
  | notText
  /-- Anything else that the operating system has a number for. -/
  | other (reason : String) (code : Nat)
  deriving DecidableEq

namespace ReadError

def withCode (reason : String) (code : Nat) : String :=
  reason ++ " (os error " ++ toString code ++ ")"

def message : ReadError → String
  | missing => withCode "No such file or directory" 2
  | notDirectory => withCode "Not a directory" 20
  | isDirectory => withCode "Is a directory" 21
  | nameTooLong => withCode "File name too long" 36
  | notText => "stream did not contain valid UTF-8"
  | other reason code => withCode reason code

/-- The error with a number; `reason` is only needed for those that have no name here. -/
def ofCode (reason : String) : Nat → ReadError
  | 2 => missing
  | 20 => notDirectory
  | 21 => isDirectory
  | 36 => nameTooLong
  | code => other reason code

end ReadError

end Fleet
