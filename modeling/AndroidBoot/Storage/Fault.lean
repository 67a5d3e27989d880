/-!
# Faults of storage

What can go wrong with a file or a stream, by cause.
-/

namespace AndroidBoot

inductive Fault where
  | notFound
  | alreadyExists
  | isADirectory
  | notADirectory
  | invalidData
  | invalidInput
  | nameTooLong
  | unexpectedEof
  | writeZero
  /-- Any other, as the store describes it. -/
  | other (reason : String)
deriving DecidableEq, Repr

def Fault.message : Fault → String
  | notFound => "not found"
  | alreadyExists => "already exists"
  | isADirectory => "is a directory"
  | notADirectory => "is not a directory"
  | invalidData => "is not well-formed text"
  | invalidInput => "invalid input"
  | nameTooLong => "the name is too long"
  | unexpectedEof => "unexpected end"
  | writeZero => "no room left"
  | other reason => reason

end AndroidBoot
