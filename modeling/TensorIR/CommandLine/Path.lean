import TensorIR.Shape.Written

/-!
# Paths

A path is read as a walk: one step for each of its components, taken from the root of the file
system if the path starts with a slash. A slash at the end asks for a directory, which is one more
step, to the place where the walk has led; a file that is about to be written gets no such second
look, so there the slash takes the place of the last step.
-/

set_option autoImplicit false

namespace TensorIR.CommandLine

/-- Why a file could not be read or written. -/
inductive FileError where
  | notFound
  | noDevice
  | accessDenied
  | notDirectory
  | isDirectory
  | noSpace
  | nameTooLong
deriving DecidableEq, Repr

namespace FileError

/-- The number of the reason. -/
def code : FileError → Nat
  | .notFound => 2
  | .noDevice => 6
  | .accessDenied => 13
  | .notDirectory => 20
  | .isDirectory => 21
  | .noSpace => 28
  | .nameTooLong => 36

/-- The reason in words. -/
def words : FileError → String
  | .notFound => "No such file or directory"
  | .noDevice => "No such device or address"
  | .accessDenied => "Permission denied"
  | .notDirectory => "Not a directory"
  | .isDirectory => "Is a directory"
  | .noSpace => "No space left on device"
  | .nameTooLong => "File name too long"

/-- The reason as the operating system words it. -/
def message (err : FileError) : String := s!"{err.words} (os error {err.code})"

/-- The reason of a number. -/
def ofCode? (n : Nat) : Option FileError :=
  [notFound, noDevice, accessDenied, notDirectory, isDirectory, noSpace, nameTooLong].find?
    (·.code = n)

end FileError

/-- A step from one place to the next. -/
inductive Step where
  /-- No step at all, though only a directory allows it. -/
  | stay
  /-- To the directory that holds this one. -/
  | up
  /-- To the entry of that name. -/
  | down (name : String)
deriving DecidableEq, Repr

/-- The step of a component. An empty component, between two slashes, is none. -/
def Step.ofComponent? (component : String) : Option Step :=
  match component with
  | "" => none
  | "." => some .stay
  | ".." => some .up
  | name => some (.down name)

/-- A path: where it starts, the steps that it takes, and whether it ends in a slash. -/
structure Path where
  fromRoot : Bool
  steps : List Step
  endsInSlash : Bool
deriving DecidableEq, Repr

namespace Path

/-- The bytes that a path may not reach. -/
def maxBytes : Nat := 4096

/-- The bytes that a name may have. -/
def maxNameBytes : Nat := 255

/-- The path that a text spells. An empty text leads nowhere. -/
def read (text : String) : Except FileError Path :=
  if text = "" then .error .notFound
  else if maxBytes ≤ text.utf8ByteSize then .error .nameTooLong
  else
    let chars := text.toList
    let components := (Shape.splitAt '/' chars).map String.ofList
    .ok ⟨chars.head? = some '/', components.filterMap Step.ofComponent?,
      chars.getLast? = some '/'⟩

/-- The steps to a file that is to be read. -/
def stepsToRead (p : Path) : List Step := if p.endsInSlash then p.steps ++ [.stay] else p.steps

/-- The steps to a file that is to be written. -/
def stepsToWrite (p : Path) : List Step :=
  if p.endsInSlash then p.steps.dropLast ++ [.stay] else p.steps

end Path

end TensorIR.CommandLine
