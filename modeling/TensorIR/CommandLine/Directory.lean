import TensorIR.CommandLine.Place

/-!
# Running the command in a directory

A directory without subdirectories is enough to see everything the command does with files. A path
is walked from it place by place. A text may be stored outside as well, but then nothing of it
shows in the directory.
-/

set_option autoImplicit false

namespace TensorIR.CommandLine

/-- The files of a directory without subdirectories. -/
structure Directory where
  files : List (String × String)
deriving DecidableEq, Repr

namespace Directory

/-- The content of a file of the directory. -/
def content? (d : Directory) (name : String) : Option String := d.files.lookup name

/-- The place of a name in a directory. -/
def entry (d : Directory) (place : Place) (name : String) : Place :=
  match place with
  | .here =>
    match d.content? name with
    | some text => .file name text
    | none => .vacant (some name)
  | .above => .vacant none
  | .outside names => .ofNames (names ++ [name])
  | _ => .nowhere

/-- The place that a step leads to. Only from a directory is there a step. -/
def advance (d : Directory) (place : Place) (step : Step) : Except FileError Place :=
  match place with
  | .vacant _ | .nowhere => .error .notFound
  | .file _ _ | .device _ => .error .notDirectory
  | .here | .above | .outside _ =>
    match step with
    | .stay => .ok place
    | .up => .ok place.parent
    | .down name =>
      if Path.maxNameBytes < name.utf8ByteSize then .error .nameTooLong
      else .ok (d.entry place name)

/-- The place at the end of a walk. The first step that fails decides why a walk does. -/
def walk (d : Directory) : Place → List Step → Except FileError Place
  | place, [] => .ok place
  | place, step :: steps =>
    match d.advance place step with
    | .error err => .error err
    | .ok next => d.walk next steps

/-- The place that a path leads to by the steps chosen from it. -/
def locate (d : Directory) (path : String) (steps : Path → List Step) : Except FileError Place :=
  match Path.read path with
  | .error err => .error err
  | .ok p => d.walk (if p.fromRoot then .root else .here) (steps p)

/-- The content of the file at a path. -/
def read (d : Directory) (path : String) : Except FileError String :=
  match d.locate path Path.stepsToRead with
  | .error err => .error err
  | .ok (.file _ text) => .ok text
  | .ok (.device device) => device.read
  | .ok (.vacant _) | .ok .nowhere => .error .notFound
  | .ok .here | .ok .above | .ok (.outside _) => .error .isDirectory

/-- The directory with a text in the file of a name. -/
def write (d : Directory) (name text : String) : Directory :=
  ⟨(name, text) :: d.files.filter fun f => f.1 ≠ name⟩

/-- The directory with a text stored in the file at a path, and the stream on which the text
appears if that file is one. -/
def store (d : Directory) (path text : String) : Except FileError (Directory × Option Stream) :=
  match d.locate path Path.stepsToWrite with
  | .error err => .error err
  | .ok (.file name _) | .ok (.vacant (some name)) => .ok (d.write name text, none)
  | .ok (.vacant none) => .ok (d, none)
  | .ok (.device device) => (device.write text).map fun stream => (d, stream)
  | .ok .nowhere => .error .notFound
  | .ok .here | .ok .above | .ok (.outside _) => .error .isDirectory

/-- The directory as a file system, which a text that is stored changes. -/
def storage : FileSystem (StateM Directory) where
  read path := fun d => ((d.read path).mapError FileError.message, d)
  store path text := fun d =>
    match d.store path text with
    | .ok (next, stream) => (.ok stream, next)
    | .error err => (.error err.message, d)

/-- What a request comes to in a directory, and the directory afterwards. -/
def carryOut (d : Directory) (request : Request) : Outcome × Directory :=
  (perform storage request).run d

/-- The directory as a file system that only tells what would come of it. -/
def fileSystem (d : Directory) : FileSystem Id where
  read path := (storage.read path d).1
  store path text := (storage.store path text d).1

/-- The directory after a request. -/
def after (d : Directory) (request : Request) : Directory := (d.carryOut request).2

end Directory

end TensorIR.CommandLine
