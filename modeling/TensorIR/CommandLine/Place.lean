import TensorIR.CommandLine.Compile
import TensorIR.CommandLine.Path

/-!
# Places

A path leads to a place: to a file of the directory that the command runs in, to a device, to a
directory, or to where there is nothing. Of what lies outside that directory only so much is known
as every system has: the usual directories, and the devices that are no files on a disk, among them
the streams that the command itself was given. It is given no input.
-/

set_option autoImplicit false

namespace TensorIR.CommandLine

/-- The devices. One whose reading would not come to an end is taken to be empty. -/
inductive Device where
  /-- Empty, and takes everything. -/
  | null
  /-- Takes nothing. -/
  | full
  /-- The terminal that runs the command. There is none. -/
  | terminal
  /-- The standard input, which is empty. -/
  | input
  /-- One of the streams that the command writes on. -/
  | own (stream : Stream)
deriving DecidableEq, Repr

namespace Device

/-- What is read from the device. -/
def read : Device → Except FileError String
  | .terminal => .error .noDevice
  | _ => .ok ""

/-- Where a text appears that is written on the device. A text without characters is not written
at all, so it fits everywhere. -/
def write (text : String) : Device → Except FileError (Option Stream)
  | .terminal => .error .noDevice
  | .full => if text = "" then .ok none else .error .noSpace
  | .own stream => .ok (some stream)
  | .null | .input => .ok none

end Device

/-- The places that a path can lead to. -/
inductive Place where
  /-- The directory that the command runs in. -/
  | here
  /-- A directory above it. -/
  | above
  /-- A directory outside, by the names that lead to it from the root. -/
  | outside (names : List String)
  | device (device : Device)
  /-- A file of the directory, with what it holds. -/
  | file (name text : String)
  /-- A place where there is nothing yet, with its name if it is in the directory. -/
  | vacant (name : Option String)
  /-- A place where there is nothing and nothing can be. -/
  | nowhere
deriving DecidableEq, Repr

namespace Place

/-- The root of all directories. -/
def root : Place := .outside []

/-- The directories that every system has. -/
def usualDirectories : List (List String) :=
  [["bin"], ["boot"], ["dev"], ["etc"], ["home"], ["lib"], ["media"], ["mnt"], ["opt"], ["proc"],
    ["root"], ["run"], ["sbin"], ["srv"], ["sys"], ["tmp"], ["usr"], ["var"], ["dev", "pts"],
    ["dev", "shm"], ["proc", "self"], ["proc", "self", "fd"], ["usr", "bin"], ["usr", "lib"],
    ["usr", "local"], ["usr", "sbin"], ["usr", "share"], ["var", "log"], ["var", "tmp"]]

/-- What is known outside of the directory, by the names that lead to it from the root. -/
def landmarks : List (List String × Place) :=
  usualDirectories.map (fun names => (names, .outside names)) ++
  [(["dev", "null"], .device .null), (["dev", "full"], .device .full),
    (["dev", "tty"], .device .terminal), (["dev", "fd"], .outside ["proc", "self", "fd"]),
    (["dev", "stdin"], .device .input), (["dev", "stdout"], .device (.own .output)),
    (["dev", "stderr"], .device (.own .error)), (["proc", "self", "fd", "0"], .device .input),
    (["proc", "self", "fd", "1"], .device (.own .output)),
    (["proc", "self", "fd", "2"], .device (.own .error)), (["proc", "self", "cwd"], .here),
    (["proc", "self", "root"], root)]

/-- The place that names lead to from the root, the last of them in a known directory. What the
system tells of its processes makes no room for files. -/
def ofNames (names : List String) : Place :=
  match landmarks.lookup names with
  | some place => place
  | none => if names.head? = some "proc" then .nowhere else .vacant none

/-- The directory that holds a directory. The root is its own. -/
def parent : Place → Place
  | .here | .above => .above
  | .outside names => .outside names.dropLast
  | _ => .nowhere

end Place

end TensorIR.CommandLine
