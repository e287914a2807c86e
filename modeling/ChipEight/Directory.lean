import ChipEight.Text.Quoted

/-! # Reading files

A directory that holds files and nothing else, in a file system of which little more is known than
the directories that every system has. A path is walked name by name from the directory or from the
top.
-/

namespace ChipEight

/-- Why a file cannot be read. -/
inductive OpenError
  | notFound
  | denied
  | notDirectory
  | isDirectory
  | nameTooLong
  /-- The name holds a NUL character, which no file's name does. -/
  | embeddedNul
  /-- Any other answer of the operating system, with its number and its text. -/
  | other (number : Nat) (text : String)
deriving DecidableEq, Repr

namespace OpenError

/-- The number and the text of the operating system. -/
def system : OpenError → Nat × String
  | .notFound => (2, "No such file or directory")
  | .denied => (13, "Permission denied")
  | .notDirectory => (20, "Not a directory")
  | .isDirectory => (21, "Is a directory")
  | .nameTooLong => (36, "File name too long")
  | .embeddedNul => (22, "Invalid argument")
  | .other number text => (number, text)

def message (e : OpenError) (path : String) : String :=
  "[Errno " ++ toString e.system.1 ++ "] " ++ e.system.2 ++ ": " ++ Text.quoted path

end OpenError

structure Directory where
  files : List (String × List UInt8)

namespace Directory

/-- The longest name and the longest path, in bytes. -/
def maxName : Nat := 255
def maxPath : Nat := 4095

/-- Where a walk has come to: the directory itself, or the one that the names from the top lead to,
innermost first. -/
inductive Place
  | here
  | under (names : List String)
deriving DecidableEq

/-- The directory above: the one of temporary things for the directory itself, and the top for the
top. -/
def Place.parent : Place → Place
  | .here => .under ["tmp"]
  | .under names => .under names.tail

/-- The directories that every system has, innermost name first. -/
def common : List (List String) :=
  ["boot", "dev", "etc", "home", "media", "mnt", "opt", "proc", "root", "run", "srv", "sys", "tmp",
    "usr", "var"].map ([·]) ++
  ["bin", "include", "lib", "lib64", "local", "sbin", "share", "src"].map ([·, "usr"]) ++
  ["bin", "lib", "share"].map ([·, "local", "usr"]) ++
  ["cache", "lib", "log", "tmp"].map ([·, "var"])

/-- Directories of programs, which the top shows too. -/
def programs : List String := ["bin", "lib", "lib64", "sbin"]

inductive Entry
  | file (content : List UInt8)
  | directory (place : Place)

/-- What a name stands for. The null device reads as an empty file. -/
def entry? (d : Directory) : Place → String → Option Entry
  | .here, name => (d.files.lookup name).map .file
  | .under names, name =>
    if name :: names = ["null", "dev"] then some (.file [])
    else if name :: names ∈ common then some (.directory (.under (name :: names)))
    else if names = [] ∧ name ∈ programs then some (.directory (.under [name, "usr"]))
    else none

/-- Walks along the names. -/
def walk (d : Directory) (place : Place) : List String → Except OpenError (List UInt8)
  | [] => .error .isDirectory
  | name :: rest =>
    if name = "" ∨ name = "." then d.walk place rest
    else if name = ".." then d.walk place.parent rest
    else if maxName < name.utf8ByteSize then .error .nameTooLong
    else
      match d.entry? place name with
      | none => .error .notFound
      | some (.directory place) => d.walk place rest
      | some (.file content) => if rest = [] then .ok content else .error .notDirectory

def read (d : Directory) (path : String) : Except OpenError (List UInt8) :=
  let place := if path.toList.head? = some '/' then .under [] else .here
  if path.toList.contains '\x00' then .error .embeddedNul
  else if maxPath < path.utf8ByteSize then .error .nameTooLong
  else if path = "" then .error .notFound
  else d.walk place ((path.toList.splitOn '/').map String.ofList)

end Directory

end ChipEight
