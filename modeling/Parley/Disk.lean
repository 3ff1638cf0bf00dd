/-! Files in folders, and how paths lead to them. A path is walked name by name, from the top if it
starts with a slash and from the current folder if not; `.` stays and `..` goes up, and both need a
folder to stand in. -/
namespace Parley

/-- The names that lead to a file or folder from the top. -/
abbrev Place := List String

structure Disk where
  files : List (Place × ByteArray)
  /-- The current folder, which is there even if it is empty. -/
  here : Place
deriving Inhabited

/-- Why a path yields no text. -/
inductive Obstacle
  /-- A path cannot hold the null character. -/
  | nullCharacter
  | nameTooLong
  | missing
  | notFolder
  | isFolder
  /-- The file holds no UTF-8 text. -/
  | notText
deriving DecidableEq

def Obstacle.message : Obstacle → String
  | nullCharacter => "file name contained an unexpected NUL byte"
  | nameTooLong => "File name too long (os error 36)"
  | missing => "No such file or directory (os error 2)"
  | notFolder => "Not a directory (os error 20)"
  | isFolder => "Is a directory (os error 21)"
  | notText => "stream did not contain valid UTF-8"

/-- A way to get the text of a file by its path. -/
abbrev FileReader := String → Except Obstacle String

inductive Found
  | file (content : ByteArray)
  | folder (place : Place)

namespace Disk

/-- The parts of a path between its slashes, empty ones included. -/
def parts (path : String) : List String := (path.toList.splitOn '/').map String.ofList

/-- The names in a path. -/
def names (path : String) : Place := (parts path).filter (· ≠ "")

/-- Files that hold texts, by their paths from the current folder. -/
def ofFiles (files : List (String × String)) (here : Place := ["work"]) : Disk :=
  ⟨files.map fun (path, content) => (here ++ names path, content.toUTF8), here⟩

/-- What stands at a place. Other folders are there for the files in them. -/
def at? (disk : Disk) (place : Place) : Option Found :=
  match disk.files.find? fun (p, _) => p = place with
  | some (_, content) => some (.file content)
  | none =>
    if place.isPrefixOf disk.here ∨ disk.files.any fun (p, _) => place.isPrefixOf p then
      some (.folder place)
    else none

/-- The most bytes that a single name has. -/
def nameLimit : Nat := 255

/-- The most bytes that a whole path has. -/
def pathLimit : Nat := 4095

/-- Walk on along names. The length of a name is noticed where a folder is asked for it. -/
def walk (disk : Disk) (found : Found) : List String → Except Obstacle Found
  | [] => .ok found
  | name :: rest =>
    match found with
    | .file _ => .error .notFolder
    | .folder place =>
      if name = "." ∨ name = "" then disk.walk found rest
      else if name = ".." then disk.walk (.folder place.dropLast) rest
      else if nameLimit < name.utf8ByteSize then .error .nameTooLong
      else match disk.at? (place ++ [name]) with
        | none => .error .missing
        | some next => disk.walk next rest

/-- What a path leads to. -/
def find (disk : Disk) (path : String) : Except Obstacle Found :=
  if path.toList.contains '\x00' then .error .nullCharacter
  else if pathLimit < path.utf8ByteSize then .error .nameTooLong
  else if path = "" then .error .missing
  else disk.walk (.folder (if path.startsWith "/" then [] else disk.here)) (parts path)

/-- The text that a file holds. -/
def decode (content : ByteArray) : Except Obstacle String :=
  match String.fromUTF8? content with
  | some text => .ok text
  | none => .error .notText

/-- The text of a file. -/
def reader (disk : Disk) : FileReader := fun path =>
  match disk.find path with
  | .ok (.file content) => decode content
  | .ok (.folder _) => .error .isFolder
  | .error obstacle => .error obstacle

/-- The files anywhere below a folder, each by the names that lead to it from there. -/
def below (disk : Disk) (folder : Place) : List Place :=
  disk.files.filterMap fun (place, _) =>
    if folder.isPrefixOf place ∧ place ≠ folder then some (place.drop folder.length) else none

end Disk
end Parley
