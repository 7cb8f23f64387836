import ClassAtlas.Disk.Path
import ClassAtlas.Fault
import ClassAtlas.Loader

/-! A file system as a finite value: which files it holds, and how paths lead to them. -/

namespace ClassAtlas

/-- Files and directories by their places, which are the components of the way from the root.
Every part of the way to a file or a directory is a directory too. -/
structure Disk where
  files : List (List String × ByteArray)
  directories : List (List String)
  workingDirectory : List String

namespace Disk

abbrev Place := List String

def bytesAt? (disk : Disk) (place : Place) : Option ByteArray := disk.files.lookup place

def isDirectory (disk : Disk) (place : Place) : Bool :=
  place.isPrefixOf disk.workingDirectory ||
    disk.directories.any place.isPrefixOf ||
    disk.files.any fun (other, _) => place.isPrefixOf other && other != place

/-- Follows the components of a path from a place. Only a directory leads on. -/
def walk (disk : Disk) : Place → List String → Except Fault Place
  | place, [] => .ok place
  | place, part :: rest =>
    if !disk.isDirectory place then
      .error (if (disk.bytesAt? place).isSome then .notDirectory else .noSuchFile)
    else if part.isEmpty || part == "." then walk disk place rest
    else if part == ".." then walk disk place.dropLast rest
    else walk disk (place ++ [part]) rest

def origin (disk : Disk) (path : String) : Place :=
  if isAbsolute path then [] else disk.workingDirectory

/-- The place that a path leads to; an empty path leads nowhere. -/
def place (disk : Disk) (path : String) : Except Fault Place :=
  if path.isEmpty then .error .noSuchFile
  else disk.walk (disk.origin path) (Text.splitAt '/' path)

def readBytes (disk : Disk) (path : String) : Except Fault ByteArray := do
  let place ← disk.place path
  match disk.bytesAt? place with
  | some bytes => return bytes
  | none => throw (if disk.isDirectory place then .isDirectory else .noSuchFile)

/-- Every line end as a single newline. -/
def plainLineEnds : List Char → List Char
  | [] => []
  | '\r' :: '\n' :: rest => '\n' :: plainLineEnds rest
  | c :: rest => (if c == '\r' then '\n' else c) :: plainLineEnds rest

/-- The text that bytes encode in UTF-8. -/
def decode? (bytes : ByteArray) : Option String :=
  (String.fromUTF8? bytes).map fun s => String.ofList (plainLineEnds s.toList)

def isAccessible (disk : Disk) (path : String) : Bool :=
  match disk.readBytes (sanitizePath path) with
  | .ok _ => true
  | .error _ => false

/-- Reads source files from the disk. -/
def load (disk : Disk) : Loader := fun path =>
  let path := sanitizePath path
  match disk.readBytes path with
  | .error _ => ⟨.absent, [.fileUnavailable path]⟩
  | .ok bytes =>
    match decode? bytes with
    | some text => ⟨.text text, []⟩
    | none => ⟨.absent, [.fileUndecodable path]⟩

def setFile (place : Place) (bytes : ByteArray) :
    List (Place × ByteArray) → List (Place × ByteArray)
  | [] => [(place, bytes)]
  | (other, old) :: rest =>
    if other == place then (place, bytes) :: rest else (other, old) :: setFile place bytes rest

/-- Writes a text in UTF-8 to a new or an old file of a directory that exists. -/
def writeText (disk : Disk) (path text : String) : Except Fault Disk := do
  let place ← disk.walk (disk.origin path) (steps path)
  if disk.isDirectory place then throw .isDirectory
  return { disk with files := setFile place text.toUTF8 disk.files }

/-- The files that an earlier disk lacks or holds with other bytes. -/
def changedSince (disk before : Disk) : List (Place × ByteArray) :=
  disk.files.filter fun (place, bytes) => before.bytesAt? place != some bytes

end Disk

end ClassAtlas
