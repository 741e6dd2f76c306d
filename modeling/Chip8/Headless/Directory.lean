/-!
# Directories

A directory is what a file system holds for a command: a list of files, each
with the names that lead to it from the root, folders, which may be empty, the
folder that paths without a leading slash start from, and what some of these
places refuse. A file is in all the folders on its way. A path is walked name
by name: names below a file lead nowhere, and so do names below nothing. The
root is above itself. A name or a path can be too long to be looked up at all.
-/
namespace Chip8.Headless

inductive FileFault
  | missing
  | notDirectory
  | isDirectory
  | nameTooLong
  | other (description : String)
deriving DecidableEq, Repr

namespace FileFault

def message : FileFault → String
  | missing => "No such file or directory (os error 2)"
  | notDirectory => "Not a directory (os error 20)"
  | isDirectory => "Is a directory (os error 21)"
  | nameTooLong => "File name too long (os error 36)"
  | other description => description

end FileFault

/-- The names of a path in order. Empty ones between slashes do not count. -/
def pathNames (path : String) : List String :=
  ((path.toList.splitOn '/').filter (· ≠ [])).map String.ofList

/-- Follows one more name where every folder on the way is there. -/
def follow (names : List String) (name : String) : List String :=
  if name = "." then names
  else if name = ".." then names.dropLast
  else names ++ [name]

/-- Every place that names lead past, the last one included. -/
def passed (start : List String) : List String → List (List String)
  | [] => []
  | name :: rest => follow start name :: passed (follow start name) rest

/-- The last name of a path, if it names an entry. -/
def fileName (path : String) : String :=
  match ((pathNames path).filter (· ≠ ".")).getLast? with
  | none | some ".." => ""
  | some name => name

/-- The bytes that a single name can have. -/
def longestName : Nat := 255

/-- The bytes that a path can have. -/
def longestPath : Nat := 4095

/-- What a place refuses, and why. -/
structure Access where
  /-- To look up a name in it. -/
  search : Option FileFault := none
  /-- To be read. -/
  reading : Option FileFault := none
  /-- To be created, or to be written over. -/
  writing : Option FileFault := none
deriving DecidableEq

structure Directory where
  files : List (List String × Array UInt8)
  folders : List (List String) := []
  working : List String := []
  /-- A place that is not listed refuses nothing. -/
  access : List (List String × Access) := []
deriving DecidableEq

/-- Where a path leads. -/
inductive Place
  | file (names : List String) (bytes : Array UInt8)
  | vacant (names : List String)
  | inside (names : List String)
deriving DecidableEq

namespace Directory

/-- Whether names lead to a folder, as far as no file is there. -/
def hasFolder (directory : Directory) (names : List String) : Bool :=
  directory.files.any (fun file => names.isPrefixOf file.1)
    || directory.folders.any names.isPrefixOf || names.isPrefixOf directory.working

def place (directory : Directory) (names : List String) : Place :=
  match directory.files.lookup names with
  | some bytes => .file names bytes
  | none =>
    if directory.hasFolder names then .inside names else .vacant names

def accessTo (directory : Directory) (names : List String) : Access :=
  (directory.access.lookup names).getD {}

/-- Looks a name up in a folder. -/
def lookup (directory : Directory) (folder : List String) : String → Except FileFault Place
  | "." => .ok (.inside folder)
  | ".." => .ok (.inside folder.dropLast)
  | name =>
    if name.utf8ByteSize ≤ longestName then .ok (directory.place (folder ++ [name]))
    else .error .nameTooLong

/-- Walks on by one name. -/
def enter (directory : Directory) : Place → String → Except FileFault Place
  | .file _ _, _ => .error .notDirectory
  | .vacant _, _ => .error .missing
  | .inside folder, name =>
    match (directory.accessTo folder).search with
    | some fault => .error fault
    | none => directory.lookup folder name

/-- Walks along names from where `path` starts. -/
def walk (directory : Directory) (path : String) (names : List String) : Except FileFault Place :=
  if path = "" then .error .missing
  else if path.utf8ByteSize ≤ longestPath then
    names.foldlM directory.enter (.inside (if path.startsWith "/" then [] else directory.working))
  else .error .nameTooLong

/-- The file that a path leads to. -/
def find (directory : Directory) (path : String) : Except FileFault (List String × Array UInt8) :=
  match directory.walk path (pathNames path) with
  | .error fault => .error fault
  | .ok (.file names bytes) =>
    if path.endsWith "/" then .error .notDirectory else .ok (names, bytes)
  | .ok (.vacant _) => .error .missing
  | .ok (.inside _) => .error .isDirectory

def read (directory : Directory) (path : String) : Except FileFault (Array UInt8) :=
  match directory.find path with
  | .error fault => .error fault
  | .ok (names, bytes) =>
    match (directory.accessTo names).reading with
    | some fault => .error fault
    | none => .ok bytes

/-- Where a file can be created, new or in place of another. A path that ends in a slash asks for
a directory, so its last name does not matter once there is a directory to look it up in. -/
def creatable (directory : Directory) (path : String) : Except FileFault (List String) :=
  let names := pathNames path
  match directory.walk path (if path.endsWith "/" then names.dropLast ++ ["."] else names) with
  | .error fault => .error fault
  | .ok (.file names _) | .ok (.vacant names) =>
    match (directory.accessTo names).writing with
    | some fault => .error fault
    | none => .ok names
  | .ok (.inside _) => .error .isDirectory

def write (directory : Directory) (names : List String) (bytes : Array UInt8) : Directory :=
  { directory with
    files := (names, bytes) :: directory.files.filter fun file => file.1 ≠ names }

/-- A new file where its path leads, with every folder that the path goes through. -/
def lay (directory : Directory) (path : String) (bytes : Array UInt8) : Directory :=
  let names := pathNames path
  let directory := directory.write (names.foldl follow directory.working) bytes
  { directory with folders := passed directory.working names.dropLast ++ directory.folders }

/-- Files that are laid down one after the other in a folder whose own name no path can spell. Of
two at one place the later one stays. -/
def ofFiles (files : List (String × Array UInt8)) : Directory :=
  files.foldl (fun directory file => directory.lay file.1 file.2) { files := [], working := [""] }

end Directory

end Chip8.Headless
