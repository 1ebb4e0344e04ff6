import DexGraft.Command.Path

/-!
# Files in memory

A file system as a command sees it: the directory that is worked in with the directories above it,
the files in them, and the devices.
-/

namespace DexGraft.Command

/-- The components of the way from the root to a file or a directory. -/
abbrev Place := List (List Char)

namespace Place

def ofNames (names : List String) : Place := names.map (·.toList)

/-- Whether a place is a directory on the way to another one. -/
def isAbove (place other : Place) : Bool := place.isPrefixOf other && place != other

/--
The directory that is worked in, from which paths start that do not begin at the root. Its own name
is empty, so that no path leads back into it.
-/
def workingDirectory : Place := ofNames ["tmp", ""]

end Place

/-- What is no file but can be read or written like one. -/
inductive Device where
  /-- It is empty, and what is written to it is lost. -/
  | null
  /-- It cannot be read to an end, and what is written to it is lost. -/
  | endless
  /-- It takes nothing. -/
  | full
  /-- It prints what is written to it. -/
  | output
deriving DecidableEq, Repr

/-- The devices with their places. Nothing comes from the standard input. -/
def Device.all : List (Place × Device) :=
  [ (.ofNames ["dev", "null"], .null),
    (.ofNames ["dev", "zero"], .endless),
    (.ofNames ["dev", "random"], .endless),
    (.ofNames ["dev", "urandom"], .endless),
    (.ofNames ["dev", "full"], .full),
    (.ofNames ["dev", "stdin"], .null),
    (.ofNames ["dev", "stdout"], .output),
    (.ofNames ["dev", "stderr"], .endless),
    (.ofNames ["dev", "fd", "0"], .null),
    (.ofNames ["dev", "fd", "1"], .output),
    (.ofNames ["dev", "fd", "2"], .endless),
    (.ofNames ["proc", "self", "fd", "0"], .null),
    (.ofNames ["proc", "self", "fd", "1"], .output),
    (.ofNames ["proc", "self", "fd", "2"], .endless) ]

/-- The device at a place. -/
def Device.at? (place : Place) : Option Device := all.lookup place

/-- Files with their places. -/
structure FileTree where
  files : List (Place × String)
deriving Repr

/-- What becomes of a text that is written. -/
inductive Written where
  | kept (files : FileTree)
  | printed
  | lost
deriving Repr

namespace FileTree

/-- Files with their paths from the directory that is worked in. -/
def ofFiles (files : List (String × String)) : FileTree :=
  ⟨files.map fun (path, content) =>
    (Place.workingDirectory ++ Path.components path.toList, content)⟩

/-- Whether a place is a directory in which files can be made. -/
def takesFiles (tree : FileTree) (place : Place) : Bool :=
  place.isPrefixOf Place.workingDirectory || tree.files.any fun (file, _) => place.isAbove file

def isDirectory (tree : FileTree) (place : Place) : Bool :=
  tree.takesFiles place || Device.all.any fun (device, _) => place.isAbove device

/-- The place that a path leads to. A step up is possible from a directory only. -/
def resolve? (tree : FileTree) (path : String) : Option Place :=
  if Path.isUnusable path then none
  else
    let start := if Path.isAbsolute path then [] else Place.workingDirectory
    (Path.components path.toList).foldlM (fun place part =>
      if part = ['.', '.'] then if tree.isDirectory place then some place.dropLast else none
      else some (place ++ [part])) start

/-- The place of the file or device, and of no directory, that a path leads to. -/
def resolveFile? (tree : FileTree) (path : String) : Option Place :=
  if Path.asksForDirectory path then none
  else (tree.resolve? path).filter fun place => !tree.isDirectory place

def read? (tree : FileTree) (path : String) : Option String := do
  let place ← tree.resolveFile? path
  match Device.at? place with
  | some .null => some ""
  | some _ => none
  | none => tree.files.lookup place

/-- Writes a file, which takes a directory that is there. -/
def write? (tree : FileTree) (path content : String) : Option Written := do
  let place ← tree.resolveFile? path
  match Device.at? place with
  | some .null | some .endless => some .lost
  | some .output => some .printed
  | some .full => none
  | none =>
    if tree.takesFiles place.dropLast then
      some (.kept ⟨(place, content) :: tree.files.filter (·.1 != place)⟩)
    else none

end FileTree

end DexGraft.Command
