import DexGraft.Text.Cut

/-!
# Paths

Names of files as they are given on the command line.
-/

namespace DexGraft.Command

open Text

namespace Path

/-- The components of a path, without the empty ones and those that stand for the same directory. -/
def components (path : List Char) : List (List Char) :=
  (parts (· == '/') path).filter fun part => part != [] && part != ['.']

/-- What stands behind the last dot of the last component, unless nothing stands in front of it. -/
def extension? (path : String) : Option String := do
  let name ← (components path.toList).getLast?
  if name = ['.', '.'] then none
  else
    let (front, extension) ← cutLast? (· == '.') name
    if front.isEmpty then none else some (String.ofList extension)

/-- Whether the extension is the given one, in which the case of ASCII letters does not count. -/
def hasExtension (extension path : String) : Bool :=
  (extension? path).any fun found =>
    found.toList.map Char.toLower == extension.toList.map Char.toLower

/-- Whether a path begins at the root. -/
def isAbsolute (path : String) : Bool := path.toList.head? == some '/'

/-- Whether a path names a directory by the way it ends. -/
def asksForDirectory (path : String) : Bool :=
  let last := (parts (· == '/') path.toList).getLastD []
  last == [] || last == ['.'] || last == ['.', '.']

/-- Whether no file has a component as its name: it is too long or holds the character NUL. -/
def isNoName (part : List Char) : Bool :=
  255 < (String.ofList part).utf8ByteSize || part.contains '\x00'

/-- Whether a path, or one of its components, is such that no file is found by it. -/
def isUnusable (path : String) : Bool :=
  4096 ≤ path.utf8ByteSize || (components path.toList).any isNoName

end Path

end DexGraft.Command
