import LootFilter.Text.Quoted

/-! Paths of files: an optional root and the names below it. Empty names and single points do not count. -/

set_option autoImplicit false

namespace LootFilter

structure Path where
  root : String
  names : List String
  deriving DecidableEq, Repr

namespace Path

/-- Two slashes at the start, and no more, are a root of their own. -/
def rootOf (text : List Char) : String :=
  match text.takeWhile (· == '/') with
  | [] => ""
  | ['/', '/'] => "//"
  | _ => "/"

def ofString (text : String) : Path :=
  ⟨rootOf text.toList, ((text.toList.splitOn '/').map String.ofList).filter fun name => name != "" && name != "."⟩

def here : Path := ⟨"", []⟩

def toString (path : Path) : String :=
  if path.root.isEmpty && path.names.isEmpty then "." else path.root ++ "/".intercalate path.names

def child (path : Path) (name : String) : Path := ⟨path.root, path.names ++ [name]⟩

/-- A path below another one, unless it has a root itself. -/
def join (path other : Path) : Path :=
  if other.root.isEmpty then ⟨path.root, path.names ++ other.names⟩ else other

def parent (path : Path) : Path := ⟨path.root, path.names.dropLast⟩

def hasNul (path : Path) : Bool := path.toString.toList.contains '\x00'

def mostBytes : Nat := 4096

def isTooLong (path : Path) : Bool := decide (mostBytes ≤ path.toString.utf8ByteSize)

def tooLongMessage (path : Path) : String := s!"[Errno 36] File name too long: {Text.quoted path.toString}"

def mostNameBytes : Nat := 255

def isLongName (name : String) : Bool := decide (mostNameBytes < name.utf8ByteSize)

end Path

inductive Entry where
  | file (bytes : List UInt8)
  | directory
  | missing
  | belowFile
  | tooLong
  | unnameable
  deriving DecidableEq, Repr

structure FileTree where
  entries : List (List String × Entry)

namespace FileTree

/-- The entry at names from the directory on. Directories on the way to an entry are there too. -/
def entryAt (tree : FileTree) (names : List String) : Entry :=
  match tree.entries.lookup names with
  | some entry => entry
  | none =>
    if names.isEmpty || tree.entries.any fun (path, _) => names.isPrefixOf path then .directory else .missing

/-- Walks down names; outside of the directory (`none`) nothing but directories is known. -/
def walk (tree : FileTree) : Option (List String) → List String → Entry
  | none, [] => .directory
  | none, name :: rest =>
    if name = ".." then tree.walk none rest else if Path.isLongName name then .tooLong else .missing
  | some place, [] => tree.entryAt place
  | some place, name :: rest =>
    match tree.entryAt place with
    | .directory =>
      if name = ".." then tree.walk (if place.isEmpty then none else some place.dropLast) rest
      else if Path.isLongName name then .tooLong
      else tree.walk (some (place ++ [name])) rest
    | .file _ => .belowFile
    | entry => entry

def find (tree : FileTree) (path : Path) : Entry :=
  if path.hasNul then .unnameable
  else if path.isTooLong then .tooLong
  else if path.root.isEmpty then tree.walk (some []) path.names
  else tree.walk none path.names

end FileTree

end LootFilter
