/-!
# File trees

A tree of files and directories below a working directory, and the reading of a file by a relative
path. A path leads through its names from the left; an empty name and a single dot stay where they
are, two dots lead to the parent directory, and every name before the last must lead to a directory.
A path that leaves the tree, and one that is too long, reads nothing.
-/

namespace CommandConsole

/-- What stands at a path. -/
inductive FileNode where
  | directory
  | file (content : ByteArray)

/-- Nodes with the names that lead to them. The directories above a node are there too. -/
structure FileTree where
  nodes : List (List String × FileNode)

namespace FileTree

/-- The names of a path. -/
def namesOf (path : String) : List String :=
  path.splitOn "/"

/-- The names of a path that lead somewhere. -/
def stepsOf (path : String) : List String :=
  (namesOf path).filter fun name => name != "" && name != "."

/-- A tree with nodes at some paths. -/
def ofPaths (nodes : List (String × FileNode)) : FileTree :=
  ⟨nodes.map fun (path, node) => (stepsOf path, node)⟩

/-- There is a directory behind these names. -/
def hasDirectory (t : FileTree) (names : List String) : Bool :=
  names.isEmpty || t.nodes.any fun (place, node) =>
    match node with
    | .directory => names.isPrefixOf place
    | .file _ => names.isPrefixOf place && names != place

/-- The file behind these names. -/
def file? (t : FileTree) (names : List String) : Option ByteArray :=
  t.nodes.findSome? fun (place, node) =>
    match node with
    | .file content => if place = names then some content else none
    | .directory => none

/-- Goes on from a directory by the names of a path, to the names of a file. -/
def walk? (t : FileTree) : List String → List String → Option (List String)
  | _, [] => none
  | here, [name] => if name = "" ∨ name = "." ∨ name = ".." then none else some (here ++ [name])
  | here, name :: rest =>
    if name = "" ∨ name = "." then walk? t here rest
    else if name = ".." then if here = [] then none else walk? t here.dropLast rest
    else if t.hasDirectory (here ++ [name]) then walk? t (here ++ [name]) rest
    else none

/-- The first number of bytes that is too many for a path. -/
def pathLimit : Nat := 4096

/-- The content of the file at a path. -/
def read? (t : FileTree) (path : String) : Option ByteArray :=
  if pathLimit ≤ path.utf8ByteSize then none
  else
    match path.toList with
    | '/' :: _ => none
    | _ => (t.walk? [] (namesOf path)).bind t.file?

/-- The text of the file at a path, if it holds text. -/
def readText? (t : FileTree) (path : String) : Option String :=
  (t.read? path).bind String.fromUTF8?

end FileTree

end CommandConsole
