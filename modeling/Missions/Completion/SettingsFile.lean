import Missions.Completion.SettingsDocument

namespace Missions

inductive FileContent where
  | file (bytes : ByteArray)
  | directory

structure FileTree where
  written : List (List String × FileContent) := [([], .directory)]

namespace FileTree

def splitPath (path : String) : List String := path.splitToList (· == '/')

def enter (here : List String) (name : String) : List String :=
  if name = "" ∨ name = "." then here else if name = ".." then here.dropLast else here ++ [name]

/-- Writes what a path leads to. Directories on the way are made. -/
def write (tree : FileTree) (path : String) (content : FileContent) : FileTree :=
  let way (tree : List String × FileTree) (name : String) : List String × FileTree :=
    (enter tree.1 name, ⟨(tree.1, .directory) :: tree.2.written⟩)
  let (place, tree) := (splitPath path).foldl way ([], tree)
  ⟨(place, content) :: tree.written⟩

def at? (tree : FileTree) (names : List String) : Option FileContent :=
  (tree.written.find? (·.1 == names)).map (·.2)

/-- Walks from a directory along names, each of which must be found in a directory. There is no way out. -/
def walk (tree : FileTree) : List String → List String → Option FileContent
  | here, [] => tree.at? here
  | here, name :: rest =>
    match tree.at? here with
    | some .directory => if name = ".." ∧ here = [] then none else walk tree (enter here name) rest
    | _ => none

/-- The text of the file at a path, unless there is none or its bytes are no text. -/
def read? (tree : FileTree) (path : String) : Option String :=
  match tree.walk [] (splitPath path) with
  | some (.file bytes) => String.fromUTF8? bytes
  | _ => none

end FileTree

def Settings.load (tree : FileTree) (path : String) : Except CompletionError Settings :=
  match tree.read? path with
  | some text => Settings.ofDocument path text
  | none => .error (.unreadableSettings path "")

end Missions
