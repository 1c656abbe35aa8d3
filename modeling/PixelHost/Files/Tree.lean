import PixelHost.Bytes
import PixelHost.Files.FileError
import PixelHost.Text.Utf8

/-!
# File trees

Files, directories, links and devices by their paths. A path is a list of names from the root on; a
path text is resolved from the current directory unless it starts with a slash.

## Main definitions

* `FileTree` — what there is at each path.
* `FileTree.resolve` — what a path text leads to.
* `FileTree.readText` — the text of a file.
* `FileTree.entries` — the entries of a directory.
* `FileTree.overwrite` — the content of a file after writing at a position.
-/

namespace PixelHost

/-- A device. -/
inductive Device where
  /-- It takes everything. -/
  | null
  /-- It has no room. -/
  | full
  /-- A line to a terminal. -/
  | terminal
  /-- There is nothing behind it. -/
  | detached
  deriving DecidableEq, Repr, Inhabited

/-- What there is at a path. -/
inductive FileNode where
  | file (content : Bytes)
  | directory
  | link (target : String)
  | device (d : Device)
  /-- A regular file that cannot be opened. -/
  | barred (cause : FileError)
  deriving Inhabited

/-- There is a regular file, whether it can be opened or not. -/
def FileNode.isFile : FileNode → Bool
  | .file _ | .barred _ => true
  | _ => false

/-- Files by their paths. -/
structure FileTree where
  nodes : List (List String × FileNode) := []
  /-- The directory where path texts start. -/
  current : List String := []
  deriving Inhabited

namespace FileTree

/-- What there is at a path. -/
def node? (t : FileTree) (path : List String) : Option FileNode :=
  if path.isEmpty then some .directory else t.nodes.lookup path

/-- The tree with something at a path. -/
def put (t : FileTree) (path : List String) (node : FileNode) : FileTree :=
  { t with nodes := (path, node) :: t.nodes.filter (·.1 != path) }

/-- The tree with the directories that lead to a path. -/
def withParents (t : FileTree) (path : List String) : FileTree :=
  (List.range path.length).foldl (fun t n =>
    match t.node? (path.take n) with
    | some _ => t
    | none => t.put (path.take n) .directory) t

/-- The path that a path text stands for if it leads through no links. -/
def place (t : FileTree) (path : String) : List String :=
  (path.splitOn "/").foldl (fun here name =>
    if name == "" || name == "." then here
    else if name == ".." then here.dropLast
    else here ++ [name]) (if path.startsWith "/" then [] else t.current)

/-- The names in a path text. An empty name stands for the directory itself. -/
def names (path : String) : List String := path.splitOn "/"

/-- How many steps a path may take. -/
def maxSteps : Nat := 4096

/-- How many links a path may lead through. -/
def maxLinks : Nat := 40

/-- Follows names from a directory. A link at the end is followed too. -/
def follow (t : FileTree) (links : Nat) (here : List String) :
    List String → Nat → Except FileError (List String × FileNode)
  | [], _ =>
    match t.node? here with
    | some node => .ok (here, node)
    | none => .error .notFound
  | _ :: _, 0 => .error .tooManyLinks
  | name :: rest, n + 1 =>
    if name == "" || name == "." then follow t links here rest n
    else if name == ".." then follow t links here.dropLast rest n
    else
      let path := here ++ [name]
      match t.node? path with
      | none => .error .notFound
      | some (.link target) =>
        if links ≥ maxLinks then .error .tooManyLinks
        else
          let start := if target.startsWith "/" then [] else here
          follow t (links + 1) start (names target ++ rest) n
      | some .directory => follow t links path rest n
      | some node => if rest.isEmpty then .ok (path, node) else .error .notDirectory

/-- The path and the node that a path text leads to. -/
def resolve (t : FileTree) (path : String) : Except FileError (List String × FileNode) :=
  if path.isEmpty then .error .notFound
  else
    let start := if path.startsWith "/" then [] else t.current
    t.follow 0 start (names path) maxSteps

/-- The bytes of a file. -/
def read (t : FileTree) (path : String) : Except FileError Bytes := do
  match (← t.resolve path).2 with
  | .file content => return content
  | .directory => throw .isDirectory
  | .barred cause => throw cause
  | _ => return .empty

/-- The text of a file. -/
def readText (t : FileTree) (path : String) : Except FileError String := do
  match Utf8.decode? (← t.read path) with
  | some text => return text
  | none => throw .notText

/-- An entry of a directory; links are not followed. -/
structure Entry where
  name : Bytes
  node : FileNode

/-- The entry is a regular file. -/
def Entry.isFile (e : Entry) : Bool := e.node.isFile

/-- The entries of a directory. -/
def entries (t : FileTree) (path : String) : Except FileError (List Entry) := do
  match ← t.resolve path with
  | (dir, .directory) =>
    return t.nodes.filterMap fun (path, node) =>
      match path.getLast? with
      | some name => if path.dropLast == dir then some ⟨name.toUTF8, node⟩ else none
      | none => none
  | _ => throw .notDirectory

/-- The content after writing at a position. -/
def overwrite (content : Bytes) (position : Nat) (new : Bytes) : Bytes :=
  content.extract 0 position ++ new ++ content.extract (position + new.size) content.size

end FileTree

end PixelHost
