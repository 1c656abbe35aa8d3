import PixelHost.Files.Tree

/-!
# The list of examples

The names of the example scripts in a directory: the regular files whose names are texts that end
in `.lua`, in the order of their bytes.

## Main definitions

* `Http.exampleNames` — the names for the entries of a directory.
-/

namespace PixelHost.Http

/-- The name of an entry that is an example. -/
def exampleName? (e : FileTree.Entry) : Option String :=
  if e.isFile then
    match Utf8.decode? e.name with
    | some name => if name.endsWith ".lua" then some name else none
    | none => none
  else none

/-- The names of the examples among the entries of a directory. -/
def exampleNames (entries : List FileTree.Entry) : List String :=
  (entries.filterMap exampleName?).mergeSort fun a b => a ≤ b

/-- The names of the examples in a directory. -/
def listExamples (t : FileTree) (path : String) : Except FileError (List String) :=
  (t.entries path).map exampleNames

end PixelHost.Http
