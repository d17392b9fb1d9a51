import DocHeader.Disk.Tree
import DocHeader.Glob.Spec

/-!
# Finding files

The files below a directory that a glob selects, without those in directories of certain
names.

## Main definitions

* `dependencyDirectories` — the directories that are never entered.
* `FileTree.findFiles` — the files, in the order of their paths.
-/

namespace DocHeader

/-- The directories of dependencies, builds and version control. -/
def dependencyDirectories : List String :=
  ["node_modules", "bower_components", "dist", "build", "out", "coverage", ".git", ".hg", ".svn",
    ".next", ".cache"]

/-- Whether a file below a root lies in a directory of one of the names. -/
def liesIn (directories : List String) (file : List String) : Bool :=
  file.dropLast.any directories.contains

namespace FileTree

/-- The files below a root directory that are selected and that lie in none of the
`excluded` directories, sorted by their paths. A root that is no directory has none. -/
def findFiles (t : FileTree) (here : Place) (excluded : List String) (selects : String → Bool)
    (root : String) : List String :=
  let path := Path.ofText root
  match t.locate here path.text with
  | .error _ => []
  | .ok place =>
    if t.find? place == some .directory then
      let files := (t.filesBelow place).filter fun file =>
        !liesIn excluded file && selects (joinWith "/" file)
      (files.map fun file => (path.join ⟨"", file⟩).text).mergeSort fun a b => a ≤ b
    else []

end FileTree

end DocHeader
