import Cinegraph.Library.Dict

/-!
A directory with what stands below it, as the calls of a file system change it. A call that fails
leaves the directory as it was.
-/

namespace Cinegraph.Library

/-- The directories and the files below a directory, by the parts of their paths. -/
structure FileTree where
  directories : List (List String)
  files : Dict (List String) ByteArray

namespace FileTree

def empty : FileTree := ⟨[], .empty⟩

/-- The directory itself, or one below it. -/
def IsDirectory (tree : FileTree) (path : List String) : Prop := path = [] ∨ path ∈ tree.directories

instance (tree : FileTree) (path : List String) : Decidable (tree.IsDirectory path) :=
  inferInstanceAs (Decidable (_ ∨ _))

/-- `mkdir(parents=True, exist_ok=True)`, where no file stands in the way. -/
def mkdirs (tree : FileTree) (path : List String) : Option FileTree :=
  if ∃ above ∈ path.inits, tree.files.get? above ≠ none then none
  else some { tree with
    directories := tree.directories ++ path.inits.filter fun above => ¬tree.IsDirectory above }

/-- `open(path, O_CREAT | O_EXCL)` -/
def create (tree : FileTree) (path : List String) : Option FileTree :=
  if ¬tree.IsDirectory path.dropLast ∨ tree.IsDirectory path ∨ tree.files.get? path ≠ none then none
  else some { tree with files := tree.files.set path .empty }

/-- The content of a file becomes this. -/
def write (tree : FileTree) (path : List String) (content : ByteArray) : Option FileTree :=
  (tree.files.get? path).map fun _ => { tree with files := tree.files.set path content }

def unlink (tree : FileTree) (path : List String) : Option FileTree :=
  (tree.files.get? path).map fun _ => { tree with files := tree.files.erase path }

variable {tree after : FileTree} {path : List String} {content : ByteArray}

theorem mkdirs_eq_some : tree.mkdirs path = some after →
    after.files = tree.files ∧ ∀ d ∈ after.directories, d ∈ tree.directories ∨ d <+: path := by
  intro made
  unfold mkdirs at made
  split at made <;> cases made
  refine ⟨rfl, fun d member => ?_⟩
  rcases List.mem_append.mp member with old | new
  · exact .inl old
  · exact .inr ((List.mem_inits _ _).mp (List.mem_of_mem_filter new))

theorem create_eq_some : tree.create path = some after →
    tree.files.get? path = none ∧ after = { tree with files := tree.files.set path .empty } := by
  intro made
  unfold create at made
  split at made <;> cases made
  rename_i absent
  simp only [not_or, not_not] at absent
  exact ⟨absent.2.2, rfl⟩

theorem write_eq_some : tree.write path content = some after ↔
    tree.files.get? path ≠ none ∧ { tree with files := tree.files.set path content } = after := by
  unfold write
  cases tree.files.get? path <;> simp

theorem unlink_eq_some : tree.unlink path = some after ↔
    tree.files.get? path ≠ none ∧ { tree with files := tree.files.erase path } = after := by
  unfold unlink
  cases tree.files.get? path <;> simp

end FileTree

/-- What stands under a name in a directory. -/
inductive Node where
  | file (content : ByteArray)
  | directory (tree : FileTree)

end Cinegraph.Library
