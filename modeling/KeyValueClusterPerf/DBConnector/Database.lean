import KeyValueClusterPerf.DBConnector.Limit
import KeyValueClusterPerf.Foundations.LastWriteWins

/-!
# The database behind the broker after a run

The database is an atomic last-write-wins map that answers every request. A directory
tree is traversed depth first, directories before their contents; the order of the
entries of one directory is the order of the list of its children, hence arbitrary.

The key of a file drops both its directory and its last extension. So the database holds
under each key the object of the last processed file with that key, and the objects of
all processed files survive exactly when no two files with different objects share a key.
-/

namespace KeyValueClusterPerf

open Texts Doubles LastWriteWins

abbrev Database := Store Text Text

/-- The broker's answer to one request: the database after it and the value read by a GET. -/
def Database.serve (database : Database) : Request → Database × Option Text
  | .put key value => (database.put key value, none)
  | .get key => (database, database key)

def Database.serveAll (database : Database) (requests : List Request) : Database :=
  requests.foldl (fun current request => (Database.serve current request).1) database

/-- A file or a directory with its contents. -/
inductive DirectoryTree
  | file (name object : Text) (elapsed : Int64)
  | directory (name : Text) (children : List DirectoryTree)

mutual

/-- The entries that the recursive iterator yields for a file or directory of `parent`. -/
def DirectoryTree.entries (parent : Text) : DirectoryTree → List DirectoryEntry
  | .file name object elapsed => [.regular ⟨parent ++ '/' :: name, object, elapsed⟩]
  | .directory name children =>
      .other (parent ++ '/' :: name) :: DirectoryTree.entriesAll (parent ++ '/' :: name) children

def DirectoryTree.entriesAll (parent : Text) : List DirectoryTree → List DirectoryEntry
  | [] => []
  | tree :: rest => tree.entries parent ++ DirectoryTree.entriesAll parent rest

end

/-- The path `/root/charis/OCDB` of the benchmark data. -/
def dataPath : Text :=
  ['/', 'r', 'o', 'o', 't', '/', 'c', 'h', 'a', 'r', 'i', 's', '/', 'O', 'C', 'D', 'B']

def walk (children : List DirectoryTree) : List DirectoryEntry :=
  DirectoryTree.entriesAll dataPath children

theorem RegularFile.key_eq_of_name {name : Text} (valid : '/' ∉ name) (parent object : Text)
    (elapsed : Int64) :
    (RegularFile.mk (parent ++ '/' :: name) object elapsed).key = beforeLast '.' name := by
  rw [RegularFile.key, afterLast_append valid]

namespace DBConnector

theorem serveAll_requests (database : Database) (files : List RegularFile) :
    database.serveAll (files.flatMap requestsFor) =
      database.putAll (files.map fun file => (file.key, file.object)) := by
  induction files generalizing database with
  | nil => rfl
  | cons file rest ih => exact ih (database.put file.key file.object)

theorem find?_map_files (files : List RegularFile) (key : Text) :
    (((files.map fun file => (file.key, file.object)).reverse.find? (·.1 = key)).map Prod.snd) =
      ((files.reverse.find? (·.key = key)).map (·.object)) := by
  rw [← List.map_reverse, List.find?_map, Option.map_map]
  rfl

/--
After a run without a limit the database holds under each key the object of the last file
with that key; every file is found under its key exactly when the objects are a function
of the keys.
-/
theorem database_after_run (children : List DirectoryTree) :
    (∀ key, Database.serveAll .empty
        ((construct (.finite (-1))).run (some (walk children))).2 key =
      ((regularFiles (walk children)).reverse.find? (·.key = key)).map (·.object)) ∧
    ((∀ file ∈ regularFiles (walk children), Database.serveAll .empty
        ((construct (.finite (-1))).run (some (walk children))).2 file.key = some file.object) ↔
      ∀ file ∈ regularFiles (walk children), ∀ other ∈ regularFiles (walk children),
        file.key = other.key → file.object = other.object) := by
  have stored : Database.serveAll .empty
      ((construct (.finite (-1))).run (some (walk children))).2 =
        Store.empty.putAll
          ((regularFiles (walk children)).map fun file => (file.key, file.object)) := by
    simp only [run, loop_eq, processed_of_unlimited, serveAll_requests]
  rw [stored]
  constructor
  · intro key
    rw [Store.putAll_apply, find?_map_files]
    simp [Store.empty]
  · have retains := Store.putAll_retains_iff Store.empty
      ((regularFiles (walk children)).map fun file => (file.key, file.object))
    simpa using retains

def twinTree : List DirectoryTree :=
  [.directory ['a'] [.file ['x', '.', 'r'] ['1'] 0],
    .directory ['b'] [.file ['x', '.', 'r'] ['2'] 0]]

/-- The object of the first of two files of the same name is lost. -/
theorem twinTree_loses_object :
    ∃ file ∈ regularFiles (walk twinTree), Database.serveAll .empty
      ((construct (.finite (-1))).run (some (walk twinTree))).2 file.key ≠ some file.object := by
  refine ⟨⟨dataPath ++ ['/', 'a', '/', 'x', '.', 'r'], ['1'], 0⟩, ?_, ?_⟩
  · exact List.mem_cons_self
  · decide +kernel

end DBConnector

end KeyValueClusterPerf
