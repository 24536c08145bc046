import KeyValueClusterPerf.Foundations.Cutoff
import KeyValueClusterPerf.Foundations.Double

/-!
# The database connector and its driver loop

`DBConnector::run` walks the directory tree of the benchmark data. It skips what is not
a regular file, and for each regular file it loads the serialised object, puts it under
the file's key, gets it back, adds the duration of the two requests to its measurement
and stops once more bytes than the configured limit have been transmitted.

The connector keeps the counters that the source keeps, at their widths: an `unsigned
int`, a `double` and a 64-bit duration in microseconds.
-/

namespace KeyValueClusterPerf

open Texts Doubles

/-- A regular file, its serialised object and how long its put/get cycle takes. -/
structure RegularFile where
  path : Text
  object : Text
  elapsed : Int64

/-- What the recursive directory iterator yields. -/
inductive DirectoryEntry
  | regular (file : RegularFile)
  | other (path : Text)

inductive Request
  | put (key value : Text)
  | get (key : Text)
  deriving DecidableEq

/-- The database key: the path after its last `/`, cut at the last `.` of what remains. -/
def RegularFile.key (file : RegularFile) : Text :=
  beforeLast '.' (afterLast '/' file.path)

def DirectoryEntry.file? : DirectoryEntry → Option RegularFile
  | .regular file => some file
  | .other _ => none

def regularFiles (entries : List DirectoryEntry) : List RegularFile :=
  entries.filterMap DirectoryEntry.file?

def totalSize (files : List RegularFile) : ℕ :=
  (files.map (·.object.length)).sum

structure DBConnector where
  mLoadedObjects : UInt32
  mTotalDataSize : NatDouble
  mDuration : Int64
  mBytesLimit : Double

namespace DBConnector

def construct (bytesLimit : Double) : DBConnector where
  mLoadedObjects := 0
  mTotalDataSize := .zero
  mDuration := 0
  mBytesLimit := bytesLimit

/-- Loading counts the object and its bytes. -/
def load (connector : DBConnector) (file : RegularFile) : DBConnector × Text :=
  ({ connector with
      mLoadedObjects := connector.mLoadedObjects + 1
      mTotalDataSize := connector.mTotalDataSize.add file.object.length },
    file.object)

/-- The body of the loop for a regular file, up to the test of the limit. -/
def processFile (connector : DBConnector) (file : RegularFile) : DBConnector × List Request :=
  let (loaded, dataVectorOut) := connector.load file
  ({ loaded with mDuration := loaded.mDuration + file.elapsed },
    [.put file.key dataVectorOut, .get file.key])

/-- `mBytesLimit != -1 && mTotalDataSize > mBytesLimit`. -/
def limitExceeded (connector : DBConnector) : Bool :=
  connector.mBytesLimit ≠ .finite (-1) && connector.mTotalDataSize.toDouble.gt connector.mBytesLimit

/-- The traversal loop: the connector after it and the requests it sent. -/
def loop : DBConnector → List DirectoryEntry → DBConnector × List Request
  | connector, [] => (connector, [])
  | connector, .other _ :: rest => connector.loop rest
  | connector, .regular file :: rest =>
      let (measured, requests) := connector.processFile file
      if measured.limitExceeded then (measured, requests)
      else
        let (final, later) := measured.loop rest
        (final, requests ++ later)

/-- `run`; the data path may not be a directory, and then nothing happens. -/
def run (connector : DBConnector) : Option (List DirectoryEntry) → DBConnector × List Request
  | some entries => connector.loop entries
  | none => (connector, [])

def advance (connector : DBConnector) (file : RegularFile) : DBConnector :=
  (connector.processFile file).1

/-- The regular files that the loop processes before it stops. -/
def processed (connector : DBConnector) (entries : List DirectoryEntry) : List RegularFile :=
  Cutoff.takeThrough advance limitExceeded connector (regularFiles entries)

def requestsFor (file : RegularFile) : List Request :=
  [.put file.key file.object, .get file.key]

/-- The loop is a fold over the processed files and sends their requests in order. -/
theorem loop_eq (connector : DBConnector) (entries : List DirectoryEntry) :
    connector.loop entries = ((connector.processed entries).foldl advance connector,
      (connector.processed entries).flatMap requestsFor) := by
  induction entries generalizing connector with
  | nil => rfl
  | cons entry rest ih =>
      cases entry with
      | other path => exact ih connector
      | regular file =>
          have first : processed connector (.regular file :: rest) =
              file :: if (connector.advance file).limitExceeded then []
                else (connector.advance file).processed rest := rfl
          rw [first, loop]
          change (if (connector.advance file).limitExceeded then _ else _) = _
          cases stops : (connector.advance file).limitExceeded with
          | true => rfl
          | false =>
              have later := ih (connector.advance file)
              change (let (final, later) := (connector.advance file).loop rest
                (final, requestsFor file ++ later)) = _
              rw [later]
              rfl

theorem foldl_advance_mBytesLimit (connector : DBConnector) (files : List RegularFile) :
    (files.foldl advance connector).mBytesLimit = connector.mBytesLimit := by
  induction files generalizing connector with
  | nil => rfl
  | cons file rest ih => exact ih (connector.advance file)

theorem foldl_advance_mLoadedObjects (connector : DBConnector) (files : List RegularFile) :
    (files.foldl advance connector).mLoadedObjects =
      connector.mLoadedObjects + UInt32.ofNat files.length := by
  induction files generalizing connector with
  | nil => simp
  | cons file rest ih =>
      have counted : (connector.advance file).mLoadedObjects = connector.mLoadedObjects + 1 := rfl
      rw [List.foldl_cons, ih, counted, List.length_cons, UInt32.ofNat_add]
      simp only [UInt32.add_assoc]
      rw [UInt32.add_comm 1]
      rfl

/-- Below `2 ^ 53` bytes the accumulated double is the exact sum. -/
theorem foldl_advance_mTotalDataSize {connector : DBConnector} {sum : ℕ} {files : List RegularFile}
    (exact : connector.mTotalDataSize.toDouble = .finite sum)
    (small : sum + totalSize files < 2 ^ 53) :
    (files.foldl advance connector).mTotalDataSize.toDouble =
      .finite ((sum + totalSize files : ℕ) : ℚ) := by
  induction files generalizing connector sum with
  | nil => simpa [totalSize] using exact
  | cons file rest ih =>
      have sizeCons : totalSize (file :: rest) = file.object.length + totalSize rest := by
        simp [totalSize]
      rw [sizeCons, ← Nat.add_assoc] at small ⊢
      have counted : (connector.advance file).mTotalDataSize.toDouble =
          .finite ((sum + file.object.length : ℕ) : ℚ) :=
        NatDouble.toDouble_add exact (by omega)
      exact ih counted small

section Fresh

variable (bytesLimit : Double)

/-- A new connector counts the files modulo `2 ^ 32`. -/
theorem toNat_mLoadedObjects_construct (files : List RegularFile) :
    (files.foldl advance (construct bytesLimit)).mLoadedObjects.toNat = files.length % 2 ^ 32 := by
  rw [foldl_advance_mLoadedObjects]
  simp [construct]

theorem toDouble_mTotalDataSize_construct {files : List RegularFile}
    (small : totalSize files < 2 ^ 53) :
    (files.foldl advance (construct bytesLimit)).mTotalDataSize.toDouble =
      .finite (totalSize files) := by
  have start : (construct bytesLimit).mTotalDataSize.toDouble = .finite ((0 : ℕ) : ℚ) := rfl
  simpa using foldl_advance_mTotalDataSize start (by simpa using small)

end Fresh

end DBConnector

end KeyValueClusterPerf
