import KeyValueClusterPerf.DBConnector.Basic

/-!
# The byte limit of the driver loop

For objects whose total size a double represents exactly, the loop processes the regular
files up to and including the first one at which the running total exceeds the limit.
The object counter is an `unsigned int` and counts modulo `2 ^ 32`; the byte counter is
exact. A larger limit never processes fewer files, except that `-1` switches the limit
off.
-/

namespace KeyValueClusterPerf

open Texts Doubles

/-- A total of bytes makes the loop stop. -/
def Exceeds (bytesLimit : Double) (total : ℕ) : Prop :=
  bytesLimit ≠ .finite (-1) ∧ (Double.finite total).gt bytesLimit = true

/-- `handled` are the files up to and including the first one at which the limit is exceeded. -/
structure HandledUpTo (bytesLimit : Double) (files handled : List RegularFile) : Prop where
  initial : handled <+: files
  within : ∀ shorter, shorter <+: handled → shorter ≠ handled → shorter ≠ [] →
    ¬Exceeds bytesLimit (totalSize shorter)
  complete : handled = files ∨ handled ≠ [] ∧ Exceeds bytesLimit (totalSize handled)

namespace HandledUpTo

variable {bytesLimit larger : Double} {files handled more : List RegularFile}

theorem length_le (first : HandledUpTo bytesLimit files handled)
    (second : HandledUpTo larger files more) (limited : bytesLimit ≠ .finite (-1))
    (ordered : bytesLimit.le larger = true) : handled.length ≤ more.length := by
  rcases second.complete with whole | ⟨nonempty, exceeds⟩
  · rw [whole]
    exact first.initial.length_le
  · by_contra longer
    have shorter : more <+: handled :=
      List.prefix_of_prefix_length_le second.initial first.initial (by omega)
    apply first.within more shorter _ nonempty
    · exact ⟨limited, Double.gt_of_gt_of_le exceeds.2 ordered⟩
    · intro same
      rw [same] at longer
      exact longer le_rfl

theorem dropLast_le (handles : HandledUpTo bytesLimit files handled)
    (nonnegative : (Double.finite 0).le bytesLimit = true) :
    (Double.finite (totalSize handled.dropLast)).le bytesLimit = true := by
  by_cases empty : handled.dropLast = []
  · simpa [empty, totalSize] using nonnegative
  have proper : handled.dropLast ≠ handled := by
    intro same
    have lengths := congrArg List.length same
    have positive := List.length_pos_of_ne_nil empty
    rw [List.length_dropLast] at lengths positive
    omega
  have below := handles.within _ (List.dropLast_prefix handled) proper empty
  cases bytesLimit with
  | finite limit =>
      simp only [Double.le, decide_eq_true_eq] at nonnegative
      have limited : Double.finite limit ≠ .finite (-1) := by
        intro same
        rw [Double.finite.injEq] at same
        linarith
      simpa [Exceeds, limited, Double.gt, Double.le] using below
  | infinity => rfl
  | negInfinity => simp [Double.le] at nonnegative
  | nan => simp [Double.le] at nonnegative

end HandledUpTo

namespace DBConnector

theorem totalSize_le_of_prefix {handled files : List RegularFile} (initial : handled <+: files) :
    totalSize handled ≤ totalSize files := by
  rcases initial with ⟨rest, rfl⟩
  simp [totalSize]

/-- On a fresh connector the test of the loop is the test of the exact sum. -/
theorem limitExceeded_foldl {bytesLimit : Double} {files : List RegularFile}
    (small : totalSize files < 2 ^ 53) :
    (files.foldl advance (construct bytesLimit)).limitExceeded = true ↔
      Exceeds bytesLimit (totalSize files) := by
  rw [limitExceeded, foldl_advance_mBytesLimit, toDouble_mTotalDataSize_construct bytesLimit small,
    Bool.and_eq_true, decide_eq_true_eq]
  rfl

theorem processed_initial (connector : DBConnector) (entries : List DirectoryEntry) :
    connector.processed entries <+: regularFiles entries :=
  Cutoff.takeThrough_prefix connector (regularFiles entries)

theorem processed_handledUpTo (bytesLimit : Double) {entries : List DirectoryEntry}
    (small : totalSize (regularFiles entries) < 2 ^ 53) :
    HandledUpTo bytesLimit (regularFiles entries) ((construct bytesLimit).processed entries) := by
  have initial := processed_initial (construct bytesLimit) entries
  constructor
  · exact initial
  · intro shorter shorterInitial proper nonempty exceeds
    have shorterSmall := totalSize_le_of_prefix (shorterInitial.trans initial)
    have running := Cutoff.not_stop_of_proper_prefix shorterInitial proper nonempty
    rw [(limitExceeded_foldl (by omega)).mpr exceeds] at running
    exact Bool.noConfusion running
  · have handledSmall := totalSize_le_of_prefix initial
    have ending : (construct bytesLimit).processed entries = regularFiles entries ∨
        (construct bytesLimit).processed entries ≠ [] ∧
          limitExceeded (((construct bytesLimit).processed entries).foldl advance
            (construct bytesLimit)) = true :=
      Cutoff.takeThrough_eq_or_stop (construct bytesLimit) (regularFiles entries)
    rcases ending with whole | ⟨nonempty, stopped⟩
    · exact .inl whole
    · exact .inr ⟨nonempty, (limitExceeded_foldl (by omega)).mp stopped⟩

theorem run_mLoadedObjects (bytesLimit : Double) (entries : List DirectoryEntry) :
    ((construct bytesLimit).run (some entries)).1.mLoadedObjects.toNat =
      ((construct bytesLimit).processed entries).length % 2 ^ 32 := by
  rw [run, loop_eq]
  exact toNat_mLoadedObjects_construct bytesLimit _

theorem run_mTotalDataSize (bytesLimit : Double) {entries : List DirectoryEntry}
    (small : totalSize (regularFiles entries) < 2 ^ 53) :
    ((construct bytesLimit).run (some entries)).1.mTotalDataSize.toDouble =
      .finite (totalSize ((construct bytesLimit).processed entries)) := by
  have handledSmall := totalSize_le_of_prefix (processed_initial (construct bytesLimit) entries)
  rw [run, loop_eq]
  exact toDouble_mTotalDataSize_construct bytesLimit (handledSmall.trans_lt small)

/--
A run on a fresh connector processes the regular files up to and including the first one
at which the running total exceeds the limit, sends one PUT and one GET for each of them
and counts their number modulo `2 ^ 32` and their bytes.
-/
theorem run_up_to_limit (bytesLimit : Double) (entries : List DirectoryEntry)
    (small : totalSize (regularFiles entries) < 2 ^ 53) :
    HandledUpTo bytesLimit (regularFiles entries) ((construct bytesLimit).processed entries) ∧
      ((construct bytesLimit).run (some entries)).2 =
        ((construct bytesLimit).processed entries).flatMap requestsFor ∧
      ((construct bytesLimit).run (some entries)).1.mLoadedObjects.toNat =
        ((construct bytesLimit).processed entries).length % 2 ^ 32 ∧
      ((construct bytesLimit).run (some entries)).1.mTotalDataSize.toDouble =
        .finite (totalSize ((construct bytesLimit).processed entries)) ∧
      ((Double.finite 0).le bytesLimit = true →
        (Double.finite (totalSize ((construct bytesLimit).processed entries).dropLast)).le
          bytesLimit = true) ∧
      (∀ larger : Double, bytesLimit ≠ .finite (-1) → bytesLimit.le larger = true →
        ((construct bytesLimit).processed entries).length ≤
          ((construct larger).processed entries).length) := by
  have handles := processed_handledUpTo bytesLimit small
  refine ⟨handles, ?_, run_mLoadedObjects bytesLimit entries, run_mTotalDataSize bytesLimit small,
    handles.dropLast_le, ?_⟩
  · simp [run, loop_eq]
  · intro larger limited ordered
    exact handles.length_le (processed_handledUpTo larger small) limited ordered

def sampleEntries : List DirectoryEntry :=
  [.other ['/', 'd'], .regular ⟨['/', 'd', '/', 'a', '.', 'r'], ['1', '2', '3'], 7⟩,
    .regular ⟨['/', 'd', '/', 'b', '.', 'r'], ['4', '5', '6'], 7⟩,
    .regular ⟨['/', 'd', '/', 'c', '.', 'r'], ['7'], 7⟩]

theorem run_up_to_limit_sample :
    totalSize (regularFiles sampleEntries) < 2 ^ 53 ∧
      ((construct (.finite 5)).run (some sampleEntries)).2 =
        [.put ['a'] ['1', '2', '3'], .get ['a'], .put ['b'] ['4', '5', '6'], .get ['b']] ∧
      ((construct (.finite 5)).run (some sampleEntries)).1.mLoadedObjects.toNat = 2 % 2 ^ 32 := by
  have small : totalSize (regularFiles sampleEntries) < 2 ^ 53 := by decide
  have spec := run_up_to_limit (.finite 5) sampleEntries small
  exact ⟨small, spec.2.1.trans (by decide +kernel), spec.2.2.1.trans (by decide +kernel)⟩

theorem processed_of_unlimited (entries : List DirectoryEntry) :
    (construct (.finite (-1))).processed entries = regularFiles entries := by
  apply @Cutoff.takeThrough_of_never _ _ advance limitExceeded
    fun connector => connector.mBytesLimit = .finite (-1)
  · intro connector file unlimited
    exact unlimited
  · intro connector unlimited
    simp [limitExceeded, unlimited]
  · rfl

/-- A file with a number as its name and an object of 1000 bytes. -/
def numberedFile (number : ℕ) : RegularFile :=
  ⟨"/root/charis/OCDB/".toList ++ decimal number ++ ".root".toList, List.replicate 1000 'x', 7⟩

def numberedFiles (count : ℕ) : List DirectoryEntry :=
  (List.range count).map fun number => .regular (numberedFile number)

theorem regularFiles_numberedFiles (count : ℕ) :
    regularFiles (numberedFiles count) = (List.range count).map numberedFile := by
  rw [regularFiles, numberedFiles, List.filterMap_map]
  exact congrFun List.filterMap_eq_map (List.range count)

theorem path_numberedFile_injective :
    Function.Injective fun number => (numberedFile number).path := by
  intro first second same
  exact decimal_injective (List.append_cancel_left (List.append_cancel_right same))

theorem totalSize_numberedFiles (count : ℕ) :
    totalSize (regularFiles (numberedFiles count)) = 1000 * count := by
  rw [regularFiles_numberedFiles, totalSize, List.map_map]
  have sizes : (fun file : RegularFile => file.object.length) ∘ numberedFile = fun _ => 1000 := by
    funext number
    exact List.length_replicate
  rw [sizes, List.map_const', List.length_range, List.sum_replicate, smul_eq_mul, Nat.mul_comm]

theorem length_processed_numberedFiles (count : ℕ) :
    ((construct (.finite (-1))).processed (numberedFiles count)).length = count := by
  rw [processed_of_unlimited, regularFiles_numberedFiles, List.length_map, List.length_range]

/--
After `2 ^ 32` processed files, with paths of their own and objects of some bytes, the object
counter is back at zero.
-/
theorem loadedObjects_wraps :
    ((regularFiles (numberedFiles (2 ^ 32))).map RegularFile.path).Nodup ∧
      (∀ file ∈ regularFiles (numberedFiles (2 ^ 32)), file.object.length = 1000) ∧
      totalSize (regularFiles (numberedFiles (2 ^ 32))) < 2 ^ 53 ∧
      ((construct (.finite (-1))).run (some (numberedFiles (2 ^ 32)))).1.mLoadedObjects.toNat ≠
        ((construct (.finite (-1))).processed (numberedFiles (2 ^ 32))).length := by
  refine ⟨?_, ?_, ?_, ?_⟩
  · rw [regularFiles_numberedFiles, List.map_map]
    exact List.nodup_range.map path_numberedFile_injective
  · rw [regularFiles_numberedFiles]
    intro file mem
    rcases List.mem_map.mp mem with ⟨number, _, rfl⟩
    exact List.length_replicate
  · rw [totalSize_numberedFiles]
    norm_num
  · rw [run_mLoadedObjects, length_processed_numberedFiles]
    norm_num

end DBConnector

end KeyValueClusterPerf
