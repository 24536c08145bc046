import KeyValueClusterPerf.DBConnector.Limit
import KeyValueClusterPerf.DBConnector.Results
import KeyValueClusterPerf.Foundations.PrintedNumber

/-!
# The reported size

The number of bytes is counted exactly, as a double, but printed in the default format. So
the reported size is the total rounded to six significant digits, and it is the total
itself exactly if that has no more.
-/

namespace KeyValueClusterPerf

open Texts Doubles

namespace DBConnector

/-- The size that a connector reports after it has loaded some files. -/
def reportedSize (format : DurationFormat) (bytesLimit : Double) (hostname : Hostname)
    (files : List RegularFile) : Option Text :=
  ((files.foldl advance (construct bytesLimit)).getResults format hostname)[sizeKey]?

/-- The reported size denotes the total number of bytes. -/
def SizeExact (format : DurationFormat) (bytesLimit : Double) (hostname : Hostname)
    (files : List RegularFile) : Prop :=
  ∃ text, reportedSize format bytesLimit hostname files = some text ∧
    denoted text = some (totalSize files : ℚ)

theorem reportedSize_eq (format : DurationFormat) (bytesLimit : Double) (hostname : Hostname)
    {files : List RegularFile} (small : totalSize files < 2 ^ 53) :
    reportedSize format bytesLimit hostname files = some (generalFormat (totalSize files)) := by
  have total := toDouble_mTotalDataSize_construct bytesLimit small
  rw [reportedSize, getElem?_sizeKey, sizeText, NatDouble.text_of_toDouble total]

/--
The reported size is exact exactly for totals with at most six significant digits, and two
connectors report the same size exactly if their totals agree after rounding to six digits.
-/
theorem sizeExact_iff (format : DurationFormat) (bytesLimit : Double) (hostname : Hostname)
    {files : List RegularFile} (small : totalSize files < 2 ^ 53) :
    (SizeExact format bytesLimit hostname files ↔ SixDigits (totalSize files)) ∧
      ∀ otherLimit otherHost others, totalSize others < 2 ^ 53 →
        (reportedSize format bytesLimit hostname files =
            reportedSize format otherLimit otherHost others ↔
          roundSixDigits (totalSize files) = roundSixDigits (totalSize others)) := by
  have reported := reportedSize_eq format bytesLimit hostname small
  constructor
  · rw [← roundSixDigits_eq_iff]
    constructor
    · rintro ⟨text, textEq, exact⟩
      rw [reported, Option.some.injEq] at textEq
      rw [← textEq, denoted_generalFormat] at exact
      exact_mod_cast Option.some.inj exact
    · intro kept
      refine ⟨_, reported, ?_⟩
      rw [denoted_generalFormat, kept]
  · intro otherLimit otherHost others othersSmall
    rw [reported, reportedSize_eq format otherLimit otherHost othersSmall, Option.some.injEq]
    exact generalFormat_eq_iff _ _

/-- A file with an object of the given number of bytes. -/
def fileOfSize (size : ℕ) : RegularFile :=
  ⟨['/', 'd', '/', 'a', '.', 'r'], List.replicate size 'x', 7⟩

theorem totalSize_fileOfSize (size : ℕ) : totalSize [fileOfSize size] = size := by
  rw [totalSize, List.map_singleton, List.sum_singleton]
  exact List.length_replicate

theorem sizeExact_fileOfSize :
    SizeExact clockDurations (.finite (-1)) sampleHost [fileOfSize 1234000] := by
  apply (sizeExact_iff _ _ _ _).1.mpr
  · exact ⟨1234, 3, by norm_num, by rw [totalSize_fileOfSize]; norm_num⟩
  · rw [totalSize_fileOfSize]
    norm_num

/-- Totals of 1234567 and of 1234568 bytes are both reported as 1234570 bytes. -/
theorem size_rounded :
    totalSize [fileOfSize 1234567] = 1234567 ∧ totalSize [fileOfSize 1234568] = 1234568 ∧
      ¬SizeExact clockDurations (.finite (-1)) sampleHost [fileOfSize 1234567] ∧
        reportedSize clockDurations (.finite (-1)) sampleHost [fileOfSize 1234567] =
          reportedSize clockDurations (.finite (-1)) sampleHost [fileOfSize 1234568] := by
  have rounded : roundSixDigits 1234567 = 1234570 ∧ roundSixDigits 1234568 = 1234570 := by
    decide +kernel
  have small : totalSize [fileOfSize 1234567] < 2 ^ 53 := by
    rw [totalSize_fileOfSize]
    norm_num
  have otherSmall : totalSize [fileOfSize 1234568] < 2 ^ 53 := by
    rw [totalSize_fileOfSize]
    norm_num
  refine ⟨totalSize_fileOfSize _, totalSize_fileOfSize _, ?_, ?_⟩
  · rintro ⟨text, textEq, exact⟩
    rw [reportedSize_eq _ _ _ small, Option.some.injEq] at textEq
    rw [← textEq, denoted_generalFormat, totalSize_fileOfSize, rounded.1] at exact
    norm_num at exact
  · rw [reportedSize_eq _ _ _ small, reportedSize_eq _ _ _ otherSmall, totalSize_fileOfSize,
      totalSize_fileOfSize, (generalFormat_eq_iff _ _).mpr (rounded.1.trans rounded.2.symm)]

end DBConnector

end KeyValueClusterPerf
