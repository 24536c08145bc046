import KeyValueClusterPerf.AccessPattern.Measurement
import KeyValueClusterPerf.Foundations.Residues

/-!
# Elapsed time

The seconds and the nanoseconds of two clock readings are subtracted apart and in unsigned
arithmetic, where the nanoseconds wrap whenever a second ends between the readings. The sum
is nevertheless the exact difference if that fits in a word.
-/

namespace KeyValueClusterPerf

open Residues

namespace Timespec

/-- Time order: by the seconds, and within a second by the nanoseconds. -/
instance : LE Timespec where
  le start stop := start.tv_sec.toInt < stop.tv_sec.toInt ∨
    start.tv_sec.toInt = stop.tv_sec.toInt ∧ start.tv_nsec.toInt ≤ stop.tv_nsec.toInt

/-- The exact difference of two readings in nanoseconds. -/
def elapsed (start stop : Timespec) : ℤ :=
  (stop.tv_sec.toInt - start.tv_sec.toInt) * 10 ^ 9 + (stop.tv_nsec.toInt - start.tv_nsec.toInt)

theorem le_iff_elapsed {start stop : Timespec} : start ≤ stop ↔ 0 ≤ start.elapsed stop := by
  have startFraction := start.fraction
  have stopFraction := stop.fraction
  change _ ∨ _ ↔ _
  rw [elapsed]
  omega

end Timespec

/-- The unsigned difference has the residue of the exact one, for any two readings. -/
theorem represents_nanosecondsDifference (start stop : Timespec) :
    Represents (nanosecondsDifference start stop) (start.elapsed stop) := by
  have seconds := represents_toUInt64_sub stop.tv_sec start.tv_sec
  have nanoseconds := represents_toUInt64_sub stop.tv_nsec start.tv_nsec
  have sum := nanoseconds.add (seconds.mul (represents_toNat 1000000000))
  rw [add_comm (stop.tv_nsec.toInt - start.tv_nsec.toInt)] at sum
  exact sum

/-- The nanoseconds alone wrap if the later reading has fewer. -/
theorem toNat_nanoseconds_of_lt {start stop : Timespec}
    (fewer : stop.tv_nsec.toInt < start.tv_nsec.toInt) :
    ((stop.tv_nsec - start.tv_nsec).toUInt64.toNat : ℤ) =
      2 ^ 64 + (stop.tv_nsec.toInt - start.tv_nsec.toInt) := by
  have startFraction := start.fraction
  have stopFraction := stop.fraction
  have residue := represents_toUInt64_sub stop.tv_nsec start.tv_nsec
  have wrapped : Represents (stop.tv_nsec - start.tv_nsec).toUInt64
      (2 ^ 64 + (stop.tv_nsec.toInt - start.tv_nsec.toInt)) :=
    residue.trans (Int.modulus_add_modEq_iff.mpr Int.ModEq.rfl).symm
  exact wrapped.toNat_eq (by omega) (by omega)

/-- The difference that is divided by `1000.0` is exact. -/
theorem toNat_nanosecondsDifference {start stop : Timespec} (ordered : start ≤ stop)
    (bounded : (stop.tv_sec.toInt - start.tv_sec.toInt) * 10 ^ 9 +
      (stop.tv_nsec.toInt - start.tv_nsec.toInt) < 2 ^ 64) :
    ((nanosecondsDifference start stop).toNat : ℤ) =
      (stop.tv_sec.toInt - start.tv_sec.toInt) * 10 ^ 9 +
        (stop.tv_nsec.toInt - start.tv_nsec.toInt) :=
  (represents_nanosecondsDifference start stop).toNat_eq (Timespec.le_iff_elapsed.mp ordered)
    bounded

/-- Two hundred nanoseconds across the end of a second. -/
theorem toNat_nanosecondsDifference_across_second :
    ((nanosecondsDifference ⟨1, 999999900, by decide, by decide⟩
      ⟨2, 100, by decide, by decide⟩).toNat : ℤ) = (2 - 1) * 10 ^ 9 + (100 - 999999900) ∧
    (100 - 999999900 : Int64).toUInt64.toNat = 2 ^ 64 - 999999800 :=
  ⟨toNat_nanosecondsDifference (by left; decide) (by decide), by decide⟩

end KeyValueClusterPerf
