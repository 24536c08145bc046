import KeyValueClusterPerf.ConfigurationManager
import KeyValueClusterPerf.Foundations.Double

/-!
# Access patterns

An access pattern draws its accesses from `rand()` and lists the pairs with which a
database has to be initialised before. The four patterns of the source draw their keys in
the same way and list the same pairs. `OCDB` and `Random` draw before each key whether the
access is a read; for the other two this is fixed.

Keys are `int`s, so their arithmetic has no defined result on overflow. The division of two
`int`s as doubles is a parameter, so that its rounding can be left open.
-/

namespace KeyValueClusterPerf

open Texts Doubles CheckedInts

/-- The fields of the configuration that access patterns and value distributions read. -/
structure AccessConfiguration where
  accessPatternMinKey : Int32
  accessPatternMaxKey : Int32
  accessPatternReadWriteRatio : Double
  valueDistributionSize : Int32

def RAND_MAX : Int32 := 2147483647

structure Rand where
  value : Int32
  natural : 0 ≤ value.toInt
  bounded : value.toInt ≤ RAND_MAX.toInt

structure ConstantValueDistribution where
  valueString : Text

namespace ConstantValueDistribution

/-- The buffer with `size - 1` characters and a NUL has to have room for the NUL. -/
def construct (config : AccessConfiguration) : Option ConstantValueDistribution :=
  let size := config.valueDistributionSize.toInt
  if size < 1 then none
  else some ⟨cString (List.replicate (size - 1).toNat 'X' ++ [nul])⟩

def getNext (distribution : ConstantValueDistribution) : Text :=
  distribution.valueString

end ConstantValueDistribution

structure SingleAccess where
  read : Bool
  key : Text
  value : Text

structure KeyRange where
  minKey : Int32
  maxKey : Int32

namespace KeyRange

def construct (config : AccessConfiguration) : KeyRange :=
  ⟨config.accessPatternMinKey, config.accessPatternMaxKey⟩

/-- The key `rand() % (maxKey - minKey) + minKey`. -/
def key (range : KeyRange) (random : Rand) : Option Int32 :=
  match sub range.maxKey range.minKey with
  | none => none
  | some width =>
      match rem random.value width with
      | none => none
      | some offset => add offset range.minKey

/-- The loop over the keys; the increment that follows the last key has to be defined, too. -/
def initialise (maxKey : Int32) (value : Text) (i : Int32) (keyValuePairs : StringMap) :
    Option StringMap :=
  if i.toInt ≤ maxKey.toInt then
    match _incremented : add i 1 with
    | none => none
    | some following =>
        initialise maxKey value following (keyValuePairs.insert (decimalInt i.toInt) value)
  else some keyValuePairs
termination_by (maxKey.toInt + 1 - i.toInt).toNat
decreasing_by
  have step := toInt_of_checked _incremented
  have one : (1 : Int32).toInt = 1 := rfl
  omega

def keyValuePairs (range : KeyRange)
    (valueDistribution : ConstantValueDistribution) : Option StringMap :=
  initialise range.maxKey valueDistribution.getNext range.minKey ∅

def access (range : KeyRange) (read : Bool) (valueDistribution : ConstantValueDistribution)
    (random : Rand) : Option SingleAccess :=
  (range.key random).map fun key => ⟨read, decimalInt key.toInt, valueDistribution.getNext⟩

end KeyRange

/-- A range of keys with a border between the reads and the writes. -/
structure MixedPattern extends KeyRange where
  readWriteBorder : Double

namespace MixedPattern

/-- The border of the ratio, which has been truncated to an `int` before. -/
def construct (divide : ℤ → ℤ → Double) (config : AccessConfiguration) : Option MixedPattern :=
  config.accessPatternReadWriteRatio.truncate.map fun readWriteRatio =>
    ⟨.construct config, divide readWriteRatio.toInt (1 + readWriteRatio.toInt)⟩

def reads (divide : ℤ → ℤ → Double) (pattern : MixedPattern) (random : Rand) : Bool :=
  let readOrWrite := divide random.value.toInt RAND_MAX.toInt
  if readOrWrite.gt pattern.readWriteBorder then false else true

def getNext (divide : ℤ → ℤ → Double) (pattern : MixedPattern)
    (valueDistribution : ConstantValueDistribution) (rands : Stream' Rand) :
    Option (SingleAccess × Stream' Rand) :=
  (pattern.access (pattern.reads divide rands.head) valueDistribution rands.tail.head).map
    (·, rands.tail.tail)

end MixedPattern

/-- The next access of a pattern that only reads or only writes. -/
def KeyRange.getNext (read : Bool) (range : KeyRange)
    (valueDistribution : ConstantValueDistribution) (rands : Stream' Rand) :
    Option (SingleAccess × Stream' Rand) :=
  (range.access read valueDistribution rands.head).map (·, rands.tail)

structure OCDBAccessPattern extends MixedPattern
structure RandomAccessPattern extends MixedPattern
structure ReadOnlyAccessPattern extends KeyRange
structure WriteOnlyAccessPattern extends KeyRange

section Patterns

variable (divide : ℤ → ℤ → Double) (config : AccessConfiguration)
  (valueDistribution : ConstantValueDistribution) (rands : Stream' Rand)

def OCDBAccessPattern.construct : Option OCDBAccessPattern :=
  (MixedPattern.construct divide config).map OCDBAccessPattern.mk

def OCDBAccessPattern.getNext (pattern : OCDBAccessPattern) :
    Option (SingleAccess × Stream' Rand) :=
  pattern.toMixedPattern.getNext divide valueDistribution rands

def OCDBAccessPattern.getInitialisationKeyValuePairs (pattern : OCDBAccessPattern) :
    Option StringMap :=
  pattern.keyValuePairs valueDistribution

def RandomAccessPattern.construct : Option RandomAccessPattern :=
  (MixedPattern.construct divide config).map RandomAccessPattern.mk

def RandomAccessPattern.getNext (pattern : RandomAccessPattern) :
    Option (SingleAccess × Stream' Rand) :=
  pattern.toMixedPattern.getNext divide valueDistribution rands

def RandomAccessPattern.getInitialisationKeyValuePairs (pattern : RandomAccessPattern) :
    Option StringMap :=
  pattern.keyValuePairs valueDistribution

def ReadOnlyAccessPattern.construct : ReadOnlyAccessPattern :=
  ⟨.construct config⟩

def ReadOnlyAccessPattern.getNext (pattern : ReadOnlyAccessPattern) :
    Option (SingleAccess × Stream' Rand) :=
  KeyRange.getNext true pattern.toKeyRange valueDistribution rands

def ReadOnlyAccessPattern.getInitialisationKeyValuePairs (pattern : ReadOnlyAccessPattern) :
    Option StringMap :=
  pattern.keyValuePairs valueDistribution

def WriteOnlyAccessPattern.construct : WriteOnlyAccessPattern :=
  ⟨.construct config⟩

def WriteOnlyAccessPattern.getNext (pattern : WriteOnlyAccessPattern) :
    Option (SingleAccess × Stream' Rand) :=
  KeyRange.getNext false pattern.toKeyRange valueDistribution rands

def WriteOnlyAccessPattern.getInitialisationKeyValuePairs (pattern : WriteOnlyAccessPattern) :
    Option StringMap :=
  pattern.keyValuePairs valueDistribution

end Patterns

/-- The abstract class, with its four subclasses. -/
inductive AccessPattern
  | OCDB (pattern : OCDBAccessPattern)
  | Random (pattern : RandomAccessPattern)
  | ReadOnly (pattern : ReadOnlyAccessPattern)
  | WriteOnly (pattern : WriteOnlyAccessPattern)

namespace AccessPattern

def range : AccessPattern → KeyRange
  | .OCDB pattern => pattern.toKeyRange
  | .Random pattern => pattern.toKeyRange
  | .ReadOnly pattern => pattern.toKeyRange
  | .WriteOnly pattern => pattern.toKeyRange

def getNext (divide : ℤ → ℤ → Double) (pattern : AccessPattern)
    (valueDistribution : ConstantValueDistribution) (rands : Stream' Rand) :
    Option (SingleAccess × Stream' Rand) :=
  match pattern with
  | .OCDB pattern => pattern.getNext divide valueDistribution rands
  | .Random pattern => pattern.getNext divide valueDistribution rands
  | .ReadOnly pattern => pattern.getNext valueDistribution rands
  | .WriteOnly pattern => pattern.getNext valueDistribution rands

def getInitialisationKeyValuePairs (pattern : AccessPattern)
    (valueDistribution : ConstantValueDistribution) : Option StringMap :=
  match pattern with
  | .OCDB pattern => pattern.getInitialisationKeyValuePairs valueDistribution
  | .Random pattern => pattern.getInitialisationKeyValuePairs valueDistribution
  | .ReadOnly pattern => pattern.getInitialisationKeyValuePairs valueDistribution
  | .WriteOnly pattern => pattern.getInitialisationKeyValuePairs valueDistribution

end AccessPattern

end KeyValueClusterPerf
