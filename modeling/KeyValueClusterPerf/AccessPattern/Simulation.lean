import KeyValueClusterPerf.AccessPattern.Keys
import KeyValueClusterPerf.Foundations.LastWriteWins

/-!
# Simulated accesses to a database

`burnInOut` and `simulate` perform the accesses of a pattern on a key/value database, which
`initialise` has filled with the pairs of the pattern before. The keys that `getNext` draws
and those that `initialise` writes come from two pieces of code. For a range that both have
defined results for, the first are among the second: so every read finds its key, and as
there is only one value, no write changes the database.
-/

namespace KeyValueClusterPerf

open Texts Doubles CheckedInts LastWriteWins

abbrev KeyValueDB := Store Text Text

/-- Puts every pair of the map, in its order. -/
def KeyValueDB.initialise (keyValueDB : KeyValueDB) (keyValuePairs : StringMap) : KeyValueDB :=
  keyValueDB.putAll keyValuePairs.toList

/-- A call of the database and, if it reads, what it finds. -/
inductive DatabaseCall
  | getValue (key : Text) (found : Option Text)
  | putValue (key value : Text)

/-- What an access works on: the database and the random numbers to come. -/
structure AccessState where
  keyValueDB : KeyValueDB
  rands : Stream' Rand

section Accesses

variable (divide : ℤ → ℤ → Double) (pattern : AccessPattern)
  (valueDistribution : ConstantValueDistribution)

def performAccess (state : AccessState) : Option (DatabaseCall × AccessState) :=
  match pattern.getNext divide valueDistribution state.rands with
  | none => none
  | some (singleAccess, rands) =>
      if singleAccess.read then
        some (.getValue singleAccess.key (state.keyValueDB singleAccess.key),
          ⟨state.keyValueDB, rands⟩)
      else
        some (.putValue singleAccess.key singleAccess.value,
          ⟨state.keyValueDB.put singleAccess.key singleAccess.value, rands⟩)

def performAccesses : ℕ → AccessState → Option (List DatabaseCall × AccessState)
  | 0, state => some ([], state)
  | runs + 1, state =>
      match performAccess divide pattern valueDistribution state with
      | none => none
      | some (call, next) =>
          (performAccesses runs next).map fun (calls, last) => (call :: calls, last)

/-- `burnInOut` of the simulator and of the database connector. -/
def burnInOut (runs : Int32) (state : AccessState) : Option (List DatabaseCall × AccessState) :=
  performAccesses divide pattern valueDistribution runs.toInt.toNat state

structure Simulator where
  reads : Int32
  writes : Int32

namespace Simulator

def construct : Simulator := ⟨0, 0⟩

def count (simulator : Simulator) : DatabaseCall → Option Simulator
  | .getValue _ _ => (add simulator.reads 1).map fun reads => { simulator with reads := reads }
  | .putValue _ _ => (add simulator.writes 1).map fun writes => { simulator with writes := writes }

/-- The loop of `simulate`. -/
def simulateLoop : ℕ → Simulator → AccessState →
    Option (Simulator × List DatabaseCall × AccessState)
  | 0, simulator, state => some (simulator, [], state)
  | runs + 1, simulator, state =>
      match performAccess divide pattern valueDistribution state with
      | none => none
      | some (call, next) =>
          match simulator.count call with
          | none => none
          | some counted =>
              (simulateLoop runs counted next).map fun (last, calls, state) =>
                (last, call :: calls, state)

end Simulator

end Accesses

/-- The ranges for which the keys are drawn and listed without overflow. -/
structure KeyRange.Valid (range : KeyRange) : Prop where
  ordered : range.minKey.toInt < range.maxKey.toInt
  belowMax : range.maxKey.toInt < Int32.maxValue.toInt
  widthRepresentable : range.maxKey.toInt - range.minKey.toInt ≤ Int32.maxValue.toInt

/-- The decimal texts of the keys from one bound up to, but not including, another. -/
def keyTexts (lower upper : ℤ) : Set Text :=
  {text | ∃ key : ℤ, lower ≤ key ∧ key < upper ∧ text = decimalInt key}

theorem insert_keyTexts {lower upper : ℤ} (ordered : lower ≤ upper) :
    insert (decimalInt upper) (keyTexts lower upper) = keyTexts lower (upper + 1) := by
  ext text
  constructor
  · rintro (rfl | ⟨key, above, below, rfl⟩)
    · exact ⟨upper, ordered, by omega, rfl⟩
    · exact ⟨key, above, by omega, rfl⟩
  · rintro ⟨key, above, below, rfl⟩
    rcases eq_or_ne key upper with rfl | distinct
    · exact Set.mem_insert _ _
    · exact Set.mem_insert_of_mem _ ⟨key, above, by omega, rfl⟩

def storeOf (pairs : StringMap) : Store Text Text :=
  fun key => pairs[key]?

theorem storeOf_insert (pairs : StringMap) (key value : Text) :
    storeOf (pairs.insert key value) = (storeOf pairs).put key value := by
  funext other
  rw [storeOf, Std.ExtTreeMap.getElem?_insert]
  rcases eq_or_ne other key with rfl | distinct
  · simp
  · rw [Store.put_of_ne _ _ distinct, if_neg]
    · rfl
    · simpa using distinct.symm

/-- Initialising an empty database leaves exactly the pairs of the map in it. -/
theorem initialise_empty (pairs : StringMap) :
    KeyValueDB.initialise Store.empty pairs = storeOf pairs := by
  funext key
  apply Option.ext
  intro value
  rw [KeyValueDB.initialise, putAll_empty_iff]
  · exact Std.ExtTreeMap.mem_toList_iff_getElem?_eq_some
  · rintro ⟨first, firstValue⟩ firstMem ⟨second, secondValue⟩ secondMem rfl
    have firstFound := Std.ExtTreeMap.mem_toList_iff_getElem?_eq_some.mp firstMem
    have secondFound := Std.ExtTreeMap.mem_toList_iff_getElem?_eq_some.mp secondMem
    exact Option.some.inj (firstFound.symm.trans secondFound)

namespace KeyRange

variable {range : KeyRange}

/-- The texts of all keys of a range, both bounds included. -/
def texts (range : KeyRange) : Set Text :=
  keyTexts range.minKey.toInt (range.maxKey.toInt + 1)

theorem initialise_of_increment {maxKey i following : Int32} {value : Text}
    (pairs : StringMap) (inside : i.toInt ≤ maxKey.toInt)
    (incremented : add i 1 = some following) :
    initialise maxKey value i pairs =
      initialise maxKey value following (pairs.insert (decimalInt i.toInt) value) := by
  rw [initialise, if_pos inside]
  split
  · rename_i overflow
    simp [incremented] at overflow
  · rename_i other found
    rcases Option.some.inj (incremented.symm.trans found) with rfl
    rfl

/-- The loop over the keys adds the keys from its counter on. -/
theorem exists_initialise {maxKey i : Int32} {value : Text} {pairs : StringMap} {lower : ℤ}
    (belowMax : maxKey.toInt < Int32.maxValue.toInt) (above : lower ≤ i.toInt)
    (notPast : i.toInt ≤ maxKey.toInt + 1)
    (constant : (storeOf pairs).ConstantOn (keyTexts lower i.toInt) value) :
    ∃ result, initialise maxKey value i pairs = some result ∧
      (storeOf result).ConstantOn (keyTexts lower (maxKey.toInt + 1)) value := by
  induction i, pairs using initialise.induct maxKey value with
  | case1 i pairs inside overflow =>
      rcases exists_increment (lt_of_le_of_lt inside belowMax) with ⟨following, defined, _⟩
      simp [defined] at overflow
  | case2 i pairs inside following incremented ih =>
      have one : (1 : Int32).toInt = 1 := rfl
      have followingEq : following.toInt = i.toInt + 1 := toInt_of_checked incremented
      have extended := constant.put (decimalInt i.toInt)
      rw [← storeOf_insert, insert_keyTexts above, ← followingEq] at extended
      rw [initialise_of_increment pairs inside incremented]
      exact ih (by omega) (by omega) extended
  | case3 i pairs outside =>
      refine ⟨pairs, ?_, ?_⟩
      · rw [initialise, if_neg outside]
      · have ended : i.toInt = maxKey.toInt + 1 := by omega
        rwa [← ended]

/-- The pairs for the database hold the value of the distribution under the keys of the range. -/
theorem exists_keyValuePairs (ordered : range.minKey.toInt ≤ range.maxKey.toInt)
    (belowMax : range.maxKey.toInt < Int32.maxValue.toInt)
    (valueDistribution : ConstantValueDistribution) :
    ∃ pairs, range.keyValuePairs valueDistribution = some pairs ∧
      (storeOf pairs).ConstantOn range.texts valueDistribution.getNext := by
  apply exists_initialise belowMax le_rfl (by omega)
  have nothing : keyTexts range.minKey.toInt range.minKey.toInt = ∅ := by
    ext text
    simp [keyTexts]
    omega
  have empty : storeOf ∅ = Store.empty := by
    funext key
    simp [storeOf, Store.empty]
  rw [nothing, empty]
  exact constantOn_empty _

theorem Valid.drawable (valid : range.Valid) : range.Drawable :=
  ⟨valid.ordered, valid.widthRepresentable⟩

theorem Valid.exists_access (valid : range.Valid) (read : Bool)
    (valueDistribution : ConstantValueDistribution) (random : Rand) :
    ∃ singleAccess, range.access read valueDistribution random = some singleAccess ∧
      singleAccess.key ∈ range.texts ∧ singleAccess.value = valueDistribution.getNext := by
  rcases valid.drawable.exists_key random with ⟨key, keyEq, _⟩
  have bounds := valid.drawable.key_bounds keyEq
  refine ⟨⟨read, decimalInt key.toInt, valueDistribution.getNext⟩, ?_, ?_, rfl⟩
  · rw [access, keyEq]
    rfl
  · exact ⟨key.toInt, bounds.1, by omega, rfl⟩

end KeyRange

section Accesses

variable (divide : ℤ → ℤ → Double) {pattern : AccessPattern}
  (valueDistribution : ConstantValueDistribution)

/-- Every pattern yields a next access, to one of the keys and with the value. -/
theorem AccessPattern.exists_getNext (valid : pattern.range.Valid) (rands : Stream' Rand) :
    ∃ singleAccess later,
      pattern.getNext divide valueDistribution rands = some (singleAccess, later) ∧
        singleAccess.key ∈ pattern.range.texts ∧
        singleAccess.value = valueDistribution.getNext := by
  rcases valid.exists_access (pattern.reading divide rands) valueDistribution
    (pattern.keyRand rands) with ⟨singleAccess, accessEq, facts⟩
  refine ⟨singleAccess, pattern.afterAccess rands, ?_, facts⟩
  rw [AccessPattern.getNext_eq, accessEq]
  rfl

theorem AccessPattern.getInitialisationKeyValuePairs_eq (pattern : AccessPattern) :
    pattern.getInitialisationKeyValuePairs valueDistribution =
      pattern.range.keyValuePairs valueDistribution := by
  cases pattern <;> rfl

/-- The key of a call exists, and the value that is found or written is the given one. -/
def DatabaseCall.Existing (keys : Set Text) (value : Text) : DatabaseCall → Prop
  | .getValue key found => key ∈ keys ∧ found = some value
  | .putValue key written => key ∈ keys ∧ written = value

/-- Calls to existing keys only, with a database that still has these keys and this value. -/
structure OnlyExisting (keys : Set Text) (value : Text) (calls : List DatabaseCall)
    (keyValueDB : KeyValueDB) : Prop where
  calls : ∀ call ∈ calls, call.Existing keys value
  keySet : ∀ key, (keyValueDB key).isSome ↔ key ∈ keys
  values : ∀ key found, keyValueDB key = some found → found = value

theorem exists_performAccess (valid : pattern.range.Valid) {state : AccessState}
    (constant : state.keyValueDB.ConstantOn pattern.range.texts valueDistribution.getNext) :
    ∃ call next, performAccess divide pattern valueDistribution state = some (call, next) ∧
      call.Existing pattern.range.texts valueDistribution.getNext ∧
      next.keyValueDB.ConstantOn pattern.range.texts valueDistribution.getNext := by
  rcases pattern.exists_getNext divide valueDistribution valid state.rands with
    ⟨singleAccess, later, nextEq, keyMem, valueEq⟩
  cases read : singleAccess.read with
  | true =>
      refine ⟨.getValue singleAccess.key (state.keyValueDB singleAccess.key),
        ⟨state.keyValueDB, later⟩, ?_, ?_, constant⟩
      · rw [performAccess, nextEq]
        simp [read]
      · exact ⟨keyMem, (constant _ _).mpr ⟨keyMem, rfl⟩⟩
  | false =>
      refine ⟨.putValue singleAccess.key singleAccess.value,
        ⟨state.keyValueDB.put singleAccess.key singleAccess.value, later⟩, ?_, ?_, ?_⟩
      · rw [performAccess, nextEq]
        simp [read]
      · exact ⟨keyMem, valueEq⟩
      · rw [valueEq]
        exact constant.put_mem keyMem

section Draws

variable {divide valueDistribution}

/-- What an access does once its key is drawn. -/
theorem performAccess_eq (state : AccessState) :
    performAccess divide pattern valueDistribution state =
      (pattern.range.key (pattern.keyRand state.rands)).map fun key =>
        if pattern.reading divide state.rands then
          (.getValue (decimalInt key.toInt) (state.keyValueDB (decimalInt key.toInt)),
            ⟨state.keyValueDB, pattern.afterAccess state.rands⟩)
        else
          (.putValue (decimalInt key.toInt) valueDistribution.getNext,
            ⟨state.keyValueDB.put (decimalInt key.toInt) valueDistribution.getNext,
              pattern.afterAccess state.rands⟩) := by
  rw [performAccess, AccessPattern.getNext_eq, KeyRange.access]
  cases pattern.range.key (pattern.keyRand state.rands) with
  | none => rfl
  | some key =>
      simp only [Option.map_some]
      split
      · rfl
      · rfl

theorem exists_performAccess_iff (state : AccessState) :
    (∃ call next, performAccess divide pattern valueDistribution state = some (call, next)) ↔
      pattern.range.Draws (pattern.keyRand state.rands) := by
  rw [performAccess_eq, ← KeyRange.exists_key_iff]
  constructor
  · rintro ⟨call, next, performed⟩
    rcases Option.map_eq_some_iff.mp performed with ⟨key, keyEq, _⟩
    exact ⟨key, keyEq⟩
  · rintro ⟨key, keyEq⟩
    rw [keyEq, Option.map_some]
    exact ⟨_, _, rfl⟩

theorem rands_of_performAccess {state next : AccessState} {call : DatabaseCall}
    (performed : performAccess divide pattern valueDistribution state = some (call, next)) :
    next.rands = pattern.afterAccess state.rands := by
  rw [performAccess_eq, Option.map_eq_some_iff] at performed
  rcases performed with ⟨key, _, same⟩
  split at same
  · rcases Prod.mk.inj same with ⟨_, rfl⟩
    rfl
  · rcases Prod.mk.inj same with ⟨_, rfl⟩
    rfl

/-- Accesses are defined exactly if each of their draws is. -/
theorem exists_performAccesses_iff {runs : ℕ} {state : AccessState} :
    (∃ calls last, performAccesses divide pattern valueDistribution runs state =
      some (calls, last)) ↔
      ∀ i < runs, pattern.range.Draws (pattern.keyRand (pattern.afterAccesses state.rands i)) := by
  induction runs generalizing state with
  | zero =>
      constructor
      · intro _ i impossible
        exact absurd impossible (Nat.not_lt_zero i)
      · intro _
        exact ⟨[], state, rfl⟩
  | succ runs ih =>
      rw [Nat.forall_lt_succ_left]
      simp only [pattern.afterAccesses_succ]
      constructor
      · rintro ⟨calls, last, performed⟩
        rw [performAccesses] at performed
        cases access : performAccess divide pattern valueDistribution state with
        | none => simp [access] at performed
        | some taken =>
            rcases taken with ⟨call, next⟩
            simp only [access, Option.map_eq_some_iff] at performed
            rcases performed with ⟨⟨later, final⟩, laterEq, _⟩
            refine ⟨(exists_performAccess_iff state).mp ⟨call, next, access⟩, ?_⟩
            rw [← rands_of_performAccess access]
            exact ih.mp ⟨later, final, laterEq⟩
      · rintro ⟨draws, laterDraw⟩
        rcases (@exists_performAccess_iff divide _ valueDistribution state).mpr draws with
          ⟨call, next, access⟩
        rw [← rands_of_performAccess access] at laterDraw
        rcases ih.mpr laterDraw with ⟨later, last, laterEq⟩
        refine ⟨call :: later, last, ?_⟩
        simp only [performAccesses, access, laterEq, Option.map_some]

/-- Accesses are defined on every database if their keys can be drawn. -/
theorem exists_performAccesses_of_drawable (drawable : pattern.range.Drawable) (runs : ℕ)
    (state : AccessState) :
    ∃ calls last, performAccesses divide pattern valueDistribution runs state =
      some (calls, last) := by
  apply exists_performAccesses_iff.mpr
  intro i _
  rcases drawable.exists_key (pattern.keyRand (pattern.afterAccesses state.rands i)) with
    ⟨key, keyEq, _⟩
  exact KeyRange.exists_key_iff.mp ⟨key, keyEq⟩

end Draws

/-- A loop of accesses leaves the database as it is and finds every key it reads. -/
theorem exists_performAccesses (valid : pattern.range.Valid) (runs : ℕ) {state : AccessState}
    (constant : state.keyValueDB.ConstantOn pattern.range.texts valueDistribution.getNext) :
    ∃ calls last, performAccesses divide pattern valueDistribution runs state =
        some (calls, last) ∧ calls.length = runs ∧
      OnlyExisting pattern.range.texts valueDistribution.getNext calls last.keyValueDB := by
  induction runs generalizing state with
  | zero =>
      refine ⟨[], state, rfl, rfl, ?_⟩
      constructor
      · simp
      · exact constant.isSome_iff
      · intro key found holds
        exact ((constant key found).mp holds).2
  | succ runs ih =>
      rcases exists_performAccess divide valueDistribution valid constant with
        ⟨call, next, nextEq, existing, stillConstant⟩
      rcases ih stillConstant with ⟨calls, last, callsEq, lengthEq, only⟩
      refine ⟨call :: calls, last, ?_, ?_, ?_⟩
      · simp only [performAccesses, nextEq, callsEq, Option.map_some]
      · rw [List.length_cons, lengthEq]
      · constructor
        · intro other mem
          rcases List.mem_cons.mp mem with rfl | laterMem
          · exact existing
          · exact only.calls other laterMem
        · exact only.keySet
        · exact only.values

variable {divide valueDistribution}

/-- The loop begins with an access that can be counted. -/
theorem exists_of_simulateLoop_succ {runs : ℕ} {simulator counted : Simulator}
    {state last : AccessState} {calls : List DatabaseCall}
    (simulated : Simulator.simulateLoop divide pattern valueDistribution (runs + 1) simulator
      state = some (counted, calls, last)) :
    ∃ call next increased later,
      performAccess divide pattern valueDistribution state = some (call, next) ∧
        simulator.count call = some increased ∧
          Simulator.simulateLoop divide pattern valueDistribution runs increased next =
              some (counted, later, last) ∧
            calls = call :: later := by
  rw [Simulator.simulateLoop] at simulated
  cases access : performAccess divide pattern valueDistribution state with
  | none => simp [access] at simulated
  | some taken =>
      rcases taken with ⟨call, next⟩
      simp only [access] at simulated
      cases counts : simulator.count call with
      | none => simp [counts] at simulated
      | some increased =>
          simp only [counts, Option.map_eq_some_iff, Prod.mk.injEq] at simulated
          rcases simulated with ⟨⟨final, later, final⟩, laterEq, rfl, rfl, rfl⟩
          exact ⟨call, next, increased, later, rfl, counts, laterEq, rfl⟩

/-- `simulate` performs the accesses that `burnInOut` would perform. -/
theorem performAccesses_of_simulateLoop {runs : ℕ} {simulator counted : Simulator}
    {state last : AccessState} {calls : List DatabaseCall}
    (simulated : Simulator.simulateLoop divide pattern valueDistribution runs simulator state =
      some (counted, calls, last)) :
    performAccesses divide pattern valueDistribution runs state = some (calls, last) := by
  induction runs generalizing simulator state calls with
  | zero =>
      simp only [Simulator.simulateLoop, Option.some.injEq, Prod.mk.injEq] at simulated
      rcases simulated with ⟨_, rfl, rfl⟩
      rfl
  | succ runs ih =>
      rcases exists_of_simulateLoop_succ simulated with
        ⟨call, next, increased, later, access, _, laterEq, rfl⟩
      simp only [performAccesses, access, ih laterEq, Option.map_some]

theorem Simulator.exists_count {simulator : Simulator} {bound : ℤ}
    (readsNatural : 0 ≤ simulator.reads.toInt) (writesNatural : 0 ≤ simulator.writes.toInt)
    (room : simulator.reads.toInt + simulator.writes.toInt + bound ≤ Int32.maxValue.toInt)
    (positive : 1 ≤ bound) (call : DatabaseCall) :
    ∃ counted, simulator.count call = some counted ∧ 0 ≤ counted.reads.toInt ∧
      0 ≤ counted.writes.toInt ∧ counted.reads.toInt + counted.writes.toInt =
        simulator.reads.toInt + simulator.writes.toInt + 1 := by
  cases call with
  | getValue _ _ =>
      rcases exists_increment (by omega : simulator.reads.toInt < Int32.maxValue.toInt) with
        ⟨reads, readsEq, value⟩
      refine ⟨⟨reads, simulator.writes⟩, ?_, ?_, writesNatural, ?_⟩
      · rw [count, readsEq]
        rfl
      · dsimp only
        omega
      · dsimp only
        omega
  | putValue _ _ =>
      rcases exists_increment (by omega : simulator.writes.toInt < Int32.maxValue.toInt) with
        ⟨writes, writesEq, value⟩
      refine ⟨⟨simulator.reads, writes⟩, ?_, readsNatural, ?_, ?_⟩
      · rw [count, writesEq]
        rfl
      · dsimp only
        omega
      · dsimp only
        omega

/-- `simulate` counts its accesses, as far as an `int` can count them. -/
theorem exists_simulateLoop {runs : ℕ} {simulator : Simulator} {state last : AccessState}
    {calls : List DatabaseCall}
    (performed : performAccesses divide pattern valueDistribution runs state = some (calls, last))
    (readsNatural : 0 ≤ simulator.reads.toInt) (writesNatural : 0 ≤ simulator.writes.toInt)
    (room : simulator.reads.toInt + simulator.writes.toInt + runs ≤ Int32.maxValue.toInt) :
    ∃ counted, Simulator.simulateLoop divide pattern valueDistribution runs simulator state =
        some (counted, calls, last) ∧ 0 ≤ counted.reads.toInt ∧ 0 ≤ counted.writes.toInt := by
  induction runs generalizing simulator state calls with
  | zero =>
      simp only [performAccesses, Option.some.injEq, Prod.mk.injEq] at performed
      rcases performed with ⟨rfl, rfl⟩
      exact ⟨simulator, rfl, readsNatural, writesNatural⟩
  | succ runs ih =>
      rw [performAccesses] at performed
      cases access : performAccess divide pattern valueDistribution state with
      | none => simp [access] at performed
      | some taken =>
          rcases taken with ⟨call, next⟩
          simp only [access, Option.map_eq_some_iff, Prod.mk.injEq] at performed
          rcases performed with ⟨⟨laterCalls, final⟩, laterEq, rfl, rfl⟩
          rcases Simulator.exists_count readsNatural writesNatural room (by omega) call with
            ⟨increased, countEq, increasedReads, increasedWrites, sumEq⟩
          rcases ih laterEq increasedReads increasedWrites (by omega) with
            ⟨counted, loopEq, natural⟩
          refine ⟨counted, ?_, natural⟩
          simp only [Simulator.simulateLoop, access, countEq, loopEq, Option.map_some]

/--
On a database initialised with the pairs of the pattern, `burnInOut` and the loop of `simulate`
access existing keys only, and leave the keys and the value as they are. The loop of a new
simulator has a result; that of another one has the same, unless its statistics overflow.
-/
def AccessesExistingOnly (divide : ℤ → ℤ → Double) (pattern : AccessPattern)
    (valueDistribution : ConstantValueDistribution) (runs : Int32) (rands : Stream' Rand) : Prop :=
  ∃ pairs calls last,
    pattern.getInitialisationKeyValuePairs valueDistribution = some pairs ∧
    burnInOut divide pattern valueDistribution runs ⟨.initialise .empty pairs, rands⟩ =
      some (calls, last) ∧
    (∃ counted, Simulator.simulateLoop divide pattern valueDistribution runs.toInt.toNat
      .construct ⟨.initialise .empty pairs, rands⟩ = some (counted, calls, last)) ∧
    (∀ simulator counted otherCalls otherLast,
      Simulator.simulateLoop divide pattern valueDistribution runs.toInt.toNat simulator
        ⟨.initialise .empty pairs, rands⟩ = some (counted, otherCalls, otherLast) →
      otherCalls = calls ∧ otherLast = last) ∧
    OnlyExisting pattern.range.texts valueDistribution.getNext calls last.keyValueDB

/-- Patterns access existing keys only, whatever the random numbers. -/
theorem only_existing_accessed (divide : ℤ → ℤ → Double) (pattern : AccessPattern)
    (valueDistribution : ConstantValueDistribution) (valid : pattern.range.Valid) (runs : Int32)
    (rands : Stream' Rand) :
    AccessesExistingOnly divide pattern valueDistribution runs rands := by
  rcases KeyRange.exists_keyValuePairs valid.ordered.le valid.belowMax valueDistribution with
    ⟨pairs, pairsEq, pairsConstant⟩
  rw [← initialise_empty] at pairsConstant
  rcases @exists_performAccesses divide pattern valueDistribution valid runs.toInt.toNat
    ⟨.initialise .empty pairs, rands⟩ pairsConstant with ⟨calls, last, performed, _, only⟩
  refine ⟨pairs, calls, last, ?_, performed, ?_, ?_, only⟩
  · rw [AccessPattern.getInitialisationKeyValuePairs_eq, pairsEq]
  · have room : Simulator.construct.reads.toInt + Simulator.construct.writes.toInt +
        runs.toInt.toNat ≤ Int32.maxValue.toInt := by
      have highest := runs.toInt_le
      have readsZero : Simulator.construct.reads.toInt = 0 := rfl
      have writesZero : Simulator.construct.writes.toInt = 0 := rfl
      have natural : 0 ≤ Int32.maxValue.toInt := by decide
      omega
    rcases exists_simulateLoop performed le_rfl le_rfl room with ⟨counted, counts, _⟩
    exact ⟨counted, counts⟩
  · intro simulator counted otherCalls otherLast simulated
    have same := (performAccesses_of_simulateLoop simulated).symm.trans performed
    rw [Option.some.injEq, Prod.mk.injEq] at same
    exact same

/-- Five accesses to the keys from -2 to 3. -/
theorem only_existing_accessed_signed_keys :
    AccessesExistingOnly Doubles.divide (.OCDB ⟨⟨⟨-2, 3⟩, .finite (1 / 2)⟩⟩) ⟨['X', 'X', 'X']⟩ 5
      (Stream'.const ⟨7, by decide, by decide⟩) :=
  only_existing_accessed _ _ _ ⟨by decide, by decide, by decide⟩ _ _

end Accesses

end KeyValueClusterPerf
