import Mathlib

/-!
# Last-write-wins stores

A store maps keys to the values last written under them. After a sequence of writes a
key holds the value of its last write, so that every written value is retained under its
key exactly when no two writes give one key different values.
-/

namespace LastWriteWins

universe u v w

/-- A store; keys without a value have never been written. -/
abbrev Store (Key : Type u) (Value : Type v) := Key → Option Value

variable {Key : Type u} {Value : Type v} [DecidableEq Key]

def Store.empty : Store Key Value := fun _ => none

def Store.put (store : Store Key Value) (key : Key) (value : Value) : Store Key Value :=
  Function.update store key (some value)

@[simp]
theorem Store.put_self (store : Store Key Value) (key : Key) (value : Value) :
    store.put key value key = some value := by
  simp [Store.put]

theorem Store.put_of_ne (store : Store Key Value) {key other : Key} (value : Value)
    (distinct : other ≠ key) : store.put key value other = store other := by
  simp [Store.put, distinct]

def Store.putAll (store : Store Key Value) (writes : List (Key × Value)) : Store Key Value :=
  writes.foldl (fun current write => current.put write.1 write.2) store

/--
After a sequence of events a lookup finds what the last of them that writes has written,
provided that each single event overrides what was found before.
-/
theorem lookup_foldl {State : Type u} {Event : Type v} {Found : Type w}
    {lookup : State → Option Found} {apply : State → Event → State}
    {written : Event → Option Found}
    (overrides : ∀ state event, lookup (apply state event) = (written event).or (lookup state))
    (state : State) (events : List Event) :
    lookup (events.foldl apply state) =
      (events.reverse.findSome? written).or (lookup state) := by
  induction events using List.reverseRecOn with
  | nil => rfl
  | append_singleton earlier last ih =>
      rw [List.foldl_append, List.foldl_cons, List.foldl_nil, overrides, ih, List.reverse_append]
      cases wrote : written last <;> simp [wrote]

/-- The last of the events that write is at a position after which no event writes. -/
theorem findSome?_reverse_eq_some_iff {Event : Type u} {Found : Type v}
    {written : Event → Option Found} {events : List Event} {found : Found} :
    events.reverse.findSome? written = some found ↔
      ∃ (i : ℕ) (event : Event), events[i]? = some event ∧ written event = some found ∧
        ∀ (j : ℕ) (later : Event), i < j → events[j]? = some later → written later = none := by
  rw [List.findSome?_eq_some_iff]
  constructor
  · rintro ⟨behind, event, front, split, writes, silent⟩
    have eventsEq : events = front.reverse ++ event :: behind.reverse := by
      rw [← List.reverse_reverse events, split]
      simp
    refine ⟨front.reverse.length, event, by simp [eventsEq], writes, ?_⟩
    intro j later after atJ
    apply silent later
    rw [eventsEq, List.getElem?_append_right after.le] at atJ
    rcases Nat.exists_eq_add_of_lt after with ⟨offset, rfl⟩
    rw [Nat.add_assoc, Nat.add_sub_cancel_left, List.getElem?_cons_succ] at atJ
    exact List.mem_reverse.mp (List.mem_of_getElem? atJ)
  · rintro ⟨i, event, atI, writes, silent⟩
    rcases List.getElem?_eq_some_iff.mp atI with ⟨inside, rfl⟩
    refine ⟨(events.drop (i + 1)).reverse, _, (events.take i).reverse, ?_, writes, ?_⟩
    · have shape : events = events.take i ++ events[i] :: events.drop (i + 1) := by simp
      conv_lhs => rw [shape]
      simp
    · intro later mem
      rcases List.mem_iff_getElem?.mp (List.mem_reverse.mp mem) with ⟨offset, atOffset⟩
      rw [List.getElem?_drop] at atOffset
      exact silent _ later (by omega) atOffset

/-- A key holds the value of its last write, or what it held before. -/
theorem Store.putAll_apply (store : Store Key Value) (writes : List (Key × Value)) (key : Key) :
    store.putAll writes key =
      ((writes.reverse.find? (·.1 = key)).map Prod.snd).or (store key) := by
  induction writes using List.reverseRecOn with
  | nil => simp [putAll]
  | append_singleton earlier last ih =>
      rw [putAll, List.foldl_append, List.reverse_append]
      by_cases same : last.1 = key
      · simp [← same]
      · have distinct : key ≠ last.1 := by
          intro equal
          exact same equal.symm
        simpa [same, put_of_ne _ _ distinct, putAll] using ih

theorem Store.exists_write_of_putAll (store : Store Key Value) {writes : List (Key × Value)}
    {write : Key × Value} (mem : write ∈ writes) :
    ∃ value, (write.1, value) ∈ writes ∧ store.putAll writes write.1 = some value := by
  rw [putAll_apply]
  cases found : writes.reverse.find? (·.1 = write.1) with
  | none =>
      have absent := List.find?_eq_none.mp found write (List.mem_reverse.mpr mem)
      simp at absent
  | some last =>
      have lastMem := List.mem_reverse.mp (List.mem_of_find?_eq_some found)
      have lastKey : last.1 = write.1 := by simpa using List.find?_some found
      refine ⟨last.2, ?_, by simp⟩
      rw [← lastKey]
      exact lastMem

/-- Every write is retained exactly when the written values are a function of their keys. -/
theorem Store.putAll_retains_iff (store : Store Key Value) (writes : List (Key × Value)) :
    (∀ write ∈ writes, store.putAll writes write.1 = some write.2) ↔
      ∀ write ∈ writes, ∀ other ∈ writes, write.1 = other.1 → write.2 = other.2 := by
  constructor
  · intro retained write mem other otherMem same
    have held := retained write mem
    rw [same, retained other otherMem] at held
    exact (Option.some.inj held).symm
  · intro functional write mem
    rcases store.exists_write_of_putAll mem with ⟨value, valueMem, held⟩
    rw [held, functional write mem (write.1, value) valueMem rfl]

/-- A store that holds one value under the keys of a set, and nothing under the others. -/
def Store.ConstantOn (store : Store Key Value) (keys : Set Key) (value : Value) : Prop :=
  ∀ key found, store key = some found ↔ key ∈ keys ∧ found = value

omit [DecidableEq Key] in
theorem constantOn_empty (value : Value) :
    (Store.empty : Store Key Value).ConstantOn ∅ value := by
  intro key found
  simp [Store.empty]

theorem Store.ConstantOn.put {store : Store Key Value} {keys : Set Key} {value : Value}
    (constant : store.ConstantOn keys value) (key : Key) :
    (store.put key value).ConstantOn (insert key keys) value := by
  intro other found
  by_cases same : other = key
  · simp [same, eq_comm]
  · rw [put_of_ne _ _ same, constant]
    simp [same]

theorem Store.ConstantOn.put_mem {store : Store Key Value} {keys : Set Key} {value : Value}
    (constant : store.ConstantOn keys value) {key : Key} (mem : key ∈ keys) :
    (store.put key value).ConstantOn keys value := by
  have put := constant.put key
  rwa [Set.insert_eq_of_mem mem] at put

omit [DecidableEq Key] in
theorem Store.ConstantOn.isSome_iff {store : Store Key Value} {keys : Set Key} {value : Value}
    (constant : store.ConstantOn keys value) (key : Key) : (store key).isSome ↔ key ∈ keys := by
  rw [Option.isSome_iff_exists]
  simp [constant key]

/-- Writing pairs with distinct keys to an empty store leaves these pairs in it. -/
theorem putAll_empty_iff {writes : List (Key × Value)}
    (functional : ∀ write ∈ writes, ∀ other ∈ writes, write.1 = other.1 → write.2 = other.2)
    (key : Key) (value : Value) :
    (Store.empty : Store Key Value).putAll writes key = some value ↔ (key, value) ∈ writes := by
  constructor
  · intro held
    rw [Store.putAll_apply, Store.empty, Option.or_none, Option.map_eq_some_iff] at held
    rcases held with ⟨write, found, rfl⟩
    have mem := List.mem_reverse.mp (List.mem_of_find?_eq_some found)
    have keyEq : write.1 = key := by simpa using List.find?_some found
    rwa [← keyEq]
  · intro mem
    exact (Store.putAll_retains_iff Store.empty writes).mpr functional (key, value) mem

end LastWriteWins
