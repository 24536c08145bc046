import KeyValueClusterPerf.ConfigurationManager
import KeyValueClusterPerf.Foundations.LastWriteWins

/-!
# What the configuration manager reads

A line assigns a value to a key if it is no comment and splits into them at its first
equals sign. `readString` finds for each key what the last line that assigns it says, so
that a text put behind another overrides it.

What has been read can come from such lines only. So the round trip through the writer
succeeds for maps of clean entries and for no others.
-/

namespace KeyValueClusterPerf

open Texts LastWriteWins

namespace ConfigurationManager

/-- The line is no comment and has its first equals sign between the key and the value. -/
structure Assigns (line key value : Text) : Prop where
  notComment : line.take 1 ≠ ['#']
  split : line = key ++ '=' :: value
  first : '=' ∉ key

/-- The value that a line assigns to a key, if it assigns one. -/
def assigned (key line : Text) : Option Text :=
  if line.take 1 = ['#'] then none
  else (splitEntry line).bind fun entry => if entry.1 = key then some entry.2 else none

theorem splitEntry_eq_some_iff {line key value : Text} :
    splitEntry line = some (key, value) ↔ line = key ++ '=' :: value ∧ '=' ∉ key := by
  constructor
  · intro found
    rw [splitEntry] at found
    split at found
    · simp at found
    · rename_i separator behind lineEq
      have boundary := List.head?_dropWhile_not (fun character => decide (character ≠ '=')) line
      have shape : line.takeWhile (· ≠ '=') ++ line.dropWhile (· ≠ '=') = line :=
        List.takeWhile_append_dropWhile
      simp only [lineEq, List.head?_cons, decide_eq_false_iff_not, not_not] at boundary
      rw [lineEq, boundary] at shape
      rw [Option.some.injEq, Prod.mk.injEq] at found
      rcases found with ⟨rfl, rfl⟩
      refine ⟨shape.symm, ?_⟩
      intro mem
      simpa using List.mem_takeWhile_imp mem
  · rintro ⟨rfl, absent⟩
    exact @splitEntry_entryText (key, value) absent

theorem assigned_eq_some_iff {line key value : Text} :
    assigned key line = some value ↔ Assigns line key value := by
  rw [assigned]
  split
  · rename_i comment
    constructor
    · simp
    · intro assigns
      exact absurd comment assigns.notComment
  · rename_i notComment
    simp only [Option.bind_eq_some_iff, Option.ite_none_right_eq_some, Option.some.injEq]
    constructor
    · rintro ⟨⟨_, _⟩, found, rfl, rfl⟩
      have shape := splitEntry_eq_some_iff.mp found
      exact ⟨notComment, shape.1, shape.2⟩
    · intro assigns
      exact ⟨(key, value), splitEntry_eq_some_iff.mpr ⟨assigns.split, assigns.first⟩, rfl, rfl⟩

theorem assigned_eq_none_iff {line key : Text} :
    assigned key line = none ↔ ∀ value, ¬Assigns line key value := by
  simp only [← assigned_eq_some_iff]
  exact Option.eq_none_iff_forall_ne_some

/-- A line overrides what its key had, and leaves the other keys alone. -/
theorem getElem?_readLine (configuration : StringMap) (line key : Text) :
    (readLine configuration line)[key]? = (assigned key line).or configuration[key]? := by
  rw [readLine, assigned]
  split
  · rfl
  · cases splitEntry line with
    | none => rfl
    | some entry =>
        rw [Option.bind_some, Std.ExtTreeMap.getElem?_insert]
        by_cases same : entry.1 = key
        · simp [same]
        · simp [same]

theorem getElem?_foldl_readLine (configuration : StringMap) (texts : List Text) (key : Text) :
    (texts.foldl readLine configuration)[key]? =
      (texts.reverse.findSome? (assigned key)).or configuration[key]? := by
  apply @lookup_foldl _ _ _ fun reached : StringMap => reached[key]?
  intro reached line
  exact getElem?_readLine reached line key

/-- The last line of a text that assigns something to the key assigns the value to it. -/
def LastAssignment (text key value : Text) : Prop :=
  ∃ (i : ℕ) (line : Text), (lines text)[i]? = some line ∧ Assigns line key value ∧
    ∀ (j : ℕ) (later : Text), i < j → (lines text)[j]? = some later →
      ∀ other, ¬Assigns later key other

theorem getElem?_readString (text key : Text) :
    (readString text)[key]? = (lines text).reverse.findSome? (assigned key) := by
  rw [readString, getElem?_foldl_readLine, Std.ExtTreeMap.getElem?_empty, Option.or_none]

theorem readString_eq_some_iff (text key value : Text) :
    (readString text)[key]? = some value ↔ LastAssignment text key value := by
  rw [getElem?_readString, findSome?_reverse_eq_some_iff]
  simp only [assigned_eq_some_iff, assigned_eq_none_iff, LastAssignment]

/-- An empty line assigns nothing. -/
theorem readLine_nil (configuration : StringMap) : readLine configuration [] = configuration :=
  rfl

theorem foldl_readLine_splitOn (text : Text) (configuration : StringMap) :
    (text.splitOn '\n').foldl readLine configuration =
      (lines text).foldl readLine configuration := by
  rcases splitOn_eq_lines_or text with same | same
  · rw [same]
  · rw [same, List.foldl_append, List.foldl_cons, List.foldl_nil, readLine_nil]

/-- Reading a text that follows another continues with what the first has left. -/
theorem readString_append (earlier later : Text) :
    readString (earlier ++ '\n' :: later) = (lines later).foldl readLine (readString earlier) := by
  rw [readString, lines_append, List.foldl_append, foldl_readLine_splitOn]
  rfl

/--
What `readString` finds for a key is what the last line that assigns something to it assigns;
so of two texts behind each other the second overrides the first.
-/
theorem readString_meaning (text : Text) :
    (∀ key value : Text, (readString text)[key]? = some value ↔
      LastAssignment text key value) ∧
      ∀ (later key : Text), (readString (text ++ '\n' :: later))[key]? =
        (readString later)[key]?.or (readString text)[key]? := by
  constructor
  · exact readString_eq_some_iff text
  · intro later key
    rw [readString_append, getElem?_foldl_readLine, getElem?_readString later]

theorem Assigns.cleanEntry {line key value : Text} (assigns : Assigns line key value)
    (closed : '\n' ∉ line) : CleanEntry (key, value) := by
  have split := assigns.split
  constructor
  · exact assigns.first
  · intro mem
    apply closed
    rw [split]
    exact List.mem_append_left _ mem
  · intro comment
    apply assigns.notComment
    rw [split]
    rcases key with _ | ⟨character, rest⟩
    · simp at comment
    · simpa using comment
  · intro mem
    apply closed
    rw [split]
    exact List.mem_append_right key (List.mem_cons_of_mem '=' mem)

/-- Whatever has been read is a clean entry. -/
theorem cleanEntry_of_readString {text key value : Text}
    (found : (readString text)[key]? = some value) : CleanEntry (key, value) := by
  rcases (readString_eq_some_iff text key value).mp found with ⟨i, line, atI, assigns, _⟩
  exact assigns.cleanEntry (newline_not_mem_of_mem_lines (List.mem_of_getElem? atI))

theorem exists_writeString {configuration : StringMap} (nonempty : configuration ≠ ∅) :
    ∃ text, writeString configuration = some text := by
  rw [writeString]
  split
  · rename_i entriesEq
    exact absurd (Std.ExtTreeMap.toList_eq_nil_iff.mp entriesEq) nonempty
  · exact ⟨_, rfl⟩

/-- A nonempty map survives writing and reading exactly when all its entries are clean. -/
theorem readString_writeString_iff (configuration : StringMap) (nonempty : configuration ≠ ∅) :
    (∃ text, writeString configuration = some text ∧ readString text = configuration) ↔
      ∀ key value : Text, configuration[key]? = some value → '=' ∉ key ∧ '\n' ∉ key ∧
        key.take 1 ≠ ['#'] ∧ '\n' ∉ value := by
  constructor
  · rintro ⟨text, _, rfl⟩ key value found
    have clean := cleanEntry_of_readString found
    exact ⟨clean.keyNoEquals, clean.keyClosed, clean.keyNotComment, clean.valueClosed⟩
  · intro clean
    rcases exists_writeString nonempty with ⟨text, written⟩
    refine ⟨text, written, readString_writeString ?_ written⟩
    rintro ⟨key, value⟩ mem
    rcases clean key value (Std.ExtTreeMap.mem_toList_iff_getElem?_eq_some.mp mem) with
      ⟨noEquals, keyClosed, notComment, valueClosed⟩
    exact ⟨noEquals, keyClosed, notComment, valueClosed⟩

def sampleConfiguration : StringMap :=
  (∅ : StringMap).insert ['k'] ['#', '=']

/-- A value may contain both separators of the format. -/
theorem readString_writeString_sample :
    ∃ text, writeString sampleConfiguration = some text ∧
      readString text = sampleConfiguration := by
  have nonempty : sampleConfiguration ≠ ∅ := by
    intro empty
    have sizes := congrArg Std.ExtTreeMap.size empty
    simp [sampleConfiguration, Std.ExtTreeMap.size_insert] at sizes
  apply (readString_writeString_iff sampleConfiguration nonempty).mpr
  intro key value found
  rw [sampleConfiguration, Std.ExtTreeMap.getElem?_insert] at found
  split at found
  · rename_i same
    rw [← Std.LawfulEqCmp.eq_of_compare same, ← Option.some.inj found]
    decide
  · simp at found

end ConfigurationManager

end KeyValueClusterPerf
