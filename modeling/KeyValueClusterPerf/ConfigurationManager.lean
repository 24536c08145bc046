import KeyValueClusterPerf.Foundations.Text

/-!
# The `key=value` codec of the configuration manager

`readString` and `writeString` carry a map of strings through a text with one
`key=value` line per entry. The reader ignores lines that begin with `#` and lines
without an equals sign, splits the others at their first equals sign and lets later
lines win. The writer puts the entries in key order, separated by newlines; it
dereferences `begin()`, so it has no defined result on the empty map.

The theorem of this file is the round trip for maps whose entries survive the line
format; the frames of the benchmark results are instances of it.
-/

namespace KeyValueClusterPerf

open Texts

/-- `std::map<string, string>`: a finite map with its entries in key order. -/
abbrev StringMap := Std.ExtTreeMap Text Text compare

namespace ConfigurationManager

/-- The two sides of the first equals sign of a line (`line.find("=")`). -/
def splitEntry (line : Text) : Option (Text × Text) :=
  match line.dropWhile (· ≠ '=') with
  | [] => none
  | _ :: value => some (line.takeWhile (· ≠ '='), value)

def readLine (configuration : StringMap) (line : Text) : StringMap :=
  if line.take 1 = ['#'] then configuration
  else
    match splitEntry line with
    | none => configuration
    | some (key, value) => configuration.insert key value

def readString (text : Text) : StringMap :=
  (lines text).foldl readLine ∅

def entryText (entry : Text × Text) : Text :=
  entry.1 ++ '=' :: entry.2

def writeString (configuration : StringMap) : Option Text :=
  match configuration.toList with
  | [] => none
  | first :: later => some (entryText first ++ later.flatMap fun entry => '\n' :: entryText entry)

/-- An entry that the line format carries: the reader splits its line where the writer joined it. -/
structure CleanEntry (entry : Text × Text) : Prop where
  keyNoEquals : '=' ∉ entry.1
  keyClosed : '\n' ∉ entry.1
  keyNotComment : entry.1.take 1 ≠ ['#']
  valueClosed : '\n' ∉ entry.2

theorem splitEntry_entryText {entry : Text × Text} (noEquals : '=' ∉ entry.1) :
    splitEntry (entryText entry) = some entry := by
  have kept : ∀ character ∈ entry.1, decide (character ≠ '=') = true := by
    intro character mem
    simpa using fun same : character = '=' => noEquals (same ▸ mem)
  simp only [splitEntry, entryText]
  rw [List.dropWhile_append_of_pos kept, List.takeWhile_append_of_pos kept]
  simp

namespace CleanEntry

variable {entry : Text × Text}

theorem of_key {key value : Text}
    (keyClean : '=' ∉ key ∧ '\n' ∉ key ∧ key.take 1 ≠ ['#']) (valueClosed : '\n' ∉ value) :
    CleanEntry (key, value) :=
  ⟨keyClean.1, keyClean.2.1, keyClean.2.2, valueClosed⟩

theorem entryText_ne_nil : entryText entry ≠ [] := by
  simp [entryText]

theorem newline_not_mem (clean : CleanEntry entry) : '\n' ∉ entryText entry := by
  simp [entryText, clean.keyClosed, clean.valueClosed]

theorem entryText_not_comment (clean : CleanEntry entry) : (entryText entry).take 1 ≠ ['#'] := by
  have notComment := clean.keyNotComment
  rcases entry with ⟨_ | ⟨character, rest⟩, value⟩
  · simp [entryText]
  · simpa [entryText] using notComment

/-- The reader inserts exactly the entry that the writer put on the line. -/
theorem readLine_entryText (clean : CleanEntry entry) (configuration : StringMap) :
    readLine configuration (entryText entry) = configuration.insert entry.1 entry.2 := by
  simp [readLine, clean.entryText_not_comment, splitEntry_entryText clean.keyNoEquals]

end CleanEntry

theorem foldl_readLine_entryText {entries : List (Text × Text)}
    (clean : ∀ entry ∈ entries, CleanEntry entry) (configuration : StringMap) :
    (entries.map entryText).foldl readLine configuration = configuration.insertMany entries := by
  rw [Std.ExtTreeMap.insertMany_list_eq_foldl]
  induction entries generalizing configuration with
  | nil => rfl
  | cons entry later ih =>
      have entryClean := clean entry (by simp)
      simp only [List.map_cons, List.foldl_cons, entryClean.readLine_entryText]
      apply ih
      intro other mem
      exact clean other (List.mem_cons_of_mem entry mem)

theorem insertMany_toList (configuration : StringMap) :
    (∅ : StringMap).insertMany configuration.toList = configuration := by
  apply Std.ExtTreeMap.ext_getElem?
  intro key
  cases found : configuration[key]? with
  | some value =>
      have mem := Std.ExtTreeMap.mem_toList_iff_getElem?_eq_some.mpr found
      exact Std.ExtTreeMap.getElem?_insertMany_list_of_mem Std.ReflCmp.compare_self
        Std.ExtTreeMap.distinct_keys_toList mem
  | none =>
      have absent : key ∉ configuration := by
        intro mem
        simp [Std.ExtTreeMap.getElem?_eq_some_getElem mem] at found
      rw [Std.ExtTreeMap.getElem?_insertMany_list_of_contains_eq_false]
      · simp
      · rw [Std.ExtTreeMap.map_fst_toList_eq_keys]
        simpa using absent

/-- A nonempty map whose entries are all clean survives writing and reading. -/
theorem readString_writeString {configuration : StringMap} {text : Text}
    (clean : ∀ entry ∈ configuration.toList, CleanEntry entry)
    (written : writeString configuration = some text) : readString text = configuration := by
  rw [writeString] at written
  split at written
  · simp at written
  · rename_i first later entriesEq
    rw [entriesEq] at clean
    have textLines : lines text = (first :: later).map entryText := by
      rw [← Option.some.inj written]
      have separated := @lines_separated (entryText first) (later.map entryText)
        (by
          intro line mem
          rcases List.mem_map.mp (List.map_cons ▸ mem) with ⟨entry, entryMem, rfl⟩
          exact (clean entry entryMem).newline_not_mem)
        (by
          intro line mem
          rcases List.mem_map.mp (List.map_cons ▸ mem) with ⟨entry, entryMem, rfl⟩
          exact CleanEntry.entryText_ne_nil)
      simpa [List.flatMap_map] using separated
    rw [readString, textLines, foldl_readLine_entryText clean, ← entriesEq, insertMany_toList]

end ConfigurationManager

end KeyValueClusterPerf
