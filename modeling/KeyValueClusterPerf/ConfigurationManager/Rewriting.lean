import KeyValueClusterPerf.ConfigurationManager.Reading

/-!
# Rewriting a configuration

Reading a text and writing what has been read puts it into a normal form: the comments are
gone, each key has one line, and reading and writing once more changes nothing. The writer
puts its first entry without a look at the end of the map. So there is no normal form of a
text in which no line assigns anything.
-/

namespace KeyValueClusterPerf

open Texts

namespace ConfigurationManager

def AssignsSomething (line : Text) : Prop :=
  line.take 1 ≠ ['#'] ∧ '=' ∈ line

/-- The text is read, written, and read and written again, with the same results. -/
def RewritesIdempotently (text : Text) : Prop :=
  ∃ rewritten, writeString (readString text) = some rewritten ∧
    readString rewritten = readString text ∧
      writeString (readString rewritten) = some rewritten

theorem assignsSomething_iff {line : Text} :
    AssignsSomething line ↔ ∃ key value, Assigns line key value := by
  constructor
  · rintro ⟨notComment, separator⟩
    -- The search for an equals sign reaches one.
    have found : splitEntry line ≠ none := by
      rw [splitEntry]
      split
      · rename_i nothing
        have all := List.dropWhile_eq_nil_iff.mp nothing '=' separator
        simp at all
      · simp
    rcases Option.ne_none_iff_exists'.mp found with ⟨⟨key, value⟩, splitEq⟩
    rcases splitEntry_eq_some_iff.mp splitEq with ⟨shape, first⟩
    exact ⟨key, value, notComment, shape, first⟩
  · rintro ⟨key, value, assigns⟩
    refine ⟨assigns.notComment, ?_⟩
    rw [assigns.split]
    exact List.mem_append_right key List.mem_cons_self

/-- Something is read exactly if some line assigns something. -/
theorem readString_ne_empty_iff {text : Text} :
    readString text ≠ ∅ ↔ ∃ line ∈ lines text, AssignsSomething line := by
  constructor
  · intro nonempty
    by_contra nothing
    apply nonempty
    apply Std.ExtTreeMap.ext_getElem?
    intro key
    rw [getElem?_readString, Std.ExtTreeMap.getElem?_empty, List.findSome?_eq_none_iff]
    intro line mem
    rw [assigned_eq_none_iff]
    intro value assigns
    exact nothing ⟨line, List.mem_reverse.mp mem, assignsSomething_iff.mpr ⟨key, value, assigns⟩⟩
  · rintro ⟨line, mem, assignsSomething⟩ empty
    rcases assignsSomething_iff.mp assignsSomething with ⟨key, value, assigns⟩
    have missing := getElem?_readString text key
    rw [empty, Std.ExtTreeMap.getElem?_empty] at missing
    have nothing := List.findSome?_eq_none_iff.mp missing.symm line (List.mem_reverse.mpr mem)
    exact assigned_eq_none_iff.mp nothing value assigns

/-- The empty map is written by nothing else than a read past its end. -/
theorem writeString_empty : writeString ∅ = none :=
  rfl

/-- Whatever has been read survives the writer, if the writer copes with it at all. -/
theorem readString_rewritten {text rewritten : Text}
    (written : writeString (readString text) = some rewritten) :
    readString rewritten = readString text := by
  apply readString_writeString _ written
  rintro ⟨key, value⟩ mem
  exact cleanEntry_of_readString (Std.ExtTreeMap.mem_toList_iff_getElem?_eq_some.mp mem)

theorem readString_ne_empty_of_rewrites {text : Text} (rewrites : RewritesIdempotently text) :
    readString text ≠ ∅ := by
  rcases rewrites with ⟨rewritten, written, _⟩
  intro empty
  rw [empty, writeString_empty] at written
  simp at written

/-- A text has a normal form exactly if one of its lines assigns something. -/
theorem rewritesIdempotently_iff (text : Text) :
    RewritesIdempotently text ↔ ∃ line ∈ lines text, line.take 1 ≠ ['#'] ∧ '=' ∈ line := by
  constructor
  · intro rewrites
    exact readString_ne_empty_iff.mp (readString_ne_empty_of_rewrites rewrites)
  · intro assignsSomething
    rcases exists_writeString (readString_ne_empty_iff.mpr assignsSomething) with
      ⟨rewritten, written⟩
    have same := readString_rewritten written
    refine ⟨rewritten, written, same, ?_⟩
    rw [same]
    exact written

/-- A text with nothing but a comment has no normal form. -/
theorem not_rewritesIdempotently_comment : ¬RewritesIdempotently "# hosts".toList := by
  intro rewrites
  have empty : readString "# hosts".toList = ∅ := rfl
  exact readString_ne_empty_of_rewrites rewrites empty

end ConfigurationManager

end KeyValueClusterPerf
