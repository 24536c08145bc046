import Mathlib

/-!
# Texts, lines and zero-terminated buffers

A text is a finite sequence of characters without any restriction on them. `lines`
are the pieces that repeated `getline` calls yield: a newline ends a line, a missing
final newline is tolerated, and a final newline does not open another, empty line.
A buffer holds a text up to its first NUL character.
-/

namespace Texts

/-- A sequence of characters: the contents of a `std::string` or of a `char` array. -/
abbrev Text := List Char

def nul : Char := Char.ofNat 0

/-- The lines that `getline` yields until it fails. -/
def lines (text : Text) : List Text :=
  let pieces := text.splitOn '\n'
  if pieces.getLast? = some [] then pieces.dropLast else pieces

def unlines (texts : List Text) : Text :=
  texts.flatMap (· ++ ['\n'])

/-- The C string that starts at the front of a buffer. -/
def cString (buffer : Text) : Text :=
  buffer.takeWhile (· ≠ nul)

/-- What follows the last occurrence of a character; the whole text if there is none. -/
def afterLast (character : Char) (text : Text) : Text :=
  (text.reverse.takeWhile (· ≠ character)).reverse

/-- What precedes the last occurrence of a character; the whole text if there is none. -/
def beforeLast (character : Char) (text : Text) : Text :=
  if character ∈ text then (text.reverse.dropWhile (· ≠ character)).tail.reverse else text

theorem lines_of_not_mem {line : Text} (closed : '\n' ∉ line) (nonempty : line ≠ []) :
    lines line = [line] := by
  simp [lines, List.splitOn_eq_singleton closed, nonempty]

theorem lines_append_newline {line : Text} (closed : '\n' ∉ line) (rest : Text) :
    lines (line ++ '\n' :: rest) = line :: lines rest := by
  have piecesEq := List.splitOn_append_cons_self_of_not_mem closed rest
  have piecesNe := List.splitOn_ne_nil '\n' rest
  simp only [lines, piecesEq]
  generalize rest.splitOn '\n' = pieces at piecesNe
  cases pieces with
  | nil => exact absurd rfl piecesNe
  | cons piece later =>
      rw [List.getLast?_cons_cons, List.dropLast_cons_of_ne_nil piecesNe]
      split <;> rfl

theorem lines_unlines {texts : List Text} (closed : ∀ line ∈ texts, '\n' ∉ line) :
    lines (unlines texts) = texts := by
  induction texts with
  | nil => rfl
  | cons line later ih =>
      have firstClosed := closed line (by simp)
      have laterLines := ih (by
        intro other mem
        apply closed
        exact List.mem_cons_of_mem line mem)
      have shape : unlines (line :: later) = line ++ '\n' :: unlines later := by
        simp [unlines]
      rw [shape, lines_append_newline firstClosed, laterLines]

theorem lines_separated {first : Text} {later : List Text}
    (closed : ∀ line ∈ first :: later, '\n' ∉ line)
    (nonempty : ∀ line ∈ first :: later, line ≠ []) :
    lines (first ++ later.flatMap ('\n' :: ·)) = first :: later := by
  induction later generalizing first with
  | nil =>
      simpa using lines_of_not_mem (closed first (by simp)) (nonempty first (by simp))
  | cons second later ih =>
      have firstClosed := closed first (by simp)
      rw [List.flatMap_cons, List.cons_append, lines_append_newline firstClosed]
      congr 1
      apply ih
      · intro line mem
        apply closed
        exact List.mem_cons_of_mem first mem
      · intro line mem
        apply nonempty
        exact List.mem_cons_of_mem first mem

theorem lines_append (earlier later : Text) :
    lines (earlier ++ '\n' :: later) = earlier.splitOn '\n' ++ lines later := by
  have piecesNe := List.splitOn_ne_nil '\n' later
  simp only [lines, List.splitOn_append_cons_self, List.getLast?_append_of_ne_nil _ piecesNe,
    List.dropLast_append_of_ne_nil piecesNe]
  split <;> rfl

/-- `getline` leaves out nothing but an empty piece at the end. -/
theorem splitOn_eq_lines_or (text : Text) :
    text.splitOn '\n' = lines text ∨ text.splitOn '\n' = lines text ++ [[]] := by
  simp only [lines]
  split
  · rename_i ending
    right
    exact (List.dropLast_append_getLast? [] ending).symm
  · left
    rfl

theorem newline_not_mem_of_mem_splitOn {text piece : Text} (mem : piece ∈ text.splitOn '\n') :
    '\n' ∉ piece := by
  induction text generalizing piece with
  | nil =>
      rw [List.splitOn_nil, List.mem_singleton] at mem
      simp [mem]
  | cons character rest ih =>
      rw [List.splitOn_cons_eq_if_modifyHead] at mem
      have piecesNe := List.splitOn_ne_nil '\n' rest
      generalize rest.splitOn '\n' = pieces at mem ih piecesNe
      rcases pieces with _ | ⟨first, others⟩
      · exact absurd rfl piecesNe
      split at mem
      · rcases List.mem_cons.mp mem with rfl | later
        · simp
        · exact ih later
      · rename_i distinct
        rw [List.modifyHead_cons, List.mem_cons] at mem
        rcases mem with rfl | later
        · have firstClosed := ih List.mem_cons_self
          simp only [beq_iff_eq] at distinct
          simp [firstClosed, Ne.symm distinct]
        · exact ih (List.mem_cons_of_mem first later)

theorem newline_not_mem_of_mem_lines {text line : Text} (mem : line ∈ lines text) :
    '\n' ∉ line := by
  apply @newline_not_mem_of_mem_splitOn text
  rcases splitOn_eq_lines_or text with same | same
  · rwa [same]
  · rw [same]
    exact List.mem_append_left _ mem

theorem afterLast_append {character : Char} {name : Text} (absent : character ∉ name)
    (front : Text) : afterLast character (front ++ character :: name) = name := by
  have kept : ∀ other ∈ name.reverse, decide (other ≠ character) = true := by
    intro other mem
    simpa using fun same : other = character => absent (same ▸ List.mem_reverse.mp mem)
  have reversed : (front ++ character :: name).reverse =
      name.reverse ++ character :: front.reverse := by
    simp
  rw [afterLast, reversed, List.takeWhile_append_of_pos kept]
  simp

theorem cString_of_not_mem {text : Text} (clean : nul ∉ text) : cString text = text := by
  apply List.takeWhile_eq_self_iff.mpr
  intro character mem
  simpa using fun same : character = nul => clean (same ▸ mem)

theorem cString_append_nul {text : Text} (clean : nul ∉ text) (behind : Text) :
    cString (text ++ nul :: behind) = text := by
  have kept : ∀ character ∈ text, (decide (character ≠ nul)) = true := by
    intro character mem
    simpa using fun same : character = nul => clean (same ▸ mem)
  rw [cString, List.takeWhile_append_of_pos kept]
  simp

end Texts
