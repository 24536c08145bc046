import KeyValueClusterPerf.ConfigurationManager
import KeyValueClusterPerf.DBConnector.Basic

/-!
# The reported statistics

`DBConnector::getResults` reports the hostname and the texts that stream insertion prints
for the connector's counters: an `unsigned int`, a `double` in the default format and a
`time_duration`. How Boost prints the last is left open, except that the text is short and has
neither a newline, nor a comma, nor a NUL. Whatever the counters are, this holds of all the texts,
provided that it holds of the hostname.
-/

namespace KeyValueClusterPerf

open Texts Doubles

/-- A text without the separators of the frame and of the CSV file. -/
def PlainText (text : Text) : Prop :=
  ∀ character ∈ text, character ≠ '\n' ∧ character ≠ ',' ∧ character ≠ nul

/-- What `gethostname` leaves in a buffer of 256 bytes. -/
structure Hostname where
  text : Text
  length_le : text.length ≤ 255
  plain : PlainText text

def sampleHost : Hostname where
  text := ['n', 'o', 'd', 'e']
  length_le := by decide
  plain := by simp [PlainText, nul]

namespace PlainText

theorem of_isDigit {text : Text} (digits : ∀ character ∈ text, character.isDigit) :
    PlainText text := by
  intro character mem
  have digit := digits character mem
  refine ⟨?_, ?_, ?_⟩
  · rintro rfl
    simp at digit
  · rintro rfl
    simp at digit
  · rintro rfl
    simp [nul] at digit

theorem decimal (number : ℕ) : PlainText (decimal number) :=
  of_isDigit fun _ mem => isDigit_of_mem_decimal mem

theorem padded (width number : ℕ) : PlainText (padded width number) :=
  of_isDigit fun _ mem => isDigit_of_mem_padded mem

theorem append {first second : Text} (firstPlain : PlainText first)
    (secondPlain : PlainText second) : PlainText (first ++ second) := by
  intro character mem
  rcases List.mem_append.mp mem with firstMem | secondMem
  · exact firstPlain character firstMem
  · exact secondPlain character secondMem

theorem cons {head : Char} {tail : Text} (newline : head ≠ '\n') (comma : head ≠ ',')
    (terminator : head ≠ nul) (tailPlain : PlainText tail) : PlainText (head :: tail) := by
  intro character mem
  rcases List.mem_cons.mp mem with rfl | tailMem
  · exact ⟨newline, comma, terminator⟩
  · exact tailPlain character tailMem

theorem nil : PlainText [] := by
  simp [PlainText]

variable {text : Text}

theorem newline_not_mem (plain : PlainText text) : '\n' ∉ text :=
  fun mem => (plain _ mem).1 rfl

theorem comma_not_mem (plain : PlainText text) : ',' ∉ text :=
  fun mem => (plain _ mem).2.1 rfl

theorem nul_not_mem (plain : PlainText text) : nul ∉ text :=
  fun mem => (plain _ mem).2.2 rfl

end PlainText

/-- What Boost prints for a `time_duration`, by its count of microseconds. -/
structure DurationFormat where
  text : Int64 → Text
  plain : ∀ duration, PlainText (text duration)
  length_le : ∀ duration, (text duration).length ≤ 24

def hostnameKey : Text := "hostname".toList
def objectsKey : Text := "objects".toList
def sizeKey : Text := "size".toList
def durationKey : Text := "duration".toList

namespace DBConnector

variable (connector : DBConnector) (format : DurationFormat) (hostname : Hostname)

def objectsText : Text := decimal connector.mLoadedObjects.toNat
def sizeText : Text := connector.mTotalDataSize.text
def timeText : Text := format.text connector.mDuration

/-- `getResults`, on a host of the given name. -/
def getResults : StringMap :=
  (((∅ : StringMap).insert hostnameKey hostname.text).insert objectsKey connector.objectsText
    |>.insert sizeKey connector.sizeText).insert durationKey (connector.timeText format)

theorem toList_getResults :
    (connector.getResults format hostname).toList =
      [(durationKey, connector.timeText format), (hostnameKey, hostname.text),
        (objectsKey, connector.objectsText), (sizeKey, connector.sizeText)] := by
  rfl

theorem getElem?_objectsKey :
    (connector.getResults format hostname)[objectsKey]? = some connector.objectsText := by
  rfl

theorem getElem?_sizeKey :
    (connector.getResults format hostname)[sizeKey]? = some connector.sizeText := by
  rfl

end DBConnector

theorem plain_natDouble_text (number : NatDouble) : PlainText number.text := by
  intro character mem
  rcases NatDouble.mem_text mem with digit | other
  · have digits : ∀ other ∈ [character], other.isDigit := by simpa using digit
    exact PlainText.of_isDigit digits character (List.mem_singleton_self character)
  · simp only [List.mem_cons, List.not_mem_nil, or_false] at other
    rcases other with rfl | rfl | rfl | rfl | rfl | rfl <;> simp [nul]

namespace DBConnector

variable (connector : DBConnector)

theorem plain_objectsText : PlainText connector.objectsText :=
  PlainText.decimal _

theorem plain_sizeText : PlainText connector.sizeText :=
  plain_natDouble_text _

theorem plain_timeText (format : DurationFormat) : PlainText (connector.timeText format) :=
  format.plain _

theorem length_objectsText_le : connector.objectsText.length ≤ 10 := by
  have bound := connector.mLoadedObjects.toNat_lt
  exact (length_decimal_le_iff _ (by omega)).mpr (by omega)

end DBConnector

section ClockDurations

/-- A number of microseconds as `hours:minutes:seconds`, with a fraction unless it is zero. -/
def clockText (ticks : ℕ) : Text :=
  padded 2 (ticks / 3600000000) ++ ':' :: padded 2 (ticks / 60000000 % 60) ++
    ':' :: padded 2 (ticks / 1000000 % 60) ++
      (if ticks % 1000000 = 0 then [] else '.' :: padded 6 (ticks % 1000000))

/-- The text of a `time_duration`; three counts of microseconds stand for special values. -/
def durationText (duration : Int64) : Text :=
  if duration = Int64.maxValue then "+infinity".toList
  else if duration = Int64.minValue then "-infinity".toList
  else if duration = Int64.maxValue - 1 then "not-a-date-time".toList
  else (if duration < 0 then ['-'] else []) ++ clockText duration.toInt.natAbs

theorem plain_clockText (ticks : ℕ) : PlainText (clockText ticks) := by
  simp only [clockText, List.append_assoc, List.cons_append]
  have colon : ∀ {tail : Text}, PlainText tail → PlainText (':' :: tail) :=
    PlainText.cons (by decide) (by decide) (by decide)
  apply (PlainText.padded _ _).append
  apply colon
  apply (PlainText.padded _ _).append
  apply colon
  apply (PlainText.padded _ _).append
  split
  · exact PlainText.nil
  · exact (PlainText.padded _ _).cons (by decide) (by decide) (by decide)

theorem plain_durationText (duration : Int64) : PlainText (durationText duration) := by
  simp only [durationText]
  split
  · simp [PlainText, nul]
  split
  · simp [PlainText, nul]
  split
  · simp [PlainText, nul]
  · apply PlainText.append _ (plain_clockText _)
    split <;> simp [PlainText, nul]

theorem length_clockText_le {ticks : ℕ} (bound : ticks ≤ 2 ^ 63) :
    (clockText ticks).length ≤ 23 := by
  have hours : (padded 2 (ticks / 3600000000)).length ≤ 10 :=
    length_padded_le (by omega) (by omega) (by omega)
  have minutes : (padded 2 (ticks / 60000000 % 60)).length ≤ 2 :=
    length_padded_le (by omega) (by omega) (by omega)
  have seconds : (padded 2 (ticks / 1000000 % 60)).length ≤ 2 :=
    length_padded_le (by omega) (by omega) (by omega)
  have fraction : (padded 6 (ticks % 1000000)).length ≤ 6 :=
    length_padded_le (by omega) (by omega) (by omega)
  simp only [clockText, List.length_append, List.length_cons]
  split
  · simp only [List.length_nil]
    omega
  · simp only [List.length_cons]
    omega

theorem length_durationText_le (duration : Int64) : (durationText duration).length ≤ 24 := by
  simp only [durationText]
  split
  · simp
  split
  · simp
  split
  · simp
  · have lower := duration.le_toInt
    have upper := duration.toInt_lt
    have clock : (clockText duration.toInt.natAbs).length ≤ 23 :=
      length_clockText_le (by omega)
    rw [List.length_append]
    split
    · simp only [List.length_cons, List.length_nil]
      omega
    · simp only [List.length_nil]
      omega

/-- The format of a count of microseconds that Boost documents. -/
def clockDurations : DurationFormat where
  text := durationText
  plain := plain_durationText
  length_le := length_durationText_le

end ClockDurations

end KeyValueClusterPerf
