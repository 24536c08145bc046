import KeyValueClusterPerf.DBConnector.Results
import KeyValueClusterPerf.Foundations.Buffer
import KeyValueClusterPerf.Foundations.Extent

/-!
# From the statistics of a worker to a line of the results file

A worker writes its results as `key=value` lines into a stack buffer of 1024 bytes and
sends the whole buffer. The controller copies the message into a heap buffer of 1024
bytes, stores a NUL behind it, and parses the C string at its front. Finally it writes one
line per worker under the header of the CSV file.

The store is outside the array, so the controller is modelled with the memory from the start of
the array on: the byte behind the array is taken to be memory that nothing else uses. The map is
reordered by its keys on the way, and all buffers held arbitrary bytes before. The theorem of
this file carries the statistics through all stages.
-/

namespace KeyValueClusterPerf

open Texts ConfigurationManager Extents

variable {format : DurationFormat} {hostname : Hostname} {connector : DBConnector}

/-- The frame that the GETRESULTS branch builds in `char buffer[1024]`. -/
def resultsFrame (results : StringMap) (buffer : Buffer 1024) : Option (Buffer 1024) := do
  let resultsData ← writeString results
  let copied ← buffer.strcpy resultsData
  copied.store (1024 - 1) nul

/-- The data of the message after `zmq_msg_recv`; a message that is not received is empty. -/
def messageExtent (delivery : Option Text) (behind : ℕ → Char) : Extent Char :=
  .ofList (delivery.getD []) behind

/-- `MQ::receive(buffer, size)`, with the message that has arrived. -/
def MQ.receiveInto (message buffer : Extent Char) (size : ℕ) : Extent Char × List Access :=
  memcpy message buffer size

namespace SimulationController

/-- The memory that `receiveDataFromWorker` leaves, and its accesses. -/
def receiveDataFromWorker (message buffer : Extent Char) : Extent Char × List Access :=
  let (received, copied) := MQ.receiveInto message buffer 1024
  let (closed, stored) := store received 1024 nul
  (closed, copied ++ stored)

/-- The map that `run` reads from the data of a worker; the terminator ends its text at last. -/
def readResults (message buffer : Extent Char) : StringMap :=
  readString (stringUpTo (receiveDataFromWorker message buffer).1 1024)

def csvHeader : Text :=
  "Hostname, Loaded objects, Total data size, Time duration".toList

def csvLine (hostResults : StringMap) : Text :=
  hostResults.getD hostnameKey [] ++ ',' :: hostResults.getD objectsKey [] ++
    ',' :: hostResults.getD sizeKey [] ++ ',' :: hostResults.getD durationKey []

def mergeResults (results : List StringMap) : Text :=
  unlines (csvHeader :: results.map csvLine)

end SimulationController

open SimulationController

theorem cleanEntry_of_mem_getResults (format : DurationFormat) (hostname : Hostname)
    (connector : DBConnector) :
    ∀ entry ∈ (connector.getResults format hostname).toList, CleanEntry entry := by
  rw [connector.toList_getResults format hostname]
  intro entry mem
  simp only [List.mem_cons, List.not_mem_nil, or_false] at mem
  rcases mem with rfl | rfl | rfl | rfl
  · exact CleanEntry.of_key (by decide) (connector.plain_timeText format).newline_not_mem
  · exact CleanEntry.of_key (by decide) hostname.plain.newline_not_mem
  · exact CleanEntry.of_key (by decide) connector.plain_objectsText.newline_not_mem
  · exact CleanEntry.of_key (by decide) connector.plain_sizeText.newline_not_mem

theorem writeString_getResults (format : DurationFormat) (hostname : Hostname)
    (connector : DBConnector) :
    writeString (connector.getResults format hostname) =
      some (durationKey ++ '=' :: connector.timeText format ++
        '\n' :: hostnameKey ++ '=' :: hostname.text ++
        '\n' :: objectsKey ++ '=' :: connector.objectsText ++
        '\n' :: sizeKey ++ '=' :: connector.sizeText) := by
  rw [writeString, connector.toList_getResults format hostname]
  simp [entryText]

theorem nul_not_mem_of_writeString {resultsData : Text}
    (written : writeString (connector.getResults format hostname) = some resultsData) :
    nul ∉ resultsData := by
  have objectsClean := connector.plain_objectsText.nul_not_mem
  have sizeClean := connector.plain_sizeText.nul_not_mem
  have durationClean := (connector.plain_timeText format).nul_not_mem
  have hostnameClean := hostname.plain.nul_not_mem
  have keysClean : nul ∉ durationKey ∧ nul ∉ hostnameKey ∧ nul ∉ objectsKey ∧ nul ∉ sizeKey := by
    decide
  have separatorsClean : nul ≠ '=' ∧ nul ≠ '\n' := by
    decide
  rw [writeString_getResults, Option.some.injEq] at written
  subst written
  simp only [List.mem_append, List.mem_cons, not_or, keysClean, separatorsClean, objectsClean,
    sizeClean, durationClean, hostnameClean, not_false_eq_true, and_self]

theorem length_of_writeString {resultsData : Text}
    (written : writeString (connector.getResults format hostname) = some resultsData) :
    resultsData.length ≤ 335 := by
  have objectsLength := connector.length_objectsText_le
  have sizeLength := connector.mTotalDataSize.length_text_le
  have durationLength := format.length_le connector.mDuration
  have hostnameLength := hostname.length_le
  have keyLengths : durationKey.length = 8 ∧ hostnameKey.length = 8 ∧ objectsKey.length = 7 ∧
      sizeKey.length = 4 := by
    decide
  rw [writeString_getResults, Option.some.injEq] at written
  subst written
  simp only [List.length_append, List.length_cons]
  simp only [DBConnector.sizeText, DBConnector.timeText]
  omega

/-- The worker's frame holds the text of the results and a NUL behind it. -/
theorem resultsFrame_holds (format : DurationFormat) (hostname : Hostname)
    (connector : DBConnector) (stack : Buffer 1024) :
    ∃ resultsData frame, writeString (connector.getResults format hostname) = some resultsData ∧
      resultsFrame (connector.getResults format hostname) stack = some frame ∧
      frame.Holds resultsData := by
  have written := writeString_getResults format hostname connector
  generalize resultsData_eq : durationKey ++ '=' :: connector.timeText format ++
    '\n' :: hostnameKey ++ '=' :: hostname.text ++ '\n' :: objectsKey ++
    '=' :: connector.objectsText ++ '\n' :: sizeKey ++ '=' :: connector.sizeText =
      resultsData at written
  have short := length_of_writeString written
  rcases Buffer.strcpy_holds (nul_not_mem_of_writeString written) (by omega) stack with
    ⟨copied, copiedEq, copiedHolds⟩
  have position : 1024 - 1 < 1024 ∧ resultsData.length ≤ 1024 - 1 := by
    omega
  rcases copiedHolds.store position.1 position.2 with ⟨frame, frameEq, frameHolds⟩
  refine ⟨resultsData, frame, written, ?_, frameHolds⟩
  simp only [resultsFrame, written, Option.bind_eq_bind, Option.bind_some, copiedEq, frameEq]

/-- What is received of a message of enough bytes are its bytes, up to the terminator. -/
theorem cells_receiveDataFromWorker {bytes : Text} (long : 1024 ≤ bytes.length)
    (behindMessage : ℕ → Char) (buffer : Extent Char) {index : ℕ} (below : index < 1024) :
    (receiveDataFromWorker (messageExtent (some bytes) behindMessage) buffer).1.cells index =
      bytes[index] := by
  have apart : index ≠ 1024 := by
    omega
  have inside : index < bytes.length := by
    omega
  simp only [receiveDataFromWorker, MQ.receiveInto, store, memcpy, messageExtent,
    Option.getD_some, Function.update_of_ne apart, if_pos below]
  exact cells_ofList_of_lt inside behindMessage

/-- The controller reads the worker's map from the worker's frame. -/
theorem readResults_resultsFrame (format : DurationFormat) (hostname : Hostname)
    (connector : DBConnector) (stack : Buffer 1024) (behindMessage heap : ℕ → Char) :
    ∃ frame, resultsFrame (connector.getResults format hostname) stack = some frame ∧
      readResults (messageExtent (some frame.bytes) behindMessage) ⟨1024, heap⟩ =
        connector.getResults format hostname := by
  rcases resultsFrame_holds format hostname connector stack with
    ⟨resultsData, frame, written, frameEq, rest, bytesEq⟩
  have clean := nul_not_mem_of_writeString written
  have short := length_of_writeString written
  have long := frame.length_eq.ge
  have parsed := readString_writeString (cleanEntry_of_mem_getResults format hostname connector)
    written
  have text : stringUpTo (receiveDataFromWorker (messageExtent (some frame.bytes) behindMessage)
      ⟨1024, heap⟩).1 1024 = resultsData := by
    apply stringUpTo_eq clean (by omega)
    · intro index below
      rw [cells_receiveDataFromWorker long _ _ (by omega)]
      simp [bytesEq, List.getElem_append_left below]
    · rw [cells_receiveDataFromWorker long _ _ (by omega)]
      simp [bytesEq]
  exact ⟨frame, frameEq, (congrArg readString text).trans parsed⟩

theorem csvLine_getResults (hostname : Hostname) (connector : DBConnector) :
    csvLine (connector.getResults format hostname) =
      hostname.text ++ ',' :: connector.objectsText ++ ',' :: connector.sizeText ++
        ',' :: connector.timeText format := by
  rfl

theorem newline_not_mem_csvLine (format : DurationFormat) (hostname : Hostname)
    (connector : DBConnector) :
    '\n' ∉ csvLine (connector.getResults format hostname) := by
  have objectsClosed := connector.plain_objectsText.newline_not_mem
  have sizeClosed := connector.plain_sizeText.newline_not_mem
  have durationClosed := (connector.plain_timeText format).newline_not_mem
  have hostnameClosed := hostname.plain.newline_not_mem
  have distinct : '\n' ≠ ',' := by
    decide
  rw [csvLine_getResults]
  simp only [List.mem_append, List.mem_cons]
  tauto

theorem splitOn_csvLine (format : DurationFormat) (hostname : Hostname)
    (connector : DBConnector) :
    (csvLine (connector.getResults format hostname)).splitOn ',' =
      [hostname.text, connector.objectsText, connector.sizeText, connector.timeText format] := by
  have objectsClosed := connector.plain_objectsText.comma_not_mem
  have sizeClosed := connector.plain_sizeText.comma_not_mem
  have durationClosed := (connector.plain_timeText format).comma_not_mem
  rw [csvLine_getResults]
  simp only [List.append_assoc, List.cons_append]
  rw [List.splitOn_append_cons_self_of_not_mem hostname.plain.comma_not_mem,
    List.splitOn_append_cons_self_of_not_mem objectsClosed,
    List.splitOn_append_cons_self_of_not_mem sizeClosed,
    List.splitOn_eq_singleton durationClosed]

/--
What a worker reports, what its stack buffer and the controller's memory from the heap buffer on
held before, and what the memory holds behind the message.
-/
structure Report where
  hostname : Hostname
  connector : DBConnector
  stack : Buffer 1024
  heap : ℕ → Char
  behindMessage : ℕ → Char

namespace Report

variable (format : DurationFormat) (report : Report)

def results : StringMap :=
  report.connector.getResults format report.hostname

def transfer : Option StringMap := do
  let frame ← resultsFrame (report.results format) report.stack
  some (readResults (messageExtent (some frame.bytes) report.behindMessage) ⟨1024, report.heap⟩)

def fields : List Text :=
  [report.hostname.text, report.connector.objectsText, report.connector.sizeText,
    report.connector.timeText format]

theorem transfer_eq : report.transfer format = some (report.results format) := by
  rcases readResults_resultsFrame format report.hostname report.connector report.stack
    report.behindMessage report.heap with ⟨frame, frameEq, read⟩
  simp only [transfer, results, frameEq, Option.bind_eq_bind, Option.bind_some, read]

end Report

/--
The results of every worker fit in its frame and reach the controller unchanged, and the
results file consists of the header and one line with the fields of each worker.
-/
theorem results_integrity (format : DurationFormat) (reports : List Report) :
    (∀ report ∈ reports, ∃ resultsData,
      writeString (report.results format) = some resultsData ∧
        resultsData.length + 1 ≤ 1024 ∧ nul ∉ resultsData) ∧
    reports.mapM (Report.transfer format) = some (reports.map (Report.results format)) ∧
    ∃ rows, lines (mergeResults (reports.map (Report.results format))) = csvHeader :: rows ∧
      rows.length = reports.length ∧
      rows.map (List.splitOn ',') = reports.map (Report.fields format) := by
  refine ⟨?_, ?_, ?_⟩
  · intro report _
    have written := writeString_getResults format report.hostname report.connector
    refine ⟨_, written, ?_, nul_not_mem_of_writeString written⟩
    have short := length_of_writeString written
    omega
  · rw [funext (Report.transfer_eq format)]
    exact List.mapM_pure
  · refine ⟨(reports.map (Report.results format)).map csvLine, ?_, by simp, ?_⟩
    · apply lines_unlines
      intro line mem
      rcases List.mem_cons.mp mem with rfl | rowMem
      · decide
      · simp only [List.map_map, List.mem_map] at rowMem
        rcases rowMem with ⟨report, _, rfl⟩
        exact newline_not_mem_csvLine format report.hostname report.connector
    · simp only [List.map_map]
      apply List.map_congr_left
      intro report _
      exact splitOn_csvLine format report.hostname report.connector

/-- Three objects in a second and a half, with memory that holds no NUL. -/
def sampleReport : Report where
  hostname := sampleHost
  connector := { DBConnector.construct (.finite (-1)) with
    mLoadedObjects := 3
    mDuration := 1500000 }
  stack := ⟨List.replicate 1024 'x', List.length_replicate⟩
  heap := fun _ => 'x'
  behindMessage := fun _ => 'x'

theorem results_integrity_sample :
    [sampleReport].mapM (Report.transfer clockDurations) =
        some [sampleReport.results clockDurations] ∧
      ∃ row, lines (mergeResults [sampleReport.results clockDurations]) = [csvHeader, row] ∧
        row.splitOn ',' = ["node".toList, ['3'], ['0'], "00:00:01.500000".toList] := by
  rcases results_integrity clockDurations [sampleReport] with ⟨_, transferred, rows, written⟩
  rcases written with ⟨linesEq, lengthEq, fieldsEq⟩
  rcases List.length_eq_one_iff.mp lengthEq with ⟨row, rfl⟩
  refine ⟨transferred, row, linesEq, (List.cons.inj fieldsEq).1.trans ?_⟩
  decide +kernel

end KeyValueClusterPerf
