import KeyValueClusterPerf.DBConnector.Messaging
import Mathlib.Data.Stream.Init

/-!
# Two clients of the broker

The database connector and the key/value database `RiakJavaKeyValueDB` speak the same
protocol with the broker in code of their own. They send the same requests. They differ in a
GET whose reply is not OK: the database returns the empty value then, and the connector what
the reply has as its value.

The replies are any sequence of records. What the message sender computes from a message
for its own members, a SHA-1 or VMAC hash, is a parameter.
-/

namespace KeyValueClusterPerf

open Texts

/-- A codec that gives every message back. -/
structure FaithfulCodec extends MessageCodec where
  parse_serialize : ∀ message, parse (serialize message) = message

/-- A call of a client; a value that is put has at least one byte. -/
inductive ClientCall
  | put (key value : Text) (nonempty : value ≠ [])
  | get (key : Text)

namespace ClientCall

def message : ClientCall → RequestMessage
  | .put key value _ => { command := ['P', 'U', 'T'], key := key, value := value }
  | .get key => { command := ['G', 'E', 'T'], key := key }

/-- What a call returns that reads its result off the reply. -/
def result (returned : RequestMessage → Text) (reply : RequestMessage) :
    ClientCall → Option Text
  | .put _ _ _ => none
  | .get _ => some (returned reply)

end ClientCall

/-- The calls of a client that works on a state of its own. -/
structure KeyValueClient (State : Type) where
  putValue : ℕ → Text → Text → State → State
  getValue : ℕ → Text → State → State × Text

namespace KeyValueClient

variable {State : Type} (client : KeyValueClient State)

def perform (call : ℕ) (state : State) : ClientCall → State × Option Text
  | .put key value _ => (client.putValue call key value state, none)
  | .get key =>
      let (after, value) := client.getValue call key state
      (after, some value)

/-- A sequence of calls, the first of which has the number `call`. -/
def session (call : ℕ) (state : State) : List ClientCall → State × List (Option Text)
  | [] => (state, [])
  | made :: later =>
      let (after, result) := client.perform call state made
      let (last, results) := session (call + 1) after later
      (last, result :: results)

end KeyValueClient

/-- The broker that records what it receives, and answers with a sequence of messages. -/
def recordingBroker (codec : MessageCodec) : Broker where
  State := List Text × Stream' RequestMessage
  answer state request :=
    ((state.1 ++ [request], state.2.tail), codec.serialize state.2.head)

def readyConnection (codec : MessageCodec) (received : List Text)
    (replies : Stream' RequestMessage) : Connection (recordingBroker codec) :=
  ⟨.ready, (received, replies)⟩

def receivedRequests (codec : MessageCodec) (connection : Connection (recordingBroker codec)) :
    List RequestMessage :=
  connection.brokerState.1.map codec.parse

/-- The message sender of `RiakJavaKeyValueDB`, with its security settings and its hashes. -/
structure MessageSender (broker : Broker) where
  connection : Connection broker
  sha1Enabled : Bool
  vmacEnabled : Bool
  sha1Hash : Text
  vmacHash : UInt64
  tagl : UInt64

namespace MessageSender

variable {broker : Broker}

/-- The constructor, with a connection to the broker; the VMAC members are not initialised. -/
def construct (security : Text) (vmacHash tagl : UInt64) (connection : Connection broker) :
    MessageSender broker where
  connection := connection
  sha1Enabled := security = "sha1".toList
  vmacEnabled := security = "vmac".toList
  sha1Hash := []
  vmacHash := vmacHash
  tagl := tagl

section Hashes

variable (sha1 : Text → Text) (vmac : Text → UInt64 × UInt64)

/-- The hashes stay with the sender; the message goes to `zmq_msg_send` as it does in `MQ`. -/
def send (call : ℕ) (message : Text) (sender : MessageSender broker) : MessageSender broker :=
  { sender with
    sha1Hash := if sender.sha1Enabled then sha1 message else sender.sha1Hash
    vmacHash := if sender.vmacEnabled then (vmac message).1 else sender.vmacHash
    tagl := if sender.vmacEnabled then (vmac message).2 else sender.tagl
    connection := (MQ.send call message sender.connection).1 }

end Hashes

/-- The empty text is what is left in the message if nothing has been received. -/
def receive (interrupted : Bool) (sender : MessageSender broker) : MessageSender broker × Text :=
  let (connection, delivery) := MQ.receive interrupted sender.connection
  ({ sender with connection := connection }, (delivery.map Prod.snd).getD [])

end MessageSender

namespace RiakJavaKeyValueDB

variable {broker : Broker} (codec : MessageCodec) (sha1 : Text → Text)
  (vmac : Text → UInt64 × UInt64)

/-- The error of a reply that is not OK goes to the debug log. -/
def putValue (call : ℕ) (interrupted : Bool) (key value : Text) (sender : MessageSender broker) :
    MessageSender broker × Option Text :=
  let msgString := codec.serialize { command := ['P', 'U', 'T'], key := key, value := value }
  let (after, repString) := (sender.send sha1 vmac call msgString).receive interrupted
  let msgReply := codec.parse repString
  (after, if msgReply.command ≠ ['O', 'K'] then some msgReply.error else none)

/-- The value of a reply that is OK; the error of another goes to the debug log. -/
def getValue (call : ℕ) (interrupted : Bool) (key : Text) (sender : MessageSender broker) :
    MessageSender broker × Option Text × Text :=
  let getmsg := codec.serialize { command := ['G', 'E', 'T'], key := key }
  let (after, repString) := (sender.send sha1 vmac call getmsg).receive interrupted
  let msgReply := codec.parse repString
  if msgReply.command ≠ ['O', 'K'] then (after, some msgReply.error, [])
  else (after, none, msgReply.value)

/-- The database as a client whose receives succeed. -/
def client : KeyValueClient (MessageSender broker) where
  putValue call key value sender := (putValue codec sha1 vmac call false key value sender).1
  getValue call key sender :=
    let (after, _, value) := getValue codec sha1 vmac call false key sender
    (after, value)

end RiakJavaKeyValueDB

/-- The connector as a client whose receives succeed. -/
def DBConnector.client {broker : Broker} (codec : MessageCodec) :
    KeyValueClient (Connection broker) where
  putValue call key value connection := (putValue codec call false key value connection).1
  getValue call key connection :=
    let (after, _, _, value) := getValue codec call false key connection
    (after, value)

section Outcomes

variable (codec : MessageCodec)

/-- The records that the broker gets in a session, and the results of the calls. -/
structure SessionOutcome where
  requests : List RequestMessage
  results : List (Option Text)

def DBConnector.outcome (replies : Stream' RequestMessage) (calls : List ClientCall) :
    SessionOutcome :=
  let (connection, results) :=
    (DBConnector.client codec).session 0 (readyConnection codec [] replies) calls
  ⟨receivedRequests codec connection, results⟩

def RiakJavaKeyValueDB.outcome (sha1 : Text → Text) (vmac : Text → UInt64 × UInt64)
    (security : Text) (vmacHash tagl : UInt64) (replies : Stream' RequestMessage)
    (calls : List ClientCall) : SessionOutcome :=
  let (sender, results) := (RiakJavaKeyValueDB.client codec sha1 vmac).session 0
    (.construct security vmacHash tagl (readyConnection codec [] replies)) calls
  ⟨receivedRequests codec sender.connection, results⟩

end Outcomes

section Sessions

variable {State : Type} {client : KeyValueClient State} {codec : FaithfulCodec}
  {connection : State → Connection (recordingBroker codec.toMessageCodec)}
  {returned : RequestMessage → Text} {state : State} {received : List Text}
  {replies : Stream' RequestMessage}

/-- A call of the client sends its request, and reads its result off the reply to it. -/
structure Answers (client : KeyValueClient State)
    (connection : State → Connection (recordingBroker codec.toMessageCodec))
    (returned : RequestMessage → Text) : Prop where
  perform : ∀ {call : ℕ} {state : State} {received : List Text} {replies : Stream' RequestMessage},
    connection state = readyConnection codec.toMessageCodec received replies →
      ∀ made : ClientCall,
        connection (client.perform call state made).1 = readyConnection codec.toMessageCodec
            (received ++ [codec.serialize made.message]) replies.tail ∧
          (client.perform call state made).2 = made.result returned replies.head

/-- A session sends its requests in order, and reads each result off the reply to its request. -/
theorem Answers.session (answers : Answers client connection returned) (calls : List ClientCall)
    (call : ℕ) (ready : connection state = readyConnection codec.toMessageCodec received replies) :
    receivedRequests codec.toMessageCodec (connection (client.session call state calls).1) =
        received.map codec.parse ++ calls.map ClientCall.message ∧
      ∀ i : ℕ, (client.session call state calls).2[i]? =
        calls[i]?.map fun made => made.result returned (replies.get i) := by
  induction calls generalizing call state received replies with
  | nil =>
      rw [KeyValueClient.session, ready]
      exact ⟨(List.append_nil _).symm, fun i => rfl⟩
  | cons made later ih =>
      rcases answers.perform ready made with ⟨readyAgain, resultEq⟩
      rcases ih (call + 1) readyAgain with ⟨requestsEq, resultsEq⟩
      constructor
      · rw [List.map_append, List.map_singleton, codec.parse_serialize] at requestsEq
        rw [List.map_cons, List.append_cons]
        exact requestsEq
      · intro i
        cases i with
        | zero => exact congrArg some resultEq
        | succ i => exact resultsEq i

end Sessions

/-- What the database returns: the value of a reply that is OK. -/
def RiakJavaKeyValueDB.returned (reply : RequestMessage) : Text :=
  if reply.command ≠ ['O', 'K'] then [] else reply.value

theorem RiakJavaKeyValueDB.getValue_eq {broker : Broker} (codec : MessageCodec)
    (sha1 : Text → Text) (vmac : Text → UInt64 × UInt64) (call : ℕ) (interrupted : Bool)
    (key : Text) (sender : MessageSender broker) :
    let getmsg := codec.serialize { command := ['G', 'E', 'T'], key := key }
    let (after, repString) := (sender.send sha1 vmac call getmsg).receive interrupted
    (getValue codec sha1 vmac call interrupted key sender).1 = after ∧
      (getValue codec sha1 vmac call interrupted key sender).2.2 =
        returned (codec.parse repString) := by
  simp only [getValue, returned]
  split
  · exact ⟨rfl, rfl⟩
  · exact ⟨rfl, rfl⟩

section Agreement

variable (codec : FaithfulCodec) (sha1 : Text → Text) (vmac : Text → UInt64 × UInt64)

/-- The connector returns the value of any reply. -/
theorem DBConnector.answers :
    @Answers _ codec (DBConnector.client codec.toMessageCodec) (fun state => state)
      RequestMessage.value := by
  constructor
  intro call state received replies ready made
  subst ready
  cases made with
  | put key value nonempty => exact ⟨rfl, rfl⟩
  | get key =>
      refine ⟨rfl, ?_⟩
      exact congrArg (fun message => some message.value) (codec.parse_serialize replies.head)

theorem RiakJavaKeyValueDB.answers :
    @Answers _ codec (RiakJavaKeyValueDB.client codec.toMessageCodec sha1 vmac)
      MessageSender.connection returned := by
  constructor
  intro call state received replies ready made
  rcases state with ⟨connection, sha1Enabled, vmacEnabled, sha1Hash, vmacHash, tagl⟩
  change connection = _ at ready
  subst ready
  cases made with
  | put key value nonempty => exact ⟨rfl, rfl⟩
  | get key =>
      rcases getValue_eq codec.toMessageCodec sha1 vmac call false key
        ⟨readyConnection codec.toMessageCodec received replies, sha1Enabled, vmacEnabled, sha1Hash,
          vmacHash, tagl⟩ with ⟨senderEq, valueEq⟩
      constructor
      · exact congrArg MessageSender.connection senderEq
      · have parsed := congrArg (fun message => some (returned message))
          (codec.parse_serialize replies.head)
        exact (congrArg some valueEq).trans parsed

/--
Both clients send the same records in the same order, and each call has the same result with
both, which is the empty text for a GET whose reply is not OK.
-/
structure ClientsAgree (security : Text) (vmacHash tagl : UInt64)
    (replies : Stream' RequestMessage) (calls : List ClientCall) : Prop where
  requests : (DBConnector.outcome codec.toMessageCodec replies calls).requests =
    (RiakJavaKeyValueDB.outcome codec.toMessageCodec sha1 vmac security vmacHash tagl replies
      calls).requests
  results : (DBConnector.outcome codec.toMessageCodec replies calls).results =
    (RiakJavaKeyValueDB.outcome codec.toMessageCodec sha1 vmac security vmacHash tagl replies
      calls).results
  errors : ∀ (i : ℕ) (key : Text), calls[i]? = some (.get key) →
    (replies.get i).command ≠ ['O', 'K'] →
      (DBConnector.outcome codec.toMessageCodec replies calls).results[i]? = some (some []) ∧
        (RiakJavaKeyValueDB.outcome codec.toMessageCodec sha1 vmac security vmacHash tagl replies
          calls).results[i]? = some (some [])

variable {codec sha1 vmac} {security : Text} {vmacHash tagl : UInt64}
  {replies : Stream' RequestMessage} {calls : List ClientCall}

theorem DBConnector.outcome_eq :
    (outcome codec.toMessageCodec replies calls).requests = calls.map ClientCall.message ∧
      ∀ i : ℕ, (outcome codec.toMessageCodec replies calls).results[i]? =
        calls[i]?.map fun made => made.result RequestMessage.value (replies.get i) := by
  exact (DBConnector.answers codec).session calls 0 rfl

theorem RiakJavaKeyValueDB.outcome_eq :
    (outcome codec.toMessageCodec sha1 vmac security vmacHash tagl replies calls).requests =
        calls.map ClientCall.message ∧
      ∀ i : ℕ, (outcome codec.toMessageCodec sha1 vmac security vmacHash tagl replies
          calls).results[i]? =
        calls[i]?.map fun made => made.result returned (replies.get i) := by
  apply @Answers.session _ _ codec MessageSender.connection returned
    (.construct security vmacHash tagl (readyConnection codec.toMessageCodec [] replies)) [] replies
  · exact RiakJavaKeyValueDB.answers codec sha1 vmac
  · rfl

theorem RiakJavaKeyValueDB.returned_eq_value_iff (reply : RequestMessage) :
    returned reply = reply.value ↔ reply.command = ['O', 'K'] ∨ reply.value = [] := by
  rw [returned]
  split
  · rename_i failed
    rw [or_iff_right failed, eq_comm]
  · rename_i succeeded
    rw [not_not] at succeeded
    simp [succeeded]

/-- The two clients agree exactly if each GET has a reply that is OK or has no value. -/
theorem clientsAgree_iff :
    ClientsAgree codec sha1 vmac security vmacHash tagl replies calls ↔
      ∀ (i : ℕ) (key : Text), calls[i]? = some (.get key) →
        (replies.get i).command = ['O', 'K'] ∨ (replies.get i).value = [] := by
  rcases @DBConnector.outcome_eq codec replies calls with ⟨connectorRequests, connectorResults⟩
  rcases @RiakJavaKeyValueDB.outcome_eq codec sha1 vmac security vmacHash tagl replies calls with
    ⟨databaseRequests, databaseResults⟩
  constructor
  · intro agree i key atI
    have same := congrArg (·[i]?) agree.results
    simp only [connectorResults, databaseResults, atI, Option.map_some, ClientCall.result,
      Option.some.injEq] at same
    exact (RiakJavaKeyValueDB.returned_eq_value_iff (replies.get i)).mp same.symm
  · intro condition
    constructor
    · rw [connectorRequests, databaseRequests]
    · apply List.ext_getElem?
      intro i
      rw [connectorResults, databaseResults]
      cases atI : calls[i]? with
      | none => rfl
      | some made =>
          cases made with
          | put key value nonempty => rfl
          | get key =>
              have same := (RiakJavaKeyValueDB.returned_eq_value_iff (replies.get i)).mpr
                (condition i key atI)
              exact congrArg (fun text => some (some text)) same.symm
    · intro i key atI failed
      have empty := (condition i key atI).resolve_left failed
      rw [connectorResults, databaseResults, atI]
      constructor
      · exact congrArg (fun text => some (some text)) empty
      · exact congrArg (fun text => some (some text)) (if_pos failed)

end Agreement

/-- A field with a mark before each of its characters, and another one at its end. -/
def writeField (field : Text) : Text :=
  field.flatMap (fun character => ['+', character]) ++ ['.']

/-- The field at the front of a text, and what follows it. -/
def readField : Text → Text × Text
  | '+' :: character :: rest =>
      let (field, behind) := readField rest
      (character :: field, behind)
  | _ :: behind => ([], behind)
  | [] => ([], [])

theorem readField_writeField (field behind : Text) :
    readField (writeField field ++ behind) = (field, behind) := by
  induction field with
  | nil => rfl
  | cons character rest ih =>
      have shape : writeField (character :: rest) ++ behind =
          '+' :: character :: (writeField rest ++ behind) := by
        simp [writeField]
      rw [shape, readField, ih]

/-- A faithful codec: the four fields behind each other. -/
def fieldCodec : FaithfulCodec where
  serialize message := writeField message.command ++ (writeField message.key ++
    (writeField message.value ++ (writeField message.error ++ [])))
  parse text :=
    let (command, afterCommand) := readField text
    let (key, afterKey) := readField afterCommand
    let (value, afterValue) := readField afterKey
    let (error, _) := readField afterValue
    ⟨command, key, value, error⟩
  parse_serialize message := by
    simp only [readField_writeField]

/-- The reply to a GET is an error, and has a value that only one of the clients returns. -/
theorem not_clientsAgree_error :
    ¬ClientsAgree fieldCodec (fun _ => []) (fun _ => (0, 0)) "none".toList 0 0
      (Stream'.const { command := "ERROR".toList, value := ['x'] }) [.get ['k']] := by
  intro agree
  have empty := (agree.errors 0 ['k'] rfl (by decide)).1
  rw [DBConnector.outcome_eq.2 0] at empty
  exact absurd empty (by decide)

end KeyValueClusterPerf
