import KeyValueClusterPerf.DBConnector.Basic

/-!
# Requests and replies over the broker socket

`putValue` and `getValue` send one serialised message over a `ZMQ_REQ` socket, receive
one message and parse it. `MQ::send` and `MQ::receive` report failures on the console
only. A send while a reply is outstanding fails and leaves the socket as it is; an
interrupted receive yields the empty message and leaves the reply outstanding.

So after an interrupted receive the next call sends nothing, and its receive picks up the
reply of the earlier request. The theorem of this file says exactly for which patterns of
interruptions every parsed reply belongs to its own call.

The message codec and the broker are parameters: the generated protobuf code and the
broker are not part of the repository.
-/

namespace KeyValueClusterPerf

open Texts

/-- The protobuf message of requests and replies; an absent field reads as the empty text. -/
structure RequestMessage where
  command : Text := []
  key : Text := []
  value : Text := []
  error : Text := []

/-- Serialisation and parsing of the messages, as generated by protobuf. -/
structure MessageCodec where
  serialize : RequestMessage → Text
  parse : Text → RequestMessage

/-- The broker answers each delivered request in order, depending on its own state. -/
structure Broker where
  State : Type
  answer : State → Text → State × Text

/-- A `ZMQ_REQ` socket: ready to send, or waiting for the reply to the request of a call. -/
inductive ReqSocket
  | ready
  | waiting (call : ℕ) (reply : Text)

structure Connection (broker : Broker) where
  socket : ReqSocket
  brokerState : broker.State

variable {broker : Broker}

/-- `MQ::send`: the connection after it and the number of bytes sent, `-1` on failure. -/
def MQ.send (call : ℕ) (buffer : Text) (connection : Connection broker) : Connection broker × ℤ :=
  match connection.socket with
  | .ready =>
      let (brokerState, reply) := broker.answer connection.brokerState buffer
      (⟨.waiting call reply, brokerState⟩, buffer.length)
  | .waiting _ _ => (connection, -1)

/-- `MQ::receive`: the connection after it, and the message with the call it answers. -/
def MQ.receive (interrupted : Bool) (connection : Connection broker) :
    Connection broker × Option (ℕ × Text) :=
  match connection.socket, interrupted with
  | .waiting call reply, false => (⟨.ready, connection.brokerState⟩, some (call, reply))
  | _, _ => (connection, none)

/-- What a call did: the call whose request the parsed reply answers, if a message was received. -/
structure Exchange where
  call : ℕ
  source : Option ℕ
  msgReply : RequestMessage

namespace DBConnector

variable (codec : MessageCodec)

/-- Sends a message and parses what is received, which after a failure is the empty text. -/
def exchange (call : ℕ) (interrupted : Bool) (message : RequestMessage)
    (connection : Connection broker) : Connection broker × Exchange :=
  let sent := (MQ.send call (codec.serialize message) connection).1
  let (received, delivery) := MQ.receive interrupted sent
  (received, ⟨call, delivery.map Prod.fst, codec.parse ((delivery.map Prod.snd).getD [])⟩)

/-- `putValue`; the error of a reply that is not OK goes to the debug log. -/
def putValue (call : ℕ) (interrupted : Bool) (key value : Text) (connection : Connection broker) :
    Connection broker × Exchange × Option Text :=
  let (after, done) := exchange codec call interrupted
    { command := ['P', 'U', 'T'], key := key, value := value } connection
  (after, done, if done.msgReply.command ≠ ['O', 'K'] then some done.msgReply.error else none)

/-- `getValue`; it returns the value of the reply, also when the reply is not OK. -/
def getValue (call : ℕ) (interrupted : Bool) (key : Text) (connection : Connection broker) :
    Connection broker × Exchange × Option Text × Text :=
  let (after, done) := exchange codec call interrupted
    { command := ['G', 'E', 'T'], key := key } connection
  (after, done, if done.msgReply.command ≠ ['O', 'K'] then some done.msgReply.error else none,
    done.msgReply.value)

def performCall (call : ℕ) (request : Request) (interrupted : Bool)
    (connection : Connection broker) : Connection broker × Exchange :=
  match request with
  | .put key value =>
      let (after, done, _) := putValue codec call interrupted key value connection
      (after, done)
  | .get key =>
      let (after, done, _) := getValue codec call interrupted key connection
      (after, done)

/-- The exchanges of a sequence of calls, the first of which has the number `call`. -/
def performCalls (call : ℕ) (connection : Connection broker) :
    List (Request × Bool) → List Exchange
  | [] => []
  | (request, interrupted) :: later =>
      let (after, done) := performCall codec call request interrupted connection
      done :: performCalls (call + 1) after later

/-- Whenever a receive succeeded, the parsed reply answers the request of the same call. -/
def Correlated (exchanges : List Exchange) : Prop :=
  ∀ done ∈ exchanges, ∀ source ∈ done.source, source = done.call

variable {codec}

/-- A call on a ready socket gets its own reply, unless it is interrupted. -/
theorem performCall_ready (call : ℕ) (request : Request) (interrupted : Bool)
    (brokerState : broker.State) :
    ∃ after done, performCall codec call request interrupted ⟨.ready, brokerState⟩ = (after, done) ∧
      done.call = call ∧ done.source = (if interrupted then none else some call) ∧
      (interrupted = false → after.socket = .ready) ∧
      (interrupted = true → ∃ reply, after.socket = .waiting call reply) := by
  cases request <;> cases interrupted <;>
    simp [performCall, putValue, getValue, exchange, MQ.send, MQ.receive]

/-- A call on a waiting socket gets the outstanding reply, unless it is interrupted. -/
theorem performCall_waiting (call earlier : ℕ) (request : Request) (interrupted : Bool)
    (reply : Text) (brokerState : broker.State) :
    ∃ after done, performCall codec call request interrupted ⟨.waiting earlier reply, brokerState⟩ =
        (after, done) ∧
      done.call = call ∧ done.source = (if interrupted then none else some earlier) ∧
      (interrupted = true → after.socket = .waiting earlier reply) := by
  cases request <;> cases interrupted <;>
    simp [performCall, putValue, getValue, exchange, MQ.send, MQ.receive]

theorem correlated_cons {done : Exchange} {later : List Exchange} :
    Correlated (done :: later) ↔
      (∀ source ∈ done.source, source = done.call) ∧ Correlated later := by
  simp [Correlated]

/-- With a reply of an earlier call outstanding, every further receive must be interrupted. -/
theorem correlated_waiting_iff {call earlier : ℕ} (before : earlier < call)
    {connection : Connection broker} {reply : Text}
    (outstanding : connection.socket = .waiting earlier reply) (calls : List (Request × Bool)) :
    Correlated (performCalls codec call connection calls) ↔ ∀ made ∈ calls, made.2 = true := by
  induction calls generalizing call connection with
  | nil => simp [performCalls, Correlated]
  | cons made later ih =>
      rcases made with ⟨request, interrupted⟩
      rcases connection with ⟨socket, brokerState⟩
      have sameSocket : socket = .waiting earlier reply := outstanding
      subst sameSocket
      rcases performCall_waiting call earlier request interrupted reply brokerState with
        ⟨after, done, performed, doneCall, doneSource, stillWaiting⟩
      rw [performCalls, performed]
      change Correlated (done :: performCalls codec (call + 1) after later) ↔ _
      rw [correlated_cons, doneSource, doneCall]
      cases interrupted with
      | true =>
          rw [ih (by omega) (stillWaiting rfl), List.forall_mem_cons]
          simp
      | false =>
          constructor
          · rintro ⟨own, _⟩
            exact absurd (own earlier rfl) (by omega)
          · intro allInterrupted
            exact absurd (allInterrupted (request, false) (by simp)) (by simp)

/--
Every parsed reply answers the request of its own call exactly when no interrupted
receive is followed by one that succeeds.
-/
theorem correlated_iff (codec : MessageCodec) (brokerState : broker.State)
    (calls : List (Request × Bool)) :
    Correlated (performCalls codec 0 ⟨.ready, brokerState⟩ calls) ↔
      calls.Pairwise fun earlier later => earlier.2 = true → later.2 = true := by
  suffices fromReady : ∀ (call : ℕ) (connection : Connection broker),
      connection.socket = .ready → (Correlated (performCalls codec call connection calls) ↔
        calls.Pairwise fun earlier later => earlier.2 = true → later.2 = true) from
    fromReady 0 ⟨.ready, brokerState⟩ rfl
  induction calls with
  | nil => simp [performCalls, Correlated]
  | cons made later ih =>
      intro call connection isReady
      rcases made with ⟨request, interrupted⟩
      rcases connection with ⟨socket, state⟩
      have sameSocket : socket = .ready := isReady
      subst sameSocket
      rcases performCall_ready call request interrupted state with
        ⟨after, done, performed, doneCall, doneSource, againReady, nowWaiting⟩
      rw [performCalls, performed]
      change Correlated (done :: performCalls codec (call + 1) after later) ↔ _
      rw [correlated_cons, doneSource, doneCall, List.pairwise_cons]
      cases interrupted with
      | false =>
          -- The socket is ready again: only the later calls matter.
          simp [ih (call + 1) after (againReady rfl)]
      | true =>
          -- The reply stays outstanding: every later receive has to fail as well.
          rcases nowWaiting rfl with ⟨reply, outstanding⟩
          rw [correlated_waiting_iff (Nat.lt_succ_self call) outstanding]
          constructor
          · rintro ⟨_, allInterrupted⟩
            refine ⟨fun other mem _ => allInterrupted other mem, ?_⟩
            apply List.pairwise_of_forall_mem_list
            intro _ _ other mem _
            exact allInterrupted other mem
          · rintro ⟨allInterrupted, _⟩
            exact ⟨by simp, fun other mem => allInterrupted other mem rfl⟩

/-- A codec that keeps only the key and the value, for closed examples. -/
def plainCodec : MessageCodec where
  serialize message := message.key
  parse text := { command := ['O', 'K'], value := text }

def echoBroker : Broker where
  State := Unit
  answer _ request := ((), request)

/-- A GET whose receive is interrupted makes the next GET return the value of the first key. -/
theorem getValue_returns_foreign_reply :
    ¬Correlated (performCalls plainCodec 0 (⟨.ready, ()⟩ : Connection echoBroker)
      [(.get ['a'], true), (.get ['b'], false)]) ∧
    (performCalls plainCodec 0 (⟨.ready, ()⟩ : Connection echoBroker)
      [(.get ['a'], true), (.get ['b'], false)]).map (·.msgReply.value) = [[], ['a']] := by
  constructor
  · intro correlated
    have foreign := correlated ⟨1, some 0, { command := ['O', 'K'], value := ['a'] }⟩
      (by simp [performCalls, performCall, getValue, exchange, MQ.send, MQ.receive, plainCodec,
        echoBroker])
    exact absurd (foreign 0 rfl) (by simp)
  · rfl

end DBConnector

end KeyValueClusterPerf
