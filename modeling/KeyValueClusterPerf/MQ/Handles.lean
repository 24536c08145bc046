import KeyValueClusterPerf.Foundations.GuardedRelease
import KeyValueClusterPerf.Foundations.Objects

/-!
# The handles of a message queue

An `MQ` has a context and a socket of ZeroMQ by pointers. `closeSocket` clears its pointer
whatever `zmq_close` says. `destroy` clears its pointer only if `zmq_ctx_destroy` fails, and
not with `EINTR`: after a success the pointer refers to a terminated context, which the
next `destroy` hands to ZeroMQ again.
-/

namespace KeyValueClusterPerf

open Lifetimes GuardedReleases

def EINTR : Int32 := 4

/-- The outcome of a call of ZeroMQ, with the `errno` of a failure. -/
inductive ZmqOutcome
  | success
  | failure (errno : Int32)

namespace ZmqOutcome

def Succeeded : ZmqOutcome → Bool
  | .success => true
  | .failure _ => false

/-- A failure that is not repeatable; `destroy` clears its pointer after it. -/
def FailedForGood : ZmqOutcome → Bool
  | .success => false
  | .failure errno => errno ≠ EINTR

end ZmqOutcome

/-- The contexts and the sockets, with their types, that ZeroMQ has. -/
structure Zmq where
  contexts : Objects Unit
  sockets : Objects Int32

structure MQ where
  mContext : Option ℕ
  mSocket : Option ℕ
  zmq : Zmq

/-- What has been done to a handle, which was alive or not. -/
inductive HandleUse
  | zmq_close (alive : Bool)
  | zmq_ctx_destroy (alive : Bool)

namespace HandleUse

def alive : HandleUse → Bool
  | .zmq_close alive => alive
  | .zmq_ctx_destroy alive => alive

def socket? : HandleUse → Option Bool
  | .zmq_close alive => some alive
  | .zmq_ctx_destroy _ => none

def context? : HandleUse → Option Bool
  | .zmq_close _ => none
  | .zmq_ctx_destroy alive => some alive

end HandleUse

namespace Zmq

def zmq_close (socket : ℕ) (outcome : ZmqOutcome) (zmq : Zmq) : Zmq :=
  match outcome with
  | .success => { zmq with sockets := zmq.sockets.delete socket }
  | .failure _ => zmq

def zmq_ctx_destroy (context : ℕ) (outcome : ZmqOutcome) (zmq : Zmq) : Zmq :=
  match outcome with
  | .success => { zmq with contexts := zmq.contexts.delete context }
  | .failure _ => zmq

end Zmq

/-- A call of an opened `MQ`, with the outcome of the call of ZeroMQ that it makes, if any. -/
inductive MQCall
  | closeSocket (outcome : ZmqOutcome)
  | destroy (outcome : ZmqOutcome)

namespace MQCall

def closing? : MQCall → Option ZmqOutcome
  | .closeSocket outcome => some outcome
  | .destroy _ => none

def destruction? : MQCall → Option ZmqOutcome
  | .closeSocket _ => none
  | .destroy outcome => some outcome

end MQCall

namespace MQ

/-- The constructor, which leaves `mSocket` as it is; the program ends without a context. -/
def construct (created : Bool) (mSocket : Option ℕ) (zmq : Zmq) : Option MQ :=
  if created then
    some ⟨some zmq.contexts.constructed, mSocket,
      { zmq with contexts := zmq.contexts.construct () }⟩
  else none

/-- The program ends if there is no socket. -/
def openSocket (type : Int32) (created : Bool) (mq : MQ) : Option MQ :=
  if created then
    some { mq with
      mSocket := some mq.zmq.sockets.constructed
      zmq := { mq.zmq with sockets := mq.zmq.sockets.construct type } }
  else none

def closeSocket (outcome : ZmqOutcome) (mq : MQ) : MQ × Option HandleUse :=
  match mq.mSocket with
  | none => (mq, none)
  | some socket =>
      ({ mq with mSocket := none, zmq := mq.zmq.zmq_close socket outcome },
        some (.zmq_close (mq.zmq.sockets.alive socket).isSome))

def destroy (outcome : ZmqOutcome) (mq : MQ) : MQ × Option HandleUse :=
  match mq.mContext with
  | none => (mq, none)
  | some context =>
      let destroyed := { mq with zmq := mq.zmq.zmq_ctx_destroy context outcome }
      let use := HandleUse.zmq_ctx_destroy (mq.zmq.contexts.alive context).isSome
      match outcome with
      | .success => (destroyed, some use)
      | .failure errno =>
          if errno = EINTR then (destroyed, some use)
          else ({ destroyed with mContext := none }, some use)

def perform : MQCall → MQ → MQ × Option HandleUse
  | .closeSocket outcome, mq => mq.closeSocket outcome
  | .destroy outcome, mq => mq.destroy outcome

def handleUses : List MQCall → MQ → List HandleUse
  | [], _ => []
  | call :: later, mq =>
      let (next, use) := mq.perform call
      use.toList ++ next.handleUses later

/-- The queue after the constructor and one `openSocket` that did not end the program. -/
def Opened (mq : MQ) : Prop :=
  ∃ (contextCreated socketCreated : Bool) (type : Int32) (mSocket : Option ℕ) (zmq : Zmq),
    (construct contextCreated mSocket zmq).bind (openSocket type socketCreated) = some mq

/-- `zmq_close` is applied to a live socket only, and `zmq_ctx_destroy` to a live context. -/
def OnlyLiveHandles (calls : List MQCall) (mq : MQ) : Prop :=
  ∀ use ∈ mq.handleUses calls, use.alive = true

def closePolicy : Policy ZmqOutcome := ⟨ZmqOutcome.Succeeded, fun _ => true⟩

def destroyPolicy : Policy ZmqOutcome := ⟨ZmqOutcome.Succeeded, ZmqOutcome.FailedForGood⟩

section Pointers

variable (mq : MQ) (outcome : ZmqOutcome)

def socketPointer : Pointer :=
  mq.mSocket.map fun socket => (mq.zmq.sockets.alive socket).isSome

def contextPointer : Pointer :=
  mq.mContext.map fun context => (mq.zmq.contexts.alive context).isSome

theorem closeSocket_eq :
    ((mq.closeSocket outcome).1.socketPointer, (mq.closeSocket outcome).2.bind HandleUse.socket?) =
        release closePolicy outcome mq.socketPointer ∧
      (mq.closeSocket outcome).1.contextPointer = mq.contextPointer ∧
        (mq.closeSocket outcome).2.bind HandleUse.context? = none := by
  rcases mq with ⟨mContext, _ | socket, zmq⟩
  · exact ⟨rfl, rfl, rfl⟩
  · cases outcome with
    | success => exact ⟨rfl, rfl, rfl⟩
    | failure errno => exact ⟨rfl, rfl, rfl⟩

theorem destroy_eq :
    ((mq.destroy outcome).1.contextPointer, (mq.destroy outcome).2.bind HandleUse.context?) =
        release destroyPolicy outcome mq.contextPointer ∧
      (mq.destroy outcome).1.socketPointer = mq.socketPointer ∧
        (mq.destroy outcome).2.bind HandleUse.socket? = none := by
  rcases mq with ⟨_ | context, mSocket, zmq⟩
  · exact ⟨rfl, rfl, rfl⟩
  · cases outcome with
    | success =>
        refine ⟨?_, rfl, rfl⟩
        simp [destroy, contextPointer, release, destroyPolicy, ZmqOutcome.Succeeded,
          ZmqOutcome.FailedForGood, Zmq.zmq_ctx_destroy, HandleUse.context?]
    | failure errno =>
        by_cases interrupted : errno = EINTR
        · subst interrupted
          refine ⟨?_, rfl, rfl⟩
          simp [destroy, contextPointer, release, destroyPolicy, ZmqOutcome.Succeeded,
            ZmqOutcome.FailedForGood, Zmq.zmq_ctx_destroy, HandleUse.context?]
        · simp [destroy, contextPointer, socketPointer, release, destroyPolicy, interrupted,
            ZmqOutcome.FailedForGood, Zmq.zmq_ctx_destroy, HandleUse.context?,
            HandleUse.socket?]

end Pointers

/-- The uses of the socket and those of the context are two sequences of guarded releases. -/
theorem handleUses_eq (calls : List MQCall) (mq : MQ) :
    (mq.handleUses calls).filterMap HandleUse.socket? =
        applied closePolicy (calls.filterMap MQCall.closing?) mq.socketPointer ∧
      (mq.handleUses calls).filterMap HandleUse.context? =
        applied destroyPolicy (calls.filterMap MQCall.destruction?) mq.contextPointer := by
  induction calls generalizing mq with
  | nil => exact ⟨rfl, rfl⟩
  | cons call later ih =>
      have toList : ∀ (use : Option HandleUse) (view : HandleUse → Option Bool),
          use.toList.filterMap view = (use.bind view).toList := by
        intro use view
        cases use with
        | none => rfl
        | some use => cases seen : view use <;> simp [seen]
      cases call with
      | closeSocket outcome =>
          rcases mq.closeSocket_eq outcome with ⟨released, sameContext, noContext⟩
          rcases ih (mq.closeSocket outcome).1 with ⟨sockets, contexts⟩
          rw [handleUses, perform, List.filterMap_append, List.filterMap_append, toList, toList,
            sockets, contexts, sameContext, noContext]
          refine ⟨?_, rfl⟩
          rw [List.filterMap_cons_some (rfl : MQCall.closing? (.closeSocket outcome) = _), applied,
            ← released]
      | destroy outcome =>
          rcases mq.destroy_eq outcome with ⟨released, sameSocket, noSocket⟩
          rcases ih (mq.destroy outcome).1 with ⟨sockets, contexts⟩
          rw [handleUses, perform, List.filterMap_append, List.filterMap_append, toList, toList,
            sockets, contexts, sameSocket, noSocket]
          refine ⟨rfl, ?_⟩
          rw [List.filterMap_cons_some (rfl : MQCall.destruction? (.destroy outcome) = _), applied,
            ← released]

theorem onlyLiveHandles_iff_safe {calls : List MQCall} {mq : MQ} :
    OnlyLiveHandles calls mq ↔
      Safe closePolicy (calls.filterMap MQCall.closing?) mq.socketPointer ∧
        Safe destroyPolicy (calls.filterMap MQCall.destruction?) mq.contextPointer := by
  rcases handleUses_eq calls mq with ⟨sockets, contexts⟩
  rw [Safe, Safe, ← sockets, ← contexts]
  constructor
  · intro live
    constructor
    · intro alive mem
      rcases List.mem_filterMap.mp mem with ⟨use, useMem, seen⟩
      have useLives := live use useMem
      cases use with
      | zmq_close socketAlive => exact Option.some.inj seen ▸ useLives
      | zmq_ctx_destroy contextAlive => simp [HandleUse.socket?] at seen
    · intro alive mem
      rcases List.mem_filterMap.mp mem with ⟨use, useMem, seen⟩
      have useLives := live use useMem
      cases use with
      | zmq_close socketAlive => simp [HandleUse.context?] at seen
      | zmq_ctx_destroy contextAlive => exact Option.some.inj seen ▸ useLives
  · rintro ⟨socketLives, contextLives⟩ use mem
    cases use with
    | zmq_close alive => exact socketLives alive (List.mem_filterMap.mpr ⟨_, mem, rfl⟩)
    | zmq_ctx_destroy alive => exact contextLives alive (List.mem_filterMap.mpr ⟨_, mem, rfl⟩)

theorem pointers_of_opened {mq : MQ} (opened : Opened mq) :
    mq.socketPointer = some true ∧ mq.contextPointer = some true := by
  rcases opened with ⟨contextCreated, socketCreated, type, mSocket, zmq, openedEq⟩
  rcases Option.bind_eq_some_iff.mp openedEq with ⟨constructed, constructEq, openEq⟩
  simp only [construct, openSocket, Option.ite_none_right_eq_some, Option.some.injEq]
    at constructEq openEq
  rcases constructEq with ⟨_, rfl⟩
  rcases openEq with ⟨_, rfl⟩
  simp [socketPointer, contextPointer]

/-- Every `closeSocket` clears its pointer, so no socket is closed twice. -/
theorem socketSafe {mq : MQ} (opened : Opened mq) (calls : List MQCall) :
    Safe closePolicy (calls.filterMap MQCall.closing?) mq.socketPointer := by
  rw [(pointers_of_opened opened).1]
  apply safe_of_clears
  intro outcome _
  rfl

/--
The handles are alive whenever they are used exactly if no call of `destroy` follows one
that has terminated the context, unless an earlier one has failed for good.
-/
theorem onlyLiveHandles_iff {mq : MQ} (opened : Opened mq) (calls : List MQCall) :
    OnlyLiveHandles calls mq ↔
      ∀ earlier later : List ZmqOutcome,
        calls.filterMap MQCall.destruction? = earlier ++ .success :: later →
          (∃ errno : Int32, errno ≠ EINTR ∧ .failure errno ∈ earlier) ∨ later = [] := by
  rw [onlyLiveHandles_iff_safe, and_iff_right (socketSafe opened calls),
    (pointers_of_opened opened).2, safe_iff]
  have failedForGood : ∀ earlier : List ZmqOutcome,
      (∃ outcome ∈ earlier, destroyPolicy.clears outcome = true) ↔
        ∃ errno : Int32, errno ≠ EINTR ∧ .failure errno ∈ earlier := by
    intro earlier
    constructor
    · rintro ⟨outcome, mem, clears⟩
      cases outcome with
      | success => simp [destroyPolicy, ZmqOutcome.FailedForGood] at clears
      | failure errno => exact ⟨errno, of_decide_eq_true clears, mem⟩
    · rintro ⟨errno, final, mem⟩
      exact ⟨_, mem, decide_eq_true final⟩
  simp only [failedForGood]
  constructor
  · intro safe earlier later split
    exact safe earlier .success later split rfl rfl
  · intro condition earlier outcome later split ends _
    cases outcome with
    | success => exact condition earlier later split
    | failure errno => simp [destroyPolicy, ZmqOutcome.Succeeded] at ends

def newMQ : MQ :=
  ⟨some 0, some 0, ⟨Objects.empty.construct (), Objects.empty.construct 0⟩⟩

theorem opened_newMQ : Opened newMQ :=
  ⟨true, true, 0, none, ⟨Objects.empty, Objects.empty⟩, rfl⟩

/-- After one `closeSocket` and one `destroy` nothing happens to a handle any more. -/
theorem onlyLiveHandles_once :
    OnlyLiveHandles [.closeSocket .success, .destroy .success, .closeSocket .success] newMQ := by
  apply (onlyLiveHandles_iff opened_newMQ _).mpr
  intro earlier later split
  right
  cases earlier with
  | nil => exact (List.cons.inj split).2.symm
  | cons first rest =>
      have nothing : [] = rest ++ ZmqOutcome.success :: later := (List.cons.inj split).2
      simp at nothing

/-- The second `destroy` is applied to the context that the first has terminated. -/
theorem not_onlyLiveHandles_twice :
    Opened newMQ ∧ ¬OnlyLiveHandles [.destroy .success, .destroy .success] newMQ := by
  refine ⟨opened_newMQ, ?_⟩
  intro live
  have dead := live (.zmq_ctx_destroy false)
  simp [handleUses, perform, destroy, newMQ, Zmq.zmq_ctx_destroy, HandleUse.alive] at dead

end MQ

end KeyValueClusterPerf
