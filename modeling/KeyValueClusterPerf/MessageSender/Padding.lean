import KeyValueClusterPerf.DBConnector.KeyValueClient
import KeyValueClusterPerf.Foundations.Extent
import KeyValueClusterPerf.MessageSender.Vmac

/-!
# What the sender gives to VMAC

`vmac.h` requires a message followed by zeros up to a multiple of 16 bytes. `MessageSender::send`
passes the text of a `std::string`, which is followed by one NUL and then by whatever memory holds
there. So the words that are read are those of the message only if its length leaves room for
nothing else than that NUL.
-/

namespace KeyValueClusterPerf

open Loads Texts Vmac

def byteOf (character : Char) : UInt8 :=
  .ofNat character.toNat

/-- The memory from `c_str` of a message on: its bytes, the NUL, and what lies behind. -/
def cStr (message : Text) (behind : ℕ → UInt8) : ℕ → UInt8 :=
  (Extents.Extent.ofList (message.map byteOf ++ [0]) behind).cells

structure VmacSender (broker : Broker) extends MessageSender broker where
  ctx : Context

namespace VmacSender

variable {broker : Broker}

/-- The characters of `abcdefghijklmnop`. -/
def key : Vector UInt8 16 :=
  #v[97, 98, 99, 100, 101, 102, 103, 104, 105, 106, 107, 108, 109, 110, 111, 112]

/-- Eight zeros and the characters of `bcdefghi`. -/
def nonce : Vector UInt8 16 :=
  #v[0, 0, 0, 0, 0, 0, 0, 0, 98, 99, 100, 101, 102, 103, 104, 105]

section Sending

variable (rijndael : Rijndael) (sha1 : Text → Text)

/-- The constructor; without VMAC the context stays as the memory was. -/
def construct (security : Text) (vmacHash tagl : UInt64) (ctx : Context)
    (connection : Connection broker) : Option (VmacSender broker) := do
  let sender := MessageSender.construct security vmacHash tagl connection
  if sender.vmacEnabled then
    let ctx ← vmac_set_key rijndael key
    return ⟨sender, ctx⟩
  else return ⟨sender, ctx⟩

/-- `message.length()` becomes an `unsigned int`. -/
def send (call : ℕ) (message : Text) (sender : VmacSender broker) :
    Tracked UInt64 (VmacSender broker) :=
  let sendHashed (hash : Outcome) : VmacSender broker :=
    ⟨sender.toMessageSender.send sha1 (fun _ => (hash.returned, hash.tagl)) call message, hash.ctx⟩
  if sender.vmacEnabled then do
    let hash ← vmac rijndael (.ofNat message.length) nonce sender.ctx
    return sendHashed hash
  else return sendHashed ⟨sender.vmacHash, sender.tagl, sender.ctx⟩

/-- A call of the sender; a send comes with what lies behind its text in memory. -/
inductive SenderCall
  | send (call : ℕ) (message : Text) (behind : ℕ → UInt8)
  | receive (interrupted : Bool)

def perform (sender : VmacSender broker) : SenderCall → VmacSender broker
  | .send call message behind =>
      ((sender.send rijndael sha1 call message).run (wordAt (cStr message behind))).1
  | .receive interrupted =>
      ⟨(sender.toMessageSender.receive interrupted).1, sender.ctx⟩

def afterCalls (sender : VmacSender broker) (calls : List SenderCall) : VmacSender broker :=
  calls.foldl (perform rijndael sha1) sender

def wordsRead (sender : VmacSender broker) (call : ℕ) (message : Text) (behind : ℕ → UInt8) :
    List UInt64 :=
  (sender.send rijndael sha1 call message).observed (wordAt (cStr message behind))

/-- The byte at the index is in one of the words that are read. -/
def Consumes (sender : VmacSender broker) (call : ℕ) (message : Text) (behind : ℕ → UInt8)
    (index : ℕ) : Prop :=
  index / 8 ∈ ((sender.send rijndael sha1 call message).run (wordAt (cStr message behind))).2

/-- Whatever lies behind the text, the words are the same, padded with zeros, and so is the tag. -/
structure HashesMessage (sender : VmacSender broker) (call : ℕ) (message : Text) : Prop where
  words : ∀ behind other : ℕ → UInt8,
    sender.wordsRead rijndael sha1 call message behind =
      sender.wordsRead rijndael sha1 call message other
  padded : ∀ (behind : ℕ → UInt8) (index : ℕ),
    sender.Consumes rijndael sha1 call message behind index → message.length ≤ index →
      cStr message behind index = 0
  tags : ∀ behind other : ℕ → UInt8,
    let hashed := sender.perform rijndael sha1 (.send call message behind)
    let otherHashed := sender.perform rijndael sha1 (.send call message other)
    hashed.vmacHash = otherHashed.vmacHash ∧ hashed.tagl = otherHashed.tagl

end Sending

/-- The cipher on the nonce of the sender, for the key of the sender. -/
def exampleRijndael : Rijndael where
  keySetupEnc _ := .replicate 44 0
  encrypt _ _ := #v[183, 253, 143, 80, 117, 222, 94, 191, 129, 78, 142, 204, 60, 115, 80, 69]

/-- A sender with the words that `vmac_set_key` computes from its key. -/
def exampleSender : VmacSender ⟨Unit, fun _ _ => ((), [])⟩ where
  toMessageSender := .construct "vmac".toList 0 0 ⟨.ready, ()⟩
  ctx :=
    { nhkey := #v[
        0xF23D135CD9B460AC, 0x0100F93D3937C410, 0x9F5FF4B0BC49FC4B, 0xE2DF742A3494B0B6,
        0x198632874C579612, 0x377BC6EB8A73471C, 0x30D5ED591B5EE028, 0x3FD06B3C2EAA688D,
        0xE89D5AC3CEFE7736, 0xA6C0B86787A4A44C, 0x8066032FB648FDFE, 0xB50C1DB780A52513,
        0x48DA11ADFE3D8A0B, 0xE240F7DE6654BE8B, 0xF104A2053EE8C0B5, 0xE7BA6FB77DDAAA7B,
        0x065932CEC1C1BBED, 0x435A80F1CB8D70C9]
      polykey := #v[
        0x024F809614856E34, 0x1E9FA9790408D8D5, 0x0023067F19B3F6A0, 0x15E58A7B094D2774]
      l3key := #v[
        0xBF71D4AB5BEBF869, 0xEA12B69B41476019, 0x3C25B04483400C32, 0xBD3640E278D96773]
      polytmp := #v[
        0x024F809614856E34, 0x1E9FA9790408D8D5, 0x0023067F19B3F6A0, 0x15E58A7B094D2774]
      cipher_key := .replicate 44 0
      first_block_processed := false }

-- The test vector of `vmac.c` for a message of 300 bytes.
example :
    let hashed := exampleSender.perform exampleRijndael (fun _ => [])
      (.send 0 (List.replicate 100 ['a', 'b', 'c']).flatten fun _ => 0)
    hashed.vmacHash = 0x66438817154850C6 ∧ hashed.tagl = 0x1D8A412164803BCB := by
  decide +kernel

end VmacSender

section Memory

variable {message : Text} {behind other : ℕ → UInt8} {index : ℕ}

theorem cStr_eq_of_le (inside : index ≤ message.length) (behind other : ℕ → UInt8) :
    cStr message behind index = cStr message other index := by
  have within : index < (message.map byteOf ++ [0]).length := by
    rw [List.length_append, List.length_map, List.length_singleton]
    omega
  rw [cStr, cStr, Extents.cells_ofList_of_lt within, Extents.cells_ofList_of_lt within]

theorem cStr_length (message : Text) (behind : ℕ → UInt8) :
    cStr message behind message.length = 0 := by
  simp [cStr, Extents.Extent.ofList]

theorem cStr_after (message : Text) (behind : ℕ → UInt8) (offset : ℕ) :
    cStr message behind (message.length + 1 + offset) = behind offset := by
  rw [cStr, Extents.cells_ofList_of_le]
  · simp
  · simp

theorem wordAt_congr {memory other : ℕ → UInt8}
    (same : ∀ byte < 8, memory (8 * index + byte) = other (8 * index + byte)) :
    wordAt memory index = wordAt other index := by
  apply List.foldr_ext
  intro byte mem word
  rw [same byte (List.mem_range.mp mem)]

end Memory

/-- The length rounded up to 16 bytes goes at most one byte beyond the message. -/
theorem padded_length_le_iff (length : ℕ) :
    16 * ((length % 2 ^ 32 + 15) / 16) ≤ length + 1 ↔
      2 ^ 32 ≤ length ∨ length % 16 = 0 ∨ length % 16 = 15 := by
  omega

namespace VmacSender

section Lengths

variable {broker : Broker} {rijndael : Rijndael} {sha1 : Text → Text}
  {sender otherSender : VmacSender broker} {call otherCall : ℕ} {message : Text}

theorem reads_vmac_length (rijndael : Rijndael) (message : Text) (ctx : Context) :
    (vmac rijndael (.ofNat message.length) nonce ctx).Reads
      (Set.Ico 0 (2 * ((message.length % 2 ^ 32 + 15) / 16))) := by
  apply (reads_vmac rijndael (.ofNat message.length) nonce).congr
  rw [UInt32.toNat_ofNat']

theorem reads_send (enabled : sender.vmacEnabled = true) :
    (sender.send rijndael sha1 call message).Reads
      (Set.Ico 0 (2 * ((message.length % 2 ^ 32 + 15) / 16))) := by
  rw [send, if_pos enabled]
  exact (reads_vmac_length rijndael message sender.ctx).map

/-- What a send computes is the tag in its context. -/
theorem tags_perform_send (enabled : sender.vmacEnabled = true) (behind : ℕ → UInt8) :
    let hashed := sender.perform rijndael sha1 (.send call message behind)
    let hash := ((vmac rijndael (.ofNat message.length) nonce sender.ctx).run
      (wordAt (cStr message behind))).1
    hashed.vmacHash = hash.returned ∧ hashed.tagl = hash.tagl := by
  simp only [perform, send, if_pos enabled, Tracked.value_bind]
  exact ⟨if_pos enabled, if_pos enabled⟩

theorem consumes_iff (enabled : sender.vmacEnabled = true) (behind : ℕ → UInt8) (index : ℕ) :
    sender.Consumes rijndael sha1 call message behind index ↔
      index < 16 * ((message.length % 2 ^ 32 + 15) / 16) := by
  rw [Consumes, reads_send enabled, Set.mem_Ico]
  omega

/-- Words that end with the NUL at the latest are the same whatever lies behind it. -/
theorem wordAt_cStr_eq
    (fits : 16 * ((message.length % 2 ^ 32 + 15) / 16) ≤ message.length + 1)
    (behind other : ℕ → UInt8) :
    ∀ index ∈ Set.Ico 0 (2 * ((message.length % 2 ^ 32 + 15) / 16)),
      wordAt (cStr message behind) index = wordAt (cStr message other) index := by
  rintro index ⟨_, below⟩
  apply wordAt_congr
  intro byte byteBelow
  exact cStr_eq_of_le (by omega) behind other

/-- Two senders with one context compute one tag of a message whose words end in time. -/
theorem tags_eq_of_le (enabled : sender.vmacEnabled = true)
    (otherEnabled : otherSender.vmacEnabled = true) (sameCtx : otherSender.ctx = sender.ctx)
    (fits : 16 * ((message.length % 2 ^ 32 + 15) / 16) ≤ message.length + 1)
    (behind other : ℕ → UInt8) :
    let hashed := sender.perform rijndael sha1 (.send call message behind)
    let otherHashed := otherSender.perform rijndael sha1 (.send otherCall message other)
    hashed.vmacHash = otherHashed.vmacHash ∧ hashed.tagl = otherHashed.tagl := by
  have sameRun := (reads_vmac_length rijndael message sender.ctx).run_eq
    (wordAt_cStr_eq fits other behind)
  rcases tags_perform_send enabled behind with ⟨vmacHashEq, taglEq⟩
  rcases tags_perform_send otherEnabled other with ⟨otherVmacHashEq, otherTaglEq⟩
  rw [sameCtx, ← sameRun] at otherVmacHashEq otherTaglEq
  exact ⟨vmacHashEq.trans otherVmacHashEq.symm, taglEq.trans otherTaglEq.symm⟩

theorem hashesMessage_of_le (enabled : sender.vmacEnabled = true)
    (fits : 16 * ((message.length % 2 ^ 32 + 15) / 16) ≤ message.length + 1) :
    sender.HashesMessage rijndael sha1 call message where
  words behind other := (reads_send enabled).observed_eq (wordAt_cStr_eq fits other behind)
  padded := by
    intro behind index consumed beyond
    have below := (consumes_iff enabled behind index).mp consumed
    have atNul : index = message.length := by omega
    rw [atNul, cStr_length]
  tags behind other := tags_eq_of_le enabled enabled rfl fits behind other

/-- A byte behind the NUL need not be zero. -/
theorem le_of_hashesMessage (enabled : sender.vmacEnabled = true)
    (hashes : sender.HashesMessage rijndael sha1 call message) :
    16 * ((message.length % 2 ^ 32 + 15) / 16) ≤ message.length + 1 := by
  by_contra beyond
  have consumed : sender.Consumes rijndael sha1 call message (fun _ => 1)
      (message.length + 1 + 0) :=
    (consumes_iff enabled _ _).mpr (not_le.mp beyond)
  have zero := hashes.padded (fun _ => 1) _ consumed (by omega)
  rw [cStr_after] at zero
  exact absurd zero (by decide)

/--
What is hashed is the message alone exactly if the message is a multiple of 16 bytes long, or one
byte short of one, or too long for its length to fit an `unsigned int`.
-/
theorem hashesMessage_iff (enabled : sender.vmacEnabled = true) :
    sender.HashesMessage rijndael sha1 call message ↔
      2 ^ 32 ≤ message.length ∨ message.length % 16 = 0 ∨ message.length % 16 = 15 := by
  rw [← padded_length_le_iff]
  exact ⟨le_of_hashesMessage enabled, hashesMessage_of_le enabled⟩

end Lengths

theorem hashesMessage_iff_sixteen :
    exampleSender.HashesMessage exampleRijndael (fun _ => []) 0 (List.replicate 16 'a') ↔
      2 ^ 32 ≤ (List.replicate 16 'a').length ∨ (List.replicate 16 'a').length % 16 = 0 ∨
        (List.replicate 16 'a').length % 16 = 15 :=
  hashesMessage_iff (by decide)

/-- The tag of a one-byte message depends on what lies behind its NUL. -/
theorem not_hashesMessage_one :
    ¬exampleSender.HashesMessage exampleRijndael (fun _ => []) 0 ['a'] := by
  intro hashes
  have different :
      (exampleSender.perform exampleRijndael (fun _ => []) (.send 0 ['a'] fun _ => 0)).tagl ≠
        (exampleSender.perform exampleRijndael (fun _ => []) (.send 0 ['a'] fun _ => 1)).tagl := by
    decide +kernel
  exact different (hashes.tags (fun _ => 0) (fun _ => 1)).2

section Histories

variable {broker : Broker} {rijndael : Rijndael} {sha1 : Text → Text}
  {sender : VmacSender broker}

theorem ready_of_construct {security : Text} {vmacHash tagl : UInt64} {ctx : Context}
    {connection : Connection broker}
    (constructed : construct rijndael security vmacHash tagl ctx connection = some sender)
    (enabled : sender.vmacEnabled = true) :
    sender.ctx.Ready := by
  rw [construct] at constructed
  split at constructed
  · simp only [Option.bind_eq_bind, Option.bind_eq_some_iff] at constructed
    rcases constructed with ⟨ctx, set, result⟩
    rcases Option.some.inj result with rfl
    exact ready_of_vmac_set_key set
  · rename_i disabled
    rcases Option.some.inj constructed with rfl
    exact absurd enabled disabled

theorem vmacEnabled_perform (call : SenderCall) :
    (sender.perform rijndael sha1 call).vmacEnabled = sender.vmacEnabled := by
  cases call with
  | send call message behind =>
      rw [perform, send]
      split
      · rfl
      · rfl
  | receive interrupted => rfl

/-- A call leaves a context as it is in which nothing of an earlier message is left. -/
theorem ctx_perform (ready : sender.ctx.Ready) (call : SenderCall) :
    (sender.perform rijndael sha1 call).ctx = sender.ctx := by
  cases call with
  | send call message behind =>
      rw [perform, send]
      split
      · have aborted := @ctx_vmac rijndael sender.ctx (wordAt (cStr message behind))
          (.ofNat message.length) nonce
        exact aborted.trans ready
      · rfl
  | receive interrupted => rfl

theorem afterCalls_keeps (ready : sender.ctx.Ready) (calls : List SenderCall) :
    (sender.afterCalls rijndael sha1 calls).vmacEnabled = sender.vmacEnabled ∧
      (sender.afterCalls rijndael sha1 calls).ctx = sender.ctx := by
  induction calls generalizing sender with
  | nil => exact ⟨rfl, rfl⟩
  | cons call later ih =>
      have sameCtx : (sender.perform rijndael sha1 call).ctx = sender.ctx := ctx_perform ready call
      have kept := @ih (sender.perform rijndael sha1 call) (sameCtx.symm ▸ ready)
      exact ⟨kept.1.trans (vmacEnabled_perform call), kept.2.trans sameCtx⟩

/--
The tag of a message of such a length is the same after any two histories of one sender, whatever
lay behind their messages.
-/
theorem tags_eq_of_histories {security : Text} {vmacHash tagl : UInt64} {ctx : Context}
    {connection : Connection broker} {message : Text}
    (constructed : construct rijndael security vmacHash tagl ctx connection = some sender)
    (enabled : sender.vmacEnabled = true)
    (length : 2 ^ 32 ≤ message.length ∨ message.length % 16 = 0 ∨ message.length % 16 = 15)
    (history otherHistory : List SenderCall) (call otherCall : ℕ) (behind other : ℕ → UInt8) :
    let hashed := (sender.afterCalls rijndael sha1 history).perform rijndael sha1
      (.send call message behind)
    let otherHashed := (sender.afterCalls rijndael sha1 otherHistory).perform rijndael sha1
      (.send otherCall message other)
    hashed.vmacHash = otherHashed.vmacHash ∧ hashed.tagl = otherHashed.tagl := by
  have ready := ready_of_construct constructed enabled
  have kept := @afterCalls_keeps _ rijndael sha1 _ ready history
  have otherKept := @afterCalls_keeps _ rijndael sha1 _ ready otherHistory
  exact tags_eq_of_le (kept.1.trans enabled) (otherKept.1.trans enabled)
    (otherKept.2.trans kept.2.symm) ((padded_length_le_iff _).mpr length) behind other

end Histories

end VmacSender

end KeyValueClusterPerf
