import KeyValueClusterPerf.MessageSender.Padding
import KeyValueClusterPerf.MessageSender.Sha1Digest
import KeyValueClusterPerf.MessageSender.VmacHistory

/-!
# The hashes that the sender keeps

A sender with `vmac` has the tag of the message it sent last, whatever was sent and received
before, if its length leaves room for one NUL at most. A sender with `sha1` has the digest of it.
-/

namespace KeyValueClusterPerf

open Loads Texts Vmac

section Words

open Finset

/-- A byte below the lowest one of a word that leaves room for it. -/
theorem toNat_shiftLeft_or {word : UInt64} {byte : UInt8} (small : word.toNat < 2 ^ 56) :
    (word <<< 8 ||| byte.toUInt64).toNat = 256 * word.toNat + byte.toNat := by
  have byteLt : byte.toNat < 2 ^ 8 := byte.toNat_lt
  have shifted : (word <<< 8).toNat = word.toNat <<< 8 := by
    rw [UInt64.toNat_shiftLeft, Nat.mod_eq_of_lt]
    · rfl
    · rw [Nat.shiftLeft_eq]
      simp
      omega
  rw [UInt64.toNat_or, shifted, UInt8.toNat_toUInt64, ← Nat.shiftLeft_add_eq_or_of_lt byteLt,
    Nat.shiftLeft_eq]
  omega

/-- At most eight bytes that are shifted in from the last one on. -/
theorem toNat_foldr_bytes {bytes : List UInt8} (few : bytes.length ≤ 8) :
    let word := bytes.foldr (fun byte (word : UInt64) => word <<< 8 ||| byte.toUInt64) 0
    word.toNat = ∑ place ∈ range bytes.length, 256 ^ place * (bytes.getD place 0).toNat ∧
      word.toNat < 256 ^ bytes.length := by
  induction bytes with
  | nil => simp
  | cons byte bytes ih =>
      have room : bytes.length ≤ 7 := Nat.le_of_succ_le_succ few
      rcases ih (by omega) with ⟨value, bound⟩
      have small : 256 ^ bytes.length ≤ 2 ^ 56 := by
        calc
          256 ^ bytes.length ≤ 256 ^ 7 := Nat.pow_le_pow_right (by decide) room
          _ = 2 ^ 56 := by decide
      have shifted := @toNat_shiftLeft_or _ byte (bound.trans_le small)
      have byteLt : byte.toNat < 256 := byte.toNat_lt
      simp only [List.foldr_cons, List.length_cons, shifted]
      refine ⟨?_, by rw [pow_succ]; omega⟩
      have rest : ∑ place ∈ range bytes.length, 256 ^ (place + 1) * (bytes.getD place 0).toNat =
          256 * ∑ place ∈ range bytes.length, 256 ^ place * (bytes.getD place 0).toNat := by
        rw [mul_sum]
        apply sum_congr rfl
        intro place _
        rw [pow_succ]
        ring
      rw [value, sum_range_succ']
      simpa using rest.symm

/-- A word of the memory is a number of its bytes, the first one at the bottom. -/
theorem toNat_wordAt (memory : ℕ → UInt8) (index : ℕ) :
    (wordAt memory index).toNat =
      ∑ byte ∈ range 8, 256 ^ byte * (memory (8 * index + byte)).toNat := by
  have bytes := @toNat_foldr_bytes ((List.range 8).map fun byte => memory (8 * index + byte))
    (by simp)
  rw [List.foldr_map] at bytes
  refine bytes.1.trans ?_
  simp only [List.length_map, List.length_range]
  apply sum_congr rfl
  intro byte inside
  have below := mem_range.mp inside
  simp [below]

end Words

namespace VmacSender

section Tags

open UniversalHash

variable {broker : Broker} {sha1 : Text → Text} {sender : VmacSender broker}
  {vmacHash tagl : UInt64} {ctx : Context} {connection : Connection broker} {message : Text}

/-- Up to its NUL the memory holds the bytes of the message, followed by zeros. -/
theorem cStr_eq_getD {behind : ℕ → UInt8} {index : ℕ} (inside : index ≤ message.length) :
    cStr message behind index = (message.map byteOf).getD index 0 := by
  rcases inside.lt_or_eq with below | rfl
  · have within : index < (message.map byteOf ++ [0]).length := by
      simp
      omega
    rw [cStr, Extents.cells_ofList_of_lt within]
    simp [below]
  · simp [cStr_length]

/-- The words that `vmac` is given are those of the message. -/
theorem wordsOf_passedWords (length : message.length < 2 ^ 32)
    (room : message.length % 16 = 0 ∨ message.length % 16 = 15) (behind : ℕ → UInt8) :
    ∀ index < 2 * ((message.length + 15) / 16),
      wordsOf (passedWords (.ofNat message.length) (wordAt (cStr message behind))) index =
        messageWord (message.map byteOf) index := by
  intro index below
  have whole : (UInt32.ofNat message.length).toNat = message.length :=
    UInt32.toNat_ofNat_of_lt' length
  have passed : wordsOf (passedWords (.ofNat message.length) (wordAt (cStr message behind))) index =
      (wordAt (cStr message behind) index).toNat := by
    simp [wordsOf, passedWords, whole, below]
  rw [passed, toNat_wordAt, messageWord]
  apply Finset.sum_congr rfl
  intro byte inside
  have byteBelow := Finset.mem_range.mp inside
  rw [cStr_eq_getD (by omega)]

/-- A sender with VMAC has the keys that were set up in its constructor. -/
theorem set_of_construct {rijndael : Rijndael}
    (constructed :
      construct rijndael "vmac".toList vmacHash tagl ctx connection = some sender) :
    sender.vmacEnabled = true ∧ vmac_set_key rijndael key = some sender.ctx := by
  simp only [construct, MessageSender.construct, decide_true, if_true, Option.bind_eq_bind,
    Option.bind_eq_some_iff] at constructed
  rcases constructed with ⟨set, computed, result⟩
  rcases Option.some.inj result with rfl
  exact ⟨rfl, computed⟩

theorem cipher_key_of_vmac_set_key {rijndael : Rijndael} {user_key : Vector UInt8 16}
    (set : vmac_set_key rijndael user_key = some ctx) :
    ctx.cipher_key = rijndael.keySetupEnc user_key := by
  simp only [vmac_set_key, Option.bind_eq_bind, Option.bind_eq_some_iff] at set
  rcases set with ⟨_, _, _, _, result⟩
  rcases Option.some.inj result with rfl
  rfl

end Tags

section Digests

variable {broker : Broker} {width : ℕ} {rijndael : Rijndael} {sender : VmacSender broker}

def SenderCall.sent : SenderCall → Option Text
  | .send _ message _ => some message
  | .receive _ => none

/-- The message that was sent last. -/
def lastSent (calls : List SenderCall) : Option Text :=
  (calls.filterMap SenderCall.sent).getLast?

/-- `sha1` on the bytes of a text. -/
def sha1Text (width : ℕ) (message : Text) : Text :=
  sha1 width (message.map byteOf)

def digest (message : Text) : Text :=
  (SecureHash.hash (message.map byteOf)).text

/-- What a sender without VMAC keeps after a call. -/
theorem perform_sha1 (wide : 32 ≤ width) (enabled : sender.sha1Enabled = true)
    (disabled : sender.vmacEnabled = false) (call : SenderCall) :
    let after := sender.perform rijndael (sha1Text width) call
    after.sha1Enabled = true ∧ after.vmacEnabled = false ∧
      after.sha1Hash = (call.sent.map digest).getD sender.sha1Hash ∧
      after.vmacHash = sender.vmacHash ∧ after.tagl = sender.tagl ∧ after.ctx = sender.ctx := by
  cases call with
  | send call message behind =>
      have digested : sha1Text width message = digest message := sha1_eq wide _
      simp only [perform, send, MessageSender.send, enabled, disabled, digested, Bool.false_eq_true,
        if_true, if_false]
      exact ⟨rfl, rfl, rfl, rfl, rfl, rfl⟩
  | receive interrupted =>
      simp [perform, MessageSender.receive, enabled, disabled, SenderCall.sent]

theorem afterCalls_sha1 (wide : 32 ≤ width) (enabled : sender.sha1Enabled = true)
    (disabled : sender.vmacEnabled = false) (calls : List SenderCall) :
    let after := sender.afterCalls rijndael (sha1Text width) calls
    after.sha1Hash = ((lastSent calls).map digest).getD sender.sha1Hash ∧
      after.vmacHash = sender.vmacHash ∧ after.tagl = sender.tagl ∧ after.ctx = sender.ctx := by
  induction calls generalizing sender with
  | nil => exact ⟨rfl, rfl, rfl, rfl⟩
  | cons call later ih =>
      rcases @perform_sha1 _ _ rijndael _ wide enabled disabled call
        with ⟨stillEnabled, stillDisabled, hash, vmacHash, tagl, ctx⟩
      rcases ih stillEnabled stillDisabled with ⟨laterHash, laterVmacHash, laterTagl, laterCtx⟩
      refine ⟨laterHash.trans ?_, laterVmacHash.trans vmacHash, laterTagl.trans tagl,
        laterCtx.trans ctx⟩
      rw [hash]
      cases sent : call.sent with
      | none => simp [lastSent, sent]
      | some message =>
          cases last : lastSent later with
          | none => simp_all [lastSent]
          | some other => simp_all [lastSent, List.getLast?_cons]

/-- A sender with SHA-1 has the digest of the message it sent last, and leaves what VMAC needs. -/
theorem sha1Hash_eq_digest {vmacHash tagl : UInt64} {ctx : Context}
    {connection : Connection broker} (wide : 32 ≤ width)
    (constructed :
      construct rijndael "sha1".toList vmacHash tagl ctx connection = some sender)
    (calls : List SenderCall) :
    let after := sender.afterCalls rijndael (sha1Text width) calls
    after.sha1Hash =
        ((lastSent calls).map fun message => (SecureHash.hash (message.map byteOf)).text).getD [] ∧
      after.vmacHash = vmacHash ∧ after.tagl = tagl ∧ after.ctx = ctx := by
  rcases Option.some.inj constructed with rfl
  exact afterCalls_sha1 wide rfl rfl calls

theorem sha1Hash_eq_digest_unsignedLong :
    let sender : VmacSender ⟨Unit, fun _ _ => ((), [])⟩ :=
      ⟨.construct "sha1".toList 5 6 ⟨.ready, ()⟩, exampleSender.ctx⟩
    let calls : List SenderCall :=
      [.send 0 ['a'] fun _ => 1, .receive false, .send 1 ['b'] fun _ => 2, .receive true]
    let after := sender.afterCalls exampleRijndael (sha1Text 64) calls
    after.sha1Hash =
        ((lastSent calls).map fun message => (SecureHash.hash (message.map byteOf)).text).getD [] ∧
      after.vmacHash = 5 ∧ after.tagl = 6 ∧ after.ctx = exampleSender.ctx :=
  sha1Hash_eq_digest (by decide) rfl _

end Digests

end VmacSender

end KeyValueClusterPerf
