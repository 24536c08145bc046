import KeyValueClusterPerf.Foundations.Decimal
import KeyValueClusterPerf.MessageSender.Sha1Rounds

/-!
# The digests of `sha1.cc`

The object keeps what has not filled a block yet in its buffer, so it does not matter in which
pieces a message comes. At the end it pads the words of the last block instead of the bytes of
the message, which is the same, and it starts again with an empty message.
-/

namespace KeyValueClusterPerf

open Texts SecureHash

variable {width : ℕ}

section Streams

namespace SHA1

variable {sha : SHA1 width} {stream : InputStream}

/-- Between reads, a good stream has filled the buffer, and a failed one has nothing left. -/
def Filled (buffer : List UInt8) (stream : InputStream) : Prop :=
  if stream.good then buffer.length = 64 else buffer.length < 64 ∧ stream.content = []

theorem filled_read {max : ℕ} (good : stream.good = true) {front : List UInt8}
    (size : front.length + max = 64) :
    Filled (front ++ (read max stream).1) (read max stream).2 ∧
      (read max stream).1 ++ (read max stream).2.content = stream.content := by
  simp only [read, good, if_true, Filled, decide_eq_true_eq, List.length_append,
    List.take_append_drop, and_true]
  split
  · rename_i enough
    rw [List.length_take_of_le enough, size]
  · rename_i short
    rw [List.length_take, List.drop_eq_nil_of_le (by omega)]
    exact ⟨by omega, rfl⟩

/-- The loop compresses the buffer and what is left of the stream, block by block. -/
structure Absorbs (sha after : SHA1 width) (input : List UInt8) : Prop where
  chain : after.chain = (Blocks.absorb 64 compress sha.chain input).1
  buffer : after.buffer = (Blocks.absorb 64 compress sha.chain input).2
  transforms : after.transforms = sha.transforms + .ofNat 64 (input.length / 64)

theorem absorbs_updateBlocks (wide : 32 ≤ width) (sha : SHA1 width) (stream : InputStream)
    (filled : Filled sha.buffer stream) :
    Absorbs sha (updateBlocks sha stream) (sha.buffer ++ stream.content) := by
  induction sha, stream using updateBlocks.induct with
  | case1 sha stream good transformed next ih =>
      simp only [Filled, good, if_true] at filled
      have reads := @filled_read stream 64 good [] rfl
      rw [List.nil_append] at reads
      have absorbs := ih reads.1
      rw [updateBlocks, if_pos good]
      have chainEq : transformed.chain = compress sha.chain sha.buffer :=
        chain_transform_bytes wide sha.buffer sha
      have split := @Blocks.absorb_block _ _ 64 compress (by decide) sha.chain _ filled
        stream.content
      have content : next.1 ++ next.2.content = stream.content := reads.2
      constructor
      · rw [split, ← chainEq, ← content]
        exact absorbs.chain
      · rw [split, ← chainEq, ← content]
        exact absorbs.buffer
      · have counted : (sha.buffer ++ stream.content).length / 64 =
            (next.1 ++ next.2.content).length / 64 + 1 := by
          rw [content, List.length_append, filled]
          omega
        have one : transformed.transforms = sha.transforms + 1 := rfl
        rw [absorbs.transforms, one, counted, BitVec.ofNat_add, add_assoc, add_comm 1]
        rfl
  | case2 sha stream failed =>
      simp only [Filled, failed] at filled
      rw [updateBlocks, if_neg failed, filled.2, List.append_nil]
      constructor
      · rw [Blocks.absorb_of_lt _ filled.1]
      · rw [Blocks.absorb_of_lt _ filled.1]
      · rw [Nat.div_eq_of_lt filled.1]
        exact (BitVec.add_zero _).symm

/-- An update with a stream that can be read absorbs its content. -/
theorem absorbs_update (wide : 32 ≤ width) (short : sha.buffer.length < 64) (content : List UInt8) :
    Absorbs sha (sha.update content) (sha.buffer ++ content) := by
  have size : sha.buffer.length + (BLOCK_BYTES - sha.buffer.length) = 64 :=
    Nat.add_sub_of_le short.le
  rcases @filled_read ⟨content, true⟩ _ rfl _ size with ⟨filled, contentEq⟩
  have absorbs := absorbs_updateBlocks wide { sha with buffer := _ } _ filled
  rw [List.append_assoc, contentEq] at absorbs
  exact ⟨absorbs.chain, absorbs.buffer, absorbs.transforms⟩

/-- The object after it has absorbed a message. -/
structure Holds (sha : SHA1 width) (message : List UInt8) : Prop where
  chain : sha.chain = (Blocks.absorb 64 compress initial message).1
  buffer : sha.buffer = (Blocks.absorb 64 compress initial message).2
  transforms : sha.transforms = .ofNat 64 (message.length / 64)

theorem Holds.length_buffer {message : List UInt8} (holds : sha.Holds message) :
    sha.buffer.length = message.length % 64 := by
  rw [holds.buffer]
  exact Blocks.length_rest (by decide) initial message

theorem holds_reset (wide : 32 ≤ width) : (reset : SHA1 width).Holds [] := by
  have nothing : Blocks.absorb 64 compress initial [] = (initial, []) :=
    Blocks.absorb_of_lt initial (by decide)
  constructor
  · rw [nothing]
    simp only [chain, initial, Chain.mk.injEq]
    exact ⟨low_ofNat wide _, low_ofNat wide _, low_ofNat wide _, low_ofNat wide _,
      low_ofNat wide _⟩
  · rw [nothing]
    rfl
  · rfl

theorem Holds.update (wide : 32 ≤ width) {message : List UInt8} (holds : sha.Holds message)
    (s : List UInt8) : (sha.update s).Holds (message ++ s) := by
  have length := holds.length_buffer
  have absorbs := absorbs_update wide (length.trans_lt (Nat.mod_lt _ (by decide))) s
  have pieces := @Blocks.absorb_append _ _ 64 compress (by decide) initial message s
  rw [← holds.chain, ← holds.buffer] at pieces
  constructor
  · rw [pieces]
    exact absorbs.chain
  · rw [pieces]
    exact absorbs.buffer
  · have counted : (message ++ s).length / 64 =
        message.length / 64 + (sha.buffer ++ s).length / 64 := by
      rw [List.length_append, List.length_append, length]
      omega
    rw [absorbs.transforms, holds.transforms, counted, BitVec.ofNat_add]

end SHA1

end Streams

section Digest

theorem toNat_mask (wide : 32 ≤ width) (value : BitVec width) :
    (value &&& 0xffffffff).toNat = (low value).toNat := by
  have masked : value &&& 0xffffffff = (low value).setWidth width := by
    apply BitVec.eq_of_getLsbD_eq
    intro index inWord
    rw [BitVec.getLsbD_and, getLsbD_mask wide, low, BitVec.getLsbD_setWidth,
      BitVec.getLsbD_setWidth, decide_eq_true inWord, Bool.true_and, Bool.and_comm]
  rw [masked, BitVec.toNat_setWidth_of_le wide]

theorem wordText_eq (word : Word) : wordText word = lastDigits 16 8 word.toNat := by
  simp [wordText, lastDigits, BitVec.extractLsb'_toNat, Nat.shiftRight_eq_div_pow,
    Nat.div_div_eq_div_mul]

/-- A number of the digest is printed with all its digits. -/
theorem hexText_eq (wide : 32 ≤ width) (value : BitVec width) :
    SHA1.hexText value = wordText (low value) := by
  rw [SHA1.hexText, toNat_mask wide, wordText_eq]
  exact replicate_append_toDigits (by decide) (by decide) (low value).isLt

end Digest

section Padding

variable {front back : List UInt8} {index : ℕ}

theorem byteAt_append_left (inside : index < front.length) :
    byteAt (front ++ back) index = byteAt front index := by
  rw [byteAt, byteAt, List.getD_append _ _ _ _ inside]

theorem wordAt_append_left (inside : 4 * index + 4 ≤ front.length) :
    wordAt (front ++ back) index = wordAt front index := by
  rw [wordAt, wordAt, byteAt_append_left (by omega), byteAt_append_left (by omega),
    byteAt_append_left (by omega), byteAt_append_left (by omega)]

theorem byteAt_append_right (front back : List UInt8) (index : ℕ) :
    byteAt (front ++ back) (front.length + index) = byteAt back index := by
  rw [byteAt, byteAt, List.getD_append_right _ _ _ _ (Nat.le_add_right ..), Nat.add_sub_cancel_left]

theorem append_high (length : BitVec 64) :
    length.extractLsb' 56 8 ++ length.extractLsb' 48 8 ++ length.extractLsb' 40 8 ++
      length.extractLsb' 32 8 = (length >>> 32).setWidth 32 := by
  apply BitVec.eq_of_getLsbD_eq
  grind

theorem append_low (length : BitVec 64) :
    length.extractLsb' 24 8 ++ length.extractLsb' 16 8 ++ length.extractLsb' 8 8 ++
      length.extractLsb' 0 8 = length.setWidth 32 := by
  apply BitVec.eq_of_getLsbD_eq
  grind

/-- Behind 56 bytes, the eight bytes of a length are the last two words of a block. -/
theorem wordAt_lengthBytes (size : front.length = 56) (length : BitVec 64) :
    wordAt (front ++ lengthBytes length) 14 = (length >>> 32).setWidth 32 ∧
      wordAt (front ++ lengthBytes length) 15 = length.setWidth 32 := by
  have bytes := byteAt_append_right front (lengthBytes length)
  rw [size] at bytes
  constructor
  · rw [wordAt, bytes 0, bytes 1, bytes 2, bytes 3]
    exact append_high length
  · rw [wordAt, bytes 4, bytes 5, bytes 6, bytes 7]
    exact append_low length

end Padding

section Final

namespace SHA1

variable {sha : SHA1 width} {message front : List UInt8}

theorem text_digest (wide : 32 ≤ width) (sha : SHA1 width) :
    ((List.finRange 5).flatMap fun i => hexText (sha.digest i)) = sha.chain.text := by
  simp only [hexText_eq wide]
  rfl

/-- The block whose last two words are replaced by the length of the message. -/
theorem chain_lastBlock (wide : 32 ≤ width) (size : front.length = 56) {block : ℕ → BitVec width}
    (words : ∀ index < 14, low (block index) = wordAt front index) (length : BitVec 64)
    (sha : SHA1 width) :
    (sha.transformLast length block).chain = compress sha.chain (front ++ lengthBytes length) := by
  have kept : ∀ value : BitVec 64, low (value.setWidth width) = value.setWidth 32 :=
    fun value => BitVec.setWidth_setWidth_of_le value wide
  rcases wordAt_lengthBytes size length with ⟨high, lowest⟩
  rw [transformLast, chain_transform wide, compress]
  apply compressWords_congr
  intro index inside
  rcases eq_or_ne index 14 with rfl | notHigh
  · rw [Function.update_self, kept, high]
  rw [Function.update_of_ne notHigh]
  rcases eq_or_ne index 15 with rfl | notLowest
  · rw [Function.update_self, kept, lowest]
  rw [Function.update_of_ne notLowest, words index (by omega), wordAt_append_left (by omega)]

/-- The bits are counted modulo the size of their counter, as the algorithm has it. -/
theorem total_bits_eq (holds : sha.Holds message) :
    (sha.transforms * .ofNat 64 64 + .ofNat 64 sha.buffer.length) * 8 =
      BitVec.ofNat 64 (message.length * 8) := by
  rw [holds.transforms, holds.length_buffer, ← BitVec.ofNat_mul, ← BitVec.ofNat_add]
  show _ * BitVec.ofNat 64 8 = _
  rw [← BitVec.ofNat_mul]
  congr 2
  exact Nat.div_add_mod' message.length 64

theorem absorb_single {block : List UInt8} (size : block.length = 64) (chain : Chain) :
    (Blocks.absorb 64 compress chain block).1 = compress chain block := by
  have split := @Blocks.absorb_block _ _ 64 compress (by decide) chain _ size []
  rw [List.append_nil] at split
  rw [split, Blocks.absorb_of_lt _ (by decide)]

/-- The length has room in the block of the one bit. -/
theorem chain_one_block (wide : 32 ≤ width) {marked : List UInt8} (room : marked.length ≤ 56)
    (length : BitVec 64) (sha : SHA1 width) :
    let block : ℕ → BitVec width :=
      buffer_to_block (marked ++ List.replicate (64 - marked.length) 0)
    (sha.transformLast length block).chain =
        (Blocks.absorb 64 compress sha.chain
          (marked ++ List.replicate (56 - marked.length) 0 ++ lengthBytes length)).1 := by
  intro block
  have size : (marked ++ List.replicate (56 - marked.length) (0 : UInt8)).length = 56 := by
    rw [List.length_append, List.length_replicate]
    omega
  have zeros : marked ++ List.replicate (64 - marked.length) (0 : UInt8) =
      (marked ++ List.replicate (56 - marked.length) 0) ++ List.replicate 8 0 := by
    rw [List.append_assoc, List.replicate_append_replicate]
    congr 2
    omega
  have whole : ((marked ++ List.replicate (56 - marked.length) (0 : UInt8)) ++
      lengthBytes length).length = 64 := by
    rw [List.length_append, size, length_lengthBytes]
  rw [absorb_single whole]
  apply chain_lastBlock wide size
  intro index inside
  rw [low_buffer_to_block wide, zeros, wordAt_append_left (by omega)]

/-- The length gets a block of its own. -/
theorem chain_two_blocks (wide : 32 ≤ width) {marked : List UInt8} (full : marked.length ≤ 64)
    (length : BitVec 64) (sha : SHA1 width) :
    let block : ℕ → BitVec width :=
      buffer_to_block (marked ++ List.replicate (64 - marked.length) 0)
    let zeroed : ℕ → BitVec width := fun i => if i < 14 then 0 else block i
    ((sha.transform block).transformLast length zeroed).chain =
        (Blocks.absorb 64 compress sha.chain
          (marked ++ List.replicate (120 - marked.length) 0 ++ lengthBytes length)).1 := by
  intro block zeroed
  have size : (marked ++ List.replicate (64 - marked.length) (0 : UInt8)).length = 64 := by
    rw [List.length_append, List.length_replicate]
    omega
  have zeros : marked ++ List.replicate (120 - marked.length) (0 : UInt8) ++ lengthBytes length =
      (marked ++ List.replicate (64 - marked.length) 0) ++
        (List.replicate 56 0 ++ lengthBytes length) := by
    have more : 120 - marked.length = 64 - marked.length + 56 := by omega
    rw [more, ← List.replicate_append_replicate]
    simp only [List.append_assoc]
  have last : (List.replicate 56 (0 : UInt8) ++ lengthBytes length).length = 64 := rfl
  rw [zeros, Blocks.absorb_block (by decide) _ size, absorb_single last,
    ← chain_transform_bytes wide]
  apply chain_lastBlock wide rfl
  intro index inside
  have zero : zeroed index = 0 := if_pos inside
  have zeroWords : ∀ index < 14, wordAt (List.replicate 56 0) index = 0 := by decide
  rw [zero, zeroWords index inside]
  exact low_ofNat wide 0

/-- The text of the digest is the one of the algorithm. -/
theorem final_eq (wide : 32 ≤ width) (holds : sha.Holds message) :
    sha.final = ((SecureHash.hash message).text, reset) := by
  have length := holds.length_buffer
  have small : sha.buffer.length < 64 := length.trans_lt (Nat.mod_lt _ (by decide))
  have marked : (sha.buffer ++ [0x80]).length = sha.buffer.length + 1 := List.length_append
  have pieces := @Blocks.absorb_append _ _ 64 compress (by decide) initial message
    (padding message.length)
  have padded : sha.buffer ++ padding message.length =
      sha.buffer ++ [0x80] ++ List.replicate ((119 - sha.buffer.length) % 64) 0 ++
        lengthBytes (.ofNat 64 (message.length * 8)) := by
    rw [padding, length]
    simp
  rw [← holds.chain, ← holds.buffer, padded] at pieces
  rw [SecureHash.hash, pieces]
  simp only [final, BLOCK_BYTES, total_bits_eq holds, text_digest wide, Prod.mk.injEq, and_true]
  congr 1
  split
  · rename_i two
    have zeros : (119 - sha.buffer.length) % 64 = 120 - (sha.buffer ++ [0x80]).length := by
      omega
    rw [zeros]
    exact chain_two_blocks wide (by omega) _ sha
  · rename_i one
    have zeros : (119 - sha.buffer.length) % 64 = 56 - (sha.buffer ++ [0x80]).length := by
      omega
    rw [zeros]
    exact chain_one_block wide (not_lt.mp one) _ sha

/-- A file that cannot be opened has the digest of an empty one. -/
theorem from_file_eq (wide : 32 ≤ width) (file : Option (List UInt8)) :
    from_file width file = (SecureHash.hash (file.getD [])).text := by
  cases file with
  | none =>
      have unread : (reset : SHA1 width).updateStream (.ofFile none) = reset := by
        rw [updateStream, updateBlocks]
        rfl
      rw [from_file, unread, final_eq wide (holds_reset wide)]
      rfl
  | some content =>
      rw [from_file]
      exact congrArg Prod.fst (final_eq wide ((holds_reset wide).update wide content))

/-- A call of the object. -/
inductive Call
  | update (s : List UInt8)
  | final

/-- What the calls of `final` return. -/
def digests (sha : SHA1 width) : List Call → List Text
  | [] => []
  | .update s :: calls => (sha.update s).digests calls
  | .final :: calls => sha.final.1 :: sha.final.2.digests calls

/-- The texts for the messages between the calls of `final`, each given in pieces. -/
def hashTexts (pending : List UInt8) : List Call → List Text
  | [] => []
  | .update s :: calls => hashTexts (pending ++ s) calls
  | .final :: calls => (SecureHash.hash pending).text :: hashTexts [] calls

theorem Holds.digests (wide : 32 ≤ width) (holds : sha.Holds message) (calls : List Call) :
    sha.digests calls = hashTexts message calls := by
  induction calls generalizing sha message with
  | nil => rfl
  | cons call calls ih =>
      cases call with
      | update s => exact ih (holds.update wide s)
      | final =>
          rw [SHA1.digests, hashTexts, final_eq wide holds, ih (holds_reset wide)]

/--
Whatever the pieces of the messages and however often the object is used, it returns the
digests of the secure hash algorithm, on every width of its words that the header admits.
-/
theorem digests_eq_hashTexts (wide : 32 ≤ width) (calls : List Call) :
    (reset : SHA1 width).digests calls = hashTexts [] calls :=
  (holds_reset wide).digests wide calls

theorem digests_eq_hashTexts_unsignedLong :
    (reset : SHA1 64).digests [.update [97, 98], .update [99], .final, .final] =
      hashTexts [] [.update [97, 98], .update [99], .final, .final] :=
  digests_eq_hashTexts (by decide) _

end SHA1

theorem sha1_eq (wide : 32 ≤ width) (string : List UInt8) :
    sha1 width string = (SecureHash.hash string).text :=
  congrArg Prod.fst (SHA1.final_eq wide ((SHA1.holds_reset wide).update wide string))

end Final

end KeyValueClusterPerf
