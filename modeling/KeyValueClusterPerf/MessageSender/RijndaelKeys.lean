import KeyValueClusterPerf.MessageSender.RijndaelRounds

/-!
# The key schedules of `rijndael-alg-fst.c`

Every word that a loop of the schedule pushes is the next key word of the standard, so that the
cipher with its own schedule is the standard one. The schedule of the inverse is the same words,
with the order of the round keys inverted and the ones in the middle mixed back.
-/

namespace KeyValueClusterPerf

namespace Rijndael

open BlockCipher

section Words

/-- A word is its four bytes. -/
theorem word_ext {left right : Word}
    (bytes : ∀ row < 4, byteAt left row = byteAt right row) : left = right := by
  apply BitVec.eq_of_getLsbD_eq
  intro bit below
  have same := congrArg (fun byte : Byte => byte.getLsbD (bit % 8)) (bytes (3 - bit / 8) (by omega))
  have place : 24 - 8 * (3 - bit / 8) + bit % 8 = bit := by omega
  simpa [byteAt, place, Nat.mod_lt] using same

theorem byteAt_rotateLeft (word : Word) :
    byteAt (word.rotateLeft 8) 0 = byteAt word 1 ∧ byteAt (word.rotateLeft 8) 1 = byteAt word 2 ∧
      byteAt (word.rotateLeft 8) 2 = byteAt word 3 ∧
      byteAt (word.rotateLeft 8) 3 = byteAt word 0 := by
  have bitOf (row bit : ℕ) (below : bit < 8) (upper : row < 3) :
      (word.rotateLeft 8).getLsbD (24 - 8 * row + bit) =
        word.getLsbD (24 - 8 * (row + 1) + bit) := by
    have high : ¬24 - 8 * row + bit < 8 := by omega
    have within : 24 - 8 * row + bit < 32 := by omega
    have back : 24 - 8 * row + bit - 8 = 24 - 8 * (row + 1) + bit := by omega
    rw [BitVec.getLsbD_rotateLeft]
    simp only [Nat.reduceMod, high, within, back, decide_false, decide_true, cond_false,
      Bool.true_and]
  refine ⟨?_, ?_, ?_, ?_⟩
  all_goals
    apply BitVec.eq_of_getLsbD_eq
    intro bit below
    simp only [byteAt, BitVec.getLsbD_extractLsb', below, decide_true, Bool.true_and]
  · exact bitOf 0 bit below (by decide)
  · exact bitOf 1 bit below (by decide)
  · exact bitOf 2 bit below (by decide)
  · simp [BitVec.getLsbD_rotateLeft, below]

theorem substitutes_toBitVec (temp : UInt32) :
    (substitutes temp).toBitVec = subWord temp.toBitVec := by
  have word := @byteAt_lastWord temp temp temp temp 0 _ _ Te4_computed
  have appended := byteAt_append (substitution (byteAt temp.toBitVec 0))
    (substitution (byteAt temp.toBitVec 1)) (substitution (byteAt temp.toBitVec 2))
    (substitution (byteAt temp.toBitVec 3))
  have same : lastWord Te4 temp temp temp temp 0 = substitutes temp := UInt32.xor_zero
  have zero (row : ℕ) : byteAt (0 : UInt32).toBitVec row = 0 := by
    simp [byteAt]
  have xor_zero (byte : Byte) : byte ^^^ 0 = byte := BitVec.xor_zero
  simp only [same, zero, xor_zero] at word
  apply word_ext
  intro row below
  interval_cases row
  · exact word.1.trans appended.1.symm
  · exact word.2.1.trans appended.2.1.symm
  · exact word.2.2.1.trans appended.2.2.1.symm
  · exact word.2.2.2.trans appended.2.2.2.symm

theorem rotatedSubstitutes_toBitVec (temp : UInt32) :
    (rotatedSubstitutes temp).toBitVec = subWord (temp.toBitVec.rotateLeft 8) := by
  have value := @entry_of_table Te4 (fun byte => scaled 1 1 1 1 (substitution byte)) Te4_computed
  have bytes (w x y z : Byte) := byteAt_append w x y z
  have zero_xor (byte : Byte) : 0 ^^^ byte = byte := BitVec.zero_xor
  have xor_zero (byte : Byte) : byte ^^^ 0 = byte := BitVec.xor_zero
  apply word_ext
  intro row below
  interval_cases row
  all_goals
    simp only [rotatedSubstitutes, subWord, maskedEntry, entry, (toNat_indices temp).1,
      (toNat_indices temp).2.1, (toNat_indices temp).2.2.1, (toNat_indices temp).2.2.2, value,
      UInt32.toBitVec_xor, byteAt_xor, byteAt_masks, byteAt_rotateLeft, scaled, mul_one,
      (bytes _ _ _ _).1, (bytes _ _ _ _).2.1, (bytes _ _ _ _).2.2.1, (bytes _ _ _ _).2.2.2,
      xor_zero, zero_xor]

theorem rcon_eq {i : ℕ} (below : i < 10) : rcon[i]!.toBitVec = roundConstant (i + 1) := by
  have all : ∀ i < 10, rcon[i]!.toBitVec = roundConstant (i + 1) := by
    decide +kernel
  exact all i below

end Words

section Schedule

/-- An array that holds the first words of a schedule. -/
structure Scheduled (word : ℕ → Word) (size : ℕ) (rk : Array UInt32) : Prop where
  size_eq : rk.size = size
  words : ∀ index < size, keyWords rk index = word index

variable {word : ℕ → Word} {size : ℕ} {rk : Array UInt32}

theorem Scheduled.push (scheduled : Scheduled word size rk) {value : UInt32}
    (next : value.toBitVec = word size) : Scheduled word (size + 1) (rk.push value) := by
  refine ⟨by rw [Array.size_push, scheduled.size_eq], ?_⟩
  intro index below
  rcases Nat.lt_succ_iff_lt_or_eq.mp below with earlier | rfl
  · have kept : (rk.push value)[index]! = rk[index]! := by
      have within : index < rk.size := scheduled.size_eq ▸ earlier
      simp [getElem!_pos, within, Nat.lt_succ_of_lt within, Array.getElem_push_lt within]
    rw [keyWords, kept]
    exact scheduled.words index earlier
  · have last : (rk.push value)[index]! = value := by
      simp [getElem!_pos, ← scheduled.size_eq]
    rw [keyWords, last, next]

/-- The words of the key itself. -/
theorem keyWord_lt (key : ℕ → Word) {words index : ℕ} (below : index < words) :
    keyWord key words index = key index := by
  rw [keyWord, if_pos (Or.inl below)]

variable {key : ℕ → Word} {words i : ℕ}

/-- The first word of a round of the schedule. -/
theorem Scheduled.pushFirst {base last : ℕ} (positive : 0 < words)
    (scheduled : Scheduled (keyWord key words) size rk) (start : base = words * i)
    (previous : last + 1 = size) (size_eq : size = base + words) (below : i < 10) :
    Scheduled (keyWord key words) (size + 1)
      (rk.push (rk[base]! ^^^ rotatedSubstitutes rk[last]! ^^^ rcon[i]!)) := by
  apply scheduled.push
  have place : size = words * (i + 1) := by
    rw [size_eq, start, Nat.mul_succ]
  have notKey : ¬(size < words ∨ words = 0) := by
    omega
  have first := scheduled.words base (by omega)
  have before := scheduled.words last (by omega)
  have earlier : size - words = base := by
    omega
  have one : size - 1 = last := by
    omega
  have whole : size % words = 0 := by
    rw [place]
    exact Nat.mul_mod_right words (i + 1)
  have round : size / words = i + 1 := by
    rw [place]
    exact Nat.mul_div_cancel_left (i + 1) positive
  simp only [keyWords] at first before
  rw [keyWord, if_neg notKey]
  simp only [if_pos whole, earlier, one, round, ← first, ← before, ← rcon_eq below,
    ← rotatedSubstitutes_toBitVec, UInt32.toBitVec_xor, BitVec.xor_assoc]

/-- A word of the schedule that is only a sum. -/
theorem Scheduled.pushSum {first second : ℕ}
    (positive : 0 < words) (scheduled : Scheduled (keyWord key words) size rk)
    (earlier : first + words = size) (previous : second + 1 = size) (inner : size % words ≠ 0)
    (plain : ¬(6 < words ∧ size % words = 4)) :
    Scheduled (keyWord key words) (size + 1) (pushSum rk first second) := by
  apply scheduled.push
  have notKey : ¬(size < words ∨ words = 0) := by
    omega
  have firstWord := scheduled.words first (by omega)
  have before := scheduled.words second (by omega)
  have back : size - words = first := by
    omega
  have one : size - 1 = second := by
    omega
  simp only [keyWords] at firstWord before
  rw [keyWord, if_neg notKey]
  simp only [if_neg inner, if_neg plain, back, one, ← firstWord, ← before, UInt32.toBitVec_xor]

/-- The word in the middle of a round with the longest key. -/
theorem Scheduled.pushSubstitutes {first second : ℕ}
    (scheduled : Scheduled (keyWord key 8) size rk) (earlier : first + 8 = size)
    (previous : second + 1 = size) (middle : size % 8 = 4) :
    Scheduled (keyWord key 8) (size + 1) (rk.push (rk[first]! ^^^ substitutes rk[second]!)) := by
  apply scheduled.push
  have notKey : ¬(size < 8 ∨ 8 = 0) := by
    omega
  have inner : ¬size % 8 = 0 := by
    omega
  have firstWord := scheduled.words first (by omega)
  have before := scheduled.words second (by omega)
  have back : size - 8 = first := by
    omega
  have one : size - 1 = second := by
    omega
  simp only [keyWords] at firstWord before
  have long : 6 < 8 ∧ size % 8 = 4 := ⟨by decide, middle⟩
  rw [keyWord, if_neg notKey]
  simp only [if_neg inner, if_pos long, back, one, ← firstWord, ← before, UInt32.toBitVec_xor,
    substitutes_toBitVec]

theorem scheduled_keySetup128 (left i : ℕ) (rk : Array UInt32)
    (scheduled : Scheduled (keyWord key 4) (4 * i + 4) rk) (below : i + left ≤ 10) :
    Scheduled (keyWord key 4) (4 * (i + left) + 4) (keySetup128 left i rk) := by
  induction left generalizing i rk with
  | zero => exact scheduled
  | succ left ih =>
      have pushed := ((((scheduled.pushFirst (by omega) rfl rfl rfl (by omega)).pushSum (by omega)
        rfl rfl (by omega) (by omega)).pushSum (by omega) rfl rfl (by omega) (by omega)).pushSum
        (by omega) rfl rfl (by omega) (by omega))
      have later := ih (i + 1) _ pushed (by omega)
      rwa [Nat.add_right_comm] at later

theorem scheduled_keySetup192 (left i : ℕ) (rk : Array UInt32)
    (scheduled : Scheduled (keyWord key 6) (6 * i + 6) rk) (below : i + (left + 1) ≤ 10) :
    Scheduled (keyWord key 6) (6 * (i + left) + 10) (keySetup192 (left + 1) i rk) := by
  induction left generalizing i rk with
  | zero =>
      exact (((scheduled.pushFirst (by omega) rfl rfl rfl (by omega)).pushSum (by omega) rfl rfl
        (by omega) (by omega)).pushSum (by omega) rfl rfl (by omega) (by omega)).pushSum (by omega)
        rfl rfl (by omega) (by omega)
  | succ left ih =>
      have pushed := (((((scheduled.pushFirst (by omega) rfl rfl rfl (by omega)).pushSum (by omega)
        rfl rfl (by omega) (by omega)).pushSum (by omega) rfl rfl (by omega) (by omega)).pushSum
        (by omega) rfl rfl (by omega) (by omega)).pushSum (by omega) rfl rfl (by omega)
        (by omega)).pushSum (by omega) rfl rfl (by omega) (by omega)
      have later := ih (i + 1) _ pushed (by omega)
      rwa [Nat.add_right_comm] at later

theorem scheduled_keySetup256 (left i : ℕ) (rk : Array UInt32)
    (scheduled : Scheduled (keyWord key 8) (8 * i + 8) rk) (below : i + (left + 1) ≤ 10) :
    Scheduled (keyWord key 8) (8 * (i + left) + 12) (keySetup256 (left + 1) i rk) := by
  induction left generalizing i rk with
  | zero =>
      exact (((scheduled.pushFirst (by omega) rfl rfl rfl (by omega)).pushSum (by omega) rfl rfl
        (by omega) (by omega)).pushSum (by omega) rfl rfl (by omega) (by omega)).pushSum (by omega)
        rfl rfl (by omega) (by omega)
  | succ left ih =>
      have half := (((scheduled.pushFirst (by omega) rfl rfl rfl (by omega)).pushSum (by omega) rfl
        rfl (by omega) (by omega)).pushSum (by omega) rfl rfl (by omega) (by omega)).pushSum
        (by omega) rfl rfl (by omega) (by omega)
      have pushed := (((half.pushSubstitutes rfl rfl (by omega)).pushSum (by omega) rfl rfl
        (by omega) (by omega)).pushSum (by omega) rfl rfl (by omega) (by omega)).pushSum (by omega)
        rfl rfl (by omega) (by omega)
      have later := ih (i + 1) _ pushed (by omega)
      rwa [Nat.add_right_comm] at later

end Schedule

section Standard

theorem GETU32_toBitVec (cipherKey : Array UInt8) (index : ℕ) :
    (GETU32 cipherKey (4 * index)).toBitVec = keyOf cipherKey index := by
  have read := byteAt_GETU32 cipherKey (4 * index)
  have appended := byteAt_append cipherKey[4 * index]!.toBitVec cipherKey[4 * index + 1]!.toBitVec
    cipherKey[4 * index + 2]!.toBitVec cipherKey[4 * index + 3]!.toBitVec
  apply word_ext
  intro row below
  interval_cases row
  · exact (read 0).trans appended.1.symm
  · exact (read 1).trans appended.2.1.symm
  · exact (read 2).trans appended.2.2.1.symm
  · exact (read 3).trans appended.2.2.2.symm

theorem Scheduled.pushKey {cipherKey : Array UInt8} {words size : ℕ} {rk : Array UInt32}
    (scheduled : Scheduled (keyWord (keyOf cipherKey) words) size rk) (below : size < words) :
    Scheduled (keyWord (keyOf cipherKey) words) (size + 1)
      (rk.push (GETU32 cipherKey (4 * size))) := by
  apply scheduled.push
  rw [keyWord_lt _ below, GETU32_toBitVec]

theorem scheduled_empty (word : ℕ → Word) : Scheduled word 0 #[] :=
  ⟨rfl, fun _ below => absurd below (Nat.not_lt_zero _)⟩

/-- The lengths of a key in words. -/
def KeyLength (words : ℕ) : Prop :=
  words = 4 ∨ words = 6 ∨ words = 8

/-- The words of the schedule are those of the standard, and there are enough for all rounds. -/
theorem scheduled_rijndaelKeySetupEnc (cipherKey : Array UInt8) {words : ℕ}
    (length : KeyLength words) :
    (rijndaelKeySetupEnc cipherKey (32 * words)).2 = words + 6 ∧
      Scheduled (keyWord (keyOf cipherKey) words) (4 * (words + 7))
        (rijndaelKeySetupEnc cipherKey (32 * words)).1 := by
  have start (words : ℕ) (enough : 4 ≤ words) :=
    ((((scheduled_empty (keyWord (keyOf cipherKey) words)).pushKey (by omega)).pushKey
      (by omega)).pushKey (by omega)).pushKey (by omega)
  have middle (words : ℕ) (enough : 6 ≤ words) :=
    ((start words (by omega)).pushKey (by omega)).pushKey (by omega)
  rcases length with rfl | rfl | rfl
  · refine ⟨rfl, ?_⟩
    exact scheduled_keySetup128 10 0 _ (start 4 (by omega)) (by omega)
  · refine ⟨rfl, ?_⟩
    exact scheduled_keySetup192 7 0 _ (middle 6 (by omega)) (by omega)
  · refine ⟨rfl, ?_⟩
    exact scheduled_keySetup256 6 0 _
      (((middle 8 (by omega)).pushKey (by omega)).pushKey (by omega)) (by omega)

/-- A cipher reads only the words of its round keys. -/
theorem cipher_congr {left right : ℕ → Word} {rounds : ℕ}
    (same : ∀ index < 4 * (rounds + 1), left index = right index) :
    cipher left rounds = cipher right rounds := by
  have keys (round : ℕ) (within : round ≤ rounds) : roundKey left round = roundKey right round := by
    funext row column
    simp only [roundKey]
    rw [same (4 * round + column) (by omega)]
  have middle : middleKeys left rounds = middleKeys right rounds := by
    apply List.map_congr_left
    intro round inside
    have below := List.mem_range.mp inside
    exact keys (round + 1) (by omega)
  rw [cipher, cipher, keys 0 (Nat.zero_le rounds), keys rounds le_rfl, middle]

theorem KeyLength.rounds {words : ℕ} (length : KeyLength words) :
    words + 6 = 2 * (words / 2 + 3) ∧ 0 < words / 2 + 3 := by
  rcases length with rfl | rfl | rfl
  · decide
  · decide
  · decide

theorem Scheduled.encrypts {cipherKey : Array UInt8} {words : ℕ} {rk : Array UInt32}
    (length : KeyLength words)
    (scheduled : Scheduled (keyWord (keyOf cipherKey) words) (4 * (words + 7)) rk)
    (pt : Vector UInt8 16) : rijndaelEncrypt rk (words + 6) pt = encrypted cipherKey words pt := by
  have ⟨half, positive⟩ := length.rounds
  rw [half, rijndaelEncrypt_eq _ positive, ← half, cipher_congr scheduled.words, encrypted]

/-- With its own schedule the code is the cipher of the standard, for every length of a key. -/
theorem rijndaelEncrypt_keySetupEnc {words : ℕ} (length : KeyLength words)
    (cipherKey : Array UInt8) (pt : Vector UInt8 16) :
    let (rk, Nr) := rijndaelKeySetupEnc cipherKey (32 * words)
    rijndaelEncrypt rk Nr pt = encrypted cipherKey words pt := by
  have ⟨rounds, scheduled⟩ := scheduled_rijndaelKeySetupEnc cipherKey length
  simp only [rounds]
  exact scheduled.encrypts length pt

theorem rijndaelEncrypt_keySetupEnc_192 :
    let pt : Vector UInt8 16 := .ofFn fun index => .ofNat (17 * index)
    let (rk, Nr) := rijndaelKeySetupEnc (.ofFn fun index : Fin 24 => .ofNat index) (32 * 6)
    rijndaelEncrypt rk Nr pt = encrypted (.ofFn fun index : Fin 24 => .ofNat index) 6 pt :=
  rijndaelEncrypt_keySetupEnc (.inr (.inl rfl)) _ _

end Standard

end Rijndael

/-- The cipher as `vmac.h` calls it, with keys of 128 bits. -/
def Vmac.rijndael : Vmac.Rijndael where
  keySetupEnc user_key :=
    ⟨(Rijndael.rijndaelKeySetupEnc user_key.toArray 128).1,
      (Rijndael.scheduled_rijndaelKeySetupEnc user_key.toArray (.inl rfl)).2.size_eq⟩
  encrypt int_key block := Rijndael.rijndaelEncrypt int_key.toArray 10 block

theorem Vmac.rijndael_encrypt (user_key block : Vector UInt8 16) :
    rijndael.encrypt (rijndael.keySetupEnc user_key) block =
      BlockCipher.encrypted user_key.toArray 4 block :=
  (Rijndael.scheduled_rijndaelKeySetupEnc user_key.toArray (.inl rfl)).2.encrypts (.inl rfl) block

end KeyValueClusterPerf
