import Mathlib.Logic.Equiv.Defs

/-!
# Ciphers of alternating rounds and keys

A state is substituted, mixed and combined with a key in every round, and the last round does not
mix. If the mixing distributes over the combination, the same order of operations decrypts, with
the keys reversed and those in the middle mixed back.
-/

namespace KeyedRounds

/-- The operations of a round; a key that is combined twice disappears. -/
structure Rounds (State : Type) where
  combine : State → State → State
  substitute : State ≃ State
  mix : State ≃ State
  cancel : ∀ state key, combine (combine state key) key = state
  mix_combine : ∀ state key, mix (combine state key) = combine (mix state) (mix key)

namespace Rounds

variable {State : Type} (rounds : Rounds State)

def round (state key : State) : State :=
  rounds.combine (rounds.mix (rounds.substitute state)) key

def encrypt (first : State) (middle : List State) (last state : State) : State :=
  rounds.combine
    (rounds.substitute (middle.foldl rounds.round (rounds.combine state first))) last

/-- A round of the inverse cipher, with the operations in the order of the cipher. -/
def inverseRound (state key : State) : State :=
  rounds.combine (rounds.mix.symm (rounds.substitute.symm state)) key

def decrypt (first : State) (middle : List State) (last state : State) : State :=
  rounds.combine
    (rounds.substitute.symm (middle.foldl rounds.inverseRound (rounds.combine state first))) last

theorem unmix_combine (state key : State) :
    rounds.mix.symm (rounds.combine state key) =
      rounds.combine (rounds.mix.symm state) (rounds.mix.symm key) := by
  apply rounds.mix.injective
  rw [rounds.mix_combine]
  simp

/-- A round of the inverse cipher takes the substituted state back by one round. -/
theorem inverseRound_substitute_round (state key : State) :
    rounds.inverseRound (rounds.substitute (rounds.round state key)) (rounds.mix.symm key) =
      rounds.substitute state := by
  have unmixed : rounds.mix.symm (rounds.round state key) =
      rounds.combine (rounds.substitute state) (rounds.mix.symm key) := by
    rw [round, rounds.unmix_combine, Equiv.symm_apply_apply]
  rw [inverseRound, Equiv.symm_apply_apply, unmixed, rounds.cancel]

theorem foldl_inverseRound (middle : List State) (state : State) :
    (middle.reverse.map rounds.mix.symm).foldl rounds.inverseRound
        (rounds.substitute (middle.foldl rounds.round state)) =
      rounds.substitute state := by
  induction middle generalizing state with
  | nil => rfl
  | cons key middle ih =>
      rw [List.foldl_cons, List.reverse_cons, List.map_append, List.foldl_append, ih]
      exact rounds.inverseRound_substitute_round state key

/-- The cipher with reversed keys, those in the middle mixed back, is the inverse. -/
theorem decrypt_encrypt (first : State) (middle : List State) (last state : State) :
    rounds.decrypt last (middle.reverse.map rounds.mix.symm) first
        (rounds.encrypt first middle last state) = state := by
  rw [decrypt, encrypt, rounds.cancel, rounds.foldl_inverseRound, Equiv.symm_apply_apply,
    rounds.cancel]

end Rounds

end KeyedRounds
