import KeyValueClusterPerf.Configuration.ControllerXML

/-!
# The host limit

The host limit is documented as the greatest number of workers, but it limits the nodes of
each host. So the number of addresses is the smaller of the limit and the number of all
nodes exactly if there are no more nodes than the limit allows, or all are of one host.
-/

namespace KeyValueClusterPerf

open Texts CheckedInts

/-- The sum of numbers that are cut at a limit is at least their sum cut at the limit. -/
theorem min_sum_le (limit : ℕ) (counts : List ℕ) :
    min counts.sum limit ≤ (counts.map (min · limit)).sum := by
  induction counts with
  | nil => simp
  | cons count rest ih =>
      simp only [List.map_cons, List.sum_cons]
      omega

theorem sum_min_eq_of_le {limit : ℕ} {counts : List ℕ} (small : counts.sum ≤ limit) :
    (counts.map (min · limit)).sum = counts.sum := by
  induction counts with
  | nil => rfl
  | cons count rest ih =>
      simp only [List.map_cons, List.sum_cons] at small ⊢
      rw [ih (by omega)]
      omega

/-- Cutting each number is cutting the sum if the sum is small or has one summand only. -/
theorem sum_min_eq_iff {limit : ℕ} (positive : 0 < limit) (counts : List ℕ) :
    (counts.map (min · limit)).sum = min limit counts.sum ↔
      counts.sum ≤ limit ∨ (counts.filter (0 < ·)).length ≤ 1 := by
  induction counts with
  | nil => simp
  | cons count rest ih =>
      have atLeast := min_sum_le limit rest
      rcases Nat.eq_zero_or_pos count with rfl | nonzero
      · simpa using ih
      · have restEmpty : (rest.filter (0 < ·)).length = 0 ↔ rest.sum = 0 := by
          simp [List.sum_eq_zero_iff]
        have filtered : (count :: rest).filter (0 < ·) = count :: rest.filter (0 < ·) :=
          List.filter_cons_of_pos (decide_eq_true nonzero)
        rw [filtered, List.map_cons, List.sum_cons, List.sum_cons, List.length_cons]
        rcases le_or_gt rest.sum limit with small | large
        · rw [sum_min_eq_of_le small]
          omega
        · omega

/-- The number of nodes of all hosts; a negative number of nodes counts as none. -/
def nodeTotal (entries : List HostEntry) : ℕ :=
  (entries.map (·.numberOfNodes.toInt.toNat)).sum

theorem length_placements {hostLimit : Int32} (limited : 0 < hostLimit.toInt)
    (entries : List HostEntry) :
    (placements hostLimit entries).length =
      ((entries.map (·.numberOfNodes.toInt.toNat)).map (min · hostLimit.toInt.toNat)).sum := by
  rw [placements, List.length_flatMap, List.map_map]
  congr 1
  apply List.map_congr_left
  intro entry _
  simp [HostEntry.placementsFrom, HostEntry.nodeCount, limited]

/-- The parser succeeds with as many addresses as the nodes and the limit ask for. -/
def LimitRespected (children : List (Text × HostTree)) (entries : List HostEntry)
    (hostLimit : Int32) : Prop :=
  ∃ config, parseControllerXML (some children) { hostLimit := hostLimit } = .ok config ∧
    config.commandHosts.length = min hostLimit.toInt.toNat (nodeTotal entries)

/-- All ports are `int`s, and the limit covers all nodes or there is one host with nodes. -/
structure LimitApplicable (entries : List HostEntry) (hostLimit : Int32) : Prop where
  portsFit : ∀ entry ∈ entries, ∀ i < entry.nodeCount hostLimit, Placement.PortsFit ⟨entry, i⟩
  counts : nodeTotal entries ≤ hostLimit.toInt.toNat ∨
    (entries.filter (0 < ·.numberOfNodes.toInt)).length ≤ 1

/-- The limit holds for all hosts together exactly where it is applicable. -/
theorem limitRespected_iff {children : List (Text × HostTree)} {entries : List HostEntry}
    (parsed : ParsedAs children entries) {hostLimit : Int32} (limited : 0 < hostLimit.toInt) :
    LimitRespected children entries hostLimit ↔ LimitApplicable entries hostLimit := by
  have positive : 0 < hostLimit.toInt.toNat := by omega
  have counted := sum_min_eq_iff positive (entries.map (·.numberOfNodes.toInt.toNat))
  have hostsWithNodes : ((entries.map (·.numberOfNodes.toInt.toNat)).filter (0 < ·)).length =
      (entries.filter (0 < ·.numberOfNodes.toInt)).length := by
    rw [List.filter_map, List.length_map]
    congr 2
    funext entry
    apply decide_eq_decide.mpr
    exact Int.lt_toNat
  rw [hostsWithNodes, ← length_placements limited] at counted
  constructor
  · rintro ⟨config, succeeded, lengthEq⟩
    rcases (parseControllerXML_eq_ok_iff parsed _ config).mp succeeded with ⟨fits, configEq⟩
    rw [configEq, Configuration.length_commandHosts_extend, List.length_nil,
      Nat.zero_add] at lengthEq
    exact ⟨portsFit_placements_iff.mp fits, counted.mp lengthEq⟩
  · intro applicable
    refine ⟨_, (parseControllerXML_eq_ok_iff parsed _ _).mpr
      ⟨portsFit_placements_iff.mpr applicable.portsFit, rfl⟩, ?_⟩
    rw [Configuration.length_commandHosts_extend, List.length_nil, Nat.zero_add]
    exact counted.mpr applicable.counts

theorem limitRespected_localHost : LimitRespected (hostElements [localHost 5]) [localHost 5] 3 := by
  apply (limitRespected_iff (parsedAs_hostElements [localHost 5]) (by decide)).mpr
  constructor
  · simp only [List.mem_singleton, forall_eq]
    decide
  · right
    decide

/-- Two hosts with two nodes each make four addresses, although the limit is three. -/
theorem limit_exceeded :
    ¬LimitRespected (hostElements [localHost 2, localHost 2]) [localHost 2, localHost 2] 3 := by
  rintro ⟨config, succeeded, lengthEq⟩
  rcases (parseControllerXML_eq_ok_iff (parsedAs_hostElements _) _ config).mp succeeded with
    ⟨_, configEq⟩
  rw [configEq] at lengthEq
  exact absurd lengthEq (by decide)

end KeyValueClusterPerf
