import KeyValueClusterPerf.Cluster.Basic
import KeyValueClusterPerf.Configuration.CommandLine
import KeyValueClusterPerf.Foundations.KeyedRanges
import KeyValueClusterPerf.SimulationController.Addresses

/-!
# The ports that a configuration needs

Each host of the controller configuration takes two ranges of ports on its node: one from
`firstCommandPort` on and one from `firstDataPort` on, with a port of each for every worker up to
the host limit. Nothing in the program compares them with each other. The workers have a
socket each for commands and for data exactly if no two of the ranges on one node overlap.
-/

namespace KeyValueClusterPerf

open Texts KeyedRanges

section Addresses

theorem colon_not_mem_decimalInt (port : ℤ) : ':' ∉ decimalInt port := by
  have digits : ∀ number, ':' ∉ decimal number := by
    intro number mem
    simpa using isDigit_of_mem_decimal mem
  cases port with
  | ofNat number => exact digits number
  | negSucc number =>
      intro mem
      rcases List.mem_cons.mp mem with sign | digit
      · simp at sign
      · exact digits _ digit

/-- An address determines its node and its port, whatever the name of the node is. -/
theorem address_inj {first second : Text} {firstPort secondPort : ℤ} :
    address first firstPort = address second secondPort ↔
      first = second ∧ firstPort = secondPort := by
  constructor
  · intro same
    have ports : decimalInt firstPort = decimalInt secondPort := by
      rw [← afterLast_append (colon_not_mem_decimalInt firstPort) ("tcp://".toList ++ first),
        ← afterLast_append (colon_not_mem_decimalInt secondPort) ("tcp://".toList ++ second)]
      exact congrArg _ same
    rw [address, address, ports] at same
    exact ⟨List.append_cancel_left (List.append_cancel_right same), decimalInt_injective ports⟩
  · rintro ⟨rfl, rfl⟩
    rfl

/-- The address of a port of a node. -/
def socketAddress (socket : Text × ℤ) : Text :=
  address socket.1 socket.2

theorem socketAddress_injective : Function.Injective socketAddress := by
  intro first second same
  exact Prod.ext_iff.mpr (address_inj.mp same)

end Addresses

section Ranges

variable {hostLimit : Int32} {entry : HostEntry} {entries : List HostEntry}

def HostEntry.commandPorts (hostLimit : Int32) (entry : HostEntry) : KeyedRange Text :=
  ⟨entry.nodeAddress, entry.firstCommandPort.toInt, entry.nodeCount hostLimit⟩

def HostEntry.dataPorts (hostLimit : Int32) (entry : HostEntry) : KeyedRange Text :=
  ⟨entry.nodeAddress, entry.firstDataPort.toInt, entry.nodeCount hostLimit⟩

/-- The ports that all hosts take, with the nodes on which they take them. -/
def portRanges (hostLimit : Int32) (entries : List HostEntry) : List (KeyedRange Text) :=
  entries.flatMap fun entry => [entry.commandPorts hostLimit, entry.dataPorts hostLimit]

/-- No two ranges of ports overlap on one node. -/
def PortsApart (hostLimit : Int32) (entries : List HostEntry) : Prop :=
  (portRanges hostLimit entries).Pairwise KeyedRange.Apart

instance : Decidable (PortsApart hostLimit entries) :=
  inferInstanceAs (Decidable (List.Pairwise _ _))

theorem map_commandAddress_placementsFrom :
    (entry.placementsFrom hostLimit 0).map Placement.commandAddress =
      (entry.commandPorts hostLimit).points.map socketAddress := by
  simp only [HostEntry.placementsFrom, KeyedRange.points, List.map_map, List.range_eq_range']
  rfl

theorem map_dataAddress_placementsFrom :
    (entry.placementsFrom hostLimit 0).map Placement.dataAddress =
      (entry.dataPorts hostLimit).points.map socketAddress := by
  simp only [HostEntry.placementsFrom, KeyedRange.points, List.map_map, List.range_eq_range']
  rfl

/-- The addresses are those of all the ports. -/
theorem perm_addresses :
    ((placements hostLimit entries).map Placement.commandAddress ++
      (placements hostLimit entries).map Placement.dataAddress).Perm
        (((portRanges hostLimit entries).flatMap KeyedRange.points).map socketAddress) := by
  induction entries with
  | nil => rfl
  | cons entry rest ih =>
      have both := List.Perm.append_left
        ((entry.commandPorts hostLimit).points.map socketAddress ++
          (entry.dataPorts hostLimit).points.map socketAddress) ih
      simp only [placements, portRanges, List.flatMap_cons, List.map_append, List.flatMap_append,
        List.flatMap_nil, List.append_nil, List.append_assoc, map_commandAddress_placementsFrom,
        map_dataAddress_placementsFrom] at both ⊢
      refine List.Perm.trans (List.Perm.append_left _ ?_) both
      exact List.perm_append_comm_assoc _ _ _

theorem nodup_addresses_iff :
    ((placements hostLimit entries).map Placement.commandAddress ++
      (placements hostLimit entries).map Placement.dataAddress).Nodup ↔
        PortsApart hostLimit entries := by
  rw [perm_addresses.nodup_iff, List.nodup_map_iff socketAddress_injective,
    KeyedRange.nodup_flatMap_points_iff]
  rfl

end Ranges

section Controller

variable {config : Configuration} {paired : config.dataHosts.length = config.commandHosts.length}

theorem injective_toController_iff :
    Function.Injective (Sum.elim (config.toController paired).commandHosts
        (config.toController paired).dataHosts) ↔
      (config.commandHosts ++ config.dataHosts).Nodup := by
  have commandHosts : Function.Injective (config.toController paired).commandHosts ↔
      config.commandHosts.Nodup :=
    List.nodup_iff_injective_get.symm
  have dataHosts : Function.Injective (config.toController paired).dataHosts ↔
      config.dataHosts.Nodup := by
    rw [List.nodup_iff_injective_get]
    exact Function.Injective.of_comp_iff' _ (Fin.castOrderIso paired.symm).bijective
  rw [Sum.elim_injective, List.nodup_append, commandHosts, dataHosts]
  apply and_congr_right
  intro _
  apply and_congr_right
  intro _
  constructor
  · intro apart command commandMem data dataMem
    rcases List.get_of_mem commandMem with ⟨worker, rfl⟩
    rcases List.get_of_mem dataMem with ⟨other, rfl⟩
    exact apart worker (other.cast paired)
  · intro apart worker other
    exact apart _ (List.get_mem _ _) _ (List.get_mem _ _)

end Controller

/--
The controller and its workers have sockets of their own, one for commands and one for data each,
exactly if no two of the configured ranges of ports overlap on one node.
-/
theorem distinct_iff_portsApart {vm : VariablesMap} {options : ProgramConfiguration}
    {children : List (Text × HostTree)} {entries : List HostEntry} {config : Configuration}
    (optionsParsed : parse_cmd_line vm {} = .ok options) (parsed : ParsedAs children entries)
    (hostsParsed : parseControllerXML (some children) options.toConfiguration = .ok config) :
    Function.Injective (Sum.elim
        (config.toController (paired_of_parsed optionsParsed hostsParsed)).commandHosts
        (config.toController (paired_of_parsed optionsParsed hostsParsed)).dataHosts) ↔
      PortsApart (vm.hostLimit.getD (-1)) entries := by
  rw [injective_toController_iff, ← nodup_addresses_iff]
  have hostsEq := ((parseControllerXML_eq_ok_iff parsed _ _).mp hostsParsed).2
  rcases (parse_cmd_line_eq_ok_iff.mp optionsParsed).2.2 with rfl
  rw [hostsEq]
  rfl

/-- From the documented ports on, 1001 workers of a node get one port for two purposes. -/
theorem distinct_iff_portsApart_localHost :
    ∃ (options : ProgramConfiguration)
      (optionsParsed : parse_cmd_line { controller := true } {} = .ok options)
      (config : Configuration)
      (hostsParsed : parseControllerXML (some (hostElements [localHost 1001]))
        options.toConfiguration = .ok config),
      ¬Function.Injective (Sum.elim
        (config.toController (paired_of_parsed optionsParsed hostsParsed)).commandHosts
        (config.toController (paired_of_parsed optionsParsed hostsParsed)).dataHosts) := by
  have fits : ∀ placement ∈ placements (-1) [localHost 1001], placement.PortsFit := by
    apply portsFit_placements_iff.mpr
    intro entry mem i inside
    rcases List.mem_singleton.mp mem with rfl
    have count : (localHost 1001).nodeCount (-1) = 1001 := by
      decide
    have command : (3000 : Int32).toInt = 3000 := rfl
    have data : (4000 : Int32).toInt = 4000 := rfl
    have highest : Int32.maxValue.toInt = 2147483647 := rfl
    constructor <;> simp only [localHost, command, data, highest] <;> omega
  have parsed := parsedAs_hostElements [localHost 1001]
  have optionsParsed : parse_cmd_line { controller := true } {} = .ok { controller := true } := rfl
  have hostsParsed : parseControllerXML (some (hostElements [localHost 1001])) {} =
      .ok (Configuration.extend {} (placements (-1) [localHost 1001])) :=
    (parseControllerXML_eq_ok_iff parsed _ _).mpr ⟨fits, rfl⟩
  refine ⟨_, optionsParsed, _, hostsParsed, ?_⟩
  rw [distinct_iff_portsApart optionsParsed parsed hostsParsed]
  decide +kernel

end KeyValueClusterPerf
