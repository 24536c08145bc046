import KeyValueClusterPerf.Foundations.CheckedInt
import KeyValueClusterPerf.Foundations.Decimal

/-!
# The addresses of the workers

`parseControllerXML` goes through the elements of the controller configuration. For each
host it counts through the nodes and adds a command and a data address for each of them,
until the nodes end or a positive host limit is reached. The limit is compared with the
counter of the host at hand, not with the number of addresses so far.

A property tree that has been read is given by what `get` finds at the paths of a host.
-/

namespace KeyValueClusterPerf

open Texts CheckedInts

/-- The fields of the configuration that belong to the controller, with their defaults. -/
structure Configuration where
  commandHosts : List Text := []
  dataHosts : List Text := []
  hostLimit : Int32 := -1
  simulationIteration : Int32 := -1

/-- What is found at the paths of a host element; `get` throws where nothing is found. -/
structure HostTree where
  firstCommandPort : Option Int32
  firstDataPort : Option Int32
  numberOfNodes : Option Int32
  nodeAddress : Option Text

structure HostEntry where
  firstCommandPort : Int32
  firstDataPort : Int32
  numberOfNodes : Int32
  nodeAddress : Text

/-- An exception of the property tree, or a port beyond `int`, which has no defined behaviour. -/
inductive ParseFailure
  | badPath (path : Text)
  | overflow

def readPath {α : Type} (path : Text) : Option α → Except ParseFailure α
  | some value => .ok value
  | none => .error (.badPath path)

def HostTree.read (tree : HostTree) : Except ParseFailure HostEntry := do
  let firstCommandPort ← readPath "firstCommandPort".toList tree.firstCommandPort
  let firstDataPort ← readPath "firstDataPort".toList tree.firstDataPort
  let numberOfNodes ← readPath "numberOfNodes".toList tree.numberOfNodes
  let nodeAddress ← readPath "nodeAddress".toList tree.nodeAddress
  return ⟨firstCommandPort, firstDataPort, numberOfNodes, nodeAddress⟩

def address (nodeAddress : Text) (port : ℤ) : Text :=
  "tcp://".toList ++ nodeAddress ++ ':' :: decimalInt port

/-- The loop over the nodes of a host, from the counter `i` on. -/
def addNodes (entry : HostEntry) (i : ℕ) (config : Configuration) :
    Except ParseFailure Configuration :=
  if i < entry.numberOfNodes.toInt then
    if 0 < config.hostLimit.toInt ∧ config.hostLimit.toInt ≤ i then .ok config
    else
      match checked (entry.firstCommandPort.toInt + i),
        checked (entry.firstDataPort.toInt + i) with
      | some commandPort, some dataPort =>
          addNodes entry (i + 1) { config with
            commandHosts := config.commandHosts ++ [address entry.nodeAddress commandPort.toInt]
            dataHosts := config.dataHosts ++ [address entry.nodeAddress dataPort.toInt] }
      | _, _ => .error .overflow
  else .ok config
termination_by (entry.numberOfNodes.toInt - i).toNat
decreasing_by omega

/-- The loop over the elements; those that are no hosts are ignored. -/
def parseHosts : List (Text × HostTree) → Configuration → Except ParseFailure Configuration
  | [], config => .ok config
  | (name, tree) :: rest, config =>
      if name = "host".toList then do
        let entry ← tree.read
        let extended ← addNodes entry 0 config
        parseHosts rest extended
      else parseHosts rest config

/-- `parseControllerXML`, on what the tree has below the path `hosts`. -/
def parseControllerXML (hosts : Option (List (Text × HostTree))) (config : Configuration) :
    Except ParseFailure Configuration := do
  let children ← readPath "hosts".toList hosts
  parseHosts children config

/-- The entries of the hosts among the elements, all of which can be read. -/
def ParsedAs (children : List (Text × HostTree)) (entries : List HostEntry) : Prop :=
  (children.filter (·.1 = "host".toList)).map (·.2.read) = entries.map .ok

/-- A node for which addresses are added: a host with a value of the counter. -/
structure Placement where
  entry : HostEntry
  index : ℕ

namespace Placement

def commandAddress (placement : Placement) : Text :=
  address placement.entry.nodeAddress (placement.entry.firstCommandPort.toInt + placement.index)

def dataAddress (placement : Placement) : Text :=
  address placement.entry.nodeAddress (placement.entry.firstDataPort.toInt + placement.index)

/-- Both ports of the node are `int`s. -/
def PortsFit (placement : Placement) : Prop :=
  placement.entry.firstCommandPort.toInt + placement.index ≤ Int32.maxValue.toInt ∧
    placement.entry.firstDataPort.toInt + placement.index ≤ Int32.maxValue.toInt

instance (placement : Placement) : Decidable placement.PortsFit :=
  inferInstanceAs (Decidable (_ ∧ _))

end Placement

/-- The number of nodes of a host up to the limit, if there is one. -/
def HostEntry.nodeCount (hostLimit : Int32) (entry : HostEntry) : ℕ :=
  if 0 < hostLimit.toInt then min entry.numberOfNodes.toInt.toNat hostLimit.toInt.toNat
  else entry.numberOfNodes.toInt.toNat

/-- The nodes of a host from a value of the counter on. -/
def HostEntry.placementsFrom (hostLimit : Int32) (entry : HostEntry) (i : ℕ) : List Placement :=
  (List.range' i (entry.nodeCount hostLimit - i)).map (⟨entry, ·⟩)

/-- The nodes of all hosts, in order. -/
def placements (hostLimit : Int32) (entries : List HostEntry) : List Placement :=
  entries.flatMap (·.placementsFrom hostLimit 0)

/-- The configuration with the addresses of some nodes added to it. -/
def Configuration.extend (config : Configuration) (nodes : List Placement) : Configuration :=
  { config with
    commandHosts := config.commandHosts ++ nodes.map Placement.commandAddress
    dataHosts := config.dataHosts ++ nodes.map Placement.dataAddress }

theorem Configuration.length_commandHosts_extend (config : Configuration)
    (nodes : List Placement) :
    (config.extend nodes).commandHosts.length = config.commandHosts.length + nodes.length := by
  simp [extend]

theorem Configuration.extend_nil (config : Configuration) : config.extend [] = config := by
  simp [extend]

theorem Configuration.extend_append (config : Configuration) (first second : List Placement) :
    config.extend (first ++ second) = (config.extend first).extend second := by
  simp [extend]

theorem Configuration.extend_cons (config : Configuration) (first : Placement)
    (others : List Placement) :
    config.extend (first :: others) = (config.extend [first]).extend others :=
  config.extend_append [first] others

theorem placementsFrom_of_lt {hostLimit : Int32} {entry : HostEntry} {i : ℕ}
    (inside : i < entry.nodeCount hostLimit) :
    entry.placementsFrom hostLimit i = ⟨entry, i⟩ :: entry.placementsFrom hostLimit (i + 1) := by
  have remaining : entry.nodeCount hostLimit - i = entry.nodeCount hostLimit - (i + 1) + 1 := by
    omega
  rw [HostEntry.placementsFrom, remaining, List.range'_succ]
  rfl

theorem placementsFrom_of_le {hostLimit : Int32} {entry : HostEntry} {i : ℕ}
    (ended : entry.nodeCount hostLimit ≤ i) : entry.placementsFrom hostLimit i = [] := by
  simp [HostEntry.placementsFrom, Nat.sub_eq_zero_of_le ended]

theorem lt_nodeCount_iff {hostLimit : Int32} {entry : HostEntry} {i : ℕ} :
    i < entry.nodeCount hostLimit ↔ i < entry.numberOfNodes.toInt ∧
      ¬(0 < hostLimit.toInt ∧ hostLimit.toInt ≤ i) := by
  rw [HostEntry.nodeCount]
  split
  · omega
  · omega

theorem Placement.portsFit_of_checked {entry : HostEntry} {i : ℕ} {commandPort dataPort : Int32}
    (commandFits : checked (entry.firstCommandPort.toInt + i) = some commandPort)
    (dataFits : checked (entry.firstDataPort.toInt + i) = some dataPort) :
    PortsFit ⟨entry, i⟩ := by
  have commandValue := toInt_of_checked commandFits
  have dataValue := toInt_of_checked dataFits
  constructor
  · exact commandValue.symm.trans_le commandPort.toInt_le
  · exact dataValue.symm.trans_le dataPort.toInt_le

theorem Placement.PortsFit.exists_checked {placement : Placement} (fits : placement.PortsFit) :
    ∃ commandPort dataPort,
      checked (placement.entry.firstCommandPort.toInt + placement.index) = some commandPort ∧
        checked (placement.entry.firstDataPort.toInt + placement.index) = some dataPort := by
  have lowestCommand := placement.entry.firstCommandPort.minValue_le_toInt
  have lowestData := placement.entry.firstDataPort.minValue_le_toInt
  rcases CheckedInts.exists_checked (by omega) fits.1 with ⟨commandPort, commandEq, _⟩
  rcases CheckedInts.exists_checked (by omega) fits.2 with ⟨dataPort, dataEq, _⟩
  exact ⟨commandPort, dataPort, commandEq, dataEq⟩

/-- The loop adds the addresses of the nodes that remain, if all their ports are `int`s. -/
theorem addNodes_eq_ok_iff (entry : HostEntry) (i : ℕ) (config result : Configuration) :
    addNodes entry i config = .ok result ↔
      (∀ placement ∈ entry.placementsFrom config.hostLimit i, placement.PortsFit) ∧
        result = config.extend (entry.placementsFrom config.hostLimit i) := by
  induction i, config using addNodes.induct entry with
  | case1 i config inside limited =>
      have ended : entry.nodeCount config.hostLimit ≤ i := by
        by_contra counting
        exact (lt_nodeCount_iff.mp (not_le.mp counting)).2 limited
      rw [addNodes, if_pos inside, if_pos limited, placementsFrom_of_le ended,
        Configuration.extend_nil]
      simp [eq_comm]
  | case2 i config inside notLimited commandPort dataPort dataFits commandFits ih =>
      have counting := lt_nodeCount_iff.mpr ⟨inside, notLimited⟩
      have fits := Placement.portsFit_of_checked commandFits dataFits
      have extended : config.extend [⟨entry, i⟩] = { config with
          commandHosts := config.commandHosts ++ [address entry.nodeAddress commandPort.toInt]
          dataHosts := config.dataHosts ++ [address entry.nodeAddress dataPort.toInt] } := by
        rw [toInt_of_checked commandFits, toInt_of_checked dataFits]
        rfl
      rw [addNodes, if_pos inside, if_neg notLimited]
      simp only [commandFits, dataFits]
      rw [ih, ← extended, placementsFrom_of_lt counting, List.forall_mem_cons,
        and_iff_right fits, Configuration.extend_cons config ⟨entry, i⟩
          (entry.placementsFrom config.hostLimit (i + 1))]
      rfl
  | case3 i config inside notLimited overflow =>
      have counting := lt_nodeCount_iff.mpr ⟨inside, notLimited⟩
      rw [addNodes, if_pos inside, if_neg notLimited]
      split
      · rename_i commandPort dataPort commandFits dataFits
        exact absurd dataFits (overflow commandPort dataPort commandFits)
      · constructor
        · simp
        · rintro ⟨allFit, _⟩
          rw [placementsFrom_of_lt counting] at allFit
          rcases (allFit _ List.mem_cons_self).exists_checked with
            ⟨commandPort, dataPort, commandFits, dataFits⟩
          exact absurd dataFits (overflow commandPort dataPort commandFits)
  | case4 i config outside =>
      have ended : entry.nodeCount config.hostLimit ≤ i := by
        by_contra counting
        exact outside (lt_nodeCount_iff.mp (not_le.mp counting)).1
      rw [addNodes, if_neg outside, placementsFrom_of_le ended, Configuration.extend_nil]
      simp [eq_comm]

theorem hostLimit_extend (config : Configuration) (nodes : List Placement) :
    (config.extend nodes).hostLimit = config.hostLimit := rfl

theorem parseHosts_of_host {name : Text} {tree : HostTree} {entry : HostEntry}
    (isHost : name = "host".toList) (readEq : tree.read = .ok entry)
    (rest : List (Text × HostTree)) (config : Configuration) :
    parseHosts ((name, tree) :: rest) config = addNodes entry 0 config >>= parseHosts rest := by
  rw [parseHosts, if_pos isHost, readEq]
  rfl

/-- All elements together add the addresses of all nodes, if all their ports are `int`s. -/
theorem parseHosts_eq_ok_iff {children : List (Text × HostTree)} {entries : List HostEntry}
    (parsed : ParsedAs children entries) (config result : Configuration) :
    parseHosts children config = .ok result ↔
      (∀ placement ∈ placements config.hostLimit entries, placement.PortsFit) ∧
        result = config.extend (placements config.hostLimit entries) := by
  induction children generalizing entries config with
  | nil =>
      have noEntries : entries = [] := by simpa [ParsedAs] using parsed
      subst noEntries
      rw [parseHosts, placements, List.flatMap_nil, Configuration.extend_nil]
      simp [eq_comm]
  | cons child rest ih =>
      rcases child with ⟨name, tree⟩
      by_cases isHost : name = "host".toList
      · rw [ParsedAs, List.filter_cons_of_pos (by simpa using isHost)] at parsed
        cases entries with
        | nil => simp at parsed
        | cons entry others =>
            rw [List.map_cons, List.map_cons, List.cons.injEq] at parsed
            rcases parsed with ⟨readEq, othersParsed⟩
            have split : placements config.hostLimit (entry :: others) =
                entry.placementsFrom config.hostLimit 0 ++ placements config.hostLimit others :=
              List.flatMap_cons
            have here := addNodes_eq_ok_iff entry 0 config
            rw [parseHosts_of_host isHost readEq, split, Configuration.extend_append,
              List.forall_mem_append]
            cases added : addNodes entry 0 config with
            | error failure =>
                constructor
                · intro succeeded
                  simp [bind, Except.bind] at succeeded
                · rintro ⟨⟨fits, _⟩, _⟩
                  have succeeded := (here _).mpr ⟨fits, rfl⟩
                  simp [added] at succeeded
            | ok extended =>
                rcases (here extended).mp added with ⟨fits, extendedEq⟩
                have later := ih othersParsed extended
                rw [extendedEq, hostLimit_extend] at later
                rw [and_iff_right fits, ← later, ← extendedEq]
                rfl
      · rw [ParsedAs, List.filter_cons_of_neg (by simpa using isHost)] at parsed
        rw [parseHosts, if_neg isHost]
        exact ih parsed config

theorem parseControllerXML_eq_ok_iff {children : List (Text × HostTree)}
    {entries : List HostEntry} (parsed : ParsedAs children entries)
    (config result : Configuration) :
    parseControllerXML (some children) config = .ok result ↔
      (∀ placement ∈ placements config.hostLimit entries, placement.PortsFit) ∧
        result = config.extend (placements config.hostLimit entries) :=
  parseHosts_eq_ok_iff parsed config result

theorem portsFit_placements_iff {hostLimit : Int32} {entries : List HostEntry} :
    (∀ placement ∈ placements hostLimit entries, placement.PortsFit) ↔
      ∀ entry ∈ entries, ∀ i < entry.nodeCount hostLimit, Placement.PortsFit ⟨entry, i⟩ := by
  constructor
  · intro fits entry mem i inside
    apply fits
    refine List.mem_flatMap.mpr ⟨entry, mem, List.mem_map.mpr ⟨i, ?_, rfl⟩⟩
    simpa using inside
  · intro fits placement mem
    rcases List.mem_flatMap.mp mem with ⟨entry, entryMem, placementMem⟩
    rcases List.mem_map.mp placementMem with ⟨i, inside, rfl⟩
    exact fits entry entryMem i (by simpa using inside)

/-- The tree of a host element in which everything is found. -/
def HostEntry.tree (entry : HostEntry) : HostTree :=
  ⟨some entry.firstCommandPort, some entry.firstDataPort, some entry.numberOfNodes,
    some entry.nodeAddress⟩

def hostElements (entries : List HostEntry) : List (Text × HostTree) :=
  entries.map fun entry => ("host".toList, entry.tree)

theorem parsedAs_hostElements (entries : List HostEntry) :
    ParsedAs (hostElements entries) entries := by
  induction entries with
  | nil => rfl
  | cons entry rest ih => exact congrArg (.ok entry :: ·) ih

def localHost (numberOfNodes : Int32) : HostEntry :=
  ⟨3000, 4000, numberOfNodes, "127.0.0.1".toList⟩

end KeyValueClusterPerf
