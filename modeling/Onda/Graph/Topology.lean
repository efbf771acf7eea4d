import Onda.Graph.Plan
import Onda.Lib.CyclePath

/-!
# The schedule of a graph

The nodes that the outputs of a graph depend on, their order, and the cycles that are refused.
The order and the search for a cycle count the same arcs: the dependencies of sample-rate edges
without delay, except those of a node on itself.  A node that reads itself reads what it put
out in the sample before.
-/

namespace Onda.Graph

/-- What scheduling reads of a `ResolvedGraphSourcePlan`. -/
structure ResolvedSource (N : Type) where
  rate : GraphRate
  delay : Option Nat
  deps : List N

/-- The source plans and the edges of a graph. -/
structure ResolvedGraph (N : Type) where
  count : Nat
  sourcePlan : Fin count → ResolvedSource N
  edges : List (Fin count × GraphDest N)

/-- What is said about a cycle: a path around it, or the nodes that are left over. -/
inductive CycleReport (N : Type) where
  | path (nodes : List N)
  | involving (nodes : List N)

namespace ResolvedGraph

variable {N : Type} [LinearOrder N] (graph : ResolvedGraph N)

/-- The dependencies of an edge. -/
def deps (edge : Fin graph.count × GraphDest N) : List N := (graph.sourcePlan edge.1).deps

/-- The dependencies of the edges into a node. -/
def incomingDeps (node : N) : List N :=
  (graph.edges.filter fun edge => edge.2.node? = some node).flatMap graph.deps

/-- The dependencies of the graph outputs. -/
def outputDeps : List N :=
  (graph.edges.filter fun edge => edge.2.node? = none).flatMap graph.deps

theorem incomingDeps_subset (node : N) :
    ∀ dep ∈ graph.incomingDeps node, dep ∈ graph.edges.flatMap graph.deps := by
  intro dep mem
  obtain ⟨edge, kept, here⟩ := List.mem_flatMap.mp mem
  exact List.mem_flatMap.mpr ⟨edge, (List.mem_filter.mp kept).1, here⟩

/-- `reachable_nodes_from_outputs`, in the order of the nodes. -/
def reachableNodes : List N :=
  (Reach.closure graph.incomingDeps (graph.edges.flatMap graph.deps) graph.incomingDeps_subset
    graph.outputDeps).insertionSort (· ≤ ·)

def isReachable (node : N) : Bool := graph.reachableNodes.contains node

theorem isReachable_iff {node : N} :
    graph.isReachable node = true ↔ node ∈ graph.reachableNodes :=
  List.contains_iff_mem

/-- The arcs of `topo_sort_nodes`: from the dependencies of an edge to its node. -/
def edgeArcs (edge : Fin graph.count × GraphDest N) : List (N × N) :=
  if 0 < ((graph.sourcePlan edge.1).delay).getD 0 ∨ (graph.sourcePlan edge.1).rate ≠ .sample then []
  else
    match edge.2.node? with
    | none => []
    | some dest =>
      if graph.isReachable dest then
        ((graph.deps edge).filter fun dep => graph.isReachable dep ∧ dep ≠ dest).map fun dep => (dep, dest)
      else []

/-- `outgoing`, as its arcs. -/
def arcs : List (N × N) := (graph.edges.flatMap graph.edgeArcs).dedup

/-- The nodes that a node has arcs to, in the order of the nodes. -/
def outgoing (node : N) : List N := (Kahn.successors graph.arcs node).insertionSort (· ≤ ·)

/-- The nodes with open arcs when no node is ready. -/
def cycleNodes : List N :=
  graph.reachableNodes.filter fun node => 0 < (Kahn.final graph.reachableNodes graph.arcs).pending node

/-- `find_graph_cycle_path`. -/
def findGraphCyclePath : Option (List N) := (CyclePath.find graph.outgoing graph.cycleNodes).join

/-- The error of `topo_sort_nodes`. -/
def cycleReport : Option (CycleReport N) :=
  if (Kahn.sort graph.reachableNodes graph.arcs).length ≠ graph.reachableNodes.length
      ∧ graph.reachableNodes ≠ [] then
    if graph.cycleNodes ≠ [] then
      match graph.findGraphCyclePath with
      | some path => some (.path path)
      | none => some (.involving graph.cycleNodes)
    else none
  else none

/-- The order of `topo_sort_nodes`: nodes that are left over come last. -/
def topoSortNodes : List N :=
  Kahn.sort graph.reachableNodes graph.arcs
    ++ graph.reachableNodes.filter fun node =>
      !(Kahn.sort graph.reachableNodes graph.arcs).contains node

/-! ### The relations -/

/-- The nodes that an output is reached from, backwards along edges. -/
inductive FeedsOutput : N → Prop
  | output {edge : Fin graph.count × GraphDest N} {node : N} (mem : edge ∈ graph.edges)
      (top : edge.2.node? = none) (dep : node ∈ graph.deps edge) : FeedsOutput node
  | through {edge : Fin graph.count × GraphDest N} {node next : N} (mem : edge ∈ graph.edges)
      (into : edge.2.node? = some next) (feeds : FeedsOutput next) (dep : node ∈ graph.deps edge) :
      FeedsOutput node

/-- An undelayed sample-rate dependency between reachable nodes. -/
def Depends (dep dest : N) : Prop :=
  dep ∈ graph.reachableNodes ∧ dest ∈ graph.reachableNodes ∧ ∃ edge ∈ graph.edges,
    ((graph.sourcePlan edge.1).delay).getD 0 = 0 ∧ (graph.sourcePlan edge.1).rate = .sample
      ∧ edge.2.node? = some dest ∧ dep ∈ graph.deps edge

/-- A dependency on another node. -/
def DependsOnOther (dep dest : N) : Prop := graph.Depends dep dest ∧ dep ≠ dest

/-! ### Reachable nodes -/

theorem mem_reachableNodes {node : N} : node ∈ graph.reachableNodes ↔ graph.FeedsOutput node := by
  rw [reachableNodes, (List.perm_insertionSort _ _).mem_iff, Reach.mem_closure]
  constructor
  · intro reaches
    induction reaches with
    | root mem =>
      obtain ⟨edge, kept, dep⟩ := List.mem_flatMap.mp mem
      obtain ⟨inside, top⟩ := List.mem_filter.mp kept
      exact .output inside (of_decide_eq_true top) dep
    | next _ mem ih =>
      obtain ⟨edge, kept, dep⟩ := List.mem_flatMap.mp mem
      obtain ⟨inside, into⟩ := List.mem_filter.mp kept
      exact .through inside (of_decide_eq_true into) ih dep
  · intro feeds
    induction feeds with
    | output mem top dep =>
      exact .root (List.mem_flatMap.mpr ⟨_, List.mem_filter.mpr ⟨mem, decide_eq_true top⟩, dep⟩)
    | through mem into _ dep ih =>
      exact .next ih (List.mem_flatMap.mpr ⟨_, List.mem_filter.mpr ⟨mem, decide_eq_true into⟩, dep⟩)

theorem nodup_reachableNodes : graph.reachableNodes.Nodup := by
  rw [reachableNodes, (List.perm_insertionSort _ _).nodup_iff]
  exact (Reach.closure_covers graph.incomingDeps_subset graph.outputDeps).distinct

/-! ### Arcs -/

theorem mem_arcs {dep dest : N} : (dep, dest) ∈ graph.arcs ↔ graph.DependsOnOther dep dest := by
  rw [arcs, List.mem_dedup, List.mem_flatMap]
  constructor
  · rintro ⟨edge, mem, arc⟩
    rw [edgeArcs] at arc
    split at arc
    case isTrue => cases arc
    case isFalse undelayed =>
      rw [not_or, Nat.not_lt, Nat.le_zero, not_not] at undelayed
      split at arc
      case h_1 => cases arc
      case h_2 node into =>
        split at arc
        case isFalse => cases arc
        case isTrue reachable =>
          obtain ⟨other, kept, same⟩ := List.mem_map.mp arc
          obtain ⟨rfl, rfl⟩ := Prod.mk.inj same
          obtain ⟨inside, test⟩ := List.mem_filter.mp kept
          obtain ⟨depReachable, apart⟩ := of_decide_eq_true test
          exact ⟨⟨graph.isReachable_iff.mp depReachable, graph.isReachable_iff.mp reachable, edge, mem,
            undelayed.1, undelayed.2, into, inside⟩, apart⟩
  · rintro ⟨⟨depReachable, reachable, edge, mem, undelayed, rate, into, inside⟩, apart⟩
    refine ⟨edge, mem, ?_⟩
    rw [edgeArcs, if_neg (by simp [undelayed, rate]), into]
    dsimp only
    rw [if_pos (graph.isReachable_iff.mpr reachable)]
    exact List.mem_map.mpr ⟨dep, List.mem_filter.mpr
      ⟨inside, decide_eq_true ⟨graph.isReachable_iff.mpr depReachable, apart⟩⟩, rfl⟩

theorem nodup_arcs : graph.arcs.Nodup := List.nodup_dedup _

theorem arcs_targets : ∀ arc ∈ graph.arcs, arc.2 ∈ graph.reachableNodes :=
  fun _ mem => (graph.mem_arcs.mp mem).1.2.1

theorem arcs_sources : ∀ arc ∈ graph.arcs, arc.1 ∈ graph.reachableNodes :=
  fun _ mem => (graph.mem_arcs.mp mem).1.1

theorem mem_outgoing {node other : N} :
    other ∈ graph.outgoing node ↔ graph.DependsOnOther node other := by
  rw [outgoing, (List.perm_insertionSort _ _).mem_iff, Kahn.mem_successors, mem_arcs]

/-! ### Order -/

theorem topoSortNodes_perm : graph.topoSortNodes.Perm graph.reachableNodes := by
  have listed := Kahn.sort_subperm graph.nodup_reachableNodes graph.nodup_arcs graph.arcs_targets
  have once := (Kahn.final_sound graph.nodup_reachableNodes graph.nodup_arcs graph.arcs_targets).distinct
  refine (List.perm_ext_iff_of_nodup ?_ graph.nodup_reachableNodes).mpr fun node => ?_
  · refine List.nodup_append.mpr ⟨(List.nodup_append.mp once).1, graph.nodup_reachableNodes.filter _, ?_⟩
    rintro first memFirst second memSecond rfl
    have unlisted := (List.mem_filter.mp memSecond).2
    rw [List.contains_iff_mem.mpr memFirst] at unlisted
    cases unlisted
  · rw [topoSortNodes, List.mem_append, List.mem_filter]
    constructor
    · rintro (mem | kept)
      · exact listed.subset mem
      · exact kept.1
    · intro mem
      by_cases known : node ∈ Kahn.sort graph.reachableNodes graph.arcs
      · exact .inl known
      · exact .inr ⟨mem, by simpa using known⟩

/-- Nodes are left over exactly on a cycle. -/
theorem incomplete_iff :
    (Kahn.sort graph.reachableNodes graph.arcs).length ≠ graph.reachableNodes.length
      ↔ ∃ node, Relation.TransGen graph.DependsOnOther node node := by
  have same : Kahn.Arc graph.arcs = graph.DependsOnOther := by
    funext dep dest
    exact propext graph.mem_arcs
  rw [← same]
  exact Kahn.incomplete_iff graph.nodup_reachableNodes graph.nodup_arcs graph.arcs_targets
    graph.arcs_sources

/-! ### Cycles -/

theorem mem_cycleNodes {node : N} : node ∈ graph.cycleNodes ↔
    node ∈ graph.reachableNodes ∧ node ∉ Kahn.sort graph.reachableNodes graph.arcs := by
  rw [cycleNodes, List.mem_filter]
  refine and_congr_right fun mem => ?_
  rw [decide_eq_true_eq]
  constructor
  · intro waits listed
    rw [Kahn.pending_listed graph.nodup_reachableNodes graph.nodup_arcs graph.arcs_targets listed]
      at waits
    exact absurd waits (Nat.lt_irrefl _)
  · exact fun unlisted => (Kahn.exists_open graph.nodup_reachableNodes graph.nodup_arcs
      graph.arcs_targets mem unlisted).1

theorem cycleNodes_follow : ∀ node ∈ graph.cycleNodes, ∃ before ∈ graph.cycleNodes,
    CyclePath.Arc graph.outgoing graph.cycleNodes before node := by
  intro node waits
  obtain ⟨mem, unlisted⟩ := graph.mem_cycleNodes.mp waits
  obtain ⟨-, before, arc, left⟩ := Kahn.exists_open graph.nodup_reachableNodes graph.nodup_arcs
    graph.arcs_targets mem unlisted
  have depends := graph.mem_arcs.mp arc
  exact ⟨before, graph.mem_cycleNodes.mpr ⟨depends.1.1, left⟩, graph.mem_outgoing.mpr depends, waits⟩

/-- Where nodes are left over, the search finds a cycle among them. -/
theorem findGraphCyclePath_spec (some : graph.cycleNodes ≠ []) :
    ∃ path, graph.findGraphCyclePath = .some path ∧ CyclePath.Closed graph.DependsOnOther path := by
  obtain ⟨found, run, closes, ends⟩ := CyclePath.find_spec graph.outgoing graph.cycleNodes
  cases found with
  | some path =>
    refine ⟨path, by rw [findGraphCyclePath, run]; rfl, ?_⟩
    obtain ⟨length, around, chain⟩ := closes path rfl
    exact ⟨length, around, chain.imp fun _ _ arc => graph.mem_outgoing.mp arc.1⟩
  | none =>
    obtain ⟨node, mem, cycle⟩ := Kahn.exists_cycle some graph.cycleNodes_follow
    exact absurd cycle (CyclePath.not_cycle_of_acc (ends rfl node mem))

theorem cycleReport_eq :
    (∃ node, Relation.TransGen graph.DependsOnOther node node)
        ∧ (∃ path, graph.cycleReport = some (.path path)
          ∧ CyclePath.Closed graph.DependsOnOther path)
      ∨ (¬∃ node, Relation.TransGen graph.DependsOnOther node node) ∧ graph.cycleReport = none := by
  rw [cycleReport]
  by_cases left : (Kahn.sort graph.reachableNodes graph.arcs).length ≠ graph.reachableNodes.length
  · have cycle := graph.incomplete_iff.mp left
    have waits : graph.cycleNodes ≠ [] := by
      intro none
      refine left (le_antisymm (Kahn.sort_subperm graph.nodup_reachableNodes graph.nodup_arcs
        graph.arcs_targets).length_le
        (List.subperm_of_subset graph.nodup_reachableNodes fun node mem => ?_).length_le)
      by_contra unlisted
      have : node ∈ graph.cycleNodes := graph.mem_cycleNodes.mpr ⟨mem, unlisted⟩
      rw [none] at this
      cases this
    obtain ⟨path, found, closed⟩ := graph.findGraphCyclePath_spec waits
    have some : graph.reachableNodes ≠ [] := by
      rintro none
      exact waits (by rw [cycleNodes, none]; rfl)
    rw [if_pos ⟨left, some⟩, if_pos waits, found]
    exact .inl ⟨cycle, path, rfl, closed⟩
  · rw [if_neg fun both => left both.1]
    exact .inr ⟨fun cycle => left (graph.incomplete_iff.mpr cycle), rfl⟩

/-- The nodes are those that feed an output, each is listed once and behind the nodes that it
depends on, and a cycle is reported, by a path around it, exactly when there is one. -/
theorem schedule_exact :
    (∀ node, node ∈ graph.reachableNodes ↔ graph.FeedsOutput node) ∧ graph.reachableNodes.Nodup
      ∧ graph.topoSortNodes.Perm graph.reachableNodes
      ∧ (graph.cycleReport.isSome ↔ ∃ node, Relation.TransGen graph.DependsOnOther node node)
      ∧ (∀ report, graph.cycleReport = some report →
        ∃ path, report = .path path ∧ CyclePath.Closed graph.DependsOnOther path)
      ∧ (graph.cycleReport = none → ∀ dep dest, graph.DependsOnOther dep dest →
        graph.topoSortNodes.idxOf dep < graph.topoSortNodes.idxOf dest) := by
  refine ⟨fun _ => graph.mem_reachableNodes, graph.nodup_reachableNodes, graph.topoSortNodes_perm, ?_⟩
  rcases graph.cycleReport_eq with ⟨cycle, path, reported, closed⟩ | ⟨acyclic, silent⟩
  · rw [reported]
    refine ⟨by simpa using cycle, ?_, by simp⟩
    rintro report same
    exact ⟨path, (Option.some.inj same).symm, closed⟩
  · rw [silent]
    refine ⟨by simpa using acyclic, by simp, fun _ dep dest depends => ?_⟩
    have complete := not_not.mp fun left => acyclic (graph.incomplete_iff.mp left)
    obtain ⟨perm, ordered⟩ := Kahn.sort_ordered graph.nodup_reachableNodes graph.nodup_arcs
      graph.arcs_targets complete
    have whole : graph.topoSortNodes = Kahn.sort graph.reachableNodes graph.arcs := by
      rw [topoSortNodes, List.filter_eq_nil_iff.mpr, List.append_nil]
      intro node mem
      simpa using perm.mem_iff.mpr mem
    rw [whole]
    exact ordered.idxOf_lt (graph.mem_arcs.mpr depends) (perm.mem_iff.mpr depends.1.2.1) (by simp)

end ResolvedGraph

/-! ### Plans -/

namespace GraphPlan

variable {N O B I V : Type} [LinearOrder N] (graph : GraphPlan N O B I V)

end GraphPlan

/-- An oscillator that modulates itself without delay. -/
def selfModulation : ResolvedGraph Nat where
  count := 1
  sourcePlan _ := ⟨.sample, none, [0]⟩
  edges := [(0, .procParam 0 "freq" false), (0, .topOutput "out1")]

/-- The oscillator depends on itself, and no cycle is reported. -/
theorem selfModulation_unreported :
    selfModulation.Depends 0 0 ∧ selfModulation.cycleReport = none := by
  have top : (⟨⟨0, Nat.one_pos⟩, .topOutput "out1"⟩ : Fin selfModulation.count × GraphDest Nat)
      ∈ selfModulation.edges := List.mem_cons_of_mem _ List.mem_cons_self
  have feeds : 0 ∈ selfModulation.reachableNodes :=
    selfModulation.mem_reachableNodes.mpr (.output top rfl List.mem_cons_self)
  refine ⟨⟨feeds, feeds, (⟨0, Nat.one_pos⟩, .procParam 0 "freq" false), List.mem_cons_self, rfl, rfl,
    rfl, List.mem_cons_self⟩, ?_⟩
  rcases selfModulation.cycleReport_eq with ⟨⟨node, cycle⟩, -⟩ | ⟨-, silent⟩
  · -- the graph has one node, so no node depends on another one
    have apart : ∀ dep dest, ¬selfModulation.DependsOnOther dep dest := by
      rintro dep dest ⟨⟨-, -, edge, mem, -, -, into, inside⟩, apart⟩
      have here : dep = 0 := by simpa [ResolvedGraph.deps, selfModulation] using inside
      have there : dest = 0 := by
        rcases List.mem_cons.mp mem with rfl | mem
        · exact (Option.some.inj into).symm
        · rw [List.mem_singleton.mp mem] at into
          cases into
      exact apart (here.trans there.symm)
    cases cycle with
    | single arc => exact absurd arc (apart _ _)
    | tail _ arc => exact absurd arc (apart _ _)
  · exact silent

end Onda.Graph
