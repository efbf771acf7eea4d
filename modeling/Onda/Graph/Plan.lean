import Mathlib
import Onda.Lib.Kahn
import Onda.Lib.Reach

/-!
# Graphs of processors

The plan of a graph: its sources, with rate, delay and the nodes whose outputs they read, and its
edges.  Source expressions are shallow: a source is its value, given the outputs of nodes, the
fields of nodes and what the owner reads; a scalar and an array are values alike.
-/

namespace Onda.Graph

/-- `GraphRate`. -/
inductive GraphRate where
  | block
  | sample
deriving DecidableEq

/-- The storage that an edge can drive: an input or a parameter of a node. -/
inductive Field (N : Type) where
  | input (node : N) (port : String)
  | param (node : N) (param : String)
deriving DecidableEq

/-- `GraphDestKind`, with the shape of the destination. -/
inductive GraphDest (N : Type) where
  | topOutput (name : String)
  | procInput (node : N) (port : String) (array : Bool)
  | procParam (node : N) (param : String) (array : Bool)
deriving DecidableEq

/-- The key of a destination: no two edges drive one. -/
def GraphDest.key {N : Type} : GraphDest N → String ⊕ Field N
  | topOutput name => .inl name
  | procInput node port _ => .inr (.input node port)
  | procParam node param _ => .inr (.param node param)

def GraphDest.node? {N : Type} : GraphDest N → Option N
  | topOutput _ => none
  | procInput node _ _ | procParam node _ _ => some node

/-- `ResolvedGraphSourcePlan`.  `N` are the nodes, `O` what a node puts out, `B` and `I` what the
owner reads in a block and in a sample. -/
structure SourcePlan (N O B I V : Type) where
  rate : GraphRate
  /-- 0 for an edge without delay. -/
  delay : Nat
  deps : List N
  /-- The node parameters and inputs that the source reads. -/
  fieldReads : List (Field N)
  /-- `original_source`. -/
  value : (N → O) → (Field N → V) → B → I → V
  reads : ∀ {outs outs' fields fields'} block input, (∀ node ∈ deps, outs node = outs' node) →
    (∀ field ∈ fieldReads, fields field = fields' field) →
      value outs fields block input = value outs' fields' block input
  /-- `shared_tmp`: the destinations of one edge read a temporary. -/
  sharedTmp : Bool
  /-- A delay line is not shared through a temporary. -/
  shared : sharedTmp = true → delay = 0
  /-- A block-rate source reads no node, is not delayed and does not change in a block. -/
  blockRate : rate = .block → delay = 0 ∧ deps = [] ∧ fieldReads = [] ∧
    ∀ outs fields block input input', value outs fields block input = value outs fields block input'

/-- `GraphLoweringPlan`. -/
structure GraphPlan (N O B I V : Type) where
  count : Nat
  sourcePlan : Fin count → SourcePlan N O B I V
  edges : List (Fin count × GraphDest N)

namespace GraphPlan

variable {N O B I V : Type} [LinearOrder N] (graph : GraphPlan N O B I V)

/-- The dependencies of the edges into a node. -/
def incomingDeps (node : N) : List N :=
  (graph.edges.filter fun edge => edge.2.node? = some node).flatMap
    fun edge => (graph.sourcePlan edge.1).deps

/-- The dependencies of the graph outputs. -/
def outputDeps : List N :=
  (graph.edges.filter fun edge => edge.2.node? = none).flatMap
    fun edge => (graph.sourcePlan edge.1).deps

def allDeps : List N := graph.edges.flatMap fun edge => (graph.sourcePlan edge.1).deps

theorem incomingDeps_subset (node : N) : ∀ dep ∈ graph.incomingDeps node, dep ∈ graph.allDeps := by
  intro dep mem
  obtain ⟨edge, kept, here⟩ := List.mem_flatMap.mp mem
  exact List.mem_flatMap.mpr ⟨edge, (List.mem_filter.mp kept).1, here⟩

/-- `reachable_nodes_from_outputs`. -/
def reachableNodes : List N :=
  Reach.closure graph.incomingDeps graph.allDeps graph.incomingDeps_subset graph.outputDeps

def isReachable (node : N) : Bool := graph.reachableNodes.contains node

theorem isReachable_iff {node : N} :
    graph.isReachable node = true ↔ node ∈ graph.reachableNodes :=
  List.contains_iff_mem

/-- The arcs that `topo_sort_nodes` counts. -/
def arcs : List (N × N) :=
  (graph.edges.flatMap fun edge =>
    if 0 < (graph.sourcePlan edge.1).delay ∨ (graph.sourcePlan edge.1).rate ≠ .sample then []
    else
      match edge.2.node? with
      | none => []
      | some dest =>
        if graph.isReachable dest then
          ((graph.sourcePlan edge.1).deps.filter fun dep =>
            graph.isReachable dep ∧ dep ≠ dest).map fun dep => (dep, dest)
        else []).dedup

/-- `topo_sort_nodes`. -/
def topoSortNodes : List N := Kahn.sort graph.reachableNodes graph.arcs

/-- An edge that ends in a reachable node or in a graph output. -/
def Live (edge : Fin graph.count × GraphDest N) : Prop :=
  edge ∈ graph.edges ∧ ∀ node ∈ edge.2.node?, node ∈ graph.reachableNodes

/-- The checks of planning: one writer for each destination, and no cycle without delay. -/
structure Accepted : Prop where
  singleWriter : (graph.edges.map (·.2.key)).Nodup
  acyclic : graph.topoSortNodes.length = graph.reachableNodes.length

/-! ### Order -/

/-- A node runs when the graph outputs depend on it. -/
theorem mem_reachableNodes {node : N} :
    node ∈ graph.reachableNodes ↔ Reach.Reaches graph.incomingDeps graph.outputDeps node :=
  Reach.mem_closure graph.incomingDeps_subset

theorem nodup_reachableNodes : graph.reachableNodes.Nodup :=
  (Reach.closure_covers graph.incomingDeps_subset graph.outputDeps).distinct

variable {graph}

/-- The sources of live edges are reachable. -/
theorem Live.deps_reachable {edge : Fin graph.count × GraphDest N} (live : graph.Live edge) :
    ∀ dep ∈ (graph.sourcePlan edge.1).deps, dep ∈ graph.reachableNodes := by
  intro dep mem
  rw [mem_reachableNodes]
  rcases dest : edge.2.node? with _ | node
  · exact .root (List.mem_flatMap.mpr ⟨edge, List.mem_filter.mpr ⟨live.1, by simp [dest]⟩, mem⟩)
  · refine .next (graph.mem_reachableNodes.mp (live.2 node dest)) ?_
    exact List.mem_flatMap.mpr ⟨edge, List.mem_filter.mpr ⟨live.1, by simp [dest]⟩, mem⟩

/-- An undelayed sample-rate edge orders its sources before its node. -/
theorem Live.arc {edge : Fin graph.count × GraphDest N} (live : graph.Live edge) {node : N}
    (dest : edge.2.node? = some node) (undelayed : (graph.sourcePlan edge.1).delay = 0)
    (rate : (graph.sourcePlan edge.1).rate = .sample) {dep : N}
    (mem : dep ∈ (graph.sourcePlan edge.1).deps) (other : dep ≠ node) :
    (dep, node) ∈ graph.arcs := by
  refine List.mem_dedup.mpr (List.mem_flatMap.mpr ⟨edge, live.1, ?_⟩)
  rw [if_neg (by simp [undelayed, rate]), dest]
  dsimp only
  rw [if_pos (graph.isReachable_iff.mpr (live.2 node dest))]
  refine List.mem_map.mpr ⟨dep, List.mem_filter.mpr ⟨mem, ?_⟩, rfl⟩
  simp [isReachable_iff, live.deps_reachable dep mem, other]

theorem arcs_targets : ∀ arc ∈ graph.arcs, arc.2 ∈ graph.reachableNodes := by
  intro arc mem
  obtain ⟨edge, _, mem⟩ := List.mem_flatMap.mp (List.mem_dedup.mp mem)
  split at mem
  · cases mem
  · split at mem
    · cases mem
    · split at mem
      · rename_i reachable
        obtain ⟨dep, _, rfl⟩ := List.mem_map.mp mem
        exact graph.isReachable_iff.mp reachable
      · cases mem

/-- The order of an accepted graph. -/
theorem Accepted.order (accepted : graph.Accepted) :
    graph.topoSortNodes.Perm graph.reachableNodes ∧
      Kahn.Ordered graph.arcs [] graph.topoSortNodes :=
  Kahn.sort_ordered graph.nodup_reachableNodes (List.nodup_dedup _) arcs_targets accepted.acyclic

end GraphPlan

end Onda.Graph
