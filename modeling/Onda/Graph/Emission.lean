import Onda.Graph.Plan
import Onda.Lib.DelayLine

/-!
# Emission of graphs

`lower_graph` assembles the code of a block and of a sample from lists of statements.  Parameters
of array shape are written where their edge is met, before every node; all else is written before
its node.
-/

namespace Onda.Graph

/-- The statements of lowered graphs; a plan stands for its source expression. -/
inductive GraphStmt (k : Nat) (N : Type) where
  /-- A shared temporary gets the value of its source. -/
  | temp (plan : Fin k)
  /-- `assign_node_field_stmt` and `assign_node_array_field_stmts`. -/
  | assignField (field : Field N) (plan : Fin k)
  | call (node : N) (args : List (String × Fin k))
  | assignOutput (name : String) (plan : Fin k)
  /-- The write-back of a delay line. -/
  | push (plan : Fin k)

/-- One step of a node, as it ran. -/
structure Call (N V : Type) where
  node : N
  params : String → V
  args : List (String × V)

/-- The state of an owner, its nodes and the locals of its graph code. -/
structure Machine (k : Nat) (N O S V : Type) where
  outs : N → O
  states : N → S
  fields : Field N → V
  temps : Fin k → Option V
  lines : Fin k → DelayLine V
  outputs : String → V
  calls : List (Call N V)

/-- The step of each node: its parameters, its inputs and its state. -/
abbrev Behaviour (N O S V : Type) := N → (String → V) → List (String × V) → S → S × O

namespace Machine

variable {k : Nat} {N O S V : Type} [DecidableEq N]

/-- The parameters of a node. -/
def params (machine : Machine k N O S V) (node : N) (param : String) : V :=
  machine.fields (.param node param)

/-- An input keeps what it received last. -/
def receive (node : N) (args : List (String × V)) (fields : Field N → V) : Field N → V
  | .input other port =>
    if other = node then ((args.find? (·.1 = port)).map (·.2)).getD (fields (.input other port))
    else fields (.input other port)
  | .param other param => fields (.param other param)

/-- Runs a node with some arguments. -/
def step (behaviour : Behaviour N O S V) (node : N) (machine : Machine k N O S V)
    (args : List (String × V)) : Machine k N O S V :=
  { machine with
    states := Function.update machine.states node
      (behaviour node (machine.params node) args (machine.states node)).1
    outs := Function.update machine.outs node
      (behaviour node (machine.params node) args (machine.states node)).2
    fields := receive node args machine.fields
    calls := machine.calls ++ [⟨node, machine.params node, args⟩] }

end Machine

namespace GraphPlan

variable {N O S B I V : Type} [LinearOrder N] (graph : GraphPlan N O B I V)

/-! ### The lists -/

def sampleRate (plan : Fin graph.count) : Bool := (graph.sourcePlan plan).rate = .sample

/-- Sample-rate parameters of array shape, in the order of the edges. -/
def arrayParams : List (Field N × Fin graph.count) :=
  graph.edges.filterMap fun edge =>
    match edge.2 with
    | .procParam node param true =>
      if graph.sampleRate edge.1 ∧ graph.isReachable node then
        some (.param node param, edge.1)
      else none
    | .procParam _ _ false | .procInput _ _ _ | .topOutput _ => none

/-- `sample_param_edges`. -/
def scalarParams (node : N) : List (Field N × Fin graph.count) :=
  graph.edges.filterMap fun edge =>
    match edge.2 with
    | .procParam other param false =>
      if graph.sampleRate edge.1 ∧ other = node then some (.param node param, edge.1) else none
    | .procParam _ _ true | .procInput _ _ _ | .topOutput _ => none

/-- `sample_input_edges`. -/
def inputArgs (node : N) : List (String × Fin graph.count) :=
  graph.edges.filterMap fun edge =>
    match edge.2 with
    | .procInput other port _ =>
      if graph.sampleRate edge.1 ∧ other = node then some (port, edge.1) else none
    | .procParam _ _ _ | .topOutput _ => none

def blockParams : List (Field N × Fin graph.count) :=
  graph.edges.filterMap fun edge =>
    match edge.2 with
    | .procParam node param _ =>
      if graph.sampleRate edge.1 = false ∧ graph.isReachable node then
        some (.param node param, edge.1)
      else none
    | .procInput _ _ _ | .topOutput _ => none

def outputEdges : List (String × Fin graph.count) :=
  graph.edges.filterMap fun edge =>
    match edge.2 with
    | .topOutput name => some (name, edge.1)
    | .procParam _ _ _ | .procInput _ _ _ => none

def feeds (plan : Fin graph.count) (node : N) : Bool :=
  graph.edges.any fun edge => edge.1 = plan ∧ edge.2.node? = some node

/-- The use point of a temporary: the first node in order that reads it. -/
def usePoint (plan : Fin graph.count) : Option N := graph.topoSortNodes.find? (graph.feeds plan)

/-- `sample_temp_before_node`. -/
def tempsBefore (node : N) : List (Fin graph.count) :=
  (List.finRange graph.count).filter fun plan =>
    (graph.sourcePlan plan).sharedTmp ∧ graph.sampleRate plan ∧ graph.usePoint plan = some node

def tempsBeforeOutputs : List (Fin graph.count) :=
  (List.finRange graph.count).filter fun plan =>
    (graph.sourcePlan plan).sharedTmp ∧ graph.sampleRate plan ∧ graph.usePoint plan = none ∧
      graph.outputEdges.any (·.2 = plan)

def blockTemps : List (Fin graph.count) :=
  (List.finRange graph.count).filter fun plan =>
    (graph.sourcePlan plan).sharedTmp ∧ graph.sampleRate plan = false

def delayed : List (Fin graph.count) :=
  (List.finRange graph.count).filter fun plan => 0 < (graph.sourcePlan plan).delay

/-! ### The code -/

def blockPre : List (GraphStmt graph.count N) :=
  graph.blockTemps.map .temp ++ graph.blockParams.map fun edge => .assignField edge.1 edge.2

def nodeStmts (node : N) : List (GraphStmt graph.count N) :=
  (graph.tempsBefore node).map .temp ++
    (graph.scalarParams node).map (fun edge => .assignField edge.1 edge.2) ++
    [.call node (graph.inputArgs node)]

def sample : List (GraphStmt graph.count N) :=
  graph.arrayParams.map (fun edge => .assignField edge.1 edge.2) ++
    graph.topoSortNodes.flatMap graph.nodeStmts ++
    graph.tempsBeforeOutputs.map .temp ++
    graph.outputEdges.map (fun edge => .assignOutput edge.1 edge.2) ++
    graph.delayed.map .push

/-! ### Execution -/

section Execution

variable (behaviour : Behaviour N O S V) (block : B) (input : I)

/-- The value of the original source of a plan. -/
def sourceValue (machine : Machine graph.count N O S V) (plan : Fin graph.count) : V :=
  (graph.sourcePlan plan).value machine.outs machine.fields block input

/-- The source that a destination reads; a temporary may have no value. -/
def readSource (machine : Machine graph.count N O S V) (plan : Fin graph.count) : Option V :=
  if 0 < (graph.sourcePlan plan).delay then some (machine.lines plan).read
  else if (graph.sourcePlan plan).sharedTmp then machine.temps plan
  else some (graph.sourceValue block input machine plan)

def exec (machine : Machine graph.count N O S V) :
    GraphStmt graph.count N → Option (Machine graph.count N O S V)
  | .temp plan => some
    { machine with
      temps := Function.update machine.temps plan (some (graph.sourceValue block input machine plan)) }
  | .assignField field plan =>
    (graph.readSource block input machine plan).map fun value =>
      { machine with fields := Function.update machine.fields field value }
  | .call node args =>
    (args.mapM fun arg =>
      (graph.readSource block input machine arg.2).map fun value => (arg.1, value)).map
        (Machine.step behaviour node machine)
  | .assignOutput name plan =>
    (graph.readSource block input machine plan).map fun value =>
      { machine with outputs := Function.update machine.outputs name value }
  | .push plan => some
    { machine with
      lines := Function.update machine.lines plan
        ((machine.lines plan).push (graph.sourcePlan plan).delay
          (graph.sourceValue block input machine plan)) }

/-- Statements in order. -/
def execAll (stmts : List (GraphStmt graph.count N)) (machine : Machine graph.count N O S V) :
    Option (Machine graph.count N O S V) :=
  stmts.foldlM (graph.exec behaviour block input) machine

/-- A sample begins with no temporary of its own and no call. -/
def enterSample (machine : Machine graph.count N O S V) : Machine graph.count N O S V :=
  { machine with
    temps := fun plan => if graph.sampleRate plan then none else machine.temps plan
    calls := [] }

end Execution

/-- What a sample did. -/
structure SampleRun (graph : GraphPlan N O B I V) (S : Type) where
  block : B
  input : I
  before : Machine graph.count N O S V
  after : Machine graph.count N O S V

def runSamples (behaviour : Behaviour N O S V) (block : B) :
    List I → Machine graph.count N O S V →
      Option (List (SampleRun graph S) × Machine graph.count N O S V)
  | [], machine => some ([], machine)
  | input :: inputs, machine =>
    (graph.execAll behaviour block input graph.sample (graph.enterSample machine)).bind
      fun after => (runSamples behaviour block inputs after).map fun rest =>
        (⟨block, input, machine, after⟩ :: rest.1, rest.2)

/-- The code before a block runs in a state without temporaries; `input` is not read. -/
def enterBlock (machine : Machine graph.count N O S V) : Machine graph.count N O S V :=
  { machine with temps := fun _ => none, calls := [] }

/-- Blocks: the values that the owner reads in a block, and in each of its samples. -/
def runBlocks [Inhabited I] (behaviour : Behaviour N O S V) :
    List (B × List I) → Machine graph.count N O S V →
      Option (List (SampleRun graph S) × Machine graph.count N O S V)
  | [], machine => some ([], machine)
  | (block, inputs) :: blocks, machine =>
    (graph.execAll behaviour block default graph.blockPre (graph.enterBlock machine)).bind
      fun entered => (graph.runSamples behaviour block inputs entered).bind fun shown =>
        (runBlocks behaviour blocks shown.2).map fun rest => (shown.1 ++ rest.1, rest.2)

/-- The state after `init`: delay lines are empty. -/
def Initial [Zero V] (machine : Machine graph.count N O S V) : Prop :=
  ∀ plan, machine.lines plan = DelayLine.empty

end GraphPlan

end Onda.Graph
