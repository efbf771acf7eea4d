import Onda.Graph.Nodes

/-!
# Dataflow of graphs

What a sample should do: every reachable node runs once, on the values that its edges carry in this
sample, or carried as many samples ago as they are delayed.
-/

namespace Onda.Graph.GraphPlan

variable {N O S B I V : Type} [LinearOrder N] [Zero V] {graph : GraphPlan N O B I V}
  {behaviour : Behaviour N O S V} {block : B} {input : I}

/-- What a destination should get, given the values of the sources in earlier samples and now. -/
def expected (graph : GraphPlan N O B I V) (history : List (Fin graph.count → V))
    (now : Fin graph.count → V) (plan : Fin graph.count) : V :=
  if 0 < (graph.sourcePlan plan).delay then
    DelayLine.delayed (graph.sourcePlan plan).delay (history.map (· plan))
  else now plan

/-- The values of the sources, from what the nodes put out in this sample. -/
def SampleRun.now (run : SampleRun graph S) (plan : Fin graph.count) : V :=
  graph.sourceValue run.block run.input run.after plan

/-- A sample implements the dataflow of its graph. -/
structure SampleMeets (graph : GraphPlan N O B I V) (behaviour : Behaviour N O S V)
    (history : List (Fin graph.count → V)) (run : SampleRun graph S) : Prop where
  once : (run.after.calls.map (·.node)).Perm graph.reachableNodes
  stepped : ∀ call ∈ run.after.calls, (run.after.states call.node, run.after.outs call.node) =
    behaviour call.node call.params call.args (run.before.states call.node)
  inputs : ∀ call ∈ run.after.calls, ∀ plan port array,
    (plan, .procInput call.node port array) ∈ graph.edges → ∀ value,
      (port, value) ∈ call.args ↔ value = graph.expected history run.now plan
  params : ∀ call ∈ run.after.calls, ∀ plan param array,
    (plan, .procParam call.node param array) ∈ graph.edges →
      call.params param = graph.expected history run.now plan
  outputs : ∀ plan name, (plan, .topOutput name) ∈ graph.edges →
    run.after.outputs name = graph.expected history run.now plan

/-- Every sample of a run implements it. -/
def RunMeets (graph : GraphPlan N O B I V) (behaviour : Behaviour N O S V) :
    List (Fin graph.count → V) → List (SampleRun graph S) → Prop
  | _, [] => True
  | history, run :: runs =>
    graph.SampleMeets behaviour history run ∧ RunMeets graph behaviour (history ++ [run.now]) runs

/-- Every run gets to its end, so that no temporary is read before it has a value, and implements
the dataflow of the graph. -/
def ImplementsDataflow [Inhabited I] (graph : GraphPlan N O B I V) (S : Type) : Prop :=
  ∀ (behaviour : Behaviour N O S V) (blocks : List (B × List I))
    (machine : Machine graph.count N O S V), graph.Initial machine →
      ∃ shown last, graph.runBlocks behaviour blocks machine = some (shown, last) ∧
        graph.RunMeets behaviour [] shown

/-! ### One sample -/

omit [Zero V] in
/-- All nodes of a sample. -/
theorem Listed.nodes_left (accepted : graph.Accepted) (direct : graph.Direct)
    {start : Machine graph.count N O S V} (rest : List N) {listed : List N}
    (order : graph.topoSortNodes = listed ++ rest)
    (ordered : Kahn.Ordered graph.arcs listed rest) {machine : Machine graph.count N O S V}
    (state : graph.Listed behaviour block input start listed machine) :
    ∃ machine', graph.execAll behaviour block input (rest.flatMap graph.nodeStmts) machine =
        some machine' ∧
      graph.Listed behaviour block input start graph.topoSortNodes machine' := by
  induction rest generalizing listed machine with
  | nil =>
    rw [List.append_nil] at order
    refine ⟨machine, rfl, ?_⟩
    rw [order]
    exact state
  | cons node rest ih =>
    have perm := accepted.order.1
    have distinct := perm.nodup_iff.mpr graph.nodup_reachableNodes
    rw [order] at distinct
    have fresh : node ∉ listed := fun mem =>
      (List.nodup_append.mp distinct).2.2 node mem node List.mem_cons_self rfl
    have reachable : node ∈ graph.reachableNodes := by
      refine perm.subset ?_
      rw [order]
      simp
    obtain ⟨next, ran, state⟩ := state.node accepted direct order fresh reachable ordered.1
    obtain ⟨last, rans, state⟩ := ih (by rw [order, List.append_assoc, List.singleton_append])
      ordered.2 state
    refine ⟨last, ?_, state⟩
    rw [List.flatMap_cons, execAll_append, ran, Option.bind_some, rans]

omit [Zero V] in
/-- The arrays, written before every node. -/
theorem Direct.arrays_first (accepted : graph.Accepted) (direct : graph.Direct)
    (machine : Machine graph.count N O S V) (noCalls : machine.calls = []) :
    ∃ machine', graph.execAll behaviour block input
        (graph.arrayParams.map fun edge => .assignField edge.1 edge.2) machine = some machine' ∧
      graph.Listed behaviour block input machine [] machine' := by
  have single : ∀ edge ∈ graph.arrayParams, ∀ other ∈ graph.arrayParams,
      edge.1 = other.1 → edge.2 = other.2 := by
    intro edge array other array' same
    obtain ⟨_, _, mem, field, -, -⟩ := mem_arrayParams.mp array
    obtain ⟨_, _, mem', field', -, -⟩ := mem_arrayParams.mp array'
    have equal := accepted.driver_unique mem mem' rfl rfl (field.symm.trans (same.trans field'))
    exact congrArg Prod.fst equal
  obtain ⟨fields, ran, set, kept⟩ := @execAll_fields N O S B I V _ graph behaviour block input
    graph.arrayParams graph.Driven (fun edge mem => arrayParams_driven mem)
    (fun edge mem => (direct.settled_array mem []).fields) single machine (by
      intro edge array shared
      obtain ⟨node, param, mem, -, rate, reachable⟩ := mem_arrayParams.mp array
      have unshared := (direct.arrays _ (live_into mem rfl reachable) rate node param rfl
        ((graph.sourcePlan edge.2).shared shared)).2
      rw [shared] at unshared
      cases unshared)
  have free_kept : ∀ field, ¬graph.Driven field → fields field = machine.fields field := by
    intro field free
    refine kept field fun edge mem same => ?_
    subst same
    exact free (arrayParams_driven mem)
  have agree : graph.Agree [] machine { machine with fields } := ⟨by simp, free_kept, rfl⟩
  refine ⟨{ machine with fields }, ran, ?_⟩
  exact
    { reachable := by simp
      closed := by simp
      states := fun _ _ => rfl
      lines := rfl
      undriven := free_kept
      arrays := fun edge mem => by
        rw [(direct.settled_array mem []).sourceNow_eq agree]
        exact set edge mem
      blockTemps := fun _ _ => rfl
      temps := by simp
      nodes := by rw [noCalls]; rfl
      calls := by simp [noCalls] }

/-- What holds between the samples of a block. -/
structure InBlock (graph : GraphPlan N O B I V) (block : B) (history : List (Fin graph.count → V))
    (machine : Machine graph.count N O S V) : Prop where
  temps : ∀ plan, graph.sampleRate plan = false → (graph.sourcePlan plan).sharedTmp = true →
    ∀ input, machine.temps plan = some (graph.sourceValue block input machine plan)
  params : ∀ edge ∈ graph.blockParams, ∀ input,
    machine.fields edge.1 = graph.sourceValue block input machine edge.2
  lines : ∀ plan, 0 < (graph.sourcePlan plan).delay →
    (machine.lines plan).Holds (graph.sourcePlan plan).delay (history.map (· plan))

omit [LinearOrder N] [Zero V] in
theorem blockRate_plan {plan : Fin graph.count} (rate : graph.sampleRate plan = false) :
    (graph.sourcePlan plan).rate = .block := by
  have other := of_decide_eq_false rate
  cases here : (graph.sourcePlan plan).rate with
  | block => rfl
  | sample => exact absurd here other

omit [LinearOrder N] [Zero V] in
/-- A block-rate source has one value in a block. -/
theorem sourceValue_block {plan : Fin graph.count} (rate : graph.sampleRate plan = false)
    (machine machine' : Machine graph.count N O S V) (input input' : I) :
    graph.sourceValue block input machine plan = graph.sourceValue block input' machine' plan := by
  obtain ⟨-, deps, fields, steady⟩ := (graph.sourcePlan plan).blockRate (blockRate_plan rate)
  refine (steady _ _ block input input').trans ?_
  exact (graph.sourcePlan plan).reads block input' (by simp [deps]) (by simp [fields])

omit [Zero V] in
/-- A parameter with a block-rate edge has no other. -/
theorem Accepted.blockParam_free (accepted : graph.Accepted) {edge : Field N × Fin graph.count}
    (mem : edge ∈ graph.blockParams) : ¬graph.Driven edge.1 := by
  rintro ⟨other, live, rate, key⟩
  obtain ⟨node, param, array, here, field, blocked, -⟩ := mem_blockParams.mp mem
  have equal := accepted.driver_unique live.1 here key rfl field
  rw [equal] at rate
  exact Bool.noConfusion (rate.symm.trans blocked)

/-- A sample, from a state between samples to the next one. -/
theorem InBlock.sample (accepted : graph.Accepted) (direct : graph.Direct)
    {history : List (Fin graph.count → V)} {machine : Machine graph.count N O S V}
    (inBlock : graph.InBlock block history machine) (input : I) :
    ∃ after, graph.execAll behaviour block input graph.sample (graph.enterSample machine) =
        some after ∧
      graph.SampleMeets behaviour history ⟨block, input, machine, after⟩ ∧
      graph.InBlock block (history ++ [graph.sourceValue block input after]) after := by
  -- the lists of the sample, in the order in which they are emitted
  obtain ⟨first, ranArrays, state⟩ := @Direct.arrays_first N O S B I V _ graph behaviour block
    input accepted direct (graph.enterSample machine) rfl
  obtain ⟨second, ranNodes, state⟩ := state.nodes_left accepted direct graph.topoSortNodes rfl
    accepted.order.2
  obtain ⟨temps, ranTemps, setTemps, keptTemps⟩ := @execAll_temps N O S B I V _ graph behaviour
    block input graph.tempsBeforeOutputs second
  -- temporaries of block-rate sources last for the block
  have steady : ∀ plan, graph.sampleRate plan = false → temps plan = machine.temps plan := by
    intro plan rate
    have late : plan ∉ graph.tempsBeforeOutputs := by
      intro mem
      have sampled := (List.mem_filter.mp mem).2
      simp [rate] at sampled
    rw [keptTemps plan late, state.blockTemps plan rate, enterSample]
    dsimp only
    rw [if_neg (by simp [rate])]
  have assigned : ∀ edge ∈ graph.outputEdges,
      graph.Assigned block input { second with temps } edge.2 := by
    intro edge mem shared
    cases rate : graph.sampleRate edge.2 with
    | false =>
      have value := inBlock.temps edge.2 rate shared input
      rw [sourceValue_block rate machine { second with temps } input input] at value
      exact (steady edge.2 rate).trans value
    | true =>
      by_cases late : edge.2 ∈ graph.tempsBeforeOutputs
      · exact setTemps edge.2 late
      · refine (keptTemps edge.2 late).trans ?_
        rcases point : graph.usePoint edge.2 with _ | node
        · refine absurd (List.mem_filter.mpr ⟨List.mem_finRange edge.2, ?_⟩) late
          have used : graph.outputEdges.any (·.2 = edge.2) = true :=
            List.any_eq_true.mpr ⟨edge, mem, by simp⟩
          simp [shared, rate, point, used]
        · exact state.temps edge.2 rate node (List.mem_of_find?_eq_some point)
            (List.find?_some point) shared
  have singleOutput : ∀ edge ∈ graph.outputEdges, ∀ other ∈ graph.outputEdges,
      edge.1 = other.1 → edge.2 = other.2 := by
    intro edge mem other mem' same
    have equal := accepted.unique (mem_outputEdges.mp mem) (mem_outputEdges.mp mem')
      (congrArg Sum.inl same)
    exact congrArg Prod.fst equal
  obtain ⟨outputs, ranOutputs, setOutputs⟩ := @execAll_outputs N O S B I V _ graph behaviour block
    input graph.outputEdges singleOutput { second with temps } assigned
  obtain ⟨lines, ranPushes, pushed, -⟩ := @execAll_pushes N O S B I V _ graph behaviour block input
    graph.delayed ((List.nodup_finRange graph.count).filter _) { second with temps, outputs }
  -- lines are pushed last, so that every destination reads what earlier samples pushed
  have now : ∀ plan, graph.sourceNow block input second plan =
      graph.expected history (graph.sourceValue block input second) plan := by
    intro plan
    unfold sourceNow expected
    by_cases delay : 0 < (graph.sourcePlan plan).delay
    · rw [if_pos delay, if_pos delay, state.lines]
      exact (inBlock.lines plan delay).read delay
    · rw [if_neg delay, if_neg delay]
  have fields : ∀ edge ∈ graph.blockParams, second.fields edge.1 = machine.fields edge.1 :=
    fun edge mem => state.undriven edge.1 (accepted.blockParam_free mem)
  refine ⟨{ second with temps, outputs, lines }, ?_, ?_, ?_⟩
  · rw [GraphPlan.sample, execAll_append, execAll_append, execAll_append, execAll_append,
      ranArrays, Option.bind_some, ranNodes, Option.bind_some, ranTemps, Option.bind_some,
      ranOutputs, Option.bind_some, ranPushes]
  · have reached : ∀ call ∈ second.calls, call.node ∈ graph.reachableNodes := by
      intro call mem
      refine state.reachable call.node ?_
      rw [← state.nodes]
      exact List.mem_map_of_mem mem
    refine ⟨?_, fun call mem => (state.calls call mem).stepped, ?_, ?_, ?_⟩
    · dsimp only
      rw [state.nodes]
      exact accepted.order.1
    · intro call mem plan port array edge value
      have live := live_into edge rfl (reached call mem)
      have rate : graph.sampleRate plan = true := by
        cases rate : graph.sampleRate plan with
        | true => rfl
        | false => exact absurd rfl (direct.inputs _ live rate call.node port array)
      rw [(state.calls call mem).args, List.mem_map]
      constructor
      · rintro ⟨arg, mem', same⟩
        obtain ⟨_, edge', -⟩ := mem_inputArgs.mp mem'
        have equal := accepted.unique edge edge' (by
          rw [GraphDest.key, GraphDest.key, congrArg Prod.fst same])
        have plans : plan = arg.2 := congrArg Prod.fst equal
        rw [plans]
        exact (congrArg Prod.snd same).symm.trans (now arg.2)
      · rintro rfl
        exact ⟨(port, plan), mem_inputArgs.mpr ⟨array, edge, rate⟩,
          congrArg (Prod.mk port) (now plan)⟩
    · intro call mem plan param array edge
      have meets := state.calls call mem
      refine Eq.trans ?_ (now plan)
      cases rate : graph.sampleRate plan with
      | true =>
        cases array with
        | true =>
          exact meets.arrays (.param call.node param, plan)
            (mem_arrayParams.mpr ⟨_, _, edge, rfl, rate, reached call mem⟩) param rfl
        | false =>
          exact meets.scalars (.param call.node param, plan)
            (mem_scalarParams.mpr ⟨_, edge, rfl, rate⟩) param rfl
      | false =>
        have blocked : (Field.param call.node param, plan) ∈ graph.blockParams :=
          mem_blockParams.mpr ⟨_, _, _, edge, rfl, rate, reached call mem⟩
        rw [meets.undriven param (accepted.blockParam_free blocked), sourceNow, if_neg (by
          rw [((graph.sourcePlan plan).blockRate (blockRate_plan rate)).1]
          exact Nat.lt_irrefl 0), sourceValue_block rate second machine input input]
        exact inBlock.params _ blocked input
    · intro plan name edge
      exact (setOutputs (name, plan) (mem_outputEdges.mpr edge)).trans (now plan)
  · refine ⟨fun plan rate shared other => ?_, fun edge mem other => ?_, fun plan delay => ?_⟩
    · rw [sourceValue_block rate _ machine other other]
      exact (steady plan rate).trans (inBlock.temps plan rate shared other)
    · obtain ⟨_, _, _, -, -, rate, -⟩ := mem_blockParams.mp mem
      rw [sourceValue_block rate _ machine other other]
      exact (fields edge mem).trans (inBlock.params edge mem other)
    · rw [List.map_append, List.map_singleton]
      dsimp only
      have delayed : plan ∈ graph.delayed :=
        List.mem_filter.mpr ⟨List.mem_finRange plan, decide_eq_true delay⟩
      rw [pushed plan delayed]
      dsimp only
      rw [state.lines]
      exact (inBlock.lines plan delay).push _

/-! ### Runs -/

theorem runMeets_append {history : List (Fin graph.count → V)}
    {first second : List (SampleRun graph S)}
    (before : graph.RunMeets behaviour history first)
    (after : graph.RunMeets behaviour (history ++ first.map SampleRun.now) second) :
    graph.RunMeets behaviour history (first ++ second) := by
  induction first generalizing history with
  | nil =>
    rw [List.map_nil, List.append_nil] at after
    exact after
  | cons run first ih =>
    refine ⟨before.1, ih before.2 ?_⟩
    rw [List.append_assoc, List.singleton_append, ← List.map_cons]
    exact after

/-- The samples of a block. -/
theorem InBlock.samples (accepted : graph.Accepted) (direct : graph.Direct) (inputs : List I)
    {history : List (Fin graph.count → V)} {machine : Machine graph.count N O S V}
    (inBlock : graph.InBlock block history machine) :
    ∃ shown last, graph.runSamples behaviour block inputs machine = some (shown, last) ∧
      graph.RunMeets behaviour history shown ∧
      graph.InBlock block (history ++ shown.map SampleRun.now) last := by
  induction inputs generalizing history machine with
  | nil => exact ⟨[], machine, rfl, trivial, by simpa using inBlock⟩
  | cons input inputs ih =>
    obtain ⟨after, ran, meets, next⟩ := @InBlock.sample N O S B I V _ _ graph behaviour block
      accepted direct history machine inBlock input
    obtain ⟨shown, last, rans, rest, ended⟩ := ih next
    refine ⟨⟨block, input, machine, after⟩ :: shown, last, ?_, ⟨meets, rest⟩, ?_⟩
    · rw [runSamples, ran, Option.bind_some, rans]
      rfl
    · rw [List.map_cons, ← List.singleton_append, ← List.append_assoc]
      exact ended

/-- The code before a block. -/
theorem enter_inBlock [Inhabited I] (accepted : graph.Accepted)
    {history : List (Fin graph.count → V)} (machine : Machine graph.count N O S V)
    (lines : ∀ plan, 0 < (graph.sourcePlan plan).delay →
      (machine.lines plan).Holds (graph.sourcePlan plan).delay (history.map (· plan))) :
    ∃ entered, graph.execAll behaviour block default graph.blockPre (graph.enterBlock machine) =
        some entered ∧ graph.InBlock block history entered := by
  obtain ⟨temps, ranTemps, set, -⟩ := @execAll_temps N O S B I V _ graph behaviour block default
    graph.blockTemps (graph.enterBlock machine)
  have blocked : ∀ edge ∈ graph.blockParams, graph.sampleRate edge.2 = false := by
    intro edge mem
    obtain ⟨_, _, _, -, -, rate, -⟩ := mem_blockParams.mp mem
    exact rate
  have setTemps : ∀ plan, graph.sampleRate plan = false →
      (graph.sourcePlan plan).sharedTmp = true →
        temps plan = some (graph.sourceValue block default (graph.enterBlock machine) plan) :=
    fun plan rate shared => set plan
      (List.mem_filter.mpr ⟨List.mem_finRange plan, by simp [shared, rate]⟩)
  obtain ⟨fields, ranFields, setFields, -⟩ := @execAll_fields N O S B I V _ graph behaviour block
    default graph.blockParams (fun _ => True) (fun _ _ => trivial)
    (fun edge mem field read => by
      rw [((graph.sourcePlan edge.2).blockRate (blockRate_plan (blocked edge mem))).2.2.1] at read
      cases read)
    (fun edge mem other mem' same => by
      obtain ⟨_, _, _, here, field, -, -⟩ := mem_blockParams.mp mem
      obtain ⟨_, _, _, here', field', -, -⟩ := mem_blockParams.mp mem'
      have equal := accepted.driver_unique here here' rfl rfl
        (field.symm.trans (same.trans field'))
      exact congrArg Prod.fst equal)
    { graph.enterBlock machine with temps }
    (fun edge mem shared => setTemps edge.2 (blocked edge mem) shared)
  refine ⟨{ graph.enterBlock machine with temps, fields }, ?_, ?_⟩
  · rw [blockPre, execAll_append, ranTemps, Option.bind_some, ranFields]
  · refine ⟨fun plan rate shared input => ?_, fun edge mem input => ?_, lines⟩
    · rw [sourceValue_block rate _ (graph.enterBlock machine) input default]
      exact setTemps plan rate shared
    · refine (setFields edge mem).trans ?_
      rw [sourceNow, if_neg (by
        rw [((graph.sourcePlan edge.2).blockRate (blockRate_plan (blocked edge mem))).1]
        exact Nat.lt_irrefl 0)]
      exact sourceValue_block (blocked edge mem) _ _ default input

/-- Every run of a direct graph implements its dataflow. -/
theorem Direct.implements [Inhabited I] (accepted : graph.Accepted) (direct : graph.Direct) :
    graph.ImplementsDataflow S := by
  intro behaviour blocks machine initial
  suffices all : ∀ (history : List (Fin graph.count → V)) (machine : Machine graph.count N O S V),
      (∀ plan, 0 < (graph.sourcePlan plan).delay →
        (machine.lines plan).Holds (graph.sourcePlan plan).delay (history.map (· plan))) →
      ∃ shown last, graph.runBlocks behaviour blocks machine = some (shown, last) ∧
        graph.RunMeets behaviour history shown by
    refine all [] machine fun plan _ => ?_
    rw [initial plan]
    exact DelayLine.holds_empty _
  clear initial machine
  induction blocks with
  | nil => exact fun history machine _ => ⟨[], machine, rfl, trivial⟩
  | cons head blocks ih =>
    intro history machine lines
    obtain ⟨block, inputs⟩ := head
    obtain ⟨entered, ranPre, inBlock⟩ := @enter_inBlock N O S B I V _ _ graph behaviour block _
      accepted history machine lines
    obtain ⟨shown, last, ran, meets, ended⟩ := @InBlock.samples N O S B I V _ _ graph behaviour block
      accepted direct inputs history entered inBlock
    obtain ⟨later, final, rans, rest⟩ := ih _ last ended.lines
    refine ⟨shown ++ later, final, ?_, runMeets_append meets rest⟩
    rw [runBlocks, ranPre, Option.bind_some, ran, Option.bind_some, rans]
    rfl

/-! ### A chain of two nodes -/

/-- A counter drives a parameter of a second node, and that node the graph output. -/
def chain (array : Bool) : GraphPlan (Fin 2) Nat Unit Unit Nat where
  count := 2
  sourcePlan plan :=
    { rate := .sample
      delay := 0
      deps := [plan]
      fieldReads := []
      value := fun outs _ _ _ => outs plan
      reads := fun _ _ outs _ => outs plan (List.mem_singleton_self plan)
      sharedTmp := false
      shared := fun _ => rfl
      blockRate := fun rate => GraphRate.noConfusion rate }
  edges := [(0, .procParam 1 "gain" array), (1, .topOutput "main")]

/-- The first node counts, the second puts out its parameter. -/
def chainBehaviour : Behaviour (Fin 2) Nat Nat Nat := fun node params _ state =>
  if node = 0 then (state + 1, state + 1) else (state, params "gain")

def chainStart : Machine 2 (Fin 2) Nat Nat Nat where
  outs _ := 0
  states _ := 0
  fields _ := 0
  temps _ := none
  lines _ := DelayLine.empty
  outputs _ := 0
  calls := []

theorem chain_reachable (array : Bool) : (chain array).reachableNodes = [1, 0] := by
  have outputs : (chain array).outputDeps = [1] := by cases array <;> rfl
  unfold reachableNodes Reach.closure
  rw [outputs, show [(1 : Fin 2)].dedup = [1] from rfl, List.reverse_singleton,
    Reach.loop_cons _ [0] (by cases array <;> decide), List.reverse_singleton,
    List.singleton_append, List.singleton_append, Reach.loop_cons _ [] (by cases array <;> decide), List.reverse_nil,
    List.nil_append, Reach.loop_nil, List.append_nil]

theorem chain_order (array : Bool) : (chain array).topoSortNodes = [0, 1] := by
  unfold topoSortNodes arcs isReachable
  rw [chain_reachable]
  cases array <;> decide

theorem chain_accepted (array : Bool) : (chain array).Accepted where
  singleWriter := by cases array <;> decide
  acyclic := by
    rw [chain_order, chain_reachable]
    rfl

theorem chain_sample (array : Bool) : (chain array).sample =
    if array then
      [.assignField (.param 1 "gain") (0 : Fin 2), .call 0 [], .call 1 [], .assignOutput "main" (1 : Fin 2)]
    else [.call 0 [], .assignField (.param 1 "gain") (0 : Fin 2), .call 1 [], .assignOutput "main" (1 : Fin 2)] := by
  unfold sample arrayParams isReachable tempsBeforeOutputs usePoint
  rw [chain_order, chain_reachable]
  cases array <;> rfl

/-- The parameter of the second node in the first sample, and the output of the first. -/
theorem chain_array_shows : ∃ run last, (chain true).runBlocks chainBehaviour [((), [()])]
    chainStart = some ([run], last) ∧ ∃ call ∈ run.after.calls, call.node = 1 ∧
      call.params "gain" = 0 ∧ run.now (0 : Fin 2) = 1 := by
  simp only [runBlocks, runSamples]
  rw [chain_sample]
  exact ⟨_, _, rfl, _, List.mem_cons_of_mem _ List.mem_cons_self, rfl, rfl, rfl⟩

/-- An array gets what its source was in the sample before. -/
theorem array_param_late : ∃ graph : GraphPlan (Fin 2) Nat Unit Unit Nat,
    graph.Accepted ∧ ¬graph.ImplementsDataflow Nat := by
  refine ⟨chain true, chain_accepted true, fun implements => ?_⟩
  obtain ⟨run, last, ran, call, mem, node, param, now⟩ := chain_array_shows
  obtain ⟨shown, final, ran', meets⟩ := implements chainBehaviour [((), [()])] chainStart fun _ => rfl
  rw [ran] at ran'
  obtain ⟨rfl, rfl⟩ := Prod.mk.inj (Option.some.inj ran')
  have value := meets.1.params call mem (0 : Fin 2) "gain" true (by rw [node]; decide)
  rw [param] at value
  exact absurd (value.trans now) (by decide)

/-- The scalar parameter of the same graph gets the value of this sample. -/
theorem chain_direct : (chain false).Direct where
  noSelf := by
    rintro ⟨plan, dest⟩ ⟨mem, -⟩ - - node into
    rcases List.mem_cons.mp mem with same | mem
    · obtain ⟨rfl, rfl⟩ := Prod.mk.inj same
      obtain rfl := Option.some.inj into
      decide
    · obtain ⟨rfl, rfl⟩ := Prod.mk.inj (List.mem_singleton.mp mem)
      cases into
  arrays := by
    rintro ⟨plan, dest⟩ ⟨mem, -⟩ - node param shape
    rcases List.mem_cons.mp mem with same | mem
    · cases (congrArg Prod.snd same).symm.trans shape
    · cases (congrArg Prod.snd (List.mem_singleton.mp mem)).symm.trans shape
  inputs := by
    rintro ⟨plan, dest⟩ - rate
    cases rate
  fields := by
    rintro edge - field read
    cases read

theorem chain_implements : (chain false).ImplementsDataflow Nat :=
  Direct.implements (chain_accepted false) chain_direct

end Onda.Graph.GraphPlan
