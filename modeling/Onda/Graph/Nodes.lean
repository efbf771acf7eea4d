import Onda.Graph.Statements

/-!
# Nodes of a sample

`Direct` is the condition under which every list is emitted on the right side of the node calls.
`Listed` is the invariant between two nodes; the step lemma is `Listed.node`, and the run over
all nodes is by induction on the nodes that are left.
-/

namespace Onda.Graph.GraphPlan

variable {N O S B I V : Type} [LinearOrder N] {graph : GraphPlan N O B I V}
  {behaviour : Behaviour N O S V} {block : B} {input : I}

/-- Every value that a live edge carries can be read where its destination is written. -/
structure Direct (graph : GraphPlan N O B I V) : Prop where
  /-- No undelayed sample-rate edge leads from a node to itself. -/
  noSelf : ∀ edge, graph.Live edge → graph.sampleRate edge.1 = true →
    (graph.sourcePlan edge.1).delay = 0 → ∀ node ∈ edge.2.node?,
      node ∉ (graph.sourcePlan edge.1).deps
  /-- A sample-rate parameter of array shape has a delayed source, or one that reads no node and
  is not shared. -/
  arrays : ∀ edge, graph.Live edge → graph.sampleRate edge.1 = true →
    ∀ node param, edge.2 = .procParam node param true → (graph.sourcePlan edge.1).delay = 0 →
      (graph.sourcePlan edge.1).deps = [] ∧ (graph.sourcePlan edge.1).sharedTmp = false
  /-- No input has a block-rate edge. -/
  inputs : ∀ edge, graph.Live edge → graph.sampleRate edge.1 = false →
    ∀ node port array, edge.2 ≠ .procInput node port array
  /-- No source reads a field that a sample-rate edge drives. -/
  fields : ∀ edge, graph.Live edge → ∀ field ∈ (graph.sourcePlan edge.1).fieldReads,
    ¬graph.Driven field

omit [LinearOrder N] in
theorem sampleRate_eq {plan : Fin graph.count} (rate : graph.sampleRate plan = true) :
    (graph.sourcePlan plan).rate = .sample := of_decide_eq_true rate

/-- An edge into a listed node is settled. -/
theorem Direct.settled (direct : graph.Direct) {listed : List N}
    (closed : ∀ arc ∈ graph.arcs, arc.2 ∈ listed → arc.1 ∈ listed)
    {edge : Fin graph.count × GraphDest N} (live : graph.Live edge)
    (rate : graph.sampleRate edge.1 = true) {node : N} (dest : edge.2.node? = some node)
    (mem : node ∈ listed) : graph.Settled listed edge.1 where
  deps undelayed dep read := by
    have other : dep ≠ node := by
      rintro rfl
      exact direct.noSelf edge live rate undelayed dep dest read
    exact closed (dep, node) (live.arc dest undelayed (sampleRate_eq rate) read other) mem
  fields := direct.fields edge live

/-- An edge into the next node is settled as well. -/
theorem Direct.settled_next (direct : graph.Direct) {listed : List N} {node : N}
    (ready : ∀ arc ∈ graph.arcs, arc.2 = node → arc.1 ∈ listed)
    {edge : Fin graph.count × GraphDest N} (live : graph.Live edge)
    (rate : graph.sampleRate edge.1 = true) (dest : edge.2.node? = some node) :
    graph.Settled listed edge.1 where
  deps undelayed dep read := by
    have other : dep ≠ node := by
      rintro rfl
      exact direct.noSelf edge live rate undelayed dep dest read
    exact ready (dep, node) (live.arc dest undelayed (sampleRate_eq rate) read other) rfl
  fields := direct.fields edge live

theorem live_into {edge : Fin graph.count × GraphDest N} (mem : edge ∈ graph.edges) {node : N}
    (dest : edge.2.node? = some node) (reachable : node ∈ graph.reachableNodes) :
    graph.Live edge := by
  refine ⟨mem, fun other here => ?_⟩
  obtain rfl : node = other := Option.some.inj (dest.symm.trans here)
  exact reachable

variable {edge : Field N × Fin graph.count} {plan : Fin graph.count}
  {temps : Fin graph.count → Option V} {machine' : Machine graph.count N O S V}

/-- The arrays that are written before every node are settled from the beginning. -/
theorem Direct.settled_array (direct : graph.Direct) (mem : edge ∈ graph.arrayParams)
    (listed : List N) : graph.Settled listed edge.2 := by
  obtain ⟨node, param, mem, -, rate, reachable⟩ := mem_arrayParams.mp mem
  have live := live_into mem rfl reachable
  refine ⟨fun undelayed dep read => ?_, direct.fields _ live⟩
  rw [(direct.arrays _ live rate node param rfl undelayed).1] at read
  cases read

theorem scalarParams_driven {node : N} (reachable : node ∈ graph.reachableNodes)
    (mem : edge ∈ graph.scalarParams node) :
    graph.Driven edge.1 := by
  obtain ⟨param, mem, field, rate⟩ := mem_scalarParams.mp mem
  exact ⟨_, live_into mem rfl reachable, rate, congrArg Sum.inr field.symm⟩

theorem arrayParams_driven (mem : edge ∈ graph.arrayParams) :
    graph.Driven edge.1 := by
  obtain ⟨node, param, mem, field, rate, reachable⟩ := mem_arrayParams.mp mem
  exact ⟨_, live_into mem rfl reachable, rate, congrArg Sum.inr field.symm⟩

/-- What a call of a listed node received and did. -/
structure CallMeets (graph : GraphPlan N O B I V) (behaviour : Behaviour N O S V) (block : B)
    (input : I) (start machine : Machine graph.count N O S V) (call : Call N V) : Prop where
  args : call.args = (graph.inputArgs call.node).map fun arg =>
    (arg.1, graph.sourceNow block input machine arg.2)
  scalars : ∀ edge ∈ graph.scalarParams call.node, ∀ param, edge.1 = .param call.node param →
    call.params param = graph.sourceNow block input machine edge.2
  arrays : ∀ edge ∈ graph.arrayParams, ∀ param, edge.1 = .param call.node param →
    call.params param = graph.sourceNow block input machine edge.2
  undriven : ∀ param, ¬graph.Driven (.param call.node param) →
    call.params param = start.fields (.param call.node param)
  stepped : (machine.states call.node, machine.outs call.node) =
    behaviour call.node call.params call.args (start.states call.node)

/-- What holds between two nodes of a sample. -/
structure Listed (graph : GraphPlan N O B I V) (behaviour : Behaviour N O S V) (block : B)
    (input : I) (start : Machine graph.count N O S V) (listed : List N)
    (machine : Machine graph.count N O S V) : Prop where
  reachable : ∀ node ∈ listed, node ∈ graph.reachableNodes
  closed : ∀ arc ∈ graph.arcs, arc.2 ∈ listed → arc.1 ∈ listed
  states : ∀ node ∉ listed, machine.states node = start.states node
  lines : machine.lines = start.lines
  undriven : ∀ field, ¬graph.Driven field → machine.fields field = start.fields field
  arrays : ∀ edge ∈ graph.arrayParams,
    machine.fields edge.1 = graph.sourceNow block input machine edge.2
  blockTemps : ∀ plan, graph.sampleRate plan = false → machine.temps plan = start.temps plan
  temps : ∀ plan, graph.sampleRate plan = true → ∀ node ∈ listed, graph.feeds plan node = true →
    graph.Assigned block input machine plan
  nodes : machine.calls.map (·.node) = listed
  calls : ∀ call ∈ machine.calls, graph.CallMeets behaviour block input start machine call

variable {start : Machine graph.count N O S V} {listed : List N}
  {machine : Machine graph.count N O S V}

theorem Listed.settled (state : graph.Listed behaviour block input start listed machine)
    (direct : graph.Direct) (rate : graph.sampleRate plan = true) {node : N} (mem : node ∈ listed)
    (feeds : graph.feeds plan node = true) :
    graph.Settled listed plan := by
  obtain ⟨dest, edge, into⟩ := feeds_iff.mp feeds
  exact direct.settled state.closed (live_into edge into (state.reachable node mem)) rate into mem

theorem inputArgs_feeds {node : N} {arg : String × Fin graph.count}
    (mem : arg ∈ graph.inputArgs node) :
    graph.sampleRate arg.2 = true ∧ graph.feeds arg.2 node = true := by
  obtain ⟨array, edge, rate⟩ := mem_inputArgs.mp mem
  exact ⟨rate, feeds_iff.mpr ⟨_, edge, rfl⟩⟩

theorem scalarParams_feeds {node : N} (mem : edge ∈ graph.scalarParams node) :
    graph.sampleRate edge.2 = true ∧ graph.feeds edge.2 node = true := by
  obtain ⟨param, here, -, rate⟩ := mem_scalarParams.mp mem
  exact ⟨rate, feeds_iff.mpr ⟨_, here, rfl⟩⟩

/-- A call keeps what it received while other nodes run. -/
theorem CallMeets.agree (direct : graph.Direct)
    (state : graph.Listed behaviour block input start listed machine) {call : Call N V}
    (mem : call ∈ machine.calls) (agree : graph.Agree listed machine machine')
    (states : machine'.states call.node = machine.states call.node) :
    graph.CallMeets behaviour block input start machine' call := by
  have meets := state.calls call mem
  have here : call.node ∈ listed := by
    rw [← state.nodes]
    exact List.mem_map_of_mem mem
  refine ⟨?_, fun edge scalar param field => ?_, fun edge array param field => ?_,
    meets.undriven, ?_⟩
  · rw [meets.args]
    refine List.map_congr_left fun arg arg_mem => ?_
    obtain ⟨rate, feeds⟩ := inputArgs_feeds arg_mem
    rw [(state.settled direct rate here feeds).sourceNow_eq agree]
  · obtain ⟨rate, feeds⟩ := scalarParams_feeds scalar
    rw [meets.scalars edge scalar param field,
      (state.settled direct rate here feeds).sourceNow_eq agree]
  · rw [meets.arrays edge array param field,
      (direct.settled_array array listed).sourceNow_eq agree]
  · rw [states, agree.outs call.node here]
    exact meets.stepped

/-- The temporaries that a node reads have values before its parameters are written. -/
theorem Listed.assigned (state : graph.Listed behaviour block input start listed machine) {node : N}
    {rest : List N} (order : graph.topoSortNodes = listed ++ node :: rest)
    (set : ∀ plan ∈ graph.tempsBefore node,
      temps plan = some (graph.sourceValue block input machine plan))
    (kept : ∀ plan ∉ graph.tempsBefore node, temps plan = machine.temps plan)
    (rate : graph.sampleRate plan = true) {other : N} (mem : other ∈ listed ++ [node])
    (feeds : graph.feeds plan other = true) (shared : (graph.sourcePlan plan).sharedTmp = true) :
    temps plan = some (graph.sourceValue block input machine plan) := by
  by_cases here : plan ∈ graph.tempsBefore node
  · exact set plan here
  · rw [kept plan here]
    rcases earlier : listed.find? (graph.feeds plan) with _ | first
    · -- no listed node reads it, so that its use point is this node
      have last : other = node := by
        rcases List.mem_append.mp mem with old | new
        · exact absurd feeds (List.find?_eq_none.mp earlier other old)
        · exact List.mem_singleton.mp new
      subst last
      have point : graph.usePoint plan = some other := by
        rw [usePoint, order, List.find?_append, earlier, Option.none_or,
          List.find?_cons_of_pos feeds]
      refine absurd (List.mem_filter.mpr ⟨List.mem_finRange plan, ?_⟩) here
      simp [shared, rate, point]
    · exact state.temps plan rate first (List.mem_of_find?_eq_some earlier)
        (List.find?_some earlier) shared

/-- Writing the parameters of a node and calling it changes nothing that settled sources read. -/
theorem agree_step {node : N} (fresh : node ∉ listed) (reachable : node ∈ graph.reachableNodes)
    {before : Machine graph.count N O S V} (agree : graph.Agree listed machine before)
    (values : String × Fin graph.count → V) :
    graph.Agree listed machine (Machine.step behaviour node before
      ((graph.inputArgs node).map fun arg => (arg.1, values arg))) := by
  refine ⟨fun other mem => ?_, fun field free => ?_, agree.lines⟩
  · have apart : other ≠ node := by
      rintro rfl
      exact fresh mem
    exact (Function.update_of_ne apart _ _).trans (agree.outs other mem)
  · cases field with
    | param other param => exact agree.fields _ free
    | input other port =>
      refine Eq.trans ?_ (agree.fields _ free)
      rw [Machine.step]
      dsimp only
      rw [Machine.receive]
      by_cases same : other = node
      · subst same
        -- no argument has this name: its edge would drive the input
        have absent : ((graph.inputArgs other).map fun arg => (arg.1, values arg)).find?
            (fun arg => decide (arg.1 = port)) = none := by
          rw [List.find?_eq_none]
          intro arg mem named
          obtain ⟨source, drives, rfl⟩ := List.mem_map.mp mem
          obtain ⟨array, edge, rate⟩ := mem_inputArgs.mp drives
          have port_eq : source.1 = port := of_decide_eq_true named
          refine free ⟨_, live_into edge rfl reachable, rate, ?_⟩
          rw [GraphDest.key, port_eq]
        rw [if_pos rfl, absent]
        rfl
      · rw [if_neg same]

/-- An array parameter and a scalar one are different fields. -/
theorem Accepted.array_ne_scalar (accepted : graph.Accepted) {node : N}
    {other : Field N × Fin graph.count} (array : edge ∈ graph.arrayParams)
    (scalar : other ∈ graph.scalarParams node) : other.1 ≠ edge.1 := by
  intro same
  obtain ⟨_, _, mem, field, -, -⟩ := mem_arrayParams.mp array
  obtain ⟨_, mem', field', -⟩ := mem_scalarParams.mp scalar
  have equal := accepted.driver_unique mem mem' rfl rfl
    (field.symm.trans (same.symm.trans field'))
  have dests := congrArg Prod.snd equal
  simp at dests

theorem Accepted.scalar_single (accepted : graph.Accepted) {node : N} :
    ∀ edge ∈ graph.scalarParams node, ∀ other ∈ graph.scalarParams node,
      edge.1 = other.1 → edge.2 = other.2 := by
  intro edge scalar other scalar' same
  obtain ⟨_, mem, field, -⟩ := mem_scalarParams.mp scalar
  obtain ⟨_, mem', field', -⟩ := mem_scalarParams.mp scalar'
  have equal := accepted.driver_unique mem mem' rfl rfl (field.symm.trans (same.trans field'))
  exact congrArg Prod.fst equal

/-- The state after a node, given what its temporaries and parameters hold at its call. -/
theorem Listed.called (accepted : graph.Accepted) (direct : graph.Direct)
    (state : graph.Listed behaviour block input start listed machine) {node : N}
    (fresh : node ∉ listed) (reachable : node ∈ graph.reachableNodes)
    (ready : ∀ arc ∈ graph.arcs, arc.2 = node → arc.1 ∈ listed) {fields : Field N → V}
    (set : ∀ plan, graph.sampleRate plan = true → ∀ other ∈ listed ++ [node],
      graph.feeds plan other = true → (graph.sourcePlan plan).sharedTmp = true →
        temps plan = some (graph.sourceValue block input machine plan))
    (keptTemps : ∀ plan, graph.sampleRate plan = false → temps plan = machine.temps plan)
    (setFields : ∀ edge ∈ graph.scalarParams node,
      fields edge.1 = graph.sourceNow block input machine edge.2)
    (keptFields : ∀ field, (∀ edge ∈ graph.scalarParams node, edge.1 ≠ field) →
      fields field = machine.fields field)
    (ran : machine' = Machine.step behaviour node { machine with temps, fields }
      ((graph.inputArgs node).map fun arg =>
        (arg.1, graph.sourceNow block input { machine with temps, fields } arg.2))) :
    graph.Listed behaviour block input start (listed ++ [node]) machine' := by
  have settled : ∀ plan, graph.sampleRate plan = true → ∀ other ∈ listed ++ [node],
      graph.feeds plan other = true → graph.Settled listed plan := by
    intro plan rate other mem feeds
    rcases List.mem_append.mp mem with old | new
    · exact state.settled direct rate old feeds
    · obtain rfl := List.mem_singleton.mp new
      obtain ⟨dest, edge, into⟩ := feeds_iff.mp feeds
      exact direct.settled_next ready (live_into edge into reachable) rate into
  have here : node ∈ listed ++ [node] := by simp
  have written : graph.Agree listed machine { machine with temps, fields } := by
    refine ⟨fun _ _ => rfl, fun field free => keptFields field fun edge mem same => ?_, rfl⟩
    subst same
    exact free (scalarParams_driven reachable mem)
  have agree : graph.Agree listed machine machine' := by
    rw [ran]
    exact agree_step fresh reachable written fun arg =>
      graph.sourceNow block input { machine with temps, fields } arg.2
  have kept_array : ∀ edge ∈ graph.arrayParams, fields edge.1 = machine.fields edge.1 :=
    fun edge array => keptFields edge.1 fun other scalar => accepted.array_ne_scalar array scalar
  have now_array : ∀ edge ∈ graph.arrayParams,
      fields edge.1 = graph.sourceNow block input machine' edge.2 := by
    intro edge array
    rw [kept_array edge array, state.arrays edge array,
      (direct.settled_array array listed).sourceNow_eq agree]
  have params_eq : ∀ other param, machine'.fields (.param other param) =
      fields (.param other param) := fun _ _ => by rw [ran]; rfl
  refine ⟨?_, ?_, ?_, ?_, ?_, ?_, ?_, ?_, ?_, ?_⟩
  · intro other mem
    rcases List.mem_append.mp mem with old | new
    · exact state.reachable other old
    · rw [List.mem_singleton.mp new]
      exact reachable
  · intro arc mem into
    rcases List.mem_append.mp into with old | new
    · exact List.mem_append_left _ (state.closed arc mem old)
    · exact List.mem_append_left _ (ready arc mem (List.mem_singleton.mp new))
  · intro other away
    rw [List.mem_append, not_or, List.mem_singleton] at away
    rw [ran, Machine.step]
    exact (Function.update_of_ne away.2 _ _).trans (state.states other away.1)
  · exact agree.lines.trans state.lines
  · exact fun field free => (agree.fields field free).trans (state.undriven field free)
  · intro edge array
    obtain ⟨other, param, -, field, -, -⟩ := mem_arrayParams.mp array
    rw [field, params_eq, ← field]
    exact now_array edge array
  · intro plan rate
    rw [ran]
    exact (keptTemps plan rate).trans (state.blockTemps plan rate)
  · intro plan rate other mem feeds shared
    rw [(settled plan rate other mem feeds).sourceValue_eq
      ((graph.sourcePlan plan).shared shared) agree, ran]
    exact set plan rate other mem feeds shared
  · rw [ran, Machine.step]
    dsimp only
    rw [List.map_append, state.nodes]
    rfl
  · intro call mem
    rw [ran, Machine.step] at mem
    rcases List.mem_append.mp mem with old | new
    · refine CallMeets.agree direct state old agree ?_
      have apart : call.node ≠ node := by
        intro same
        refine fresh ?_
        rw [← same, ← state.nodes]
        exact List.mem_map_of_mem old
      rw [ran]
      exact Function.update_of_ne apart _ _
    · obtain rfl := List.mem_singleton.mp new
      refine ⟨?_, fun edge scalar param field => ?_, fun edge array param field => ?_,
        fun param free => ?_, ?_⟩
      · refine List.map_congr_left fun arg arg_mem => ?_
        obtain ⟨rate, feeds⟩ := inputArgs_feeds arg_mem
        have stays := settled arg.2 rate node here feeds
        rw [stays.sourceNow_eq agree, stays.sourceNow_eq written]
      · obtain ⟨rate, feeds⟩ := scalarParams_feeds scalar
        rw [(settled edge.2 rate node here feeds).sourceNow_eq agree, ← setFields edge scalar, field]
        rfl
      · rw [← now_array edge array, field]
        rfl
      · exact (written.fields _ free).trans (state.undriven _ free)
      · rw [ran, Machine.step]
        dsimp only
        rw [Function.update_self, Function.update_self, state.states node fresh]

/-- One node: its temporaries, its parameters and its call. -/
theorem Listed.node (accepted : graph.Accepted) (direct : graph.Direct)
    (state : graph.Listed behaviour block input start listed machine) {node : N} {rest : List N}
    (order : graph.topoSortNodes = listed ++ node :: rest) (fresh : node ∉ listed)
    (reachable : node ∈ graph.reachableNodes)
    (ready : ∀ arc ∈ graph.arcs, arc.2 = node → arc.1 ∈ listed) :
    ∃ machine', graph.execAll behaviour block input (graph.nodeStmts node) machine =
        some machine' ∧
      graph.Listed behaviour block input start (listed ++ [node]) machine' := by
  obtain ⟨temps, ranTemps, setTemps, keptTemps⟩ := @execAll_temps N O S B I V _
    graph behaviour block input (graph.tempsBefore node) machine
  have assigned : ∀ plan, graph.sampleRate plan = true → graph.feeds plan node = true →
      graph.Assigned block input { machine with temps } plan := fun plan rate feeds shared =>
    state.assigned order setTemps keptTemps rate (by simp) feeds shared
  have settled : ∀ plan, graph.sampleRate plan = true → graph.feeds plan node = true →
      graph.Settled listed plan := by
    intro plan rate feeds
    obtain ⟨dest, edge, into⟩ := feeds_iff.mp feeds
    exact direct.settled_next ready (live_into edge into reachable) rate into
  obtain ⟨fields, ranFields, setFields, keptFields⟩ := @execAll_fields N O S B I V _
    graph behaviour block input (graph.scalarParams node) graph.Driven
    (fun edge mem => scalarParams_driven reachable mem)
    (fun edge mem => (settled edge.2 (scalarParams_feeds mem).1 (scalarParams_feeds mem).2).fields)
    accepted.scalar_single { machine with temps }
    (fun edge mem => assigned edge.2 (scalarParams_feeds mem).1 (scalarParams_feeds mem).2)
  have agree : graph.Agree listed machine { machine with temps, fields } := by
    refine ⟨fun _ _ => rfl, fun field free => keptFields field fun edge mem same => ?_, rfl⟩
    subst same
    exact free (scalarParams_driven reachable mem)
  have ranCall := @mapM_readSource N O S B I V graph block input (graph.inputArgs node)
    { machine with temps, fields } fun arg mem shared => by
      obtain ⟨rate, feeds⟩ := inputArgs_feeds mem
      rw [(settled arg.2 rate feeds).sourceValue_eq ((graph.sourcePlan arg.2).shared shared) agree]
      exact assigned arg.2 rate feeds shared
  refine ⟨Machine.step behaviour node { machine with temps, fields }
      ((graph.inputArgs node).map fun arg =>
        (arg.1, graph.sourceNow block input { machine with temps, fields } arg.2)), ?_,
    state.called accepted direct fresh reachable ready ?_ ?_ setFields keptFields rfl⟩
  · rw [nodeStmts, execAll_append, execAll_append, ranTemps, Option.bind_some, ranFields,
      Option.bind_some, execAll_cons, exec, ranCall]
    rfl
  · exact fun plan rate other mem feeds shared =>
      state.assigned order setTemps keptTemps rate mem feeds shared
  · intro plan rate
    refine keptTemps plan fun mem => ?_
    have sampled := (List.mem_filter.mp mem).2
    simp [rate] at sampled

end Onda.Graph.GraphPlan
