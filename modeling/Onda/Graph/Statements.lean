import Onda.Graph.Emission

/-!
# Lists of graph statements

What each of the emitted lists does to a machine.  A source is settled with respect to some nodes
when it reads outputs of those nodes only and no field that a sample-rate edge drives: its value
then stays as the other nodes run.
-/

namespace Onda.Graph.GraphPlan

variable {N O S B I V : Type} [LinearOrder N] {graph : GraphPlan N O B I V}
  {behaviour : Behaviour N O S V} {block : B} {input : I}

/-! ### Members of the lists -/

variable {edge : Field N × Fin graph.count} {plan : Fin graph.count}
  {other : Fin graph.count × GraphDest N} {machine machine' : Machine graph.count N O S V}
  {node : N}

theorem mem_arrayParams :
    edge ∈ graph.arrayParams ↔ ∃ node param, (edge.2, .procParam node param true) ∈ graph.edges ∧
      edge.1 = .param node param ∧ graph.sampleRate edge.2 = true ∧
        node ∈ graph.reachableNodes := by
  unfold arrayParams
  rw [List.mem_filterMap]
  constructor
  · rintro ⟨⟨plan, dest⟩, mem, same⟩
    cases dest with
    | topOutput name => cases same
    | procInput node port array => cases same
    | procParam node param array =>
      cases array with
      | false => cases same
      | true =>
        dsimp only at same
        split at same
        · rename_i holds
          obtain rfl := Option.some.inj same
          exact ⟨node, param, mem, rfl, holds.1, graph.isReachable_iff.mp holds.2⟩
        · cases same
  · rintro ⟨node, param, mem, field, rate, reachable⟩
    refine ⟨_, mem, ?_⟩
    dsimp only
    rw [if_pos ⟨rate, graph.isReachable_iff.mpr reachable⟩, ← field]

theorem mem_scalarParams :
    edge ∈ graph.scalarParams node ↔ ∃ param,
      (edge.2, .procParam node param false) ∈ graph.edges ∧ edge.1 = .param node param ∧
        graph.sampleRate edge.2 = true := by
  unfold scalarParams
  rw [List.mem_filterMap]
  constructor
  · rintro ⟨⟨plan, dest⟩, mem, same⟩
    cases dest with
    | topOutput name => cases same
    | procInput other port array => cases same
    | procParam other param array =>
      cases array with
      | true => cases same
      | false =>
        dsimp only at same
        split at same
        · rename_i holds
          obtain ⟨rate, rfl⟩ := holds
          obtain rfl := Option.some.inj same
          exact ⟨param, mem, rfl, rate⟩
        · cases same
  · rintro ⟨param, mem, field, rate⟩
    refine ⟨_, mem, ?_⟩
    dsimp only
    rw [if_pos ⟨rate, rfl⟩, ← field]

theorem mem_inputArgs {arg : String × Fin graph.count} :
    arg ∈ graph.inputArgs node ↔ ∃ array, (arg.2, .procInput node arg.1 array) ∈ graph.edges ∧
      graph.sampleRate arg.2 = true := by
  unfold inputArgs
  rw [List.mem_filterMap]
  constructor
  · rintro ⟨⟨plan, dest⟩, mem, same⟩
    cases dest with
    | topOutput name => cases same
    | procParam other param array => cases same
    | procInput other port array =>
      dsimp only at same
      split at same
      · rename_i holds
        obtain ⟨rate, rfl⟩ := holds
        obtain rfl := Option.some.inj same
        exact ⟨array, mem, rate⟩
      · cases same
  · rintro ⟨array, mem, rate⟩
    refine ⟨_, mem, ?_⟩
    dsimp only
    rw [if_pos ⟨rate, rfl⟩]

theorem mem_blockParams :
    edge ∈ graph.blockParams ↔ ∃ node param array,
      (edge.2, .procParam node param array) ∈ graph.edges ∧ edge.1 = .param node param ∧
        graph.sampleRate edge.2 = false ∧ node ∈ graph.reachableNodes := by
  unfold blockParams
  rw [List.mem_filterMap]
  constructor
  · rintro ⟨⟨plan, dest⟩, mem, same⟩
    cases dest with
    | topOutput name => cases same
    | procInput node port array => cases same
    | procParam node param array =>
      dsimp only at same
      split at same
      · rename_i holds
        obtain rfl := Option.some.inj same
        exact ⟨node, param, array, mem, rfl, holds.1, graph.isReachable_iff.mp holds.2⟩
      · cases same
  · rintro ⟨node, param, array, mem, field, rate, reachable⟩
    refine ⟨_, mem, ?_⟩
    dsimp only
    rw [if_pos ⟨rate, graph.isReachable_iff.mpr reachable⟩, ← field]

omit [LinearOrder N] in
theorem mem_outputEdges {edge : String × Fin graph.count} :
    edge ∈ graph.outputEdges ↔ (edge.2, .topOutput edge.1) ∈ graph.edges := by
  unfold outputEdges
  rw [List.mem_filterMap]
  constructor
  · rintro ⟨⟨plan, dest⟩, mem, same⟩
    cases dest with
    | topOutput name =>
      obtain rfl := Option.some.inj same
      exact mem
    | procInput node port array => cases same
    | procParam node param array => cases same
  · intro mem
    exact ⟨_, mem, rfl⟩

theorem feeds_iff :
    graph.feeds plan node = true ↔
      ∃ dest, (plan, dest) ∈ graph.edges ∧ dest.node? = some node := by
  unfold feeds
  rw [List.any_eq_true]
  constructor
  · rintro ⟨⟨other, dest⟩, mem, holds⟩
    simp only [decide_eq_true_eq] at holds
    obtain ⟨rfl, into⟩ := holds
    exact ⟨dest, mem, into⟩
  · rintro ⟨dest, mem, into⟩
    exact ⟨(plan, dest), mem, by simp [into]⟩

/-- Edges with one key are one edge. -/
theorem Accepted.unique (accepted : graph.Accepted) {edge : Fin graph.count × GraphDest N}
    (mem : edge ∈ graph.edges) (mem' : other ∈ graph.edges) (same : edge.2.key = other.2.key) :
    edge = other :=
  List.inj_on_of_nodup_map accepted.singleWriter mem mem' same

/-- A field has one driver. -/
theorem Accepted.driver_unique (accepted : graph.Accepted) {edge : Fin graph.count × GraphDest N}
    (mem : edge ∈ graph.edges) (mem' : other ∈ graph.edges) {field field' : Field N}
    (key : edge.2.key = .inr field) (key' : other.2.key = .inr field') (same : field = field')
    : edge = other :=
  accepted.unique mem mem' (by rw [key, key', same])

/-! ### Values of sources -/

/-- A field that a live sample-rate edge drives. -/
def Driven (graph : GraphPlan N O B I V) (field : Field N) : Prop :=
  ∃ edge, graph.Live edge ∧ graph.sampleRate edge.1 = true ∧ edge.2.key = .inr field

/-- What a destination of a plan should get. -/
def sourceNow (graph : GraphPlan N O B I V) (block : B) (input : I)
    (machine : Machine graph.count N O S V) (plan : Fin graph.count) : V :=
  if 0 < (graph.sourcePlan plan).delay then (machine.lines plan).read
  else graph.sourceValue block input machine plan

/-- The plan reads these nodes only, and no driven field. -/
structure Settled (graph : GraphPlan N O B I V) (listed : List N) (plan : Fin graph.count) :
    Prop where
  deps : (graph.sourcePlan plan).delay = 0 → ∀ dep ∈ (graph.sourcePlan plan).deps, dep ∈ listed
  fields : ∀ field ∈ (graph.sourcePlan plan).fieldReads, ¬graph.Driven field

/-- Two machines that differ in what is driven and in what other nodes put out. -/
structure Agree (graph : GraphPlan N O B I V) (listed : List N)
    (machine machine' : Machine graph.count N O S V) : Prop where
  outs : ∀ node ∈ listed, machine'.outs node = machine.outs node
  fields : ∀ field, ¬graph.Driven field → machine'.fields field = machine.fields field
  lines : machine'.lines = machine.lines

/-- A settled source keeps its value. -/
theorem Settled.sourceValue_eq {listed : List N} (settled : graph.Settled listed plan)
    (undelayed : (graph.sourcePlan plan).delay = 0) (agree : graph.Agree listed machine machine') :
    graph.sourceValue block input machine' plan = graph.sourceValue block input machine plan :=
  (graph.sourcePlan plan).reads block input
    (fun dep mem => agree.outs dep (settled.deps undelayed dep mem))
    fun field mem => agree.fields field (settled.fields field mem)

theorem Settled.sourceNow_eq {listed : List N} (settled : graph.Settled listed plan)
    (agree : graph.Agree listed machine machine') :
    graph.sourceNow block input machine' plan = graph.sourceNow block input machine plan := by
  unfold sourceNow
  by_cases delay : 0 < (graph.sourcePlan plan).delay
  · rw [if_pos delay, if_pos delay, agree.lines]
  · rw [if_neg delay, if_neg delay, settled.sourceValue_eq (by omega) agree]

/-- The temporary of a plan, if it has one, holds the value of its source. -/
def Assigned (graph : GraphPlan N O B I V) (block : B) (input : I)
    (machine : Machine graph.count N O S V) (plan : Fin graph.count) : Prop :=
  (graph.sourcePlan plan).sharedTmp = true →
    machine.temps plan = some (graph.sourceValue block input machine plan)

omit [LinearOrder N] in
theorem Assigned.readSource_eq {plan : Fin graph.count} {machine : Machine graph.count N O S V}
    (assigned : graph.Assigned block input machine plan) :
    graph.readSource block input machine plan =
      some (graph.sourceNow block input machine plan) := by
  unfold readSource sourceNow
  by_cases delay : 0 < (graph.sourcePlan plan).delay
  · rw [if_pos delay, if_pos delay]
  · rw [if_neg delay, if_neg delay]
    by_cases shared : (graph.sourcePlan plan).sharedTmp = true
    · rw [if_pos shared, assigned shared]
    · rw [if_neg shared]

/-! ### Statements -/

theorem execAll_append (first second : List (GraphStmt graph.count N))
    (machine : Machine graph.count N O S V) :
    graph.execAll behaviour block input (first ++ second) machine =
      (graph.execAll behaviour block input first machine).bind
        (graph.execAll behaviour block input second) :=
  List.foldlM_append

theorem execAll_cons (stmt : GraphStmt graph.count N) (stmts : List (GraphStmt graph.count N))
    (machine : Machine graph.count N O S V) :
    graph.execAll behaviour block input (stmt :: stmts) machine =
      (graph.exec behaviour block input machine stmt).bind
        (graph.execAll behaviour block input stmts) :=
  List.foldlM_cons

/-- Temporaries. -/
theorem execAll_temps (plans : List (Fin graph.count)) (machine : Machine graph.count N O S V) :
    ∃ temps, graph.execAll behaviour block input (plans.map .temp) machine =
        some { machine with temps } ∧
      (∀ plan ∈ plans, temps plan = some (graph.sourceValue block input machine plan)) ∧
      ∀ plan ∉ plans, temps plan = machine.temps plan := by
  induction plans generalizing machine with
  | nil => exact ⟨machine.temps, rfl, by simp, by simp⟩
  | cons plan plans ih =>
    rw [List.map_cons, execAll_cons, exec, Option.bind_some]
    obtain ⟨temps, ran, set, kept⟩ := ih { machine with
      temps := Function.update machine.temps plan
        (some (graph.sourceValue block input machine plan)) }
    refine ⟨temps, ran, fun other mem => ?_, fun other new => ?_⟩
    · by_cases here : other ∈ plans
      · exact set other here
      · obtain rfl : other = plan := (List.mem_cons.mp mem).resolve_right here
        exact (kept other here).trans (Function.update_self _ _ _)
    · rw [List.mem_cons, not_or] at new
      exact (kept other new.2).trans (Function.update_of_ne new.1 _ _)

/-- Writes of driven fields. -/
theorem execAll_fields (edges : List (Field N × Fin graph.count)) (targets : Field N → Prop)
    (writes : ∀ edge ∈ edges, targets edge.1)
    (reads : ∀ edge ∈ edges, ∀ field ∈ (graph.sourcePlan edge.2).fieldReads, ¬targets field)
    (single : ∀ edge ∈ edges, ∀ other ∈ edges, edge.1 = other.1 → edge.2 = other.2)
    (machine : Machine graph.count N O S V)
    (assigned : ∀ edge ∈ edges, graph.Assigned block input machine edge.2) :
    ∃ fields, graph.execAll behaviour block input
        (edges.map fun edge => .assignField edge.1 edge.2) machine =
          some { machine with fields } ∧
      (∀ edge ∈ edges, fields edge.1 = graph.sourceNow block input machine edge.2) ∧
      ∀ field, (∀ edge ∈ edges, edge.1 ≠ field) → fields field = machine.fields field := by
  induction edges generalizing machine with
  | nil => exact ⟨machine.fields, rfl, by simp, fun _ _ => rfl⟩
  | cons edge edges ih =>
    rw [List.map_cons, execAll_cons, exec, (assigned edge List.mem_cons_self).readSource_eq,
      Option.map_some, Option.bind_some]
    have same : ∀ other ∈ edges, graph.sourceValue block input { machine with
        fields := Function.update machine.fields edge.1
          (graph.sourceNow block input machine edge.2) } other.2 =
        graph.sourceValue block input machine other.2 := by
      intro other mem
      refine (graph.sourcePlan other.2).reads block input (fun _ _ => rfl) fun field read => ?_
      refine Function.update_of_ne ?_ _ _
      rintro rfl
      exact reads other (List.mem_cons_of_mem _ mem) _ read (writes edge List.mem_cons_self)
    obtain ⟨fields, ran, set, kept⟩ := ih
      (fun other mem => writes other (List.mem_cons_of_mem _ mem))
      (fun other mem => reads other (List.mem_cons_of_mem _ mem))
      (fun first mem second mem' => single first (List.mem_cons_of_mem _ mem) second
        (List.mem_cons_of_mem _ mem'))
      { machine with
        fields := Function.update machine.fields edge.1
          (graph.sourceNow block input machine edge.2) }
      (fun other mem shared => by
        rw [same other mem]
        exact assigned other (List.mem_cons_of_mem _ mem) shared)
    have now : ∀ other ∈ edges, graph.sourceNow block input { machine with
        fields := Function.update machine.fields edge.1
          (graph.sourceNow block input machine edge.2) } other.2 =
        graph.sourceNow block input machine other.2 := by
      intro other mem
      unfold sourceNow at same ⊢
      rw [same other mem]
    refine ⟨fields, ran, fun other mem => ?_, fun field new => ?_⟩
    · rcases List.mem_cons.mp mem with rfl | mem
      · by_cases again : ∃ later ∈ edges, later.1 = other.1
        · obtain ⟨later, mem, key⟩ := again
          rw [← key, set later mem, now later mem,
            single later (List.mem_cons_of_mem _ mem) other List.mem_cons_self key]
        · exact (kept other.1 fun later mem key => again ⟨later, mem, key⟩).trans
            (Function.update_self _ _ _)
      · rw [set other mem, now other mem]
    · exact (kept field fun later mem => new later (List.mem_cons_of_mem _ mem)).trans
        (Function.update_of_ne (new edge List.mem_cons_self).symm _ _)

/-- Graph outputs. -/
theorem execAll_outputs (edges : List (String × Fin graph.count))
    (single : ∀ edge ∈ edges, ∀ other ∈ edges, edge.1 = other.1 → edge.2 = other.2)
    (machine : Machine graph.count N O S V)
    (assigned : ∀ edge ∈ edges, graph.Assigned block input machine edge.2) :
    ∃ outputs, graph.execAll behaviour block input
        (edges.map fun edge => .assignOutput edge.1 edge.2) machine =
          some { machine with outputs } ∧
      ∀ edge ∈ edges, outputs edge.1 = graph.sourceNow block input machine edge.2 := by
  suffices all : ∃ outputs, graph.execAll behaviour block input
        (edges.map fun edge => .assignOutput edge.1 edge.2) machine =
          some { machine with outputs } ∧
      (∀ edge ∈ edges, outputs edge.1 = graph.sourceNow block input machine edge.2) ∧
      ∀ name, (∀ edge ∈ edges, edge.1 ≠ name) → outputs name = machine.outputs name by
    obtain ⟨outputs, ran, set, -⟩ := all
    exact ⟨outputs, ran, set⟩
  induction edges generalizing machine with
  | nil => exact ⟨machine.outputs, rfl, by simp, fun _ _ => rfl⟩
  | cons edge edges ih =>
    rw [List.map_cons, execAll_cons, exec, (assigned edge List.mem_cons_self).readSource_eq,
      Option.map_some, Option.bind_some]
    obtain ⟨outputs, ran, set, kept⟩ := ih
      (fun first mem second mem' => single first (List.mem_cons_of_mem _ mem) second
        (List.mem_cons_of_mem _ mem'))
      { machine with
        outputs := Function.update machine.outputs edge.1
          (graph.sourceNow block input machine edge.2) }
      (fun other mem => assigned other (List.mem_cons_of_mem _ mem))
    refine ⟨outputs, ran, fun other mem => ?_, fun name new => ?_⟩
    · rcases List.mem_cons.mp mem with rfl | mem
      · by_cases again : ∃ later ∈ edges, later.1 = other.1
        · obtain ⟨later, mem, key⟩ := again
          rw [← key, set later mem,
            single later (List.mem_cons_of_mem _ mem) other List.mem_cons_self key]
          rfl
        · exact (kept other.1 fun later mem key => again ⟨later, mem, key⟩).trans
            (Function.update_self _ _ _)
      · exact set other mem
    · exact (kept name fun later mem => new later (List.mem_cons_of_mem _ mem)).trans
        (Function.update_of_ne (new edge List.mem_cons_self).symm _ _)

/-- Write-backs of delay lines. -/
theorem execAll_pushes (plans : List (Fin graph.count)) (distinct : plans.Nodup)
    (machine : Machine graph.count N O S V) :
    ∃ lines, graph.execAll behaviour block input (plans.map .push) machine =
        some { machine with lines } ∧
      (∀ plan ∈ plans, lines plan = (machine.lines plan).push (graph.sourcePlan plan).delay
        (graph.sourceValue block input machine plan)) ∧
      ∀ plan ∉ plans, lines plan = machine.lines plan := by
  induction plans generalizing machine with
  | nil => exact ⟨machine.lines, rfl, by simp, fun _ _ => rfl⟩
  | cons plan plans ih =>
    obtain ⟨fresh, distinct⟩ := List.nodup_cons.mp distinct
    rw [List.map_cons, execAll_cons, exec, Option.bind_some]
    obtain ⟨lines, ran, set, kept⟩ := ih distinct { machine with
      lines := Function.update machine.lines plan
        ((machine.lines plan).push (graph.sourcePlan plan).delay
          (graph.sourceValue block input machine plan)) }
    refine ⟨lines, ran, fun other mem => ?_, fun other new => ?_⟩
    · rcases List.mem_cons.mp mem with rfl | later
      · exact (kept other fresh).trans (Function.update_self _ _ _)
      · rw [set other later]
        have apart : other ≠ plan := by
          rintro rfl
          exact fresh later
        have line : Function.update machine.lines plan ((machine.lines plan).push
            (graph.sourcePlan plan).delay (graph.sourceValue block input machine plan)) other =
              machine.lines other := Function.update_of_ne apart _ _
        exact congrArg (fun line => DelayLine.push _ line _) line
    · rw [List.mem_cons, not_or] at new
      exact (kept other new.2).trans (Function.update_of_ne new.1 _ _)

omit [LinearOrder N] in
/-- The arguments of a call. -/
theorem mapM_readSource (args : List (String × Fin graph.count))
    (machine : Machine graph.count N O S V)
    (assigned : ∀ arg ∈ args, graph.Assigned block input machine arg.2) :
    (args.mapM fun arg =>
      (graph.readSource block input machine arg.2).map fun value => (arg.1, value)) =
        some (args.map fun arg => (arg.1, graph.sourceNow block input machine arg.2)) := by
  induction args with
  | nil => rfl
  | cons arg args ih =>
    rw [List.mapM_cons, (assigned arg List.mem_cons_self).readSource_eq,
      ih fun other mem => assigned other (List.mem_cons_of_mem _ mem)]
    rfl

end Onda.Graph.GraphPlan
