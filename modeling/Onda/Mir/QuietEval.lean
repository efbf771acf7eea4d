import Onda.Mir.CorrespondingEval

/-!
# Evaluations that nobody sees

An evaluation that publishes nothing, and that fails only in a run without meaning,
can be left out.  Reading operands and storage is such an evaluation; an index is
one where its bounds mode cannot fail.
-/

namespace Onda.Mir

open Structured Structured.Eval

/-- Nobody sees the evaluation, and it only escapes. -/
abbrev Quiet {α : Type} (env : Memory) (action : Run α) : Prop :=
  observer.Quiet env (fun _ => True) action

namespace Quiet

variable {α β γ : Type} {env : Memory}

theorem pure (value : α) : Quiet env (Pure.pure value : Run α) := Sat.pure trivial

theorem throw {reason : Stop} (escapes : reason.Escapes) :
    Quiet env (Eval.throw reason : Run α) := Sat.throw escapes

theorem ask : Quiet env (Eval.ask : Run Memory) := Sat.ask.mono fun _ _ => trivial

theorem orThrow {reason : Stop} (escapes : reason.Escapes) (option : Option α) :
    Quiet env (Eval.orThrow reason option : Run α) :=
  (Sat.orThrow fun _ => escapes).mono fun _ _ => trivial

theorem require {reason : Stop} (escapes : reason.Escapes) (condition : Bool) :
    Quiet env (Eval.require condition reason : Run Unit) :=
  (Sat.require fun _ => escapes).mono fun _ _ => trivial

theorem read (activation : Nat) (access : Access) :
    Quiet env (Eval.emit (.read activation access) : Run Unit) :=
  Sat.mono (Q := fun _ => True) (Sat.emit fun _ => rfl) fun _ _ => trivial

theorem bind {first : Run α} {next : α → Run β} (head : Quiet env first)
    (tail : ∀ value, Quiet env (next value)) : Quiet env (first >>= next) :=
  Sat.bind head fun value _ => tail value

/-- A sequence whose second half depends on what the first one returns. -/
theorem seq {Q : α → Prop} {first : Run α} {next : α → Run β} (head : Quiet env first)
    (known : Returns env Q first) (tail : ∀ value, Q value → Quiet env (next value)) :
    Quiet env (first >>= next) :=
  Sat.bind (head.combine known) tail

theorem map {f : α → β} {action : Run α} (quiet : Quiet env action) :
    Quiet env (f <$> action) :=
  Sat.map quiet fun _ _ => trivial

theorem mapM {list : List γ} {f : γ → Run α} (each : ∀ element ∈ list, Quiet env (f element)) :
    Quiet env (list.mapM f) :=
  (Sat.mapM each).mono fun _ _ => trivial

theorem foldlM {list : List γ} {f : α → γ → Run α} {start : α}
    (step : ∀ value, ∀ element ∈ list, Quiet env (f value element)) :
    Quiet env (list.foldlM f start) :=
  Sat.foldlM trivial fun value element mem _ => step value element mem

end Quiet

section Operands

variable {machine : Machine} {act : Activation} {env : Memory}

theorem missing_escapes (object : Object) : (missing object).Escapes := by
  cases object <;> trivial

theorem readLeaf_quiet (loc : Loc) (leaf : Path × LeafKind) :
    Quiet env (readLeaf machine loc leaf) := by
  unfold readLeaf
  split
  · split
    · exact .pure _
    · exact .throw (by exact trivial)
  · refine .bind .ask fun memory => .bind (.orThrow (missing_escapes _) _) fun content => ?_
    exact .bind (.require (by exact trivial) _) fun _ => .pure _

theorem fetch_quiet (loc : Loc) : Quiet env (fetch machine loc) :=
  .bind (.orThrow (by exact trivial) _) fun _ => .mapM fun leaf _ => readLeaf_quiet loc leaf

theorem readLoc_quiet (loc : Loc) : Quiet env (readLoc machine act loc) :=
  .bind (.orThrow (by exact trivial) _) fun _ => .bind (.read _ _) fun _ =>
    .mapM fun leaf _ => readLeaf_quiet loc leaf

theorem storeLoc_quiet (loc : Loc) (data : Data) (frame : Bool) :
    Quiet env (storeLoc machine loc data frame) :=
  .bind (.orThrow (by exact trivial) _) fun _ => .bind (.require (by exact trivial) _) fun _ => .pure _

theorem loadElement_quiet (element : Element) : Quiet env (loadElement machine act element) := by
  refine .bind (.read _ _) fun _ => ?_
  split
  · exact .pure _
  · refine .bind .ask fun memory => .bind (.orThrow (missing_escapes _) _) fun content => ?_
    split
    · exact .bind (.require (by exact trivial) _) fun _ => .pure _
    · exact .throw (by exact trivial)

theorem evalValue_quiet (value : Value) : Quiet env (evalValue machine act value) := by
  cases value with
  | constant value => exact .pure _
  | localVar localId => exact .bind (.orThrow (by exact trivial) _) fun loc => fetch_quiet loc

theorem evalLeaf_quiet (value : Value) : Quiet env (evalLeaf machine act value) := by
  refine .bind (evalValue_quiet value) fun data => ?_
  split
  · exact .pure _
  · exact .throw (by exact trivial)

theorem evalScalar_quiet (value : Value) : Quiet env (evalScalar machine act value) := by
  refine .bind (evalLeaf_quiet value) fun leaf => ?_
  split
  · exact .pure _
  · exact .throw (by exact trivial)

theorem evalI32_quiet (value : Value) : Quiet env (evalI32 machine act value) := by
  refine .bind (evalScalar_quiet value) fun scalar => ?_
  split
  · exact .pure _
  · exact .throw (by exact trivial)

theorem evalSlice_quiet (value : Value) : Quiet env (evalSlice machine act value) := by
  refine .bind (evalLeaf_quiet value) fun leaf => ?_
  split
  · exact .pure _
  · exact .throw (by exact trivial)

end Operands

/-- An operand that has been evaluated in the source still corresponds. -/
theorem evaluated_corresponds {machine : Machine} {functions : List Function} {world : World}
    {memory memory' : Memory} {act act' : Activation} (memories : world.Memories memory memory')
    (acts : world.Activations act act') {value value' : Value}
    (rewritten : rewriteValue (world.mapping act) value = some value') {data : Data}
    (evaluated : (evalValue machine act value memory).2 = .ok data) :
    Refines observer memory memory' world.Datas (Pure.pure data : Run Data)
      (evalValue (machine.withFunctions functions) act' value') where
  error := by simp
  value := by
    rintro _ ⟨⟩
    obtain ⟨data', evaluated', datas, same⟩ :=
      (@evalValue_corresponds machine functions _ _ _ _ _ memories acts _ _ rewritten).value data
        evaluated
    refine ⟨data', evaluated', datas, ?_⟩
    have hidden := (@evalValue_quiet machine act memory value).events fun _ _ => trivial
    exact (Observer.Same.hidden (by simp) hidden).trans same

end Onda.Mir
