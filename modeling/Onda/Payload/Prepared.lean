import Onda.Payload.Pieces

/-!
# Prepared payloads

What `prepare` and `encode` do with a whole payload of a sound plan.

### Calls that do not panic
-/

namespace Onda.Payload

open Regions Wire

section Calm

variable {α β σ : Type}

/-- The call ends with a value or with an error its caller handles. -/
def Calm (call : Checked α) : Prop := call ≠ .error .panicked

theorem Calm.ok (value : α) : Calm (.ok value : Checked α) := by simp [Calm]

theorem Calm.reject (error : PayloadError) : Calm (reject error : Checked α) := by
  simp [Calm, Payload.reject]

theorem Calm.bind {first : Checked α} {next : α → Checked β} (calm : Calm first)
    (calmNext : ∀ value, Calm (next value)) : Calm (first >>= next) := by
  cases first with
  | error failure =>
    intro panicked
    apply calm
    simpa [Bind.bind, Except.bind] using panicked
  | ok value => exact calmNext value

theorem Calm.okOr (error : PayloadError) (value : Option α) : Calm (okOr error value) := by
  cases value with
  | none => exact Calm.reject error
  | some value => exact Calm.ok value

theorem Calm.refuseIf (refused : Prop) [Decidable refused] (error : PayloadError) :
    Calm (refuseIf refused error) := by
  unfold Payload.refuseIf
  split
  · exact Calm.reject error
  · exact Calm.ok ()

theorem Calm.checkedAdd (a b : Nat) : Calm (checkedAdd a b) := by
  unfold Payload.checkedAdd
  split
  · exact Calm.ok _
  · exact Calm.reject _

theorem Calm.checkedMul (a b : Nat) : Calm (checkedMul a b) := by
  unfold Payload.checkedMul
  split
  · exact Calm.ok _
  · exact Calm.reject _

theorem Calm.aligned (offset alignment : Nat) : Calm (aligned offset alignment) :=
  (Calm.checkedAdd _ _).bind fun _ => Calm.ok _

theorem Calm.readLength (bytes : Bytes) (offset : Nat) : Calm (readLength bytes offset) := by
  refine (Calm.checkedAdd _ _).bind fun stop => (Calm.okOr _ _).bind fun field => ?_
  unfold usizeOfI32
  split
  · exact Calm.ok _
  · exact Calm.reject _

variable {tensors : List PayloadTensor} {length : Nat → Nat → σ → Checked (Nat × σ)}
  {visit : Region → σ → Checked σ}

theorem Calm.walkTensors (visits : ∀ region state, Calm (visit region state)) {len : Nat}
    {indices : List Nat} (inside : ∀ index ∈ indices, index < tensors.length) (at' : Walked σ) :
    Calm (walkTensors tensors visit len indices at') := by
  induction indices generalizing at' with
  | nil => exact Calm.ok _
  | cons index indices ih =>
    have here : index < tensors.length := inside index (by simp)
    have found : tensors[index]? = some tensors[index] := List.getElem?_eq_getElem here
    rw [Payload.walkTensors, found]
    exact (Calm.ok _).bind fun leaf => (Calm.checkedMul _ _).bind fun elements =>
      (Calm.checkedMul _ _).bind fun bytes => (Calm.aligned _ _).bind fun prepared =>
      (Calm.checkedAdd _ _).bind fun wireStop => (Calm.checkedAdd _ _).bind fun workspaceStop =>
      (visits _ _).bind fun state => ih (fun index mem => inside index (by simp [mem])) _

theorem Calm.walkParams (reads : ∀ wire workspace state, Calm (length wire workspace state))
    (visits : ∀ region state, Calm (visit region state)) {params : List ParameterPlan}
    (inside : ∀ param ∈ params, ∀ index ∈ param.tensors.indices, index < tensors.length)
    (at' : Walked σ) : Calm (walkParams tensors length visit params at') := by
  induction params generalizing at' with
  | nil => exact Calm.ok _
  | cons param params ih =>
    have head : Calm (walkHead length visit param at') := by
      unfold walkHead
      split
      · exact (Calm.aligned _ _).bind fun prepared => (reads _ _ _).bind fun found =>
          (Calm.checkedAdd _ _).bind fun _ => (Calm.checkedAdd _ _).bind fun _ =>
          (visits _ _).bind fun _ => Calm.ok _
      · exact Calm.ok _
    exact head.bind fun begun => (Calm.walkTensors visits (inside param (by simp)) _).bind
      fun at' => ih (fun param mem => inside param (by simp [mem])) at'

end Calm

/-! ### Sound plans -/

/-- The domain of a leaf has values, and they are values of its type. -/
def DomainFits (encoding : ScalarEncoding) (domain : IntegerDomain) : Prop :=
  domain.min ≤ domain.max ∧
    ((encoding = .i32 ∧ -2 ^ 31 ≤ domain.min ∧ domain.max < 2 ^ 31) ∨
      (encoding = .i64 ∧ -2 ^ 63 ≤ domain.min ∧ domain.max < 2 ^ 63))

/-- What planning ensures. -/
structure PayloadPlan.Sound (plan : PayloadPlan) : Prop where
  inside : ∀ param ∈ plan.params, ∀ index ∈ param.tensors.indices, index < plan.tensors.length
  domains : ∀ leaf ∈ plan.tensors, ∀ domain, leaf.domain = some domain →
    DomainFits leaf.encoding domain

namespace PayloadPlan

/-- The slots of a payload with these lengths, one length for each parameter. -/
def slots (plan : PayloadPlan) (lens : List Nat) : List Slot :=
  Payload.slots plan.tensors plan.params lens

/-- The workspace a payload with these lengths needs. -/
def workspaceExtent (plan : PayloadPlan) (lens : List Nat) : Nat :=
  workspaceEnd (plan.slots lens) 0

/-- **Well-formed payloads.** The input is cut into the pieces that its lengths call for, and
neither form of it is too large. -/
structure Splits (plan : PayloadPlan) (input : Bytes) (lens : List Nat) (pieces : List Bytes) :
    Prop where
  lengths : Lengths plan.params lens
  holds : List.Forall₂ (Holds plan.tensors) (plan.slots lens) pieces
  whole : input = pieces.flatten
  wireFits : input.length ≤ i32Max
  workspaceFits : plan.workspaceExtent lens ≤ i32Max

variable {plan : PayloadPlan} {input workspace : Bytes}

theorem Splits.wireEnd {lens : List Nat} {pieces : List Bytes}
    (splits : plan.Splits input lens pieces) : wireEnd (plan.slots lens) 0 = input.length := by
  rw [Payload.wireEnd, ← holds_length_eq splits.holds, splits.whole, Nat.zero_add]

theorem made_slots (plan : PayloadPlan) (lens : List Nat) :
    ∀ slot ∈ plan.slots lens, slot.Made plan.tensors :=
  slots_made plan.tensors plan.params lens

theorem slots_regular (plan : PayloadPlan) (lens : List Nat) :
    ∀ slot ∈ plan.slots lens, slot.Regular :=
  fun slot mem => (plan.made_slots lens slot mem).regular

theorem zero_le_i32Max : 0 ≤ i32Max := Nat.zero_le _

/-- **Validation.** `required_workspace` accepts the payloads that are well formed. -/
theorem requiredWorkspace_ok_iff (sound : plan.Sound) {required : Nat} :
    plan.requiredWorkspace input = .ok required ↔
      ∃ lens pieces, plan.Splits input lens pieces ∧ required = plan.workspaceExtent lens := by
  simp only [requiredWorkspace, walk, bind_ok_iff, walkParams_ok_iff _ _ sound.inside,
    refuseIf_ok_iff, exists_const, Except.ok.injEq]
  constructor
  · rintro ⟨ends, ⟨lens, lengths, reaches⟩, notShort, notLong, rfl⟩
    obtain ⟨wire, wireFits, extent, workspaceFits, visited⟩ :=
      (reaches_iff _ _ (plan.slots_regular lens) zero_le_i32Max zero_le_i32Max).mp reaches
    have exact' : input.length = ends.wire := by omega
    have summed : input.length = ((plan.slots lens).map Slot.bytes).sum := by
      rw [exact', wire, Payload.wireEnd, Nat.zero_add]
    obtain ⟨pieces, holds, whole⟩ := (@validate_iff plan.tensors _
      (plan.made_slots lens) [] _ _ summed (by simpa [exact'] using wireFits)).mp visited
    exact ⟨lens, pieces, ⟨lengths, holds, whole, by omega, extent.symm.trans_le workspaceFits⟩,
      extent⟩
  · rintro ⟨lens, pieces, splits, rfl⟩
    have wire := splits.wireEnd
    have summed : input.length = ((plan.slots lens).map Slot.bytes).sum := by
      rw [splits.whole, holds_length_eq splits.holds]
    have visited := (@validate_iff plan.tensors _
      (plan.made_slots lens) [] _ 0 summed (by simpa using splits.wireFits)).mpr
      ⟨pieces, splits.holds, splits.whole⟩
    refine ⟨⟨input.length, plan.workspaceExtent lens, ()⟩, ⟨lens, splits.lengths, ?_⟩, by simp,
      by simp, rfl⟩
    exact (reaches_iff _ _ (plan.slots_regular lens) zero_le_i32Max zero_le_i32Max).mpr
      ⟨wire.symm, splits.wireFits, rfl, splits.workspaceFits, visited⟩

theorem Calm.requiredWorkspace (sound : plan.Sound) : Calm (plan.requiredWorkspace input) := by
  unfold PayloadPlan.requiredWorkspace PayloadPlan.walk
  refine Calm.bind (Calm.walkParams (fun wire _ _ => ?_) (fun _ _ => Calm.ok _) sound.inside _)
    fun ends => (Calm.refuseIf _ _).bind fun _ => (Calm.refuseIf _ _).bind fun _ => Calm.ok _
  exact (Calm.readLength _ _).bind fun _ => Calm.ok _

/-- The storage `prepare` leaves for a payload. -/
def stored (plan : PayloadPlan) (bigEndian : Bool) (workspace : Bytes) (lens : List Nat)
    (pieces : List Bytes) : Bytes :=
  writeAll (workspace.take (plan.workspaceExtent lens))
    (images plan.tensors bigEndian (plan.slots lens) pieces 0)

/-- The workspace suits a payload. -/
def Suits (plan : PayloadPlan) (workspace : Bytes) (address : Nat) (lens : List Nat) : Prop :=
  plan.workspaceExtent lens ≤ workspace.length ∧
    (plan.workspaceExtent lens ≠ 0 → address % 8 = 0)

variable {bigEndian : Bool} {address : Nat} {lens : List Nat} {pieces : List Bytes}

/-- **Preparing.** A well-formed payload ends up in a workspace that suits it. -/
theorem prepare_of_splits (sound : plan.Sound) (splits : plan.Splits input lens pieces)
    (suits : plan.Suits workspace address lens) :
    plan.prepare bigEndian input workspace address =
      (.ok ⟨plan, plan.stored bigEndian workspace lens pieces, input.length⟩,
        plan.stored bigEndian workspace lens pieces ++
          workspace.drop (plan.workspaceExtent lens)) := by
  have required := (requiredWorkspace_ok_iff sound).mpr ⟨lens, pieces, splits, rfl⟩
  have room : workspaceEnd (plan.slots lens) 0 ≤
      (workspace.take (plan.workspaceExtent lens)).length := by
    rw [List.length_take]
    exact le_min le_rfl suits.1
  have visited := @prepare_slots plan bigEndian _ _
    (plan.made_slots lens) splits.holds [] _ 0 (by simpa [← splits.whole] using splits.wireFits) room
  rw [List.nil_append, ← splits.whole] at visited
  have walked : plan.walk (fun offset _ storage => do
      let len ← readLength input offset
      .ok (len, storage)) (prepareRegion plan bigEndian input)
      (workspace.take (plan.workspaceExtent lens)) =
        .ok ⟨input.length, plan.workspaceExtent lens,
          plan.stored bigEndian workspace lens pieces⟩ :=
    (walkParams_ok_iff _ _ sound.inside).mpr ⟨lens, splits.lengths,
      (reaches_iff _ _ (plan.slots_regular lens) zero_le_i32Max zero_le_i32Max).mpr
        ⟨splits.wireEnd.symm, splits.wireFits, rfl, splits.workspaceFits, visited⟩⟩
  have alignedWell : ¬(plan.workspaceExtent lens ≠ 0 ∧ address % 8 ≠ 0) := by
    rintro ⟨needed, misaligned⟩
    exact misaligned (suits.2 needed)
  unfold prepare
  simp only [required]
  rw [if_neg suits.1.not_gt, if_neg alignedWell, walked]

/-- **Refusals.** Without a well-formed payload in a workspace that suits it, `prepare` fails
with an error and leaves the workspace. -/
theorem prepare_refuses (sound : plan.Sound)
    (unfit : ∀ lens pieces, plan.Splits input lens pieces → ¬plan.Suits workspace address lens) :
    ∃ error, plan.prepare bigEndian input workspace address = (reject error, workspace) := by
  cases result : plan.requiredWorkspace input with
  | error failure =>
    have calm := @Calm.requiredWorkspace plan input sound
    cases failure with
    | panicked => exact absurd result calm
    | rejected error => exact ⟨error, by simp only [prepare, result, reject]⟩
  | ok required =>
    obtain ⟨lens, pieces, splits, rfl⟩ := (requiredWorkspace_ok_iff sound).mp result
    simp only [prepare, result]
    by_cases short : workspace.length < plan.workspaceExtent lens
    · exact ⟨_, if_pos short⟩
    · have misaligned : plan.workspaceExtent lens ≠ 0 ∧ address % 8 ≠ 0 := by
        by_contra alignedWell
        refine unfit lens pieces splits ⟨by omega, fun needed => ?_⟩
        by_contra misaligned
        exact alignedWell ⟨needed, misaligned⟩
      exact ⟨_, by rw [if_neg short, if_pos misaligned]⟩

/-- The pieces with every scalar in its canonical form. -/
def normalizedPieces (plan : PayloadPlan) (lens : List Nat) (pieces : List Bytes) : List Bytes :=
  List.zipWith (image plan.tensors false) (plan.slots lens) pieces

theorem forall₂_normalized {tensors : List PayloadTensor} {slots : List Slot}
    {pieces : List Bytes} (holds : List.Forall₂ (Holds tensors) slots pieces) :
    List.Forall₂ (Holds tensors) slots (List.zipWith (image tensors false) slots pieces) := by
  induction holds with
  | nil => exact .nil
  | cons here _ ih => exact .cons here.normalized ih

/-- The canonical form of a well-formed payload is well formed. -/
theorem Splits.normalized (splits : plan.Splits input lens pieces) :
    plan.Splits (plan.normalizedPieces lens pieces).flatten lens
      (plan.normalizedPieces lens pieces) := by
  have holds := forall₂_normalized splits.holds
  refine ⟨splits.lengths, holds, rfl, ?_, splits.workspaceFits⟩
  show (List.zipWith _ _ _).flatten.length ≤ _
  rw [holds_length_eq holds, ← holds_length_eq splits.holds, ← splits.whole]
  exact splits.wireFits

/-- **Encoding.** A prepared payload is written out in canonical form. -/
theorem encode_of_splits (sound : plan.Sound) (splits : plan.Splits input lens pieces)
    (room : plan.workspaceExtent lens ≤ workspace.length) {output : Bytes}
    (space : input.length ≤ output.length) :
    PreparedPayload.encode ⟨plan, plan.stored bigEndian workspace lens pieces, input.length⟩
        bigEndian output =
      (.ok input.length, (plan.normalizedPieces lens pieces).flatten ++
        output.drop input.length) := by
  have front : (workspace.take (plan.workspaceExtent lens)).length = plan.workspaceExtent lens := by
    rw [List.length_take]
    omega
  have ascending := @ascending_images _ bigEndian _ _ (plan.made_slots lens) splits.holds 0
    (workspace.take (plan.workspaceExtent lens)).length front.ge
  have sameLength : (plan.normalizedPieces lens pieces).flatten.length = input.length := by
    rw [normalizedPieces, holds_length_eq (forall₂_normalized splits.holds),
      ← holds_length_eq splits.holds, ← splits.whole]
  have visited := @encode_slots plan bigEndian _ _ (plan.made_slots lens)
    splits.holds (plan.stored bigEndian workspace lens pieces) output 0 0 (by rw [stored, length_writeAll ascending, front]; exact le_rfl)
    (read_writeAll ascending) (by rw [← splits.whole, Nat.zero_add]; exact space)
  rw [writeAll_consecutive (by
    rw [Nat.zero_add]
    exact sameLength.le.trans space)] at visited
  have written : write output 0 (plan.normalizedPieces lens pieces).flatten =
      (plan.normalizedPieces lens pieces).flatten ++ output.drop input.length := by
    rw [write, List.take_zero, List.nil_append, Nat.zero_add, sameLength]
  have walked : plan.walk (fun _ offset output => do
      let len ← readPreparedLength bigEndian (plan.stored bigEndian workspace lens pieces) offset
      .ok (len, output))
      (encodeRegion plan bigEndian (plan.stored bigEndian workspace lens pieces)) output =
        .ok ⟨input.length, plan.workspaceExtent lens,
          (plan.normalizedPieces lens pieces).flatten ++ output.drop input.length⟩ :=
    (walkParams_ok_iff _ _ sound.inside).mpr ⟨lens, splits.lengths,
      (reaches_iff _ _ (plan.slots_regular lens) zero_le_i32Max zero_le_i32Max).mpr
        ⟨splits.wireEnd.symm, splits.wireFits, rfl, splits.workspaceFits, written ▸ visited⟩⟩
  unfold PreparedPayload.encode
  rw [if_neg (by show ¬output.length < input.length; omega)]
  simp only [walked]

end PayloadPlan

end Onda.Payload
