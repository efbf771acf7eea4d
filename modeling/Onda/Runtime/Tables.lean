import Onda.Runtime.Checked

/-!
# The tables that bindings stand for

The pointer tables of an instance are rebuilt in place: the input table is written over without
being cleared, and a rebuild that fails leaves a prefix of its writes.  Each rebuild that succeeds
still leaves the table that the bindings stand for, since every one of them writes the same slots.
-/

namespace Onda.Runtime

open Effects
open Onda.Project (Platform f32IsFinite f32LeZero)

variable {W V : Type} (platform : Platform) (program : JitProgram)

/-! ### Computed tables -/

/-- The channel pointers of the endpoints that are bound, written over a table. -/
def fillChannels (rows : List (Option BoundRegion)) (frames : Nat)
    (items : List (DeclaredIo × Nat)) (ptrs : List Nat) : List Nat :=
  items.foldl (fun ptrs item =>
    match (rows[item.2]?).join with
    | some region => channelPtrs platform item.1 region frames ptrs
    | none => ptrs) ptrs

/-- The pointers of the channels of bound endpoints, and null elsewhere. -/
def channelTable (endpoints : List DeclaredIo) (rows : List (Option BoundRegion)) (frames : Nat) :
    List Nat :=
  fillChannels platform rows frames endpoints.zipIdx
    (List.replicate (requiredChannels platform endpoints) 0)

/-- `fallback_channels`, without its limit. -/
def fallbackCount (desc : DeclaredBuffer) : Nat :=
  match desc.channels with
  | .static channels => channels
  | .mono | .dynamic => 1

/-- The descriptor of an unbound buffer. -/
def fallbackRow (config : InstanceConfig) (desc : DeclaredBuffer) : BoundBuffer :=
  ⟨0, 1, fallbackCount desc, config.sampleRate⟩

namespace Instance

variable (inst : Instance)

def inputTable : List Nat :=
  channelTable platform program.inputs inst.inputBindings inst.config.framesPerBlock

def outputTable : List Nat :=
  channelTable platform program.outputs inst.outputBindings inst.config.framesPerBlock

def bufferTable : List BoundBuffer :=
  program.buffers.zipIdx.map fun (desc, idx) =>
    ((inst.bufferBindings[idx]?).join).getD (fallbackRow inst.config desc)

end Instance

/-! ### Slots -/

/-- The slots of a row of endpoints. -/
def Covered (endpoints : List DeclaredIo) (slot : Nat) : Prop :=
  ∃ desc ∈ endpoints, ∃ ch < desc.arrayLen, saturatingAdd platform desc.slotOffset ch = slot

/-- A table of channel pointers of the right size, with null outside the slots of its endpoints. -/
structure Blank (endpoints : List DeclaredIo) (ptrs : List Nat) : Prop where
  length : ptrs.length = requiredChannels platform endpoints
  null : ∀ slot < ptrs.length, ¬Covered platform endpoints slot → ptrs[slot]? = some 0

/-- The endpoint is bound to a region of one block. -/
def Bound (rows : List (Option BoundRegion)) (frames : Nat) (item : DeclaredIo × Nat) : Prop :=
  ∃ region, (rows[item.2]?).join = some region ∧
    region.bytes = platform.saturatingMul (item.1.byteSize platform) frames

variable {platform program}

variable (platform) in
theorem blank_replicate (endpoints : List DeclaredIo) :
    Blank platform endpoints (List.replicate (requiredChannels platform endpoints) 0) where
  length := List.length_replicate
  null := fun slot inside _ => by
    rw [List.length_replicate] at inside
    rw [List.getElem?_replicate, if_pos inside]

/-! ### Channel pointers -/

variable {bindings : Instance → List (Option BoundRegion)} {done : List (DeclaredIo × Nat)}
  {rows : List (Option BoundRegion)} {endpoints : List DeclaredIo} {ptrs : List Nat} {frames : Nat}
  {surface : Surface} {α : Type} {writes : List (Nat × α)}

theorem length_sets (writes : List (Nat × α)) (ptrs : List α) :
    (writes.foldl (fun ptrs write => ptrs.set write.1 write.2) ptrs).length = ptrs.length := by
  induction writes generalizing ptrs with
  | nil => rfl
  | cons write writes ih => rw [List.foldl_cons, ih, List.length_set]

/-- A slot that no write is about keeps its value. -/
theorem sets_ne {slot : Nat} (apart : ∀ write ∈ writes, write.1 ≠ slot) (ptrs : List α) :
    (writes.foldl (fun ptrs write => ptrs.set write.1 write.2) ptrs)[slot]? = ptrs[slot]? := by
  induction writes generalizing ptrs with
  | nil => rfl
  | cons write writes ih =>
    rw [List.foldl_cons, ih fun other mem => apart other (List.mem_cons_of_mem _ mem),
      List.getElem?_set_ne (apart write (List.mem_cons_self ..))]

/-- A row of writes decides the slots that it is about. -/
theorem sets_congr {ptrs ptrs' : List α} (length : ptrs.length = ptrs'.length)
    (same : ∀ slot, (∀ write ∈ writes, write.1 ≠ slot) → ptrs[slot]? = ptrs'[slot]?) :
    writes.foldl (fun ptrs write => ptrs.set write.1 write.2) ptrs =
      writes.foldl (fun ptrs write => ptrs.set write.1 write.2) ptrs' := by
  induction writes generalizing ptrs ptrs' with
  | nil => exact List.ext_getElem? fun slot => same slot fun write mem => by cases mem
  | cons write writes ih =>
    rw [List.foldl_cons, List.foldl_cons]
    refine ih (by rw [List.length_set, List.length_set, length]) fun slot apart => ?_
    by_cases here : write.1 = slot
    · rw [here, List.getElem?_set, List.getElem?_set, if_pos rfl, if_pos rfl, length]
    · rw [List.getElem?_set_ne here, List.getElem?_set_ne here]
      refine same slot fun other mem => ?_
      rcases List.mem_cons.mp mem with rfl | mem
      · exact here
      · exact apart other mem

/-- Writes of what a table already holds leave it as it is. -/
theorem sets_same {ptrs : List α} (held : ∀ write ∈ writes, ptrs[write.1]? = some write.2) :
    writes.foldl (fun ptrs write => ptrs.set write.1 write.2) ptrs = ptrs := by
  induction writes with
  | nil => rfl
  | cons write writes ih =>
    have same : ptrs.set write.1 write.2 = ptrs := by
      obtain ⟨inside, value⟩ := List.getElem?_eq_some_iff.mp (held write (List.mem_cons_self ..))
      rw [← value, List.set_getElem_self]
    rw [List.foldl_cons, same]
    exact ih fun other mem => held other (List.mem_cons_of_mem _ mem)

/-- The writes of an endpoint. -/
def channelWrites (platform : Platform) (desc : DeclaredIo) (region : BoundRegion) (frames : Nat) :
    List (Nat × Nat) :=
  (List.range desc.arrayLen).map fun ch =>
    (saturatingAdd platform desc.slotOffset ch,
      region.ptr + platform.saturatingMul (platform.saturatingMul ch frames)
        (primitiveTypeBytes desc.elemTy))

/-- The writes of the endpoints that are bound. -/
def fillWrites (platform : Platform) (rows : List (Option BoundRegion)) (frames : Nat)
    (items : List (DeclaredIo × Nat)) : List (Nat × Nat) :=
  items.flatMap fun item =>
    match (rows[item.2]?).join with
    | some region => channelWrites platform item.1 region frames
    | none => []

theorem channelPtrs_eq (desc : DeclaredIo) (region : BoundRegion) (frames : Nat)
    (ptrs : List Nat) :
    channelPtrs platform desc region frames ptrs =
      (channelWrites platform desc region frames).foldl
        (fun ptrs write => ptrs.set write.1 write.2) ptrs := by
  unfold channelPtrs channelWrites
  rw [List.foldl_map]

theorem fillChannels_eq (rows : List (Option BoundRegion)) (frames : Nat)
    (items : List (DeclaredIo × Nat)) (ptrs : List Nat) :
    fillChannels platform rows frames items ptrs =
      (fillWrites platform rows frames items).foldl
        (fun ptrs write => ptrs.set write.1 write.2) ptrs := by
  induction items generalizing ptrs with
  | nil => rfl
  | cons item items ih =>
    unfold fillChannels fillWrites
    rw [List.foldl_cons, List.flatMap_cons, List.foldl_append]
    cases (rows[item.2]?).join with
    | some region =>
      show fillChannels platform rows frames items
        (channelPtrs platform item.1 region frames ptrs) = _
      rw [ih, channelPtrs_eq]
      rfl
    | none => exact ih ptrs

/-- Every write of a bound endpoint is about one of its slots. -/
theorem covered_of_mem_fillWrites {items : List (DeclaredIo × Nat)}
    (listed : ∀ item ∈ items, item.1 ∈ endpoints) {write : Nat × Nat}
    (mem : write ∈ fillWrites platform rows frames items) :
    Covered platform endpoints write.1 := by
  obtain ⟨item, inside, mem⟩ := List.mem_flatMap.mp mem
  cases bound : (rows[item.2]?).join with
  | none =>
    rw [bound] at mem
    cases mem
  | some region =>
    rw [bound] at mem
    obtain ⟨ch, inRange, rfl⟩ := List.mem_map.mp mem
    exact ⟨item.1, listed item inside, ch, List.mem_range.mp inRange, rfl⟩

/-- If every endpoint is bound then every slot is written. -/
theorem written_of_covered (bound : ∀ item ∈ endpoints.zipIdx, Bound platform rows frames item)
    {slot : Nat} (covered : Covered platform endpoints slot) :
    ∃ write ∈ fillWrites platform rows frames endpoints.zipIdx, write.1 = slot := by
  obtain ⟨desc, mem, ch, inRange, rfl⟩ := covered
  obtain ⟨idx, inside, rfl⟩ := List.getElem_of_mem mem
  have item : (endpoints[idx], idx) ∈ endpoints.zipIdx := by
    rw [List.mk_mem_zipIdx_iff_getElem?, List.getElem?_eq_getElem inside]
  obtain ⟨region, here, -⟩ := bound _ item
  refine ⟨(saturatingAdd platform endpoints[idx].slotOffset ch,
    region.ptr + platform.saturatingMul (platform.saturatingMul ch frames)
      (primitiveTypeBytes endpoints[idx].elemTy)), List.mem_flatMap.mpr ⟨_, item, ?_⟩, rfl⟩
  dsimp only
  rw [here]
  exact List.mem_map.mpr ⟨ch, List.mem_range.mpr inRange, rfl⟩

theorem listed_of_done (begins : done <+: endpoints.zipIdx)
    : ∀ item ∈ done, item.1 ∈ endpoints := by
  intro item mem
  exact List.fst_mem_of_mem_zipIdx (begins.subset mem)

/-- Writes over a blank table leave a blank table. -/
theorem Blank.fill (blank : Blank platform endpoints ptrs) (rows : List (Option BoundRegion))
    (frames : Nat) (begins : done <+: endpoints.zipIdx) :
    Blank platform endpoints (fillChannels platform rows frames done ptrs) := by
  rw [fillChannels_eq]
  refine ⟨by rw [length_sets, blank.length], fun slot inside free => ?_⟩
  rw [length_sets] at inside
  rw [sets_ne, blank.null slot inside free]
  rintro write mem rfl
  exact free (covered_of_mem_fillWrites (listed_of_done begins) mem)

/-- What a blank table held does not matter to a whole row of writes. -/
theorem Blank.fill_eq (blank : Blank platform endpoints ptrs)
    (bound : ∀ item ∈ endpoints.zipIdx, Bound platform rows frames item) :
    fillChannels platform rows frames endpoints.zipIdx ptrs =
      channelTable platform endpoints rows frames := by
  unfold channelTable
  rw [fillChannels_eq, fillChannels_eq]
  have empty := blank_replicate platform endpoints
  have length : ptrs.length = (List.replicate (requiredChannels platform endpoints) 0).length := by
    rw [blank.length, empty.length]
  refine sets_congr length fun slot apart => ?_
  have free : ¬Covered platform endpoints slot := by
    intro covered
    obtain ⟨write, mem, same⟩ := written_of_covered bound covered
    exact apart write mem same
  by_cases inside : slot < ptrs.length
  · rw [blank.null slot inside free, empty.null slot (length ▸ inside) free]
  · rw [List.getElem?_eq_none_iff.mpr (Nat.le_of_not_lt inside),
      List.getElem?_eq_none_iff.mpr (length ▸ Nat.le_of_not_lt inside)]

variable (platform) in
theorem blank_channelTable (endpoints : List DeclaredIo) (rows : List (Option BoundRegion))
    (frames : Nat) : Blank platform endpoints (channelTable platform endpoints rows frames) :=
  (blank_replicate platform endpoints).fill rows frames (List.prefix_refl _)

/-- A table without slots is the table of any bindings. -/
theorem eq_channelTable_of_required (length : ptrs.length = requiredChannels platform endpoints)
    (none : requiredChannels platform endpoints = 0) (rows : List (Option BoundRegion))
    (frames : Nat) : ptrs = channelTable platform endpoints rows frames := by
  have table := (blank_channelTable platform endpoints rows frames).length
  rw [none] at length table
  rw [List.eq_nil_of_length_eq_zero length, List.eq_nil_of_length_eq_zero table]

/-! ### Rebuilding a table -/

theorem holds_boundRegion {desc : DeclaredIo} {idx : Nat} (now : Active W) :
    Holds (fun active => active = now)
      (boundRegion platform surface desc bindings idx frames : InstanceCall W BoundRegion)
      (fun region active => active = now ∧ ((bindings now.inst)[idx]?).join = some region ∧
        region.bytes = platform.saturatingMul (desc.byteSize platform) frames)
      (fun _ active => active = now ∧
        ¬Bound platform (bindings now.inst) frames (desc, idx)) := by
  refine Holds.bind (Q := fun row active => active = now ∧
    ((bindings now.inst)[idx]?).join = row) (Holds.read ?_) fun row => ?_
  · rintro _ rfl
    exact ⟨rfl, rfl⟩
  · cases row with
    | none =>
      refine Holds.fail fun active before => ⟨before.1, ?_⟩
      rintro ⟨region, here, -⟩
      cases before.2.symm.trans here
    | some region =>
      refine Holds.bind (Q := fun _ active => active = now ∧
        ((bindings now.inst)[idx]?).join = some region ∧
          region.bytes = platform.saturatingMul (desc.byteSize platform) frames)
        (Holds.refuseIf (fun passes active before => ?_) fun fails active before => ?_)
        fun _ => Holds.pure fun _ after => after
      · exact ⟨before.1, before.2, not_not.mp passes⟩
      · refine ⟨before.1, ?_⟩
        rintro ⟨other, here, bytes⟩
        obtain rfl := Option.some.inj (before.2.symm.trans here)
        exact fails bytes

/-- The loop over the endpoints of a surface.  `put` is the instance with a table in the place of
the one that the loop writes. -/
theorem holds_fill (write : DeclaredIo → BoundRegion → InstanceCall W Unit)
    (rows : List (Option BoundRegion)) (put : List Nat → Active W)
    (kept : ∀ ptrs, bindings (put ptrs).inst = rows)
    (writes : ∀ desc region ptrs, write desc region (put ptrs) =
      (.ok (), put (channelPtrs platform desc region frames ptrs)))
    (items : List (DeclaredIo × Nat)) (ptrs : List Nat) :
    Holds (fun active => active = put ptrs)
      (Call.each (fun item => do
        let region ← boundRegion platform surface item.1 bindings item.2 frames
        write item.1 region) items)
      (fun _ active => active = put (fillChannels platform rows frames items ptrs) ∧
        ∀ item ∈ items, Bound platform rows frames item)
      (fun _ active => (∃ done, done <+: items ∧
        active = put (fillChannels platform rows frames done ptrs)) ∧
          ¬∀ item ∈ items, Bound platform rows frames item) := by
  induction items generalizing ptrs with
  | nil => exact Holds.pure fun active before => ⟨before, fun item mem => by cases mem⟩
  | cons item items ih =>
    refine Holds.bind
      (Q := fun _ active => active = put (fillChannels platform rows frames [item] ptrs) ∧
        Bound platform rows frames item) ?_ fun _ => ?_
    · refine Holds.bind
        (Q := fun region active => active = put ptrs ∧ (rows[item.2]?).join = some region ∧
          region.bytes = platform.saturatingMul (item.1.byteSize platform) frames) ?_
        fun region => ?_
      · refine (holds_boundRegion (put ptrs)).imp (fun _ before => before) ?_ ?_
        · intro region active after
          rw [kept] at after
          exact after
        · intro stop active ⟨same, unbound⟩
          rw [kept] at unbound
          exact ⟨⟨[], List.nil_prefix, same⟩, fun all => unbound (all item (List.mem_cons_self ..))⟩
      · rintro active ⟨rfl, here, bytes⟩
        have filled : fillChannels platform rows frames [item] ptrs =
            channelPtrs platform item.1 region frames ptrs := by
          unfold fillChannels
          rw [List.foldl_cons, List.foldl_nil, here]
        rw [writes, filled]
        exact ⟨fun _ _ => ⟨rfl, region, here, bytes⟩, fun _ failed => by cases failed⟩
    · rintro active ⟨rfl, bound⟩
      obtain ⟨ok, failed⟩ := ih (fillChannels platform rows frames [item] ptrs) _ rfl
      refine ⟨fun value same => ?_, fun stop same => ?_⟩
      · obtain ⟨after, all⟩ := ok value same
        exact ⟨after, List.forall_mem_cons.mpr ⟨bound, all⟩⟩
      · obtain ⟨⟨done, begins, after⟩, unbound⟩ := failed stop same
        refine ⟨⟨item :: done, List.cons_prefix_cons.mpr ⟨rfl, begins⟩, after⟩, fun all => ?_⟩
        exact unbound (List.forall_mem_cons.mp all).2

end Onda.Runtime
