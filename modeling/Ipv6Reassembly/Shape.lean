import Mathlib.Data.List.Perm.Basic
import Ipv6Reassembly.Engine

/-!
# The shape of the heap

The structural invariant of the engine reads only the links of the records: `Skeleton` keeps, of
a state, the table, the ends of the timer list, and of every live record the fields that link it
(`SourceLinks`, `FlowLinks`). `Realizes k g` says that the links of `k` spell out the lists of the
`Shape` `g` — the chain of every bucket, the flows of every source, and the timer list — as
well-formed doubly-linked lists, that every live record is on them exactly once, that every
source sits in the bucket its `row` names, every flow points back to its source and every timer
to its flow.

The operations that only touch data (the memory counters, the stored unfragmentable part, the
declared length, the fragments, the setters) keep the skeleton as it is (`skeleton_charge`, …),
so the invariant survives them for free.
-/

namespace Ipv6Reassembly

/-- The link fields of a source record. -/
structure SourceLinks where
  flows : Ptr
  row : Nat
  prev : Ptr
  next : Ptr
deriving DecidableEq, Inhabited

/-- The link fields of a flow record and of its timer. -/
structure FlowLinks where
  next : Ptr
  prev : Ptr
  source : Ptr
  timerNext : Ptr
  timerPrev : Ptr
  data : Ptr
deriving DecidableEq, Inhabited

/-- The links of a source record. -/
def Source.links (r : Source) : SourceLinks := ⟨r.flows, r.row.toNat, r.prev, r.next⟩

/-- The links of a flow record. -/
def Flow.links (r : Flow) : FlowLinks :=
  ⟨r.next, r.prev, r.source, r.timer.next, r.timer.prev, r.timer.data⟩

@[simp] theorem Source.links_flows (r : Source) : r.links.flows = r.flows := rfl
@[simp] theorem Source.links_row (r : Source) : r.links.row = r.row.toNat := rfl
@[simp] theorem Source.links_prev (r : Source) : r.links.prev = r.prev := rfl
@[simp] theorem Source.links_next (r : Source) : r.links.next = r.next := rfl
@[simp] theorem Flow.links_next (r : Flow) : r.links.next = r.next := rfl
@[simp] theorem Flow.links_prev (r : Flow) : r.links.prev = r.prev := rfl
@[simp] theorem Flow.links_source (r : Flow) : r.links.source = r.source := rfl
@[simp] theorem Flow.links_timerNext (r : Flow) : r.links.timerNext = r.timer.next := rfl
@[simp] theorem Flow.links_timerPrev (r : Flow) : r.links.timerPrev = r.timer.prev := rfl
@[simp] theorem Flow.links_data (r : Flow) : r.links.data = r.timer.data := rfl

/-- What the structural invariant reads of a state. -/
structure Skeleton where
  table : Nat → Ptr
  tableSize : Nat
  timerHead : Ptr
  timerTail : Ptr
  sources : Ptr → Option SourceLinks
  flows : Ptr → Option FlowLinks
  brk : Nat

/-- The skeleton of a state. -/
def State.skeleton (s : State) : Skeleton :=
  ⟨s.table, s.tableSize.toNat, s.timerHead, s.timerTail, fun p => (s.sources p).map Source.links,
    fun f => (s.flows f).map Flow.links, s.brk⟩

namespace Skeleton

/-- The links of the source at `p`. -/
def source (k : Skeleton) (p : Ptr) : SourceLinks := (k.sources p).getD default

/-- The links of the flow at `f`. -/
def flow (k : Skeleton) (f : Ptr) : FlowLinks := (k.flows f).getD default

def sourceNext (k : Skeleton) (p : Ptr) : Ptr := (k.source p).next
def sourcePrev (k : Skeleton) (p : Ptr) : Ptr := (k.source p).prev
def flowNext (k : Skeleton) (f : Ptr) : Ptr := (k.flow f).next
def flowPrev (k : Skeleton) (f : Ptr) : Ptr := (k.flow f).prev
def timerNext (k : Skeleton) (f : Ptr) : Ptr := (k.flow f).timerNext
def timerPrev (k : Skeleton) (f : Ptr) : Ptr := (k.flow f).timerPrev

/-- Put a source record with links `v` at `p`. -/
@[simps table tableSize timerHead timerTail flows brk]
def setSource (k : Skeleton) (p : Ptr) (v : SourceLinks) : Skeleton :=
  { k with sources := write k.sources p (some v) }

/-- Free the source record at `p`. -/
@[simps table tableSize timerHead timerTail flows brk]
def freeSource (k : Skeleton) (p : Ptr) : Skeleton := { k with sources := write k.sources p none }

/-- Put a flow record with links `v` at `f`. -/
@[simps table tableSize timerHead timerTail sources brk]
def setFlow (k : Skeleton) (f : Ptr) (v : FlowLinks) : Skeleton :=
  { k with flows := write k.flows f (some v) }

/-- Free the flow record at `f`. -/
@[simps table tableSize timerHead timerTail sources brk]
def freeFlow (k : Skeleton) (f : Ptr) : Skeleton := { k with flows := write k.flows f none }

/-- Point bucket `i` at `p`. -/
@[simps tableSize timerHead timerTail sources flows brk]
def setTable (k : Skeleton) (i : Nat) (p : Ptr) : Skeleton := { k with table := write k.table i p }

/-- Point the head of the timer list at `t`. -/
@[simps table tableSize timerTail sources flows brk]
def setTimerHead (k : Skeleton) (t : Ptr) : Skeleton := { k with timerHead := t }

/-- Point the tail of the timer list at `t`. -/
@[simps table tableSize timerHead sources flows brk]
def setTimerTail (k : Skeleton) (t : Ptr) : Skeleton := { k with timerTail := t }

/-- Rewrite the links of the source at `p`; a write to no record is dropped. -/
@[simps table tableSize timerHead timerTail flows brk]
def modifySource (k : Skeleton) (p : Ptr) (h : SourceLinks → SourceLinks) : Skeleton :=
  { k with sources := write k.sources p ((k.sources p).map h) }

/-- Rewrite the links of the flow at `f`; a write to no record is dropped. -/
@[simps table tableSize timerHead timerTail sources brk]
def modifyFlow (k : Skeleton) (f : Ptr) (h : FlowLinks → FlowLinks) : Skeleton :=
  { k with flows := write k.flows f ((k.flows f).map h) }

/-! The link surgery of each routine of the engine, read off its code: what `addTimer`,
`deleteTimer`, `deleteFlow`, the end of `deleteSource` (`removeSource`) and the creating branches of
`findOrCreateSource` and `findOrCreateFlow` write into the links. -/

/-- The links `dpi_reassembly_add_timer` writes. -/
def addTimer (k : Skeleton) (t : Ptr) : Skeleton :=
  if k.timerTail = 0 then
    ((k.modifyFlow t fun x => { x with timerPrev := 0, timerNext := 0 }).setTimerHead t).setTimerTail t
  else
    ((k.modifyFlow k.timerTail fun x => { x with timerNext := t }).modifyFlow t
        (fun x => { x with timerPrev := k.timerTail, timerNext := 0 })).setTimerTail t

/-- The links `dpi_reassembly_delete_timer` writes. -/
def deleteTimer (k : Skeleton) (t : Ptr) : Skeleton :=
  let x := k.flow t
  let k := if x.timerPrev = 0 then k.setTimerHead x.timerNext
    else k.modifyFlow x.timerPrev fun y => { y with timerNext := x.timerNext }
  if x.timerNext = 0 then k.setTimerTail x.timerPrev
  else k.modifyFlow x.timerNext fun y => { y with timerPrev := x.timerPrev }

/-- The links `delete_flow` writes to take a flow with links `x` off its source's list. -/
def unlinkFlow (k : Skeleton) (x : FlowLinks) : Skeleton :=
  if x.prev = 0 then
    let k := k.modifySource x.source fun r => { r with flows := x.next }
    if x.next = 0 then k else k.modifyFlow x.next fun r => { r with prev := 0 }
  else
    let k := k.modifyFlow x.prev fun r => { r with next := x.next }
    if x.next = 0 then k else k.modifyFlow x.next fun r => { r with prev := x.prev }

/-- The links `delete_flow` writes: it stops the flow's timer, takes the flow off its source's
list and frees it. -/
def deleteFlow (k : Skeleton) (f : Ptr) : Skeleton := ((k.deleteTimer f).unlinkFlow (k.flow f)).freeFlow f

/-- The links `delete_source` writes to take a source with links `r` off the chain of bucket
`row`. -/
def unlinkSource (k : Skeleton) (row : Nat) (r : SourceLinks) : Skeleton :=
  let k := if r.prev = 0 then k.setTable row r.next
    else k.modifySource r.prev fun x => { x with next := r.next }
  if r.next = 0 then k else k.modifySource r.next fun x => { x with prev := r.prev }

/-- The links `delete_source` writes once the source at `p` owns no flow: it takes the source
off the chain of bucket `row` and frees it. -/
def removeSource (k : Skeleton) (row : Nat) (p : Ptr) : Skeleton :=
  (k.unlinkSource row (k.source p)).freeSource p

/-- The links `find_or_create_source` writes when it creates the source `brk` at the head of
bucket `i`. -/
def pushSource (k : Skeleton) (i : Nat) : Skeleton :=
  let p := k.brk
  let head := k.table i
  let k := ({ k with brk := p + 1 } : Skeleton).setSource p ⟨0, i, 0, head⟩
  let k := if head = 0 then k else k.modifySource head fun r => { r with prev := p }
  k.setTable i p

/-- The links `find_or_create_flow` writes when it creates the flow `brk`, before it starts the
flow's timer: the new flow goes at the head of the flows of `p`. -/
def linkFlow (k : Skeleton) (p : Ptr) : Skeleton :=
  let f := k.brk
  let head := (k.source p).flows
  let k := ({ k with brk := f + 1 } : Skeleton).setFlow f ⟨head, 0, p, 0, 0, f⟩
  let k := if head = 0 then k else k.modifyFlow head fun r => { r with prev := f }
  k.modifySource p fun r => { r with flows := f }

/-- The links `find_or_create_flow` writes when it creates the flow `brk` at the head of the
flows of `p`, with its timer after the tail. -/
def pushFlow (k : Skeleton) (p : Ptr) : Skeleton := (k.linkFlow p).addTimer k.brk

end Skeleton

namespace State

/-- The sources on the chain of bucket `i`. -/
def chain (s : State) (i : Nat) : List Ptr := walk s.sourceNext s.brk (s.table i)

/-- The sources in the hash table, bucket by bucket. -/
def tableSources (s : State) : List Ptr := (List.range s.tableSize.toNat).flatMap s.chain

/-- The flows of the source at `p`, from the head of its list. -/
def flowsOf (s : State) (p : Ptr) : List Ptr := walk s.flowNext s.brk (s.source p).flows

/-- The flows whose timers are on the timer list, from its head. -/
def timerList (s : State) : List Ptr := walk (fun f => (s.flow f).timer.next) s.brk s.timerHead

end State

/-- The lists the links spell out: the chain of each bucket, the flows of each source, and the
timer list, as the flows whose timers they are. -/
structure Shape where
  chain : Nat → List Ptr
  flowsOf : Ptr → List Ptr
  timers : List Ptr

namespace Shape

/-! What each link surgery means for the lists. -/

/-- The source `p` at the head of chain `i`, owning no flow. -/
def addSource (g : Shape) (i : Nat) (p : Ptr) : Shape :=
  ⟨Function.update g.chain i (p :: g.chain i), Function.update g.flowsOf p [], g.timers⟩

/-- The flow `f` at the head of the flows of `p`, its timer last. -/
def addFlow (g : Shape) (p f : Ptr) : Shape :=
  ⟨g.chain, Function.update g.flowsOf p (f :: g.flowsOf p), g.timers ++ [f]⟩

/-- The flow `f` gone from the flows of `p` and from the timers. -/
def dropFlow (g : Shape) (p f : Ptr) : Shape :=
  ⟨g.chain, Function.update g.flowsOf p ((g.flowsOf p).erase f), g.timers.erase f⟩

/-- The source `p` gone from chain `i`. -/
def dropSource (g : Shape) (i : Nat) (p : Ptr) : Shape :=
  ⟨Function.update g.chain i ((g.chain i).erase p), g.flowsOf, g.timers⟩

end Shape

/-- The chains of the table spell out `chain`: each is a doubly-linked list ending in `NULL`,
every source on the chain of bucket `i` has `row = i`, and the live sources are those on a
chain. -/
structure Chains (k : Skeleton) (chain : Nat → List Ptr) : Prop where
  seg : ∀ i < k.tableSize, Seg k.sourceNext k.sourcePrev 0 (k.table i) (chain i) 0
  row : ∀ i < k.tableSize, ∀ p ∈ chain i, (k.source p).row = i
  live : ∀ p, (k.sources p).isSome ↔ ∃ i < k.tableSize, p ∈ chain i

/-- The flow lists of the live sources spell out `flowsOf`: each is a doubly-linked list ending
in `NULL` of live flows that point back to the source, and every live flow is on the list of its
source, which is live. -/
structure FlowLists (k : Skeleton) (flowsOf : Ptr → List Ptr) : Prop where
  seg : ∀ p, (k.sources p).isSome → Seg k.flowNext k.flowPrev 0 (k.source p).flows (flowsOf p) 0
  source : ∀ p, (k.sources p).isSome → ∀ f ∈ flowsOf p, (k.flows f).isSome ∧ (k.flow f).source = p
  live : ∀ f, (k.flows f).isSome → (k.sources (k.flow f).source).isSome ∧ f ∈ flowsOf (k.flow f).source

/-- The timer list spells out `timers`: a doubly-linked list from `timer_head` to `timer_tail`
ending in `NULL`, holding the timer of every live flow and nothing else, each timer's `data`
pointing back to its flow. -/
structure Timers (k : Skeleton) (timers : List Ptr) : Prop where
  seg : Seg k.timerNext k.timerPrev 0 k.timerHead timers 0
  tail : k.timerTail = timers.getLastD 0
  live : ∀ f, f ∈ timers ↔ (k.flows f).isSome
  data : ∀ f, (k.flows f).isSome → (k.flow f).data = f

/-- The structural invariant: the links of `k` spell out the lists of `g`, and every live record
lies below `brk`, the next address to hand out. -/
structure Realizes (k : Skeleton) (g : Shape) : Prop where
  brk_pos : 0 < k.brk
  source_lt : ∀ p, (k.sources p).isSome → p < k.brk
  flow_lt : ∀ f, (k.flows f).isSome → f < k.brk
  chains : Chains k g.chain
  lists : FlowLists k g.flowsOf
  timers : Timers k g.timers

/-! ## The skeleton of each routine

Each routine of the engine does to the skeleton of a state what its link surgery does to the
skeleton alone; the routines that only touch data keep it as it is. -/

section Frame

variable {s : State} {p : Ptr}

theorem skeleton_source (s : State) (p : Ptr) : s.skeleton.source p = (s.source p).links := by
  unfold Skeleton.source State.source State.skeleton
  cases h : s.sources p <;> simp only [h, Option.map_none', Option.map_some', Option.getD_none,
    Option.getD_some]
  rfl

theorem skeleton_flow (s : State) (f : Ptr) : s.skeleton.flow f = (s.flow f).links := by
  unfold Skeleton.flow State.flow State.skeleton
  cases h : s.flows f <;> simp only [h, Option.map_none', Option.map_some', Option.getD_none,
    Option.getD_some]
  rfl

@[simp] theorem skeleton_table (s : State) : s.skeleton.table = s.table := rfl
@[simp] theorem skeleton_tableSize (s : State) : s.skeleton.tableSize = s.tableSize.toNat := rfl
@[simp] theorem skeleton_timerHead (s : State) : s.skeleton.timerHead = s.timerHead := rfl
@[simp] theorem skeleton_timerTail (s : State) : s.skeleton.timerTail = s.timerTail := rfl
@[simp] theorem skeleton_brk (s : State) : s.skeleton.brk = s.brk := rfl

theorem skeleton_modifySource' {g : Source → Source} {h : SourceLinks → SourceLinks}
    (hg : ∀ r, (g r).links = h r.links) :
    (s.modifySource p g).skeleton = s.skeleton.modifySource p h := by
  unfold State.skeleton State.modifySource Skeleton.modifySource
  congr 1
  funext q
  by_cases hq : q = p
  · subst hq; cases h' : s.sources q <;> simp [h', hg]
  · simp [hq]

theorem skeleton_modifyFlow' {g : Flow → Flow} {h : FlowLinks → FlowLinks}
    (hg : ∀ r, (g r).links = h r.links) :
    (s.modifyFlow p g).skeleton = s.skeleton.modifyFlow p h := by
  unfold State.skeleton State.modifyFlow Skeleton.modifyFlow
  congr 1
  funext q
  by_cases hq : q = p
  · subst hq; cases h' : s.flows q <;> simp [h', hg]
  · simp [hq]

@[simp] theorem Skeleton.modifySource_id (k : Skeleton) : k.modifySource p id = k := by
  unfold Skeleton.modifySource
  congr 1
  funext q
  by_cases hq : q = p
  · subst hq; cases k.sources q <;> simp
  · simp [hq]

@[simp] theorem Skeleton.modifyFlow_id (k : Skeleton) : k.modifyFlow p id = k := by
  unfold Skeleton.modifyFlow
  congr 1
  funext q
  by_cases hq : q = p
  · subst hq; cases k.flows q <;> simp
  · simp [hq]

theorem skeleton_modifySource {g : Source → Source} (hg : ∀ r, (g r).links = r.links) :
    (s.modifySource p g).skeleton = s.skeleton := by
  rw [skeleton_modifySource' (h := id) hg, Skeleton.modifySource_id]

theorem skeleton_modifyFlow {g : Flow → Flow} (hg : ∀ r, (g r).links = r.links) :
    (s.modifyFlow p g).skeleton = s.skeleton := by
  rw [skeleton_modifyFlow' (h := id) hg, Skeleton.modifyFlow_id]

@[simp]
theorem skeleton_charge (n : UInt32) : (s.charge p n).skeleton = s.skeleton :=
  skeleton_modifySource (s := s) (p := p) (g := fun r => { r with sourceUsedMem := r.sourceUsedMem + n })
    fun _ => rfl

@[simp]
theorem skeleton_release (n : UInt32) : (s.release p n).skeleton = s.skeleton :=
  skeleton_modifySource (s := s) (p := p) (g := fun r => { r with sourceUsedMem := r.sourceUsedMem - n })
    fun _ => rfl

theorem skeleton_setSource (r : Source) : (s.setSource p r).skeleton = s.skeleton.setSource p r.links := by
  unfold State.skeleton State.setSource
  congr 1
  funext q
  by_cases hq : q = p <;> simp [hq]

theorem skeleton_setFlow (r : Flow) : (s.setFlow p r).skeleton = s.skeleton.setFlow p r.links := by
  unfold State.skeleton State.setFlow
  congr 1
  funext q
  by_cases hq : q = p <;> simp [hq]

theorem skeleton_freeSource : (s.freeSource p).skeleton = s.skeleton.freeSource p := by
  unfold State.skeleton State.freeSource
  congr 1
  funext q
  by_cases hq : q = p <;> simp [hq]

theorem skeleton_freeFlow : (s.freeFlow p).skeleton = s.skeleton.freeFlow p := by
  unfold State.skeleton State.freeFlow
  congr 1
  funext q
  by_cases hq : q = p <;> simp [hq]

theorem skeleton_withTimerTail (s : State) (v : Ptr) :
    ({ s with timerTail := v } : State).skeleton = s.skeleton.setTimerTail v := rfl

theorem skeleton_withTotalUsedMem (s : State) (v : UInt32) :
    ({ s with totalUsedMem := v } : State).skeleton = s.skeleton := rfl

theorem skeleton_withBrk (s : State) (v : Nat) :
    ({ s with brk := v } : State).skeleton = { s.skeleton with brk := v } := rfl

theorem skeleton_withTable (s : State) (i : Nat) (v : Ptr) :
    ({ s with table := write s.table i v } : State).skeleton = s.skeleton.setTable i v := rfl

theorem skeleton_modifyTimer {g : Timer → Timer} {h : FlowLinks → FlowLinks}
    (hg : ∀ r : Flow, ({ r with timer := g r.timer } : Flow).links = h r.links) :
    (s.modifyTimer p g).skeleton = s.skeleton.modifyFlow p h :=
  skeleton_modifyFlow' hg

theorem skeleton_addTimer (t : Ptr) : (addTimer s t).skeleton = s.skeleton.addTimer t := by
  unfold addTimer Skeleton.addTimer
  rw [skeleton_timerTail]
  split
  · show { (s.modifyTimer t _).skeleton with timerHead := t, timerTail := t } = _
    rw [skeleton_modifyTimer (h := fun x => { x with timerPrev := 0, timerNext := 0 }) fun _ => rfl]
    rfl
  · show { ((s.modifyTimer s.timerTail _).modifyTimer t _).skeleton with timerTail := t } = _
    rw [skeleton_modifyTimer (h := fun x => { x with timerPrev := s.timerTail, timerNext := 0 })
      fun _ => rfl, skeleton_modifyTimer (h := fun x => { x with timerNext := t }) fun _ => rfl]
    rfl

theorem skeleton_deleteTimer (t : Ptr) : (deleteTimer s t).skeleton = s.skeleton.deleteTimer t := by
  have hprev : (if (s.flow t).timer.prev = 0 then { s with timerHead := (s.flow t).timer.next }
      else s.modifyTimer (s.flow t).timer.prev fun y => { y with next := (s.flow t).timer.next }).skeleton =
      if (s.flow t).timer.prev = 0 then s.skeleton.setTimerHead (s.flow t).timer.next
      else s.skeleton.modifyFlow (s.flow t).timer.prev fun y => { y with timerNext := (s.flow t).timer.next } := by
    split
    · rfl
    · exact skeleton_modifyTimer fun _ => rfl
  unfold deleteTimer Skeleton.deleteTimer
  simp only [skeleton_flow, Flow.links_timerNext, Flow.links_timerPrev]
  split
  · rw [skeleton_withTimerTail, hprev]
  · rw [skeleton_modifyTimer (h := fun y => { y with timerPrev := (s.flow t).timer.prev }) fun _ => rfl,
      hprev]

@[simp] theorem skeleton_modifySource_flows (v : Ptr) :
    (s.modifySource p fun r => { r with flows := v }).skeleton =
      s.skeleton.modifySource p fun r => { r with flows := v } :=
  skeleton_modifySource' fun _ => rfl

@[simp] theorem skeleton_modifySource_prev (v : Ptr) :
    (s.modifySource p fun r => { r with prev := v }).skeleton =
      s.skeleton.modifySource p fun r => { r with prev := v } :=
  skeleton_modifySource' fun _ => rfl

@[simp] theorem skeleton_modifySource_next (v : Ptr) :
    (s.modifySource p fun r => { r with next := v }).skeleton =
      s.skeleton.modifySource p fun r => { r with next := v } :=
  skeleton_modifySource' fun _ => rfl

@[simp] theorem skeleton_modifyFlow_prev (v : Ptr) :
    (s.modifyFlow p fun r => { r with prev := v }).skeleton =
      s.skeleton.modifyFlow p fun r => { r with prev := v } :=
  skeleton_modifyFlow' fun _ => rfl

@[simp] theorem skeleton_modifyFlow_next (v : Ptr) :
    (s.modifyFlow p fun r => { r with next := v }).skeleton =
      s.skeleton.modifyFlow p fun r => { r with next := v } :=
  skeleton_modifyFlow' fun _ => rfl

@[simp] theorem skeleton_foldl_release (src : Ptr) (n : Fragment → UInt32) (fs : List Fragment) (s : State) :
    (fs.foldl (fun s fr => s.release src (n fr)) s).skeleton = s.skeleton := by
  induction fs generalizing s with
  | nil => rfl
  | cons fr fs ih => exact (ih _).trans (skeleton_release _)

variable (B : Build)

/-- `delete_flow` does to the links what its link surgery does. -/
theorem skeleton_deleteFlow (f : Ptr) : (deleteFlow B s f).skeleton = s.skeleton.deleteFlow f := by
  unfold deleteFlow Skeleton.deleteFlow Skeleton.unlinkFlow
  dsimp only
  cases hu : (s.flow f).unfragmentable <;>
    simp only [skeleton_freeFlow, apply_ite State.skeleton, skeleton_modifySource_flows,
      skeleton_modifyFlow_prev, skeleton_modifyFlow_next, skeleton_release, skeleton_foldl_release,
      skeleton_deleteTimer, skeleton_flow, Flow.links_prev, Flow.links_next, Flow.links_source]

/-- The end of `delete_source` does to the links what its link surgery does. -/
theorem skeleton_removeSource (row : UInt16) (p : Ptr) :
    (removeSource B s row p).skeleton = s.skeleton.removeSource row.toNat p := by
  unfold removeSource Skeleton.removeSource Skeleton.unlinkSource
  dsimp only
  simp only [skeleton_withTotalUsedMem, skeleton_freeSource, apply_ite State.skeleton, skeleton_withTable,
    skeleton_modifySource_next, skeleton_modifySource_prev, skeleton_source, Source.links_prev,
    Source.links_next]

theorem hashFunction_lt (s : State) (addr : In6Addr) : hashFunction s addr < 2 ^ 16 :=
  lt_of_le_of_lt (Nat.mod_le _ _) (shiftAddXor addr).val.isLt

/-- The creating branch of `find_or_create_source` does to the links what `pushSource` does. -/
theorem skeleton_createSource (addr : In6Addr) :
    (createSource B s addr).skeleton = s.skeleton.pushSource (hashFunction s addr) := by
  have hrow : (hashFunction s addr).toUInt16.toNat = hashFunction s addr := by
    have := hashFunction_lt s addr
    simp [Nat.toUInt16, UInt16.toNat, UInt16.ofNat, BitVec.toNat_ofNat]
    omega
  have hlinks : Source.links ⟨0, B.sizeofSource, addr, (hashFunction s addr).toUInt16, 0,
      s.table (hashFunction s addr)⟩ = ⟨0, hashFunction s addr, 0, s.table (hashFunction s addr)⟩ := by
    simp only [Source.links, hrow]
  unfold createSource Skeleton.pushSource
  dsimp only
  simp only [skeleton_withTable, apply_ite State.skeleton, skeleton_modifySource_prev, skeleton_setSource,
    hlinks, skeleton_table, skeleton_brk]
  split_ifs <;> rfl

/-- The creating branch of `find_or_create_flow` does to the links what `pushFlow` does. -/
theorem skeleton_createFlow (src : Ptr) (id : UInt32) (dst : In6Addr) (now : UInt32) :
    (createFlow B s src id dst now).skeleton = s.skeleton.pushFlow src := by
  unfold createFlow Skeleton.pushFlow Skeleton.linkFlow
  dsimp only
  simp only [skeleton_addTimer, skeleton_modifySource_flows, apply_ite State.skeleton, skeleton_modifyFlow_prev,
    skeleton_setFlow, skeleton_charge, skeleton_withBrk, skeleton_source, skeleton_brk, Source.links_flows]
  split_ifs <;> rfl

/-- Storing the unfragmentable part writes data only. -/
@[simp] theorem skeleton_storeUnfragmentable (src f : Ptr) (a : Packet) :
    (storeUnfragmentable s src f a).skeleton = s.skeleton := by
  unfold storeUnfragmentable
  rw [skeleton_charge]
  exact skeleton_modifyFlow fun _ => rfl

/-- Inserting a fragment writes data only. -/
@[simp] theorem skeleton_insertIntoFlow (src f : Ptr) (a : Packet) :
    (insertIntoFlow s src f a).skeleton = s.skeleton := by
  unfold insertIntoFlow
  dsimp only
  rw [skeleton_release, skeleton_charge, skeleton_modifyFlow fun _ => ?_]
  · split
    · exact skeleton_modifyFlow fun _ => rfl
    · rfl
  · rfl

@[simp] theorem isSome_skeleton_sources (s : State) (p : Ptr) :
    (s.skeleton.sources p).isSome = (s.sources p).isSome :=
  Option.isSome_map

@[simp] theorem isSome_skeleton_flows (s : State) (f : Ptr) :
    (s.skeleton.flows f).isSome = (s.flows f).isSome :=
  Option.isSome_map

end Frame

end Ipv6Reassembly
