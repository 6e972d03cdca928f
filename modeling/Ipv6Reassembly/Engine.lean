import Ipv6Reassembly.Links
import Ipv6Reassembly.Fragments

/-!
# The engine

The functions of `ipv6_reassembly.cpp`, one definition each, over the records of `Records`:
`findOrCreateSource`, `deleteFlow`, `findOrCreateFlow`, `buildCompleteDatagram`, `deleteSource`
and the entry point `manageIpv6Fragment`, which is cut at its early returns into
`evictSource` (the per-source eviction loop), `sweepTimers` (the timer and global-memory sweep)
and `storeFragment` (everything after the flow lookup). The timer routines of reassembly.c are
modelled from the spec (`addTimer`, `deleteTimer`).

Every `malloc` of a call may fail; which ones succeed is the call's `Malloc` argument. The
minimum-size screen of lines 569–574 is compiled out: `DPI_DEBUG_FRAGMENTATION_v6` is defined
(as `0`) on line 44, so `#ifndef` drops it. The C loops that follow `next` links are bounded by
`brk`, the number of addresses handed out so far, which no acyclic list of live records exceeds.
A call returns `none` only where the C code divides by a zero `table_size`.
-/

namespace Ipv6Reassembly

/-- `DPI_IP_FRAGMENTATION_MAX_DATAGRAM_SIZE`. -/
def maxDatagramSize : Nat := 65535

/-- The arguments of `dpi_reordering_manage_ipv6_fragment` besides the state and the thread id:
the unfragmentable part, which starts with the fixed IPv6 header, the fragmentable part, and the
fields of the fragment header. -/
structure Packet where
  unfragmentable : List UInt8
  fragmentable : List UInt8
  offset : UInt16
  moreFragments : UInt8
  identification : UInt32
  nextHeader : UInt8
  currentTime : UInt32
  unfragmentable_size : 40 ≤ unfragmentable.length ∧ unfragmentable.length < 2 ^ 16
  fragmentable_size : fragmentable.length < 2 ^ 16

/-- The bytes `[i, i + 16)` of the fixed header, read as an address. -/
def addrAt (hdr : List UInt8) (i : Nat) (h : i + 16 ≤ hdr.length) : In6Addr :=
  ⟨(hdr.drop i).take 16, by simp; omega⟩

/-- `ip6->ip6_src`. -/
def Packet.ip6Src (a : Packet) : In6Addr := addrAt a.unfragmentable 8 (by have := a.unfragmentable_size; omega)

/-- `ip6->ip6_dst`. -/
def Packet.ip6Dst (a : Packet) : In6Addr := addrAt a.unfragmentable 24 (by have := a.unfragmentable_size; omega)

/-- `end = offset + fragmentable_size`. -/
def Packet.end (a : Packet) : Nat := a.offset.toNat + a.fragmentable.length

/-- Which `malloc`s of a call succeed: the source record, the flow record, the copy of the
unfragmentable part and the reassembled datagram. -/
structure Malloc where
  source : Bool
  flow : Bool
  unfragmentable : Bool
  datagram : Bool

/-- Every `malloc` succeeds. -/
def Malloc.ok : Malloc := ⟨true, true, true, true⟩

/-- How a stage of `manageIpv6Fragment` ends: the call goes on, or it returns `NULL`. -/
inductive Stage where
  | cont (s : State)
  | abort (s : State)

/-- The state a stage ends in. -/
def Stage.state : Stage → State
  | .cont s => s
  | .abort s => s

/-- `dpi_ipv6_fragmentation_hash_function` before the reduction: the shift-add-XOR accumulator.
C computes in `int` and stores into a `u_int16_t`; the low sixteen bits of `+` and `^` depend only
on the low sixteen bits of the operands, so `UInt16` arithmetic gives the same value. -/
def shiftAddXor (addr : In6Addr) : UInt16 :=
  addr.s6Addr.foldl (fun h b => h ^^^ ((h <<< 5) + (h >>> 2) + b.toUInt16)) 0

/-- `dpi_ipv6_fragmentation_hash_function`: the bucket of `addr`. -/
def hashFunction (s : State) (addr : In6Addr) : Nat := (shiftAddXor addr).toNat % s.tableSize.toNat

namespace State

/-- The `next` link of the source at `p`. -/
def sourceNext (s : State) (p : Ptr) : Ptr := (s.source p).next

/-- The `next` link of the flow at `p`. -/
def flowNext (s : State) (p : Ptr) : Ptr := (s.flow p).next

/-- `source->source_used_mem += n; state->total_used_mem += n`. -/
def charge (s : State) (src : Ptr) (n : UInt32) : State :=
  { s.modifySource src fun r => { r with sourceUsedMem := r.sourceUsedMem + n } with
    totalUsedMem := s.totalUsedMem + n }

/-- `source->source_used_mem -= n; state->total_used_mem -= n`. -/
def release (s : State) (src : Ptr) (n : UInt32) : State :=
  { s.modifySource src fun r => { r with sourceUsedMem := r.sourceUsedMem - n } with
    totalUsedMem := s.totalUsedMem - n }

end State

section

variable (B : Build)

/-- `dpi_reordering_enable_ipv6_fragmentation(table_size)` when both allocations succeed. -/
def enableIpv6Fragmentation (tableSize : UInt16) : State where
  table _ := 0
  totalUsedMem := 0
  tableSize := tableSize
  timerHead := 0
  timerTail := 0
  perSourceMemoryLimit := B.defaultPerHostMemoryLimit
  totalMemoryLimit := B.defaultTotalMemoryLimit
  timeout := B.defaultReassemblyTimeout
  sources _ := none
  flows _ := none
  brk := 1

/-- Modelled from the spec: `dpi_reassembly_add_timer(&timer_head, &timer_tail, timer)`
(reassembly.c is not under src/) appends the timer of the flow at `t` after the tail. -/
def addTimer (s : State) (t : Ptr) : State :=
  if s.timerTail = 0 then
    { s.modifyTimer t (fun x => { x with prev := 0, next := 0 }) with timerHead := t, timerTail := t }
  else
    { (s.modifyTimer s.timerTail fun x => { x with next := t }).modifyTimer t
        (fun x => { x with prev := s.timerTail, next := 0 }) with timerTail := t }

/-- Modelled from the spec: `dpi_reassembly_delete_timer(&timer_head, &timer_tail, timer)`
unlinks the timer of the flow at `t`. -/
def deleteTimer (s : State) (t : Ptr) : State :=
  let x := (s.flow t).timer
  let s := if x.prev = 0 then { s with timerHead := x.next }
    else s.modifyTimer x.prev fun y => { y with next := x.next }
  if x.next = 0 then { s with timerTail := x.prev }
  else s.modifyTimer x.next fun y => { y with prev := x.prev }

/-- The chain walk of `dpi_ipv6_fragmentation_find_or_create_source`: the first source from
`head` whose address is `addr`, or `0`. -/
def findSourceIn (s : State) (addr : In6Addr) (head : Ptr) : Ptr :=
  ((walk s.sourceNext s.brk head).find? fun p => (s.source p).ipv6Srcaddr = addr).getD 0

/-- Lines 280–301 of `dpi_ipv6_fragmentation_find_or_create_source`: a new source record for
`addr` at `brk`, charged to the total and put at the head of its bucket. -/
def createSource (s : State) (addr : In6Addr) : State :=
  let hashIndex := hashFunction s addr
  let head := s.table hashIndex
  let p := s.brk
  let s := { s with brk := p + 1, totalUsedMem := s.totalUsedMem + B.sizeofSource }
  let s := s.setSource p
    { flows := 0, sourceUsedMem := B.sizeofSource, ipv6Srcaddr := addr,
      row := hashIndex.toUInt16, prev := 0, next := head }
  let s := if head = 0 then s else s.modifySource head fun r => { r with prev := p }
  { s with table := write s.table hashIndex p }

/-- `dpi_ipv6_fragmentation_find_or_create_source(state, addr)`: the source found on the chain of
the address's bucket, or a new one at `brk`; `0` when the `malloc` fails. -/
def findOrCreateSource (s : State) (addr : In6Addr) (ok : Bool) : State × Ptr :=
  let found := findSourceIn s addr (s.table (hashFunction s addr))
  if found ≠ 0 then (s, found)
  else if !ok then (s, 0)
  else (createSource B s addr, s.brk)

/-- `dpi_ipv6_fragmentation_delete_flow(state, flow)`: release the flow's memory, stop its timer,
and unlink it from its source. The source is not deleted even when it is left without flows. -/
def deleteFlow (s : State) (f : Ptr) : State :=
  let flow := s.flow f
  let src := flow.source
  let s := s.release src B.sizeofFlow
  let s := deleteTimer s f
  let s := flow.fragments.foldl (fun s fr => s.release src (fr.end - fr.offset).toUInt32) s
  let s := match flow.unfragmentable with
    | some u => s.release src u.length.toUInt32
    | none => s
  let s := if flow.prev = 0 then
      let s := s.modifySource src fun r => { r with flows := flow.next }
      if flow.next = 0 then s else s.modifyFlow flow.next fun r => { r with prev := 0 }
    else
      let s := s.modifyFlow flow.prev fun r => { r with next := flow.next }
      if flow.next = 0 then s else s.modifyFlow flow.next fun r => { r with prev := flow.prev }
  s.freeFlow f

/-- The loop of `dpi_ipv6_fragmentation_delete_source` over the flows from `f`: read the next
link, then delete the flow. -/
def deleteFlowsFrom : Nat → State → Ptr → State
  | 0, s, _ => s
  | n + 1, s, f => if f = 0 then s else deleteFlowsFrom n (deleteFlow B s f) (s.flow f).next

/-- Lines 503–512 of `dpi_ipv6_fragmentation_delete_source`, once its flows are deleted: unlink
the source at `p` from the chain of bucket `row`, free it and debit its record. -/
def removeSource (s : State) (row : UInt16) (p : Ptr) : State :=
  let r := s.source p
  let s := if r.prev = 0 then { s with table := write s.table row.toNat r.next }
    else s.modifySource r.prev fun x => { x with next := r.next }
  let s := if r.next = 0 then s else s.modifySource r.next fun x => { x with prev := r.prev }
  { s.freeSource p with totalUsedMem := s.totalUsedMem - B.sizeofSource }

/-- `dpi_ipv6_fragmentation_delete_source(state, source)`: delete all its flows, then unlink it
from the chain of the bucket its `row` names and free it. -/
def deleteSource (s : State) (p : Ptr) : State :=
  removeSource B (deleteFlowsFrom B s.brk s (s.source p).flows) (s.source p).row p

/-- The walk of `dpi_ipv6_fragmentation_find_or_create_flow` over the source's flows. -/
def findFlowIn (s : State) (id : UInt32) (dstaddr : In6Addr) (head : Ptr) : Ptr :=
  ((walk s.flowNext s.brk head).find? fun p => id = (s.flow p).id ∧ dstaddr = (s.flow p).dstaddr).getD 0

/-- Lines 386–409 of `dpi_ipv6_fragmentation_find_or_create_flow`: a new flow record at `brk` for
the key `(id, dstaddr)`, charged to its source, put at the head of the source's flows, and its
timer, expiring `timeout` seconds from now, after the tail of the timer list. -/
def createFlow (s : State) (source : Ptr) (id : UInt32) (dstaddr : In6Addr) (currentTime : UInt32) :
    State :=
  let f := s.brk
  let head := (s.source source).flows
  let s := ({ s with brk := f + 1 } : State).charge source B.sizeofFlow
  let s := s.setFlow f
    { unfragmentable := none, len := 0, id := id, dstaddr := dstaddr,
      fragments := [], next := head, prev := 0, source := source,
      timer := { expirationTime := currentTime + s.timeout.toUInt32, data := f, prev := 0, next := 0 } }
  let s := if head = 0 then s else s.modifyFlow head fun r => { r with prev := f }
  let s := s.modifySource source fun r => { r with flows := f }
  addTimer s f

/-- `dpi_ipv6_fragmentation_find_or_create_flow(state, source, id, dstaddr, current_time)`: the
flow found on the source's list, or a new one at `brk`; `0` when the `malloc` fails. -/
def findOrCreateFlow (s : State) (source : Ptr) (id : UInt32) (dstaddr : In6Addr)
    (currentTime : UInt32) (ok : Bool) : State × Ptr :=
  let found := findFlowIn s id dstaddr (s.source source).flows
  if found ≠ 0 then (s, found)
  else if !ok then (s, 0)
  else (createFlow B s source id dstaddr currentTime, s.brk)

/-- The IPv6 header `hdr` with its payload-length field (bytes 4 and 5) set to `v`, in network
byte order. -/
def setPayloadLength (hdr : List UInt8) (v : UInt16) : List UInt8 :=
  (hdr.set 4 (v >>> 8).toUInt8).set 5 v.toUInt8

/-- The three exits of `dpi_ipv6_fragmentation_build_complete_datagram` that give the flow up
(lines 436–438, 445–447 and 474–476): delete the flow, then its source if that left it empty. -/
def deleteFlowAndEmptySource (s : State) (f : Ptr) : State :=
  let source := (s.flow f).source
  let s := deleteFlow B s f
  if (s.source source).flows = 0 then deleteSource B s source else s

/-- `dpi_ipv6_fragmentation_build_complete_datagram(state, flow)`: the datagram is the stored
unfragmentable part, with its payload length set, followed by the compacted fragments. The flow,
and its source if that leaves it empty, is deleted, except when compaction fails. -/
def buildCompleteDatagram (s : State) (f : Ptr) (ok : Bool) : State × Option (List UInt8) :=
  let flow := s.flow f
  if maxDatagramSize < flow.unfragmentableLength + flow.len.toNat then
    (deleteFlowAndEmptySource B s f, none)
  else if !ok then (deleteFlowAndEmptySource B s f, none)
  else match compactFragments flow.fragments flow.len.toNat with
    | none => (s, none)
    | some (count, payload) =>
      let plen := count.toUInt16 + flow.unfragmentableLength.toUInt16 - sizeofIp6Hdr.toUInt16
      (deleteFlowAndEmptySource B s f, some (setPayloadLength (flow.unfragmentable.getD []) plen ++ payload))

/-- The per-source eviction loop (lines 609–620): while the source has flows and is over its
limit, delete its head flow; when that empties it, delete it and return `NULL`. -/
def evictSource : Nat → State → Ptr → Stage
  | 0, s, _ => .cont s
  | n + 1, s, src =>
    if (s.source src).flows ≠ 0 ∧ s.perSourceMemoryLimit < (s.source src).sourceUsedMem then
      let s := deleteFlow B s (s.source src).flows
      if (s.source src).flows = 0 then .abort (deleteSource B s src) else evictSource n s src
    else .cont s

/-- The timer and global-memory sweep (lines 630–645): while the timer list is not empty and its
head has expired or the engine is at its memory limit, delete the head's flow; when the calling
source `src` then owns no flow, delete the swept flow's source and return `NULL`. -/
def sweepTimers : Nat → State → Ptr → UInt32 → Stage
  | 0, s, _, _ => .cont s
  | n + 1, s, src, now =>
    if s.timerHead ≠ 0 ∧ ((s.flow s.timerHead).timer.expirationTime < now ∨
        s.totalMemoryLimit ≤ s.totalUsedMem) then
      let tmpsource := (s.flow (s.flow s.timerHead).timer.data).source
      let s := deleteFlow B s (s.flow s.timerHead).timer.data
      if (s.source src).flows = 0 then .abort (deleteSource B s tmpsource) else sweepTimers n s src now
    else .cont s

/-- The eviction loop stops at once when its guard fails. -/
theorem evictSource_of_not {n : Nat} {s : State} {src : Ptr}
    (h : ¬((s.source src).flows ≠ 0 ∧ s.perSourceMemoryLimit < (s.source src).sourceUsedMem)) :
    evictSource B n s src = .cont s := by
  cases n <;> simp only [evictSource, if_neg h]

/-- The sweep stops at once when its guard fails. -/
theorem sweepTimers_of_not {n : Nat} {s : State} {src : Ptr} {now : UInt32}
    (h : ¬(s.timerHead ≠ 0 ∧ ((s.flow s.timerHead).timer.expirationTime < now ∨
      s.totalMemoryLimit ≤ s.totalUsedMem))) :
    sweepTimers B n s src now = .cont s := by
  cases n <;> simp only [sweepTimers, if_neg h]

/-- Lines 680–697: store the unfragmentable part in the flow, with the next-header byte (offset
6 of the IPv6 header) set to `next_header`, and charge its length. -/
def storeUnfragmentable (s : State) (source f : Ptr) (a : Packet) : State :=
  (s.modifyFlow f fun r => { r with unfragmentable := some (a.unfragmentable.set 6 a.nextHeader) }).charge
    source a.unfragmentable.length.toUInt32

/-- Lines 716–729, past the screen for a second last fragment: a last fragment sets the declared
length, then the fragment is inserted and the bytes the list gained and lost are accounted. -/
def insertIntoFlow (s : State) (source flow : Ptr) (a : Packet) : State :=
  let s := if a.moreFragments = 0 then s.modifyFlow flow fun r => { r with len := a.end.toUInt16 }
    else s
  let (fragments, bytesRemoved, bytesInserted) :=
    insertFragment (s.flow flow).fragments a.fragmentable a.offset.toNat a.end
  let s := s.modifyFlow flow fun r => { r with fragments := fragments }
  (s.charge source bytesInserted.toUInt32).release source bytesRemoved.toUInt32

/-- Lines 664–755 of `dpi_reordering_manage_ipv6_fragment`, once the flow is found: the late-start
screen, storing the unfragmentable part, the screen for a second last fragment, the insertion, and
the completion check. -/
def storeFragment (s : State) (source flow : Ptr) (a : Packet) (m : Malloc) :
    State × Option (List UInt8) :=
  if (s.flow flow).len ≠ 0 ∧ (s.flow flow).len < a.offset then (s, none)
  else if (s.flow flow).unfragmentable = none ∧ !m.unfragmentable then (deleteFlow B s flow, none)
  else
    let s := if (s.flow flow).unfragmentable = none then storeUnfragmentable s source flow a else s
    if a.moreFragments = 0 ∧ (s.flow flow).len ≠ 0 then (s, none)
    else
      let s := insertIntoFlow s source flow a
      if (s.flow flow).len ≠ 0 ∧ checkTrainOfContiguousFragments (s.flow flow).fragments then
        buildCompleteDatagram B s flow m.datagram
      else (s, none)

/-- `dpi_reordering_manage_ipv6_fragment(state, …)`: the new state and the reassembled datagram,
if this fragment completed one. -/
def manageIpv6Fragment (s : State) (a : Packet) (m : Malloc) : Option (State × Option (List UInt8)) :=
  if maxDatagramSize < a.end then some (s, none)
  else if s.tableSize = 0 then none
  else
    let (s, source) := findOrCreateSource B s a.ip6Src m.source
    if source = 0 then some (s, none)
    else match evictSource B s.brk s source with
      | .abort s => some (s, none)
      | .cont s => match sweepTimers B s.brk s source a.currentTime with
        | .abort s => some (s, none)
        | .cont s =>
          let (s, flow) := findOrCreateFlow B s source a.identification a.ip6Dst a.currentTime m.flow
          if flow = 0 then some (s, none) else some (storeFragment B s source flow a m)

/-- How a call of `manageIpv6Fragment` can end: at the size screen, at a failed source
allocation, in the eviction loop, in the sweep, at a failed flow allocation, or in
`storeFragment`; only the last can return a datagram. -/
theorem manageIpv6Fragment_cases {s t : State} {a : Packet} {m : Malloc} {r : Option (List UInt8)}
    (h : manageIpv6Fragment B s a m = some (t, r)) :
    (maxDatagramSize < a.end ∧ t = s ∧ r = none) ∨
    ∃ s₁ src, ¬ maxDatagramSize < a.end ∧ s.tableSize ≠ 0 ∧
      findOrCreateSource B s a.ip6Src m.source = (s₁, src) ∧
      ((src = 0 ∧ t = s₁ ∧ r = none) ∨
       (src ≠ 0 ∧ evictSource B s₁.brk s₁ src = .abort t ∧ r = none) ∨
       ∃ s₂, src ≠ 0 ∧ evictSource B s₁.brk s₁ src = .cont s₂ ∧
        ((sweepTimers B s₂.brk s₂ src a.currentTime = .abort t ∧ r = none) ∨
         ∃ s₃ s₄ f, sweepTimers B s₂.brk s₂ src a.currentTime = .cont s₃ ∧
          findOrCreateFlow B s₃ src a.identification a.ip6Dst a.currentTime m.flow = (s₄, f) ∧
          ((f = 0 ∧ t = s₄ ∧ r = none) ∨ (f ≠ 0 ∧ storeFragment B s₄ src f a m = (t, r))))) := by
  unfold manageIpv6Fragment at h
  split_ifs at h with hend hsize
  · cases h
    exact .inl ⟨hend, rfl, rfl⟩
  refine .inr ?_
  rcases hsrc : findOrCreateSource B s a.ip6Src m.source with ⟨s₁, src⟩
  simp only [hsrc] at h
  refine ⟨s₁, src, hend, hsize, rfl, ?_⟩
  split_ifs at h with h0
  · cases h
    exact .inl ⟨h0, rfl, rfl⟩
  split at h
  · cases h
    exact .inr (.inl ⟨h0, ‹_›, rfl⟩)
  rename_i s₂ hevict
  refine .inr (.inr ⟨s₂, h0, hevict, ?_⟩)
  split at h
  · cases h
    exact .inl ⟨‹_›, rfl⟩
  rename_i s₃ hsweep
  rcases hflow : findOrCreateFlow B s₃ src a.identification a.ip6Dst a.currentTime m.flow with ⟨s₄, f⟩
  simp only [hflow] at h
  refine .inr ⟨s₃, s₄, f, hsweep, hflow, ?_⟩
  split_ifs at h with hf
  · cases h
    exact .inl ⟨hf, rfl, rfl⟩
  · exact .inr ⟨hf, Option.some.inj h⟩

/-- What a caller can do to an engine: hand it a fragment, or call one of the setters. -/
inductive Op where
  | manage (a : Packet) (m : Malloc)
  | setPerHostMemoryLimit (n : UInt32)
  | setTotalMemoryLimit (n : UInt32)
  | setReassemblyTimeout (t : UInt8)

/-- Every `malloc` of the operation succeeds. -/
def Op.Allocates : Op → Prop
  | .manage _ m => m.source ∧ m.flow ∧ m.unfragmentable ∧ m.datagram
  | _ => True

instance : DecidablePred Op.Allocates
  | .manage _ m => inferInstanceAs (Decidable (m.source ∧ m.flow ∧ m.unfragmentable ∧ m.datagram))
  | .setPerHostMemoryLimit _ | .setTotalMemoryLimit _ | .setReassemblyTimeout _ => isTrue trivial

/-- One operation: the new state and the buffer a fragment call returns. The setters are
`dpi_reordering_ipv6_fragmentation_set_per_host_memory_limit`, `…_set_total_memory_limit` and
`…_set_reassembly_timeout`. -/
def step (s : State) : Op → Option (State × Option (List UInt8))
  | .manage a m => manageIpv6Fragment B s a m
  | .setPerHostMemoryLimit n => some ({ s with perSourceMemoryLimit := n }, none)
  | .setTotalMemoryLimit n => some ({ s with totalMemoryLimit := n }, none)
  | .setReassemblyTimeout t => some ({ s with timeout := t }, none)

/-- The operations of a run, and what each returned. -/
def run (s : State) : List Op → Option (State × List (Option (List UInt8)))
  | [] => some (s, [])
  | op :: ops => match step B s op with
    | none => none
    | some (s', r) => (run s' ops).map fun (t, rs) => (t, r :: rs)

/-- The states an engine reaches from its creation by operations that `allowed` admits. -/
inductive Reachable (allowed : Op → Prop) : State → Prop where
  | enable (tableSize : UInt16) : Reachable allowed (enableIpv6Fragmentation B tableSize)
  | step {s s' : State} {op : Op} {r : Option (List UInt8)} :
      Reachable allowed s → allowed op → step B s op = some (s', r) → Reachable allowed s'

theorem Reachable.run {allowed : Op → Prop} {s t : State} {ops : List Op}
    {rs : List (Option (List UInt8))} (hs : Reachable B allowed s) (hops : ∀ op ∈ ops, allowed op)
    (h : run B s ops = some (t, rs)) : Reachable B allowed t := by
  induction ops generalizing s rs with
  | nil => cases h; exact hs
  | cons op ops ih =>
    simp only [Ipv6Reassembly.run] at h
    split at h
    · cases h
    · obtain ⟨⟨t', rs'⟩, h', he⟩ := Option.map_eq_some'.1 h
      cases he
      exact ih (hs.step (hops op (by simp)) ‹_›) (fun o ho => hops o (by simp [ho])) h'

/-- A run that ends where a decidable test holds: the state it ends in is reachable. -/
theorem Reachable.of_run {allowed : Op → Prop} {s : State} (ops : List Op)
    (P : State → List (Option (List UInt8)) → Prop) [∀ t rs, Decidable (P t rs)]
    (hs : Reachable B allowed s) (hops : ∀ op ∈ ops, allowed op)
    (h : (Ipv6Reassembly.run B s ops).map (fun x => decide (P x.1 x.2)) = some true) :
    ∃ t rs, Reachable B allowed t ∧ Ipv6Reassembly.run B s ops = some (t, rs) ∧ P t rs := by
  obtain ⟨⟨t, rs⟩, hrun, hP⟩ := Option.map_eq_some'.1 h
  exact ⟨t, rs, hs.run B hops hrun, hrun, of_decide_eq_true hP⟩

end

/-! ## Inputs for concrete runs -/

/-- The record sizes of an LP64 target: 48 bytes for a source, 96 for a flow. The default limits
come from a header that is not under src/; the concrete runs set all three before their first
fragment, or never reach a limit. -/
def lp64 : Build := ⟨48, 96, 0, 0, 0⟩

/-- A fixed IPv6 header from the address `::src` to `::`. -/
def header (src : UInt8) : List UInt8 := List.replicate 23 0 ++ src :: List.replicate 16 0

/-- The bytes `[o, e)` of the payload `P` as a fragment from `::src` with identification `id`,
more-fragments flag `mf` and next header `59`, at time `now`. -/
def frag (src : UInt8) (id : UInt32) (P : List UInt8) (o e : Fin (2 ^ 16)) (mf : UInt8)
    (now : UInt32) : Packet where
  unfragmentable := header src
  fragmentable := (P.drop o).take (e - o)
  offset := o.val.toUInt16
  moreFragments := mf
  identification := id
  nextHeader := 59
  currentTime := now
  unfragmentable_size := by simp [header]
  fragmentable_size := lt_of_le_of_lt (List.length_take_le _ _) (by omega)

/-- The setters a run starts with: both memory limits at `2³² − 1` bytes and a timeout of 30
seconds. -/
def looseLimits : List Op :=
  [.setPerHostMemoryLimit 0xFFFFFFFF, .setTotalMemoryLimit 0xFFFFFFFF, .setReassemblyTimeout 30]

end Ipv6Reassembly
