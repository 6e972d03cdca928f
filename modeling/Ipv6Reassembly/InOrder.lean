import Ipv6Reassembly.HonestRuns
import Ipv6Reassembly.Timers

/-!
# Datagrams sent in order

A sender that cuts a payload `P` into fragments and sends them in order, each starting where the
one before ended and only the last without more fragments (`InOrderFrom`), gets `P` back from an
idle engine (`State.Idle`) at its last fragment, behind the unfragmentable part of its first
fragment with the payload length set, and leaves the engine idle again (`in_order_delivery`).
Between the first fragment and the last the engine holds one datagram being put together
(`Assembly`, `holding`); each call inserts its fragment at the end of those held
(`Prefix.insertFragment`), and the last gives back every record and every byte charged.
Datagrams sent one after another come back one after another (`in_order_deliveries`), and a
reachable engine in which no source is live is idle (`idle_of_reachable`).
-/

namespace Ipv6Reassembly

attribute [ext] State

/-! ## A prefix of the payload -/

section Prefix

variable {P : List UInt8} {o e : Nat} {fs : List Fragment}

/-- The fragments hold the first `o` bytes of the payload `P` and nothing else: in order, each a
slice of `P` ending by `o`, and every byte below `o` held. -/
structure Prefix (P : List UInt8) (o : Nat) (fs : List Fragment) : Prop where
  sorted : Sorted fs
  slices : ∀ f ∈ fs, SliceOf P f
  below : ∀ f ∈ fs, f.end ≤ o
  covers : ∀ i, i < o → covers fs i

theorem Prefix.nil (P : List UInt8) : Prefix P 0 [] :=
  ⟨sorted_nil, by simp, by simp, fun _ h => absurd h (Nat.not_lt_zero _)⟩

theorem Prefix.trainFrom (h : Prefix P o fs) : trainFrom 0 fs = true :=
  trainFrom_of_covers h.sorted (fun _ _ => Nat.zero_le _) h.below fun i _ hi => h.covers i hi

theorem Prefix.trainEnd (h : Prefix P o fs) : trainEnd 0 fs = o := by
  refine le_antisymm (trainEnd_le (Nat.zero_le _) h.below) ?_
  cases o with
  | zero => exact Nat.zero_le _
  | succ o =>
    obtain ⟨f, hf, -, hlt⟩ := h.covers o (Nat.lt_succ_self o)
    exact le_trans hlt (end_le_trainEnd h.trainFrom h.sorted.1 f hf)

theorem Prefix.heldBytes (h : Prefix P o fs) : heldBytes fs = o := by
  rw [heldBytes_of_trainFrom h.trainFrom h.sorted.1, h.trainEnd, Nat.sub_zero]

theorem Prefix.flatMap_ptr (h : Prefix P o fs) : fs.flatMap (·.ptr) = P.take o := by
  rw [flatMap_ptr_of_trainFrom h.trainFrom h.sorted.1 h.slices, h.trainEnd, List.drop_zero, Nat.sub_zero]

/-- Inserting the slice `[o, e)` of `P` after a prefix of length `o` gives the prefix of length
`e`, and removes nothing. -/
theorem Prefix.insertFragment (h : Prefix P o fs) (hoe : o ≤ e) (he : e ≤ P.length) :
    Prefix P e (insertFragment fs ((P.drop o).take (e - o)) o e).1 ∧
      (insertFragment fs ((P.drop o).take (e - o)) o e).2 = (0, e - o) := by
  have hnew : Prefix P e (Ipv6Reassembly.insertFragment fs ((P.drop o).take (e - o)) o e).1 := by
    refine ⟨sorted_insertFragment hoe h.sorted, sliceOf_insertFragment h.slices ⟨he, rfl⟩,
      fun g hg => ?_, fun i hi => (covers_insertFragment i).2 ?_⟩
    · rcases mem_insertFragment.1 hg with rfl | ⟨f, hf, hgf⟩
      · exact le_refl e
      · exact le_trans (mem_trim_bounds hgf).2 (le_trans (h.below f hf) hoe)
    · by_cases hoi : o ≤ i
      · exact .inl ⟨hoi, hi⟩
      · exact .inr (h.covers i (by omega))
  have hheld := @heldBytes_insertFragment fs ((P.drop o).take (e - o)) o e hoe
  rw [hnew.heldBytes, h.heldBytes] at hheld
  exact ⟨hnew, Prod.ext (by dsimp only [Ipv6Reassembly.insertFragment] at hheld ⊢; omega) rfl⟩

/-- The fragments `as` carry the payload `P` in order from offset `o`: each is a fragment of `P`
starting where the one before ended, and only the last has no more fragments. -/
def InOrderFrom (P : List UInt8) : Nat → List Packet → Prop
  | _, [] => False
  | o, [a] => a.offset.toNat = o ∧ a.FragmentOf P ∧ a.moreFragments = 0
  | o, a :: b :: as => a.offset.toNat = o ∧ a.FragmentOf P ∧ a.moreFragments ≠ 0 ∧ InOrderFrom P a.end (b :: as)

instance decidableInOrderFrom (P : List UInt8) : ∀ o as, Decidable (InOrderFrom P o as)
  | _, [] => isFalse id
  | o, [a] => inferInstanceAs (Decidable (a.offset.toNat = o ∧ a.FragmentOf P ∧ a.moreFragments = 0))
  | o, a :: b :: as =>
    haveI := decidableInOrderFrom P a.end (b :: as)
    inferInstanceAs (Decidable (a.offset.toNat = o ∧ a.FragmentOf P ∧ a.moreFragments ≠ 0 ∧
      InOrderFrom P a.end (b :: as)))

end Prefix

/-! ## The engine holding one datagram -/

/-- An engine that holds nothing: no source, no flow, empty buckets and timer list, nothing
charged, and an address to hand out. -/
structure State.Idle (s : State) : Prop where
  table : ∀ i < s.tableSize.toNat, s.table i = 0
  timerHead : s.timerHead = 0
  timerTail : s.timerTail = 0
  totalUsedMem : s.totalUsedMem = 0
  sources : ∀ p, s.sources p = none
  flows : ∀ f, s.flows f = none
  brk : s.brk ≠ 0

/-- The bucket of any address is empty in an idle engine. -/
theorem State.Idle.table_hash {s : State} (hs : s.Idle) (hsize : s.tableSize ≠ 0) (addr : In6Addr) :
    s.table (hashFunction s addr) = 0 :=
  hs.table _ (Nat.mod_lt _ (Nat.pos_of_ne_zero fun h => hsize (UInt16.toNat.inj h)))

/-- A datagram the engine is putting together: the key it is filed under, the unfragmentable part
stored from its first fragment, when its timer expires, its declared length and the fragments
received. -/
structure Assembly where
  src : In6Addr
  dst : In6Addr
  id : UInt32
  header : List UInt8
  expires : UInt32
  len : UInt16
  fragments : List Fragment

/-- What the engine charges for an assembly: a source record, a flow record, the stored header and
the bytes of the fragments. -/
def Assembly.used (B : Build) (r : Assembly) : UInt32 :=
  B.sizeofSource + B.sizeofFlow + r.header.length.toUInt32 + (heldBytes r.fragments).toUInt32

theorem Assembly.toNat_used (B : Build) (r : Assembly)
    (h : B.sizeofSource.toNat + B.sizeofFlow.toNat + r.header.length + heldBytes r.fragments < 2 ^ 32) :
    (r.used B).toNat = B.sizeofSource.toNat + B.sizeofFlow.toNat + r.header.length + heldBytes r.fragments := by
  show (((B.sizeofSource.toNat + B.sizeofFlow.toNat) % 2 ^ 32 + r.header.length % 2 ^ 32) % 2 ^ 32 +
    heldBytes r.fragments % 2 ^ 32) % 2 ^ 32 = _
  omega

/-- The assembly the first fragment `a` opens in the engine `s₀`. -/
def Assembly.start (s₀ : State) (a : Packet) : Assembly :=
  ⟨a.ip6Src, a.ip6Dst, a.identification, a.unfragmentable.set 6 a.nextHeader,
    a.currentTime + s₀.timeout.toUInt32, 0, []⟩

/-- The assembly once the fragment `a` is inserted: a last fragment declares the length. -/
def Assembly.insert (r : Assembly) (a : Packet) : Assembly :=
  { r with
    len := if a.moreFragments = 0 then a.end.toUInt16 else r.len
    fragments := (insertFragment r.fragments a.fragmentable a.offset.toNat a.end).1 }

section Holding

variable (B : Build) (s₀ : State) (r : Assembly)

/-- The idle engine `s₀` once it holds the assembly `r`: the source of `r` at `s₀.brk`, alone in
its bucket, and the flow of `r` at the next address, alone on the source's list and on the timer
list, all of it charged. -/
def holding : State :=
  { s₀ with
    table := write s₀.table (hashFunction s₀ r.src) s₀.brk
    totalUsedMem := r.used B
    timerHead := s₀.brk + 1
    timerTail := s₀.brk + 1
    sources := write s₀.sources s₀.brk
      (some ⟨s₀.brk + 1, r.used B, r.src, (hashFunction s₀ r.src).toUInt16, 0, 0⟩)
    flows := write s₀.flows (s₀.brk + 1)
      (some ⟨some r.header, r.len, r.id, r.dst, r.fragments, 0, 0, ⟨r.expires, s₀.brk + 1, 0, 0⟩, s₀.brk⟩)
    brk := s₀.brk + 2 }

@[simp] theorem holding_table : (holding B s₀ r).table = write s₀.table (hashFunction s₀ r.src) s₀.brk := rfl
theorem holding_sources : (holding B s₀ r).sources = write s₀.sources s₀.brk
    (some ⟨s₀.brk + 1, r.used B, r.src, (hashFunction s₀ r.src).toUInt16, 0, 0⟩) := rfl
theorem holding_flows : (holding B s₀ r).flows = write s₀.flows (s₀.brk + 1)
    (some ⟨some r.header, r.len, r.id, r.dst, r.fragments, 0, 0, ⟨r.expires, s₀.brk + 1, 0, 0⟩, s₀.brk⟩) := rfl
@[simp] theorem holding_brk : (holding B s₀ r).brk = s₀.brk + 2 := rfl
@[simp] theorem holding_timerHead : (holding B s₀ r).timerHead = s₀.brk + 1 := rfl
@[simp] theorem holding_totalUsedMem : (holding B s₀ r).totalUsedMem = r.used B := rfl
@[simp] theorem holding_perSourceMemoryLimit : (holding B s₀ r).perSourceMemoryLimit = s₀.perSourceMemoryLimit := rfl
@[simp] theorem holding_totalMemoryLimit : (holding B s₀ r).totalMemoryLimit = s₀.totalMemoryLimit := rfl
@[simp] theorem holding_tableSize : (holding B s₀ r).tableSize = s₀.tableSize := rfl
@[simp] theorem holding_table_self : (holding B s₀ r).table (hashFunction s₀ r.src) = s₀.brk := by
  simp [holding]
@[simp] theorem hashFunction_holding : hashFunction (holding B s₀ r) = hashFunction s₀ := rfl

@[simp] theorem holding_source_self :
    (holding B s₀ r).source s₀.brk = ⟨s₀.brk + 1, r.used B, r.src, (hashFunction s₀ r.src).toUInt16, 0, 0⟩ := by
  simp [holding, State.source]

@[simp] theorem holding_flow_self : (holding B s₀ r).flow (s₀.brk + 1) =
    ⟨some r.header, r.len, r.id, r.dst, r.fragments, 0, 0, ⟨r.expires, s₀.brk + 1, 0, 0⟩, s₀.brk⟩ := by
  simp [holding, State.flow]

end Holding

/-! ## A call on the held datagram -/

section Calls

variable (B : Build) {s₀ : State} {r : Assembly} {a : Packet} {m : Malloc}

/-- The source of the assembly is the first of its bucket. -/
theorem findOrCreateSource_holding (hbrk : s₀.brk ≠ 0) (ok : Bool) :
    findOrCreateSource B (holding B s₀ r) r.src ok = (holding B s₀ r, s₀.brk) := by
  have hw : walk (holding B s₀ r).sourceNext (s₀.brk + 2) s₀.brk = s₀.brk :: _ :=
    if_neg hbrk
  simp [findOrCreateSource, findSourceIn, hw, hbrk]

/-- The flow of the assembly is the only one of its source. -/
theorem findOrCreateFlow_holding (now : UInt32) (ok : Bool) :
    findOrCreateFlow B (holding B s₀ r) s₀.brk r.id r.dst now ok = (holding B s₀ r, s₀.brk + 1) := by
  have hw : walk (holding B s₀ r).flowNext (s₀.brk + 2) (s₀.brk + 1) = (s₀.brk + 1) :: _ :=
    if_neg (Nat.succ_ne_zero _)
  simp [findOrCreateFlow, findFlowIn, hw]

/-- A fragment of the held datagram gets past both loops and reaches `storeFragment` with the two
records, when neither limit is passed and the timer has not expired. -/
theorem manageIpv6Fragment_holding (hsize : s₀.tableSize ≠ 0) (hbrk : s₀.brk ≠ 0)
    (hend : a.end ≤ maxDatagramSize) (hkey : a.key = (r.src, r.dst, r.id))
    (hmem : ¬ s₀.perSourceMemoryLimit < r.used B) (htotal : ¬ s₀.totalMemoryLimit ≤ r.used B)
    (htime : ¬ r.expires < a.currentTime) :
    manageIpv6Fragment B (holding B s₀ r) a m = some (storeFragment B (holding B s₀ r) s₀.brk (s₀.brk + 1) a m) := by
  obtain ⟨hsrc, hdst, hid⟩ : a.ip6Src = r.src ∧ a.ip6Dst = r.dst ∧ a.identification = r.id := by
    simpa [Packet.key] using hkey
  have hevict : evictSource B (holding B s₀ r).brk (holding B s₀ r) s₀.brk = .cont (holding B s₀ r) :=
    evictSource_of_not B (by simp [hmem])
  have hsweep : sweepTimers B (holding B s₀ r).brk (holding B s₀ r) s₀.brk a.currentTime = .cont (holding B s₀ r) :=
    sweepTimers_of_not B (by simp [htime, htotal])
  simp only [manageIpv6Fragment, if_neg (not_lt.2 hend), holding_tableSize, hsize, hsrc, hdst, hid, findOrCreateSource_holding B hbrk,
    hbrk, hevict, hsweep, findOrCreateFlow_holding, if_false, Nat.succ_ne_zero]

/-- Inserting a fragment that cuts nothing from those held gives the held datagram with the
fragment inserted, charged its bytes. -/
theorem insertIntoFlow_holding (hrem : (insertFragment r.fragments a.fragmentable a.offset.toNat a.end).2.1 = 0) :
    insertIntoFlow (holding B s₀ r) s₀.brk (s₀.brk + 1) a = holding B s₀ (r.insert a) := by
  have hheld := @heldBytes_insertFragment r.fragments a.fragmentable a.offset.toNat a.end (Nat.le_add_right _ _)
  rcases h : insertFragment r.fragments a.fragmentable a.offset.toNat a.end with ⟨fs', rem, ins⟩
  rw [h] at hheld hrem
  dsimp only at hheld hrem
  subst hrem
  rw [Nat.add_zero] at hheld
  have hused (v : UInt16) : Assembly.used B { r with len := v, fragments := fs' } = r.used B + ins.toUInt32 := by
    simp only [Assembly.used, hheld, toUInt32_add, add_assoc]
  unfold insertIntoFlow
  by_cases hmf : a.moreFragments = 0
  all_goals
    simp only [hmf, if_true, if_false]
    refine State.ext rfl ?_ rfl rfl rfl rfl rfl rfl (funext fun x => ?_) (funext fun x => ?_) rfl
    · simp [State.charge, State.release, State.flow, holding_flows, h, hused, Assembly.insert, hmf]
    · by_cases hx : x = s₀.brk <;>
        simp [State.charge, State.release, State.flow, holding_sources, holding_flows, h, hused, Assembly.insert, hmf, hx]
    · by_cases hx : x = s₀.brk + 1 <;>
        simp [State.charge, State.release, State.flow, holding_sources, holding_flows, h, hused, Assembly.insert, hmf, hx]

/-- The links of the held datagram: its source heads bucket `hashFunction s₀ r.src` and owns the
flow alone, and the flow's timer is the only one. -/
theorem skeleton_source_holding :
    (holding B s₀ r).skeleton.source s₀.brk = ⟨s₀.brk + 1, hashFunction s₀ r.src, 0, 0⟩ := by
  have hrow : (hashFunction s₀ r.src).toUInt16.toNat = hashFunction s₀ r.src := by
    have := hashFunction_lt s₀ r.src
    simp [Nat.toUInt16, UInt16.toNat, UInt16.ofNat, BitVec.toNat_ofNat]
    omega
  rw [skeleton_source, holding_source_self]
  simp only [Source.links, hrow]

theorem skeleton_flow_holding : (holding B s₀ r).skeleton.flow (s₀.brk + 1) = ⟨0, 0, s₀.brk, 0, 0, s₀.brk + 1⟩ := by
  rw [skeleton_flow, holding_flow_self]
  rfl

/-- Deleting the flow of the held datagram stops its timer, the only one, and takes the flow off
its source, which it leaves without flows. -/
theorem skeleton_deleteFlow_holding : (deleteFlow B (holding B s₀ r) (s₀.brk + 1)).skeleton =
    ((((holding B s₀ r).skeleton.setTimerHead 0).setTimerTail 0).modifySource s₀.brk
      fun x => { x with flows := 0 }).freeFlow (s₀.brk + 1) := by
  rw [skeleton_deleteFlow]
  simp only [Skeleton.deleteFlow, Skeleton.deleteTimer, Skeleton.unlinkFlow, skeleton_flow_holding, if_true]

theorem skeleton_source_deleteFlow_holding :
    (deleteFlow B (holding B s₀ r) (s₀.brk + 1)).skeleton.source s₀.brk = ⟨0, hashFunction s₀ r.src, 0, 0⟩ := by
  have hsome : ((((holding B s₀ r).skeleton.setTimerHead 0).setTimerTail 0).sources s₀.brk).isSome := by
    simp [holding]
  rw [skeleton_deleteFlow_holding, Skeleton.source_freeFlow, Skeleton.source_modifySource_self hsome]
  show { (holding B s₀ r).skeleton.source s₀.brk with flows := 0 } = _
  rw [skeleton_source_holding]

/-- Giving up the flow of the held datagram also deletes its source, which the flow leaves without
flows. -/
theorem deleteFlowAndEmptySource_holding :
    deleteFlowAndEmptySource B (holding B s₀ r) (s₀.brk + 1) =
      removeSource B (deleteFlow B (holding B s₀ r) (s₀.brk + 1))
        ((deleteFlow B (holding B s₀ r) (s₀.brk + 1)).source s₀.brk).row s₀.brk := by
  have hflows : ((deleteFlow B (holding B s₀ r) (s₀.brk + 1)).source s₀.brk).flows = 0 := by
    rw [← Source.links_flows, ← skeleton_source, skeleton_source_deleteFlow_holding]
  have hnull (n : Nat) : deleteFlowsFrom B n (deleteFlow B (holding B s₀ r) (s₀.brk + 1)) 0 =
      deleteFlow B (holding B s₀ r) (s₀.brk + 1) := by
    cases n <;> rfl
  simp only [deleteFlowAndEmptySource, holding_flow_self, hflows, if_true, deleteSource, hnull]

theorem config_deleteFlowAndEmptySource_holding :
    (deleteFlowAndEmptySource B (holding B s₀ r) (s₀.brk + 1)).config = s₀.config := by
  rw [deleteFlowAndEmptySource_holding, config_removeSource, config_deleteFlow]
  rfl

/-- Giving up the flow of the held datagram leaves the engine idle: every record freed, the bucket
and the timer list empty, and every byte charged given back. -/
theorem idle_deleteFlowAndEmptySource_holding (hs : s₀.Idle) :
    (deleteFlowAndEmptySource B (holding B s₀ r) (s₀.brk + 1)).Idle := by
  have hd : (deleteFlow B (holding B s₀ r) (s₀.brk + 1)).skeleton = _ := skeleton_deleteFlow_holding B
  have hrow : ((deleteFlow B (holding B s₀ r) (s₀.brk + 1)).source s₀.brk).row.toNat = hashFunction s₀ r.src := by
    rw [← Source.links_row, ← skeleton_source, skeleton_source_deleteFlow_holding]
  rw [deleteFlowAndEmptySource_holding]
  have ht : (removeSource B (deleteFlow B (holding B s₀ r) (s₀.brk + 1))
      ((deleteFlow B (holding B s₀ r) (s₀.brk + 1)).source s₀.brk).row s₀.brk).skeleton =
      ((deleteFlow B (holding B s₀ r) (s₀.brk + 1)).skeleton.setTable (hashFunction s₀ r.src) 0).freeSource s₀.brk := by
    simp only [skeleton_removeSource, hrow, Skeleton.removeSource, Skeleton.unlinkSource,
      skeleton_source_deleteFlow_holding, if_true]
  refine ⟨fun i hi => ?_, ?_, ?_, ?_, fun q => ?_, fun q => ?_, ?_⟩
  · have h1 := congrArg (·.table i) ht
    rw [hd] at h1
    simp only [skeleton_table, Skeleton.freeSource_table, Skeleton.table_setTable, Skeleton.freeFlow_table,
      Skeleton.modifySource_table, Skeleton.setTimerTail_table, Skeleton.setTimerHead_table, holding_table] at h1
    rw [h1]
    rw [tableSize_removeSource, tableSize_deleteFlow] at hi
    by_cases hh : i = hashFunction s₀ r.src <;> simp [hh, write, hs.table i hi]
  · simpa [hd] using congrArg Skeleton.timerHead ht
  · simpa [hd] using congrArg Skeleton.timerTail ht
  · have hc : (deleteFlow B (holding B s₀ r) (s₀.brk + 1)).totalUsedMem = _ :=
      congrArg Counters.total (counters_deleteFlow B)
    show (removeSource B _ _ _).counters.total = 0
    rw [counters_removeSource]
    simp only [State.counters, Counters.charge, holding_flow_self] at hc
    simp only [hc, Flow.charge, Flow.unfragmentableLength, Option.map_some', Option.getD_some, holding_totalUsedMem,
      Assembly.used]
    abel
  · refine Option.map_eq_none'.1 ((congrArg (·.sources q) ht).trans ?_)
    rw [hd]
    by_cases hq : q = s₀.brk <;>
      simp [Skeleton.freeSource, Skeleton.setTable, Skeleton.modifySource, State.skeleton, holding, write, hq,
        hs.sources]
  · refine Option.map_eq_none'.1 ((congrArg (·.flows q) ht).trans ?_)
    rw [hd]
    by_cases hq : q = s₀.brk + 1 <;>
      simp [Skeleton.freeSource, Skeleton.setTable, Skeleton.freeFlow, State.skeleton, holding, write, hq,
        hs.flows]
  · have := congrArg Skeleton.brk ht
    simp only [hd, skeleton_brk, Skeleton.freeSource_brk, Skeleton.setTable_brk, Skeleton.freeFlow_brk,
      Skeleton.modifySource_brk, Skeleton.setTimerTail_brk, Skeleton.setTimerHead_brk, holding_brk] at this
    exact this ▸ Nat.succ_ne_zero _

/-- A fragment that passes both screens (it starts by the declared length, and it is not a second
last fragment) and cuts nothing from those held is inserted, and the call completes the datagram
exactly when the declared length is set and the fragments form a train from offset `0`. -/
theorem storeFragment_holding (hoff : ¬ (r.len ≠ 0 ∧ r.len < a.offset)) (hmf : ¬ (a.moreFragments = 0 ∧ r.len ≠ 0))
    (hrem : (insertFragment r.fragments a.fragmentable a.offset.toNat a.end).2.1 = 0) :
    storeFragment B (holding B s₀ r) s₀.brk (s₀.brk + 1) a m =
      if (r.insert a).len ≠ 0 ∧ checkTrainOfContiguousFragments (r.insert a).fragments then
        buildCompleteDatagram B (holding B s₀ (r.insert a)) (s₀.brk + 1) m.datagram
      else (holding B s₀ (r.insert a), none) := by
  rw [storeFragment, holding_flow_self, if_neg hoff, if_neg (by simp), if_neg (Option.some_ne_none _)]
  dsimp only
  rw [holding_flow_self, if_neg hmf, insertIntoFlow_holding B hrem, holding_flow_self]

/-- A complete held datagram whose fragments hold its declared length is returned: the stored
header with its payload length set, then the bytes of the fragments in order. -/
theorem buildCompleteDatagram_holding (hmax : r.header.length + r.len.toNat ≤ maxDatagramSize)
    (hheld : heldBytes r.fragments = r.len.toNat) :
    buildCompleteDatagram B (holding B s₀ r) (s₀.brk + 1) true =
      (deleteFlowAndEmptySource B (holding B s₀ r) (s₀.brk + 1),
        some (setPayloadLength r.header (r.len.toNat.toUInt16 + r.header.length.toUInt16 - sizeofIp6Hdr.toUInt16) ++
          r.fragments.flatMap (·.ptr))) := by
  simp [buildCompleteDatagram, compactFragments, Flow.unfragmentableLength, hheld, not_lt.2 hmax]

/-- A fragment sent in order that is not the last is inserted after those held, and the call
returns nothing. -/
theorem storeFragment_holding_more {P : List UInt8} (hlen : r.len = 0) (hpre : Prefix P a.offset.toNat r.fragments)
    (ha : a.FragmentOf P) (hmf : a.moreFragments ≠ 0) :
    storeFragment B (holding B s₀ r) s₀.brk (s₀.brk + 1) a m = (holding B s₀ (r.insert a), none) ∧
      (r.insert a).len = 0 ∧ Prefix P a.end (r.insert a).fragments := by
  have hfr : a.fragmentable = (P.drop a.offset.toNat).take (a.end - a.offset.toNat) := ha.slice.2
  obtain ⟨hpre', hrem⟩ := hpre.insertFragment (show a.offset.toNat ≤ a.end from Nat.le_add_right _ _) ha.slice.1
  rw [← hfr] at hpre' hrem
  have hlen' : (r.insert a).len = 0 := by simp [Assembly.insert, hmf, hlen]
  refine ⟨?_, hlen', hpre'⟩
  rw [storeFragment_holding B (fun h => h.1 hlen) (fun h => h.2 hlen) (congrArg Prod.fst hrem), hlen']
  simp

/-- The last fragment sent in order completes the datagram: the call returns the stored header,
with its payload length set, followed by the payload, and gives the flow and its source up. -/
theorem storeFragment_holding_last {P : List UInt8} (hlen : r.len = 0) (hpre : Prefix P a.offset.toNat r.fragments)
    (ha : a.FragmentOf P) (hmf : a.moreFragments = 0) (hP : P ≠ [])
    (hfit : r.header.length + P.length ≤ maxDatagramSize) :
    storeFragment B (holding B s₀ r) s₀.brk (s₀.brk + 1) a .ok =
      (deleteFlowAndEmptySource B (holding B s₀ (r.insert a)) (s₀.brk + 1),
        some (setPayloadLength r.header (P.length.toUInt16 + r.header.length.toUInt16 - sizeofIp6Hdr.toUInt16) ++ P)) := by
  have hfr : a.fragmentable = (P.drop a.offset.toNat).take (a.end - a.offset.toNat) := ha.slice.2
  have hend : a.end = P.length := ha.last hmf
  obtain ⟨hpre', hrem⟩ := hpre.insertFragment (show a.offset.toNat ≤ a.end from Nat.le_add_right _ _) ha.slice.1
  rw [← hfr] at hpre' hrem
  replace hpre' : Prefix P a.end (r.insert a).fragments := hpre'
  have hlen' : (r.insert a).len.toNat = P.length := by
    simp only [Assembly.insert, hmf, if_true, hend]
    show P.length % 2 ^ 16 = P.length
    unfold maxDatagramSize at hfit
    omega
  have hne : (r.insert a).len ≠ 0 := fun h => (List.length_pos.2 hP).ne (by rw [← hlen', h]; rfl)
  rw [storeFragment_holding B (fun h => h.1 hlen) (fun h => h.2 hlen) (congrArg Prod.fst hrem),
    if_pos ⟨hne, hpre'.trainFrom⟩]
  have hbuild : buildCompleteDatagram B (holding B s₀ (r.insert a)) (s₀.brk + 1) true = _ :=
    buildCompleteDatagram_holding B (by rw [hlen']; exact hfit) (by rw [hlen', hpre'.heldBytes, hend])
  rw [hlen', hpre'.flatMap_ptr, hend, List.take_length] at hbuild
  exact hbuild

end Calls

/-! ## The first fragment -/

section First

variable (B : Build) {s₀ : State} {a : Packet} {m : Malloc}

/-- In an idle engine, a first fragment creates its source at `brk` and its flow at the next
address, and reaches `storeFragment` with them. -/
theorem manageIpv6Fragment_idle (hs : s₀.Idle) (hsize : s₀.tableSize ≠ 0) (hend : a.end ≤ maxDatagramSize)
    (hsrc : m.source = true) (hflow : m.flow = true) :
    manageIpv6Fragment B s₀ a m = some (storeFragment B
      (createFlow B (createSource B s₀ a.ip6Src) s₀.brk a.identification a.ip6Dst a.currentTime)
      s₀.brk (s₀.brk + 1) a m) := by
  have h0 := hs.table_hash hsize a.ip6Src
  have hsource : findOrCreateSource B s₀ a.ip6Src m.source = (createSource B s₀ a.ip6Src, s₀.brk) := by
    simp [findOrCreateSource, findSourceIn, h0, hsrc]
  have hflows : ((createSource B s₀ a.ip6Src).source s₀.brk).flows = 0 := by
    simp [createSource, State.source, h0]
  have hhead : (createSource B s₀ a.ip6Src).timerHead = 0 := by
    simp [createSource, h0, hs.timerHead]
  have hflow : findOrCreateFlow B (createSource B s₀ a.ip6Src) s₀.brk a.identification a.ip6Dst a.currentTime m.flow =
      (createFlow B (createSource B s₀ a.ip6Src) s₀.brk a.identification a.ip6Dst a.currentTime, s₀.brk + 1) := by
    simp [findOrCreateFlow, findFlowIn, hflows, hflow, brk_createSource]
  have hevict : evictSource B (createSource B s₀ a.ip6Src).brk (createSource B s₀ a.ip6Src) s₀.brk =
      .cont (createSource B s₀ a.ip6Src) := evictSource_of_not B (by simp [hflows])
  have hsweep : sweepTimers B (createSource B s₀ a.ip6Src).brk (createSource B s₀ a.ip6Src) s₀.brk a.currentTime =
      .cont (createSource B s₀ a.ip6Src) := sweepTimers_of_not B (by simp [hhead])
  simp only [manageIpv6Fragment, if_neg (not_lt.2 hend), hsize, if_false, hsource, hs.brk, hevict, hsweep, hflow,
    Nat.succ_ne_zero]

/-- Storing the unfragmentable part of the first fragment into the records it created gives the
engine holding the datagram the fragment opens. -/
theorem storeUnfragmentable_created (hs : s₀.Idle) (hsize : s₀.tableSize ≠ 0) :
    storeUnfragmentable (createFlow B (createSource B s₀ a.ip6Src) s₀.brk a.identification a.ip6Dst a.currentTime)
      s₀.brk (s₀.brk + 1) a = holding B s₀ (Assembly.start s₀ a) := by
  have h0 := hs.table_hash hsize a.ip6Src
  refine State.ext (funext fun i => ?_) ?_ ?_ ?_ ?_ ?_ ?_ ?_ (funext fun x => ?_) (funext fun x => ?_) ?_
  rotate_left 8
  · by_cases hx : x = s₀.brk <;>
      simp [storeUnfragmentable, createFlow, createSource, addTimer, State.charge, State.modifyTimer, State.source,
        State.flow, Function.update_apply, h0, hs.timerTail, holding, Assembly.used, Assembly.start, hx]
  · by_cases hx : x = s₀.brk + 1 <;>
      simp [storeUnfragmentable, createFlow, createSource, addTimer, State.charge, State.modifyTimer, State.source,
        State.flow, Function.update_apply, h0, hs.timerTail, holding, Assembly.used, Assembly.start, hx]
  all_goals simp [storeUnfragmentable, createFlow, createSource, addTimer, State.charge, State.modifyTimer,
    State.source, State.flow, Function.update_apply, h0, hs.timerTail, hs.totalUsedMem, holding, Assembly.used,
    Assembly.start]

/-- A flow with no stored unfragmentable part and no declared length stores the part of the
fragment at hand, then goes on as a flow that has one. -/
theorem storeFragment_of_none {s : State} {src f : Ptr} (hf : (s.flows f).isSome)
    (hnone : (s.flow f).unfragmentable = none) (hlen : (s.flow f).len = 0) (hunf : m.unfragmentable = true) :
    storeFragment B s src f a m = storeFragment B (storeUnfragmentable s src f a) src f a m := by
  have hf' : (storeUnfragmentable s src f a).flow f = { s.flow f with unfragmentable := some (a.unfragmentable.set 6 a.nextHeader) } := by
    rw [storeUnfragmentable, State.charge]
    exact State.flow_modifyFlow hf |>.trans (if_pos rfl)
  simp [storeFragment, hnone, hlen, hunf, hf']

/-- The first fragment sent to an idle engine is handled as a fragment of the datagram it opens,
held with nothing received yet. -/
theorem manageIpv6Fragment_first (hs : s₀.Idle) (hsize : s₀.tableSize ≠ 0) (hend : a.end ≤ maxDatagramSize) :
    manageIpv6Fragment B s₀ a .ok =
      some (storeFragment B (holding B s₀ (Assembly.start s₀ a)) s₀.brk (s₀.brk + 1) a .ok) := by
  have hflow : (createFlow B (createSource B s₀ a.ip6Src) s₀.brk a.identification a.ip6Dst a.currentTime).flows
      (s₀.brk + 1) = some ⟨none, 0, a.identification, a.ip6Dst, [], 0, 0,
        ⟨a.currentTime + s₀.timeout.toUInt32, s₀.brk + 1, 0, 0⟩, s₀.brk⟩ := by
    simp [createFlow, createSource, addTimer, State.modifyTimer, State.charge, State.source, Function.update_apply,
      hs.table_hash hsize, hs.timerTail]
  rw [manageIpv6Fragment_idle B hs hsize hend rfl rfl,
    storeFragment_of_none B (by simp [hflow]) (by simp [State.flow, hflow]) (by simp [State.flow, hflow]) rfl,
    storeUnfragmentable_created B hs hsize]

end First

/-! ## Idle engines among the reachable ones -/

/-- A reachable engine in which no source is live is idle: its buckets and its timer list are
empty, no flow is live, and nothing is left charged. -/
theorem idle_of_reachable (B : Build) {allowed : Op → Prop} {s : State} (hs : Reachable B allowed s)
    (hnone : ∀ p, s.sources p = none) : s.Idle := by
  obtain ⟨g, hk⟩ := realizes_of_reachable hs
  have hflows (f : Ptr) : s.flows f = none := Option.not_isSome_iff_eq_none.1 fun hf => by
    simpa [hnone] using (hk.lists.live f (by simpa using hf)).1
  have htable (i : Nat) (hi : i < s.tableSize.toNat) : s.table i = 0 := by
    have hnil : g.chain i = [] := List.eq_nil_iff_forall_not_mem.2 fun p hp => by
      simpa [hnone] using (hk.chains.live p).2 ⟨i, hi, hp⟩
    simpa [hnil] using hk.chains.seg i hi
  have htimers : g.timers = [] := List.eq_nil_iff_forall_not_mem.2 fun f hf => by
    simpa [hflows] using (hk.timers.live f).1 hf
  have hsources : s.tableSources = [] := List.flatMap_eq_nil_iff.2 fun i hi => by
    rw [State.chain, htable i (List.mem_range.1 hi), walk_null]
  refine ⟨htable, by simpa [htimers] using hk.timers.seg, by simpa [htimers] using hk.timers.tail, ?_, hnone,
    hflows, Nat.pos_iff_ne_zero.1 hk.brk_pos⟩
  rw [(ledger_of_reachable B hs).2, hsources]
  rfl

/-- Once the datagram `0, 1, …, 7` from `::1`, sent in one fragment, is delivered, the engine is
idle again. -/
theorem idle_after_one_datagram :
    ∃ s rs, Reachable lp64 (fun _ => True) s ∧
      run lp64 (enableIpv6Fragmentation lp64 1)
        (looseLimits ++ [.manage (frag 1 1 ((List.range 8).map Nat.toUInt8) 0 8 0 0) .ok]) = some (s, rs) ∧
      s.Idle := by
  obtain ⟨s, rs, hs, hrun, h⟩ := (Reachable.enable 1 : Reachable lp64 (fun _ => True) _).of_run lp64
    (looseLimits ++ [.manage (frag 1 1 ((List.range 8).map Nat.toUInt8) 0 8 0 0) .ok])
    (fun s _ => ∀ p < s.brk, (s.sources p).isNone) (fun _ _ => trivial) (by decide)
  obtain ⟨g, hk⟩ := realizes_of_reachable hs
  exact ⟨s, rs, hs, hrun, idle_of_reachable lp64 hs fun p =>
    if hp : p < s.brk then Option.isNone_iff_eq_none.1 (h p hp) else hk.sources_of_le (Nat.le_of_not_lt hp)⟩

/-! ## Runs of fragments in order -/

/-- The datagram a receiver expects from the fragments of the payload `P` whose first fragment is
`a₀`: the unfragmentable part of `a₀` with its next header written in and its payload length set,
followed by `P`. -/
def reassembled (a₀ : Packet) (P : List UInt8) : List UInt8 :=
  setPayloadLength (a₀.unfragmentable.set 6 a₀.nextHeader)
    (P.length + a₀.unfragmentable.length - sizeofIp6Hdr).toUInt16 ++ P

/-- The fragments `a₀ :: as` send the payload `P` in order under one key, and the engine `s` has
room for them: its limits leave room for the whole datagram, which fits the maximum size, and no
fragment comes after the timer the first one starts has run out. -/
structure SentInOrder (B : Build) (s : State) (P : List UInt8) (a₀ : Packet) (as : List Packet) : Prop where
  nonempty : P ≠ []
  order : InOrderFrom P 0 (a₀ :: as)
  key : ∀ a ∈ as, a.key = a₀.key
  time : ∀ a ∈ as, a.currentTime.toNat ≤ a₀.currentTime.toNat + s.timeout.toNat
  wrap : a₀.currentTime.toNat + s.timeout.toNat < 2 ^ 32
  fit : a₀.unfragmentable.length + P.length ≤ maxDatagramSize
  perSource : B.sizeofSource.toNat + B.sizeofFlow.toNat + a₀.unfragmentable.length + P.length ≤
    s.perSourceMemoryLimit.toNat
  total : B.sizeofSource.toNat + B.sizeofFlow.toNat + a₀.unfragmentable.length + P.length < s.totalMemoryLimit.toNat

/-- Whether an engine has room for a datagram depends on its configuration only. -/
theorem SentInOrder.of_config {B : Build} {s t : State} {P : List UInt8} {a₀ : Packet} {as : List Packet}
    (h : SentInOrder B s P a₀ as) (hc : t.config = s.config) : SentInOrder B t P a₀ as := by
  obtain ⟨-, hper, htot, hto⟩ : t.tableSize = s.tableSize ∧ t.perSourceMemoryLimit = s.perSourceMemoryLimit ∧
      t.totalMemoryLimit = s.totalMemoryLimit ∧ t.timeout = s.timeout := by
    simpa [State.config] using hc
  exact ⟨h.nonempty, h.order, h.key, hto ▸ h.time, hto ▸ h.wrap, h.fit, hper ▸ h.perSource, htot ▸ h.total⟩

section Runs

variable (B : Build) {s₀ : State} {P : List UInt8}

/-- A fragment of `P` sent to the engine holding at most `P.length` bytes of it gets past both
loops, while the limits leave room for the whole datagram and the timer has not expired. -/
theorem manageIpv6Fragment_room {r : Assembly} {a : Packet} (hs : s₀.Idle) (hsize : s₀.tableSize ≠ 0)
    (hheld : heldBytes r.fragments ≤ P.length) (hend : a.end ≤ P.length)
    (hkey : a.key = (r.src, r.dst, r.id)) (htime : ¬ r.expires < a.currentTime)
    (hfit : r.header.length + P.length ≤ maxDatagramSize)
    (hper : B.sizeofSource.toNat + B.sizeofFlow.toNat + r.header.length + P.length ≤ s₀.perSourceMemoryLimit.toNat)
    (htot : B.sizeofSource.toNat + B.sizeofFlow.toNat + r.header.length + P.length < s₀.totalMemoryLimit.toNat) :
    manageIpv6Fragment B (holding B s₀ r) a .ok =
      some (storeFragment B (holding B s₀ r) s₀.brk (s₀.brk + 1) a .ok) := by
  have hlim := s₀.perSourceMemoryLimit.toNat_lt_size
  have hused := r.toNat_used B (by unfold UInt32.size at hlim; omega)
  refine manageIpv6Fragment_holding B hsize hs.brk (le_trans hend (le_trans (Nat.le_add_left _ _) hfit)) hkey
    (fun h => ?_) (fun h => ?_) htime
  · have : s₀.perSourceMemoryLimit.toNat < (r.used B).toNat := h
    omega
  · have : s₀.totalMemoryLimit.toNat ≤ (r.used B).toNat := h
    omega

/-- From the engine holding the first `o` bytes of `P`, the rest of the fragments in order each
get past both loops, while the limits leave room for the whole datagram and the timer does not
expire: each call but the last returns nothing, the last returns the datagram, and the engine is
idle again. -/
theorem run_holding (hs : s₀.Idle) (hsize : s₀.tableSize ≠ 0) (hP : P ≠ []) :
    ∀ (as : List Packet) (r : Assembly) (o : Nat), r.len = 0 → Prefix P o r.fragments → InOrderFrom P o as →
      (∀ a ∈ as, a.key = (r.src, r.dst, r.id) ∧ ¬ r.expires < a.currentTime) →
      r.header.length + P.length ≤ maxDatagramSize →
      B.sizeofSource.toNat + B.sizeofFlow.toNat + r.header.length + P.length ≤ s₀.perSourceMemoryLimit.toNat →
      B.sizeofSource.toNat + B.sizeofFlow.toNat + r.header.length + P.length < s₀.totalMemoryLimit.toNat →
      ∃ t, run B (holding B s₀ r) (as.map (Op.manage · .ok)) = some (t, List.replicate (as.length - 1) none ++
        [some (setPayloadLength r.header (P.length.toUInt16 + r.header.length.toUInt16 - sizeofIp6Hdr.toUInt16) ++ P)]) ∧
        t.Idle ∧ t.config = s₀.config
  | [], _, _, _, _, h, _, _, _, _ => h.elim
  | [a], r, _, hlen, hpre, ⟨rfl, ha, hmf⟩, hkt, hfit, hper, htot => by
    have hcall := manageIpv6Fragment_room B hs hsize (hpre.heldBytes ▸ ha.slice.1.trans' (Nat.le_add_right _ _))
      ha.slice.1 (hkt a (List.mem_singleton_self a)).1 (hkt a (List.mem_singleton_self a)).2 hfit hper htot
    refine ⟨deleteFlowAndEmptySource B (holding B s₀ (r.insert a)) (s₀.brk + 1), ?_,
      idle_deleteFlowAndEmptySource_holding B hs, config_deleteFlowAndEmptySource_holding B⟩
    simp only [List.map_cons, List.map_nil, run, step, hcall, storeFragment_holding_last B hlen hpre ha hmf hP hfit]
    rfl
  | a :: b :: as, r, _, hlen, hpre, ⟨rfl, ha, hmf, hrest⟩, hkt, hfit, hper, htot => by
    have hcall := manageIpv6Fragment_room B hs hsize (hpre.heldBytes ▸ ha.slice.1.trans' (Nat.le_add_right _ _))
      ha.slice.1 (hkt a (List.mem_cons_self _ _)).1 (hkt a (List.mem_cons_self _ _)).2 hfit hper htot
    obtain ⟨hstore, hlen', hpre'⟩ : storeFragment B (holding B s₀ r) s₀.brk (s₀.brk + 1) a .ok =
        (holding B s₀ (r.insert a), none) ∧ _ := storeFragment_holding_more B hlen hpre ha hmf
    obtain ⟨t, hrun, ht⟩ := run_holding hs hsize hP (b :: as) (r.insert a) a.end hlen' hpre' hrest
      (fun c hc => hkt c (List.mem_cons_of_mem _ hc)) hfit hper htot
    refine ⟨t, ?_, ht⟩
    rw [List.map_cons, run, step, hcall, hstore]
    dsimp only
    rw [hrun]
    rfl

/-! ### From an idle engine -/

theorem length_header_start (s : State) (a : Packet) :
    (Assembly.start s a).header.length = a.unfragmentable.length :=
  List.length_set _ _ _

/-- Fragments under the key of the first one `a₀`, none arriving after the timer `a₀` starts has
run out, meet the assembly `a₀` opens. -/
theorem start_meets {s : State} {a₀ : Packet} {as : List Packet} (hkey : ∀ a ∈ as, a.key = a₀.key)
    (htime : ∀ a ∈ as, a.currentTime.toNat ≤ a₀.currentTime.toNat + s.timeout.toNat)
    (hwrap : a₀.currentTime.toNat + s.timeout.toNat < 2 ^ 32) :
    ∀ a ∈ a₀ :: as, a.key = ((Assembly.start s a₀).src, (Assembly.start s a₀).dst, (Assembly.start s a₀).id) ∧
      ¬ (Assembly.start s a₀).expires < a.currentTime := by
  intro a ha
  obtain ⟨hk, hle⟩ : a.key = a₀.key ∧ a.currentTime.toNat ≤ a₀.currentTime.toNat + s.timeout.toNat := by
    rcases List.mem_cons.1 ha with rfl | ha
    exacts [⟨rfl, Nat.le_add_right _ _⟩, ⟨hkey a ha, htime a ha⟩]
  refine ⟨hk, fun hlt => ?_⟩
  have hlt' : (a₀.currentTime.toNat + s.timeout.toNat) % 2 ^ 32 < a.currentTime.toNat := hlt
  omega

/-- The payload length the engine writes for the datagram `a₀` opens, once it holds the payload `P`. -/
theorem payloadLength_start (s : State) {a₀ : Packet} (hfit : a₀.unfragmentable.length + P.length ≤ maxDatagramSize) :
    P.length.toUInt16 + (Assembly.start s a₀).header.length.toUInt16 - sizeofIp6Hdr.toUInt16 =
      (P.length + a₀.unfragmentable.length - sizeofIp6Hdr).toUInt16 := by
  have h40 := a₀.unfragmentable_size.1
  apply UInt16.toNat.inj
  rw [length_header_start, toNat_payloadLengthValue (by omega) h40]
  show _ = (P.length + a₀.unfragmentable.length - sizeofIp6Hdr) % 2 ^ 16
  unfold maxDatagramSize at hfit
  omega

/-- From an idle engine, the fragments of the datagram their first one `a₀` opens are handled as
from the engine holding that datagram with nothing received, once that engine lets `a₀` past both
loops. -/
theorem run_idle {s : State} {a₀ : Packet} (as : List Packet) (hs : s.Idle) (hsize : s.tableSize ≠ 0)
    (hend : a₀.end ≤ maxDatagramSize)
    (hroom : manageIpv6Fragment B (holding B s (Assembly.start s a₀)) a₀ .ok =
      some (storeFragment B (holding B s (Assembly.start s a₀)) s.brk (s.brk + 1) a₀ .ok)) :
    run B s ((a₀ :: as).map (Op.manage · .ok)) =
      run B (holding B s (Assembly.start s a₀)) ((a₀ :: as).map (Op.manage · .ok)) := by
  rw [List.map_cons, run, run, step, step, manageIpv6Fragment_first B hs hsize hend, hroom]

/-- Sent in order to an idle engine with room for them, the fragments of a payload `P` are all
taken in and the last one returns the datagram `reassembled a₀ P`; the engine is idle again
afterwards, with the same configuration. -/
theorem in_order_delivery {s : State} {a₀ : Packet} {as : List Packet} (hs : s.Idle) (hsize : s.tableSize ≠ 0)
    (h : SentInOrder B s P a₀ as) :
    ∃ t, run B s ((a₀ :: as).map (Op.manage · .ok)) =
      some (t, List.replicate as.length none ++ [some (reassembled a₀ P)]) ∧ t.Idle ∧ t.config = s.config := by
  have ha₀ : a₀.FragmentOf P := by cases as <;> exact h.order.2.1
  have hkt := start_meets h.key h.time h.wrap
  have hfit : (Assembly.start s a₀).header.length + P.length ≤ maxDatagramSize := length_header_start s a₀ ▸ h.fit
  have hper := length_header_start s a₀ ▸ h.perSource
  have htot := length_header_start s a₀ ▸ h.total
  obtain ⟨t, hrun, ht⟩ := run_holding B hs hsize h.nonempty (a₀ :: as) (Assembly.start s a₀) 0 rfl (Prefix.nil P)
    h.order hkt hfit hper htot
  refine ⟨t, ?_, ht⟩
  rw [run_idle B as hs hsize (ha₀.slice.1.trans (le_trans (Nat.le_add_left _ _) h.fit))
    (manageIpv6Fragment_room B hs hsize (Nat.zero_le _) ha₀.slice.1 (hkt a₀ (List.mem_cons_self _ _)).1
      (hkt a₀ (List.mem_cons_self _ _)).2 hfit hper htot), hrun, payloadLength_start s h.fit]
  rfl

/-- The payload `0, 1, …, 15` from `::1`, sent as `[0, 8)` and `[8, 16)` to an idle engine with room
for it, comes back at the second fragment behind the header of the first. -/
theorem in_order_delivery_two_fragments :
    ∃ t, run lp64 { enableIpv6Fragmentation lp64 1 with perSourceMemoryLimit := 4096, totalMemoryLimit := 4096 }
      ([frag 1 1 ((List.range 16).map Nat.toUInt8) 0 8 1 0, frag 1 1 ((List.range 16).map Nat.toUInt8) 8 16 0 0].map
        (Op.manage · .ok)) =
      some (t, [none, some (setPayloadLength ((header 1).set 6 59) 16 ++ (List.range 16).map Nat.toUInt8)]) ∧
      t.Idle ∧ t.config = (1, 4096, 4096, 0) :=
  @in_order_delivery lp64 ((List.range 16).map Nat.toUInt8)
    { enableIpv6Fragmentation lp64 1 with perSourceMemoryLimit := 4096, totalMemoryLimit := 4096 }
    (frag 1 1 ((List.range 16).map Nat.toUInt8) 0 8 1 0) [frag 1 1 ((List.range 16).map Nat.toUInt8) 8 16 0 0]
    ⟨fun _ _ => rfl, rfl, rfl, rfl, fun _ => rfl, fun _ => rfl, one_ne_zero⟩ (by decide)
    ⟨by decide, by decide, by decide, by decide, by decide, by decide, by decide, by decide⟩

/-- Running two lists of operations one after the other is running their concatenation. -/
theorem run_append {s t : State} {rs₁ : List (Option (List UInt8))} (ops₂ : List Op) :
    ∀ {ops₁ : List Op}, run B s ops₁ = some (t, rs₁) →
      run B s (ops₁ ++ ops₂) = (run B t ops₂).map fun (u, rs₂) => (u, rs₁ ++ rs₂)
  | [], h => by
    obtain ⟨rfl, rfl⟩ := Prod.mk.inj (Option.some.inj h)
    rw [List.nil_append]
    rcases run B s ops₂ with _ | ⟨u, rs₂⟩ <;> rfl
  | op :: ops, h => by
    rw [run] at h
    split at h
    · cases h
    · next s' r hstep =>
      obtain ⟨⟨t', rs'⟩, hrun, he⟩ := Option.map_eq_some'.1 h
      obtain ⟨rfl, rfl⟩ := Prod.mk.inj he
      rw [List.cons_append, run, hstep]
      dsimp only
      rw [run_append ops₂ hrun, Option.map_map]
      rfl

/-- Datagrams sent one after another to an idle engine, each in order and each with room, come
back each at its own last fragment; the engine is idle between them and after the last, with the
same configuration. -/
theorem in_order_deliveries {s : State} (hs : s.Idle) (hsize : s.tableSize ≠ 0) :
    ∀ ds : List (List UInt8 × Packet × List Packet), (∀ d ∈ ds, SentInOrder B s d.1 d.2.1 d.2.2) →
      ∃ t, run B s (ds.flatMap fun d => (d.2.1 :: d.2.2).map (Op.manage · .ok)) =
        some (t, ds.flatMap fun d => List.replicate d.2.2.length none ++ [some (reassembled d.2.1 d.1)]) ∧
        t.Idle ∧ t.config = s.config
  | [], _ => ⟨s, rfl, hs, rfl⟩
  | d :: ds, h => by
    obtain ⟨t₁, hrun₁, ht₁, hc₁⟩ := in_order_delivery B hs hsize (h d (List.mem_cons_self _ _))
    obtain ⟨t, hrun, ht, hc⟩ := in_order_deliveries ht₁ (fun h0 => hsize ((congrArg Prod.fst hc₁).symm.trans h0))
      ds fun d' hd' => (h d' (List.mem_cons_of_mem _ hd')).of_config hc₁
    refine ⟨t, ?_, ht, hc.trans hc₁⟩
    rw [List.flatMap_cons, List.flatMap_cons, run_append B _ hrun₁, hrun]
    rfl

/-- After the payload `0, 1, …, 15` from `::1` in two fragments, the payload `0, 1, …, 7` from `::2`
in one fragment comes back at once. -/
theorem in_order_deliveries_two_sources :
    ∃ t, run lp64 { enableIpv6Fragmentation lp64 1 with perSourceMemoryLimit := 4096, totalMemoryLimit := 4096 }
      [.manage (frag 1 1 ((List.range 16).map Nat.toUInt8) 0 8 1 0) .ok,
        .manage (frag 1 1 ((List.range 16).map Nat.toUInt8) 8 16 0 0) .ok,
        .manage (frag 2 7 ((List.range 8).map Nat.toUInt8) 0 8 0 0) .ok] =
      some (t, [none, some (setPayloadLength ((header 1).set 6 59) 16 ++ (List.range 16).map Nat.toUInt8),
        some (setPayloadLength ((header 2).set 6 59) 8 ++ (List.range 8).map Nat.toUInt8)]) ∧
      t.Idle ∧ t.config = (1, 4096, 4096, 0) :=
  @in_order_deliveries lp64 { enableIpv6Fragmentation lp64 1 with perSourceMemoryLimit := 4096, totalMemoryLimit := 4096 }
    ⟨fun _ _ => rfl, rfl, rfl, rfl, fun _ => rfl, fun _ => rfl, one_ne_zero⟩ (by decide)
    [((List.range 16).map Nat.toUInt8, frag 1 1 ((List.range 16).map Nat.toUInt8) 0 8 1 0,
        [frag 1 1 ((List.range 16).map Nat.toUInt8) 8 16 0 0]),
      ((List.range 8).map Nat.toUInt8, frag 2 7 ((List.range 8).map Nat.toUInt8) 0 8 0 0, [])]
    (List.forall_mem_cons.2
      ⟨⟨by decide, by decide, by decide, by decide, by decide, by decide, by decide, by decide⟩,
        List.forall_mem_singleton.2
          ⟨by decide, by decide, by decide, by decide, by decide, by decide, by decide, by decide⟩⟩)

end Runs

end Ipv6Reassembly
