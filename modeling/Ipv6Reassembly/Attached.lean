import Ipv6Reassembly.InOrder

/-!
# The engine holding one more datagram

A datagram from an address that has no source is put together in records of its own: its first
fragment creates a source at `brk` and a flow at the next address, and every later fragment finds
the two records again and inserts its bytes. The engine `s₀` holding the datagram `r`
(`Assembly`) besides is `attached B s₀ r`; what this needs of `s₀` (`Opening`) holds in every
reachable state (`opening_of_reachable`). Each call passes both loops when the limits leave room
and no timer has run out (`manageIpv6Fragment_attached`), and giving the flow up once it is
complete leaves `s₀` with only `brk` moved on (`deleteFlowAndEmptySource_attached`). So a datagram
sent in order to any reachable engine with room for it comes back at its last fragment, and the
engine is then exactly as it was, but for `brk` (`in_order_delivery_restores`).
-/

namespace Ipv6Reassembly

/-! ## Engines a new datagram can arrive at -/

/-- What a datagram from the address `src` needs of the engine `s` it arrives at: no source of the
bucket of `src` has that address, the heap from `brk` on is free, the bucket is empty or starts
with a live source whose `prev` is `NULL`, and the timer list is empty or runs from a live flow to a
live flow whose timer's `next` is `NULL`. -/
structure Opening (s : State) (src : In6Addr) : Prop where
  brk : s.brk ≠ 0
  sources_free : ∀ p, s.brk ≤ p → s.sources p = none
  flows_free : ∀ f, s.brk ≤ f → s.flows f = none
  fresh : findSourceIn s src (s.table (hashFunction s src)) = 0
  head : s.table (hashFunction s src) ≠ 0 →
    (s.sources (s.table (hashFunction s src))).isSome ∧ (s.source (s.table (hashFunction s src))).prev = 0
  tail : s.timerTail ≠ 0 → (s.flows s.timerTail).isSome ∧ (s.flow s.timerTail).timer.next = 0
  timerHead : s.timerHead ≠ 0 → (s.flows s.timerHead).isSome
  empty : s.timerTail = 0 ↔ s.timerHead = 0

section Opening

variable {s : State} {src : In6Addr}

theorem Opening.lt_of_source (ho : Opening s src) {p : Ptr} (hp : (s.sources p).isSome) : p < s.brk :=
  Nat.lt_of_not_le fun h => by simp [ho.sources_free p h] at hp

theorem Opening.lt_of_flow (ho : Opening s src) {f : Ptr} (hf : (s.flows f).isSome) : f < s.brk :=
  Nat.lt_of_not_le fun h => by simp [ho.flows_free f h] at hf

/-- The head of the bucket of `src` is below `brk`, or `NULL`. -/
theorem Opening.head_lt (ho : Opening s src) : s.table (hashFunction s src) < s.brk := by
  by_cases h : s.table (hashFunction s src) = 0
  · rw [h]
    exact Nat.pos_of_ne_zero ho.brk
  · exact ho.lt_of_source (ho.head h).1

/-- The tail of the timer list is below `brk`, or `NULL`. -/
theorem Opening.tail_lt (ho : Opening s src) : s.timerTail < s.brk := by
  by_cases h : s.timerTail = 0
  · rw [h]
    exact Nat.pos_of_ne_zero ho.brk
  · exact ho.lt_of_flow (ho.tail h).1

theorem getLastD_mem {l : List Ptr} {d : Ptr} (hne : l ≠ []) : l.getLastD d ∈ l := by
  rcases List.eq_nil_or_concat l with hn | ⟨l', x, rfl⟩
  · exact absurd hn hne
  · rw [List.concat_eq_append, getLastD_snoc]
    exact List.mem_append_right _ (List.mem_singleton_self x)

/-- The last node of a list from `NULL` to `NULL` links to `NULL`. -/
theorem Seg.next_getLastD {next prev : Ptr → Ptr} :
    ∀ {xs : List Ptr} {b p : Ptr}, Seg next prev b p xs 0 → xs ≠ [] → next (xs.getLastD 0) = 0
  | [_], _, _, h, _ => h.2.2.2
  | _ :: y :: ys, _, _, h, _ => @Seg.next_getLastD next prev (y :: ys) _ _ h.2.2.2 (List.cons_ne_nil _ _)

/-- A reachable engine with buckets is open to a datagram from an address no source has. -/
theorem opening_of_reachable (B : Build) {allowed : Op → Prop} (hs : Reachable B allowed s) (hsize : s.tableSize ≠ 0)
    (hnone : ∀ p, (s.sources p).isSome → (s.source p).ipv6Srcaddr ≠ src) : Opening s src := by
  obtain ⟨g, hk⟩ := realizes_of_reachable hs
  have hts : 0 < s.tableSize.toNat := Nat.pos_of_ne_zero fun h => hsize (UInt16.toNat.inj h)
  have hi : hashFunction s src < s.tableSize.toNat := Nat.mod_lt _ hts
  have hseg := hk.timers.seg
  have htail : s.timerTail = g.timers.getLastD 0 := hk.timers.tail
  have hmem (h : s.timerTail ≠ 0) : s.timerTail ∈ g.timers := by
    rw [htail] at h ⊢
    exact getLastD_mem fun hn => h (by rw [hn]; rfl)
  refine ⟨Nat.pos_iff_ne_zero.1 hk.brk_pos, fun p hp => hk.sources_of_le hp, fun f hf => hk.flows_of_le hf,
    ?_, fun h0 => ?_, fun h0 => ?_, fun h0 => (hk.timerHead_live h0).1, ?_⟩
  · have hc := (keys_of_reachable B hs).source_created src false hts hnone
    unfold findOrCreateSource at hc
    by_contra hne
    rw [if_pos hne] at hc
    exact hne (congrArg Prod.snd hc)
  · obtain ⟨x, xs, hx⟩ : ∃ x xs, g.chain (hashFunction s src) = x :: xs := by
      have hc := hk.chains.seg _ hi
      cases hxs : g.chain (hashFunction s src) with
      | nil => rw [hxs] at hc; exact absurd hc h0
      | cons x xs => exact ⟨x, xs, rfl⟩
    have hc := hk.chains.seg _ hi
    rw [hx] at hc
    obtain ⟨hhx, -, hprev, -⟩ := hc
    simp only [skeleton_table] at hhx
    rw [hhx]
    refine ⟨by simpa using (hk.chains.live x).2 ⟨_, hi, by simp [hx]⟩, ?_⟩
    simpa [Skeleton.sourcePrev, skeleton_source] using hprev
  · have hl := (hk.timers.live _).1 (hmem h0)
    refine ⟨by simpa using hl, ?_⟩
    have hne : g.timers ≠ [] := List.ne_nil_of_mem (hmem h0)
    have := hseg.next_getLastD hne
    rw [← htail] at this
    simpa [Skeleton.timerNext, skeleton_flow] using this
  · have hnil : s.timerHead = 0 ↔ g.timers = [] := by
      constructor
      · intro h
        cases ht : g.timers with
        | nil => rfl
        | cons x xs =>
          rw [ht] at hseg
          exact absurd (hseg.1.symm.trans h) hseg.2.1
      · intro h
        rw [h] at hseg
        exact hseg
    rw [hnil]
    refine ⟨fun h0 => ?_, fun h => by rw [htail, h]; rfl⟩
    by_contra hne
    exact hseg.ne_zero (h0 ▸ htail ▸ getLastD_mem hne)

end Opening

/-! ## The engine holding the datagram -/

section Attached

variable (B : Build) (s₀ : State) (r : Assembly)

/-- The engine `s₀` once it holds the assembly `r` as well: the source of `r` at `s₀.brk`, at the
head of its bucket, and the flow of `r` at the next address, alone on the source's list and last on
the timer list, all of it charged. -/
def attached : State :=
  { s₀ with
    table := write s₀.table (hashFunction s₀ r.src) s₀.brk
    totalUsedMem := s₀.totalUsedMem + r.used B
    timerHead := if s₀.timerTail = 0 then s₀.brk + 1 else s₀.timerHead
    timerTail := s₀.brk + 1
    sources := write
      (if s₀.table (hashFunction s₀ r.src) = 0 then s₀.sources
        else (s₀.modifySource (s₀.table (hashFunction s₀ r.src)) fun x => { x with prev := s₀.brk }).sources)
      s₀.brk (some ⟨s₀.brk + 1, r.used B, r.src, (hashFunction s₀ r.src).toUInt16, 0, s₀.table (hashFunction s₀ r.src)⟩)
    flows := write
      (if s₀.timerTail = 0 then s₀.flows
        else (s₀.modifyTimer s₀.timerTail fun x => { x with next := s₀.brk + 1 }).flows)
      (s₀.brk + 1)
      (some ⟨some r.header, r.len, r.id, r.dst, r.fragments, 0, 0, ⟨r.expires, s₀.brk + 1, s₀.timerTail, 0⟩, s₀.brk⟩)
    brk := s₀.brk + 2 }

theorem attached_sources : (attached B s₀ r).sources = write
    (if s₀.table (hashFunction s₀ r.src) = 0 then s₀.sources
      else (s₀.modifySource (s₀.table (hashFunction s₀ r.src)) fun x => { x with prev := s₀.brk }).sources)
    s₀.brk (some ⟨s₀.brk + 1, r.used B, r.src, (hashFunction s₀ r.src).toUInt16, 0, s₀.table (hashFunction s₀ r.src)⟩) :=
  rfl
theorem attached_flows : (attached B s₀ r).flows = write
    (if s₀.timerTail = 0 then s₀.flows else (s₀.modifyTimer s₀.timerTail fun x => { x with next := s₀.brk + 1 }).flows)
    (s₀.brk + 1)
    (some ⟨some r.header, r.len, r.id, r.dst, r.fragments, 0, 0, ⟨r.expires, s₀.brk + 1, s₀.timerTail, 0⟩, s₀.brk⟩) :=
  rfl
theorem attached_timerHead : (attached B s₀ r).timerHead = if s₀.timerTail = 0 then s₀.brk + 1 else s₀.timerHead :=
  rfl
@[simp] theorem attached_table : (attached B s₀ r).table = write s₀.table (hashFunction s₀ r.src) s₀.brk := rfl
@[simp] theorem attached_brk : (attached B s₀ r).brk = s₀.brk + 2 := rfl
@[simp] theorem attached_timerTail : (attached B s₀ r).timerTail = s₀.brk + 1 := rfl
@[simp] theorem attached_totalUsedMem : (attached B s₀ r).totalUsedMem = s₀.totalUsedMem + r.used B := rfl
@[simp] theorem attached_perSourceMemoryLimit : (attached B s₀ r).perSourceMemoryLimit = s₀.perSourceMemoryLimit := rfl
@[simp] theorem attached_totalMemoryLimit : (attached B s₀ r).totalMemoryLimit = s₀.totalMemoryLimit := rfl
@[simp] theorem attached_tableSize : (attached B s₀ r).tableSize = s₀.tableSize := rfl
@[simp] theorem hashFunction_attached : hashFunction (attached B s₀ r) = hashFunction s₀ := rfl

@[simp] theorem attached_source_self : (attached B s₀ r).source s₀.brk =
    ⟨s₀.brk + 1, r.used B, r.src, (hashFunction s₀ r.src).toUInt16, 0, s₀.table (hashFunction s₀ r.src)⟩ := by
  simp [attached_sources, State.source]

@[simp] theorem attached_flow_self : (attached B s₀ r).flow (s₀.brk + 1) =
    ⟨some r.header, r.len, r.id, r.dst, r.fragments, 0, 0, ⟨r.expires, s₀.brk + 1, s₀.timerTail, 0⟩, s₀.brk⟩ := by
  simp [attached_flows, State.flow]

end Attached

/-! ## A call on the datagram held -/

section Calls

variable (B : Build) {s₀ : State} {r : Assembly} {a : Packet} {m : Malloc}

/-- The source of the datagram heads its bucket. -/
theorem findOrCreateSource_attached (hbrk : s₀.brk ≠ 0) (ok : Bool) :
    findOrCreateSource B (attached B s₀ r) r.src ok = (attached B s₀ r, s₀.brk) := by
  have hw : walk (attached B s₀ r).sourceNext (s₀.brk + 2) s₀.brk = s₀.brk :: _ := if_neg hbrk
  simp [findOrCreateSource, findSourceIn, hw, hbrk]

/-- The flow of the datagram is the only one of its source. -/
theorem findOrCreateFlow_attached (now : UInt32) (ok : Bool) :
    findOrCreateFlow B (attached B s₀ r) s₀.brk r.id r.dst now ok = (attached B s₀ r, s₀.brk + 1) := by
  have hw : walk (attached B s₀ r).flowNext (s₀.brk + 2) (s₀.brk + 1) = (s₀.brk + 1) :: _ :=
    if_neg (Nat.succ_ne_zero _)
  simp [findOrCreateFlow, findFlowIn, hw]

/-- The oldest timer of the engine holding the datagram: the datagram's own when the engine had
none, the engine's oldest otherwise, expiring when it did. -/
theorem expirationTime_timerHead_attached (ho : Opening s₀ r.src) :
    ((attached B s₀ r).flow (attached B s₀ r).timerHead).timer.expirationTime =
      if s₀.timerTail = 0 then r.expires else (s₀.flow s₀.timerHead).timer.expirationTime := by
  rw [attached_timerHead]
  by_cases ht : s₀.timerTail = 0
  · simp only [ht, if_true, attached_flow_self]
  · have h0 : s₀.timerHead ≠ 0 := fun h => ht (ho.empty.2 h)
    have hne : s₀.timerHead ≠ s₀.brk + 1 := fun e =>
      absurd (ho.lt_of_flow (ho.timerHead h0)) (by rw [e]; exact Nat.not_lt.2 (Nat.le_succ _))
    have hlive := ho.timerHead h0
    by_cases hh : s₀.timerHead = s₀.timerTail
    · rw [hh] at hne hlive ⊢
      obtain ⟨x, hx⟩ := Option.isSome_iff_exists.1 hlive
      simp [ht, hne, attached_flows, State.flow, State.modifyTimer, hx]
    · simp [ht, hne, hh, attached_flows, State.flow, State.modifyTimer]

/-- A fragment of the datagram gets past both loops and reaches `storeFragment` with its two
records, when neither limit is passed and no timer has run out. -/
theorem manageIpv6Fragment_attached (ho : Opening s₀ r.src) (hsize : s₀.tableSize ≠ 0)
    (hend : a.end ≤ maxDatagramSize) (hkey : a.key = (r.src, r.dst, r.id))
    (hmem : ¬ s₀.perSourceMemoryLimit < r.used B) (htotal : ¬ s₀.totalMemoryLimit ≤ s₀.totalUsedMem + r.used B)
    (htime : ¬ r.expires < a.currentTime)
    (hold : s₀.timerTail ≠ 0 → ¬ (s₀.flow s₀.timerHead).timer.expirationTime < a.currentTime) :
    manageIpv6Fragment B (attached B s₀ r) a m =
      some (storeFragment B (attached B s₀ r) s₀.brk (s₀.brk + 1) a m) := by
  obtain ⟨hsrc, hdst, hid⟩ : a.ip6Src = r.src ∧ a.ip6Dst = r.dst ∧ a.identification = r.id := by
    simpa [Packet.key] using hkey
  have hevict : evictSource B (attached B s₀ r).brk (attached B s₀ r) s₀.brk = .cont (attached B s₀ r) :=
    evictSource_of_not B (by simp [hmem])
  have hsweep : sweepTimers B (attached B s₀ r).brk (attached B s₀ r) s₀.brk a.currentTime =
      .cont (attached B s₀ r) := by
    refine sweepTimers_of_not B fun hg => hg.2.elim (fun he => ?_) htotal
    rw [expirationTime_timerHead_attached B ho] at he
    split_ifs at he with ht
    exacts [htime he, hold ht he]
  simp only [manageIpv6Fragment, if_neg (not_lt.2 hend), attached_tableSize, hsize, hsrc, hdst, hid,
    findOrCreateSource_attached B ho.brk, ho.brk, hevict, hsweep, findOrCreateFlow_attached, if_false,
    Nat.succ_ne_zero]

@[simp] theorem Assembly.insert_src (r : Assembly) (a : Packet) : (r.insert a).src = r.src := rfl

/-- What the engine charges for a datagram does not read its declared length. -/
@[simp] theorem Assembly.used_withLen (r : Assembly) (v : UInt16) : Assembly.used B { r with len := v } = r.used B :=
  rfl

/-- Inserting a fragment gives the datagram with the fragment inserted, charged the bytes it adds
and credited those it cuts. -/
theorem insertIntoFlow_attached :
    insertIntoFlow (attached B s₀ r) s₀.brk (s₀.brk + 1) a = attached B s₀ (r.insert a) := by
  have hheld := @heldBytes_insertFragment r.fragments a.fragmentable a.offset.toNat a.end (Nat.le_add_right _ _)
  rcases h : insertFragment r.fragments a.fragmentable a.offset.toNat a.end with ⟨fs', rem, ins⟩
  rw [h] at hheld
  dsimp only at hheld
  have hused : (r.insert a).used B = r.used B + ins.toUInt32 - rem.toUInt32 := by
    have h32 : (heldBytes fs').toUInt32 + rem.toUInt32 = (heldBytes r.fragments).toUInt32 + ins.toUInt32 := by
      rw [← toUInt32_add, ← toUInt32_add, hheld]
    simp only [Assembly.used, Assembly.insert, h]
    rw [eq_sub_iff_add_eq, add_assoc, h32, ← add_assoc]
  -- a last fragment declares the length; the records are otherwise those of `attached`
  have hlen : (if a.moreFragments = 0 then (attached B s₀ r).modifyFlow (s₀.brk + 1) fun x => { x with len := a.end.toUInt16 }
      else attached B s₀ r) = attached B s₀ { r with len := (r.insert a).len } := by
    by_cases hmf : a.moreFragments = 0
    · rw [if_pos hmf]
      refine State.ext rfl rfl rfl rfl rfl rfl rfl rfl rfl (funext fun x => ?_) rfl
      by_cases hx : x = s₀.brk + 1 <;> simp [attached_flows, Assembly.insert, hmf, hx]
    · simp only [hmf, if_false, Assembly.insert]
  unfold insertIntoFlow
  dsimp only
  rw [hlen, attached_flow_self]
  dsimp only
  rw [h]
  refine State.ext rfl ?_ rfl rfl rfl rfl rfl rfl (funext fun x => ?_) (funext fun x => ?_) rfl
  · simp [State.charge, State.release, hused, add_sub_assoc, add_assoc]
  · by_cases hx : x = s₀.brk <;> simp [State.charge, State.release, attached_sources, hused, hx, add_sub_assoc]
  · by_cases hx : x = s₀.brk + 1 <;> simp [State.charge, State.release, attached_flows, Assembly.insert, h, hx]

/-- A fragment that passes both screens (it starts by the declared length, and it is not a second
last fragment) is inserted, and the call completes the datagram exactly when the declared length is
set and the fragments form a train from offset `0`. -/
theorem storeFragment_attached (hoff : ¬ (r.len ≠ 0 ∧ r.len < a.offset)) (hmf : ¬ (a.moreFragments = 0 ∧ r.len ≠ 0)) :
    storeFragment B (attached B s₀ r) s₀.brk (s₀.brk + 1) a m =
      if (r.insert a).len ≠ 0 ∧ checkTrainOfContiguousFragments (r.insert a).fragments then
        buildCompleteDatagram B (attached B s₀ (r.insert a)) (s₀.brk + 1) m.datagram
      else (attached B s₀ (r.insert a), none) := by
  rw [storeFragment, attached_flow_self, if_neg hoff, if_neg (by simp), if_neg (Option.some_ne_none _)]
  dsimp only
  rw [attached_flow_self, if_neg hmf, insertIntoFlow_attached B, attached_flow_self]

/-- A complete datagram whose fragments hold its declared length is returned: the stored header
with its payload length set, then the bytes of the fragments in order. -/
theorem buildCompleteDatagram_attached (hmax : r.header.length + r.len.toNat ≤ maxDatagramSize)
    (hheld : heldBytes r.fragments = r.len.toNat) :
    buildCompleteDatagram B (attached B s₀ r) (s₀.brk + 1) true =
      (deleteFlowAndEmptySource B (attached B s₀ r) (s₀.brk + 1),
        some (setPayloadLength r.header (r.len.toNat.toUInt16 + r.header.length.toUInt16 - sizeofIp6Hdr.toUInt16) ++
          r.fragments.flatMap (·.ptr))) := by
  simp [buildCompleteDatagram, compactFragments, Flow.unfragmentableLength, hheld, not_lt.2 hmax]

end Calls

/-! ## The first fragment -/

section First

variable (B : Build) {s₀ : State} {a : Packet} {m : Malloc}

/-- `createSource` when the bucket's head is not at `brk`: the new source heads the bucket, and the
old head, if any, links back to it. -/
theorem createSource_of_ne {s : State} {addr : In6Addr} (hob : s.table (hashFunction s addr) ≠ s.brk) :
    createSource B s addr = { s with
      table := write s.table (hashFunction s addr) s.brk
      totalUsedMem := s.totalUsedMem + B.sizeofSource
      sources := write
        (if s.table (hashFunction s addr) = 0 then s.sources
          else (s.modifySource (s.table (hashFunction s addr)) fun x => { x with prev := s.brk }).sources)
        s.brk (some ⟨0, B.sizeofSource, addr, (hashFunction s addr).toUInt16, 0, s.table (hashFunction s addr)⟩)
      brk := s.brk + 1 } := by
  unfold createSource
  by_cases h0 : s.table (hashFunction s addr) = 0
  · simp only [h0, if_true]
    rfl
  · simp only [h0, if_false]
    refine State.ext rfl rfl rfl rfl rfl rfl rfl rfl (funext fun x => ?_) rfl rfl
    by_cases hx : x = s.brk <;> simp [hx, hob, Ne.symm hob, Function.update_apply]

/-- `createFlow` for a source with no flow, when the timer list does not end at `brk`: the new flow
is the source's only one and the last timer. -/
theorem createFlow_of_flowless {s : State} {src : Ptr} (hsrc : (s.sources src).isSome) (h0 : (s.source src).flows = 0)
    (htail : s.timerTail ≠ s.brk) (id : UInt32) (dst : In6Addr) (now : UInt32) :
    createFlow B s src id dst now = { s with
      totalUsedMem := s.totalUsedMem + B.sizeofFlow
      timerHead := if s.timerTail = 0 then s.brk else s.timerHead
      timerTail := s.brk
      sources := write s.sources src
        (some { s.source src with sourceUsedMem := (s.source src).sourceUsedMem + B.sizeofFlow, flows := s.brk })
      flows := write
        (if s.timerTail = 0 then s.flows else (s.modifyTimer s.timerTail fun x => { x with next := s.brk }).flows)
        s.brk (some ⟨none, 0, id, dst, [], 0, 0, ⟨now + s.timeout.toUInt32, s.brk, s.timerTail, 0⟩, src⟩)
      brk := s.brk + 1 } := by
  obtain ⟨x, hx⟩ := Option.isSome_iff_exists.1 hsrc
  have hxf : x.flows = 0 := by simpa [State.source, hx] using h0
  unfold createFlow addTimer
  by_cases ht : s.timerTail = 0
  all_goals
    simp only [h0, if_true, State.charge, State.modifySource_timerTail, State.setFlow_timerTail, ht, if_false]
    refine State.ext rfl rfl rfl rfl rfl rfl rfl rfl (funext fun q => ?_) (funext fun q => ?_) rfl
    · by_cases hq : q = src <;> simp [State.modifyTimer, State.source, hx, hq]
    · by_cases hq : q = s.brk <;>
        simp [State.modifyTimer, State.flow, Function.update_apply, hq, htail, Ne.symm htail]

/-- Storing the unfragmentable part of the first fragment from a new address into the records the
call created gives the engine holding the datagram the fragment opens. -/
theorem storeUnfragmentable_opened (ho : Opening s₀ a.ip6Src) :
    storeUnfragmentable (createFlow B (createSource B s₀ a.ip6Src) s₀.brk a.identification a.ip6Dst a.currentTime)
      s₀.brk (s₀.brk + 1) a = attached B s₀ (Assembly.start s₀ a) := by
  have hob : s₀.table (hashFunction s₀ a.ip6Src) ≠ s₀.brk := Nat.ne_of_lt ho.head_lt
  have hft : s₀.timerTail ≠ s₀.brk + 1 := Nat.ne_of_lt (Nat.lt_succ_of_lt ho.tail_lt)
  rw [createSource_of_ne B hob, createFlow_of_flowless B (by simp) (by simp [State.source]) hft]
  refine State.ext rfl ?_ rfl rfl rfl rfl rfl rfl (funext fun x => ?_) (funext fun x => ?_) rfl
  · simp [storeUnfragmentable, State.charge, Assembly.used, Assembly.start, add_assoc]
  · by_cases hx : x = s₀.brk
    · simp [storeUnfragmentable, State.charge, State.source, hx, attached_sources, Assembly.used, Assembly.start,
        add_assoc]
    · simp [storeUnfragmentable, State.charge, hx, attached_sources, Assembly.start]
  · by_cases hx : x = s₀.brk + 1
    · simp [storeUnfragmentable, State.charge, hx, attached_flows, Assembly.start]
    · by_cases ht : s₀.timerTail = 0 <;>
        simp [storeUnfragmentable, State.charge, State.modifyTimer, hx, ht, attached_flows]

/-- The first fragment from an address that has no source creates the two records of its
datagram and, when the engine is below its total limit and its oldest timer has not run out,
reaches `storeFragment` with the engine holding that datagram with nothing received yet. -/
theorem manageIpv6Fragment_opening (ho : Opening s₀ a.ip6Src) (hsize : s₀.tableSize ≠ 0)
    (hend : a.end ≤ maxDatagramSize) (htotal : ¬ s₀.totalMemoryLimit ≤ s₀.totalUsedMem + B.sizeofSource)
    (hold : s₀.timerHead ≠ 0 → ¬ (s₀.flow s₀.timerHead).timer.expirationTime < a.currentTime) :
    manageIpv6Fragment B s₀ a .ok =
      some (storeFragment B (attached B s₀ (Assembly.start s₀ a)) s₀.brk (s₀.brk + 1) a .ok) := by
  have hob : s₀.table (hashFunction s₀ a.ip6Src) ≠ s₀.brk := Nat.ne_of_lt ho.head_lt
  have hft : s₀.timerTail ≠ s₀.brk + 1 := Nat.ne_of_lt (Nat.lt_succ_of_lt ho.tail_lt)
  have hsource : findOrCreateSource B s₀ a.ip6Src Malloc.ok.source = (createSource B s₀ a.ip6Src, s₀.brk) := by
    simp [findOrCreateSource, ho.fresh, Malloc.ok]
  have hflows : ((createSource B s₀ a.ip6Src).source s₀.brk).flows = 0 := by
    rw [createSource_of_ne B hob]
    simp [State.source]
  have hevict : evictSource B (createSource B s₀ a.ip6Src).brk (createSource B s₀ a.ip6Src) s₀.brk =
      .cont (createSource B s₀ a.ip6Src) := evictSource_of_not B (by simp [hflows])
  have hsweep : sweepTimers B (createSource B s₀ a.ip6Src).brk (createSource B s₀ a.ip6Src) s₀.brk a.currentTime =
      .cont (createSource B s₀ a.ip6Src) := by
    refine sweepTimers_of_not B fun hg => ?_
    rw [createSource_of_ne B hob] at hg
    exact hg.2.elim (hold hg.1) htotal
  have hflow : findOrCreateFlow B (createSource B s₀ a.ip6Src) s₀.brk a.identification a.ip6Dst a.currentTime
      Malloc.ok.flow = (createFlow B (createSource B s₀ a.ip6Src) s₀.brk a.identification a.ip6Dst a.currentTime,
        s₀.brk + 1) := by
    simp [findOrCreateFlow, findFlowIn, hflows, brk_createSource, Malloc.ok]
  have hrec : (createFlow B (createSource B s₀ a.ip6Src) s₀.brk a.identification a.ip6Dst a.currentTime).flows
      (s₀.brk + 1) = some ⟨none, 0, a.identification, a.ip6Dst, [], 0, 0,
        ⟨a.currentTime + s₀.timeout.toUInt32, s₀.brk + 1, s₀.timerTail, 0⟩, s₀.brk⟩ := by
    rw [createSource_of_ne B hob, createFlow_of_flowless B (by simp) (by simp [State.source]) hft]
    simp
  simp only [manageIpv6Fragment, if_neg (not_lt.2 hend), hsize, if_false, hsource, ho.brk, hevict, hsweep, hflow,
    Nat.succ_ne_zero]
  rw [storeFragment_of_none B (by simp [hrec]) (by simp [State.flow, hrec]) (by simp [State.flow, hrec]) rfl,
    storeUnfragmentable_opened B ho]

end First

/-! ## Debits -/

section Release

variable {s : State}

theorem State.release_zero (src : Ptr) : s.release src 0 = s := by
  refine State.ext rfl (sub_zero _) rfl rfl rfl rfl rfl rfl (funext fun q => ?_) rfl rfl
  by_cases hq : q = src
  · subst hq
    rcases h : s.sources q with _ | x <;> simp [State.release, h]
  · simp [State.release, hq]

theorem State.release_release (src : Ptr) (a b : UInt32) :
    (s.release src a).release src b = s.release src (a + b) := by
  refine State.ext rfl (sub_sub _ _ _) rfl rfl rfl rfl rfl rfl (funext fun q => ?_) rfl rfl
  by_cases hq : q = src
  · subst hq
    rcases h : s.sources q with _ | x <;> simp [State.release, h, sub_sub]
  · simp [State.release, hq]

/-- The loop of `delete_flow` over the fragments debits their lengths at once. -/
theorem foldl_release (src : Ptr) (n : Fragment → UInt32) :
    ∀ (fs : List Fragment) (s : State), fs.foldl (fun s fr => s.release src (n fr)) s = s.release src (fs.map n).sum
  | [], s => s.release_zero src |>.symm
  | fr :: fs, s => by
    rw [List.foldl_cons, foldl_release src n fs, State.release_release, List.map_cons, List.sum_cons]

end Release

/-! ## Giving the datagram up -/

section Give

variable (B : Build) {s₀ : State} {r : Assembly}

theorem State.flow_release (s : State) (p q : Ptr) (n : UInt32) : (s.release p n).flow q = s.flow q := rfl

theorem deleteTimer_release (s : State) (p t : Ptr) (n : UInt32) :
    deleteTimer (s.release p n) t = (deleteTimer s t).release p n := by
  simp only [deleteTimer, State.flow_release]
  split_ifs <;> rfl

/-- Stopping the timer of the datagram, the last one, gives the engine its timer list back. -/
theorem deleteTimer_attached (ho : Opening s₀ r.src) :
    deleteTimer (attached B s₀ r) (s₀.brk + 1) =
      { attached B s₀ r with
        timerHead := s₀.timerHead
        timerTail := s₀.timerTail
        flows := write s₀.flows (s₀.brk + 1) ((attached B s₀ r).flows (s₀.brk + 1)) } := by
  have hft : s₀.timerTail ≠ s₀.brk + 1 := Nat.ne_of_lt (Nat.lt_succ_of_lt ho.tail_lt)
  unfold deleteTimer
  simp only [attached_flow_self, if_true]
  by_cases ht : s₀.timerTail = 0
  · simp only [ht, if_true]
    refine State.ext rfl rfl rfl (ho.empty.1 ht).symm rfl rfl rfl rfl rfl (funext fun x => ?_) rfl
    by_cases hx : x = s₀.brk + 1 <;> simp [attached_flows, ht, hx]
  · obtain ⟨hlive, hnext⟩ := ho.tail ht
    obtain ⟨y, hy⟩ := Option.isSome_iff_exists.1 hlive
    simp only [ht, if_false]
    refine State.ext rfl rfl rfl (if_neg ht) rfl rfl rfl rfl rfl (funext fun x => ?_) rfl
    by_cases hx : x = s₀.brk + 1
    · simp [State.modifyTimer, attached_flows, ht, hx, Ne.symm hft]
    · by_cases hxt : x = s₀.timerTail
      · subst hxt
        simp only [State.flow, hy, Option.getD_some] at hnext
        simp [State.modifyTimer, attached_flows, ht, hx, hy]
        rw [← hnext]
      · simp [State.modifyTimer, attached_flows, ht, hx, hxt]

/-- Deleting the flow of the datagram takes back the flow record, its timer and every byte charged
for it, and leaves the source as `find_or_create_source` made it. -/
theorem deleteFlow_attached (ho : Opening s₀ r.src) :
    deleteFlow B (attached B s₀ r) (s₀.brk + 1) = { createSource B s₀ r.src with brk := s₀.brk + 2 } := by
  have hob : s₀.table (hashFunction s₀ r.src) ≠ s₀.brk := Nat.ne_of_lt ho.head_lt
  have hfree := ho.flows_free (s₀.brk + 1) (Nat.le_succ _)
  have hcharge : r.used B - (B.sizeofFlow + (r.fragments.map fun fr => (fr.end - fr.offset).toUInt32).sum +
      r.header.length.toUInt32) = B.sizeofSource := by
    rw [sum_map_toUInt32]
    simp only [Assembly.used, heldBytes]
    abel
  rw [createSource_of_ne B hob]
  unfold deleteFlow
  simp only [attached_flow_self, foldl_release, deleteTimer_release, State.release_release, deleteTimer_attached B ho,
    if_true]
  refine State.ext rfl ?_ rfl rfl rfl rfl rfl rfl (funext fun x => ?_) (funext fun x => ?_) rfl
  · show s₀.totalUsedMem + r.used B - _ = _
    rw [add_sub_assoc, hcharge]
  · by_cases hx : x = s₀.brk <;> simp [State.release, attached_sources, hx, hcharge]
  · by_cases hx : x = s₀.brk + 1 <;> simp [State.release, hx, hfree]

theorem toNat_toUInt16_hashFunction (s : State) (addr : In6Addr) :
    (hashFunction s addr).toUInt16.toNat = hashFunction s addr :=
  Nat.mod_eq_of_lt (hashFunction_lt s addr)

/-- The end of `delete_source` undoes `find_or_create_source`: the bucket gets its old head back,
the old head its `prev`, and the total the record's size. -/
theorem removeSource_createSource {s : State} {addr : In6Addr} (n : Nat)
    (hob : s.table (hashFunction s addr) ≠ s.brk) (hfree : s.sources s.brk = none)
    (hhead : s.table (hashFunction s addr) ≠ 0 →
      (s.sources (s.table (hashFunction s addr))).isSome ∧ (s.source (s.table (hashFunction s addr))).prev = 0) :
    removeSource B { createSource B s addr with brk := n } (hashFunction s addr).toUInt16 s.brk =
      { s with brk := n } := by
  rw [createSource_of_ne B hob]
  unfold removeSource
  simp only [State.source, write_eq_update, Function.update_same, Option.getD_some, if_true,
    toNat_toUInt16_hashFunction]
  by_cases h0 : s.table (hashFunction s addr) = 0
  · simp only [h0, if_true]
    refine State.ext (funext fun i => ?_) (add_sub_cancel_right _ _) rfl rfl rfl rfl rfl rfl (funext fun x => ?_) rfl rfl
    · by_cases hi : i = hashFunction s addr <;> simp [hi, h0]
    · by_cases hx : x = s.brk <;> simp [hx, hfree]
  · obtain ⟨hlive, hprev⟩ := hhead h0
    obtain ⟨y, hy⟩ := Option.isSome_iff_exists.1 hlive
    simp only [h0, if_false]
    refine State.ext (funext fun i => ?_) (add_sub_cancel_right _ _) rfl rfl rfl rfl rfl rfl (funext fun x => ?_) rfl rfl
    · by_cases hi : i = hashFunction s addr <;> simp [hi]
    · by_cases hx : x = s.brk
      · simp [hx, hfree]
      · by_cases hxo : x = s.table (hashFunction s addr)
        · subst hxo
          simp only [State.source, hy, Option.getD_some] at hprev
          simp [hx, hy, Ne.symm hob]
          rw [← hprev]
        · simp [hx, hxo]

/-- Giving up the flow of the datagram also deletes its source, which the flow leaves without
flows: the engine is `s₀` again, with only `brk` moved on past the two records. -/
theorem deleteFlowAndEmptySource_attached (ho : Opening s₀ r.src) :
    deleteFlowAndEmptySource B (attached B s₀ r) (s₀.brk + 1) = { s₀ with brk := s₀.brk + 2 } := by
  have hob : s₀.table (hashFunction s₀ r.src) ≠ s₀.brk := Nat.ne_of_lt ho.head_lt
  have hsrc : ({ createSource B s₀ r.src with brk := s₀.brk + 2 } : State).source s₀.brk =
      ⟨0, B.sizeofSource, r.src, (hashFunction s₀ r.src).toUInt16, 0, s₀.table (hashFunction s₀ r.src)⟩ := by
    rw [createSource_of_ne B hob]
    simp [State.source]
  have hnull (n : Nat) (t : State) : deleteFlowsFrom B n t 0 = t := by
    cases n <;> rfl
  simp only [deleteFlowAndEmptySource, attached_flow_self, deleteFlow_attached B ho, hsrc, if_true, deleteSource,
    hnull]
  exact removeSource_createSource B _ hob (ho.sources_free _ le_rfl) ho.head

end Give

/-! ## A datagram sent in order to a busy engine -/

section Runs

variable (B : Build) {s₀ : State} {P : List UInt8}

/-- A fragment of `P` sent to the engine holding at most `P.length` bytes of it gets past both
loops, while the limits leave room for the whole datagram besides what `s₀` holds and no timer has
run out. -/
theorem manageIpv6Fragment_attached_room {r : Assembly} {a : Packet} (ho : Opening s₀ r.src)
    (hsize : s₀.tableSize ≠ 0) (hheld : heldBytes r.fragments ≤ P.length) (hend : a.end ≤ P.length)
    (hkey : a.key = (r.src, r.dst, r.id)) (htime : ¬ r.expires < a.currentTime)
    (hold : s₀.timerTail ≠ 0 → ¬ (s₀.flow s₀.timerHead).timer.expirationTime < a.currentTime)
    (hfit : r.header.length + P.length ≤ maxDatagramSize)
    (hper : B.sizeofSource.toNat + B.sizeofFlow.toNat + r.header.length + P.length ≤ s₀.perSourceMemoryLimit.toNat)
    (htot : s₀.totalUsedMem.toNat + B.sizeofSource.toNat + B.sizeofFlow.toNat + r.header.length + P.length <
      s₀.totalMemoryLimit.toNat) :
    manageIpv6Fragment B (attached B s₀ r) a .ok =
      some (storeFragment B (attached B s₀ r) s₀.brk (s₀.brk + 1) a .ok) := by
  have hlim := s₀.perSourceMemoryLimit.toNat_lt_size
  have hlim' := s₀.totalMemoryLimit.toNat_lt_size
  have hused := r.toNat_used B (by unfold UInt32.size at hlim; omega)
  refine manageIpv6Fragment_attached B ho hsize (le_trans hend (le_trans (Nat.le_add_left _ _) hfit)) hkey
    (fun h => ?_) (fun h => ?_) htime hold
  · have : s₀.perSourceMemoryLimit.toNat < (r.used B).toNat := h
    omega
  · have : s₀.totalMemoryLimit.toNat ≤ (s₀.totalUsedMem.toNat + (r.used B).toNat) % 2 ^ 32 := h
    unfold UInt32.size at hlim'
    omega

/-- A fragment sent in order that is not the last is inserted after those held, and the call
returns nothing. -/
theorem storeFragment_attached_more {r : Assembly} {a : Packet} (hlen : r.len = 0)
    (hpre : Prefix P a.offset.toNat r.fragments) (ha : a.FragmentOf P) (hmf : a.moreFragments ≠ 0) :
    storeFragment B (attached B s₀ r) s₀.brk (s₀.brk + 1) a .ok = (attached B s₀ (r.insert a), none) ∧
      (r.insert a).len = 0 ∧ Prefix P a.end (r.insert a).fragments := by
  have hfr : a.fragmentable = (P.drop a.offset.toNat).take (a.end - a.offset.toNat) := ha.slice.2
  obtain ⟨hpre', -⟩ := hpre.insertFragment (show a.offset.toNat ≤ a.end from Nat.le_add_right _ _) ha.slice.1
  rw [← hfr] at hpre'
  have hlen' : (r.insert a).len = 0 := by simp [Assembly.insert, hmf, hlen]
  refine ⟨?_, hlen', hpre'⟩
  rw [storeFragment_attached B (fun h => h.1 hlen) (fun h => h.2 hlen), hlen']
  simp

/-- The last fragment sent in order completes the datagram: the call returns the stored header,
with its payload length set, followed by the payload, and gives the engine back. -/
theorem storeFragment_attached_last {r : Assembly} {a : Packet} (ho : Opening s₀ r.src) (hlen : r.len = 0)
    (hpre : Prefix P a.offset.toNat r.fragments) (ha : a.FragmentOf P) (hmf : a.moreFragments = 0) (hP : P ≠ [])
    (hfit : r.header.length + P.length ≤ maxDatagramSize) :
    storeFragment B (attached B s₀ r) s₀.brk (s₀.brk + 1) a .ok = ({ s₀ with brk := s₀.brk + 2 },
      some (setPayloadLength r.header (P.length.toUInt16 + r.header.length.toUInt16 - sizeofIp6Hdr.toUInt16) ++ P)) := by
  have hfr : a.fragmentable = (P.drop a.offset.toNat).take (a.end - a.offset.toNat) := ha.slice.2
  have hend : a.end = P.length := ha.last hmf
  obtain ⟨hpre', -⟩ := hpre.insertFragment (show a.offset.toNat ≤ a.end from Nat.le_add_right _ _) ha.slice.1
  rw [← hfr] at hpre'
  replace hpre' : Prefix P a.end (r.insert a).fragments := hpre'
  have hlen' : (r.insert a).len.toNat = P.length := by
    simp only [Assembly.insert, hmf, if_true, hend]
    show P.length % 2 ^ 16 = P.length
    unfold maxDatagramSize at hfit
    omega
  have hne : (r.insert a).len ≠ 0 := fun h => (List.length_pos.2 hP).ne (by rw [← hlen', h]; rfl)
  rw [storeFragment_attached B (fun h => h.1 hlen) (fun h => h.2 hlen), if_pos ⟨hne, hpre'.trainFrom⟩]
  have hbuild : buildCompleteDatagram B (attached B s₀ (r.insert a)) (s₀.brk + 1) true = _ :=
    buildCompleteDatagram_attached B (by rw [hlen']; exact hfit) (by rw [hlen', hpre'.heldBytes, hend])
  rw [hlen', hpre'.flatMap_ptr, hend, List.take_length, @deleteFlowAndEmptySource_attached B s₀ (r.insert a) ho] at hbuild
  exact hbuild

/-- From `s₀` holding the first `o` bytes of `P` besides, the rest of the fragments in order each
get past both loops, while the limits leave room and no timer runs out: each call but the last
returns nothing, the last returns the datagram, and the engine is `s₀` again with `brk` moved on. -/
theorem run_attached (hsize : s₀.tableSize ≠ 0) (hP : P ≠ []) :
    ∀ (as : List Packet) (r : Assembly) (o : Nat), Opening s₀ r.src → r.len = 0 → Prefix P o r.fragments →
      InOrderFrom P o as →
      (∀ a ∈ as, a.key = (r.src, r.dst, r.id) ∧ ¬ r.expires < a.currentTime ∧
        (s₀.timerTail ≠ 0 → ¬ (s₀.flow s₀.timerHead).timer.expirationTime < a.currentTime)) →
      r.header.length + P.length ≤ maxDatagramSize →
      B.sizeofSource.toNat + B.sizeofFlow.toNat + r.header.length + P.length ≤ s₀.perSourceMemoryLimit.toNat →
      s₀.totalUsedMem.toNat + B.sizeofSource.toNat + B.sizeofFlow.toNat + r.header.length + P.length <
        s₀.totalMemoryLimit.toNat →
      run B (attached B s₀ r) (as.map (Op.manage · .ok)) = some ({ s₀ with brk := s₀.brk + 2 },
        List.replicate (as.length - 1) none ++
          [some (setPayloadLength r.header (P.length.toUInt16 + r.header.length.toUInt16 - sizeofIp6Hdr.toUInt16) ++ P)])
  | [], _, _, _, _, _, h, _, _, _, _ => h.elim
  | [a], r, _, ho, hlen, hpre, ⟨rfl, ha, hmf⟩, hkt, hfit, hper, htot => by
    obtain ⟨hkey, htime, hold⟩ := hkt a (List.mem_singleton_self a)
    have hcall := manageIpv6Fragment_attached_room B ho hsize
      (hpre.heldBytes ▸ ha.slice.1.trans' (Nat.le_add_right _ _)) ha.slice.1 hkey htime hold hfit hper htot
    simp only [List.map_cons, List.map_nil, run, step, hcall, storeFragment_attached_last B ho hlen hpre ha hmf hP hfit]
    rfl
  | a :: b :: as, r, _, ho, hlen, hpre, ⟨rfl, ha, hmf, hrest⟩, hkt, hfit, hper, htot => by
    obtain ⟨hkey, htime, hold⟩ := hkt a (List.mem_cons_self _ _)
    have hcall := manageIpv6Fragment_attached_room B ho hsize
      (hpre.heldBytes ▸ ha.slice.1.trans' (Nat.le_add_right _ _)) ha.slice.1 hkey htime hold hfit hper htot
    obtain ⟨hstore, hlen', hpre'⟩ := @storeFragment_attached_more B s₀ P r a hlen hpre ha hmf
    have hrun := run_attached hsize hP (b :: as) (r.insert a) a.end ho hlen' hpre' hrest
      (fun c hc => hkt c (List.mem_cons_of_mem _ hc)) hfit hper htot
    rw [List.map_cons, run, step, hcall, hstore]
    dsimp only
    rw [hrun]
    rfl

/-- A datagram from a new address, with room for it besides what the engine holds and no timer of
the engine running out, is opened by its first fragment: the run is one on the engine holding the
datagram with nothing received, and every fragment meets what a call there needs. -/
theorem run_opening {s : State} {a₀ : Packet} {as : List Packet} (ho : Opening s a₀.ip6Src)
    (hsize : s.tableSize ≠ 0) (hend : a₀.end ≤ P.length) (hkey : ∀ a ∈ as, a.key = a₀.key)
    (htime : ∀ a ∈ as, a.currentTime.toNat ≤ a₀.currentTime.toNat + s.timeout.toNat)
    (hwrap : a₀.currentTime.toNat + s.timeout.toNat < 2 ^ 32)
    (hfit : a₀.unfragmentable.length + P.length ≤ maxDatagramSize)
    (hper : B.sizeofSource.toNat + B.sizeofFlow.toNat + a₀.unfragmentable.length + P.length ≤
      s.perSourceMemoryLimit.toNat)
    (htotal : s.totalUsedMem.toNat + B.sizeofSource.toNat + B.sizeofFlow.toNat + a₀.unfragmentable.length +
      P.length < s.totalMemoryLimit.toNat)
    (hold : s.timerHead ≠ 0 → ∀ a ∈ a₀ :: as, ¬ (s.flow s.timerHead).timer.expirationTime < a.currentTime) :
    run B s ((a₀ :: as).map (Op.manage · .ok)) =
      run B (attached B s (Assembly.start s a₀)) ((a₀ :: as).map (Op.manage · .ok)) ∧
    ∀ a ∈ a₀ :: as, a.key = ((Assembly.start s a₀).src, (Assembly.start s a₀).dst, (Assembly.start s a₀).id) ∧
      ¬ (Assembly.start s a₀).expires < a.currentTime ∧
      (s.timerTail ≠ 0 → ¬ (s.flow s.timerHead).timer.expirationTime < a.currentTime) := by
  have hkt := start_meets hkey htime hwrap
  have hold' (a : Packet) (ha : a ∈ a₀ :: as) :
      s.timerTail ≠ 0 → ¬ (s.flow s.timerHead).timer.expirationTime < a.currentTime :=
    fun ht => hold (fun hh => ht (ho.empty.2 hh)) a ha
  have hlimit : ¬ s.totalMemoryLimit ≤ s.totalUsedMem + B.sizeofSource := fun hle => by
    have hle' : s.totalMemoryLimit.toNat ≤ (s.totalUsedMem.toNat + B.sizeofSource.toNat) % 2 ^ 32 := hle
    have hlim := s.totalMemoryLimit.toNat_lt_size
    unfold UInt32.size at hlim
    omega
  have hfit' : (Assembly.start s a₀).header.length + P.length ≤ maxDatagramSize := length_header_start s a₀ ▸ hfit
  have h₀ := List.mem_cons_self a₀ as
  refine ⟨?_, fun a ha => ⟨(hkt a ha).1, (hkt a ha).2, hold' a ha⟩⟩
  rw [List.map_cons, run, run, step, step, manageIpv6Fragment_opening B ho hsize
      (hend.trans (le_trans (Nat.le_add_left _ _) hfit)) hlimit (fun hh => hold hh a₀ h₀),
    manageIpv6Fragment_attached_room B ho hsize (Nat.zero_le _) hend (hkt a₀ h₀).1 (hkt a₀ h₀).2 (hold' a₀ h₀) hfit'
      (length_header_start s a₀ ▸ hper) (length_header_start s a₀ ▸ htotal)]

/-- Sent in order to any reachable engine that has no source for their address, with room for
them besides what it holds and no timer of it running out, the fragments of a payload `P` are all
taken in and the last one returns `reassembled a₀ P`; the engine is then exactly as it was, with
only `brk` moved on past the two records the datagram used. -/
theorem in_order_delivery_restores {allowed : Op → Prop} {s : State} {a₀ : Packet} {as : List Packet}
    (hs : Reachable B allowed s) (hsize : s.tableSize ≠ 0)
    (hnew : ∀ p, (s.sources p).isSome → (s.source p).ipv6Srcaddr ≠ a₀.ip6Src) (h : SentInOrder B s P a₀ as)
    (htotal : s.totalUsedMem.toNat + B.sizeofSource.toNat + B.sizeofFlow.toNat + a₀.unfragmentable.length +
      P.length < s.totalMemoryLimit.toNat)
    (hold : s.timerHead ≠ 0 → ∀ a ∈ a₀ :: as, ¬ (s.flow s.timerHead).timer.expirationTime < a.currentTime) :
    run B s ((a₀ :: as).map (Op.manage · .ok)) =
      some ({ s with brk := s.brk + 2 }, List.replicate as.length none ++ [some (reassembled a₀ P)]) := by
  have ho := opening_of_reachable B hs hsize hnew
  have ha₀ : a₀.FragmentOf P := by cases as <;> exact h.order.2.1
  obtain ⟨hrun, hkt⟩ := run_opening B ho hsize ha₀.slice.1 h.key h.time h.wrap h.fit h.perSource htotal hold
  have hlen := length_header_start s a₀
  rw [hrun, run_attached B hsize h.nonempty (a₀ :: as) (Assembly.start s a₀) 0 ho rfl (Prefix.nil P) h.order hkt
      (hlen ▸ h.fit) (hlen ▸ h.perSource) (hlen ▸ htotal), payloadLength_start s h.fit]
  rfl

/-- With the first half of the payload `0, 1, …, 15` from `::1` held, the same payload from `::2`,
sent in two fragments, comes back at the second, and the engine holds the first half as before. -/
theorem in_order_delivery_restores_busy_engine :
    ∃ s, Reachable lp64 (fun _ => True) s ∧ (s.flows 2).isSome ∧
      run lp64 s ([frag 2 7 ((List.range 16).map Nat.toUInt8) 0 8 1 0,
        frag 2 7 ((List.range 16).map Nat.toUInt8) 8 16 0 0].map (Op.manage · .ok)) =
        some ({ s with brk := s.brk + 2 },
          [none, some (reassembled (frag 2 7 ((List.range 16).map Nat.toUInt8) 0 8 1 0) ((List.range 16).map Nat.toUInt8))]) := by
  obtain ⟨s, -, hs, -, hflow, hsize, hnew, htime, hwrap, hper, htot, htotal, hold⟩ :=
    (Reachable.enable 1 : Reachable lp64 (fun _ => True) _).of_run lp64
      (looseLimits ++ [.manage (frag 1 1 ((List.range 16).map Nat.toUInt8) 0 8 1 0) .ok])
      (fun s _ => (s.flows 2).isSome ∧ s.tableSize ≠ 0 ∧
        (∀ p < s.brk, (s.sources p).isSome →
          (s.source p).ipv6Srcaddr ≠ (frag 2 7 ((List.range 16).map Nat.toUInt8) 0 8 1 0).ip6Src) ∧
        (∀ a ∈ [frag 2 7 ((List.range 16).map Nat.toUInt8) 8 16 0 0],
          a.currentTime.toNat ≤ (frag 2 7 ((List.range 16).map Nat.toUInt8) 0 8 1 0).currentTime.toNat + s.timeout.toNat) ∧
        (frag 2 7 ((List.range 16).map Nat.toUInt8) 0 8 1 0).currentTime.toNat + s.timeout.toNat < 2 ^ 32 ∧
        lp64.sizeofSource.toNat + lp64.sizeofFlow.toNat + (header 2).length + 16 ≤ s.perSourceMemoryLimit.toNat ∧
        lp64.sizeofSource.toNat + lp64.sizeofFlow.toNat + (header 2).length + 16 < s.totalMemoryLimit.toNat ∧
        s.totalUsedMem.toNat + lp64.sizeofSource.toNat + lp64.sizeofFlow.toNat + (header 2).length + 16 <
          s.totalMemoryLimit.toNat ∧
        (s.timerHead ≠ 0 → ∀ a ∈ [frag 2 7 ((List.range 16).map Nat.toUInt8) 0 8 1 0,
          frag 2 7 ((List.range 16).map Nat.toUInt8) 8 16 0 0],
          ¬ (s.flow s.timerHead).timer.expirationTime < a.currentTime))
      (fun _ _ => trivial) (by decide)
  obtain ⟨g, hk⟩ := realizes_of_reachable hs
  refine ⟨s, hs, hflow, in_order_delivery_restores lp64 hs hsize (fun p hp => ?_)
    ⟨by decide, by decide, by decide, htime, hwrap, by decide, hper, htot⟩ htotal hold⟩
  by_cases hlt : p < s.brk
  · exact hnew p hlt hp
  · simp [hk.sources_of_le (Nat.le_of_not_lt hlt)] at hp

end Runs

end Ipv6Reassembly
