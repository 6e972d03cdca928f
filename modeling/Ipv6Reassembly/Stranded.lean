import Ipv6Reassembly.Timers
import Ipv6Reassembly.Failures

/-!
# Stranded sources add up

The sweep (lines 630–645) deletes the source of the flow it sweeps, not the caller's, when the
caller is left without flows. A first fragment from a new address that comes after another
source's only flow has expired therefore leaves its own source record behind with no flow and no
timer, and only a later fragment from the same address frees it. On an engine with table size 1
and timeout 0, a round of two calls from fresh addresses (`opens_flow`, `strands_caller`) leaves
no flow and one more such record (`Stranded.round`), and the ledger counts one source record for
each (`Stranded.totalUsedMem`). Enough rounds pass the total limit by more than two source
records, a flow record and two datagrams, in a run with fixed memory limits, calls in time and no
failed allocation (`stranded_sources_exceed_bound`).
-/

namespace Ipv6Reassembly

/-! ## The runs and their fragments -/

/-- The operations that keep the memory limits: a fragment or a new timeout. -/
def Op.KeepsLimits : Op → Prop
  | .setPerHostMemoryLimit _ | .setTotalMemoryLimit _ => False
  | .manage _ _ | .setReassemblyTimeout _ => True

instance : DecidablePred Op.KeepsLimits
  | .setPerHostMemoryLimit _ | .setTotalMemoryLimit _ => isFalse not_false
  | .manage _ _ | .setReassemblyTimeout _ => isTrue trivial

/-- The address `::b:n`: the byte `b`, then `n < 2³²` in the last four bytes. -/
def hostAddr (b : UInt8) (n : Nat) : In6Addr :=
  ⟨List.replicate 11 0 ++ [b, Nat.toUInt8 (n / 2 ^ 24), Nat.toUInt8 (n / 2 ^ 16), Nat.toUInt8 (n / 2 ^ 8),
    n.toUInt8], by simp⟩

theorem hostAddr_inj {b c : UInt8} {m n : Nat} (hm : m < 2 ^ 32) (hn : n < 2 ^ 32)
    (h : hostAddr b m = hostAddr c n) : b = c ∧ m = n := by
  have h' := congrArg (fun a : In6Addr => a.s6Addr.map UInt8.toNat) h
  simp only [hostAddr, List.map_append, List.map_replicate, List.map_cons, List.map_nil,
    List.append_cancel_left_eq, List.cons.injEq, and_true] at h'
  obtain ⟨hb, h3, h2, h1, h0⟩ := h'
  change (m / 2 ^ 24) % 256 = (n / 2 ^ 24) % 256 at h3
  change (m / 2 ^ 16) % 256 = (n / 2 ^ 16) % 256 at h2
  change (m / 2 ^ 8) % 256 = (n / 2 ^ 8) % 256 at h1
  change m % 256 = n % 256 at h0
  exact ⟨UInt8.toNat.inj hb, by omega⟩

/-- One byte, the first of a longer datagram, from `::b:n` to `::` with identification `1` at
time `now`. -/
def hostFrag (b : UInt8) (n : Nat) (now : UInt32) : Packet where
  unfragmentable := List.replicate 8 0 ++ (hostAddr b n).s6Addr ++ List.replicate 16 0
  fragmentable := [7]
  offset := 0
  moreFragments := 1
  identification := 1
  nextHeader := 59
  currentTime := now
  unfragmentable_size := by simp [(hostAddr b n).length_s6Addr]
  fragmentable_size := by decide

theorem ip6Src_hostFrag (b : UInt8) (n : Nat) (now : UInt32) : (hostFrag b n now).ip6Src = hostAddr b n := by
  refine In6Addr.ext ?_
  simp [Packet.ip6Src, addrAt, hostFrag, (hostAddr b n).length_s6Addr]

/-! ## States with no live flow -/

section Flowless

variable {s : State} {g : Shape}

/-- With no live flow the timer list is empty. -/
theorem Realizes.timerHead_eq_zero (hk : Realizes s.skeleton g) (hflow : ∀ f, s.flows f = none) :
    s.timerHead = 0 :=
  by_contra fun h => by simpa [hflow] using (hk.timerHead_live h).1

/-- With no live flow no source has a first flow. -/
theorem Realizes.flows_eq_zero_of_flowless (hk : Realizes s.skeleton g) (hflow : ∀ f, s.flows f = none)
    (p : Ptr) : (s.source p).flows = 0 := by
  by_contra h0
  have hp := live_of_flows_ne_zero h0
  obtain ⟨f, hf⟩ := List.exists_mem_of_ne_nil _ (mt (hk.flows_eq_zero_iff hp).2 h0)
  simpa [hflow] using (hk.flow_of_mem hp hf).1

/-- A live flow puts a timer at the head of the list. -/
theorem Realizes.timerHead_ne_zero (hk : Realizes s.skeleton g) {f : Ptr} (hf : (s.flows f).isSome) :
    s.timerHead ≠ 0 := by
  have hmem : f ∈ g.timers := (hk.timers.live f).2 (by simpa using hf)
  have hhead := hk.timers.seg.head_eq
  have hne := hk.timers.seg.ne_zero
  cases ht : g.timers with
  | nil => exact absurd (ht ▸ hmem) (List.not_mem_nil f)
  | cons x xs =>
    rw [ht] at hhead hne
    simp only [skeleton_timerHead, List.headD_cons] at hhead
    rw [hhead]
    rintro rfl
    exact hne (List.mem_cons_self _ _)

/-- A source with no first flow has no flows to delete: `delete_source` only unlinks and frees
it. -/
theorem deleteSource_of_flowless (B : Build) {p : Ptr} (h : (s.source p).flows = 0) :
    deleteSource B s p = removeSource B s (s.source p).row p := by
  unfold deleteSource
  rw [h]
  cases s.brk <;> rfl

end Flowless

/-! ## The two calls of a round -/

/-- What a round reads of a flow: its key, its expiry and its declared length. -/
def Flow.pending (r : Flow) : (Ptr × UInt32 × In6Addr) × UInt32 × UInt16 := (r.key, r.timer.expirationTime, r.len)

theorem flowBlind_pending : FlowBlind Flow.pending := fun _ _ _ _ h _ => by simp only [Flow.pending, Flow.key, h]

/-- A fragment that more fragments follow sets no length, so `insertIntoFlow` keeps what does not
read the fragment list. -/
theorem flowView_insertIntoFlow_of_more {s : State} {α : Type} {V : Flow → α}
    (hV : ∀ r fs, V { r with fragments := fs } = V r) {a : Packet} (more : a.moreFragments ≠ 0) (src f : Ptr) :
    (insertIntoFlow s src f a).flowView V = s.flowView V := by
  rw [flowView_insertIntoFlow]
  simp only [if_neg more, hV]
  exact Function.update_eq_self f _

theorem brk_storeUnfragmentable {s : State} (src f : Ptr) (a : Packet) :
    (storeUnfragmentable s src f a).brk = s.brk := rfl

/-- Storing the unfragmentable part keeps what does not read it. -/
theorem flowView_storeUnfragmentable_of {s : State} {α : Type} {V : Flow → α}
    (hV : ∀ r u, V { r with unfragmentable := u } = V r) (src f : Ptr) (a : Packet) :
    (storeUnfragmentable s src f a).flowView V = s.flowView V :=
  flowView_modifyFlow fun r => hV r _

section Calls

variable {B : Build} {allowed : Op → Prop} {s : State}

/-- From a state with no live flow, a first fragment of a longer datagram from a new address
creates a source at `brk` and a flow for it at `brk + 1`, which expires `timeout` after the call,
stores the fragment and returns `NULL`. -/
theorem opens_flow (hs : Reachable B allowed s) (hflow : ∀ f, s.flows f = none) (sized : 0 < s.tableSize.toNat)
    {a : Packet} (fits : a.end ≤ maxDatagramSize) (more : a.moreFragments ≠ 0)
    (fresh : ∀ p, (s.sources p).isSome → (s.source p).ipv6Srcaddr ≠ a.ip6Src) :
    ∃ t, manageIpv6Fragment B s a .ok = some (t, none) ∧ t.brk = s.brk + 2 ∧
      t.sourceView Source.ipv6Srcaddr = Function.update (s.sourceView Source.ipv6Srcaddr) s.brk (some a.ip6Src) ∧
      t.flowView Flow.pending = Function.update (fun _ => none) (s.brk + 1)
        (some ((s.brk, a.identification, a.ip6Dst), a.currentTime + s.timeout.toUInt32, 0)) ∧
      t.config = s.config := by
  obtain ⟨g, hk⟩ := realizes_of_reachable hs
  obtain ⟨hk₁, hp₁, -⟩ := hk.createSource_new (B := B) (Nat.mod_lt _ sized : hashFunction s a.ip6Src < _)
  have hflow₁ : ∀ f, (createSource B s a.ip6Src).flows f = none := fun f =>
    flows_eq_none_of_flowView (V := Flow.data) (by rw [flowView_createSource]; simp [State.flowView, hflow])
  have hw : sweepTimers B (s.brk + 1) (createSource B s a.ip6Src) s.brk a.currentTime =
      .cont (createSource B s a.ip6Src) :=
    sweepTimers_of_not B (by simp [hk₁.timerHead_eq_zero hflow₁])
  set s₁ := createSource B s a.ip6Src with hs₁
  set s₂ := createFlow B s₁ s.brk a.identification a.ip6Dst a.currentTime with hs₂
  have hF : s₁.brk = s.brk + 1 := brk_createSource B a.ip6Src
  have hnew := (live_of_flowView (s := s₂) (f := s₁.brk) (by
    rw [hs₂, flowView_createFlow B flowBlind_data, Function.update_same])).2
  simp only [Flow.data, FlowData.mk.injEq] at hnew
  set t := insertIntoFlow (storeUnfragmentable s₂ s.brk s₁.brk a) s.brk s₁.brk a with ht
  have hview : t.flowView Flow.pending = Function.update (fun _ => none) s₁.brk
      (some ((s.brk, a.identification, a.ip6Dst), a.currentTime + s.timeout.toUInt32, 0)) := by
    rw [ht, flowView_insertIntoFlow_of_more (V := Flow.pending) (fun _ _ => rfl) more,
      flowView_storeUnfragmentable_of (V := Flow.pending) (fun _ _ => rfl), hs₂,
      flowView_createFlow B flowBlind_pending, hs₁, flowView_createSource,
      show s.flowView Flow.pending = fun _ => none from funext fun q => by simp [State.flowView, hflow],
      timeout_of_config (config_createSource B a.ip6Src)]
    rfl
  have hlen : (t.flow s₁.brk).len = 0 :=
    congrArg (fun x : (Ptr × UInt32 × In6Addr) × UInt32 × UInt16 => x.2.2)
      (live_of_flowView (s := t) (f := s₁.brk) (by rw [hview, Function.update_same])).2
  refine ⟨t, ?_, ?_, ?_, by rw [← hF]; exact hview, ?_⟩
  · rw [manageIpv6Fragment_of_fresh hs fits sized fresh rfl, ← hs₁, hw]
    dsimp only
    unfold findOrCreateFlow
    rw [hk₁.flows_eq_zero_of_flowless hflow₁, findFlowIn_zero, if_neg (not_not.2 rfl),
      if_neg (show ¬((!Malloc.ok.flow) = true) by decide)]
    dsimp only
    rw [if_neg (show s₁.brk ≠ 0 by rw [hF]; exact Nat.succ_ne_zero _), storeFragment, if_neg (by simp [hnew.2.1]),
      if_neg (fun h => absurd h.2 (by decide))]
    dsimp only
    rw [if_pos hnew.1, if_neg (fun h => more h.1), if_neg fun h => h.1 hlen]
  · rw [ht, brk_insertIntoFlow, brk_storeUnfragmentable, hs₂, brk_createFlow, hF]
  · have hu : ∀ (r : Source) u, { r with sourceUsedMem := u }.ipv6Srcaddr = r.ipv6Srcaddr := fun _ _ => rfl
    rw [ht, sourceView_insertIntoFlow hu, sourceView_storeUnfragmentable hu, hs₂,
      sourceView_createFlow B sourceBlind_addr hu, hs₁, sourceView_createSource B sourceBlind_addr]
  · rw [ht, config_insertIntoFlow, config_storeUnfragmentable, hs₂, config_createFlow, hs₁, config_createSource]

/-- From a state whose one live flow `F` has expired, a first fragment from a new address creates
its source; the sweep deletes `F`, finds the caller without flows, deletes the source of `F` in
its place and ends the call. The new source stays behind, and no flow is left. -/
theorem strands_caller (hs : Reachable B allowed s) {F : Ptr} (honly : ∀ f, (s.flows f).isSome ↔ f = F)
    (sized : 0 < s.tableSize.toNat) {a : Packet} (fits : a.end ≤ maxDatagramSize)
    (fresh : ∀ p, (s.sources p).isSome → (s.source p).ipv6Srcaddr ≠ a.ip6Src)
    (expired : (s.flow F).timer.expirationTime < a.currentTime) :
    ∃ t, manageIpv6Fragment B s a .ok = some (t, none) ∧ t.brk = s.brk + 1 ∧
      t.sourceView Source.ipv6Srcaddr = Function.update
        (Function.update (s.sourceView Source.ipv6Srcaddr) s.brk (some a.ip6Src)) (s.flow F).source none ∧
      (∀ f, t.flows f = none) ∧ t.config = s.config := by
  obtain ⟨g, hk⟩ := realizes_of_reachable hs
  obtain ⟨hk₁, hp₁, h0₁⟩ := hk.createSource_new (B := B) (Nat.mod_lt _ sized : hashFunction s a.ip6Src < _)
  set s₁ := createSource B s a.ip6Src with hs₁
  have hlive₁ : ∀ f, (s₁.flows f).isSome ↔ f = F := fun f => by
    have h := congrArg (fun v => (v f).isSome) (flowView_createSource B (s := s) (V := Flow.key) a.ip6Src)
    simp only [State.flowView, Option.isSome_map'] at h
    rw [h, honly]
  have hF₁ : (s₁.flows F).isSome := (hlive₁ F).2 rfl
  have hhead : s₁.timerHead = F := (hlive₁ _).1 (hk₁.timerHead_live (hk₁.timerHead_ne_zero hF₁)).1
  have hkey : Flow.key (s₁.flow F) = Flow.key (s.flow F) := Option.some.inj <|
    (flowView_of_live Flow.key hF₁).symm.trans <| (congrFun (flowView_createSource B a.ip6Src) F).trans <|
      flowView_of_live Flow.key ((honly F).2 rfl)
  have hexp : (s₁.flow F).timer.expirationTime = (s.flow F).timer.expirationTime :=
    expiry_of_flowView (congrFun (flowView_createSource B a.ip6Src) F)
  have hg : s₁.timerHead ≠ 0 ∧ ((s₁.flow s₁.timerHead).timer.expirationTime < a.currentTime ∨
      s₁.totalMemoryLimit ≤ s₁.totalUsedMem) :=
    ⟨hhead ▸ hk₁.timerHead_ne_zero hF₁, .inl (by rw [hhead, hexp]; exact expired)⟩
  obtain ⟨-, hw⟩ := sweepTimers_flowless (B := B) hk₁ hp₁ h0₁ hg s.brk
  rw [hhead, show (s₁.flow F).source = (s.flow F).source from congrArg Prod.fst hkey] at hw
  set s' := deleteFlow B s₁ F with hs'
  have hflow' : ∀ f, s'.flows f = none := fun f => flows_eq_none_of_flowView (V := Flow.data) (by
    rw [hs', flowView_deleteFlow B flowBlind_data]
    rcases eq_or_ne f F with rfl | hf
    · exact Function.update_same _ _ _
    · rw [Function.update_noteq hf]
      simp [State.flowView, Option.not_isSome_iff_eq_none.1 (mt (hlive₁ f).1 hf)])
  rw [deleteSource_of_flowless B ((hk₁.deleteFlow_state hF₁).flows_eq_zero_of_flowless hflow' _)] at hw
  refine ⟨removeSource B s' (s'.source (s.flow F).source).row (s.flow F).source, ?_, ?_, ?_, ?_, ?_⟩
  · rw [manageIpv6Fragment_of_fresh hs fits sized fresh rfl, ← hs₁, hw]
  · rw [brk_removeSource, hs', brk_deleteFlow, hs₁, brk_createSource]
  · rw [sourceView_removeSource B sourceBlind_addr, hs', sourceView_deleteFlow B sourceBlind_addr (fun _ _ => rfl),
      hs₁, sourceView_createSource B sourceBlind_addr]
  · exact fun f => (congrFun (flows_removeSource _ _) f).trans (hflow' f)
  · rw [config_removeSource, hs', config_deleteFlow, hs₁, config_createSource]

end Calls

/-! ## Rounds -/

/-- The addresses of the sources that `k` rounds leave behind: round `j` leaves `::1:j` at
`3j + 3`. -/
def strandedAddrs : Nat → Nat → Option In6Addr
  | 0 => fun _ => none
  | k + 1 => Function.update (strandedAddrs k) (3 * k + 3) (some (hostAddr 1 k))

theorem strandedAddrs_isSome {k p : Nat} : (strandedAddrs k p).isSome ↔ ∃ j < k, p = 3 * j + 3 := by
  induction k with
  | zero => simp [strandedAddrs]
  | succ k ih =>
    rw [strandedAddrs, Function.update_apply]
    split_ifs with hp
    · exact iff_of_true rfl ⟨k, Nat.lt_succ_self k, hp⟩
    · rw [ih]
      constructor
      · rintro ⟨j, hj, rfl⟩
        exact ⟨j, by omega, rfl⟩
      · rintro ⟨j, hj, rfl⟩
        exact ⟨j, by omega, rfl⟩

theorem strandedAddrs_eq_some {k p : Nat} {A : In6Addr} (h : strandedAddrs k p = some A) :
    ∃ j < k, A = hostAddr 1 j := by
  induction k with
  | zero => simp [strandedAddrs] at h
  | succ k ih =>
    rw [strandedAddrs, Function.update_apply] at h
    split_ifs at h
    · exact ⟨k, Nat.lt_succ_self k, (Option.some.inj h).symm⟩
    · obtain ⟨j, hj, rfl⟩ := ih h
      exact ⟨j, by omega, rfl⟩

/-- The state `k` rounds leave, from a new engine with table size 1 whose timeout is set to 0:
no flow, the next address `3k + 1`, and the sources of `strandedAddrs k`. The run has fixed memory
limits, calls in time and no failed allocation. -/
structure Stranded (B : Build) (k : Nat) (s : State) : Prop where
  reachable : Reachable B (fun op => op.Allocates ∧ op.KeepsLimits) s
  timed : Timed B k s
  brk : s.brk = 3 * k + 1
  addrs : s.sourceView Source.ipv6Srcaddr = strandedAddrs k
  flowless : ∀ f, s.flows f = none
  config : s.config = (1, B.defaultPerHostMemoryLimit, B.defaultTotalMemoryLimit, 0)

section Round

variable {B : Build} {k : Nat} {s : State}

/-- A fragment call in which every allocation succeeds is an operation of these runs. -/
theorem manage_ok_allowed (a : Packet) : (Op.manage a .ok).Allocates ∧ (Op.manage a .ok).KeepsLimits :=
  ⟨⟨rfl, rfl, rfl, rfl⟩, trivial⟩

theorem stranded_zero (B : Build) : Stranded B 0 { enableIpv6Fragmentation B 1 with timeout := 0 } where
  reachable := (Reachable.enable 1).step
    (show Op.Allocates (.setReassemblyTimeout 0) ∧ Op.KeepsLimits (.setReassemblyTimeout 0) from
      ⟨trivial, trivial⟩) rfl
  timed := (Timed.enable 1).setReassemblyTimeout 0 fun _ => rfl
  brk := rfl
  addrs := rfl
  flowless _ := rfl
  config := rfl

theorem Stranded.addr_of_live (h : Stranded B k s) {p : Ptr} (hp : (s.sources p).isSome) :
    ∃ j < k, (s.source p).ipv6Srcaddr = hostAddr 1 j :=
  strandedAddrs_eq_some (h.addrs ▸ sourceView_of_live Source.ipv6Srcaddr hp)

theorem toNat_toUInt32 {n : Nat} (h : n < 2 ^ 32) : n.toUInt32.toNat = n := Nat.mod_eq_of_lt h

/-- One round: `::0:k` at time `k` opens a flow for a new source, and `::1:k` at time `k + 1` is
stranded by the sweep, which deletes that flow and the source of `::0:k`. -/
theorem Stranded.round (h : Stranded B k s) (hk : k + 1 < 2 ^ 32) : ∃ u, Stranded B (k + 1) u := by
  have hsize : s.tableSize = 1 := congrArg Prod.fst h.config
  have htimeout : s.timeout = 0 := congrArg (·.2.2.2) h.config
  -- `::0:k` opens a flow
  obtain ⟨t, h₁, hbrk₁, haddr₁, hview₁, hconf₁⟩ :=
    opens_flow h.reachable h.flowless (by rw [hsize]; decide)
      (a := hostFrag 0 k k.toUInt32) (show 1 ≤ maxDatagramSize by decide) (show (1 : UInt8) ≠ 0 by decide)
      fun p hp he => by
        obtain ⟨j, hj, hA⟩ := h.addr_of_live hp
        rw [hA, ip6Src_hostFrag] at he
        exact absurd (hostAddr_inj (by omega) (by omega) he).1 (by decide)
  have hr₁ := h.reachable.step (manage_ok_allowed _) h₁
  have honly : ∀ f, (t.flows f).isSome ↔ f = s.brk + 1 := fun f => by
    have h' := congrArg Option.isSome (congrFun hview₁ f)
    simp only [State.flowView, Option.isSome_map', Function.update_apply] at h'
    rw [h']
    split_ifs <;> simp [*]
  have hF := (live_of_flowView (s := t) (f := s.brk + 1) (by rw [hview₁, Function.update_same])).2
  simp only [Flow.pending, Flow.key, Prod.mk.injEq] at hF
  -- `::1:k` is stranded
  obtain ⟨u, h₂, hbrk₂, haddr₂, hflow₂, hconf₂⟩ := strands_caller hr₁ honly
    (by rw [show t.tableSize = 1 from (congrArg Prod.fst hconf₁).trans hsize]; decide)
    (a := hostFrag 1 k (k + 1).toUInt32) (show 1 ≤ maxDatagramSize by decide) (fun p hp he => by
      have hv := sourceView_of_live Source.ipv6Srcaddr hp
      rw [haddr₁, h.addrs, Function.update_apply, he, ip6Src_hostFrag, ip6Src_hostFrag] at hv
      split_ifs at hv
      · exact absurd (hostAddr_inj (by omega) (by omega) (Option.some.inj hv)).1 (by decide)
      · obtain ⟨j, hj, hA⟩ := strandedAddrs_eq_some hv
        exact absurd (hostAddr_inj (by omega) (by omega) hA).2 (by omega))
    (by
      rw [hF.2.1, htimeout]
      show (k.toUInt32.toNat + 0) % 2 ^ 32 < (k + 1).toUInt32.toNat
      rw [toNat_toUInt32 (by omega), toNat_toUInt32 hk]
      omega)
  -- the two calls come at times `k` and `k + 1`
  have htime₁ : (hostFrag 0 k k.toUInt32).currentTime.toNat = k := toNat_toUInt32 (by omega)
  have htime₂ : (hostFrag 1 k (k + 1).toUInt32).currentTime.toNat = k + 1 := toNat_toUInt32 hk
  have ht₁ := h.timed.manage (by rw [htime₁]) (by rw [htime₁, htimeout]; exact hk.trans' (by simp)) h₁
  rw [htime₁] at ht₁
  have ht₂ := ht₁.manage (by rw [htime₂]; omega)
    (by rw [htime₂, timeout_of_config hconf₁, htimeout]; simpa using hk) h₂
  rw [htime₂] at ht₂
  have hnone : strandedAddrs k (3 * k + 1) = none := Option.not_isSome_iff_eq_none.1 fun h' => by
    obtain ⟨j, -, hj⟩ := strandedAddrs_isSome.1 h'
    omega
  refine ⟨u, hr₁.step (manage_ok_allowed _) h₂, ht₂, ?_, ?_, hflow₂, ?_⟩
  · rw [hbrk₂, hbrk₁, h.brk]
    exact (by omega : 3 * k + 1 + 2 + 1 = 3 * (k + 1) + 1)
  · rw [haddr₂, haddr₁, hF.1.1, hbrk₁, h.addrs, h.brk, ip6Src_hostFrag, ip6Src_hostFrag,
      Function.update_comm (show 3 * k + 1 + 2 ≠ 3 * k + 1 by omega), Function.update_idem,
      (Function.update_eq_self_iff (f := strandedAddrs k) (a := 3 * k + 1)).2 hnone.symm]
    rfl
  · rw [hconf₂, hconf₁, h.config]

/-- Every number of rounds that the 32-bit clock holds can be run. -/
theorem stranded_run (B : Build) : ∀ k, k < 2 ^ 32 → ∃ s, Stranded B k s
  | 0, _ => ⟨_, stranded_zero B⟩
  | k + 1, hk =>
    let ⟨_, h⟩ := stranded_run B k (by omega)
    h.round hk

/-- By the ledger, the total after `k` rounds is one source record for each stranded source. -/
theorem Stranded.totalUsedMem (h : Stranded B k s) : s.totalUsedMem = (List.replicate k B.sizeofSource).sum := by
  obtain ⟨g, hk⟩ := realizes_of_reachable h.reachable
  have hl := hk.linked
  obtain ⟨hused, htotal⟩ := ledger_of_reachable B h.reachable
  have hlive : ∀ p, (s.sources p).isSome ↔ ∃ j < k, p = 3 * j + 3 := fun p => by
    rw [← strandedAddrs_isSome, ← h.addrs, State.sourceView, Option.isSome_map']
  have hperm : s.tableSources.Perm ((List.range k).map fun j => 3 * j + 3) :=
    (List.perm_ext_iff_of_nodup hl.tableSources_nodup ((List.nodup_range k).map fun _ _ h =>
      Nat.eq_of_mul_eq_mul_left (by decide : 0 < 3) (Nat.add_right_cancel h))).2
      fun p => by simp [hl.mem_tableSources, hlive, eq_comm]
  have hrecord : ∀ p ∈ s.tableSources, (s.source p).sourceUsedMem = B.sizeofSource := fun p hp => by
    have h0 : s.flowsOf p = [] := List.eq_nil_iff_forall_not_mem.2 fun f hf => by
      simpa [h.flowless] using (hk.live_of_mem_flowsOf hf).2
    rw [hused p (hl.mem_tableSources.1 hp), h0, List.map_nil, List.sum_nil, add_zero]
  rw [htotal, List.map_congr_left hrecord, List.map_const', hperm.length_eq, List.length_map, List.length_range]

theorem toNat_sum_replicate (n : Nat) (c : UInt32) : ((List.replicate n c).sum).toNat = n * c.toNat % 2 ^ 32 := by
  induction n with
  | zero => simp
  | succ n ih =>
    rw [List.replicate_succ, List.sum_cons]
    show (c.toNat + (List.replicate n c).sum.toNat) % 2 ^ 32 = _
    rw [ih, Nat.succ_mul]
    omega

end Round

/-- In runs with fixed memory limits, calls in time and no failed allocation, the total charged
memory is not bounded by the limit plus two source records, a flow record and two datagrams:
for every build and every total limit that leaves room for it above the bound, some reachable
state passes it. -/
theorem stranded_sources_exceed_bound (B : Build) (hsize : 0 < B.sizeofSource.toNat)
    (hroom : B.defaultTotalMemoryLimit.toNat + (2 * B.sizeofSource.toNat + B.sizeofFlow.toNat + 2 * maxDatagramSize) +
      B.sizeofSource.toNat < 2 ^ 32) :
    ∃ T s, Reachable B (fun op => op.Allocates ∧ op.KeepsLimits) s ∧ Timed B T s ∧
      s.totalMemoryLimit = B.defaultTotalMemoryLimit ∧
      s.totalMemoryLimit.toNat + (2 * B.sizeofSource.toNat + B.sizeofFlow.toNat + 2 * maxDatagramSize) <
        s.totalUsedMem.toNat := by
  set L := B.defaultTotalMemoryLimit.toNat + (2 * B.sizeofSource.toNat + B.sizeofFlow.toNat + 2 * maxDatagramSize)
  -- enough rounds to pass `L`, with a total that still fits in 32 bits
  have hpass : L < (L / B.sizeofSource.toNat + 1) * B.sizeofSource.toNat := by
    rw [Nat.succ_mul]
    exact Nat.lt_div_mul_add hsize
  have hfit : (L / B.sizeofSource.toNat + 1) * B.sizeofSource.toNat < 2 ^ 32 := by
    have := Nat.div_mul_le_self L B.sizeofSource.toNat
    rw [Nat.succ_mul]
    omega
  obtain ⟨s, h⟩ := stranded_run B (L / B.sizeofSource.toNat + 1)
    (lt_of_le_of_lt (Nat.le_mul_of_pos_right _ hsize) hfit)
  have hlimit : s.totalMemoryLimit = B.defaultTotalMemoryLimit := congrArg (·.2.2.1) h.config
  refine ⟨_, s, h.reachable, h.timed, hlimit, ?_⟩
  rw [h.totalUsedMem, toNat_sum_replicate, Nat.mod_eq_of_lt hfit, hlimit]
  exact hpass

/-- With the record sizes of an LP64 build and both default limits 0, the run passes the bound. -/
theorem lp64_stranded_sources_exceed_bound :
    0 < lp64.sizeofSource.toNat ∧
      lp64.defaultTotalMemoryLimit.toNat + (2 * lp64.sizeofSource.toNat + lp64.sizeofFlow.toNat + 2 * maxDatagramSize) +
        lp64.sizeofSource.toNat < 2 ^ 32 ∧
      ∃ T s, Reachable lp64 (fun op => op.Allocates ∧ op.KeepsLimits) s ∧ Timed lp64 T s ∧
        s.totalMemoryLimit = lp64.defaultTotalMemoryLimit ∧
        s.totalMemoryLimit.toNat + (2 * lp64.sizeofSource.toNat + lp64.sizeofFlow.toNat + 2 * maxDatagramSize) <
          s.totalUsedMem.toNat :=
  ⟨by decide, by decide, stranded_sources_exceed_bound lp64 (by decide) (by decide)⟩

end Ipv6Reassembly
