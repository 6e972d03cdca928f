import Ipv6Reassembly.Sweep

/-!
# Failed allocations

Each `malloc` of a call of `dpi_reordering_manage_ipv6_fragment` may fail, and the call then
returns `NULL`. The allocations after the source's (lines 588–598) do not undo what the call did
before them: from every reachable state, a fragment from an address that has no source makes the
call create one, and when the flow allocation (lines 649–660) or the copy of the unfragmentable
part (lines 680–689) then fails, the call returns `NULL` and leaves the new source in the table
with no flows (`failed_malloc_strands_source`). A sweep that ends the call first leaves it there
as well.
-/

namespace Ipv6Reassembly

section

variable {B : Build} {s : State} {g : Shape}

theorem findFlowIn_zero (id : UInt32) (dst : In6Addr) : findFlowIn s id dst 0 = 0 := by
  unfold findFlowIn
  cases s.brk <;> rfl

/-- The source `createSource` adds is live and owns no flow. -/
theorem Realizes.createSource_new (hk : Realizes s.skeleton g) {addr : In6Addr}
    (hi : hashFunction s addr < s.tableSize.toNat) :
    Realizes (createSource B s addr).skeleton (g.addSource (hashFunction s addr) s.brk) ∧
      ((createSource B s addr).sources s.brk).isSome ∧ (createSource B s addr).flowsOf s.brk = [] := by
  have hk' : Realizes (createSource B s addr).skeleton (g.addSource (hashFunction s addr) s.brk) := by
    rw [skeleton_createSource]
    exact hk.pushSource (by simpa using hi)
  have hp := (live_of_sourceView (s := createSource B s addr) (p := s.brk) (by
    rw [sourceView_createSource B sourceBlind_key, Function.update_same])).1
  exact ⟨hk', hp, by rw [hk'.flowsOf_eq hp]; simp [Shape.addSource]⟩

/-- A flow created for a live source that owns no flow, and at once deleted, leaves the source
live with no flows. -/
theorem Realizes.createFlow_deleteFlow (hk : Realizes s.skeleton g) {src : Ptr} (hp : (s.sources src).isSome)
    (h0 : s.flowsOf src = []) (id : UInt32) (dst : In6Addr) (now : UInt32) :
    ((Ipv6Reassembly.deleteFlow B (createFlow B s src id dst now) s.brk).sources src).isSome ∧
      (Ipv6Reassembly.deleteFlow B (createFlow B s src id dst now) s.brk).flowsOf src = [] := by
  have hk' : Realizes (createFlow B s src id dst now).skeleton (g.addFlow src s.brk) := by
    rw [skeleton_createFlow]
    exact hk.pushFlow (by simpa using hp)
  have hp' : ((createFlow B s src id dst now).sources src).isSome := by
    rw [← isSome_skeleton_sources, skeleton_createFlow]
    simpa [Skeleton.pushFlow] using hp
  have hf := (live_of_flowView (s := createFlow B s src id dst now) (f := s.brk) (by
    rw [flowView_createFlow B flowBlind_data, Function.update_same])).1
  refine ⟨(isSome_sources_deleteFlow B).trans hp', ?_⟩
  rw [(hk'.flowDeleted hf).lists src hp', hk'.flowsOf_eq hp']
  simp [Shape.addFlow, ← hk.flowsOf_eq hp, h0]

/-- When the source allocation succeeds for an address that has no source, the call creates the
source at `brk`. Owning no flow, the new source passes the eviction loop, and the call goes on
with the sweep. -/
theorem manageIpv6Fragment_of_fresh {allowed : Op → Prop} (hs : Reachable B allowed s) {a : Packet}
    {m : Malloc} (fits : a.end ≤ maxDatagramSize) (sized : 0 < s.tableSize.toNat)
    (fresh : ∀ p, (s.sources p).isSome → (s.source p).ipv6Srcaddr ≠ a.ip6Src) (allocated : m.source = true) :
    manageIpv6Fragment B s a m =
      match sweepTimers B (s.brk + 1) (createSource B s a.ip6Src) s.brk a.currentTime with
      | .abort t => some (t, none)
      | .cont t =>
        let (t, flow) := findOrCreateFlow B t s.brk a.identification a.ip6Dst a.currentTime m.flow
        if flow = 0 then some (t, none) else some (storeFragment B t s.brk flow a m) := by
  obtain ⟨g, hk⟩ := realizes_of_reachable hs
  obtain ⟨hk₁, hp₁, h0₁⟩ := hk.createSource_new (B := B) (Nat.mod_lt _ sized : hashFunction s a.ip6Src < _)
  rw [manageIpv6Fragment, if_neg (by omega), if_neg fun h => by simp [h] at sized,
    (keys_of_reachable B hs).source_created a.ip6Src m.source sized fresh, allocated, if_pos rfl]
  dsimp only
  rw [if_neg (show s.brk ≠ 0 from Nat.pos_iff_ne_zero.1 hk.brk_pos),
    evictSource_of_not B (by simp [(hk₁.flows_eq_zero_iff hp₁).2 (hk₁.flowsOf_eq hp₁ ▸ h0₁)])]
  dsimp only
  exact brk_createSource B a.ip6Src ▸ rfl

/-- From every reachable state, a call for an address that has no source, whose flow allocation
or copy of the unfragmentable part fails, returns `NULL` and leaves a source that did not exist
before: the one it created, with no flows. -/
theorem failed_malloc_strands_source {allowed : Op → Prop} (hs : Reachable B allowed s) {a : Packet}
    {m : Malloc} (fits : a.end ≤ maxDatagramSize) (sized : 0 < s.tableSize.toNat)
    (fresh : ∀ p, (s.sources p).isSome → (s.source p).ipv6Srcaddr ≠ a.ip6Src)
    (allocated : m.source = true) (failed : m.flow = false ∨ m.unfragmentable = false) :
    ∃ t, manageIpv6Fragment B s a m = some (t, none) ∧ s.sources s.brk = none ∧
      (t.sources s.brk).isSome ∧ t.flowsOf s.brk = [] := by
  obtain ⟨g, hk⟩ := realizes_of_reachable hs
  obtain ⟨hk₁, hp₁, h0₁⟩ := hk.createSource_new (B := B)
    (Nat.mod_lt _ sized : hashFunction s a.ip6Src < _)
  have hz₁ := (hk₁.flows_eq_zero_iff hp₁).2 (hk₁.flowsOf_eq hp₁ ▸ h0₁)
  have hnone : s.sources s.brk = none := hk.sources_of_le le_rfl
  rw [manageIpv6Fragment_of_fresh hs fits sized fresh allocated]
  rcases (sweepTimers_of_flowless hk₁ hp₁ h0₁ _ :
      sweepTimers B (s.brk + 1) _ _ a.currentTime = _ ∨ _) with hw | ⟨t, hw, ht⟩
  · -- the sweep does nothing; the new source has no flow to find
    rw [hw]
    dsimp only
    unfold findOrCreateFlow
    rw [hz₁, findFlowIn_zero, if_neg (not_not.2 rfl)]
    cases hflow : m.flow
    · exact ⟨_, rfl, hnone, hp₁, h0₁⟩
    · -- the flow is created, and deleted when its unfragmentable part cannot be copied
      have hu : m.unfragmentable = false := by simpa [hflow] using failed
      have hnew := (live_of_flowView (s := createFlow B (createSource B s a.ip6Src) s.brk a.identification
        a.ip6Dst a.currentTime) (f := (createSource B s a.ip6Src).brk) (by
          rw [flowView_createFlow B flowBlind_data, Function.update_same])).2
      simp only [Flow.data, FlowData.mk.injEq] at hnew
      simp only [Bool.not_true, Bool.false_eq_true, ↓reduceIte]
      rw [if_neg (show (createSource B s a.ip6Src).brk ≠ 0 by rw [brk_createSource]; exact Nat.succ_ne_zero _),
        storeFragment, if_neg (by simp [hnew.2.1]), if_pos ⟨hnew.1, by simp [hu]⟩]
      exact ⟨_, rfl, hnone, hk₁.createFlow_deleteFlow hp₁ h0₁ _ _ _⟩
  · -- the sweep ends the call
    rw [hw]
    exact ⟨t, rfl, hnone, ht⟩

end

/-- The first fragment a new engine sees, with its flow allocation failing, leaves the source
`1` behind. -/
theorem failed_flow_malloc_first_fragment :
    ∃ t, manageIpv6Fragment lp64 (enableIpv6Fragmentation lp64 1) (frag 1 1 (List.replicate 8 7) 0 8 1 0)
        ⟨true, false, true, true⟩ = some (t, none) ∧ (enableIpv6Fragmentation lp64 1).sources 1 = none ∧
      (t.sources 1).isSome ∧ t.flowsOf 1 = [] :=
  failed_malloc_strands_source (Reachable.enable 1 : Reachable lp64 Op.Allocates _) (by decide) (by decide)
    (fun _ h => absurd h (by simp [enableIpv6Fragmentation])) rfl (.inl rfl)

end Ipv6Reassembly
