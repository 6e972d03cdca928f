import Ipv6Reassembly.Completion
import Ipv6Reassembly.Deletion

/-!
# The timer and global-memory sweep

The sweep (lines 630–645) deletes the flow of the head timer while that timer has expired or the
engine is at its memory limit. After each deletion it tests whether the *calling* source has lost
all its flows, and if so deletes `tmpsource`, the source of the flow it has just deleted, and
returns `NULL`. `referenceSweep` is the sweep the spec describes (step 6): it deletes the swept
flow's source when that flow was its last, and ends the call only when that source is the
caller's. When the caller owns no flow as the sweep starts, the code's first deletion always ends
the call and takes the other source down, while the reference never ends the call
(`sweep_aborts_flowless_caller`); a new source then stays in the table with no flow
(`sweep_strands_new_source`), and a flow that has not expired is deleted (`sweep_deletes_live_flow`).
-/

namespace Ipv6Reassembly

/-- The sweep of spec step 6, read from the spec: while the timer list is not empty and its head
has expired or the engine is at its memory limit, delete the head's flow; delete that flow's
source when this emptied it, and end the call (`NULL`) when that source is the caller's. -/
def referenceSweep (B : Build) : Nat → State → Ptr → UInt32 → Stage
  | 0, s, _, _ => .cont s
  | n + 1, s, src, now =>
    if s.timerHead ≠ 0 ∧ ((s.flow s.timerHead).timer.expirationTime < now ∨
        s.totalMemoryLimit ≤ s.totalUsedMem) then
      let f := (s.flow s.timerHead).timer.data
      let q := (s.flow f).source
      let s := deleteFlow B s f
      if (s.source q).flows = 0 then
        if q = src then .abort (deleteSource B s q) else referenceSweep B n (deleteSource B s q) src now
      else referenceSweep B n s src now
    else .cont s

section Flowless

variable {B : Build} {s : State} {g : Shape} {src : Ptr} {now : UInt32}

/-- A live flow does not belong to a source with no flows. -/
theorem Realizes.source_ne_of_flowless (hk : Realizes s.skeleton g) (hp : (s.sources src).isSome)
    (h0 : s.flowsOf src = []) {f : Ptr} (hf : (s.flows f).isSome) : (s.flow f).source ≠ src := by
  intro h
  have hmem := (hk.lists.live f (by simpa using hf)).2
  rw [skeleton_flow, Flow.links_source, h, ← hk.flowsOf_eq hp, h0] at hmem
  exact List.not_mem_nil _ hmem

/-- Deleting a flow of another source leaves a source with no flows live and with no flows. -/
theorem Realizes.flowless_deleteFlow (hk : Realizes s.skeleton g) (hp : (s.sources src).isSome)
    (h0 : s.flowsOf src = []) {f : Ptr} (hf : (s.flows f).isSome) :
    ((Ipv6Reassembly.deleteFlow B s f).sources src).isSome ∧
      (Ipv6Reassembly.deleteFlow B s f).flowsOf src = [] :=
  ⟨(isSome_sources_deleteFlow B).trans hp, by rw [(hk.flowDeleted hf).lists src hp, h0]; rfl⟩

/-- Deleting another source leaves a source with no flows live and with no flows. -/
theorem Realizes.flowless_deleteSource (hk : Realizes s.skeleton g) (hp : (s.sources src).isSome)
    (h0 : s.flowsOf src = []) {q : Ptr} (hq : (s.sources q).isSome) (hne : src ≠ q) :
    ((Ipv6Reassembly.deleteSource B s q).sources src).isSome ∧
      (Ipv6Reassembly.deleteSource B s q).flowsOf src = [] := by
  have hD := hk.sourceDeleted (B := B) hq
  have h := congrArg Option.isSome (hD.sources_kept src hne)
  simp only [State.sourceView, Option.isSome_map'] at h
  exact ⟨h.trans hp, (hD.lists src hne hp).trans h0⟩

/-- When the caller owns no flow and the sweep has a flow to delete, the code's sweep deletes it,
deletes its source, which is not the caller, and ends the call. -/
theorem sweepTimers_flowless (hk : Realizes s.skeleton g) (hp : (s.sources src).isSome)
    (h0 : s.flowsOf src = []) (hg : s.timerHead ≠ 0 ∧ ((s.flow s.timerHead).timer.expirationTime < now ∨
      s.totalMemoryLimit ≤ s.totalUsedMem)) (n : Nat) :
    (s.flow s.timerHead).source ≠ src ∧ sweepTimers B (n + 1) s src now =
      .abort (deleteSource B (deleteFlow B s s.timerHead) (s.flow s.timerHead).source) := by
  obtain ⟨hf, hd⟩ := hk.timerHead_live hg.1
  obtain ⟨hp', h0'⟩ := hk.flowless_deleteFlow (B := B) hp h0 hf
  have hk' := hk.deleteFlow_state (B := B) hf
  refine ⟨hk.source_ne_of_flowless hp h0 hf, ?_⟩
  rw [sweepTimers, if_pos hg]
  simp only [hd, if_pos ((hk'.flows_eq_zero_iff hp').2 (hk'.flowsOf_eq hp' ▸ h0'))]

/-- A caller that owns no flow comes out of the code's sweep live and without flows: the sweep
does nothing, or deletes one flow of another source and that source, and ends the call. -/
theorem sweepTimers_of_flowless (hk : Realizes s.skeleton g) (hp : (s.sources src).isSome)
    (h0 : s.flowsOf src = []) (n : Nat) :
    sweepTimers B n s src now = .cont s ∨
      ∃ t, sweepTimers B n s src now = .abort t ∧ (t.sources src).isSome ∧ t.flowsOf src = [] := by
  by_cases hg : s.timerHead ≠ 0 ∧ ((s.flow s.timerHead).timer.expirationTime < now ∨
      s.totalMemoryLimit ≤ s.totalUsedMem)
  · cases n with
    | zero => exact .inl rfl
    | succ n =>
      obtain ⟨hne, hw⟩ := sweepTimers_flowless (B := B) hk hp h0 hg n
      obtain ⟨hf, -⟩ := hk.timerHead_live hg.1
      obtain ⟨hp', h0'⟩ := hk.flowless_deleteFlow (B := B) hp h0 hf
      exact .inr ⟨_, hw, (hk.deleteFlow_state hf).flowless_deleteSource hp' h0'
        ((isSome_sources_deleteFlow B).trans (hk.source_of_flow hf)) (Ne.symm hne)⟩
  · exact .inl (sweepTimers_of_not B hg)

/-- The reference sweep never ends a call whose source owns no flow. -/
theorem referenceSweep_flowless :
    ∀ (n : Nat) {s : State}, (∃ g, Realizes s.skeleton g) → (s.sources src).isSome → s.flowsOf src = [] →
      ∃ t, referenceSweep B n s src now = .cont t
  | 0, s, _, _, _ => ⟨s, rfl⟩
  | n + 1, s, ⟨g, hk⟩, hp, h0 => by
    rw [referenceSweep]
    dsimp only
    by_cases hg : s.timerHead ≠ 0 ∧ ((s.flow s.timerHead).timer.expirationTime < now ∨
        s.totalMemoryLimit ≤ s.totalUsedMem)
    · obtain ⟨hf, hd⟩ := hk.timerHead_live hg.1
      have hk' := hk.deleteFlow_state (B := B) hf
      have hq := (isSome_sources_deleteFlow B (f := s.timerHead)).trans (hk.source_of_flow hf)
      obtain ⟨hp', h0'⟩ := hk.flowless_deleteFlow (B := B) hp h0 hf
      rw [if_pos hg, hd]
      split_ifs with h1 h2
      · exact absurd h2 (hk.source_ne_of_flowless hp h0 hf)
      · -- the swept flow was the last of another source, which goes too
        obtain ⟨hp'', h0''⟩ := hk'.flowless_deleteSource (B := B) hp' h0' hq (Ne.symm h2)
        obtain ⟨g'', hk'', -⟩ := (keeps_true B now).deleteSource hk' trivial hq
        exact referenceSweep_flowless n ⟨g'', hk''⟩ hp'' h0''
      · exact referenceSweep_flowless n ⟨_, hk'⟩ hp' h0'
    · rw [if_neg hg]
      exact ⟨s, rfl⟩

/-- On every state whose links realize a shape, when the calling source owns no flow and the
sweep has a flow to delete, the code's sweep ends the call, and the sweep of the spec does not. -/
theorem sweep_aborts_flowless_caller (hk : Realizes s.skeleton g) (hp : (s.sources src).isSome)
    (h0 : s.flowsOf src = []) (hg : s.timerHead ≠ 0 ∧ ((s.flow s.timerHead).timer.expirationTime < now ∨
      s.totalMemoryLimit ≤ s.totalUsedMem)) {n : Nat} (hn : 0 < n) :
    (∃ t, sweepTimers B n s src now = .abort t) ∧ ∃ t, referenceSweep B n s src now = .cont t := by
  obtain ⟨m, rfl⟩ : ∃ m, n = m + 1 := ⟨n - 1, by omega⟩
  exact ⟨⟨_, (sweepTimers_flowless hk hp h0 hg m).2⟩, referenceSweep_flowless _ ⟨g, hk⟩ hp h0⟩

end Flowless

/-- A flow from `::1` at time 0, a first fragment from `::2` at time 31, which leaves `::2` in the
table with no flow, and a flow from `::4` at time 40: a call from `::2` at time 100 sweeps with a
caller that owns no flow. -/
theorem sweep_aborts_stranded_caller :
    ∃ s, Reachable lp64 Op.Allocates s ∧ (s.sources 3).isSome ∧ s.flowsOf 3 = [] ∧
      (∃ t, sweepTimers lp64 s.brk s 3 100 = .abort t) ∧ ∃ t, referenceSweep lp64 s.brk s 3 100 = .cont t := by
  obtain ⟨s, -, hs, -, hp, h0, hg, hn⟩ := (Reachable.enable 1 : Reachable lp64 Op.Allocates _).of_run lp64
    (looseLimits ++ [.manage (frag 1 1 (List.replicate 8 7) 0 8 1 0) .ok,
      .manage (frag 2 1 (List.replicate 8 7) 0 8 1 31) .ok,
      .manage (frag 4 1 (List.replicate 8 7) 0 8 1 40) .ok])
    (fun s _ => (s.sources 3).isSome ∧ s.flowsOf 3 = [] ∧ (s.timerHead ≠ 0 ∧
      ((s.flow s.timerHead).timer.expirationTime < 100 ∨ s.totalMemoryLimit ≤ s.totalUsedMem)) ∧ 0 < s.brk)
    (by decide) (by decide)
  obtain ⟨g, hk⟩ := realizes_of_reachable hs
  exact ⟨s, hs, hp, h0, sweep_aborts_flowless_caller hk hp h0 hg hn⟩

/-- A flow from `::1` at time 0, then a first fragment from the new source `::2` at time 31: the
sweep deletes the expired flow, finds that `::2` owns no flow and deletes `::1` in its place, so
`::2` is left in the table without flows. -/
theorem sweep_strands_new_source :
    ∃ s, Reachable lp64 Op.Allocates s ∧
      ∃ p ∈ s.chain 0, (s.sources p).isSome ∧ (s.source p).flows = 0 := by
  obtain ⟨s, -, hs, -, h⟩ := (Reachable.enable 1 : Reachable lp64 Op.Allocates _).of_run lp64
    (looseLimits ++ [.manage (frag 1 1 (List.replicate 8 7) 0 8 1 0) .ok,
      .manage (frag 2 1 (List.replicate 8 7) 0 8 1 31) .ok])
    (fun s _ => ∃ p ∈ s.chain 0, (s.sources p).isSome ∧ (s.source p).flows = 0)
    (by decide) (by decide)
  exact ⟨s, hs, h⟩

/-- Flows from `::1` at time 0, from `::3` at time 5 and again from `::1` at time 10 put the
timers `[2, 4, 5]` in order of expiry. A first fragment from the new source `::2` at time 31
sweeps the expired flow `2`, and with it deletes flow `5`: a flow of another source, which
expires at 40 and whose timer stays behind the timer of flow `4`, which survives the call. -/
theorem sweep_deletes_live_flow :
    ∃ s t, Reachable lp64 Op.Allocates s ∧
      manageIpv6Fragment lp64 s (frag 2 1 (List.replicate 8 7) 0 8 1 31) .ok = some (t, none) ∧
      s.timerList = [2, 4, 5] ∧ 31 ≤ (s.flow 5).timer.expirationTime ∧
      s.totalUsedMem < s.totalMemoryLimit ∧
      (s.source (s.flow 5).source).ipv6Srcaddr ≠ (frag 2 1 (List.replicate 8 7) 0 8 1 31).ip6Src ∧
      t.timerList = [4] ∧ (t.flows 4).isSome ∧ (t.flows 5).isNone := by
  obtain ⟨s, -, hs, -, hpre, hcall⟩ := (Reachable.enable 1 : Reachable lp64 Op.Allocates _).of_run lp64
    (looseLimits ++ [.manage (frag 1 1 (List.replicate 8 7) 0 8 1 0) .ok,
      .manage (frag 3 1 (List.replicate 8 7) 0 8 1 5) .ok,
      .manage (frag 1 2 (List.replicate 8 7) 0 8 1 10) .ok])
    (fun s _ => (s.timerList = [2, 4, 5] ∧ 31 ≤ (s.flow 5).timer.expirationTime ∧
        s.totalUsedMem < s.totalMemoryLimit ∧
        (s.source (s.flow 5).source).ipv6Srcaddr ≠ (frag 2 1 (List.replicate 8 7) 0 8 1 31).ip6Src) ∧
      (manageIpv6Fragment lp64 s (frag 2 1 (List.replicate 8 7) 0 8 1 31) .ok).map
        (fun x => decide (x.2 = none ∧ x.1.timerList = [4] ∧ (x.1.flows 4).isSome ∧ (x.1.flows 5).isNone)) =
        some true)
    (by decide) (by decide)
  obtain ⟨⟨t, r⟩, hm, hpost⟩ := Option.map_eq_some'.1 hcall
  obtain ⟨rfl, hpost⟩ := of_decide_eq_true hpost
  exact ⟨s, t, hs, hm, hpre.1, hpre.2.1, hpre.2.2.1, hpre.2.2.2, hpost⟩

end Ipv6Reassembly
