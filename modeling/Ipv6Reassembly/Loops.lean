import Ipv6Reassembly.Deletion

/-!
# The two loops of a call

The per-source eviction loop (lines 609–620) and the timer sweep (lines 630–645) of
`dpi_reordering_manage_ipv6_fragment` are `while` loops; the model runs them with the fuel
`brk`. Each iteration deletes the head of the list its guard reads: the eviction loop the first
flow of the calling source, the sweep the flow whose timer heads the timer list, which is that
flow's own timer. `delete_flow` takes exactly that element off the list (`Realizes.evict_step`,
`Realizes.sweep_step`), so with fuel the length of its list each loop ends by its abort or with
its guard false (`evictSource_exit`, `sweepTimers_exit`), and any more fuel gives the same result
(`loops_stop`); `brk` is such a fuel.

A new flow is put at the head of its source's list (lines 396–400) and gets the address `brk`,
above every address handed out before, so in every reachable state each source's list runs
from its most recently created flow to its oldest (`flows_newest_first`). The eviction loop
therefore deletes a source's flows newest first: every flow it deletes was created after every
flow of the source it keeps (`evictSource_deletes_newest`, `eviction_deletes_newer_flow`).
-/

namespace Ipv6Reassembly

/-- A source with a first flow is live. -/
theorem live_of_flows_ne_zero {s : State} {src : Ptr} (h0 : (s.source src).flows ≠ 0) :
    (s.sources src).isSome := by
  cases h : s.sources src
  · exact absurd (by simp [State.source, h]; rfl) h0
  · rfl

/-- A source with a flow on its list points at one. -/
theorem flows_ne_zero_of_mem {s : State} {src f : Ptr} (hf : f ∈ s.flowsOf src) : (s.source src).flows ≠ 0 :=
  fun h0 => by
    rw [State.flowsOf, h0, walk_null] at hf
    exact List.not_mem_nil f hf

theorem length_walk_le (next : Ptr → Ptr) : ∀ (n : Nat) (p : Ptr), (walk next n p).length ≤ n
  | 0, _ => le_rfl
  | n + 1, p => by
    unfold walk
    split
    · exact Nat.zero_le _
    · exact Nat.succ_le_succ (length_walk_le next n _)

/-- The two loops of a call at `now` from the source `src` stop by themselves: each iteration
takes the head off the list its guard reads, so with any fuel at least as large as that list, such
as `brk`, each loop ends by its abort or with its guard false, and more fuel changes nothing. -/
structure LoopsStop (B : Build) (s : State) (src : Ptr) (now : UInt32) : Prop where
  evict_head : (s.source src).flows ≠ 0 →
    s.flowsOf src = (s.source src).flows :: (deleteFlow B s (s.source src).flows).flowsOf src
  sweep_head : s.timerHead ≠ 0 → (s.flow s.timerHead).timer.data = s.timerHead ∧
    s.timerList = s.timerHead :: (deleteFlow B s s.timerHead).timerList
  evict_fuel : ∀ n, (s.flowsOf src).length ≤ n →
    evictSource B n s src = evictSource B (s.flowsOf src).length s src
  sweep_fuel : ∀ n, s.timerList.length ≤ n →
    sweepTimers B n s src now = sweepTimers B s.timerList.length s src now
  evict_exit : ∀ n t, (s.flowsOf src).length ≤ n → evictSource B n s src = .cont t →
    ¬((t.source src).flows ≠ 0 ∧ t.perSourceMemoryLimit < (t.source src).sourceUsedMem)
  sweep_exit : ∀ n t, s.timerList.length ≤ n → sweepTimers B n s src now = .cont t →
    ¬(t.timerHead ≠ 0 ∧ ((t.flow t.timerHead).timer.expirationTime < now ∨ t.totalMemoryLimit ≤ t.totalUsedMem))
  evict_bound : (s.flowsOf src).length ≤ s.brk
  sweep_bound : s.timerList.length ≤ s.brk

section Stop

variable {B : Build} {s : State} {g : Shape} {src : Ptr} {now : UInt32}

/-- An iteration of the eviction loop deletes the first flow of the source, and the source's list
loses its head. -/
theorem Realizes.evict_step (hk : Realizes s.skeleton g) (h0 : (s.source src).flows ≠ 0) :
    (s.flows (s.source src).flows).isSome ∧
      s.flowsOf src = (s.source src).flows :: (Ipv6Reassembly.deleteFlow B s (s.source src).flows).flowsOf src := by
  have hp := live_of_flows_ne_zero h0
  have hf := hk.head_live hp h0
  obtain ⟨k, hb⟩ : ∃ k, s.brk = k + 1 := ⟨s.brk - 1, (Nat.succ_pred_eq_of_pos hk.brk_pos).symm⟩
  have hw : s.flowsOf src = (s.source src).flows :: walk s.flowNext k (s.flowNext (s.source src).flows) := by
    rw [State.flowsOf, hb, walk, if_neg h0]
  refine ⟨hf, ?_⟩
  rw [(hk.flowDeleted hf).lists src hp, hw, List.erase_cons_head]

/-- An iteration of the sweep deletes the flow whose timer heads the timer list, and the timer list
loses its head. -/
theorem Realizes.sweep_step (hk : Realizes s.skeleton g) (h0 : s.timerHead ≠ 0) :
    (s.flows s.timerHead).isSome ∧ (s.flow s.timerHead).timer.data = s.timerHead ∧
      s.timerList = s.timerHead :: (Ipv6Reassembly.deleteFlow B s s.timerHead).timerList := by
  obtain ⟨hf, hd⟩ := hk.timerHead_live h0
  obtain ⟨k, hb⟩ : ∃ k, s.brk = k + 1 := ⟨s.brk - 1, (Nat.succ_pred_eq_of_pos hk.brk_pos).symm⟩
  have hw : s.timerList = s.timerHead :: walk (fun f => (s.flow f).timer.next) k (s.flow s.timerHead).timer.next := by
    rw [State.timerList, hb, walk, if_neg h0]
  refine ⟨hf, hd, ?_⟩
  rw [(hk.flowDeleted hf).timers, hw, List.erase_cons_head]

/-- The eviction loop gives the same result with any fuel at least the length of the source's
list. -/
theorem evictSource_fuel : ∀ {n : Nat} {s : State} {g : Shape}, Realizes s.skeleton g →
    (s.flowsOf src).length ≤ n → evictSource B n s src = evictSource B (s.flowsOf src).length s src
  | 0, s, _, _, hn => by rw [Nat.le_zero.1 hn]
  | n + 1, s, g, hk, hn => by
    by_cases hg : (s.source src).flows ≠ 0 ∧ s.perSourceMemoryLimit < (s.source src).sourceUsedMem
    · obtain ⟨hf, hl⟩ := hk.evict_step (B := B) hg.1
      rw [hl] at hn ⊢
      rw [List.length_cons, evictSource, evictSource, if_pos hg, if_pos hg]
      dsimp only
      split_ifs
      · rfl
      · exact evictSource_fuel (hk.deleteFlow_state hf) (by simpa using hn)
    · rw [evictSource_of_not B hg, evictSource_of_not B hg]

/-- The sweep gives the same result with any fuel at least the length of the timer list. -/
theorem sweepTimers_fuel : ∀ {n : Nat} {s : State} {g : Shape}, Realizes s.skeleton g →
    s.timerList.length ≤ n → sweepTimers B n s src now = sweepTimers B s.timerList.length s src now
  | 0, s, _, _, hn => by rw [Nat.le_zero.1 hn]
  | n + 1, s, g, hk, hn => by
    by_cases hg : s.timerHead ≠ 0 ∧ ((s.flow s.timerHead).timer.expirationTime < now ∨
        s.totalMemoryLimit ≤ s.totalUsedMem)
    · obtain ⟨hf, hd, hl⟩ := hk.sweep_step (B := B) hg.1
      rw [hl] at hn ⊢
      rw [List.length_cons, sweepTimers, sweepTimers, if_pos hg, if_pos hg]
      dsimp only
      rw [hd]
      split_ifs
      · rfl
      · exact sweepTimers_fuel (hk.deleteFlow_state hf) (by simpa using hn)
    · rw [sweepTimers_of_not B hg, sweepTimers_of_not B hg]

/-- With fuel at least the length of the source's list, the eviction loop ends by its abort or with
its guard false. -/
theorem evictSource_exit : ∀ {n : Nat} {s t : State} {g : Shape}, Realizes s.skeleton g →
    (s.flowsOf src).length ≤ n → evictSource B n s src = .cont t →
    ¬((t.source src).flows ≠ 0 ∧ t.perSourceMemoryLimit < (t.source src).sourceUsedMem)
  | 0, s, t, g, hk, hn, h => by
    obtain rfl : s = t := Stage.cont.inj h
    rintro ⟨h0, -⟩
    rw [(hk.evict_step (B := B) h0).2] at hn
    exact absurd hn (Nat.not_succ_le_zero _)
  | n + 1, s, t, g, hk, hn, h => by
    by_cases hg : (s.source src).flows ≠ 0 ∧ s.perSourceMemoryLimit < (s.source src).sourceUsedMem
    · obtain ⟨hf, hl⟩ := hk.evict_step (B := B) hg.1
      rw [evictSource, if_pos hg] at h
      dsimp only at h
      split_ifs at h
      exact evictSource_exit (hk.deleteFlow_state hf) (by rw [hl] at hn; simpa using hn) h
    · rw [evictSource_of_not B hg] at h
      cases h
      exact hg

/-- With fuel at least the length of the timer list, the sweep ends by its abort, or with the timer
list empty, or with its head unexpired and the engine under its memory limit. -/
theorem sweepTimers_exit : ∀ {n : Nat} {s t : State} {g : Shape}, Realizes s.skeleton g →
    s.timerList.length ≤ n → sweepTimers B n s src now = .cont t →
    ¬(t.timerHead ≠ 0 ∧ ((t.flow t.timerHead).timer.expirationTime < now ∨
      t.totalMemoryLimit ≤ t.totalUsedMem))
  | 0, s, t, g, hk, hn, h => by
    obtain rfl : s = t := Stage.cont.inj h
    rintro ⟨h0, -⟩
    rw [(hk.sweep_step (B := B) h0).2.2] at hn
    exact absurd hn (Nat.not_succ_le_zero _)
  | n + 1, s, t, g, hk, hn, h => by
    by_cases hg : s.timerHead ≠ 0 ∧ ((s.flow s.timerHead).timer.expirationTime < now ∨
        s.totalMemoryLimit ≤ s.totalUsedMem)
    · obtain ⟨hf, hd, hl⟩ := hk.sweep_step (B := B) hg.1
      rw [sweepTimers, if_pos hg] at h
      dsimp only at h
      rw [hd] at h
      split_ifs at h
      exact sweepTimers_exit (hk.deleteFlow_state hf) (by rw [hl] at hn; simpa using hn) h
    · rw [sweepTimers_of_not B hg] at h
      cases h
      exact hg

/-- On every state whose links realize a shape, the eviction loop and the sweep stop by
themselves. -/
theorem loops_stop (hk : Realizes s.skeleton g) (src : Ptr) (now : UInt32) : LoopsStop B s src now where
  evict_head h0 := (hk.evict_step h0).2
  sweep_head h0 := (hk.sweep_step h0).2
  evict_fuel _ hn := evictSource_fuel hk hn
  sweep_fuel _ hn := sweepTimers_fuel hk hn
  evict_exit _ _ hn h := evictSource_exit hk hn h
  sweep_exit _ _ hn h := sweepTimers_exit hk hn h
  evict_bound := length_walk_le _ _ _
  sweep_bound := length_walk_le _ _ _

/-- After two flows from `::1`, both loops of a call from `::1` at time 31 stop by themselves. -/
theorem loops_stop_two_flows :
    ∃ s, Reachable lp64 Op.Allocates s ∧ s.flowsOf 1 = [3, 2] ∧ s.timerList = [2, 3] ∧
      LoopsStop lp64 s 1 31 := by
  obtain ⟨s, -, hs, -, h1, h2⟩ := (Reachable.enable 1 : Reachable lp64 Op.Allocates _).of_run lp64
    (looseLimits ++ [.manage (frag 1 1 (List.replicate 8 7) 0 8 1 0) .ok,
      .manage (frag 1 2 (List.replicate 8 7) 0 8 1 0) .ok])
    (fun s _ => s.flowsOf 1 = [3, 2] ∧ s.timerList = [2, 3]) (by decide) (by decide)
  obtain ⟨g, hk⟩ := realizes_of_reachable hs
  exact ⟨s, hs, h1, h2, loops_stop hk 1 31⟩

end Stop

/-! ### The order of a source's flows -/

/-- Every source's list runs by decreasing address: from the most recently created flow to the
oldest. -/
def NewestFirst (g : Shape) : Prop := ∀ p, (g.flowsOf p).Pairwise (· > ·)

/-- Every call keeps the lists newest first: a new flow has the address `brk`, above every live
flow, and goes to the head of its list; deleting a flow keeps the others in order. -/
theorem keeps_newestFirst (B : Build) (now : UInt32) : Keeps B (fun _ g => NewestFirst g) now where
  createSource _ _ _ _ hg _ _ p := by
    simp only [Shape.addSource, Function.update_apply]
    split_ifs
    · exact List.Pairwise.nil
    · exact hg p
  createFlow _ _ _ _ _ hk hg hp _ p := by
    simp only [Shape.addFlow, Function.update_apply]
    split_ifs with h
    · subst h
      exact List.Pairwise.cons (fun x hx => hk.flow_lt x (hk.lists.source p (by simpa using hp) x hx).1) (hg p)
    · exact hg p
  deleteFlow _ _ _ _ hg _ p := by
    simp only [Shape.dropFlow, Function.update_apply]
    split_ifs
    · exact (hg _).sublist (List.erase_sublist _ _)
    · exact hg p
  removeSource _ _ _ _ hg _ _ := hg
  storeUnfragmentable _ _ _ _ _ hg _ _ := hg
  insertIntoFlow _ _ _ _ _ hg _ := hg

section Order

variable {B : Build} {s : State} {g : Shape} {src : Ptr}

/-- In every reachable state each source's flows are listed newest first. -/
theorem flows_newest_first {allowed : Op → Prop} (hs : Reachable B allowed s) :
    ∃ g, Realizes s.skeleton g ∧ NewestFirst g ∧ ∀ p, (s.sources p).isSome → s.flowsOf p = g.flowsOf p := by
  obtain ⟨g, hk, hg⟩ := Keeps.of_reachable (keeps_newestFirst B) (fun _ _ => List.Pairwise.nil)
    (fun _ _ h => ⟨fun _ => h, fun _ => h, fun _ => h⟩) hs
  exact ⟨g, hk, hg, fun _ hp => hk.flowsOf_eq hp⟩

/-- A flow on a source's list is live, and so is the source. -/
theorem Realizes.live_of_mem_flowsOf (hk : Realizes s.skeleton g) {f : Ptr} (hf : f ∈ s.flowsOf src) :
    (s.sources src).isSome ∧ (s.flows f).isSome := by
  have hp := live_of_flows_ne_zero (flows_ne_zero_of_mem hf)
  exact ⟨hp, (hk.flow_of_mem hp (hk.flowsOf_eq hp ▸ hf)).1⟩

/-- A flow that is dead stays dead through steps that keep flows. -/
theorem FlowsKept.dead {t : State} (h : FlowsKept s t) {q : Ptr} (hq : s.flows q = none) :
    t.flows q = none := by
  cases ht : t.flows q with
  | none => rfl
  | some r =>
    obtain ⟨_, h₀, -⟩ := h.live ht
    simp [hq] at h₀

/-- The eviction loop deletes a source's flows newest first: each flow of the source that it
deletes has a higher address, so was created later, than each flow of the source that it keeps. -/
theorem evictSource_deletes_newest : ∀ {n : Nat} {s : State} {g : Shape}, Realizes s.skeleton g →
    NewestFirst g → ∀ f ∈ s.flowsOf src, (evictSource B n s src).state.flows f = none →
      ∀ f' ∈ s.flowsOf src, ((evictSource B n s src).state.flows f').isSome → f' < f
  | 0, s, _, hk, _, f, hf, hdead, _, _, _ =>
    absurd hdead (Option.isSome_iff_ne_none.1 (hk.live_of_mem_flowsOf hf).2)
  | n + 1, s, g, hk, hg, f, hf, hdead, f', hf', hkept => by
    by_cases hguard : (s.source src).flows ≠ 0 ∧ s.perSourceMemoryLimit < (s.source src).sourceUsedMem
    · obtain ⟨hh, hl⟩ := hk.evict_step (B := B) hguard.1
      have hp := live_of_flows_ne_zero hguard.1
      have hsrc := (hk.flow_of_mem hp (hk.flowsOf_eq hp ▸ hl ▸ List.mem_cons_self _ _)).2
      have hk' := hk.deleteFlow_state (B := B) hh
      have hg' := (keeps_newestFirst B 0).deleteFlow _ _ _ hk hg hh
      rw [hsrc] at hk' hg'
      have hfree := (hk.flowDeleted (B := B) hh).freed
      have hsorted : ((s.source src).flows ::
          (Ipv6Reassembly.deleteFlow B s (s.source src).flows).flowsOf src).Pairwise (· > ·) := by
        rw [← hl, hk.flowsOf_eq hp]
        exact hg src
      rw [hl] at hf hf'
      rw [evictSource, if_pos hguard] at hdead hkept
      dsimp only at hdead hkept
      split_ifs at hdead hkept with habort
      · -- the loop deletes the source: no flow of it is kept
        rcases List.mem_cons.1 hf' with rfl | hf'
        · simp [Stage.state, (flowsKept_deleteSource B).dead hfree] at hkept
        · simp [Stage.state, ((hk'.sourceDeleted (B := B) ((isSome_sources_deleteFlow B).trans hp)).flows_freed
            f' hf')] at hkept
      · -- the loop goes on after deleting the head
        have hne : f' ≠ (s.source src).flows := fun h => by
          rw [h, (flowsKept_evictSource B n _ src).dead hfree] at hkept
          exact Bool.false_ne_true hkept
        have hf'' := (List.mem_cons.1 hf').resolve_left hne
        rcases List.mem_cons.1 hf with rfl | hf
        · exact List.rel_of_pairwise_cons hsorted hf''
        · exact evictSource_deletes_newest hk' hg' f hf hdead f' hf'' hkept
    · rw [evictSource_of_not B hguard] at hdead
      exact absurd hdead (Option.isSome_iff_ne_none.1 (hk.live_of_mem_flowsOf hf).2)

end Order

/-- In every reachable state, each flow of a source that the eviction loop deletes has a higher
address, so was created later, than each flow of the source that it keeps. With the per-host
limit at 300 bytes, two fragments from `::1` create flow `2` and then flow `3`, which brings the
source to 336 bytes; at the next call from `::1` the eviction loop deletes flow `3`, the newer
one, and keeps flow `2`, the older one. -/
theorem eviction_deletes_newer_flow :
    (∀ (B : Build) (allowed : Op → Prop) (s : State), Reachable B allowed s → ∀ (src : Ptr) (n : Nat),
      ∀ f ∈ s.flowsOf src, (evictSource B n s src).state.flows f = none →
        ∀ f' ∈ s.flowsOf src, ((evictSource B n s src).state.flows f').isSome → f' < f) ∧
    ∃ s t, Reachable lp64 Op.Allocates s ∧ s.flowsOf 1 = [3, 2] ∧
      findOrCreateSource lp64 s (frag 1 3 (List.replicate 8 7) 0 8 1 2).ip6Src true = (s, 1) ∧
      evictSource lp64 s.brk s 1 = .cont t ∧ t.flowsOf 1 = [2] ∧ (t.flows 3).isNone := by
  refine ⟨fun B _ s hs _ _ => ?_, ?_⟩
  · obtain ⟨g, hk, hg, -⟩ := flows_newest_first hs
    exact evictSource_deletes_newest hk hg
  obtain ⟨s, -, hs, -, hl, haddr, hev⟩ := (Reachable.enable 1 : Reachable lp64 Op.Allocates _).of_run lp64
    (looseLimits ++ [.setPerHostMemoryLimit 300, .manage (frag 1 1 (List.replicate 8 7) 0 8 1 0) .ok,
      .manage (frag 1 2 (List.replicate 8 7) 0 8 1 1) .ok])
    (fun s _ => s.flowsOf 1 = [3, 2] ∧
      (s.source 1).ipv6Srcaddr = (frag 1 3 (List.replicate 8 7) 0 8 1 2).ip6Src ∧
      (match evictSource lp64 s.brk s 1 with
        | .cont t => decide (t.flowsOf 1 = [2] ∧ (t.flows 3).isNone)
        | .abort _ => false) = true)
    (by decide) (by decide)
  have hp : (s.sources 1).isSome :=
    live_of_flows_ne_zero (flows_ne_zero_of_mem (show 3 ∈ s.flowsOf 1 by rw [hl]; exact List.mem_cons_self _ _))
  have hfound := (keys_of_reachable lp64 hs).source_found 1 true hp
  rw [haddr] at hfound
  cases he : evictSource lp64 s.brk s 1 with
  | cont t =>
    rw [he] at hev
    exact ⟨s, t, hs, hl, hfound, he, of_decide_eq_true hev⟩
  | abort t =>
    rw [he] at hev
    cases hev

end Ipv6Reassembly
