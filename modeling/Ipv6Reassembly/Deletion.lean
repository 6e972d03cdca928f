import Ipv6Reassembly.Ledger

/-!
# What the two deleting routines change

`dpi_ipv6_fragmentation_delete_flow(f)` walks the fragments of `f` to give back their bytes,
unlinks the timer of `f` and unlinks `f` from its source; `dpi_ipv6_fragmentation_delete_source`
runs it on every flow of the source and then unlinks the source from its chain. On a state whose
links realize a shape, this file says exactly what each leaves behind.

`FlowDeleted B s f t`: every flow list and the timer list lose `f` and nothing else, the chains
stay, `f` is freed, every other flow keeps everything but its links, every other source keeps
its whole record, and the source of `f` and the total are debited `f`'s charge
(`Realizes.flowDeleted`). `SourceDeleted B s p t`: the chain of `p` loses `p`, the timer list loses
the flows of `p`, these flows and `p` are freed, the other flows and sources keep everything but
their links and their lists, and the total is debited the record of `p` and the charges of its
flows (`Realizes.sourceDeleted`). The loop of `delete_source` is followed flow by flow
(`FlowsDeleted`), one `delete_flow` per step.
-/

namespace Ipv6Reassembly

/-- Everything of a flow record but its links: its data, its source and the flow its timer
names. -/
def Flow.contents (r : Flow) : FlowData × Ptr × Ptr := (r.data, r.source, r.timer.data)

theorem flowBlind_contents : FlowBlind Flow.contents := fun r n p t he hd => by
  simp only [Flow.contents, Flow.data, he, hd]

/-- Everything of a source record but its links: its address, its row and its charged
memory. -/
def Source.contents (r : Source) : In6Addr × UInt16 × UInt32 := (r.ipv6Srcaddr, r.row, r.sourceUsedMem)

theorem sourceBlind_contents : SourceBlind Source.contents := fun _ _ _ _ => rfl

/-- What `delete_flow` of `f` leaves of `s` in `t`. -/
structure FlowDeleted (B : Build) (s : State) (f : Ptr) (t : State) : Prop where
  lists : ∀ p, (s.sources p).isSome → t.flowsOf p = (s.flowsOf p).erase f
  timers : t.timerList = s.timerList.erase f
  chains : ∀ i < s.tableSize.toNat, t.chain i = s.chain i
  freed : t.flows f = none
  flows_kept : ∀ q, q ≠ f → t.flowView Flow.contents q = s.flowView Flow.contents q
  sources_kept : ∀ p, p ≠ (s.flow f).source → t.sources p = s.sources p
  keys_kept : t.sourceView Source.key = s.sourceView Source.key
  used : (t.source (s.flow f).source).sourceUsedMem =
    (s.source (s.flow f).source).sourceUsedMem - (s.flow f).charge B
  total : t.totalUsedMem = s.totalUsedMem - (s.flow f).charge B

/-- What `delete_source` of `p` leaves of `s` in `t`. -/
structure SourceDeleted (B : Build) (s : State) (p : Ptr) (t : State) : Prop where
  freed : t.sources p = none
  chains : ∀ i < s.tableSize.toNat, t.chain i = (s.chain i).erase p
  lists : ∀ q, q ≠ p → (s.sources q).isSome → t.flowsOf q = s.flowsOf q
  timers : t.timerList = s.timerList.filter (· ∉ s.flowsOf p)
  flows_freed : ∀ f ∈ s.flowsOf p, t.flows f = none
  flows_kept : ∀ q, q ∉ s.flowsOf p → t.flowView Flow.contents q = s.flowView Flow.contents q
  sources_kept : ∀ q, q ≠ p → t.sourceView Source.contents q = s.sourceView Source.contents q
  total : t.totalUsedMem =
    s.totalUsedMem - (B.sizeofSource + ((s.flowsOf p).map fun f => (s.flow f).charge B).sum)

/-! ### Records that `delete_flow` does not write -/

section Frame

variable (B : Build) {s : State} {g : Shape} {f p q : Ptr}

@[simp] theorem sources_deleteTimer : (deleteTimer s p).sources = s.sources := by
  unfold deleteTimer
  dsimp only
  split <;> split <;> rfl

theorem sources_release {src : Ptr} (hq : q ≠ src) (n : UInt32) : (s.release src n).sources q = s.sources q := by
  simp [State.release, hq]

theorem sources_modifySource_of_ne (hq : q ≠ p) (g : Source → Source) :
    (s.modifySource p g).sources q = s.sources q := by
  simp [hq]

theorem sources_foldl_release {src : Ptr} (hq : q ≠ src) (n : Fragment → UInt32) (fs : List Fragment)
    (s : State) : (fs.foldl (fun s fr => s.release src (n fr)) s).sources q = s.sources q := by
  induction fs generalizing s with
  | nil => rfl
  | cons fr fs ih => exact (ih _).trans (sources_release hq _)

/-- `delete_flow` writes no source record but that of the flow's source. -/
theorem sources_deleteFlow (hq : q ≠ (s.flow f).source) : (deleteFlow B s f).sources q = s.sources q := by
  unfold deleteFlow
  dsimp only
  simp only [State.freeFlow_sources, apply_ite (State.sources · q), State.modifyFlow_sources,
    sources_modifySource_of_ne hq, ite_self]
  split <;> simp only [sources_release hq, sources_foldl_release hq, sources_deleteTimer]

theorem flows_eq_none_of_flowView {α : Type} {V : Flow → α} {t : State} (h : t.flowView V q = none) :
    t.flows q = none :=
  Option.map_eq_none'.1 h

/-- The charge of a flow reads only its contents. -/
theorem charge_eq_of_contents {t : State} (h : t.flowView Flow.contents q = s.flowView Flow.contents q) :
    (t.flow q).charge B = (s.flow q).charge B := by
  have hc : (t.flow q).contents = (s.flow q).contents := by
    simpa only [State.flow, State.flowView, Option.getD_map] using
      congrArg (·.getD (default : Flow).contents) h
  simp only [Flow.contents, Flow.data, Prod.mk.injEq, FlowData.mk.injEq] at hc
  simp only [Flow.charge, Flow.unfragmentableLength, hc.1.1, hc.1.2.2.2.2.1]

theorem Realizes.timerList_nodup (hk : Realizes s.skeleton g) : s.timerList.Nodup := by
  rw [hk.timerList_eq]
  exact hk.timers.seg.nodup

end Frame

/-! ### `delete_flow` -/

section DeleteFlow

variable {B : Build} {s : State} {g : Shape} {f : Ptr}

/-- On a state whose links realize a shape, `delete_flow` of a live flow removes exactly that
flow. -/
theorem Realizes.flowDeleted (hk : Realizes s.skeleton g) (hf : (s.flows f).isSome) :
    FlowDeleted B s f (Ipv6Reassembly.deleteFlow B s f) where
  lists p hp := by
    have hk' := hk.deleteFlow_state (B := B) hf
    rw [hk'.flowsOf_eq ((isSome_sources_deleteFlow B).trans hp), hk.flowsOf_eq hp]
    simp only [Shape.dropFlow, Function.update_apply]
    split_ifs with h
    · rw [h]
    · exact (List.erase_of_not_mem fun hm => h (hk.flow_of_mem hp hm).2.symm).symm
  timers := by
    rw [(hk.deleteFlow_state hf).timerList_eq, hk.timerList_eq]
    rfl
  chains i hi := by
    rw [(hk.deleteFlow_state hf).chain_eq (by rwa [tableSize_deleteFlow]), hk.chain_eq hi]
    rfl
  freed := flows_eq_none_of_flowView (V := Flow.contents) (by
    rw [flowView_deleteFlow B flowBlind_contents, Function.update_same])
  flows_kept q hq := by rw [flowView_deleteFlow B flowBlind_contents, Function.update_noteq hq]
  sources_kept p hp := sources_deleteFlow B hp
  keys_kept := sourceView_deleteFlow B sourceBlind_key fun _ _ => rfl
  used := by
    have hsrc := hk.source_of_flow hf
    have h := congrArg (fun c => c.used (s.flow f).source) (counters_deleteFlow B (s := s) (f := f))
    simp only [Counters.charge, Function.update_same, used_of_live hsrc,
      used_of_live ((isSome_sources_deleteFlow B).trans hsrc), Option.map_some'] at h
    rw [Option.some.inj h, sub_eq_add_neg]
  total := by
    rw [sub_eq_add_neg]
    exact congrArg Counters.total (counters_deleteFlow B (s := s) (f := f))

end DeleteFlow

/-! ### `delete_source` -/

/-- What the loop of `delete_source` over the flows of `p` leaves of `s` in `t`, once it has
deleted the flows `l`. -/
structure FlowsDeleted (B : Build) (s : State) (p : Ptr) (l : List Ptr) (t : State) : Prop where
  timers : t.timerList = s.timerList.filter (· ∉ l)
  freed : ∀ f ∈ l, t.flows f = none
  flows_kept : ∀ q, q ∉ l → t.flowView Flow.contents q = s.flowView Flow.contents q
  sources_kept : ∀ q, q ≠ p → t.sources q = s.sources q
  keys_kept : t.sourceView Source.key = s.sourceView Source.key
  total : t.totalUsedMem = s.totalUsedMem - (l.map fun f => (s.flow f).charge B).sum

section DeleteSource

variable {B : Build} {s t : State} {g : Shape} {p f : Ptr} {rest : List Ptr}

theorem FlowsDeleted.nil (B : Build) (s : State) (p : Ptr) : FlowsDeleted B s p [] s :=
  ⟨by simp, fun _ h => absurd h (List.not_mem_nil _), fun _ _ => rfl, fun _ _ => rfl, rfl, by simp⟩

/-- One more step of the loop: `delete_flow` of the first flow `f` of `p`, then the rest. -/
theorem FlowsDeleted.cons (hk : Realizes s.skeleton g) (hf : (s.flows f).isSome)
    (hfp : (s.flow f).source = p) (hnd : f ∉ rest)
    (h : FlowsDeleted B (Ipv6Reassembly.deleteFlow B s f) p rest t) : FlowsDeleted B s p (f :: rest) t where
  timers := by
    rw [h.timers, (hk.flowDeleted hf).timers, hk.timerList_nodup.erase_eq_filter, List.filter_filter]
    congr 1
    funext x
    rw [Bool.eq_iff_iff]
    simp [and_comm]
  freed x hx := by
    rcases List.mem_cons.1 hx with rfl | hx
    · refine flows_eq_none_of_flowView (V := Flow.contents) ((h.flows_kept x hnd).trans ?_)
      simp [State.flowView, (hk.flowDeleted hf).freed]
    · exact h.freed x hx
  flows_kept q hq := (h.flows_kept q fun h' => hq (.tail _ h')).trans
    ((hk.flowDeleted hf).flows_kept q fun h' => hq (h' ▸ .head _))
  sources_kept q hq := (h.sources_kept q hq).trans ((hk.flowDeleted hf).sources_kept q (hfp ▸ hq))
  keys_kept := h.keys_kept.trans (hk.flowDeleted hf).keys_kept
  total := by
    rw [h.total, (hk.flowDeleted hf).total, List.map_cons, List.sum_cons, sub_sub,
      List.map_congr_left fun x hx => charge_eq_of_contents B
        ((hk.flowDeleted hf).flows_kept x fun e => hnd (e ▸ hx))]

/-- The loop of `delete_source`, given fuel for every flow of `p`, deletes exactly these flows. -/
theorem Realizes.flowsDeleted :
    ∀ {s : State} {g : Shape} {n : Nat}, Realizes s.skeleton g → (s.sources p).isSome →
      (g.flowsOf p).length ≤ n →
      FlowsDeleted B s p (g.flowsOf p) (deleteFlowsFrom B n s (s.source p).flows) := by
  intro s g n hk hp hn
  generalize hl : g.flowsOf p = l at hn ⊢
  induction l generalizing s g n with
  | nil =>
    rw [(hk.flows_eq_zero_iff hp).2 hl, show deleteFlowsFrom B n s 0 = s by cases n <;> rfl]
    exact .nil B s p
  | cons f rest ih =>
    obtain ⟨m, rfl⟩ : ∃ m, n = m + 1 := ⟨n - 1, by simp at hn; omega⟩
    have hseg := hk.lists.seg p (by simpa using hp)
    rw [hl] at hseg
    obtain ⟨hf, hf0, -⟩ := hseg
    rw [skeleton_source, Source.links_flows] at hf
    obtain ⟨hfl, hfs⟩ := hk.flow_of_mem hp (hl ▸ List.mem_cons_self _ _)
    have hk1 := hk.deleteFlow_state (B := B) hfl
    rw [hfs] at hk1
    rw [hf, deleteFlowsFrom, if_neg hf0, ← hk.flows_deleteFlow_head hp hl]
    exact .cons hk hfl hfs (List.nodup_cons.1 (hl ▸ hk.lists.seg p (by simpa using hp)).nodup).1
      (ih hk1 ((isSome_sources_deleteFlow B).trans hp) (by simp [Shape.dropFlow, hl]) (by simpa using hn))

@[simp] theorem flows_removeSource (row : UInt16) (p : Ptr) : (removeSource B s row p).flows = s.flows := by
  unfold removeSource
  dsimp only
  split_ifs <;> rfl

@[simp] theorem timerList_removeSource (row : UInt16) (p : Ptr) :
    (removeSource B s row p).timerList = s.timerList := by
  unfold removeSource State.timerList State.flow
  dsimp only
  split_ifs <;> rfl

theorem sources_removeSource_self (row : UInt16) (p : Ptr) : (removeSource B s row p).sources p = none := by
  unfold removeSource
  dsimp only
  split_ifs <;> simp

/-- On a state whose links realize a shape, `delete_source` of a live source removes exactly that
source and its flows. -/
theorem Realizes.sourceDeleted (hk : Realizes s.skeleton g) (hp : (s.sources p).isSome) :
    SourceDeleted B s p (deleteSource B s p) := by
  have hp' : (s.skeleton.sources p).isSome := by simpa using hp
  have hD := hk.flowsDeleted (B := B) (n := s.brk) hp
    (length_le_of_lt (hk.lists.seg p hp').nodup fun x hx => hk.flow_lt x (hk.lists.source p hp' x hx).1)
  obtain ⟨ts, hkt, -⟩ := (keeps_true B 0).deleteSource_shape hk trivial hp
  have hts : (deleteSource B s p).tableSize.toNat = s.tableSize.toNat := by
    rw [deleteSource, tableSize_removeSource, tableSize_deleteFlowsFrom]
  rw [← hk.flowsOf_eq hp] at hD
  have hkept : ∀ q, q ≠ p → (deleteSource B s p).sourceView Source.contents q = s.sourceView Source.contents q := by
    intro q hq
    rw [deleteSource, sourceView_removeSource B sourceBlind_contents, Function.update_noteq hq]
    simp only [State.sourceView, hD.sources_kept q hq]
  refine ⟨sources_removeSource_self _ _, fun i hi => ?_, fun q hq hlive => ?_, ?_, fun f hf => ?_,
    fun q hq => ?_, hkept, ?_⟩
  · rw [hkt.chain_eq (by rwa [hts]), hk.chain_eq hi]
    dsimp only
    rw [Function.update_apply]
    split_ifs with h
    · rw [h]
    · refine (List.erase_of_not_mem fun hm => h ?_).symm
      have := hk.chains.row i (by simpa using hi) p hm
      rw [skeleton_source, Source.links_row] at this
      exact this.symm
  · have hlive' : ((deleteSource B s p).sources q).isSome := by
      have h := congrArg Option.isSome (hkept q hq)
      simp only [State.sourceView, Option.isSome_map'] at h
      exact h.trans hlive
    rw [hkt.flowsOf_eq hlive', hk.flowsOf_eq hlive]
    exact Function.update_noteq hq _ _
  · rw [deleteSource, timerList_removeSource, hD.timers]
  · rw [deleteSource, flows_removeSource, hD.freed f hf]
  · rw [deleteSource, flowView_removeSource, hD.flows_kept q hq]
  · have := congrArg Counters.total (counters_removeSource B (s := deleteFlowsFrom B s.brk s (s.source p).flows)
      (p := p) (s.source p).row)
    refine this.trans ?_
    dsimp only
    rw [hD.total, sub_sub, add_comm]

/-- On a state whose links realize a shape, `delete_flow` of a live flow removes exactly that
flow, and `delete_source` of a live source exactly that source and its flows. -/
theorem deletions_exact (hk : Realizes s.skeleton g) :
    (∀ f, (s.flows f).isSome → FlowDeleted B s f (Ipv6Reassembly.deleteFlow B s f)) ∧
      ∀ p, (s.sources p).isSome → SourceDeleted B s p (deleteSource B s p) :=
  ⟨fun _ hf => hk.flowDeleted hf, fun _ hp => hk.sourceDeleted hp⟩

/-- After two fragments from `::1`, its flow `2` and the source `1` itself are deleted exactly. -/
theorem deletions_exact_two_flows :
    ∃ s, Reachable lp64 Op.Allocates s ∧ (s.flows 2).isSome ∧ (s.sources 1).isSome ∧
      FlowDeleted lp64 s 2 (Ipv6Reassembly.deleteFlow lp64 s 2) ∧ SourceDeleted lp64 s 1 (deleteSource lp64 s 1) := by
  obtain ⟨s, -, hs, -, h2, h1⟩ := (Reachable.enable 1 : Reachable lp64 Op.Allocates _).of_run lp64
    (looseLimits ++ [.manage (frag 1 1 (List.replicate 8 7) 0 8 1 0) .ok,
      .manage (frag 1 2 (List.replicate 8 7) 0 8 1 0) .ok])
    (fun s _ => (s.flows 2).isSome ∧ (s.sources 1).isSome) (by decide) (by decide)
  obtain ⟨g, hk⟩ := realizes_of_reachable hs
  exact ⟨s, hs, h2, h1, (deletions_exact hk).1 2 h2, (deletions_exact hk).2 1 h1⟩

end DeleteSource

end Ipv6Reassembly
