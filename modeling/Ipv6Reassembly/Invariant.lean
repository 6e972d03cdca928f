import Ipv6Reassembly.Structure

/-!
# Invariants along runs

`Keeps B I now` lists what an invariant `I` of the engine, read with the shape `g` the links of a
state spell out, must survive in a call at time `now`: the creating branches of
`find_or_create_source` and `find_or_create_flow`, `delete_flow`, the end of `delete_source`, and
the two writes of a stored fragment. From these alone, the lemmas below follow a call of
`dpi_reordering_manage_ipv6_fragment` through the loop of `delete_source`, the eviction loop, the
sweep and the storing of the fragment (`Keeps.manage`), and a run from `enableIpv6Fragmentation`
(`Keeps.of_reachable`). With `I` true this is the structural invariant itself
(`realizes_of_reachable`).

The walks of the engine (`findSourceIn`, `findFlowIn`, and the views `State.chain`,
`State.flowsOf`, `State.timerList`) read exactly the lists of the shape (`Realizes.chain_eq`, …),
since a list of live records never has more nodes than `brk`.
-/

namespace Ipv6Reassembly

/-! ## The walks read the lists of the shape -/

section Walks

variable {s : State} {g : Shape} {i : Nat} {p : Ptr}

theorem skeleton_sourceNext (s : State) : s.skeleton.sourceNext = s.sourceNext :=
  funext fun p => by rw [Skeleton.sourceNext, skeleton_source]; rfl

theorem skeleton_flowNext (s : State) : s.skeleton.flowNext = s.flowNext :=
  funext fun f => by rw [Skeleton.flowNext, skeleton_flow]; rfl

theorem skeleton_timerNext (s : State) : s.skeleton.timerNext = fun f => (s.flow f).timer.next :=
  funext fun f => by rw [Skeleton.timerNext, skeleton_flow]; rfl

theorem skeleton_sourcePrev (s : State) : s.skeleton.sourcePrev = fun p => (s.source p).prev :=
  funext fun p => by rw [Skeleton.sourcePrev, skeleton_source]; rfl

theorem skeleton_flowPrev (s : State) : s.skeleton.flowPrev = fun f => (s.flow f).prev :=
  funext fun f => by rw [Skeleton.flowPrev, skeleton_flow]; rfl

theorem skeleton_timerPrev (s : State) : s.skeleton.timerPrev = fun f => (s.flow f).timer.prev :=
  funext fun f => by rw [Skeleton.timerPrev, skeleton_flow]; rfl

theorem Realizes.source_live (hk : Realizes s.skeleton g) (hi : i < s.tableSize.toNat)
    (hp : p ∈ g.chain i) : (s.sources p).isSome := by
  simpa using hk.chain_live hi hp

theorem Realizes.chain_eq (hk : Realizes s.skeleton g) (hi : i < s.tableSize.toNat) :
    s.chain i = g.chain i := by
  have h := hk.chains.seg i hi
  rw [skeleton_sourceNext] at h
  exact walk_eq h (length_le_of_lt h.nodup fun p hp => hk.source_lt p (hk.chain_live hi hp))

theorem Realizes.flowsOf_eq (hk : Realizes s.skeleton g) (hp : (s.sources p).isSome) :
    s.flowsOf p = g.flowsOf p := by
  have hp' : (s.skeleton.sources p).isSome := by simpa using hp
  have h := hk.lists.seg p hp'
  rw [skeleton_flowNext, skeleton_source] at h
  exact walk_eq h (length_le_of_lt h.nodup fun f hf => hk.flow_lt f (hk.lists.source p hp' f hf).1)

theorem Realizes.timerList_eq (hk : Realizes s.skeleton g) : s.timerList = g.timers := by
  have h := hk.timers.seg
  rw [skeleton_timerNext] at h
  exact walk_eq h (length_le_of_lt h.nodup fun f hf => hk.flow_lt f ((hk.timers.live f).1 hf))

/-- The flows of a live source are live and point back to it. -/
theorem Realizes.flow_of_mem (hk : Realizes s.skeleton g) (hp : (s.sources p).isSome) {f : Ptr}
    (hf : f ∈ g.flowsOf p) : (s.flows f).isSome ∧ (s.flow f).source = p := by
  have := hk.lists.source p (by simpa using hp) f hf
  rwa [isSome_skeleton_flows, skeleton_flow, Flow.links_source] at this

theorem getD_find?_mem {l : List Ptr} {P : Ptr → Bool} (h : (l.find? P).getD 0 ≠ 0) :
    (l.find? P).getD 0 ∈ l := by
  cases hf : l.find? P with
  | none => simp [hf] at h
  | some x => simpa using List.mem_of_find?_eq_some hf

/-- A source the chain walk of `find_or_create_source` finds is on the chain. -/
theorem Realizes.findSourceIn_mem (hk : Realizes s.skeleton g) (hi : i < s.tableSize.toNat)
    {addr : In6Addr} (h : findSourceIn s addr (s.table i) ≠ 0) :
    findSourceIn s addr (s.table i) ∈ g.chain i :=
  hk.chain_eq hi ▸ getD_find?_mem h

/-- A flow the walk of `find_or_create_flow` finds is on the list of the source. -/
theorem Realizes.findFlowIn_mem (hk : Realizes s.skeleton g) (hp : (s.sources p).isSome)
    {id : UInt32} {dst : In6Addr} (h : findFlowIn s id dst (s.source p).flows ≠ 0) :
    findFlowIn s id dst (s.source p).flows ∈ g.flowsOf p :=
  hk.flowsOf_eq hp ▸ getD_find?_mem h

end Walks

/-! ## The routines of a call -/

/-- What an invariant `I` must survive in a call at time `now`, from a state whose links realize
`g`, with the shape the routine leaves. -/
structure Keeps (B : Build) (I : State → Shape → Prop) (now : UInt32) : Prop where
  createSource : ∀ s g addr, Realizes s.skeleton g → I s g → hashFunction s addr < s.tableSize.toNat →
    findSourceIn s addr (s.table (hashFunction s addr)) = 0 →
    I (createSource B s addr) (g.addSource (hashFunction s addr) s.brk)
  createFlow : ∀ s g src id dst, Realizes s.skeleton g → I s g → (s.sources src).isSome →
    findFlowIn s id dst (s.source src).flows = 0 → I (createFlow B s src id dst now) (g.addFlow src s.brk)
  deleteFlow : ∀ s g f, Realizes s.skeleton g → I s g → (s.flows f).isSome →
    I (deleteFlow B s f) (g.dropFlow (s.flow f).source f)
  removeSource : ∀ s g p, Realizes s.skeleton g → I s g → (s.sources p).isSome → g.flowsOf p = [] →
    I (removeSource B s (s.source p).row p) (g.dropSource (s.source p).row.toNat p)
  storeUnfragmentable : ∀ s g f a, Realizes s.skeleton g → I s g → (s.flows f).isSome →
    (s.flow f).unfragmentable = none → I (storeUnfragmentable s (s.flow f).source f a) g
  insertIntoFlow : ∀ s g f a, Realizes s.skeleton g → I s g → (s.flows f).isSome →
    I (insertIntoFlow s (s.flow f).source f a) g

/-- The links of `s` realize a shape for which `I` holds. -/
def Holds (I : State → Shape → Prop) (s : State) : Prop := ∃ g, Realizes s.skeleton g ∧ I s g

section Call

variable {B : Build} {I : State → Shape → Prop} {now : UInt32} {s : State} {g : Shape}

theorem Realizes.deleteFlow_state (hk : Realizes s.skeleton g) {f : Ptr} (hf : (s.flows f).isSome) :
    Realizes (Ipv6Reassembly.deleteFlow B s f).skeleton (g.dropFlow (s.flow f).source f) := by
  have := hk.deleteFlow (f := f) (by simpa using hf)
  rwa [skeleton_flow, Flow.links_source, ← skeleton_deleteFlow B] at this

/-- The source of a live flow is live. -/
theorem Realizes.source_of_flow (hk : Realizes s.skeleton g) {f : Ptr} (hf : (s.flows f).isSome) :
    (s.sources (s.flow f).source).isSome := by
  simpa [skeleton_flow] using (hk.lists.live f (by simpa using hf)).1

/-- The first flow of a live source is live. -/
theorem Realizes.head_live (hk : Realizes s.skeleton g) {p : Ptr} (hp : (s.sources p).isSome)
    (h0 : (s.source p).flows ≠ 0) : (s.flows (s.source p).flows).isSome := by
  have h := hk.lists.seg p (by simpa using hp)
  rw [skeleton_source, Source.links_flows] at h
  exact (hk.flow_of_mem hp (h.mem_of_ne_zero h0)).1

/-- A live source has no first flow exactly when its list is empty. -/
theorem Realizes.flows_eq_zero_iff (hk : Realizes s.skeleton g) {p : Ptr} (hp : (s.sources p).isSome) :
    (s.source p).flows = 0 ↔ g.flowsOf p = [] := by
  have h := hk.lists.seg p (by simpa using hp)
  rw [skeleton_source, Source.links_flows] at h
  cases hl : g.flowsOf p with
  | nil => rw [hl] at h; simpa using h
  | cons x xs =>
    obtain ⟨rfl, hx, -⟩ := hl ▸ h
    simpa using hx

/-- The head of a non-empty timer list is a live flow, and its timer points back to it. -/
theorem Realizes.timerHead_live (hk : Realizes s.skeleton g) (h0 : s.timerHead ≠ 0) :
    (s.flows s.timerHead).isSome ∧ (s.flow s.timerHead).timer.data = s.timerHead := by
  have hl := (hk.timers.live _).1 (hk.timers.seg.mem_of_ne_zero h0)
  refine ⟨by simpa using hl, ?_⟩
  simpa [skeleton_flow] using hk.timers.data _ hl

theorem tableSize_deleteFlow (B : Build) {f : Ptr} :
    (Ipv6Reassembly.deleteFlow B s f).tableSize.toNat = s.tableSize.toNat := by
  rw [← skeleton_tableSize, skeleton_deleteFlow, Skeleton.deleteFlow_tableSize, skeleton_tableSize]

theorem tableSize_deleteFlowsFrom (B : Build) (n : Nat) (s : State) (f : Ptr) :
    (Ipv6Reassembly.deleteFlowsFrom B n s f).tableSize.toNat = s.tableSize.toNat := by
  induction n generalizing s f with
  | zero => rfl
  | succ n ih =>
    unfold Ipv6Reassembly.deleteFlowsFrom
    split
    · rfl
    · rw [ih, tableSize_deleteFlow]

theorem isSome_sources_deleteFlow (B : Build) {f p : Ptr} :
    ((Ipv6Reassembly.deleteFlow B s f).sources p).isSome = (s.sources p).isSome := by
  rw [← isSome_skeleton_sources, skeleton_deleteFlow, ← isSome_skeleton_sources]
  exact Bool.eq_iff_iff.2 Skeleton.isSome_deleteFlow_sources

/-- Deleting the first flow of a source makes its next flow the first. -/
theorem Realizes.flows_deleteFlow_head (hk : Realizes s.skeleton g) {p f : Ptr} {rest : List Ptr}
    (hp : (s.sources p).isSome) (hl : g.flowsOf p = f :: rest) :
    ((Ipv6Reassembly.deleteFlow B s f).source p).flows = (s.flow f).next := by
  have hp' : (s.skeleton.sources p).isSome := by simpa using hp
  have hseg := hk.lists.seg p hp'
  rw [hl] at hseg
  obtain ⟨-, -, hprev, -⟩ := hseg
  have hfs := (hk.flow_of_mem hp (hl ▸ List.mem_cons_self _ _)).2
  have := congrArg (fun k => (k.source p).flows) (skeleton_deleteFlow B (s := s) f)
  simp only [skeleton_source, Source.links_flows] at this
  rw [this, Skeleton.deleteFlow_source, if_pos ⟨by rw [skeleton_flow]; exact hfs.symm, hprev, hp'⟩]
  simp [skeleton_flow]

/-- The loop of `delete_source`, given fuel for every flow of `p`, deletes them all: the chains
stay and the list of `p` empties. -/
theorem Keeps.deleteFlowsFrom (hI : Keeps B I now) {p : Ptr} :
    ∀ {s : State} {g : Shape} {n : Nat}, Realizes s.skeleton g → I s g → (s.sources p).isSome →
      (g.flowsOf p).length ≤ n →
      ∃ ts, Realizes (Ipv6Reassembly.deleteFlowsFrom B n s (s.source p).flows).skeleton
          ⟨g.chain, Function.update g.flowsOf p [], ts⟩ ∧
        I (Ipv6Reassembly.deleteFlowsFrom B n s (s.source p).flows) ⟨g.chain, Function.update g.flowsOf p [], ts⟩ := by
  intro s g n hk hs hp hn
  generalize hl : g.flowsOf p = l at hn
  induction l generalizing s g n with
  | nil =>
    refine ⟨g.timers, ?_⟩
    rw [(hk.flows_eq_zero_iff hp).2 hl, show Ipv6Reassembly.deleteFlowsFrom B n s 0 = s by cases n <;> rfl, ← hl, Function.update_eq_self]
    exact ⟨hk, hs⟩
  | cons f rest ih =>
    obtain ⟨m, rfl⟩ : ∃ m, n = m + 1 := ⟨n - 1, by simp at hn; omega⟩
    have hp' : (s.skeleton.sources p).isSome := by simpa using hp
    have hseg := hk.lists.seg p hp'
    rw [hl] at hseg
    obtain ⟨hf, hf0, -⟩ := hseg
    rw [skeleton_source, Source.links_flows] at hf
    obtain ⟨hfl, hfs⟩ := hk.flow_of_mem hp (hl ▸ List.mem_cons_self _ _)
    have hk1 := hk.deleteFlow_state (B := B) hfl
    have hs1 := hI.deleteFlow s g f hk hs hfl
    rw [hfs] at hk1 hs1
    obtain ⟨ts, hts⟩ := ih hk1 hs1 ((isSome_sources_deleteFlow B).trans hp) (by simp [Shape.dropFlow, hl]) (by simpa using hn)
    refine ⟨ts, ?_⟩
    rw [hf, Ipv6Reassembly.deleteFlowsFrom, if_neg hf0, ← hk.flows_deleteFlow_head hp hl]
    simpa only [Shape.dropFlow, Function.update_idem] using hts

/-- `delete_source` of a live source keeps the invariant, with the source gone from its chain and
its list emptied. -/
theorem Keeps.deleteSource_shape (hI : Keeps B I now) (hk : Realizes s.skeleton g) (hs : I s g) {p : Ptr}
    (hp : (s.sources p).isSome) :
    ∃ ts, Realizes (Ipv6Reassembly.deleteSource B s p).skeleton
        ⟨Function.update g.chain (s.source p).row.toNat ((g.chain (s.source p).row.toNat).erase p),
          Function.update g.flowsOf p [], ts⟩ ∧
      I (Ipv6Reassembly.deleteSource B s p)
        ⟨Function.update g.chain (s.source p).row.toNat ((g.chain (s.source p).row.toNat).erase p),
          Function.update g.flowsOf p [], ts⟩ := by
  have hp' : (s.skeleton.sources p).isSome := by simpa using hp
  obtain ⟨i, hi, hpi⟩ := (hk.chains.live p).1 hp'
  obtain ⟨ts, hk1, hs1⟩ := hI.deleteFlowsFrom (n := s.brk) hk hs hp
    (length_le_of_lt (hk.lists.seg p hp').nodup fun x hx => hk.flow_lt x (hk.lists.source p hp' x hx).1)
  have hts := tableSize_deleteFlowsFrom B s.brk s (s.source p).flows
  unfold Ipv6Reassembly.deleteSource
  generalize Ipv6Reassembly.deleteFlowsFrom B s.brk s (s.source p).flows = s₁ at hk1 hs1 hts
  have hi1 : i < s₁.skeleton.tableSize := by simpa [hts] using hi
  have hp1 : (s₁.sources p).isSome := by simpa using (hk1.chains.live p).2 ⟨i, hi1, hpi⟩
  have hrow : (s₁.source p).row = (s.source p).row := by
    have h1 := hk1.chains.row i hi1 p hpi
    have h2 := hk.chains.row i hi p hpi
    rw [skeleton_source, Source.links_row] at h1 h2
    exact UInt16.toNat.inj (h1.trans h2.symm)
  rw [← hrow]
  refine ⟨ts, ?_, hI.removeSource s₁ _ p hk1 hs1 hp1 (by simp)⟩
  have := hk1.removeSource (by simpa using hp1) (by simp)
  rwa [skeleton_source, Source.links_row, ← skeleton_removeSource B] at this

/-- `delete_source` keeps the invariant. -/
theorem Keeps.deleteSource (hI : Keeps B I now) (hk : Realizes s.skeleton g) (hs : I s g) {p : Ptr}
    (hp : (s.sources p).isSome) : Holds I (Ipv6Reassembly.deleteSource B s p) :=
  let ⟨_, hk', hs'⟩ := hI.deleteSource_shape hk hs hp
  ⟨_, hk', hs'⟩

/-- The exits of `build_complete_datagram` that give the flow up keep the invariant. -/
theorem Keeps.deleteFlowAndEmptySource (hI : Keeps B I now) (hk : Realizes s.skeleton g) (hs : I s g)
    {f : Ptr} (hf : (s.flows f).isSome) : Holds I (Ipv6Reassembly.deleteFlowAndEmptySource B s f) := by
  unfold Ipv6Reassembly.deleteFlowAndEmptySource
  have hk1 := hk.deleteFlow_state (B := B) hf
  have hs1 := hI.deleteFlow s g f hk hs hf
  dsimp only
  split
  · exact hI.deleteSource hk1 hs1 ((isSome_sources_deleteFlow B).trans (hk.source_of_flow hf))
  · exact ⟨_, hk1, hs1⟩

theorem Keeps.buildCompleteDatagram (hI : Keeps B I now) (hk : Realizes s.skeleton g) (hs : I s g)
    {f : Ptr} (hf : (s.flows f).isSome) (ok : Bool) :
    Holds I (Ipv6Reassembly.buildCompleteDatagram B s f ok).1 := by
  unfold Ipv6Reassembly.buildCompleteDatagram
  dsimp only
  split_ifs
  · exact hI.deleteFlowAndEmptySource hk hs hf
  · exact hI.deleteFlowAndEmptySource hk hs hf
  · split
    · exact ⟨g, hk, hs⟩
    · exact hI.deleteFlowAndEmptySource hk hs hf

theorem flows_isSome_of_skeleton {t : State} (h : t.skeleton = s.skeleton) {f : Ptr} :
    (t.flows f).isSome = (s.flows f).isSome := by
  rw [← isSome_skeleton_flows, h, isSome_skeleton_flows]

theorem flow_source_of_skeleton {t : State} (h : t.skeleton = s.skeleton) {f : Ptr} :
    (t.flow f).source = (s.flow f).source := by
  simpa [skeleton_flow] using congrArg (fun k => (k.flow f).source) h

/-- Everything after the flow lookup keeps the invariant. -/
theorem Keeps.storeFragment (hI : Keeps B I now) (hk : Realizes s.skeleton g) (hs : I s g)
    {source flow : Ptr} (hf : (s.flows flow).isSome) (hsrc : (s.flow flow).source = source)
    (a : Packet) (m : Malloc) : Holds I (Ipv6Reassembly.storeFragment B s source flow a m).1 := by
  subst hsrc
  unfold Ipv6Reassembly.storeFragment
  by_cases h1 : (s.flow flow).len ≠ 0 ∧ (s.flow flow).len < a.offset
  · rw [if_pos h1]
    exact ⟨g, hk, hs⟩
  rw [if_neg h1]
  by_cases h2 : (s.flow flow).unfragmentable = none ∧ !m.unfragmentable
  · rw [if_pos h2]
    exact ⟨_, hk.deleteFlow_state hf, hI.deleteFlow s g flow hk hs hf⟩
  rw [if_neg h2]
  dsimp only
  obtain ⟨s₁, hS, hk₁, hs₁⟩ : ∃ s₁, (if (s.flow flow).unfragmentable = none then
      Ipv6Reassembly.storeUnfragmentable s (s.flow flow).source flow a else s) = s₁ ∧
      s₁.skeleton = s.skeleton ∧ I s₁ g := by
    split
    next hnone =>
      exact ⟨_, rfl, skeleton_storeUnfragmentable _ _ _, hI.storeUnfragmentable s g flow a hk hs hf hnone⟩
    next => exact ⟨s, rfl, rfl, hs⟩
  rw [hS]
  have hf₁ : (s₁.flows flow).isSome := (flows_isSome_of_skeleton hk₁).trans hf
  have hsrc₁ := flow_source_of_skeleton hk₁ (f := flow)
  have hk₂ : Realizes (Ipv6Reassembly.insertIntoFlow s₁ (s.flow flow).source flow a).skeleton g := by
    rw [skeleton_insertIntoFlow, hk₁]; exact hk
  have hs₂ := hsrc₁ ▸ hI.insertIntoFlow s₁ g flow a (hk₁ ▸ hk) hs₁ hf₁
  have hf₂ := (flows_isSome_of_skeleton (skeleton_insertIntoFlow (s := s₁) (s.flow flow).source flow a)).trans hf₁
  split_ifs
  · exact ⟨g, hk₁ ▸ hk, hs₁⟩
  · exact hI.buildCompleteDatagram hk₂ hs₂ hf₂ _
  · exact ⟨g, hk₂, hs₂⟩

/-- The per-source eviction loop keeps the invariant, and the calling source when it goes on. -/
theorem Keeps.evictSource (hI : Keeps B I now) {src : Ptr} :
    ∀ (n : Nat) {s : State} {g : Shape}, Realizes s.skeleton g → I s g → (s.sources src).isSome →
      Holds I (Ipv6Reassembly.evictSource B n s src).state ∧
        ∀ t, Ipv6Reassembly.evictSource B n s src = .cont t → (t.sources src).isSome
  | 0, s, g, hk, hs, hp => ⟨⟨g, hk, hs⟩, fun t ht => by cases ht; exact hp⟩
  | n + 1, s, g, hk, hs, hp => by
    unfold Ipv6Reassembly.evictSource
    dsimp only
    split_ifs with h1 h2
    · have hf := hk.head_live hp h1.1
      exact ⟨hI.deleteSource (hk.deleteFlow_state hf) (hI.deleteFlow s g _ hk hs hf)
        ((isSome_sources_deleteFlow B).trans hp), fun t ht => by cases ht⟩
    · have hf := hk.head_live hp h1.1
      exact hI.evictSource n (hk.deleteFlow_state hf) (hI.deleteFlow s g _ hk hs hf)
        ((isSome_sources_deleteFlow B).trans hp)
    · exact ⟨⟨g, hk, hs⟩, fun t ht => by cases ht; exact hp⟩

/-- The timer and global-memory sweep keeps the invariant, and the calling source when it goes
on. -/
theorem Keeps.sweepTimers (hI : Keeps B I now) {src : Ptr} (time : UInt32) :
    ∀ (n : Nat) {s : State} {g : Shape}, Realizes s.skeleton g → I s g → (s.sources src).isSome →
      Holds I (Ipv6Reassembly.sweepTimers B n s src time).state ∧
        ∀ t, Ipv6Reassembly.sweepTimers B n s src time = .cont t → (t.sources src).isSome
  | 0, s, g, hk, hs, hp => ⟨⟨g, hk, hs⟩, fun t ht => by cases ht; exact hp⟩
  | n + 1, s, g, hk, hs, hp => by
    unfold Ipv6Reassembly.sweepTimers
    dsimp only
    split_ifs with h1 h2
    · obtain ⟨hf, hd⟩ := hk.timerHead_live h1.1
      rw [hd] at *
      exact ⟨hI.deleteSource (hk.deleteFlow_state hf) (hI.deleteFlow s g _ hk hs hf)
        ((isSome_sources_deleteFlow B).trans (hk.source_of_flow hf)), fun t ht => by cases ht⟩
    · obtain ⟨hf, hd⟩ := hk.timerHead_live h1.1
      rw [hd] at *
      exact hI.sweepTimers time n (hk.deleteFlow_state hf) (hI.deleteFlow s g _ hk hs hf)
        ((isSome_sources_deleteFlow B).trans hp)
    · exact ⟨⟨g, hk, hs⟩, fun t ht => by cases ht; exact hp⟩

/-- `find_or_create_source` keeps the invariant, and what it returns, unless `NULL`, is live. -/
theorem Keeps.findOrCreateSource (hI : Keeps B I now) (hk : Realizes s.skeleton g) (hs : I s g)
    (hts : s.tableSize ≠ 0) {addr : In6Addr} {ok : Bool} {t : State} {src : Ptr}
    (h : Ipv6Reassembly.findOrCreateSource B s addr ok = (t, src)) :
    Holds I t ∧ (src ≠ 0 → (t.sources src).isSome) := by
  have hi : hashFunction s addr < s.tableSize.toNat :=
    Nat.mod_lt _ (Nat.pos_of_ne_zero fun h0 => hts (UInt16.toNat.inj (by simpa using h0)))
  unfold Ipv6Reassembly.findOrCreateSource at h
  dsimp only at h
  split_ifs at h with h1 h2
  · cases h
    exact ⟨⟨g, hk, hs⟩, fun _ => hk.source_live hi (hk.findSourceIn_mem hi h1)⟩
  · cases h
    exact ⟨⟨g, hk, hs⟩, fun h0 => absurd rfl h0⟩
  · cases h
    have hk' : Realizes (Ipv6Reassembly.createSource B s addr).skeleton (g.addSource (hashFunction s addr) s.brk) := by
      rw [skeleton_createSource]
      exact hk.pushSource hi
    refine ⟨⟨_, hk', hI.createSource s g addr hk hs hi (not_not.1 h1)⟩, fun _ => ?_⟩
    simpa using hk'.chain_live (i := hashFunction s addr) (by simpa [skeleton_createSource] using hi)
      (by simp [Shape.addSource])

/-- `find_or_create_flow` keeps the invariant, and what it returns, unless `NULL`, is a live flow
of the source. -/
theorem Keeps.findOrCreateFlow (hI : Keeps B I now) (hk : Realizes s.skeleton g) (hs : I s g)
    {src : Ptr} (hp : (s.sources src).isSome) {id : UInt32} {dst : In6Addr} {ok : Bool} {t : State}
    {f : Ptr} (h : Ipv6Reassembly.findOrCreateFlow B s src id dst now ok = (t, f)) :
    Holds I t ∧ (f ≠ 0 → (t.flows f).isSome ∧ (t.flow f).source = src) := by
  unfold Ipv6Reassembly.findOrCreateFlow at h
  dsimp only at h
  split_ifs at h with h1 h2
  · cases h
    exact ⟨⟨g, hk, hs⟩, fun _ => hk.flow_of_mem hp (hk.findFlowIn_mem hp h1)⟩
  · cases h
    exact ⟨⟨g, hk, hs⟩, fun h0 => absurd rfl h0⟩
  · cases h
    have hk' : Realizes (Ipv6Reassembly.createFlow B s src id dst now).skeleton (g.addFlow src s.brk) := by
      rw [skeleton_createFlow]
      exact hk.pushFlow (by simpa using hp)
    refine ⟨⟨_, hk', hI.createFlow s g src id dst hk hs hp (not_not.1 h1)⟩, fun _ => ?_⟩
    have hp' : ((Ipv6Reassembly.createFlow B s src id dst now).sources src).isSome := by
      rw [← isSome_skeleton_sources, skeleton_createFlow]
      simpa [Skeleton.pushFlow] using hp
    exact hk'.flow_of_mem hp' (by simp [Shape.addFlow])

/-- A call of `dpi_reordering_manage_ipv6_fragment` keeps the invariant. -/
theorem Keeps.manage {a : Packet} {m : Malloc} {t : State} {r : Option (List UInt8)}
    (hI : Keeps B I a.currentTime) (hk : Realizes s.skeleton g) (hs : I s g)
    (h : manageIpv6Fragment B s a m = some (t, r)) : Holds I t := by
  rcases manageIpv6Fragment_cases B h with ⟨-, rfl, -⟩ | ⟨s₁, src, -, hts, hsrc, hcase⟩
  · exact ⟨g, hk, hs⟩
  obtain ⟨⟨g₁, hk₁, hs₁⟩, hlive₁⟩ := hI.findOrCreateSource hk hs hts hsrc
  rcases hcase with ⟨-, rfl, -⟩ | ⟨h0, hev, -⟩ | ⟨s₂, h0, hev, hrest⟩
  · exact ⟨g₁, hk₁, hs₁⟩
  · have := (hI.evictSource s₁.brk hk₁ hs₁ (hlive₁ h0)).1
    rwa [hev] at this
  obtain ⟨hh₂, hc₂⟩ := hI.evictSource s₁.brk hk₁ hs₁ (hlive₁ h0)
  rw [hev] at hh₂
  obtain ⟨g₂, hk₂, hs₂⟩ : Holds I s₂ := hh₂
  rcases hrest with ⟨hsw, -⟩ | ⟨s₃, s₄, f, hsw, hfl, hfin⟩
  · have := (hI.sweepTimers a.currentTime s₂.brk hk₂ hs₂ (hc₂ s₂ hev)).1
    rwa [hsw] at this
  obtain ⟨hh₃, hc₃⟩ := hI.sweepTimers a.currentTime s₂.brk hk₂ hs₂ (hc₂ s₂ hev)
  rw [hsw] at hh₃
  obtain ⟨g₃, hk₃, hs₃⟩ : Holds I s₃ := hh₃
  obtain ⟨⟨g₄, hk₄, hs₄⟩, hf₄⟩ := hI.findOrCreateFlow hk₃ hs₃ (hc₃ s₃ hsw) hfl
  rcases hfin with ⟨-, rfl, -⟩ | ⟨hf0, hst⟩
  · exact ⟨g₄, hk₄, hs₄⟩
  · have := hI.storeFragment hk₄ hs₄ (hf₄ hf0).1 (hf₄ hf0).2 a m
    rwa [hst] at this

end Call

/-! ## Runs -/

/-- A new engine realizes the empty shape. -/
theorem realizes_enable (B : Build) (tableSize : UInt16) :
    Realizes (enableIpv6Fragmentation B tableSize).skeleton ⟨fun _ => [], fun _ => [], []⟩ where
  brk_pos := Nat.one_pos
  source_lt _ h := absurd h (by simp [State.skeleton, enableIpv6Fragmentation])
  flow_lt _ h := absurd h (by simp [State.skeleton, enableIpv6Fragmentation])
  chains := ⟨fun _ _ => rfl, fun _ _ _ h => absurd h (List.not_mem_nil _),
    fun _ => by simp [State.skeleton, enableIpv6Fragmentation]⟩
  lists := ⟨fun _ h => absurd h (by simp [State.skeleton, enableIpv6Fragmentation]),
    fun _ _ _ h => absurd h (List.not_mem_nil _),
    fun _ h => absurd h (by simp [State.skeleton, enableIpv6Fragmentation])⟩
  timers := ⟨rfl, rfl, fun _ => by simp [State.skeleton, enableIpv6Fragmentation],
    fun _ h => absurd h (by simp [State.skeleton, enableIpv6Fragmentation])⟩

/-- An invariant that every call keeps, that holds of a new engine and that the setters keep
holds in every reachable state. -/
theorem Keeps.of_reachable {B : Build} {I : State → Shape → Prop} {allowed : Op → Prop}
    (hI : ∀ now, Keeps B I now)
    (henable : ∀ tableSize, I (enableIpv6Fragmentation B tableSize) ⟨fun _ => [], fun _ => [], []⟩)
    (hsetters : ∀ s g, I s g → (∀ n, I { s with perSourceMemoryLimit := n } g) ∧
      (∀ n, I { s with totalMemoryLimit := n } g) ∧ ∀ t, I { s with timeout := t } g)
    {s : State} (hs : Reachable B allowed s) : Holds I s := by
  induction hs with
  | enable tableSize => exact ⟨_, realizes_enable B tableSize, henable tableSize⟩
  | @step s s' op r _ _ hstep ih =>
    obtain ⟨g, hk, hsg⟩ := ih
    cases op with
    | manage a m => exact (hI a.currentTime).manage hk hsg hstep
    | setPerHostMemoryLimit n =>
      obtain ⟨rfl, -⟩ := Prod.mk.inj (Option.some.inj hstep).symm
      exact ⟨g, hk, (hsetters s g hsg).1 n⟩
    | setTotalMemoryLimit n =>
      obtain ⟨rfl, -⟩ := Prod.mk.inj (Option.some.inj hstep).symm
      exact ⟨g, hk, (hsetters s g hsg).2.1 n⟩
    | setReassemblyTimeout t =>
      obtain ⟨rfl, -⟩ := Prod.mk.inj (Option.some.inj hstep).symm
      exact ⟨g, hk, (hsetters s g hsg).2.2 t⟩

/-- The invariant that says nothing: what it keeps is the structural invariant alone. -/
theorem keeps_true (B : Build) (now : UInt32) : Keeps B (fun _ _ => True) now :=
  ⟨fun _ _ _ _ _ _ _ => trivial, fun _ _ _ _ _ _ _ _ _ => trivial, fun _ _ _ _ _ _ => trivial,
    fun _ _ _ _ _ _ _ => trivial, fun _ _ _ _ _ _ _ _ => trivial, fun _ _ _ _ _ _ _ => trivial⟩

/-- The structural invariant holds in every reachable state. -/
theorem realizes_of_reachable {B : Build} {allowed : Op → Prop} {s : State}
    (hs : Reachable B allowed s) : ∃ g, Realizes s.skeleton g := by
  obtain ⟨g, hk, -⟩ := Keeps.of_reachable (I := fun _ _ => True) (keeps_true B)
    (fun _ => trivial) (fun _ _ _ => ⟨fun _ => trivial, fun _ => trivial, fun _ => trivial⟩) hs
  exact ⟨g, hk⟩

/-! ## The structural invariant, read on the state

`Linked s` says what `Realizes` says with the lists the engine's own walks read: each bucket chain
and each flow list is a doubly-linked list ending in `NULL` whose head has no predecessor, each
source on chain `i` has row `i`, each flow lies on the list of the source it names, and the timer
list runs from `timer_head` to `timer_tail` through the timer of every live flow exactly once. -/

/-- The links of every record, as the walks of the engine read them. -/
structure Linked (s : State) : Prop where
  chain_seg : ∀ i < s.tableSize.toNat,
    Seg s.sourceNext (fun p => (s.source p).prev) 0 (s.table i) (s.chain i) 0
  chain_row : ∀ i < s.tableSize.toNat, ∀ p ∈ s.chain i, (s.source p).row.toNat = i
  chain_live : ∀ p, (s.sources p).isSome ↔ ∃ i < s.tableSize.toNat, p ∈ s.chain i
  flows_seg : ∀ p, (s.sources p).isSome →
    Seg s.flowNext (fun f => (s.flow f).prev) 0 (s.source p).flows (s.flowsOf p) 0
  flows_source : ∀ p, (s.sources p).isSome → ∀ f ∈ s.flowsOf p,
    (s.flows f).isSome ∧ (s.flow f).source = p
  flow_listed : ∀ f, (s.flows f).isSome →
    (s.sources (s.flow f).source).isSome ∧ f ∈ s.flowsOf (s.flow f).source
  timers_seg : Seg (fun f => (s.flow f).timer.next) (fun f => (s.flow f).timer.prev) 0 s.timerHead
    s.timerList 0
  timers_tail : s.timerTail = s.timerList.getLastD 0
  timers_live : ∀ f, f ∈ s.timerList ↔ (s.flows f).isSome
  timers_data : ∀ f, (s.flows f).isSome → (s.flow f).timer.data = f

theorem Realizes.linked {s : State} {g : Shape} (hk : Realizes s.skeleton g) : Linked s where
  chain_seg i hi := by
    simpa only [hk.chain_eq hi, skeleton_sourceNext, skeleton_sourcePrev] using hk.chains.seg i hi
  chain_row i hi p hp := by
    simpa [skeleton_source] using hk.chains.row i hi p (hk.chain_eq hi ▸ hp)
  chain_live p := by
    rw [← isSome_skeleton_sources, hk.chains.live]
    exact exists_congr fun i => and_congr_right fun hi => by rw [hk.chain_eq hi]
  flows_seg p hp := by
    simpa only [hk.flowsOf_eq hp, skeleton_flowNext, skeleton_flowPrev, skeleton_source,
      Source.links_flows] using hk.lists.seg p (by simpa using hp)
  flows_source p hp f hf := hk.flow_of_mem hp (hk.flowsOf_eq hp ▸ hf)
  flow_listed f hf := by
    have hp := hk.source_of_flow hf
    refine ⟨hp, hk.flowsOf_eq hp ▸ ?_⟩
    simpa [skeleton_flow] using (hk.lists.live f (by simpa using hf)).2
  timers_seg := by
    simpa only [hk.timerList_eq, skeleton_timerNext, skeleton_timerPrev] using hk.timers.seg
  timers_tail := by simpa [hk.timerList_eq] using hk.timers.tail
  timers_live f := by simpa [hk.timerList_eq] using hk.timers.live f
  timers_data f hf := by simpa [skeleton_flow] using hk.timers.data f (by simpa using hf)

/-- Every reachable state is well linked. -/
theorem linked_of_reachable {B : Build} {allowed : Op → Prop} {s : State}
    (hs : Reachable B allowed s) : Linked s :=
  (realizes_of_reachable hs).elim fun _ hk => hk.linked

/-- After two flows from `::1` and one from `::2`, both sources in the one bucket, every list is
well linked. -/
theorem linked_two_sources :
    ∃ s, Reachable lp64 Op.Allocates s ∧ (s.sources 1).isSome ∧ (s.sources 4).isSome ∧ (s.flows 3).isSome ∧ (s.flows 5).isSome ∧
      Linked s := by
  obtain ⟨s, -, hs, -, h⟩ := (Reachable.enable 1 : Reachable lp64 Op.Allocates _).of_run lp64
    (looseLimits ++ [.manage (frag 1 1 (List.replicate 8 7) 0 8 1 0) .ok,
      .manage (frag 1 2 (List.replicate 8 7) 0 8 1 0) .ok, .manage (frag 2 1 (List.replicate 8 7) 0 8 1 0) .ok])
    (fun s _ => (s.sources 1).isSome ∧ (s.sources 4).isSome ∧ (s.flows 3).isSome ∧ (s.flows 5).isSome) (by decide) (by decide)
  exact ⟨s, hs, h.1, h.2.1, h.2.2.1, h.2.2.2, linked_of_reachable hs⟩

end Ipv6Reassembly
