import Ipv6Reassembly.Engine

/-!
# What the engine keeps of its records

Most of the engine only relinks, charges and frees records. `State.flowView V` reads the flow at
every address through `V`, and `State.sourceView W` the source. When `V` reads no link of a flow
(`FlowBlind`), and `W` no link of a source (`SourceBlind`), each routine changes the view at one
address at most: `deleteFlow` frees its flow (`flowView_deleteFlow`), `createFlow` and
`createSource` add the record at `brk`, `removeSource` frees its source, `storeUnfragmentable` and
`insertIntoFlow` rewrite the flow they are given, and everything else keeps both views.
`FlowsKept s t` says that from `s` to `t` no flow appeared and every flow still live holds the
data (`FlowData`) it held; all routines keep flows but the ones that write flow data
(`flowsKept_evictSource`, `flowsKept_sweepTimers`, `flowsKept_buildCompleteDatagram`).
-/

namespace Ipv6Reassembly

/-- What `V` reads of the flow at each address, `none` where no flow lives. -/
def State.flowView {α : Type} (V : Flow → α) (s : State) (q : Ptr) : Option α := (s.flows q).map V

/-- What `W` reads of the source at each address, `none` where no source lives. -/
def State.sourceView {α : Type} (W : Source → α) (s : State) (p : Ptr) : Option α :=
  (s.sources p).map W

/-- `V` reads no link of a flow: neither its list links nor the links of its timer. -/
def FlowBlind {α : Type} (V : Flow → α) : Prop :=
  ∀ (r : Flow) (n p : Ptr) (t : Timer), t.expirationTime = r.timer.expirationTime →
    t.data = r.timer.data → V { r with next := n, prev := p, timer := t } = V r

/-- `W` reads no link of a source. -/
def SourceBlind {α : Type} (W : Source → α) : Prop :=
  ∀ (r : Source) (fl p n : Ptr), W { r with flows := fl, prev := p, next := n } = W r

/-- The data of a flow record: all but its links. -/
structure FlowData where
  unfragmentable : Option (List UInt8)
  len : UInt16
  id : UInt32
  dstaddr : In6Addr
  fragments : List Fragment
  expirationTime : UInt32

/-- The data of a flow record. -/
def Flow.data (r : Flow) : FlowData :=
  ⟨r.unfragmentable, r.len, r.id, r.dstaddr, r.fragments, r.timer.expirationTime⟩

theorem flowBlind_data : FlowBlind Flow.data := fun _ _ _ _ h _ => by simp only [Flow.data, h]

/-- Every live flow's data satisfies `P`. -/
def State.AllFlows (P : FlowData → Prop) (s : State) : Prop :=
  ∀ q d, s.flowView Flow.data q = some d → P d

/-- From `s` to `t` no flow appeared and every live flow kept its data. -/
def FlowsKept (s t : State) : Prop :=
  ∀ q, t.flowView Flow.data q = none ∨ t.flowView Flow.data q = s.flowView Flow.data q

section

variable {s t u : State} {p q : Ptr}

theorem FlowsKept.refl (s : State) : FlowsKept s s := fun _ => .inr rfl

theorem FlowsKept.trans (h₁ : FlowsKept s t) (h₂ : FlowsKept t u) : FlowsKept s u := by
  intro q
  rcases h₂ q with h | h
  · exact .inl h
  · rw [h]
    exact h₁ q

theorem FlowsKept.of_eq (h : t.flowView Flow.data = s.flowView Flow.data) : FlowsKept s t :=
  fun q => .inr (congrFun h q)

/-- A flow still live after a run of operations that keep flows was live before, with the data
it has now. -/
theorem FlowsKept.live (h : FlowsKept s t) {r : Flow} (hr : t.flows q = some r) :
    ∃ r₀, s.flows q = some r₀ ∧ r.data = r₀.data := by
  rcases h q with h | h <;> simp only [State.flowView, hr, Option.map_some'] at h
  · cases h
  · obtain ⟨r₀, h₀, he⟩ := Option.map_eq_some'.1 h.symm
    exact ⟨r₀, h₀, he.symm⟩

theorem FlowsKept.allFlows {P : FlowData → Prop} (h : FlowsKept s t) (hs : s.AllFlows P) :
    t.AllFlows P := by
  intro q d hq
  rcases h q with h | h <;> rw [h] at hq
  · cases hq
  · exact hs q d hq

/-- A state whose flows are those of `s`, but for the one at `p`, which is `v`. -/
theorem allFlows_update {P : FlowData → Prop} {v : Option FlowData}
    (ht : t.flowView Flow.data = Function.update (s.flowView Flow.data) p v) (hs : s.AllFlows P)
    (hv : ∀ d, v = some d → P d) : t.AllFlows P := by
  intro q d hq
  rw [ht] at hq
  by_cases hqp : q = p
  · subst hqp
    exact hv d (by simpa using hq)
  · exact hs q d (by simpa [hqp] using hq)

end

/-! ## Views through the primitive writes -/

section

variable {α : Type} {V : Flow → α} {W : Source → α} {s : State} {p : Ptr}

theorem FlowBlind.next (hV : FlowBlind V) (r : Flow) (n : Ptr) : V { r with next := n } = V r :=
  hV r n r.prev r.timer rfl rfl

theorem FlowBlind.prev (hV : FlowBlind V) (r : Flow) (n : Ptr) : V { r with prev := n } = V r :=
  hV r r.next n r.timer rfl rfl

@[simp] theorem flowView_charge (n : UInt32) : (s.charge p n).flowView V = s.flowView V := rfl

@[simp] theorem flowView_release (n : UInt32) : (s.release p n).flowView V = s.flowView V := rfl

@[simp] theorem flowView_modifySource (g : Source → Source) :
    (s.modifySource p g).flowView V = s.flowView V := rfl

@[simp] theorem flowView_setSource (r : Source) : (s.setSource p r).flowView V = s.flowView V := rfl

@[simp] theorem flowView_freeSource : (s.freeSource p).flowView V = s.flowView V := rfl

theorem flowView_modifyFlow' (g : Flow → Flow) :
    (s.modifyFlow p g).flowView V = Function.update (s.flowView V) p ((s.flows p).map (V ∘ g)) := by
  funext q
  by_cases hq : q = p
  · subst hq
    cases h : s.flows q <;> simp [State.flowView, h]
  · simp [State.flowView, hq]

theorem flowView_modifyFlow {g : Flow → Flow} (hg : ∀ r, V (g r) = V r) :
    (s.modifyFlow p g).flowView V = s.flowView V := by
  rw [flowView_modifyFlow']
  funext q
  by_cases hq : q = p
  · subst hq
    cases h : s.flows q <;> simp [State.flowView, h, hg]
  · simp [hq]

@[simp] theorem flowView_setFlow (r : Flow) :
    (s.setFlow p r).flowView V = Function.update (s.flowView V) p (some (V r)) := by
  funext q
  by_cases hq : q = p
  · subst hq
    simp [State.flowView]
  · simp [State.flowView, hq]

@[simp] theorem flowView_freeFlow :
    (s.freeFlow p).flowView V = Function.update (s.flowView V) p none := by
  funext q
  by_cases hq : q = p
  · subst hq
    simp [State.flowView]
  · simp [State.flowView, hq]

/-- Relinking a timer keeps what `V` reads. -/
theorem flowView_modifyTimer (hV : FlowBlind V) (tp tn : Timer → Ptr) :
    (s.modifyTimer p fun x => { x with prev := tp x, next := tn x }).flowView V = s.flowView V :=
  flowView_modifyFlow fun r => hV r r.next r.prev _ rfl rfl

theorem flowView_addTimer (hV : FlowBlind V) : (addTimer s p).flowView V = s.flowView V := by
  unfold addTimer
  split
  · show (s.modifyTimer p fun x => { x with prev := 0, next := 0 }).flowView V = _
    exact flowView_modifyTimer hV _ _
  · show ((s.modifyTimer s.timerTail fun x => { x with next := p }).modifyTimer p
      fun x => { x with prev := s.timerTail, next := 0 }).flowView V = _
    rw [flowView_modifyTimer hV, flowView_modifyTimer hV]

theorem flowView_deleteTimer (hV : FlowBlind V) : (deleteTimer s p).flowView V = s.flowView V := by
  have hprev : (if (s.flow p).timer.prev = 0 then { s with timerHead := (s.flow p).timer.next }
      else s.modifyTimer (s.flow p).timer.prev fun y => { y with next := (s.flow p).timer.next }).flowView V =
      s.flowView V := by
    split
    · rfl
    · exact flowView_modifyTimer hV _ _
  unfold deleteTimer
  dsimp only
  split
  · exact hprev
  · exact (flowView_modifyTimer hV _ _).trans hprev

@[simp] theorem sourceView_modifyFlow (g : Flow → Flow) :
    (s.modifyFlow p g).sourceView W = s.sourceView W := rfl

@[simp] theorem sourceView_setFlow (r : Flow) : (s.setFlow p r).sourceView W = s.sourceView W := rfl

@[simp] theorem sourceView_freeFlow : (s.freeFlow p).sourceView W = s.sourceView W := rfl

@[simp] theorem sourceView_modifyTimer (g : Timer → Timer) :
    (s.modifyTimer p g).sourceView W = s.sourceView W := rfl

@[simp] theorem sourceView_addTimer : (addTimer s p).sourceView W = s.sourceView W := by
  unfold addTimer
  split <;> rfl

@[simp] theorem sourceView_deleteTimer : (deleteTimer s p).sourceView W = s.sourceView W := by
  unfold deleteTimer
  dsimp only
  split <;> split <;> rfl

theorem sourceView_modifySource' (g : Source → Source) :
    (s.modifySource p g).sourceView W = Function.update (s.sourceView W) p ((s.sources p).map (W ∘ g)) := by
  funext q
  by_cases hq : q = p
  · subst hq
    cases h : s.sources q <;> simp [State.sourceView, h]
  · simp [State.sourceView, hq]

theorem sourceView_modifySource {g : Source → Source} (hg : ∀ r, W (g r) = W r) :
    (s.modifySource p g).sourceView W = s.sourceView W := by
  funext q
  by_cases hq : q = p
  · subst hq
    cases h : s.sources q <;> simp [State.sourceView, h, hg]
  · simp [State.sourceView, hq]

@[simp] theorem sourceView_setSource (r : Source) :
    (s.setSource p r).sourceView W = Function.update (s.sourceView W) p (some (W r)) := by
  funext q
  by_cases hq : q = p
  · subst hq
    simp [State.sourceView]
  · simp [State.sourceView, hq]

@[simp] theorem sourceView_freeSource :
    (s.freeSource p).sourceView W = Function.update (s.sourceView W) p none := by
  funext q
  by_cases hq : q = p
  · subst hq
    simp [State.sourceView]
  · simp [State.sourceView, hq]

@[simp] theorem sourceView_withTable (t : Nat → Ptr) :
    ({ s with table := t }).sourceView W = s.sourceView W := rfl

@[simp] theorem sourceView_withTotal (n : UInt32) :
    ({ s with totalUsedMem := n }).sourceView W = s.sourceView W := rfl

theorem sourceView_charge (hu : ∀ r u, W { r with sourceUsedMem := u } = W r) (n : UInt32) :
    (s.charge p n).sourceView W = s.sourceView W :=
  sourceView_modifySource fun r => hu r _

theorem sourceView_release (hu : ∀ r u, W { r with sourceUsedMem := u } = W r) (n : UInt32) :
    (s.release p n).sourceView W = s.sourceView W :=
  sourceView_modifySource fun r => hu r _

end

/-! ## Views through the routines -/

section

variable (B : Build) {α : Type} {V : Flow → α} {W : Source → α} {s : State} {f p : Ptr}

theorem flowView_foldl_release (src : Ptr) (n : Fragment → UInt32) (fs : List Fragment) (s : State) :
    (fs.foldl (fun s fr => s.release src (n fr)) s).flowView V = s.flowView V := by
  induction fs generalizing s with
  | nil => rfl
  | cons fr fs ih => exact ih _

theorem sourceView_foldl_release (hu : ∀ r u, W { r with sourceUsedMem := u } = W r) (src : Ptr)
    (n : Fragment → UInt32) (fs : List Fragment) (s : State) :
    (fs.foldl (fun s fr => s.release src (n fr)) s).sourceView W = s.sourceView W := by
  induction fs generalizing s with
  | nil => rfl
  | cons fr fs ih => exact (ih _).trans (sourceView_release hu _)

/-- Deleting a flow frees it and keeps what `V` reads of every other flow. -/
theorem flowView_deleteFlow (hV : FlowBlind V) :
    (deleteFlow B s f).flowView V = Function.update (s.flowView V) f none := by
  unfold deleteFlow
  dsimp only
  rw [flowView_freeFlow]
  simp only [apply_ite (fun t => Function.update (State.flowView V t) f none), flowView_modifyFlow (hV.next · _),
    flowView_modifyFlow (hV.prev · _), flowView_modifySource, ite_self]
  split <;> simp only [flowView_release, flowView_foldl_release, flowView_deleteTimer hV]

/-- Deleting a flow keeps what `W` reads of every source. -/
theorem sourceView_deleteFlow (hW : SourceBlind W) (hu : ∀ r u, W { r with sourceUsedMem := u } = W r) :
    (deleteFlow B s f).sourceView W = s.sourceView W := by
  unfold deleteFlow
  dsimp only
  rw [sourceView_freeFlow]
  simp only [apply_ite (State.sourceView W), sourceView_modifyFlow, sourceView_modifySource (hW · _ _ _), ite_self]
  split <;> simp only [sourceView_release hu, sourceView_foldl_release hu, sourceView_deleteTimer]

theorem flowsKept_deleteFlow : FlowsKept s (deleteFlow B s f) := by
  intro q
  rw [flowView_deleteFlow B flowBlind_data]
  rcases eq_or_ne q f with rfl | hq
  · simp
  · simp [hq]

theorem flowsKept_deleteFlowsFrom (n : Nat) (s : State) (f : Ptr) :
    FlowsKept s (deleteFlowsFrom B n s f) := by
  induction n generalizing s f with
  | zero => exact .refl s
  | succ n ih =>
    unfold deleteFlowsFrom
    split
    · exact .refl s
    · exact (flowsKept_deleteFlow B).trans (ih _ _)

theorem flowView_removeSource (row : UInt16) : (removeSource B s row p).flowView V = s.flowView V := by
  unfold removeSource
  dsimp only
  split_ifs <;> rfl

/-- Removing a source frees it and keeps what `W` reads of every other source. -/
theorem sourceView_removeSource (hW : SourceBlind W) (row : UInt16) :
    (removeSource B s row p).sourceView W = Function.update (s.sourceView W) p none := by
  unfold removeSource
  dsimp only
  split_ifs <;> simp only [sourceView_withTotal, sourceView_freeSource, sourceView_withTable,
    sourceView_modifySource (hW · _ _ _)]

theorem flowsKept_deleteSource : FlowsKept s (deleteSource B s p) := by
  unfold deleteSource
  exact (flowsKept_deleteFlowsFrom B s.brk s (s.source p).flows).trans
    (.of_eq (flowView_removeSource B _))

theorem flowsKept_evictSource (n : Nat) (s : State) (src : Ptr) :
    FlowsKept s (evictSource B n s src).state := by
  induction n generalizing s with
  | zero => exact .refl s
  | succ n ih =>
    unfold evictSource
    dsimp only
    split_ifs
    · exact (flowsKept_deleteFlow B).trans (flowsKept_deleteSource B)
    · exact (flowsKept_deleteFlow B).trans (ih _)
    · exact .refl s

theorem flowsKept_sweepTimers (n : Nat) (s : State) (src : Ptr) (now : UInt32) :
    FlowsKept s (sweepTimers B n s src now).state := by
  induction n generalizing s with
  | zero => exact .refl s
  | succ n ih =>
    unfold sweepTimers
    dsimp only
    split_ifs
    · exact (flowsKept_deleteFlow B).trans (flowsKept_deleteSource B)
    · exact (flowsKept_deleteFlow B).trans (ih _)
    · exact .refl s

theorem flowsKept_deleteFlowAndEmptySource : FlowsKept s (deleteFlowAndEmptySource B s f) := by
  unfold deleteFlowAndEmptySource
  dsimp only
  split
  · exact (flowsKept_deleteFlow B).trans (flowsKept_deleteSource B)
  · exact flowsKept_deleteFlow B

theorem flowsKept_buildCompleteDatagram (ok : Bool) : FlowsKept s (buildCompleteDatagram B s f ok).1 := by
  unfold buildCompleteDatagram
  dsimp only
  split_ifs
  · exact flowsKept_deleteFlowAndEmptySource B
  · exact flowsKept_deleteFlowAndEmptySource B
  · split
    · exact .refl s
    · exact flowsKept_deleteFlowAndEmptySource B

/-- `createFlow` adds the flow `brk`: its key, no unfragmentable part, no declared length, no
fragments, the old head of the source's list after it, and its timer set to expire `timeout`
seconds from now. -/
theorem flowView_createFlow (hV : FlowBlind V) (src : Ptr) (id : UInt32) (dst : In6Addr) (now : UInt32) :
    (createFlow B s src id dst now).flowView V = Function.update (s.flowView V) s.brk
      (some (V
        { unfragmentable := none, len := 0, id := id, dstaddr := dst, fragments := [],
          next := (s.source src).flows, prev := 0, source := src,
          timer := { expirationTime := now + s.timeout.toUInt32, data := s.brk, prev := 0, next := 0 } })) := by
  unfold createFlow
  dsimp only
  split
  · rw [flowView_addTimer hV, flowView_modifySource, flowView_setFlow]
    rfl
  · rw [flowView_addTimer hV, flowView_modifySource, flowView_modifyFlow (hV.prev · _), flowView_setFlow]
    rfl

theorem sourceView_createFlow (hW : SourceBlind W) (hu : ∀ r u, W { r with sourceUsedMem := u } = W r)
    (src : Ptr) (id : UInt32) (dst : In6Addr) (now : UInt32) :
    (createFlow B s src id dst now).sourceView W = s.sourceView W := by
  unfold createFlow
  dsimp only
  split <;> simp only [sourceView_addTimer, sourceView_modifySource (hW · _ _ _),
    sourceView_modifyFlow, sourceView_setFlow] <;> exact sourceView_charge hu _

theorem flowView_findOrCreateFlow (src : Ptr) (id : UInt32) (dst : In6Addr)
    (now : UInt32) (ok : Bool) :
    (findOrCreateFlow B s src id dst now ok).1.flowView V = s.flowView V ∨
      (findOrCreateFlow B s src id dst now ok).1 = createFlow B s src id dst now := by
  unfold findOrCreateFlow
  dsimp only
  split_ifs
  · exact .inl rfl
  · exact .inl rfl
  · exact .inr rfl

theorem flowView_createSource (addr : In6Addr) : (createSource B s addr).flowView V = s.flowView V := by
  unfold createSource
  dsimp only
  split <;> rfl

/-- `createSource` adds the source `brk` for `addr`, in the bucket of its hash, charged one
source record, with no flows and the old head of the bucket after it. -/
theorem sourceView_createSource (hW : SourceBlind W) (addr : In6Addr) :
    (createSource B s addr).sourceView W = Function.update (s.sourceView W) s.brk
      (some (W
        { flows := 0, sourceUsedMem := B.sizeofSource, ipv6Srcaddr := addr,
          row := (hashFunction s addr).toUInt16, prev := 0, next := s.table (hashFunction s addr) })) := by
  unfold createSource
  dsimp only
  split
  · exact sourceView_setSource _
  · exact (sourceView_modifySource (hW · _ _ _)).trans (sourceView_setSource _)

theorem flowView_findOrCreateSource (addr : In6Addr) (ok : Bool) :
    (findOrCreateSource B s addr ok).1.flowView V = s.flowView V := by
  unfold findOrCreateSource
  dsimp only
  split_ifs
  · rfl
  · rfl
  · exact flowView_createSource B addr

theorem sourceView_storeUnfragmentable (hu : ∀ r u, W { r with sourceUsedMem := u } = W r)
    (src : Ptr) (a : Packet) : (storeUnfragmentable s src f a).sourceView W = s.sourceView W :=
  sourceView_charge hu _

theorem sourceView_insertIntoFlow (hu : ∀ r u, W { r with sourceUsedMem := u } = W r)
    (src : Ptr) (a : Packet) : (insertIntoFlow s src f a).sourceView W = s.sourceView W := by
  unfold insertIntoFlow
  dsimp only
  rw [sourceView_release hu, sourceView_charge hu, sourceView_modifyFlow]
  split <;> rfl

theorem flowsKept_of_evictSource {n : Nat} {s₁ : State} {src : Ptr} {u : Stage}
    (he : evictSource B n s₁ src = u) : FlowsKept s₁ u.state :=
  he ▸ flowsKept_evictSource B n s₁ src

theorem flowsKept_of_sweepTimers {n : Nat} {s₂ : State} {src : Ptr} {now : UInt32} {u : Stage}
    (hw : sweepTimers B n s₂ src now = u) : FlowsKept s₂ u.state :=
  hw ▸ flowsKept_sweepTimers B n s₂ src now

/-- The stages of a call before `storeFragment` keep every property of flow data that a new flow
has. -/
theorem allFlows_before_store {P : FlowData → Prop} (hnew : ∀ id dst x, P ⟨none, 0, id, dst, [], x⟩)
    {s₁ s₂ s₃ s₄ : State} {addr dst : In6Addr} {ok ok' : Bool} {src f : Ptr} {id now now' : UInt32}
    (hs : s.AllFlows P) (h₁ : findOrCreateSource B s addr ok = (s₁, src))
    (he : evictSource B s₁.brk s₁ src = .cont s₂) (hw : sweepTimers B s₂.brk s₂ src now = .cont s₃)
    (h₄ : findOrCreateFlow B s₃ src id dst now' ok' = (s₄, f)) : s₄.AllFlows P := by
  have hs₁ : s₁.AllFlows P := by
    have := flowView_findOrCreateSource B (V := Flow.data) addr ok (s := s)
    rw [h₁] at this
    exact (FlowsKept.of_eq this).allFlows hs
  have hs₂ : s₂.AllFlows P := (flowsKept_of_evictSource B he).allFlows hs₁
  have hs₃ : s₃.AllFlows P := (flowsKept_of_sweepTimers B hw).allFlows hs₂
  rcases flowView_findOrCreateFlow B (V := Flow.data) (s := s₃) src id dst now' ok' with h | h <;>
    rw [h₄] at h
  · exact (FlowsKept.of_eq h).allFlows hs₃
  · subst h
    exact allFlows_update (flowView_createFlow B flowBlind_data src id dst now') hs₃
      fun d hd => by cases hd; exact hnew _ _ _

end

end Ipv6Reassembly
