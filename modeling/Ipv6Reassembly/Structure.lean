import Ipv6Reassembly.Shape

/-!
# Each link surgery keeps the structural invariant

Each link surgery keeps `Realizes`, with the lists of the shape changed the way the surgery
means (`Shape.addSource`, …): `pushSource` puts the new source at the head of its chain,
`pushFlow` puts the new flow at the head of its source's list and its timer after the tail,
`deleteFlow` erases the flow from its source's list and from the timer list, and `removeSource`
erases a source that owns no flow from its chain.

The proofs read records through a handful of lemmas per write (`source_setSource`,
`source_modifySource_of`, …); the lists are then re-established with `seg_push`, `seg_snoc`,
`seg_unlink` for the list that changes and `Seg.congr` for the others.
-/

namespace Ipv6Reassembly

namespace Skeleton

variable {k : Skeleton} {p q : Ptr}

/-! ### Reading a record after a write -/

theorem source_setSource {v : SourceLinks} :
    (k.setSource p v).source q = if q = p then v else k.source q := by
  by_cases hq : q = p <;> simp [source, setSource, write, hq]

theorem isSome_setSource {v : SourceLinks} :
    ((k.setSource p v).sources q).isSome ↔ q = p ∨ (k.sources q).isSome := by
  by_cases hq : q = p <;> simp [setSource, write, hq]

theorem source_freeSource_of_ne (hq : q ≠ p) : (k.freeSource p).source q = k.source q := by
  simp [source, freeSource, write, hq]

theorem isSome_freeSource : ((k.freeSource p).sources q).isSome ↔ q ≠ p ∧ (k.sources q).isSome := by
  by_cases hq : q = p <;> simp [freeSource, write, hq]

@[simp] theorem isSome_modifySource {h : SourceLinks → SourceLinks} :
    ((k.modifySource p h).sources q).isSome ↔ (k.sources q).isSome := by
  by_cases hq : q = p <;> simp [modifySource, write, hq]

theorem source_modifySource_of_ne {h : SourceLinks → SourceLinks} (hq : q ≠ p) :
    (k.modifySource p h).source q = k.source q := by
  simp [source, modifySource, write, hq]

theorem source_modifySource_self {h : SourceLinks → SourceLinks} (hp : (k.sources p).isSome) :
    (k.modifySource p h).source p = h (k.source p) := by
  unfold source modifySource write
  obtain ⟨r, hr⟩ := Option.isSome_iff_exists.1 hp
  simp [hr]

theorem source_modifySource {h : SourceLinks → SourceLinks} :
    (k.modifySource p h).source q = if q = p ∧ (k.sources q).isSome then h (k.source q) else k.source q := by
  by_cases hq : q = p
  · subst hq
    cases hr : k.sources q <;> simp [source, modifySource, write, hr]
  · simp [source_modifySource_of_ne hq, hq]

/-- A rewrite that keeps a field of every record keeps that field of every record. -/
theorem source_modifySource_of {α : Type} (F : SourceLinks → α) {h : SourceLinks → SourceLinks}
    (hF : ∀ r, F (h r) = F r) (q : Ptr) : F ((k.modifySource p h).source q) = F (k.source q) := by
  by_cases hq : q = p
  · subst hq
    cases hr : k.sources q
    · simp [source, modifySource, write, hr]
    · rw [source_modifySource_self (by simp [hr]), hF]
  · rw [source_modifySource_of_ne hq]

theorem flow_setFlow {v : FlowLinks} : (k.setFlow p v).flow q = if q = p then v else k.flow q := by
  by_cases hq : q = p <;> simp [flow, setFlow, write, hq]

theorem isSome_setFlow {v : FlowLinks} :
    ((k.setFlow p v).flows q).isSome ↔ q = p ∨ (k.flows q).isSome := by
  by_cases hq : q = p <;> simp [setFlow, write, hq]

theorem flow_freeFlow_of_ne (hq : q ≠ p) : (k.freeFlow p).flow q = k.flow q := by
  simp [flow, freeFlow, write, hq]

theorem isSome_freeFlow : ((k.freeFlow p).flows q).isSome ↔ q ≠ p ∧ (k.flows q).isSome := by
  by_cases hq : q = p <;> simp [freeFlow, write, hq]

@[simp] theorem isSome_modifyFlow {h : FlowLinks → FlowLinks} :
    ((k.modifyFlow p h).flows q).isSome ↔ (k.flows q).isSome := by
  by_cases hq : q = p <;> simp [modifyFlow, write, hq]

theorem flow_modifyFlow_of_ne {h : FlowLinks → FlowLinks} (hq : q ≠ p) :
    (k.modifyFlow p h).flow q = k.flow q := by
  simp [flow, modifyFlow, write, hq]

theorem flow_modifyFlow_self {h : FlowLinks → FlowLinks} (hp : (k.flows p).isSome) :
    (k.modifyFlow p h).flow p = h (k.flow p) := by
  unfold flow modifyFlow write
  obtain ⟨r, hr⟩ := Option.isSome_iff_exists.1 hp
  simp [hr]

theorem flow_modifyFlow {h : FlowLinks → FlowLinks} :
    (k.modifyFlow p h).flow q = if q = p ∧ (k.flows q).isSome then h (k.flow q) else k.flow q := by
  by_cases hq : q = p
  · subst hq
    cases hr : k.flows q <;> simp [flow, modifyFlow, write, hr]
  · simp [flow_modifyFlow_of_ne hq, hq]

/-- A rewrite that keeps a field of every record keeps that field of every record. -/
theorem flow_modifyFlow_of {α : Type} (F : FlowLinks → α) {h : FlowLinks → FlowLinks}
    (hF : ∀ r, F (h r) = F r) (q : Ptr) : F ((k.modifyFlow p h).flow q) = F (k.flow q) := by
  by_cases hq : q = p
  · subst hq
    cases hr : k.flows q
    · simp [flow, modifyFlow, write, hr]
    · rw [flow_modifyFlow_self (by simp [hr]), hF]
  · rw [flow_modifyFlow_of_ne hq]

theorem table_setTable {i j : Nat} : (k.setTable i p).table j = if j = i then p else k.table j := rfl

@[simp] theorem source_setFlow {v : FlowLinks} : (k.setFlow p v).source q = k.source q := rfl

@[simp] theorem source_freeFlow : (k.freeFlow p).source q = k.source q := rfl

@[simp] theorem source_modifyFlow {h : FlowLinks → FlowLinks} : (k.modifyFlow p h).source q = k.source q := rfl

@[simp] theorem flow_setSource {v : SourceLinks} : (k.setSource p v).flow q = k.flow q := rfl

@[simp] theorem flow_freeSource : (k.freeSource p).flow q = k.flow q := rfl

@[simp] theorem flow_modifySource {h : SourceLinks → SourceLinks} : (k.modifySource p h).flow q = k.flow q := rfl

@[simp] theorem flow_withBrk {n : Nat} : ({ k with brk := n } : Skeleton).flow q = k.flow q := rfl

@[simp] theorem source_withBrk {n : Nat} : ({ k with brk := n } : Skeleton).source q = k.source q := rfl

@[simp] theorem source_setTable {i : Nat} : (k.setTable i p).source q = k.source q := rfl

@[simp] theorem flow_setTable {i : Nat} : (k.setTable i p).flow q = k.flow q := rfl

@[simp] theorem flow_setTimerHead : (k.setTimerHead p).flow q = k.flow q := rfl

@[simp] theorem flow_setTimerTail : (k.setTimerTail p).flow q = k.flow q := rfl

@[simp] theorem source_setTimerHead : (k.setTimerHead p).source q = k.source q := rfl

@[simp] theorem source_setTimerTail : (k.setTimerTail p).source q = k.source q := rfl

/-! ### `pushSource` -/

section PushSource

variable {i : Nat}

@[simp] theorem pushSource_tableSize : (k.pushSource i).tableSize = k.tableSize := by
  unfold pushSource; dsimp only; split <;> rfl

@[simp] theorem pushSource_flows : (k.pushSource i).flows q = k.flows q := by
  unfold pushSource; dsimp only; split <;> rfl

@[simp] theorem pushSource_timerHead : (k.pushSource i).timerHead = k.timerHead := by
  unfold pushSource; dsimp only; split <;> rfl

@[simp] theorem pushSource_timerTail : (k.pushSource i).timerTail = k.timerTail := by
  unfold pushSource; dsimp only; split <;> rfl

@[simp] theorem pushSource_brk : (k.pushSource i).brk = k.brk + 1 := by
  unfold pushSource; dsimp only; split <;> rfl

theorem pushSource_table (j : Nat) : (k.pushSource i).table j = if j = i then k.brk else k.table j := by
  unfold pushSource; dsimp only; split <;> rfl

theorem isSome_pushSource : ((k.pushSource i).sources q).isSome ↔ q = k.brk ∨ (k.sources q).isSome := by
  unfold pushSource
  dsimp only
  split <;> simp only [setTable_sources, isSome_modifySource, isSome_setSource]

/-- The fields of a source that `pushSource` only writes into the new record. -/
theorem pushSource_source_of {α : Type} (F : SourceLinks → α) (hF : ∀ r, F { r with prev := k.brk } = F r)
    (q : Ptr) : F ((k.pushSource i).source q) =
      if q = k.brk then F ⟨0, i, 0, k.table i⟩ else F (k.source q) := by
  unfold pushSource
  dsimp only
  split <;> simp only [source_setTable, source_modifySource_of F hF, source_setSource, apply_ite F] <;> rfl

theorem pushSource_prev_of_ne (hq : q ≠ k.table i) :
    ((k.pushSource i).source q).prev = if q = k.brk then 0 else (k.source q).prev := by
  unfold pushSource
  dsimp only
  split
  · simp only [source_setTable, source_setSource, apply_ite SourceLinks.prev]; rfl
  · simp only [source_setTable, source_modifySource_of_ne hq, source_setSource, apply_ite SourceLinks.prev]; rfl

theorem pushSource_prev_head (h0 : k.table i ≠ 0) (hh : (k.sources (k.table i)).isSome) :
    ((k.pushSource i).source (k.table i)).prev = k.brk := by
  unfold pushSource
  dsimp only
  rw [if_neg h0, source_setTable, source_modifySource_self (by rw [isSome_setSource]; exact .inr hh)]

end PushSource

/-! ### The timer list -/

section Timer

variable {t : Ptr}

@[simp] theorem addTimer_sources : (k.addTimer t).sources q = k.sources q := by
  unfold addTimer; split <;> rfl

@[simp] theorem addTimer_table {i : Nat} : (k.addTimer t).table i = k.table i := by
  unfold addTimer; split <;> rfl

@[simp] theorem addTimer_tableSize : (k.addTimer t).tableSize = k.tableSize := by
  unfold addTimer; split <;> rfl

@[simp] theorem addTimer_brk : (k.addTimer t).brk = k.brk := by
  unfold addTimer; split <;> rfl

@[simp] theorem addTimer_timerTail : (k.addTimer t).timerTail = t := by
  unfold addTimer; split <;> rfl

theorem addTimer_timerHead : (k.addTimer t).timerHead = if k.timerTail = 0 then t else k.timerHead := by
  unfold addTimer; split <;> rfl

theorem isSome_addTimer : ((k.addTimer t).flows q).isSome ↔ (k.flows q).isSome := by
  unfold addTimer; split <;> simp only [setTimerTail_flows, setTimerHead_flows, isSome_modifyFlow]

/-- The fields of a flow that `addTimer` does not write. -/
theorem addTimer_flow_of {α : Type} (F : FlowLinks → α)
    (hF : ∀ r a b, F { r with timerPrev := a, timerNext := b } = F r) (q : Ptr) :
    F ((k.addTimer t).flow q) = F (k.flow q) := by
  unfold addTimer
  split
  · exact flow_modifyFlow_of (k := k) F (fun r => hF r _ _) q
  · exact (flow_modifyFlow_of F (fun r => hF r _ _) q).trans (flow_modifyFlow_of F (fun r => hF r _ _) q)

/-- `dpi_reassembly_add_timer` appends the timer of `t` to the timer list. -/
theorem seg_addTimer {ts : List Ptr} (hs : Seg k.timerNext k.timerPrev 0 k.timerHead ts 0)
    (htail : k.timerTail = ts.getLastD 0) (hlive : ∀ x ∈ ts, (k.flows x).isSome)
    (ht : (k.flows t).isSome) (h0 : t ≠ 0) (hn : t ∉ ts) :
    Seg (k.addTimer t).timerNext (k.addTimer t).timerPrev 0 (k.addTimer t).timerHead (ts ++ [t]) 0 := by
  have hne : ∀ x ∈ ts, x ≠ t := fun x hx e => hn (e ▸ hx)
  have htl : k.timerTail ≠ 0 → k.timerTail ∈ ts := fun h => by
    rw [htail] at h ⊢
    cases ts using List.reverseRecOn with
    | nil => exact absurd rfl h
    | append_singleton l x _ => simp [getLastD_snoc]
  rw [addTimer_timerHead, htail]
  rw [htail] at htl
  refine seg_snoc hs hn h0 (fun x hx hxl => ?_) (fun x hx => ?_) (fun hl => ?_) ?_ ?_
  · unfold timerNext addTimer
    split
    · rw [flow_setTimerTail, flow_setTimerHead, flow_modifyFlow_of_ne (hne x hx)]
    · rw [flow_setTimerTail, flow_modifyFlow_of_ne (hne x hx), flow_modifyFlow_of_ne (htail ▸ hxl)]
  · unfold timerPrev addTimer
    split
    · rw [flow_setTimerTail, flow_setTimerHead, flow_modifyFlow_of_ne (hne x hx)]
    · rw [flow_setTimerTail, flow_modifyFlow_of_ne (hne x hx)]
      exact flow_modifyFlow_of (h := fun x => { x with timerNext := t }) FlowLinks.timerPrev (fun _ => rfl) x
  · have hm := htl hl
    unfold timerNext addTimer
    rw [if_neg (htail ▸ hl), htail, flow_setTimerTail, flow_modifyFlow_of_ne (hne _ hm),
      flow_modifyFlow_self (hlive _ hm)]
  · unfold timerNext addTimer
    split
    · rw [flow_setTimerTail, flow_setTimerHead, flow_modifyFlow_self ht]
    · rw [flow_setTimerTail, flow_modifyFlow_self (isSome_modifyFlow.2 ht)]
  · unfold timerPrev addTimer
    split
    · rw [flow_setTimerTail, flow_setTimerHead, flow_modifyFlow_self ht, ← htail, ‹k.timerTail = 0›]
    · rw [flow_setTimerTail, flow_modifyFlow_self (isSome_modifyFlow.2 ht), htail]

end Timer

section DeleteTimer

variable {t : Ptr}

@[simp] theorem deleteTimer_sources : (k.deleteTimer t).sources q = k.sources q := by
  unfold deleteTimer; dsimp only; split <;> split <;> rfl

@[simp] theorem deleteTimer_table {i : Nat} : (k.deleteTimer t).table i = k.table i := by
  unfold deleteTimer; dsimp only; split <;> split <;> rfl

@[simp] theorem deleteTimer_tableSize : (k.deleteTimer t).tableSize = k.tableSize := by
  unfold deleteTimer; dsimp only; split <;> split <;> rfl

@[simp] theorem deleteTimer_brk : (k.deleteTimer t).brk = k.brk := by
  unfold deleteTimer; dsimp only; split <;> split <;> rfl

@[simp] theorem source_deleteTimer : (k.deleteTimer t).source q = k.source q := by
  simp only [source, deleteTimer_sources]

theorem deleteTimer_timerHead :
    (k.deleteTimer t).timerHead = if (k.flow t).timerPrev = 0 then (k.flow t).timerNext else k.timerHead := by
  unfold deleteTimer; dsimp only; split <;> split <;> rfl

theorem deleteTimer_timerTail :
    (k.deleteTimer t).timerTail = if (k.flow t).timerNext = 0 then (k.flow t).timerPrev else k.timerTail := by
  unfold deleteTimer; dsimp only; split <;> split <;> rfl

theorem isSome_deleteTimer : ((k.deleteTimer t).flows q).isSome ↔ (k.flows q).isSome := by
  unfold deleteTimer; dsimp only; split <;> split <;>
    simp only [setTimerTail_flows, setTimerHead_flows, isSome_modifyFlow]

theorem deleteTimer_flow :
    (k.deleteTimer t).flow q =
      let x := k.flow t
      let r := if q = x.timerPrev ∧ x.timerPrev ≠ 0 ∧ (k.flows q).isSome then
        { k.flow q with timerNext := x.timerNext } else k.flow q
      if q = x.timerNext ∧ x.timerNext ≠ 0 ∧ (k.flows q).isSome then { r with timerPrev := x.timerPrev } else r := by
  unfold deleteTimer
  dsimp only
  split <;> split <;> simp [flow_modifyFlow, *]

/-- The fields of a flow that `deleteTimer` does not write. -/
theorem deleteTimer_flow_of {α : Type} (F : FlowLinks → α)
    (hF : ∀ r a b, F { r with timerNext := a, timerPrev := b } = F r) (q : Ptr) :
    F ((k.deleteTimer t).flow q) = F (k.flow q) := by
  rw [deleteTimer_flow]
  dsimp only
  split_ifs <;> simp only [hF]

/-- `dpi_reassembly_delete_timer` unlinks the timer of `t` from the timer list. -/
theorem seg_deleteTimer {ts : List Ptr} (hs : Seg k.timerNext k.timerPrev 0 k.timerHead ts 0)
    (htail : k.timerTail = ts.getLastD 0) (hlive : ∀ x ∈ ts, (k.flows x).isSome) (ht : t ∈ ts) :
    Seg (k.deleteTimer t).timerNext (k.deleteTimer t).timerPrev 0 (k.deleteTimer t).timerHead (ts.erase t) 0 ∧
      (k.deleteTimer t).timerTail = (ts.erase t).getLastD 0 := by
  have hprev : (k.flow t).timerPrev ≠ 0 → (k.flows (k.flow t).timerPrev).isSome := fun h =>
    hlive _ ((hs.prev_mem ht).resolve_left h)
  have hnext : (k.flow t).timerNext ≠ 0 → (k.flows (k.flow t).timerNext).isSome := fun h =>
    hlive _ ((hs.next_mem ht).resolve_left h)
  refine ⟨?_, ?_⟩
  · rw [deleteTimer_timerHead]
    refine seg_unlink hs hs.ne_zero ht (fun y _ _ hy => ?_) (fun y _ _ hy => ?_) (fun h => ?_) (fun h => ?_)
    · simp only [timerNext, timerPrev, deleteTimer_flow] at hy ⊢
      split_ifs <;> first | rfl | exact absurd ‹y = (k.flow t).timerPrev ∧ _›.1 hy
    · simp only [timerNext, timerPrev, deleteTimer_flow] at hy ⊢
      split_ifs <;> first | rfl | exact absurd ‹y = (k.flow t).timerNext ∧ _›.1 hy
    · have h : (k.flow t).timerPrev ≠ 0 := h
      simp only [timerNext, timerPrev, deleteTimer_flow, true_and, if_pos (And.intro h (hprev h))]
      split_ifs <;> rfl
    · have h : (k.flow t).timerNext ≠ 0 := h
      simp only [timerNext, timerPrev, deleteTimer_flow, true_and, if_pos (And.intro h (hnext h))]
  · rw [deleteTimer_timerTail, Seg.getLastD_erase hs ht, htail]
    rfl

end DeleteTimer

@[simp] theorem source_addTimer {t : Ptr} : (k.addTimer t).source q = k.source q := by
  simp only [source, addTimer_sources]

/-! ### `pushFlow` -/

section PushFlow

@[simp] theorem linkFlow_table {i : Nat} : (k.linkFlow p).table i = k.table i := by
  unfold linkFlow; dsimp only; split <;> rfl

@[simp] theorem linkFlow_tableSize : (k.linkFlow p).tableSize = k.tableSize := by
  unfold linkFlow; dsimp only; split <;> rfl

@[simp] theorem linkFlow_timerHead : (k.linkFlow p).timerHead = k.timerHead := by
  unfold linkFlow; dsimp only; split <;> rfl

@[simp] theorem linkFlow_timerTail : (k.linkFlow p).timerTail = k.timerTail := by
  unfold linkFlow; dsimp only; split <;> rfl

@[simp] theorem linkFlow_brk : (k.linkFlow p).brk = k.brk + 1 := by
  unfold linkFlow; dsimp only; split <;> rfl

@[simp] theorem isSome_linkFlow_sources : ((k.linkFlow p).sources q).isSome ↔ (k.sources q).isSome := by
  unfold linkFlow; dsimp only; split <;> simp

theorem linkFlow_source :
    (k.linkFlow p).source q =
      if q = p ∧ (k.sources q).isSome then { k.source q with flows := k.brk } else k.source q := by
  unfold linkFlow; dsimp only; split <;> simp [source_modifySource, flow_setFlow]

theorem isSome_linkFlow : ((k.linkFlow p).flows q).isSome ↔ q = k.brk ∨ (k.flows q).isSome := by
  unfold linkFlow; dsimp only; split <;> simp [isSome_setFlow]

theorem linkFlow_flow (hh : (k.source p).flows ≠ k.brk) :
    (k.linkFlow p).flow q =
      if q = k.brk then ⟨(k.source p).flows, 0, p, 0, 0, k.brk⟩
      else if q = (k.source p).flows ∧ (k.source p).flows ≠ 0 ∧ (k.flows q).isSome then
        { k.flow q with prev := k.brk }
      else k.flow q := by
  unfold linkFlow
  dsimp only
  by_cases hq : q = k.brk
  · subst hq
    split <;> simp [flow_modifyFlow, flow_setFlow, Ne.symm hh]
  · split <;> simp [flow_modifyFlow, flow_setFlow, isSome_setFlow, hq, *]

end PushFlow

/-! ### `deleteFlow` -/

section UnlinkFlow

variable {x : FlowLinks}

@[simp] theorem unlinkFlow_table {i : Nat} : (k.unlinkFlow x).table i = k.table i := by
  unfold unlinkFlow; dsimp only; split_ifs <;> rfl

@[simp] theorem unlinkFlow_tableSize : (k.unlinkFlow x).tableSize = k.tableSize := by
  unfold unlinkFlow; dsimp only; split_ifs <;> rfl

@[simp] theorem unlinkFlow_timerHead : (k.unlinkFlow x).timerHead = k.timerHead := by
  unfold unlinkFlow; dsimp only; split_ifs <;> rfl

@[simp] theorem unlinkFlow_timerTail : (k.unlinkFlow x).timerTail = k.timerTail := by
  unfold unlinkFlow; dsimp only; split_ifs <;> rfl

@[simp] theorem unlinkFlow_brk : (k.unlinkFlow x).brk = k.brk := by
  unfold unlinkFlow; dsimp only; split_ifs <;> rfl

@[simp] theorem isSome_unlinkFlow_sources : ((k.unlinkFlow x).sources q).isSome ↔ (k.sources q).isSome := by
  unfold unlinkFlow; dsimp only; split_ifs <;> simp

@[simp] theorem isSome_unlinkFlow : ((k.unlinkFlow x).flows q).isSome ↔ (k.flows q).isSome := by
  unfold unlinkFlow; dsimp only; split_ifs <;> simp

theorem unlinkFlow_source :
    (k.unlinkFlow x).source q =
      if q = x.source ∧ x.prev = 0 ∧ (k.sources q).isSome then { k.source q with flows := x.next }
      else k.source q := by
  by_cases h1 : x.prev = 0 <;> by_cases h2 : x.next = 0 <;> simp [unlinkFlow, source_modifySource, h1, h2]

theorem unlinkFlow_flow :
    (k.unlinkFlow x).flow q =
      let r := if q = x.prev ∧ x.prev ≠ 0 ∧ (k.flows q).isSome then { k.flow q with next := x.next }
        else k.flow q
      if q = x.next ∧ x.next ≠ 0 ∧ (k.flows q).isSome then { r with prev := x.prev } else r := by
  by_cases h1 : x.prev = 0 <;> by_cases h2 : x.next = 0 <;> simp [unlinkFlow, flow_modifyFlow, h1, h2]

/-- The fields of a flow that `unlinkFlow` does not write. -/
theorem unlinkFlow_flow_of {α : Type} (F : FlowLinks → α)
    (hF : ∀ r a b, F { r with next := a, prev := b } = F r) (q : Ptr) :
    F ((k.unlinkFlow x).flow q) = F (k.flow q) := by
  rw [unlinkFlow_flow]
  dsimp only
  split_ifs <;> simp only [hF]

end UnlinkFlow

section DeleteFlow

variable {f : Ptr}

@[simp] theorem deleteFlow_table {i : Nat} : (k.deleteFlow f).table i = k.table i := by simp [deleteFlow]

@[simp] theorem deleteFlow_tableSize : (k.deleteFlow f).tableSize = k.tableSize := by simp [deleteFlow]

@[simp] theorem deleteFlow_brk : (k.deleteFlow f).brk = k.brk := by simp [deleteFlow]

theorem deleteFlow_timerHead : (k.deleteFlow f).timerHead = (k.deleteTimer f).timerHead := by
  simp [deleteFlow]

theorem deleteFlow_timerTail : (k.deleteFlow f).timerTail = (k.deleteTimer f).timerTail := by
  simp [deleteFlow]

@[simp] theorem isSome_deleteFlow_sources : ((k.deleteFlow f).sources q).isSome ↔ (k.sources q).isSome := by
  simp [deleteFlow]

@[simp] theorem isSome_deleteFlow : ((k.deleteFlow f).flows q).isSome ↔ q ≠ f ∧ (k.flows q).isSome := by
  simp [deleteFlow, isSome_freeFlow, isSome_deleteTimer]

theorem deleteFlow_source :
    (k.deleteFlow f).source q =
      if q = (k.flow f).source ∧ (k.flow f).prev = 0 ∧ (k.sources q).isSome then
        { k.source q with flows := (k.flow f).next }
      else k.source q := by
  simp [deleteFlow, unlinkFlow_source]

theorem deleteFlow_flow (hq : q ≠ f) :
    (k.deleteFlow f).flow q = ((k.deleteTimer f).unlinkFlow (k.flow f)).flow q :=
  flow_freeFlow_of_ne hq

theorem deleteFlow_next (hq : q ≠ f) :
    ((k.deleteFlow f).flow q).next =
      if q = (k.flow f).prev ∧ (k.flow f).prev ≠ 0 ∧ (k.flows q).isSome then (k.flow f).next
      else (k.flow q).next := by
  rw [deleteFlow_flow hq, unlinkFlow_flow]
  dsimp only
  simp only [isSome_deleteTimer]
  split_ifs <;> first | rfl | exact deleteTimer_flow_of FlowLinks.next (fun _ _ _ => rfl) q

theorem deleteFlow_prev (hq : q ≠ f) :
    ((k.deleteFlow f).flow q).prev =
      if q = (k.flow f).next ∧ (k.flow f).next ≠ 0 ∧ (k.flows q).isSome then (k.flow f).prev
      else (k.flow q).prev := by
  rw [deleteFlow_flow hq, unlinkFlow_flow]
  dsimp only
  simp only [isSome_deleteTimer]
  split_ifs <;> first | rfl | exact deleteTimer_flow_of FlowLinks.prev (fun _ _ _ => rfl) q

/-- The timer links of the other flows are those `deleteTimer` leaves. -/
theorem deleteFlow_timer_of {α : Type} (F : FlowLinks → α)
    (hF : ∀ r a b, F { r with next := a, prev := b } = F r) (hq : q ≠ f) :
    F ((k.deleteFlow f).flow q) = F ((k.deleteTimer f).flow q) := by
  rw [deleteFlow_flow hq, unlinkFlow_flow_of F hF]

theorem deleteFlow_flow_of {α : Type} (F : FlowLinks → α)
    (hF : ∀ r a b c d, F { r with next := a, prev := b, timerNext := c, timerPrev := d } = F r)
    (hq : q ≠ f) : F ((k.deleteFlow f).flow q) = F (k.flow q) := by
  rw [deleteFlow_timer_of F (fun r a b => hF r a b _ _) hq, deleteTimer_flow_of F (fun r c d => hF r _ _ c d)]

end DeleteFlow

/-! ### `deleteSource` -/

section UnlinkSource

variable {row : Nat} {r : SourceLinks}

@[simp] theorem unlinkSource_flows : (k.unlinkSource row r).flows q = k.flows q := by
  unfold unlinkSource; dsimp only; split_ifs <;> rfl

@[simp] theorem unlinkSource_tableSize : (k.unlinkSource row r).tableSize = k.tableSize := by
  unfold unlinkSource; dsimp only; split_ifs <;> rfl

@[simp] theorem unlinkSource_timerHead : (k.unlinkSource row r).timerHead = k.timerHead := by
  unfold unlinkSource; dsimp only; split_ifs <;> rfl

@[simp] theorem unlinkSource_timerTail : (k.unlinkSource row r).timerTail = k.timerTail := by
  unfold unlinkSource; dsimp only; split_ifs <;> rfl

@[simp] theorem unlinkSource_brk : (k.unlinkSource row r).brk = k.brk := by
  unfold unlinkSource; dsimp only; split_ifs <;> rfl

@[simp] theorem flow_unlinkSource : (k.unlinkSource row r).flow q = k.flow q := by
  simp only [flow, unlinkSource_flows]

theorem unlinkSource_table {j : Nat} :
    (k.unlinkSource row r).table j = if j = row ∧ r.prev = 0 then r.next else k.table j := by
  unfold unlinkSource; dsimp only
  by_cases h1 : r.prev = 0 <;> by_cases h2 : r.next = 0 <;> simp [h1, h2, table_setTable]

@[simp] theorem isSome_unlinkSource : ((k.unlinkSource row r).sources q).isSome ↔ (k.sources q).isSome := by
  unfold unlinkSource; dsimp only; split_ifs <;> simp

theorem unlinkSource_source :
    (k.unlinkSource row r).source q =
      let s := if q = r.prev ∧ r.prev ≠ 0 ∧ (k.sources q).isSome then { k.source q with next := r.next }
        else k.source q
      if q = r.next ∧ r.next ≠ 0 ∧ (k.sources q).isSome then { s with prev := r.prev } else s := by
  unfold unlinkSource
  by_cases h1 : r.prev = 0 <;> by_cases h2 : r.next = 0 <;> simp [source_modifySource, h1, h2]

/-- The fields of a source that `unlinkSource` does not write. -/
theorem unlinkSource_source_of {α : Type} (F : SourceLinks → α)
    (hF : ∀ s a b, F { s with next := a, prev := b } = F s) (q : Ptr) :
    F ((k.unlinkSource row r).source q) = F (k.source q) := by
  rw [unlinkSource_source]
  dsimp only
  split_ifs <;> simp only [hF]

end UnlinkSource

end Skeleton

/-! ### The parts of the invariant a surgery leaves alone -/

section Congr

variable {k k' : Skeleton}

theorem Timers.congr {ts : List Ptr} (hf : ∀ q, k'.flows q = k.flows q) (hh : k'.timerHead = k.timerHead)
    (ht : k'.timerTail = k.timerTail) (h : Timers k ts) : Timers k' ts := by
  have hflow : k'.flow = k.flow := funext fun f => by simp only [Skeleton.flow, hf]
  have hn : k'.timerNext = k.timerNext := funext fun f => by simp only [Skeleton.timerNext, hflow]
  have hp : k'.timerPrev = k.timerPrev := funext fun f => by simp only [Skeleton.timerPrev, hflow]
  refine ⟨?_, ?_, ?_, ?_⟩
  · rw [hn, hp, hh]; exact h.seg
  · rw [ht]; exact h.tail
  · simpa only [hf] using h.live
  · simpa only [hflow, hf] using h.data

theorem Chains.congr {chain : Nat → List Ptr} (ht : ∀ i, k'.table i = k.table i) (hts : k'.tableSize = k.tableSize)
    (hs : ∀ q, (k'.sources q).isSome ↔ (k.sources q).isSome)
    (hn : ∀ q, (k'.source q).next = (k.source q).next) (hp : ∀ q, (k'.source q).prev = (k.source q).prev)
    (hr : ∀ q, (k'.source q).row = (k.source q).row) (h : Chains k chain) : Chains k' chain := by
  have hn' : k'.sourceNext = k.sourceNext := funext hn
  have hp' : k'.sourcePrev = k.sourcePrev := funext hp
  refine ⟨fun i hi => ?_, fun i hi q hq => ?_, fun q => ?_⟩
  · rw [hn', hp', ht]; exact h.seg i (hts ▸ hi)
  · rw [hr]; exact h.row i (hts ▸ hi) q hq
  · rw [hs, hts]; exact h.live q

end Congr

namespace Realizes

variable {k : Skeleton} {g : Shape} {i j : Nat} {p q f : Ptr}

theorem chain_live (hk : Realizes k g) (hi : i < k.tableSize) (hp : p ∈ g.chain i) :
    (k.sources p).isSome :=
  (hk.chains.live p).2 ⟨i, hi, hp⟩

/-- The chains are disjoint: a source sits in the bucket its `row` names. -/
theorem chain_unique (hk : Realizes k g) (hi : i < k.tableSize) (hj : j < k.tableSize)
    (hp : p ∈ g.chain i) (hq : p ∈ g.chain j) : i = j :=
  (hk.chains.row i hi p hp).symm.trans (hk.chains.row j hj p hq)

theorem source_ne_brk (hk : Realizes k g) (hp : (k.sources p).isSome) : p ≠ k.brk :=
  (hk.source_lt p hp).ne

theorem flow_ne_brk (hk : Realizes k g) (hf : (k.flows f).isSome) : f ≠ k.brk :=
  (hk.flow_lt f hf).ne

theorem brk_ne_zero (hk : Realizes k g) : k.brk ≠ 0 := hk.brk_pos.ne'

theorem table_mem (hk : Realizes k g) (hi : i < k.tableSize) (h0 : k.table i ≠ 0) :
    k.table i ∈ g.chain i :=
  (hk.chains.seg i hi).mem_of_ne_zero h0

theorem table_ne_brk (hk : Realizes k g) (hi : i < k.tableSize) : k.table i ≠ k.brk := by
  by_cases h0 : k.table i = 0
  · rw [h0]; exact hk.brk_ne_zero.symm
  · exact hk.source_ne_brk (hk.chain_live hi (hk.table_mem hi h0))

end Realizes

/-! ### Creating a source -/

/-- `pushSource` keeps the invariant, with the new source at the head of chain `i`, owning no
flow. -/
theorem Realizes.pushSource {k : Skeleton} {g : Shape} {i : Nat} (hk : Realizes k g)
    (hi : i < k.tableSize) :
    Realizes (k.pushSource i) (g.addSource i k.brk) := by
  unfold Shape.addSource
  have hnext : ∀ q, ((k.pushSource i).source q).next = if q = k.brk then k.table i else (k.source q).next :=
    Skeleton.pushSource_source_of SourceLinks.next fun _ => rfl
  have hrow : ∀ q, ((k.pushSource i).source q).row = if q = k.brk then i else (k.source q).row :=
    Skeleton.pushSource_source_of SourceLinks.row fun _ => rfl
  have hflows : ∀ q, ((k.pushSource i).source q).flows = if q = k.brk then 0 else (k.source q).flows :=
    Skeleton.pushSource_source_of SourceLinks.flows fun _ => rfl
  have hprev : ∀ j < k.tableSize, ∀ x ∈ g.chain j, x ≠ k.table i →
      (k.pushSource i).sourcePrev x = k.sourcePrev x := fun j hj x hx hxh => by
    simp only [Skeleton.sourcePrev, Skeleton.pushSource_prev_of_ne hxh,
      if_neg (hk.source_ne_brk (hk.chain_live hj hx))]
  refine ⟨by simp, fun q hq => ?_, fun f hf => ?_, ⟨fun j hj => ?_, fun j hj q hq => ?_, fun q => ?_⟩,
    ⟨fun q hq => ?_, fun q hq f hf => ?_, fun f hf => ?_⟩, hk.timers.congr (fun _ => by simp) (by simp) (by simp)⟩
  · rw [Skeleton.pushSource_brk]
    rcases Skeleton.isSome_pushSource.1 hq with rfl | hq
    · exact Nat.lt_succ_self _
    · exact Nat.lt_succ_of_lt (hk.source_lt q hq)
  · exact (Skeleton.pushSource_brk (i := i)) ▸ Nat.lt_succ_of_lt (hk.flow_lt f (by simpa using hf))
  · simp only [Skeleton.pushSource_tableSize] at hj
    by_cases hji : j = i
    · subst hji
      dsimp only
      rw [Skeleton.pushSource_table, if_pos rfl, Function.update_same]
      refine seg_push (hk.chains.seg j hj) (fun hm => hk.source_ne_brk (hk.chain_live hj hm) rfl)
        hk.brk_ne_zero (fun x hx => ?_) (hprev j hj) ?_ ?_ ?_
      · simp only [Skeleton.sourceNext, hnext, if_neg (hk.source_ne_brk (hk.chain_live hj hx))]
      · rw [Skeleton.sourceNext, hnext, if_pos rfl]
      · rw [Skeleton.sourcePrev, Skeleton.pushSource_prev_of_ne (hk.table_ne_brk hj).symm, if_pos rfl]
      · exact fun h0 => Skeleton.pushSource_prev_head h0 (hk.chain_live hj (hk.table_mem hj h0))
    · dsimp only
      rw [Skeleton.pushSource_table, if_neg hji, Function.update_noteq hji]
      refine (hk.chains.seg j hj).congr (fun x hx => ?_) (fun x hx => hprev j hj x hx fun e => hji ?_)
      · simp only [Skeleton.sourceNext, hnext, if_neg (hk.source_ne_brk (hk.chain_live hj hx))]
      · have h0 : k.table i ≠ 0 := e ▸ fun h => (hk.chains.seg j hj).ne_zero (h ▸ hx)
        exact hk.chain_unique hj hi hx (e ▸ hk.table_mem hi h0)
  · simp only [Skeleton.pushSource_tableSize] at hj
    dsimp only at hq
    rw [hrow]
    by_cases hji : j = i
    · subst hji
      rw [Function.update_same] at hq
      rcases List.mem_cons.1 hq with rfl | hq
      · simp
      · rw [if_neg (hk.source_ne_brk (hk.chain_live hj hq))]; exact hk.chains.row j hj q hq
    · rw [Function.update_noteq hji] at hq
      rw [if_neg (hk.source_ne_brk (hk.chain_live hj hq))]; exact hk.chains.row j hj q hq
  · dsimp only
    simp only [Skeleton.isSome_pushSource, hk.chains.live, Skeleton.pushSource_tableSize]
    constructor
    · rintro (rfl | ⟨j, hj, hq⟩)
      · exact ⟨i, hi, by simp⟩
      · refine ⟨j, hj, ?_⟩
        by_cases hji : j = i
        · subst hji; simp [hq]
        · rwa [Function.update_noteq hji]
    · rintro ⟨j, hj, hq⟩
      by_cases hji : j = i
      · subst hji
        rw [Function.update_same] at hq
        rcases List.mem_cons.1 hq with rfl | hq
        · exact .inl rfl
        · exact .inr ⟨j, hj, hq⟩
      · rw [Function.update_noteq hji] at hq
        exact .inr ⟨j, hj, hq⟩
  · dsimp only
    by_cases hqb : q = k.brk
    · subst hqb; simp [hflows]
    · have hq' := (Skeleton.isSome_pushSource.1 hq).resolve_left hqb
      rw [hflows, if_neg hqb, Function.update_noteq hqb]
      have hn : (k.pushSource i).flowNext = k.flowNext := funext fun f => by simp [Skeleton.flowNext, Skeleton.flow]
      have hp : (k.pushSource i).flowPrev = k.flowPrev := funext fun f => by simp [Skeleton.flowPrev, Skeleton.flow]
      rw [hn, hp]
      exact hk.lists.seg q hq'
  · dsimp only at hf
    by_cases hqb : q = k.brk
    · subst hqb; simp at hf
    · rw [Function.update_noteq hqb] at hf
      simpa [Skeleton.flow] using hk.lists.source q ((Skeleton.isSome_pushSource.1 hq).resolve_left hqb) f hf
  · have hf' : (k.flows f).isSome := by simpa using hf
    have hflow : (k.pushSource i).flow f = k.flow f := by simp [Skeleton.flow]
    obtain ⟨hl, hm⟩ := hk.lists.live f hf'
    dsimp only
    rw [hflow, Skeleton.isSome_pushSource, Function.update_noteq (hk.source_ne_brk hl)]
    exact ⟨.inr hl, hm⟩

/-! ### Creating a flow -/

/-- `pushFlow` keeps the invariant, with the new flow at the head of the flows of `p` and its
timer at the end of the timer list. -/
theorem Realizes.pushFlow {k : Skeleton} {g : Shape} {p : Ptr} (hk : Realizes k g)
    (hp : (k.sources p).isSome) :
    Realizes (k.pushFlow p) (g.addFlow p k.brk) := by
  unfold Shape.addFlow
  have hfl := hk.lists.seg p hp
  have hdead : ¬ (k.flows k.brk).isSome := fun h => hk.flow_ne_brk h rfl
  have hhead : (k.source p).flows ≠ 0 → (k.flows (k.source p).flows).isSome ∧
      (k.flow (k.source p).flows).source = p := fun h0 => hk.lists.source p hp _ (hfl.mem_of_ne_zero h0)
  have hh : (k.source p).flows ≠ k.brk := by
    by_cases h0 : (k.source p).flows = 0
    · rw [h0]; exact hk.brk_ne_zero.symm
    · exact hk.flow_ne_brk (hhead h0).1
  have hview : ∀ {α : Type} (F : FlowLinks → α), (∀ r a b, F { r with timerPrev := a, timerNext := b } = F r) →
      (∀ r, F { r with prev := k.brk } = F r) → ∀ x,
      F ((k.pushFlow p).flow x) = if x = k.brk then F ⟨(k.source p).flows, 0, p, 0, 0, k.brk⟩ else F (k.flow x) :=
    fun F hT hP x => by
      rw [Skeleton.pushFlow, Skeleton.addTimer_flow_of F hT, Skeleton.linkFlow_flow hh]
      split_ifs <;> simp only [hP]
  have hnext := hview FlowLinks.next (fun _ _ _ => rfl) (fun _ => rfl)
  have hsrc := hview FlowLinks.source (fun _ _ _ => rfl) (fun _ => rfl)
  have hdata := hview FlowLinks.data (fun _ _ _ => rfl) (fun _ => rfl)
  have hprev : ∀ x, x ≠ (k.source p).flows → ((k.pushFlow p).flow x).prev =
      if x = k.brk then 0 else (k.flow x).prev := fun x hx => by
    rw [Skeleton.pushFlow, Skeleton.addTimer_flow_of FlowLinks.prev (fun _ _ _ => rfl), Skeleton.linkFlow_flow hh]
    split_ifs <;> first | rfl | exact absurd ‹x = _ ∧ _›.1 hx
  have hlive : ∀ x, ((k.pushFlow p).flows x).isSome ↔ x = k.brk ∨ (k.flows x).isSome := fun x => by
    rw [Skeleton.pushFlow, Skeleton.isSome_addTimer, Skeleton.isSome_linkFlow]
  have hsources : ∀ q, ((k.pushFlow p).sources q).isSome ↔ (k.sources q).isSome := fun q => by
    rw [Skeleton.pushFlow, Skeleton.addTimer_sources, Skeleton.isSome_linkFlow_sources]
  have hsource : ∀ q, (k.pushFlow p).source q =
      if q = p then { k.source q with flows := k.brk } else k.source q := fun q => by
    rw [Skeleton.pushFlow, Skeleton.source_addTimer, Skeleton.linkFlow_source]
    by_cases hq : q = p
    · subst hq; simp [hp]
    · simp [hq]
  have hmem : ∀ q, (k.sources q).isSome → ∀ x ∈ g.flowsOf q, x ≠ k.brk := fun q hq x hx =>
    hk.flow_ne_brk (hk.lists.source q hq x hx).1
  refine ⟨by simp [Skeleton.pushFlow], fun q hq => ?_, fun f hf => ?_, ?_,
    ⟨fun q hq => ?_, fun q hq f hf => ?_, fun f hf => ?_⟩, ?_⟩
  · simp only [Skeleton.pushFlow, Skeleton.addTimer_brk, Skeleton.linkFlow_brk]
    exact Nat.lt_succ_of_lt (hk.source_lt q ((hsources q).1 hq))
  · simp only [Skeleton.pushFlow, Skeleton.addTimer_brk, Skeleton.linkFlow_brk]
    rcases (hlive f).1 hf with rfl | hf
    · exact Nat.lt_succ_self _
    · exact Nat.lt_succ_of_lt (hk.flow_lt f hf)
  · refine hk.chains.congr (fun _ => by simp [Skeleton.pushFlow]) (by simp [Skeleton.pushFlow]) hsources
      (fun q => ?_) (fun q => ?_) (fun q => ?_) <;> rw [hsource] <;> split_ifs <;> rfl
  · dsimp only
    by_cases hqp : q = p
    · subst hqp
      rw [hsource, if_pos rfl, Function.update_same]
      refine seg_push hfl (fun hm => hmem q hp _ hm rfl) hk.brk_ne_zero (fun x hx => ?_)
        (fun x hx hxh => ?_) ?_ ?_ (fun h0 => ?_)
      · simp only [Skeleton.flowNext, hnext, if_neg (hmem q hp x hx)]
      · simp only [Skeleton.flowPrev, hprev x hxh, if_neg (hmem q hp x hx)]
      · rw [Skeleton.flowNext, hnext, if_pos rfl]
      · rw [Skeleton.flowPrev, hprev _ (Ne.symm hh), if_pos rfl]
      · rw [Skeleton.flowPrev, Skeleton.pushFlow, Skeleton.addTimer_flow_of FlowLinks.prev (fun _ _ _ => rfl),
          Skeleton.linkFlow_flow hh, if_neg hh, if_pos ⟨rfl, h0, (hhead h0).1⟩]
    · have hq' := (hsources q).1 hq
      rw [hsource, if_neg hqp, Function.update_noteq hqp]
      refine (hk.lists.seg q hq').congr (fun x hx => ?_) (fun x hx => ?_)
      · simp only [Skeleton.flowNext, hnext, if_neg (hmem q hq' x hx)]
      · have hxh : x ≠ (k.source p).flows := fun e => hqp <| by
          have h0 : (k.source p).flows ≠ 0 := e ▸ fun h => (hk.lists.seg q hq').ne_zero (h ▸ hx)
          rw [← (hk.lists.source q hq' x hx).2, e, (hhead h0).2]
        simp only [Skeleton.flowPrev, hprev x hxh, if_neg (hmem q hq' x hx)]
  · dsimp only at hf
    have hq' := (hsources q).1 hq
    have hold : f ∈ g.flowsOf q → ((k.pushFlow p).flows f).isSome ∧ ((k.pushFlow p).flow f).source = q :=
      fun hf => by
        obtain ⟨h1, h2⟩ := hk.lists.source q hq' f hf
        exact ⟨(hlive f).2 (.inr h1), by rw [hsrc, if_neg (hk.flow_ne_brk h1), h2]⟩
    by_cases hqp : q = p
    · subst hqp
      rw [Function.update_same] at hf
      rcases List.mem_cons.1 hf with rfl | hf
      · exact ⟨(hlive _).2 (.inl rfl), by rw [hsrc, if_pos rfl]⟩
      · exact hold hf
    · rw [Function.update_noteq hqp] at hf
      exact hold hf
  · dsimp only
    rcases (hlive f).1 hf with rfl | hf
    · rw [hsrc, if_pos rfl, Function.update_same]
      exact ⟨(hsources p).2 hp, List.mem_cons_self _ _⟩
    · obtain ⟨h1, h2⟩ := hk.lists.live f hf
      rw [hsrc, if_neg (hk.flow_ne_brk hf)]
      refine ⟨(hsources _).2 h1, ?_⟩
      by_cases hq : (k.flow f).source = p
      · rw [hq, Function.update_same]
        exact List.mem_cons_of_mem _ (hq ▸ h2)
      · rwa [Function.update_noteq hq]
  · have hs1 : Seg (k.linkFlow p).timerNext (k.linkFlow p).timerPrev 0 (k.linkFlow p).timerHead g.timers 0 := by
      rw [Skeleton.linkFlow_timerHead]
      refine hk.timers.seg.congr (fun x hx => ?_) (fun x hx => ?_) <;>
      · have hx' := hk.flow_ne_brk ((hk.timers.live x).1 hx)
        simp only [Skeleton.timerNext, Skeleton.timerPrev, Skeleton.linkFlow_flow hh, if_neg hx']
        split_ifs <;> rfl
    refine ⟨?_, ?_, fun x => ?_, fun x hx => ?_⟩
    · exact Skeleton.seg_addTimer hs1 (by simpa using hk.timers.tail)
        (fun x hx => Skeleton.isSome_linkFlow.2 (.inr ((hk.timers.live x).1 hx)))
        (Skeleton.isSome_linkFlow.2 (.inl rfl)) hk.brk_ne_zero (fun hm => hdead ((hk.timers.live _).1 hm))
    · simp [Skeleton.pushFlow, getLastD_snoc]
    · rw [hlive, List.mem_append, hk.timers.live, List.mem_singleton, or_comm]
    · rw [hdata]
      split_ifs with h
      · exact h.symm
      · exact hk.timers.data x (((hlive x).1 hx).resolve_left h)

/-! ### Deleting a flow -/

/-- `deleteFlow` keeps the invariant, with the flow erased from its source's list and from the
timer list. -/
theorem Realizes.deleteFlow {k : Skeleton} {g : Shape} {f : Ptr} (hk : Realizes k g)
    (hf : (k.flows f).isSome) :
    Realizes (k.deleteFlow f) (g.dropFlow (k.flow f).source f) := by
  unfold Shape.dropFlow
  obtain ⟨hsrc, hfm⟩ := hk.lists.live f hf
  have hfl := hk.lists.seg _ hsrc
  have hin := hk.lists.source
  have hprevMem : (k.flow f).prev ≠ 0 → (k.flow f).prev ∈ g.flowsOf (k.flow f).source :=
    (hfl.prev_mem hfm).resolve_left
  have hnextMem : (k.flow f).next ≠ 0 → (k.flow f).next ∈ g.flowsOf (k.flow f).source :=
    (hfl.next_mem hfm).resolve_left
  -- a flow on the list of another source is neither `f` nor one of its neighbours
  have hother : ∀ q, (k.sources q).isSome → q ≠ (k.flow f).source → ∀ y ∈ g.flowsOf q,
      y ≠ f ∧ y ≠ (k.flow f).prev ∧ y ≠ (k.flow f).next := by
    intro q hq hne y hy
    have hys := (hin q hq y hy).2
    have hy0 : y ≠ 0 := fun h => (hk.lists.seg q hq).ne_zero (h ▸ hy)
    refine ⟨fun e => hne (hys.symm.trans (e ▸ rfl)), fun e => ?_, fun e => ?_⟩
    · exact hne (hys.symm.trans (e ▸ (hin _ hsrc _ (hprevMem (e ▸ hy0))).2))
    · exact hne (hys.symm.trans (e ▸ (hin _ hsrc _ (hnextMem (e ▸ hy0))).2))
  have hnodupT := hk.timers.seg.nodup
  refine ⟨by simpa using hk.brk_pos, fun q hq => ?_, fun y hy => ?_, ?_,
    ⟨fun q hq => ?_, fun q hq y hy => ?_, fun y hy => ?_⟩, ?_⟩
  · simpa using hk.source_lt q (by simpa using hq)
  · simpa using hk.flow_lt y (Skeleton.isSome_deleteFlow.1 hy).2
  · refine hk.chains.congr (fun _ => by simp) (by simp) (fun q => by simp) (fun q => ?_) (fun q => ?_)
      (fun q => ?_) <;> rw [Skeleton.deleteFlow_source] <;> split_ifs <;> rfl
  · dsimp only
    have hq' : (k.sources q).isSome := by simpa using hq
    by_cases hqs : q = (k.flow f).source
    · subst hqs
      have hhead : ((k.deleteFlow f).source (k.flow f).source).flows =
          if k.flowPrev f = 0 then k.flowNext f else (k.source (k.flow f).source).flows := by
        rw [Skeleton.deleteFlow_source]
        simp only [Skeleton.flowPrev, Skeleton.flowNext, hsrc, true_and, and_true]
        split_ifs <;> rfl
      rw [hhead, Function.update_same]
      refine seg_unlink hfl hfl.ne_zero hfm (fun y _ hyf hyp => ?_) (fun y _ hyf hyn => ?_)
        (fun h => ?_) (fun h => ?_)
      · rw [Skeleton.flowNext, Skeleton.deleteFlow_next hyf]
        exact if_neg fun h => hyp h.1
      · rw [Skeleton.flowPrev, Skeleton.deleteFlow_prev hyf]
        exact if_neg fun h => hyn h.1
      · rw [Skeleton.flowNext, Skeleton.deleteFlow_next (hfl.prev_ne_self hfl.ne_zero hfm),
          if_pos ⟨rfl, h, (hin _ hsrc _ (hprevMem h)).1⟩]
        rfl
      · rw [Skeleton.flowPrev, Skeleton.deleteFlow_prev (hfl.next_ne_self hfm),
          if_pos ⟨rfl, h, (hin _ hsrc _ (hnextMem h)).1⟩]
        rfl
    · rw [Skeleton.deleteFlow_source, if_neg fun h => hqs h.1, Function.update_noteq hqs]
      refine (hk.lists.seg q hq').congr (fun y hy => ?_) (fun y hy => ?_) <;>
        obtain ⟨h1, h2, h3⟩ := hother q hq' hqs y hy
      · rw [Skeleton.flowNext, Skeleton.deleteFlow_next h1]
        exact if_neg fun h => h2 h.1
      · rw [Skeleton.flowPrev, Skeleton.deleteFlow_prev h1]
        exact if_neg fun h => h3 h.1
  · dsimp only at hy
    have hq' : (k.sources q).isSome := by simpa using hq
    have hyf : y ≠ f ∧ y ∈ g.flowsOf q := by
      by_cases hqs : q = (k.flow f).source
      · subst hqs
        rw [Function.update_same] at hy
        exact ⟨fun e => hfl.nodup.not_mem_erase (e ▸ hy), List.mem_of_mem_erase hy⟩
      · rw [Function.update_noteq hqs] at hy
        exact ⟨(hother q hq' hqs y hy).1, hy⟩
    obtain ⟨h1, h2⟩ := hin q hq' y hyf.2
    exact ⟨Skeleton.isSome_deleteFlow.2 ⟨hyf.1, h1⟩,
      by rw [Skeleton.deleteFlow_flow_of FlowLinks.source (fun _ _ _ _ _ => rfl) hyf.1, h2]⟩
  · obtain ⟨hyf, hy'⟩ := Skeleton.isSome_deleteFlow.1 hy
    obtain ⟨h1, h2⟩ := hk.lists.live y hy'
    rw [Skeleton.deleteFlow_flow_of FlowLinks.source (fun _ _ _ _ _ => rfl) hyf]
    refine ⟨by simpa using h1, ?_⟩
    dsimp only
    by_cases hqs : (k.flow y).source = (k.flow f).source
    · rw [hqs, Function.update_same]
      exact (List.mem_erase_of_ne hyf).2 (hqs ▸ h2)
    · rwa [Function.update_noteq hqs]
  · obtain ⟨hs1, ht1⟩ := Skeleton.seg_deleteTimer hk.timers.seg hk.timers.tail
      (fun x hx => (hk.timers.live x).1 hx) ((hk.timers.live f).2 hf)
    refine ⟨?_, ?_, fun y => ?_, fun y hy => ?_⟩
    · rw [Skeleton.deleteFlow_timerHead]
      refine hs1.congr (fun y hy => ?_) (fun y hy => ?_) <;>
        have hyf : y ≠ f := fun e => hnodupT.not_mem_erase (e ▸ hy)
      · exact Skeleton.deleteFlow_timer_of FlowLinks.timerNext (fun _ _ _ => rfl) hyf
      · exact Skeleton.deleteFlow_timer_of FlowLinks.timerPrev (fun _ _ _ => rfl) hyf
    · rw [Skeleton.deleteFlow_timerTail, ht1]
    · rw [hnodupT.mem_erase_iff, Skeleton.isSome_deleteFlow, hk.timers.live]
    · obtain ⟨hyf, hy'⟩ := Skeleton.isSome_deleteFlow.1 hy
      rw [Skeleton.deleteFlow_flow_of FlowLinks.data (fun _ _ _ _ _ => rfl) hyf]
      exact hk.timers.data y hy'

/-! ### Deleting a source -/

/-- A list without repeats of pointers below `n` has at most `n` nodes: `brk` is enough fuel for
every walk along a list of live records. -/
theorem length_le_of_lt {l : List Ptr} {n : Nat} (hnd : l.Nodup) (h : ∀ x ∈ l, x < n) : l.length ≤ n := by
  simpa using (List.subperm_of_subset hnd fun x hx => List.mem_range.2 (h x hx)).length_le

/-- Taking a source that owns no flow off its chain and freeing it keeps the invariant, with
the source erased from the chain of its bucket. -/
theorem Realizes.removeSource {k : Skeleton} {g : Shape} {p : Ptr} (hk : Realizes k g)
    (hp : (k.sources p).isSome) (hnil : g.flowsOf p = []) :
    Realizes (k.removeSource (k.source p).row p) (g.dropSource (k.source p).row p) := by
  unfold Shape.dropSource
  obtain ⟨i, hi, hpi⟩ := (hk.chains.live p).1 hp
  rw [hk.chains.row i hi p hpi, Skeleton.removeSource]
  have hchain := hk.chains.seg i hi
  generalize hr : k.source p = r
  have hrp : r.prev ≠ 0 → r.prev ∈ g.chain i := hr ▸ (hchain.prev_mem hpi).resolve_left
  have hrn : r.next ≠ 0 → r.next ∈ g.chain i := hr ▸ (hchain.next_mem hpi).resolve_left
  have hpp : r.prev ≠ p := hr ▸ hchain.prev_ne_self hchain.ne_zero hpi
  have hpn : r.next ≠ p := hr ▸ hchain.next_ne_self hpi
  -- a source on another chain is neither `p` nor one of its neighbours
  have hother : ∀ j < k.tableSize, j ≠ i → ∀ y ∈ g.chain j, y ≠ p ∧ y ≠ r.prev ∧ y ≠ r.next := by
    intro j hj hji y hy
    have hy0 : y ≠ 0 := fun h => (hk.chains.seg j hj).ne_zero (h ▸ hy)
    refine ⟨fun e => hji (hk.chain_unique hj hi hy (e ▸ hpi)), fun e => ?_, fun e => ?_⟩
    · exact hji (hk.chain_unique hj hi hy (e ▸ hrp (e ▸ hy0)))
    · exact hji (hk.chain_unique hj hi hy (e ▸ hrn (e ▸ hy0)))
  -- the chains after the removal hold every source but `p`
  have hmem : ∀ j < k.tableSize, ∀ y, y ∈ Function.update g.chain i ((g.chain i).erase p) j ↔
      y ≠ p ∧ y ∈ g.chain j := by
    intro j hj y
    by_cases hji : j = i
    · subst hji
      rw [Function.update_same]
      exact (hk.chains.seg j hj).nodup.mem_erase_iff
    · rw [Function.update_noteq hji]
      exact ⟨fun hy => ⟨(hother j hj hji y hy).1, hy⟩, And.right⟩
  have hlive : ∀ q, (((k.unlinkSource i r).freeSource p).sources q).isSome ↔
      q ≠ p ∧ (k.sources q).isSome := fun q => by
    rw [Skeleton.isSome_freeSource, Skeleton.isSome_unlinkSource]
  have hnext : ∀ q, q ≠ p → (((k.unlinkSource i r).freeSource p).source q).next =
      if q = r.prev ∧ r.prev ≠ 0 ∧ (k.sources q).isSome then r.next else (k.source q).next :=
    fun q hq => by
      rw [Skeleton.source_freeSource_of_ne hq, Skeleton.unlinkSource_source]
      dsimp only
      split_ifs <;> rfl
  have hprev : ∀ q, q ≠ p → (((k.unlinkSource i r).freeSource p).source q).prev =
      if q = r.next ∧ r.next ≠ 0 ∧ (k.sources q).isSome then r.prev else (k.source q).prev :=
    fun q hq => by
      rw [Skeleton.source_freeSource_of_ne hq, Skeleton.unlinkSource_source]
      dsimp only
      split_ifs <;> rfl
  have hkeep : ∀ {α : Type} (F : SourceLinks → α), (∀ s a b, F { s with next := a, prev := b } = F s) →
      ∀ q, q ≠ p → F (((k.unlinkSource i r).freeSource p).source q) = F (k.source q) :=
    fun F hF q hq => by rw [Skeleton.source_freeSource_of_ne hq, Skeleton.unlinkSource_source_of F hF]
  have hflow : ∀ f, ((k.unlinkSource i r).freeSource p).flow f = k.flow f := fun f => by simp
  have hflows : ∀ f, ((k.unlinkSource i r).freeSource p).flows f = k.flows f := fun f => by simp
  have hfn : ((k.unlinkSource i r).freeSource p).flowNext = k.flowNext :=
    funext fun f => by simp only [Skeleton.flowNext, hflow]
  have hfp : ((k.unlinkSource i r).freeSource p).flowPrev = k.flowPrev :=
    funext fun f => by simp only [Skeleton.flowPrev, hflow]
  refine ⟨by simpa using hk.brk_pos, fun q hq => ?_, fun f hf => ?_, ⟨fun j hj => ?_, fun j hj y hy => ?_,
    fun q => ?_⟩, ⟨fun q hq => ?_, fun q hq f hf => ?_, fun f hf => ?_⟩,
    hk.timers.congr hflows (by simp) (by simp)⟩
  · simpa using hk.source_lt q ((hlive q).1 hq).2
  · simpa using hk.flow_lt f (by simpa using hf)
  · simp only [Skeleton.freeSource_tableSize, Skeleton.unlinkSource_tableSize] at hj
    dsimp only
    by_cases hji : j = i
    · subst hji
      rw [Function.update_same]
      have htab : ((k.unlinkSource j r).freeSource p).table j = if r.prev = 0 then r.next else k.table j := by
        simp [Skeleton.unlinkSource_table]
      rw [htab]
      have key : Seg ((k.unlinkSource j r).freeSource p).sourceNext
          ((k.unlinkSource j r).freeSource p).sourcePrev _ _ _ 0 := seg_unlink hchain hchain.ne_zero hpi
        (fun y _ hyp hyr => ?_) (fun y _ hyp hyr => ?_) (fun h => ?_) (fun h => ?_)
      · simpa only [Skeleton.sourcePrev, Skeleton.sourceNext, hr] using key
      · rw [Skeleton.sourceNext, hnext y hyp]
        exact if_neg fun h => hyr (by rw [Skeleton.sourcePrev, hr]; exact h.1)
      · rw [Skeleton.sourcePrev, hprev y hyp]
        exact if_neg fun h => hyr (by rw [Skeleton.sourceNext, hr]; exact h.1)
      · simp only [Skeleton.sourcePrev, Skeleton.sourceNext, hr] at h ⊢
        rw [hnext _ hpp, if_pos ⟨rfl, h, hk.chain_live hi (hrp h)⟩]
      · simp only [Skeleton.sourcePrev, Skeleton.sourceNext, hr] at h ⊢
        rw [hprev _ hpn, if_pos ⟨rfl, h, hk.chain_live hi (hrn h)⟩]
    · rw [Function.update_noteq hji, show ((k.unlinkSource i r).freeSource p).table j = k.table j by
        simp [Skeleton.unlinkSource_table, hji]]
      refine (hk.chains.seg j hj).congr (fun y hy => ?_) (fun y hy => ?_) <;>
        obtain ⟨h1, h2, h3⟩ := hother j hj hji y hy
      · rw [Skeleton.sourceNext, hnext y h1]
        exact if_neg fun h => h2 h.1
      · rw [Skeleton.sourcePrev, hprev y h1]
        exact if_neg fun h => h3 h.1
  · simp only [Skeleton.freeSource_tableSize, Skeleton.unlinkSource_tableSize] at hj
    obtain ⟨hyp, hy⟩ := (hmem j hj y).1 hy
    rw [hkeep SourceLinks.row (fun _ _ _ => rfl) y hyp]
    exact hk.chains.row j hj y hy
  · simp only [hlive, hk.chains.live, Skeleton.freeSource_tableSize, Skeleton.unlinkSource_tableSize]
    constructor
    · rintro ⟨hqp, j, hj, hq⟩
      exact ⟨j, hj, (hmem j hj q).2 ⟨hqp, hq⟩⟩
    · rintro ⟨j, hj, hq⟩
      obtain ⟨hqp, hq⟩ := (hmem j hj q).1 hq
      exact ⟨hqp, j, hj, hq⟩
  · obtain ⟨hqp, hq1⟩ := (hlive q).1 hq
    rw [hfn, hfp, hkeep SourceLinks.flows (fun _ _ _ => rfl) q hqp]
    exact hk.lists.seg q hq1
  · rw [hflows, hflow]
    exact hk.lists.source q ((hlive q).1 hq).2 f hf
  · rw [hflows] at hf
    obtain ⟨h1, h2⟩ := hk.lists.live f hf
    have hne : (k.flow f).source ≠ p := fun e => by
      rw [e, hnil] at h2
      exact List.not_mem_nil f h2
    rw [hflow, hlive]
    exact ⟨⟨hne, h1⟩, h2⟩

end Ipv6Reassembly
