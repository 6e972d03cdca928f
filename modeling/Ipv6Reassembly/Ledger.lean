import Mathlib.Algebra.BigOperators.Group.Finset
import Mathlib.Data.UInt
import Mathlib.Tactic.Abel
import Ipv6Reassembly.Keys

/-!
# The memory counters

Each source record keeps in `source_used_mem` what it has been charged, and the state keeps the
total in `total_used_mem`; both are `u_int32_t`, so they count modulo `2^32`. A flow is charged
its record, its stored unfragmentable part and the bytes of its fragments (`Flow.charge`), and
`delete_flow` gives back exactly that. `Ledger B s` says that the counters balance: every live
source has been charged its record and what its flows are charged, and the total is what all the
sources have been charged. Both sums run over the addresses below `brk`, where a dead address
counts `0`; each routine changes one summand (`Ledger.of_bill`), so every call keeps the ledger
(`keeps_ledger`). Read with the structural invariant, the sums are the ones over the flow list
of each source and over the sources in the table (`ledger_of_reachable`).

The lengths the fragment list reports when a fragment is inserted are those of the model of
`dpi_reassembly_insert_fragment`, which reports the change of the bytes the list holds exactly
(`heldBytes_insertFragment`).
-/

namespace Ipv6Reassembly

theorem toUInt32_add (a b : Nat) : (a + b).toUInt32 = a.toUInt32 + b.toUInt32 := by
  apply UInt32.toNat.inj
  show (a + b) % UInt32.size = (a % UInt32.size + b % UInt32.size) % UInt32.size
  exact Nat.add_mod a b _

@[simp] theorem toUInt32_zero : (0 : Nat).toUInt32 = 0 := rfl

theorem sum_map_toUInt32 {α : Type} (n : α → Nat) (l : List α) :
    (l.map fun x => (n x).toUInt32).sum = (l.map n).sum.toUInt32 := by
  induction l with
  | nil => rfl
  | cons x l ih => simp only [List.map_cons, List.sum_cons, ih, toUInt32_add]

/-- What the engine charges for a flow record: `sizeof` of the record, the length of the stored
unfragmentable part, and the bytes its fragments hold. -/
def Flow.charge (B : Build) (r : Flow) : UInt32 :=
  B.sizeofFlow + r.unfragmentableLength.toUInt32 + (heldBytes r.fragments).toUInt32

/-- The source a flow is charged to, and its charge. -/
def Flow.bill (B : Build) (r : Flow) : Ptr × UInt32 := (r.source, r.charge B)

theorem flowBlind_bill (B : Build) : FlowBlind (Flow.bill B) := fun _ _ _ _ _ _ => rfl

/-- What a bill charges to the source at `p`. -/
def chargedTo (p : Ptr) : Option (Ptr × UInt32) → UInt32
  | some (q, c) => if p = q then c else 0
  | none => 0

/-- What the flow at `f` is charged to the source at `p`: nothing unless it is a live flow of
`p`. -/
def State.chargeFor (B : Build) (s : State) (p f : Ptr) : UInt32 :=
  chargedTo p (s.flowView (Flow.bill B) f)

/-- The counters of the engine: what each live source has been charged, and the total. -/
structure Counters where
  used : Ptr → Option UInt32
  total : UInt32

/-- The counters of a state. -/
def State.counters (s : State) : Counters := ⟨s.sourceView Source.sourceUsedMem, s.totalUsedMem⟩

/-- `charge` on the counters. -/
def Counters.charge (c : Counters) (p : Ptr) (n : UInt32) : Counters :=
  ⟨Function.update c.used p ((c.used p).map (· + n)), c.total + n⟩

/-- The counters balance: every live source has been charged its record and its flows, and the
total is what the sources have been charged, all sums over the addresses below `brk`. -/
structure Ledger (B : Build) (s : State) : Prop where
  source : ∀ p u, s.counters.used p = some u →
    u = B.sizeofSource + ∑ f ∈ Finset.range s.brk, s.chargeFor B p f
  total : s.counters.total = ∑ p ∈ Finset.range s.brk, (s.counters.used p).getD 0

/-! ## Sums over the addresses -/

section Sums

variable {β : Type} [AddCommGroup β]

theorem sum_update_range {F : Nat → β} {x N : Nat} (hx : x < N) (v : β) :
    ∑ q ∈ Finset.range N, Function.update F x v q = ∑ q ∈ Finset.range N, F q - F x + v := by
  have hmem := Finset.mem_range.2 hx
  rw [Finset.sum_update_of_mem hmem, Finset.sum_eq_sum_diff_singleton_add hmem F]
  abel

theorem sum_range_of_zero {F : Nat → β} {N M : Nat} (hNM : N ≤ M) (hF : ∀ q, N ≤ q → F q = 0) :
    ∑ q ∈ Finset.range M, F q = ∑ q ∈ Finset.range N, F q :=
  (Finset.sum_subset (Finset.range_subset.2 hNM) fun q _ hq =>
    hF q (by simpa using hq)).symm

end Sums

/-! ## The counters through the routines -/

section Counters

variable (B : Build) {s : State} {p f : Ptr}

theorem Counters.charge_used (c : Counters) (src : Ptr) (n : UInt32) (p : Ptr) :
    (c.charge src n).used p = (c.used p).map (· + if p = src then n else 0) := by
  by_cases hp : p = src
  · subst hp
    simp [Counters.charge]
  · simp [Counters.charge, hp, Option.map_id']

theorem Counters.charge_charge (c : Counters) (p : Ptr) (a b : UInt32) :
    (c.charge p a).charge p b = c.charge p (a + b) := by
  simp only [Counters.charge, Function.update_same, Function.update_idem, Option.map_map,
    Function.comp_def, add_assoc]

@[simp] theorem counters_charge (n : UInt32) : (s.charge p n).counters = s.counters.charge p n := by
  show Counters.mk ((s.modifySource p fun r => { r with sourceUsedMem := r.sourceUsedMem + n }).sourceView
    Source.sourceUsedMem) (s.totalUsedMem + n) = _
  rw [sourceView_modifySource']
  simp only [Counters.charge, State.counters, State.sourceView, Option.map_map]
  rfl

@[simp] theorem counters_release (n : UInt32) :
    (s.release p n).counters = s.counters.charge p (-n) := by
  show Counters.mk ((s.modifySource p fun r => { r with sourceUsedMem := r.sourceUsedMem - n }).sourceView
    Source.sourceUsedMem) (s.totalUsedMem - n) = _
  rw [sourceView_modifySource']
  simp only [Counters.charge, State.counters, State.sourceView, Option.map_map, sub_eq_add_neg]
  rfl

theorem counters_modifySource {g : Source → Source} (hg : ∀ r, (g r).sourceUsedMem = r.sourceUsedMem) :
    (s.modifySource p g).counters = s.counters := by
  simp only [State.counters, sourceView_modifySource hg]
  rfl

@[simp] theorem counters_modifyFlow (g : Flow → Flow) : (s.modifyFlow p g).counters = s.counters := rfl

@[simp] theorem counters_freeFlow : (s.freeFlow p).counters = s.counters := rfl

@[simp] theorem counters_deleteTimer : (deleteTimer s p).counters = s.counters := by
  simp only [State.counters, sourceView_deleteTimer]
  unfold deleteTimer
  dsimp only
  split <;> split <;> rfl

@[simp] theorem counters_addTimer : (addTimer s p).counters = s.counters := by
  unfold addTimer
  split <;> rfl

theorem counters_foldl_release (src : Ptr) (n : Fragment → UInt32) (fs : List Fragment) (s : State) :
    (fs.foldl (fun s fr => s.release src (n fr)) s).counters =
      s.counters.charge src (-(fs.map n).sum) := by
  induction fs generalizing s with
  | nil => simp [Counters.charge, Function.update_eq_self]
  | cons fr fs ih =>
    rw [List.foldl_cons, ih, counters_release, Counters.charge_charge, List.map_cons, List.sum_cons,
      neg_add]

@[simp] theorem counters_modifySource_flows (v : Ptr) :
    (s.modifySource p fun r => { r with flows := v }).counters = s.counters :=
  counters_modifySource fun _ => rfl

/-- `delete_flow` gives back what the flow is charged. -/
theorem counters_deleteFlow :
    (deleteFlow B s f).counters = s.counters.charge (s.flow f).source (-(s.flow f).charge B) := by
  have hfr := sum_map_toUInt32 (fun fr : Fragment => fr.end - fr.offset) (s.flow f).fragments
  unfold deleteFlow
  dsimp only
  simp only [counters_freeFlow, apply_ite State.counters, counters_modifyFlow, counters_modifySource_flows,
    ite_self]
  split <;> rename_i hu <;>
    simp only [counters_release, counters_foldl_release, counters_deleteTimer, Counters.charge_charge, hfr] <;>
    simp only [Flow.charge, Flow.unfragmentableLength, hu, heldBytes, Option.map_some',
      Option.map_none', Option.getD_some, Option.getD_none] <;>
    congr 1 <;> abel

@[simp] theorem counters_setFlow (r : Flow) : (s.setFlow p r).counters = s.counters := rfl

@[simp] theorem counters_withBrk (n : Nat) : ({ s with brk := n } : State).counters = s.counters := rfl

/-- `find_or_create_flow` charges the new flow record to its source. -/
theorem counters_createFlow (src : Ptr) (id : UInt32) (dst : In6Addr) (now : UInt32) :
    (createFlow B s src id dst now).counters = s.counters.charge src B.sizeofFlow := by
  unfold createFlow
  dsimp only
  split <;> simp only [counters_addTimer, counters_modifySource_flows, counters_modifyFlow,
    counters_setFlow, counters_charge, counters_withBrk]

/-- `find_or_create_source` charges the new source record to the source and to the total. -/
theorem counters_createSource (addr : In6Addr) : (createSource B s addr).counters =
    ⟨Function.update s.counters.used s.brk (some B.sizeofSource), s.totalUsedMem + B.sizeofSource⟩ := by
  have hv := sourceView_createSource B (W := Source.sourceUsedMem) (s := s) (fun _ _ _ _ => rfl) addr
  have ht : (createSource B s addr).totalUsedMem = s.totalUsedMem + B.sizeofSource := by
    unfold createSource
    dsimp only
    split <;> rfl
  simp only [State.counters, hv, ht]

/-- The end of `delete_source` frees the source and debits its record from the total. -/
theorem counters_removeSource (row : UInt16) : (removeSource B s row p).counters =
    ⟨Function.update s.counters.used p none, s.totalUsedMem - B.sizeofSource⟩ := by
  have hv := sourceView_removeSource B (W := Source.sourceUsedMem) (s := s) (p := p)
    (fun _ _ _ _ => rfl) row
  have ht : (removeSource B s row p).totalUsedMem = s.totalUsedMem - B.sizeofSource := by
    unfold removeSource
    dsimp only
    split_ifs <;> rfl
  simp only [State.counters, hv, ht]

theorem counters_storeUnfragmentable (src : Ptr) (a : Packet) :
    (storeUnfragmentable s src f a).counters = s.counters.charge src a.unfragmentable.length.toUInt32 := by
  unfold storeUnfragmentable
  rw [counters_charge, counters_modifyFlow]

theorem counters_insertIntoFlow (src : Ptr) (a : Packet) :
    (insertIntoFlow s src f a).counters = s.counters.charge src
      ((insertFragment (s.flow f).fragments a.fragmentable a.offset.toNat a.end).2.2.toUInt32 -
        (insertFragment (s.flow f).fragments a.fragmentable a.offset.toNat a.end).2.1.toUInt32) := by
  have hfr : ((if a.moreFragments = 0 then s.modifyFlow f fun r => { r with len := a.end.toUInt16 }
      else s).flow f).fragments = (s.flow f).fragments := by
    split
    · cases h : s.flows f <;> simp [State.flow, h]
    · rfl
  unfold insertIntoFlow
  dsimp only
  rw [hfr, counters_release, counters_charge, counters_modifyFlow, Counters.charge_charge,
    ← sub_eq_add_neg]
  split <;> rfl

end Counters


/-! ## The bills through the routines -/

section Bills

variable (B : Build) {s : State} {p f : Ptr}

/-- What `insertIntoFlow` writes into the flow: the declared length of a last fragment, and the
new fragment list. -/
theorem flowView_insertIntoFlow {α : Type} (V : Flow → α) (src : Ptr) (a : Packet) :
    (insertIntoFlow s src f a).flowView V = Function.update (s.flowView V) f ((s.flows f).map fun r =>
      V { r with
          len := if a.moreFragments = 0 then a.end.toUInt16 else r.len,
          fragments := (insertFragment r.fragments a.fragmentable a.offset.toNat a.end).1 }) := by
  unfold insertIntoFlow
  dsimp only
  rw [flowView_release, flowView_charge, flowView_modifyFlow']
  split
  · rw [flowView_modifyFlow', Function.update_idem]
    cases h : s.flows f <;> simp [State.flow, h]
  · cases h : s.flows f <;> simp [State.flow, h]

theorem chargeFor_of_flowView {t : State} {x : Ptr} {o : Option (Ptr × UInt32)}
    (h : t.flowView (Flow.bill B) = Function.update (s.flowView (Flow.bill B)) x o) (p : Ptr) :
    t.chargeFor B p = Function.update (s.chargeFor B p) x (chargedTo p o) :=
  funext fun q => by
    simp only [State.chargeFor, h]
    exact Function.apply_update (fun _ => chargedTo p) _ x o q

theorem chargeFor_live (hf : (s.flows f).isSome) (p : Ptr) :
    s.chargeFor B p f = if p = (s.flow f).source then (s.flow f).charge B else 0 := by
  rw [State.chargeFor, flowView_of_live _ hf]
  rfl

theorem chargeFor_of_none (hf : s.flows f = none) (p : Ptr) : s.chargeFor B p f = 0 := by
  simp [State.chargeFor, State.flowView, hf, chargedTo]

theorem chargeFor_deleteFlow (p : Ptr) :
    (deleteFlow B s f).chargeFor B p = Function.update (s.chargeFor B p) f 0 :=
  chargeFor_of_flowView B (flowView_deleteFlow B (flowBlind_bill B)) p

theorem chargeFor_createFlow (src : Ptr) (id : UInt32) (dst : In6Addr) (now : UInt32) (p : Ptr) :
    (createFlow B s src id dst now).chargeFor B p =
      Function.update (s.chargeFor B p) s.brk (if p = src then B.sizeofFlow else 0) := by
  rw [chargeFor_of_flowView B (flowView_createFlow B (flowBlind_bill B) src id dst now) p]
  simp [chargedTo, Flow.bill, Flow.charge, Flow.unfragmentableLength]

theorem chargeFor_createSource (addr : In6Addr) (p : Ptr) :
    (createSource B s addr).chargeFor B p = s.chargeFor B p :=
  funext fun q => by rw [State.chargeFor, flowView_createSource]; rfl

theorem chargeFor_removeSource (row : UInt16) (q p : Ptr) :
    (removeSource B s row q).chargeFor B p = s.chargeFor B p :=
  funext fun f => by rw [State.chargeFor, flowView_removeSource]; rfl

theorem chargedTo_add (p q : Ptr) (c d : UInt32) :
    chargedTo p (some (q, c + d)) = chargedTo p (some (q, c)) + if p = q then d else 0 := by
  simp only [chargedTo]
  split_ifs <;> simp

theorem charge_storeUnfragmentable {r : Flow} (h : r.unfragmentable = none) (u : List UInt8) :
    ({ r with unfragmentable := some u } : Flow).charge B = r.charge B + u.length.toUInt32 := by
  simp only [Flow.charge, Flow.unfragmentableLength, h, Option.map_some', Option.map_none',
    Option.getD_some, Option.getD_none, toUInt32_zero, add_zero, add_right_comm]

theorem charge_insertIntoFlow (r : Flow) (l : UInt16) (fs : List Fragment) :
    ({ r with len := l, fragments := fs } : Flow).charge B =
      r.charge B + ((heldBytes fs).toUInt32 - (heldBytes r.fragments).toUInt32) := by
  simp only [Flow.charge, Flow.unfragmentableLength, add_assoc, add_sub_cancel]

/-- Storing the unfragmentable part bills its length to the flow's source. -/
theorem chargeFor_storeUnfragmentable (hf : (s.flows f).isSome) (hnone : (s.flow f).unfragmentable = none)
    (a : Packet) (p : Ptr) :
    (storeUnfragmentable s (s.flow f).source f a).chargeFor B p = Function.update (s.chargeFor B p) f
      (s.chargeFor B p f + if p = (s.flow f).source then a.unfragmentable.length.toUInt32 else 0) := by
  obtain ⟨r, hr⟩ := Option.isSome_iff_exists.1 hf
  have hsf : s.flow f = r := by simp [State.flow, hr]
  have hv : (storeUnfragmentable s (s.flow f).source f a).flowView (Flow.bill B) =
      Function.update (s.flowView (Flow.bill B)) f ((s.flows f).map (Flow.bill B ∘ fun r =>
        { r with unfragmentable := some (a.unfragmentable.set 6 a.nextHeader) })) :=
    flowView_modifyFlow' _
  rw [chargeFor_of_flowView B hv p, chargeFor_live B hf, hsf]
  rw [hsf] at hnone
  simp only [hr, Option.map_some', Function.comp, Flow.bill, charge_storeUnfragmentable B hnone,
    chargedTo_add, List.length_set]
  rfl

/-- Inserting a fragment bills the bytes the list gained and lost to the flow's source. -/
theorem chargeFor_insertIntoFlow (hf : (s.flows f).isSome) (a : Packet) (p : Ptr) :
    (insertIntoFlow s (s.flow f).source f a).chargeFor B p = Function.update (s.chargeFor B p) f
      (s.chargeFor B p f + if p = (s.flow f).source then
        (insertFragment (s.flow f).fragments a.fragmentable a.offset.toNat a.end).2.2.toUInt32 -
          (insertFragment (s.flow f).fragments a.fragmentable a.offset.toNat a.end).2.1.toUInt32
        else 0) := by
  obtain ⟨r, hr⟩ := Option.isSome_iff_exists.1 hf
  have hsf : s.flow f = r := by simp [State.flow, hr]
  have hheld := congrArg Nat.toUInt32 (show heldBytes (insertFragment r.fragments a.fragmentable
    a.offset.toNat a.end).1 + _ = _ from heldBytes_insertFragment (Nat.le_add_right a.offset.toNat a.fragmentable.length))
  rw [toUInt32_add, toUInt32_add] at hheld
  have hd : (heldBytes (insertFragment r.fragments a.fragmentable a.offset.toNat a.end).1).toUInt32 -
      (heldBytes r.fragments).toUInt32 =
      (insertFragment r.fragments a.fragmentable a.offset.toNat a.end).2.2.toUInt32 -
        (insertFragment r.fragments a.fragmentable a.offset.toNat a.end).2.1.toUInt32 := by
    rw [eq_sub_of_add_eq hheld]
    abel
  rw [chargeFor_of_flowView B (flowView_insertIntoFlow _ _ a) p, chargeFor_live B hf, hsf]
  simp only [hr, Option.map_some', Flow.bill, charge_insertIntoFlow, hd, chargedTo_add]
  rfl

end Bills

/-! ## Every call keeps the ledger -/

section Keep

variable (B : Build) {s : State} {g : Shape}

theorem Realizes.sources_of_le (hk : Realizes s.skeleton g) {q : Ptr} (hq : s.brk ≤ q) :
    s.sources q = none :=
  Option.not_isSome_iff_eq_none.1 fun h => absurd hq (Nat.not_le.2 (hk.source_lt q (by simpa using h)))

theorem Realizes.flows_of_le (hk : Realizes s.skeleton g) {q : Ptr} (hq : s.brk ≤ q) :
    s.flows q = none :=
  Option.not_isSome_iff_eq_none.1 fun h => absurd hq (Nat.not_le.2 (hk.flow_lt q (by simpa using h)))

theorem used_of_none {q : Ptr} (h : s.sources q = none) : s.counters.used q = none := by
  simp [State.counters, State.sourceView, h]

theorem used_of_live {q : Ptr} (h : (s.sources q).isSome) :
    s.counters.used q = some (s.source q).sourceUsedMem :=
  sourceView_of_live _ h

theorem brk_deleteFlow (f : Ptr) : (deleteFlow B s f).brk = s.brk := by
  simpa using congrArg Skeleton.brk (skeleton_deleteFlow B (s := s) f)

theorem brk_createFlow (src : Ptr) (id : UInt32) (dst : In6Addr) (now : UInt32) :
    (createFlow B s src id dst now).brk = s.brk + 1 := by
  simpa [Skeleton.pushFlow] using congrArg Skeleton.brk (skeleton_createFlow B (s := s) src id dst now)

theorem brk_createSource (addr : In6Addr) : (createSource B s addr).brk = s.brk + 1 := by
  simpa using congrArg Skeleton.brk (skeleton_createSource B (s := s) addr)

theorem brk_removeSource (row : UInt16) (p : Ptr) : (removeSource B s row p).brk = s.brk := by
  simpa [Skeleton.removeSource] using congrArg Skeleton.brk (skeleton_removeSource B (s := s) row p)

theorem brk_insertIntoFlow (src f : Ptr) (a : Packet) : (insertIntoFlow s src f a).brk = s.brk := by
  rw [← skeleton_brk, skeleton_insertIntoFlow, skeleton_brk]

/-- A step that bills `d` to the live source `src` through the flow at `x`, and charges it to the
source and the total, keeps the ledger. -/
theorem Ledger.of_bill (hs : Ledger B s) (hk : Realizes s.skeleton g) {t : State} {src x : Ptr}
    {d : UInt32} (hsrc : (s.sources src).isSome) (hbrk : s.brk ≤ t.brk) (hx : x < t.brk)
    (hcounters : t.counters = s.counters.charge src d)
    (hcharge : ∀ p, t.chargeFor B p =
      Function.update (s.chargeFor B p) x (s.chargeFor B p x + if p = src then d else 0)) :
    Ledger B t where
  source p u hu := by
    rw [hcounters, Counters.charge_used] at hu
    obtain ⟨u₀, hu₀, rfl⟩ := Option.map_eq_some'.1 hu
    rw [hs.source p u₀ hu₀, hcharge p, sum_update_range hx,
      sum_range_of_zero hbrk fun q hq => chargeFor_of_none B (hk.flows_of_le hq) p]
    abel
  total := by
    have hlt : src < t.brk := lt_of_lt_of_le (hk.source_lt src (by simpa using hsrc)) hbrk
    have hused : (fun q => (t.counters.used q).getD 0) = Function.update
        (fun q => (s.counters.used q).getD 0) src ((s.counters.used src).getD 0 + d) := by
      funext q
      rw [hcounters, Counters.charge_used, used_of_live hsrc]
      by_cases hq : q = src
      · subst hq
        simp [used_of_live hsrc]
      · simp [hq]
    rw [hused, sum_update_range hlt, sum_range_of_zero hbrk fun q hq => by
      simp [used_of_none (hk.sources_of_le hq)], ← hs.total, hcounters]
    simp only [Counters.charge]
    abel

/-- Every call keeps the ledger. -/
theorem keeps_ledger (now : UInt32) : Keeps B (fun s _ => Ledger B s) now where
  createSource s g addr hk hs _ _ := by
    have hnot : s.sources s.brk = none := hk.sources_of_le le_rfl
    refine ⟨fun p u hu => ?_, ?_⟩
    · rw [counters_createSource, brk_createSource] at *
      simp only [chargeFor_createSource]
      by_cases hp : p = s.brk
      · subst hp
        simp only [Function.update_same, Option.some.injEq] at hu
        subst hu
        rw [Finset.sum_eq_zero fun f _ => ?_, add_zero]
        cases hf : s.flows f with
        | none => exact chargeFor_of_none B hf _
        | some r =>
          have hlive : (s.flows f).isSome := by simp [hf]
          rw [chargeFor_live B hlive, if_neg]
          exact (hk.source_lt _ (by simpa using hk.source_of_flow hlive)).ne'
      · dsimp only at hu
        rw [Function.update_noteq hp] at hu
        rw [hs.source p u hu, sum_range_of_zero (Nat.le_succ _) fun q hq =>
          chargeFor_of_none B (hk.flows_of_le hq) p]
    · rw [counters_createSource, brk_createSource]
      have hsum : (fun q => ((Function.update s.counters.used s.brk (some B.sizeofSource)) q).getD 0) =
          Function.update (fun q => (s.counters.used q).getD 0) s.brk B.sizeofSource := by
        funext q
        by_cases hq : q = s.brk
        · subst hq
          simp
        · simp [hq]
      simp only [hsum]
      rw [sum_update_range (Nat.lt_succ_self _), sum_range_of_zero (Nat.le_succ _) fun q hq => by
        simp [used_of_none (hk.sources_of_le hq)], ← hs.total, used_of_none hnot, Option.getD_none,
        sub_zero]
      rfl
  createFlow s g src id dst hk hs hsrc _ :=
    hs.of_bill B hk hsrc (by rw [brk_createFlow]; exact Nat.le_succ _)
      (by rw [brk_createFlow]; exact Nat.lt_succ_self _) (counters_createFlow B src id dst now)
      fun p => by rw [chargeFor_createFlow, chargeFor_of_none B (hk.flows_of_le le_rfl), zero_add]
  deleteFlow s g f hk hs hf :=
    hs.of_bill B hk (hk.source_of_flow hf) (brk_deleteFlow B f).ge
      (by rw [brk_deleteFlow]; exact hk.flow_lt f (by simpa using hf)) (counters_deleteFlow B)
      fun p => by
        rw [chargeFor_deleteFlow, chargeFor_live B hf]
        split_ifs <;> simp
  removeSource s g p hk hs hp hnil := by
    have hnone : ∀ f, s.chargeFor B p f = 0 := fun f => by
      cases hf : s.flows f with
      | none => exact chargeFor_of_none B hf _
      | some r =>
        have hlive : (s.flows f).isSome := by simp [hf]
        rw [chargeFor_live B hlive, if_neg]
        rintro rfl
        have := (hk.lists.live f (by simpa using hlive)).2
        simp [skeleton_flow, hnil] at this
    refine ⟨fun q u hu => ?_, ?_⟩
    · rw [counters_removeSource, brk_removeSource] at *
      simp only [chargeFor_removeSource]
      by_cases hq : q = p
      · subst hq
        simp at hu
      · dsimp only at hu
        rw [Function.update_noteq hq] at hu
        exact hs.source q u hu
    · rw [counters_removeSource, brk_removeSource]
      have hsum : (fun q => ((Function.update s.counters.used p none) q).getD 0) =
          Function.update (fun q => (s.counters.used q).getD 0) p 0 := by
        funext q
        by_cases hq : q = p
        · subst hq
          simp
        · simp [hq]
      simp only [hsum]
      have hplt : p < s.brk := hk.source_lt p (by simpa using hp)
      rw [sum_update_range hplt, ← hs.total,
        used_of_live hp, hs.source p _ (used_of_live hp)]
      simp only [hnone, Finset.sum_const_zero, Option.getD_some, State.counters]
      abel
  storeUnfragmentable s g f a hk hs hf hnone :=
    hs.of_bill B hk (hk.source_of_flow hf) le_rfl (hk.flow_lt f (by simpa using hf))
      (counters_storeUnfragmentable (s := s) (f := f) _ a) (chargeFor_storeUnfragmentable B hf hnone a)
  insertIntoFlow s g f a hk hs hf :=
    hs.of_bill B hk (hk.source_of_flow hf) (brk_insertIntoFlow _ f a).ge
      (by rw [brk_insertIntoFlow]; exact hk.flow_lt f (by simpa using hf))
      (counters_insertIntoFlow (s := s) (f := f) _ a) (chargeFor_insertIntoFlow B hf a)

end Keep

/-! ## The ledger in reachable states -/

section Reachable

variable (B : Build) {s : State}

theorem ledger_enable (tableSize : UInt16) : Ledger B (enableIpv6Fragmentation B tableSize) where
  source _ _ h := by simp [State.counters, State.sourceView, enableIpv6Fragmentation] at h
  total := by simp [State.counters, State.sourceView, enableIpv6Fragmentation]

theorem Linked.mem_tableSources (hl : Linked s) {p : Ptr} :
    p ∈ s.tableSources ↔ (s.sources p).isSome := by
  simp only [State.tableSources, List.mem_flatMap, List.mem_range, hl.chain_live]

/-- No source is in two buckets. -/
theorem Linked.tableSources_nodup (hl : Linked s) : s.tableSources.Nodup := by
  refine List.nodup_flatMap.2 ⟨fun i hi => (hl.chain_seg i (List.mem_range.1 hi)).nodup, ?_⟩
  refine (List.nodup_range _).imp_of_mem fun {i j} hi hj hij p hpi hpj => hij ?_
  rw [← hl.chain_row i (List.mem_range.1 hi) p hpi, hl.chain_row j (List.mem_range.1 hj) p hpj]

/-- A sum over the addresses below `N` that vanishes off a duplicate-free list below `N` is the
sum over the list. -/
theorem sum_range_eq_sum_list {F : Nat → UInt32} {l : List Ptr} {N : Nat} (hnd : l.Nodup)
    (hlt : ∀ x ∈ l, x < N) (hz : ∀ x < N, x ∉ l → F x = 0) :
    ∑ x ∈ Finset.range N, F x = (l.map F).sum := by
  rw [← List.sum_toFinset F hnd]
  exact (Finset.sum_subset (fun x hx => Finset.mem_range.2 (hlt x (List.mem_toFinset.1 hx)))
    fun x hx hxl => hz x (Finset.mem_range.1 hx) fun h => hxl (List.mem_toFinset.2 h)).symm

/-- In every reachable state the counters balance: each source in the table has been charged its
record and, for every flow on its list, the flow record, the stored unfragmentable part and the
bytes of the flow's fragments; and the total is what the sources in the table have been charged.
All of it modulo `2^32`. -/
theorem ledger_of_reachable {allowed : Op → Prop} (hs : Reachable B allowed s) :
    (∀ p, (s.sources p).isSome → (s.source p).sourceUsedMem =
      B.sizeofSource + ((s.flowsOf p).map fun f => (s.flow f).charge B).sum) ∧
    s.totalUsedMem = (s.tableSources.map fun p => (s.source p).sourceUsedMem).sum := by
  obtain ⟨g, hk, hled⟩ := Keeps.of_reachable (keeps_ledger B) (ledger_enable B)
    (fun _ _ h => ⟨fun _ => ⟨h.source, h.total⟩, fun _ => ⟨h.source, h.total⟩,
      fun _ => ⟨h.source, h.total⟩⟩) hs
  have hl := hk.linked
  refine ⟨fun p hp => ?_, ?_⟩
  · rw [hled.source p _ (used_of_live hp)]
    congr 1
    have hflows : ∀ f ∈ s.flowsOf p, (s.flows f).isSome ∧ (s.flow f).source = p := hl.flows_source p hp
    rw [sum_range_eq_sum_list (N := s.brk) (hl.flows_seg p hp).nodup (fun f hf => hk.flow_lt f (by simpa using
      (hflows f hf).1)) fun f _ hf => ?_]
    · refine congrArg List.sum (List.map_congr_left fun f hf => ?_)
      rw [chargeFor_live B (hflows f hf).1, if_pos (hflows f hf).2.symm]
    · cases hfl : s.flows f with
      | none => exact chargeFor_of_none B hfl p
      | some r =>
        have hlive : (s.flows f).isSome := by simp [hfl]
        rw [chargeFor_live B hlive, if_neg]
        rintro rfl
        exact hf (hl.flow_listed f hlive).2
  · rw [show s.totalUsedMem = s.counters.total from rfl, hled.total,
      sum_range_eq_sum_list (N := s.brk) hl.tableSources_nodup (fun p hp => hk.source_lt p (by
        simpa using hl.mem_tableSources.1 hp)) fun p _ hp => ?_]
    · refine congrArg List.sum (List.map_congr_left fun p hp => ?_)
      rw [used_of_live (hl.mem_tableSources.1 hp)]
      rfl
    · rw [used_of_none (Option.not_isSome_iff_eq_none.1 fun h => hp (hl.mem_tableSources.2 h))]
      rfl

/-- After two flows from `::1` and one from `::2`, both sources in the one bucket, every counter is
what the records charged to it add up to. -/
theorem ledger_two_sources :
    ∃ s, Reachable lp64 Op.Allocates s ∧ (s.sources 1).isSome ∧ (s.sources 4).isSome ∧ (s.flows 3).isSome ∧ (s.flows 5).isSome ∧
      (∀ p, (s.sources p).isSome → (s.source p).sourceUsedMem = lp64.sizeofSource +
        ((s.flowsOf p).map fun f => (s.flow f).charge lp64).sum) ∧
      s.totalUsedMem = (s.tableSources.map fun p => (s.source p).sourceUsedMem).sum := by
  obtain ⟨s, -, hs, -, h⟩ := (Reachable.enable 1 : Reachable lp64 Op.Allocates _).of_run lp64
    (looseLimits ++ [.manage (frag 1 1 (List.replicate 8 7) 0 8 1 0) .ok,
      .manage (frag 1 2 (List.replicate 8 7) 0 8 1 0) .ok, .manage (frag 2 1 (List.replicate 8 7) 0 8 1 0) .ok])
    (fun s _ => (s.sources 1).isSome ∧ (s.sources 4).isSome ∧ (s.flows 3).isSome ∧ (s.flows 5).isSome) (by decide) (by decide)
  exact ⟨s, hs, h.1, h.2.1, h.2.2.1, h.2.2.2, ledger_of_reachable lp64 hs⟩

end Reachable

end Ipv6Reassembly
