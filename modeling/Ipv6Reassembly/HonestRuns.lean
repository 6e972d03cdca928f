import Ipv6Reassembly.Delivery
import Ipv6Reassembly.PayloadLength

/-!
# Complete flows in honest runs

A flow is complete when its declared length is set and its fragments form a train from offset `0`
(`State.Complete`, the test of lines 739–741), and the call that completes it hands it to
`build_complete_datagram`. Compaction fails, and the call returns `NULL` and keeps the complete
flow, when the fragments hold more or fewer bytes than the declared length (`complete_flow_kept`).

Every store keeps some fragment reaching the declared length (`storeStable_reaches`): a last
fragment sets the length to its own end, and an insertion cuts from a fragment only what the new
interval covers. When the fragments of a flow are also slices of one payload whose length is the
declared length, as for senders whose every fragment is a fragment of the payload of its key, a
train from `0` holds exactly the declared length (`heldBytes_of_complete`), so compaction succeeds
and the flow is delivered or given up. In every reachable state of such a run no live flow is
complete (`no_complete_flow_of_honest`).
-/

namespace Ipv6Reassembly

/-! ## A fragment reaches the declared length -/

/-- A declared length, once set, is reached by some fragment. -/
def FlowData.Reaches (d : FlowData) : Prop := d.len ≠ 0 → ∃ fr ∈ d.fragments, d.len.toNat ≤ fr.end

/-- The flow is not complete: no declared length, or no train from offset `0`. -/
def FlowData.Incomplete (d : FlowData) : Prop := ¬(d.len ≠ 0 ∧ checkTrainOfContiguousFragments d.fragments = true)

theorem storeStable_reaches (a : Packet) : StoreStable FlowData.Reaches a where
  new _ _ _ h := absurd rfl h
  unfragmentable _ hr := hr
  insert r hr := fun hlen => by
    simp only [Flow.data] at hlen ⊢
    by_cases hmf : a.moreFragments = 0
    · rw [if_pos hmf]
      exact ⟨_, mem_insertFragment.2 (.inl rfl), Nat.mod_le _ _⟩
    · rw [if_neg hmf] at hlen ⊢
      obtain ⟨f, hf, hle⟩ := hr hlen
      have hle : r.len.toNat ≤ f.end := hle
      by_cases he : a.end < f.end
      · exact ⟨_, mem_insertFragment.2 (.inr ⟨f, hf, mem_trim.2 (.inr ⟨he, rfl⟩)⟩), hle⟩
      · exact ⟨_, mem_insertFragment.2 (.inl rfl), by dsimp only; omega⟩

theorem trainEnd_le {n : Nat} : ∀ {o : Nat} {fs : List Fragment}, o ≤ n → (∀ f ∈ fs, f.end ≤ n) → trainEnd o fs ≤ n
  | _, [], ho, _ => ho
  | _, f :: _, _, h =>
    show trainEnd f.end _ ≤ n from trainEnd_le (h f (List.mem_cons_self _ _)) fun g hg => h g (List.mem_cons_of_mem _ hg)

/-- Sorted fragments that form a train from `0`, one of which reaches the declared length and none
of which ends past it, hold exactly the declared length. -/
theorem heldBytes_of_complete {r : Flow} (hsorted : Sorted r.fragments) (hreach : r.data.Reaches)
    (hle : ∀ fr ∈ r.fragments, fr.end ≤ r.len.toNat) (hlen : r.len ≠ 0)
    (htrain : checkTrainOfContiguousFragments r.fragments = true) : heldBytes r.fragments = r.len.toNat := by
  obtain ⟨fr, hfr, hge⟩ := hreach hlen
  have hge : r.len.toNat ≤ fr.end := hge
  have hheld := heldBytes_of_trainFrom htrain hsorted.1
  have hlo := end_le_trainEnd htrain hsorted.1 fr hfr
  have hhi := trainEnd_le (Nat.zero_le _) hle
  omega

/-! ## A complete flow is delivered or given up -/

section Store

variable (B : Build) {s t : State} {a : Packet} {m : Malloc}

/-- When the fragments hold the declared length, compaction succeeds and
`build_complete_datagram` gives the flow up, whether it returns the datagram or not. -/
theorem buildCompleteDatagram_of_held {f : Ptr} {ok : Bool}
    (h : heldBytes (s.flow f).fragments = (s.flow f).len.toNat) :
    (buildCompleteDatagram B s f ok).1 = deleteFlowAndEmptySource B s f := by
  unfold buildCompleteDatagram compactFragments
  dsimp only
  split_ifs <;> rfl

theorem allFlows_of_update {P : FlowData → Prop} {f : Ptr} {v : Option FlowData}
    (ht : t.flowView Flow.data = Function.update (s.flowView Flow.data) f v) (hs : s.AllFlows P)
    (hf : (t.flows f).isSome → P (t.flow f).data) : t.AllFlows P :=
  allFlows_update ht hs fun d hd => by
    have h := congrFun ht f
    rw [Function.update_same, hd] at h
    obtain ⟨hlive, rfl⟩ := live_of_flowView h
    exact hf hlive

/-- Giving up the flow `f` of `s₂` keeps a property that every other flow of `s₂` has in `s₁`. -/
theorem allFlows_deleteFlowAndEmptySource {P : FlowData → Prop} {f : Ptr} {s₁ s₂ : State}
    (hs₁ : s₁.AllFlows P) (hv : ∀ q, q ≠ f → s₂.flowView Flow.data q = s₁.flowView Flow.data q) :
    (deleteFlowAndEmptySource B s₂ f).AllFlows P := fun q d hq => by
  have hqf : q ≠ f := fun h => by
    subst h
    simp [State.flowView, flows_deleteFlowAndEmptySource_self] at hq
  rcases flowsKept_deleteFlowAndEmptySource B (s := s₂) (f := f) q with h | h <;> rw [h] at hq
  · cases hq
  · exact hs₁ q d ((hv q hqf) ▸ hq)

/-- A store of a fragment of the payload of the flow's key, from a state that agrees and where no
flow is complete, leaves no flow complete. -/
theorem Intact.incomplete_storeFragment {allowed : Op → Prop} {Pay : In6Addr × In6Addr × UInt32 → List UInt8}
    {g : Shape} {src f : Ptr} {r : Option (List UInt8)} (hI : Intact allowed Pay s) (hk : Realizes s.skeleton g)
    (hsorted : FragmentsSorted s) (hreach : s.AllFlows FlowData.Reaches) (hinc : s.AllFlows FlowData.Incomplete)
    (hf : (s.flows f).isSome) (hsrc : (s.flow f).source = src) (hkey : s.flowKey f = a.key)
    (hallowed : allowed (.manage a m)) (ha : a.FragmentOf (Pay a.key)) (hend : a.end ≤ maxDatagramSize)
    (h : Ipv6Reassembly.storeFragment B s src f a m = (t, r)) : t.AllFlows FlowData.Incomplete := by
  subst hsrc
  rcases storeFragment_cases B h with ⟨-, -, rfl, -⟩ | ⟨rfl, -⟩ | ⟨s₁, hS, hrest⟩
  · exact hinc
  · exact (flowsKept_deleteFlow B).allFlows hinc
  have hinc₁ := allFlows_stored (fun _ h => h) hinc hS
  rcases hrest with ⟨-, -, rfl, -⟩ | ⟨hno, rfl, -⟩ | ⟨hlen, htrain, hb⟩
  · exact hinc₁
  · exact allFlows_of_update (flowView_insertIntoFlow Flow.data _ a) hinc₁ fun _ => hno
  -- the flow is complete, and its honest fragments hold exactly its declared length
  obtain ⟨-, hI₂, hf₂, hkey₂⟩ := hI.inserted hk hf hkey hallowed ha hend hS
  have hagree := hkey₂ ▸ hI₂ f hf₂
  have hP := hagree.len.resolve_left hlen
  have hheld := heldBytes_of_complete
    ((fragmentsSorted_insertIntoFlow (allFlows_stored (fun _ h => h) hsorted hS)).flow f)
    ((allFlows_insertIntoFlow (storeStable_reaches a)
      (allFlows_stored (storeStable_reaches a).unfragmentable hreach hS) _ f).flow hf₂)
    (fun fr hfr => hP ▸ (hagree.fragments fr hfr).1) hlen htrain
  obtain rfl : t = _ := (congrArg Prod.fst hb).symm.trans (buildCompleteDatagram_of_held B hheld)
  exact allFlows_deleteFlowAndEmptySource B hinc₁ fun q hq => by
    rw [flowView_insertIntoFlow Flow.data, Function.update_noteq hq]

end Store

/-! ## Runs of honest senders -/

section Runs

variable (B : Build) {allowed : Op → Prop} {Pay : In6Addr × In6Addr × UInt32 → List UInt8} {s : State}

/-- When every fragment a run may deliver is a fragment of the payload of its key, no flow of a
reachable state is complete. -/
theorem incomplete_of_reachable (honest : ∀ a m, allowed (.manage a m) → a.FragmentOf (Pay a.key))
    (hs : Reachable B allowed s) : s.AllFlows FlowData.Incomplete := by
  induction hs with
  | enable n => intro q d hq; cases hq
  | @step s s' op r hs hop hstep ih =>
    cases op with
    | manage a m =>
      obtain ⟨g, hk⟩ := realizes_of_reachable hs
      refine allFlows_manageIpv6Fragment_of B (fun _ _ _ h => h.1 rfl) ih
        (fun hts h₁ h0 he hw h₄ hf0 hend hinc₄ hst => ?_) hstep
      have hA := atStore B hs hts h₁ h0 he hw h₄
      obtain ⟨g₄, hk₄⟩ := hA.realizes₄
      exact ((intact_of_reachable B honest hs).atStore B hk hA h₄).incomplete_storeFragment B hk₄
        (fragmentsSorted_before_store B (fragmentsSorted_of_reachable B hs) h₁ he hw h₄)
        (allFlows_before_store B (storeStable_reaches a).new (allFlows_of_reachable B storeStable_reaches hs)
          h₁ he hw h₄)
        hinc₄ (hA.live hf0) (hA.source hf0) (hA.key hf0) hop (honest a m hop) (not_lt.1 hend) hst
    | setPerHostMemoryLimit n => cases hstep; exact ih
    | setTotalMemoryLimit n => cases hstep; exact ih
    | setReassemblyTimeout n => cases hstep; exact ih

/-- When every fragment a run may deliver is a fragment of the payload of its key, no live flow of
a reachable state is complete: a call that completes a flow delivers its datagram or gives the
flow up, and never keeps it. -/
theorem no_complete_flow_of_honest (honest : ∀ a m, allowed (.manage a m) → a.FragmentOf (Pay a.key))
    (hs : Reachable B allowed s) (q : Ptr) : ¬ s.Complete q := fun ⟨hq, hlen, htrain⟩ =>
  incomplete_of_reachable B honest hs q _ (flowView_of_live _ hq) ⟨hlen, htrain⟩

/-- After the first half `[0, 8)` of the payload `0, 1, …, 15` from `::1`, no flow is complete. -/
theorem no_complete_flow_first_half :
    ∃ s, Reachable lp64 (Op.Honest fun _ => (List.range 16).map Nat.toUInt8) s ∧ (s.flows 2).isSome ∧
      ∀ q, ¬ s.Complete q := by
  obtain ⟨s, -, hs, -, h⟩ := (Reachable.enable 1 :
      Reachable lp64 (Op.Honest fun _ => (List.range 16).map Nat.toUInt8) _).of_run lp64
    (looseLimits ++ [.manage (frag 1 1 ((List.range 16).map Nat.toUInt8) 0 8 1 0) .ok])
    (fun s _ => (s.flows 2).isSome) (by decide) (by decide)
  exact ⟨s, hs, h, @no_complete_flow_of_honest lp64 _ (fun _ => (List.range 16).map Nat.toUInt8) _
    (fun _ _ h => h) hs⟩

end Runs

end Ipv6Reassembly
