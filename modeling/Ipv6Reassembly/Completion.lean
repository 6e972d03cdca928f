import Ipv6Reassembly.Frame

/-!
# Completion

A flow is complete when a last fragment has fixed its declared length `len` and its fragments form
a train from offset `0`; `storeFragment` then hands it to `buildCompleteDatagram`, which compacts
the fragments into the datagram. In every reachable state the fragments of each flow are in order
(`fragmentsSorted_of_reachable`). A live flow may nevertheless hold a fragment that reaches past
`len` (`fragment_past_declared_length`), and when compaction then finds
more bytes than `len` the call returns `NULL` and keeps the complete flow
(`complete_flow_kept`). No screen bounds `end` from below, so a fragment whose fragmentable part
is empty reaches `insertFragment` with the empty interval `[offset, offset)`
(`empty_fragment_inserted`). Once `len` is set, a second last fragment is dropped whole (lines
709–715), even when it brings the only copy of some bytes (`second_last_fragment_dropped`).
-/

namespace Ipv6Reassembly

/-- The fragments of every live flow are in order. -/
def FragmentsSorted (s : State) : Prop := s.AllFlows fun d => Sorted d.fragments

/-- The flow at `q` is live and complete: its declared length is set and its fragments form a
train from offset `0`, the test of lines 739–741. -/
def State.Complete (s : State) (q : Ptr) : Prop :=
  (s.flows q).isSome ∧ (s.flow q).len ≠ 0 ∧ checkTrainOfContiguousFragments (s.flow q).fragments

instance (s : State) (q : Ptr) : Decidable (s.Complete q) := inferInstanceAs (Decidable (_ ∧ _ ∧ _))

/-- A first fragment `[0, 20)` and then a last fragment `[0, 10)`: the flow is complete, with the
declared length `10` and 20 bytes held, so compaction fails; every call returns `NULL` and the
complete flow stays. -/
theorem complete_flow_kept :
    ∃ s rs, Reachable lp64 Op.Allocates s ∧
      run lp64 (enableIpv6Fragmentation lp64 1) (looseLimits ++
        [.manage (frag 1 1 (List.replicate 20 7) 0 20 1 0) .ok,
         .manage (frag 1 1 (List.replicate 20 7) 0 10 0 0) .ok]) = some (s, rs) ∧
      rs.all Option.isNone ∧ s.Complete 2 := by
  obtain ⟨s, rs, hs, hrun, h⟩ := (Reachable.enable 1 : Reachable lp64 Op.Allocates _).of_run lp64
    (looseLimits ++ [.manage (frag 1 1 (List.replicate 20 7) 0 20 1 0) .ok,
      .manage (frag 1 1 (List.replicate 20 7) 0 10 0 0) .ok])
    (fun s rs => rs.all Option.isNone ∧ s.Complete 2) (by decide) (by decide)
  exact ⟨s, rs, hs, hrun, h⟩

section

variable (B : Build) {s t : State} {src f : Ptr} {a : Packet}

theorem FragmentsSorted.flow (hs : FragmentsSorted s) (q : Ptr) : Sorted (s.flow q).fragments := by
  unfold State.flow
  cases h : s.flows q with
  | none => exact sorted_nil
  | some r => exact hs q r.data (by simp [State.flowView, h])

/-- The order of the fragments is a property of the flows alone. -/
theorem FragmentsSorted.of_flowView (hs : FragmentsSorted s) (h : t.flowView Flow.data = s.flowView Flow.data) :
    FragmentsSorted t :=
  fun q d hq => hs q d (h ▸ hq)

theorem fragmentsSorted_modifyFlow {g : Flow → Flow} (hs : FragmentsSorted s)
    (hg : Sorted (s.flow f).fragments → Sorted (g (s.flow f)).fragments) :
    FragmentsSorted (s.modifyFlow f g) := by
  refine allFlows_update (flowView_modifyFlow' g) hs fun d hd => ?_
  obtain ⟨r, hr, rfl⟩ := Option.map_eq_some'.1 hd
  have : s.flow f = r := by simp [State.flow, hr]
  subst this
  exact hg (hs.flow f)

theorem fragmentsSorted_storeUnfragmentable (hs : FragmentsSorted s) :
    FragmentsSorted (storeUnfragmentable s src f a) :=
  fragmentsSorted_modifyFlow hs id

/-- Insertion keeps the fragments of the flow in order. -/
theorem fragmentsSorted_insertIntoFlow (hs : FragmentsSorted s) :
    FragmentsSorted (insertIntoFlow s src f a) := by
  have hlen : FragmentsSorted
      (if a.moreFragments = 0 then s.modifyFlow f fun r => { r with len := a.end.toUInt16 } else s) := by
    split
    · exact fragmentsSorted_modifyFlow hs id
    · exact hs
  unfold insertIntoFlow
  generalize (if a.moreFragments = 0 then s.modifyFlow f fun r => { r with len := a.end.toUInt16 } else s) = s'
    at hlen ⊢
  have hins : Sorted (insertFragment (s'.flow f).fragments a.fragmentable a.offset.toNat a.end).1 :=
    sorted_insertFragment (Nat.le_add_right _ _) (hlen.flow f)
  exact (fragmentsSorted_modifyFlow hlen fun _ => hins).of_flowView rfl

theorem fragmentsSorted_storeFragment (m : Malloc) (hs : FragmentsSorted s) :
    FragmentsSorted (storeFragment B s src f a m).1 := by
  have hpre : FragmentsSorted
      (if (s.flow f).unfragmentable = none then storeUnfragmentable s src f a else s) := by
    split
    · exact fragmentsSorted_storeUnfragmentable hs
    · exact hs
  unfold storeFragment
  split
  · exact hs
  split
  · exact (flowsKept_deleteFlow B).allFlows hs
  generalize (if (s.flow f).unfragmentable = none then storeUnfragmentable s src f a else s) = s' at hpre ⊢
  dsimp only
  split
  · exact hpre
  split
  · exact (flowsKept_buildCompleteDatagram B _).allFlows (fragmentsSorted_insertIntoFlow hpre)
  · exact fragmentsSorted_insertIntoFlow hpre

/-- The flows of a call's state just before `storeFragment` are in order. -/
theorem fragmentsSorted_before_store {s₁ s₂ s₃ s₄ : State} {m : Malloc} {src f : Ptr} (hs : FragmentsSorted s)
    (h₁ : findOrCreateSource B s a.ip6Src m.source = (s₁, src))
    (he : evictSource B s₁.brk s₁ src = .cont s₂)
    (hw : sweepTimers B s₂.brk s₂ src a.currentTime = .cont s₃)
    (h₄ : findOrCreateFlow B s₃ src a.identification a.ip6Dst a.currentTime m.flow = (s₄, f)) :
    FragmentsSorted s₄ :=
  allFlows_before_store B (fun _ _ _ => sorted_nil) hs h₁ he hw h₄

theorem fragmentsSorted_manageIpv6Fragment {m : Malloc} {r : Option (List UInt8)}
    (hs : FragmentsSorted s) (h : manageIpv6Fragment B s a m = some (t, r)) : FragmentsSorted t := by
  rcases manageIpv6Fragment_cases B h with ⟨-, rfl, -⟩ | ⟨s₁, src, -, -, h₁, hrest⟩
  · exact hs
  have hs₁ : FragmentsSorted s₁ := by
    have := flowView_findOrCreateSource B (V := Flow.data) a.ip6Src m.source (s := s)
    rw [h₁] at this
    exact (FlowsKept.of_eq this).allFlows hs
  rcases hrest with ⟨-, rfl, -⟩ | ⟨-, he, -⟩ | ⟨s₂, -, he, hrest⟩
  · exact hs₁
  · exact (flowsKept_of_evictSource B he).allFlows hs₁
  have hs₂ : FragmentsSorted s₂ := (flowsKept_of_evictSource B he).allFlows hs₁
  rcases hrest with ⟨hw, -⟩ | ⟨s₃, s₄, f, hw, h₄, hrest⟩
  · exact (flowsKept_of_sweepTimers B hw).allFlows hs₂
  have hs₄ := fragmentsSorted_before_store B hs h₁ he hw h₄
  rcases hrest with ⟨-, rfl, -⟩ | ⟨-, hst⟩
  · exact hs₄
  · have : FragmentsSorted (storeFragment B s₄ src f a m).1 := fragmentsSorted_storeFragment B m hs₄
    rwa [hst] at this

/-- A datagram comes only out of a successful compaction: the flow holds exactly `len` bytes, and
the datagram is its stored prefix, with the payload length set, followed by its fragments. -/
theorem buildCompleteDatagram_datagram {ok : Bool} {buf : List UInt8}
    (h : (buildCompleteDatagram B s f ok).2 = some buf) :
    heldBytes (s.flow f).fragments = (s.flow f).len.toNat ∧
      ∃ v, buf = setPayloadLength ((s.flow f).unfragmentable.getD []) v ++
        (s.flow f).fragments.flatMap (·.ptr) := by
  unfold buildCompleteDatagram at h
  dsimp only at h
  split_ifs at h
  split at h
  · cases h
  · rename_i count payload hc
    unfold compactFragments at hc
    split_ifs at hc with hheld
    cases hc
    cases h
    exact ⟨hheld, _, rfl⟩

/-- `storeFragment` returns a datagram only by building it from the flow it completed, whose
fragments are still in order. -/
theorem storeFragment_datagram {m : Malloc} {buf : List UInt8} (hs : FragmentsSorted s)
    (h : (storeFragment B s src f a m).2 = some buf) :
    ∃ s', FragmentsSorted s' ∧ (s'.flow f).len ≠ 0 ∧
      checkTrainOfContiguousFragments (s'.flow f).fragments ∧
      (buildCompleteDatagram B s' f m.datagram).2 = some buf := by
  have hpre : FragmentsSorted
      (if (s.flow f).unfragmentable = none then storeUnfragmentable s src f a else s) := by
    split
    · exact fragmentsSorted_storeUnfragmentable hs
    · exact hs
  unfold storeFragment at h
  split at h
  · cases h
  split at h
  · cases h
  generalize (if (s.flow f).unfragmentable = none then storeUnfragmentable s src f a else s) = s'
    at hpre h
  dsimp only at h
  split at h
  · cases h
  split at h
  · rename_i hc
    exact ⟨_, fragmentsSorted_insertIntoFlow hpre, hc.1, hc.2, h⟩
  · cases h

/-- In every reachable state the fragments of every flow are in order. -/
theorem fragmentsSorted_of_reachable {allowed : Op → Prop} (hs : Reachable B allowed s) :
    FragmentsSorted s := by
  induction hs with
  | enable n => intro q d hq; cases hq
  | @step _ _ op _ _ _ hstep ih =>
    cases op with
    | manage a m => exact fragmentsSorted_manageIpv6Fragment B ih hstep
    | setPerHostMemoryLimit n => cases hstep; exact ih
    | setTotalMemoryLimit n => cases hstep; exact ih
    | setReassemblyTimeout n => cases hstep; exact ih

end

/-- A last fragment `[5, 10)` declares the length `10`; the fragment `[0, 20)` that follows starts
inside the datagram and is stored whole, and the flow stays live holding bytes past its declared
length. -/
theorem fragment_past_declared_length :
    ∃ s, Reachable lp64 Op.Allocates s ∧ ∃ q, (s.flows q).isSome ∧ (s.flow q).len ≠ 0 ∧
      ∃ fr ∈ (s.flow q).fragments, (s.flow q).len.toNat < fr.end := by
  obtain ⟨s, -, hs, -, h⟩ := (Reachable.enable 1 : Reachable lp64 Op.Allocates _).of_run lp64
    (looseLimits ++ [.manage (frag 1 1 (List.replicate 20 7) 5 10 0 0) .ok,
      .manage (frag 1 1 (List.replicate 20 7) 0 20 1 0) .ok])
    (fun s _ => (s.flows 2).isSome ∧ (s.flow 2).len ≠ 0 ∧
      ∃ fr ∈ (s.flow 2).fragments, (s.flow 2).len.toNat < fr.end)
    (by decide) (by decide)
  exact ⟨s, hs, 2, h⟩

/-- A first fragment `[8, 8)` with an empty fragmentable part passes every screen of the call, and
`insertFragment` gets the interval `[8, 8)`: the new flow `2` holds it as its only fragment. -/
theorem empty_fragment_inserted :
    (frag 1 1 [] 8 8 1 0).offset.toNat = (frag 1 1 [] 8 8 1 0).end ∧
      (run lp64 (enableIpv6Fragmentation lp64 1) (looseLimits ++ [.manage (frag 1 1 [] 8 8 1 0) .ok])).map
        (fun x => (x.2, (x.1.flow 2).fragments)) = some ([none, none, none, none], [⟨8, 8, []⟩]) := by
  decide

end Ipv6Reassembly
