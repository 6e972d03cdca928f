import Ipv6Reassembly.Lifetime
import Ipv6Reassembly.Completion

/-!
# The datagrams a call returns

A sender fragments a datagram by cutting its payload `P` into intervals: each fragment carries the
bytes of `P` at its offset, and the last one ends where `P` ends (`Packet.FragmentOf`). When every
fragment a run delivers is such a fragment of the payload `Pay k` of its key `k`, every live flow
agrees with the payload of its own key (`intact_of_reachable`): its fragments are slices of the
payload, its declared length is the payload's, and its stored unfragmentable part is that of one
of the fragments. A flow is filed under the key of the fragment that reaches `storeFragment`
(`AtStore.key`), and keys never change while a flow lives (`KeysKept`), so the datagram a call
returns is the payload of the key of its fragment, behind the unfragmentable part of one of its
fragments, with the payload length the code computes (`datagram_is_payload`).
-/

namespace Ipv6Reassembly

/-- The fragmentable part of `a` as the interval `[offset, end)` that `insertFragment` files. -/
def Packet.fragment (a : Packet) : Fragment := ⟨a.offset.toNat, a.end, a.fragmentable⟩

/-- `a` is a fragment of the datagram whose payload is `P`: its bytes are those of `P` at its
offset, and a last fragment ends where `P` ends. -/
structure Packet.FragmentOf (a : Packet) (P : List UInt8) : Prop where
  slice : SliceOf P a.fragment
  last : a.moreFragments = 0 → a.end = P.length

/-- Every fragment the operation delivers is a fragment of the payload of its key. -/
def Op.Honest (Pay : In6Addr × In6Addr × UInt32 → List UInt8) : Op → Prop
  | .manage a _ => a.FragmentOf (Pay a.key)
  | _ => True

instance (P : List UInt8) (f : Fragment) : Decidable (SliceOf P f) := inferInstanceAs (Decidable (_ ∧ _))

instance (a : Packet) (P : List UInt8) : Decidable (a.FragmentOf P) :=
  decidable_of_iff (SliceOf P a.fragment ∧ (a.moreFragments = 0 → a.end = P.length))
    ⟨fun ⟨h₁, h₂⟩ => ⟨h₁, h₂⟩, fun ⟨h₁, h₂⟩ => ⟨h₁, h₂⟩⟩

instance (Pay : In6Addr × In6Addr × UInt32 → List UInt8) : DecidablePred (Op.Honest Pay)
  | .manage a _ => inferInstanceAs (Decidable (a.FragmentOf (Pay a.key)))
  | .setPerHostMemoryLimit _ | .setTotalMemoryLimit _ | .setReassemblyTimeout _ => isTrue trivial

/-- What the flow `r` holds under the key `k` agrees with the fragments of `k` that `allowed`
admits: each fragment of `r` holds the bytes of `Pay k` at its interval, a declared length is the
length of `Pay k`, and a stored unfragmentable part is that of one of those fragments, with its
next header written in. -/
structure Flow.Agrees (allowed : Op → Prop) (Pay : In6Addr × In6Addr × UInt32 → List UInt8)
    (k : In6Addr × In6Addr × UInt32) (r : Flow) : Prop where
  fragments : ∀ fr ∈ r.fragments, SliceOf (Pay k) fr
  len : r.len = 0 ∨ r.len.toNat = (Pay k).length
  unfragmentable : ∀ u, r.unfragmentable = some u →
    ∃ b m, allowed (.manage b m) ∧ b.key = k ∧ u = b.unfragmentable.set 6 b.nextHeader

/-- Every live flow agrees with the fragments of its key. -/
def Intact (allowed : Op → Prop) (Pay : In6Addr × In6Addr × UInt32 → List UInt8) (s : State) : Prop :=
  ∀ f, (s.flows f).isSome → (s.flow f).Agrees allowed Pay (s.flowKey f)

section Agrees

variable {allowed : Op → Prop} {Pay : In6Addr × In6Addr × UInt32 → List UInt8}
  {k : In6Addr × In6Addr × UInt32} {r r₀ : Flow}

/-- Agreement reads the data of a flow only. -/
theorem Flow.Agrees.of_data (h₀ : r₀.Agrees allowed Pay k) (h : r.data = r₀.data) : r.Agrees allowed Pay k := by
  simp only [Flow.data, FlowData.mk.injEq] at h
  obtain ⟨hu, hl, -, -, hf, -⟩ := h
  exact ⟨hf ▸ h₀.fragments, hl ▸ h₀.len, hu ▸ h₀.unfragmentable⟩

/-- A flow that holds nothing agrees with every payload. -/
theorem Flow.Agrees.empty (hf : r.fragments = []) (hl : r.len = 0) (hu : r.unfragmentable = none) :
    r.Agrees allowed Pay k :=
  ⟨by simp [hf], .inl hl, by simp [hu]⟩

end Agrees

/-! ## Keeping agreement -/

section Transfer

variable {B : Build} {allowed : Op → Prop} {Pay : In6Addr × In6Addr × UInt32 → List UInt8}
  {s t : State} {g g' : Shape}

theorem flow_data_of_view {q : Ptr} (h : t.flowView Flow.data q = s.flowView Flow.data q)
    (hq : (t.flows q).isSome) : (s.flows q).isSome ∧ (t.flow q).data = (s.flow q).data := by
  rw [flowView_of_live _ hq] at h
  obtain ⟨hs, he⟩ := live_of_flowView h.symm
  exact ⟨hs, he.symm⟩

/-- A flow still live after a run that keeps flows was live before, with the same data. -/
theorem FlowsKept.data (hfk : FlowsKept s t) {q : Ptr} (hq : (t.flows q).isSome) :
    (s.flows q).isSome ∧ (t.flow q).data = (s.flow q).data :=
  flow_data_of_view ((hfk q).resolve_left (by rw [flowView_of_live _ hq]; exact Option.some_ne_none _)) hq

/-- A step that keeps the keys keeps agreement when each flow that lives on agrees again with its
key, and each new flow agrees with its own. -/
theorem Intact.transfer (hI : Intact allowed Pay s) (hk : Realizes s.skeleton g) (hk' : Realizes t.skeleton g')
    (hkk : KeysKept s t)
    (h : ∀ q, (t.flows q).isSome → (s.flows q).isSome →
      (s.flow q).Agrees allowed Pay (s.flowKey q) → (t.flow q).Agrees allowed Pay (s.flowKey q))
    (hnew : ∀ q, (t.flows q).isSome → s.flows q = none → (t.flow q).Agrees allowed Pay (t.flowKey q)) :
    Intact allowed Pay t := fun q hq => by
  cases hs : s.flows q with
  | none => exact hnew q hq hs
  | some r =>
    have hq₀ : (s.flows q).isSome := by simp [hs]
    rw [hkk.flowKey_eq hk hk' hq₀ hq]
    exact h q hq hq₀ (hI q hq₀)

/-- A step that creates no flow and keeps the data of the flows it keeps keeps agreement. -/
theorem Intact.of_flowsKept (hI : Intact allowed Pay s) (hk : Realizes s.skeleton g) (hk' : Realizes t.skeleton g')
    (hkk : KeysKept s t) (hfk : FlowsKept s t) : Intact allowed Pay t := by
  refine hI.transfer hk hk' hkk (fun q hq _ h₀ => h₀.of_data (hfk.data hq).2) fun q hq hs => ?_
  have := (hfk.data hq).1
  simp [hs] at this

/-- A step that rewrites the data of the live flow `f` to that of `r'`, which agrees with the key
of `f`, keeps agreement. -/
theorem Intact.rewrite (hI : Intact allowed Pay s) (hk : Realizes s.skeleton g) (hk' : Realizes t.skeleton g')
    (hkk : KeysKept s t) {f : Ptr} (hf : (s.flows f).isSome) (r' : Flow)
    (hv : t.flowView Flow.data = Function.update (s.flowView Flow.data) f (some r'.data))
    (hr' : r'.Agrees allowed Pay (s.flowKey f)) : Intact allowed Pay t := by
  refine hI.transfer hk hk' hkk (fun q hq _ h₀ => ?_) fun q hq hs => ?_
  · by_cases hqf : q = f
    · subst hqf
      have h := congrFun hv q
      rw [Function.update_same, flowView_of_live _ hq] at h
      exact hr'.of_data (Option.some.inj h)
    · exact h₀.of_data (flow_data_of_view (by rw [hv, Function.update_noteq hqf]) hq).2
  · have hqf : q ≠ f := fun h => by subst h; simp [hs] at hf
    have := (flow_data_of_view (s := s) (by rw [hv, Function.update_noteq hqf]) hq).1
    simp [hs] at this

theorem map_flows_of_live {α : Type} (F : Flow → α) {f : Ptr} (hf : (s.flows f).isSome) :
    (s.flows f).map F = some (F (s.flow f)) := by
  obtain ⟨r, hr⟩ := Option.isSome_iff_exists.1 hf
  simp [State.flow, hr]

end Transfer

/-! ## The flow a call stores into -/

theorem getD_find?_spec {l : List Ptr} {P : Ptr → Bool} (h : (l.find? P).getD 0 ≠ 0) :
    P ((l.find? P).getD 0) = true := by
  cases hf : l.find? P with
  | none => simp [hf] at h
  | some x => exact List.find?_some hf

/-- A call from `s` for `a` that gets through the sweep, in `s₃`, and to its flow lookup, which
returns `f` in `s₄`: both states are well linked and keyed, with the keys of `s`, and the sweep
kept the flows of `s`; the calling source `src` is live in `s₃` with the address of `a`, and a
flow the lookup returns is live, of the source `src`, and filed under the key of `a`. -/
structure AtStore (B : Build) (s : State) (a : Packet) (src : Ptr) (s₃ s₄ : State) (f : Ptr) : Prop where
  realizes₃ : ∃ g, Realizes s₃.skeleton g
  realizes₄ : ∃ g, Realizes s₄.skeleton g
  keyed₃ : Keyed s₃
  keyed₄ : Keyed s₄
  source₃ : (s₃.sources src).isSome ∧ (s₃.source src).ipv6Srcaddr = a.ip6Src
  keys₃ : KeysKept s s₃
  keys₄ : KeysKept s₃ s₄
  flows₃ : FlowsKept s s₃
  live : f ≠ 0 → (s₄.flows f).isSome
  source : f ≠ 0 → (s₄.flow f).source = src
  key : f ≠ 0 → s₄.flowKey f = a.key

section Store

variable (B : Build) {s t : State} {a : Packet} {m : Malloc}

/-- The source `find_or_create_source` returns, unless `NULL`, has the address it was asked for. -/
theorem addr_findOrCreateSource {addr : In6Addr} {ok : Bool} {src : Ptr}
    (h : findOrCreateSource B s addr ok = (t, src)) (h0 : src ≠ 0) : (t.source src).ipv6Srcaddr = addr := by
  unfold findOrCreateSource at h
  dsimp only at h
  split_ifs at h with h1 h2
  · cases h
    exact of_decide_eq_true (getD_find?_spec h1)
  · cases h
    exact absurd rfl h0
  · cases h
    have hv := congrFun (sourceView_createSource B sourceBlind_addr (s := s) addr) s.brk
    rw [Function.update_same] at hv
    exact (live_of_sourceView hv).2

/-- The flow `find_or_create_flow` returns, unless `NULL`, has the identification and the
destination it was asked for. -/
theorem key_findOrCreateFlow {src : Ptr} {id : UInt32} {dst : In6Addr} {now : UInt32} {ok : Bool}
    {f : Ptr} (h : findOrCreateFlow B s src id dst now ok = (t, f)) (h0 : f ≠ 0) :
    (t.flow f).id = id ∧ (t.flow f).dstaddr = dst := by
  unfold findOrCreateFlow at h
  dsimp only at h
  split_ifs at h with h1 h2
  · cases h
    have := of_decide_eq_true (getD_find?_spec h1)
    exact ⟨this.1.symm, this.2.symm⟩
  · cases h
    exact absurd rfl h0
  · cases h
    have hv := congrFun (flowView_createFlow B flowBlind_key (s := s) src id dst now) s.brk
    rw [Function.update_same] at hv
    have := (live_of_flowView hv).2
    simp only [Flow.key, Prod.mk.injEq] at this
    exact ⟨this.2.1, this.2.2⟩

/-- How `storeFragment` can end: at the late-start screen, at a failed copy of the unfragmentable
part, at the screen for a second last fragment, after an insertion that completes nothing, or by
building the datagram of the flow the insertion completed. -/
theorem storeFragment_cases {src f : Ptr} {r : Option (List UInt8)} (h : storeFragment B s src f a m = (t, r)) :
    ((s.flow f).len ≠ 0 ∧ (s.flow f).len < a.offset ∧ t = s ∧ r = none) ∨ (t = deleteFlow B s f ∧ r = none) ∨
    ∃ s₁, (if (s.flow f).unfragmentable = none then storeUnfragmentable s src f a else s) = s₁ ∧
      ((a.moreFragments = 0 ∧ (s₁.flow f).len ≠ 0 ∧ t = s₁ ∧ r = none) ∨
       (¬(((insertIntoFlow s₁ src f a).flow f).len ≠ 0 ∧
          checkTrainOfContiguousFragments ((insertIntoFlow s₁ src f a).flow f).fragments) ∧
        t = insertIntoFlow s₁ src f a ∧ r = none) ∨
       (((insertIntoFlow s₁ src f a).flow f).len ≠ 0 ∧
        checkTrainOfContiguousFragments ((insertIntoFlow s₁ src f a).flow f).fragments ∧
        buildCompleteDatagram B (insertIntoFlow s₁ src f a) f m.datagram = (t, r))) := by
  unfold storeFragment at h
  split at h
  · cases h; exact .inl ⟨‹_ ∧ _›.1, ‹_ ∧ _›.2, rfl, rfl⟩
  split at h
  · cases h; exact .inr (.inl ⟨rfl, rfl⟩)
  refine .inr (.inr ⟨_, rfl, ?_⟩)
  generalize (if (s.flow f).unfragmentable = none then storeUnfragmentable s src f a else s) = s₁ at h ⊢
  dsimp only at h
  split at h
  · cases h; exact .inl ⟨‹_ ∧ _›.1, ‹_ ∧ _›.2, rfl, rfl⟩
  split at h
  · exact .inr (.inr ⟨‹_ ∧ _›.1, ‹_ ∧ _›.2, h⟩)
  · cases h; exact .inr (.inl ⟨‹¬_›, rfl, rfl⟩)

/-- `storeFragment` returns a datagram only by building it from the flow its insertion completed. -/
theorem storeFragment_some {src f : Ptr} {buf : List UInt8} (h : (storeFragment B s src f a m).2 = some buf) :
    ∃ s₁, (if (s.flow f).unfragmentable = none then storeUnfragmentable s src f a else s) = s₁ ∧
      ((insertIntoFlow s₁ src f a).flow f).len ≠ 0 ∧
      checkTrainOfContiguousFragments ((insertIntoFlow s₁ src f a).flow f).fragments ∧
      (buildCompleteDatagram B (insertIntoFlow s₁ src f a) f m.datagram).2 = some buf := by
  rcases storeFragment_cases B (Prod.mk.eta (p := storeFragment B s src f a m)).symm with
    ⟨-, -, -, hr⟩ | ⟨-, hr⟩ | ⟨s₁, hS, ⟨-, -, -, hr⟩ | ⟨-, -, hr⟩ | ⟨hlen, htrain, hb⟩⟩
  all_goals first | cases hr.symm.trans h | skip
  exact ⟨s₁, hS, hlen, htrain, by rw [hb]; exact h⟩

/-- Once `storeFragment` has stored the unfragmentable part, the flow holds one. -/
theorem unfragmentable_stored {src f : Ptr} {s₁ : State} (hf : (s.flows f).isSome)
    (hS : (if (s.flow f).unfragmentable = none then storeUnfragmentable s src f a else s) = s₁) :
    (s₁.flow f).unfragmentable ≠ none := by
  subst hS
  split
  · show ((s.modifyFlow f _).flow f).unfragmentable ≠ none
    rw [State.flow_modifyFlow hf, if_pos rfl]
    exact Option.some_ne_none _
  · assumption

/-- Storing the unfragmentable part leaves the declared length and the fragments alone. -/
theorem held_stored {src f : Ptr} {s₁ : State}
    (hS : (if (s.flow f).unfragmentable = none then storeUnfragmentable s src f a else s) = s₁) :
    (s₁.flow f).len = (s.flow f).len ∧ (s₁.flow f).fragments = (s.flow f).fragments := by
  subst hS
  split
  · cases h : s.flows f <;> simp [storeUnfragmentable, State.charge, State.flow, h]
  · exact ⟨rfl, rfl⟩

/-- Storing the unfragmentable part keeps every flow live that was. -/
theorem isSome_flows_stored {src f q : Ptr} {s₁ : State}
    (hS : (if (s.flow f).unfragmentable = none then storeUnfragmentable s src f a else s) = s₁) :
    (s₁.flows q).isSome = (s.flows q).isSome := by
  subst hS
  split
  · exact flows_isSome_of_skeleton (skeleton_storeUnfragmentable _ _ _)
  · rfl

theorem keyed_of_reachable {allowed : Op → Prop} (hs : Reachable B allowed s) :
    ∃ g, Realizes s.skeleton g ∧ Keyed s :=
  Keeps.of_reachable (keeps_keyed B) (keyed_enable B)
    (fun _ _ h => ⟨fun _ => ⟨h.row, h.addr, h.flow⟩, fun _ => ⟨h.row, h.addr, h.flow⟩,
      fun _ => ⟨h.row, h.addr, h.flow⟩⟩) hs

/-- A call from a reachable state that gets to its flow lookup finds or makes a live flow filed
under the key of its fragment. -/
theorem atStore {allowed : Op → Prop} {s₁ s₂ s₃ s₄ : State} {src f : Ptr} (hs : Reachable B allowed s)
    (hts : s.tableSize ≠ 0) (h₁ : findOrCreateSource B s a.ip6Src m.source = (s₁, src)) (h0 : src ≠ 0)
    (he : evictSource B s₁.brk s₁ src = .cont s₂) (hw : sweepTimers B s₂.brk s₂ src a.currentTime = .cont s₃)
    (h₄ : findOrCreateFlow B s₃ src a.identification a.ip6Dst a.currentTime m.flow = (s₄, f)) :
    AtStore B s a src s₃ s₄ f := by
  obtain ⟨g, hk, hkeyed⟩ := keyed_of_reachable B hs
  obtain ⟨⟨g₁, hk₁, hkeyed₁, hkk₁⟩, hlive₁⟩ := ((keeps_keyed B a.currentTime).and
    (keeps_keysKept B s a.currentTime)).findOrCreateSource hk ⟨hkeyed, KeysKept.refl s⟩ hts h₁
  have hsrc₁ := hlive₁ h0
  -- from the source lookup to the flow lookup, the keys of `s₁` stay
  have hI := (keeps_keyed B a.currentTime).and (keeps_keysKept B s₁ a.currentTime)
  obtain ⟨hh₂, hc₂⟩ := hI.evictSource s₁.brk hk₁ ⟨hkeyed₁, KeysKept.refl s₁⟩ hsrc₁
  rw [he] at hh₂
  obtain ⟨g₂, hk₂, hkeyed₂, hkk₂⟩ : Holds _ s₂ := hh₂
  obtain ⟨hh₃, hc₃⟩ := hI.sweepTimers a.currentTime s₂.brk hk₂ ⟨hkeyed₂, hkk₂⟩ (hc₂ s₂ he)
  rw [hw] at hh₃
  obtain ⟨g₃, hk₃, hkeyed₃, hkk₃⟩ : Holds _ s₃ := hh₃
  have hsrc₃ := hc₃ s₃ hw
  obtain ⟨⟨g₄, hk₄, hkeyed₄, hkk₄⟩, hf₄⟩ := ((keeps_keyed B a.currentTime).and
    (keeps_keysKept B s₃ a.currentTime)).findOrCreateFlow hk₃ ⟨hkeyed₃, KeysKept.refl s₃⟩ hsrc₃ h₄
  -- the source keeps the address it was found or made with
  have haddr₃ : (s₃.source src).ipv6Srcaddr = a.ip6Src :=
    (hkk₃.source_eq (hk₁.source_lt src (by simpa using hsrc₁)) hsrc₃).2.trans (addr_findOrCreateSource B h₁ h0)
  have hfk₁ : FlowsKept s s₁ := FlowsKept.of_eq (by
    simpa only [h₁] using flowView_findOrCreateSource B (V := Flow.data) (s := s) a.ip6Src m.source)
  refine ⟨⟨g₃, hk₃⟩, ⟨g₄, hk₄⟩, hkeyed₃, hkeyed₄, ⟨hsrc₃, haddr₃⟩, hkk₁.trans hkk₃, hkk₄,
    (hfk₁.trans (flowsKept_of_evictSource B he)).trans (flowsKept_of_sweepTimers B hw),
    fun hf0 => (hf₄ hf0).1, fun hf0 => (hf₄ hf0).2, fun hf0 => ?_⟩
  obtain ⟨hflive, hfsrc⟩ := hf₄ hf0
  have haddr : (s₄.source src).ipv6Srcaddr = a.ip6Src := by
    rw [(hkk₄.source_eq (hk₃.source_lt src (by simpa using hsrc₃)) (hfsrc ▸ hk₄.source_of_flow hflive)).2, haddr₃]
  obtain ⟨hid, hdst⟩ := key_findOrCreateFlow B h₄ hf0
  unfold State.flowKey Packet.key
  rw [hfsrc, haddr, hid, hdst]

/-- Before `storeFragment`, every flow still agrees with its key: the flows of `s` that live on
keep their data and their keys, and a new flow holds nothing. -/
theorem Intact.atStore {allowed : Op → Prop} {Pay : In6Addr × In6Addr × UInt32 → List UInt8} {g : Shape}
    {s₃ s₄ : State} {src f : Ptr} (hI : Intact allowed Pay s) (hk : Realizes s.skeleton g)
    (hA : AtStore B s a src s₃ s₄ f)
    (h₄ : findOrCreateFlow B s₃ src a.identification a.ip6Dst a.currentTime m.flow = (s₄, f)) :
    Intact allowed Pay s₄ := by
  obtain ⟨g₃, hk₃⟩ := hA.realizes₃
  obtain ⟨g₄, hk₄⟩ := hA.realizes₄
  have hI₃ := hI.of_flowsKept hk hk₃ hA.keys₃ hA.flows₃
  rcases flowView_findOrCreateFlow B (V := Flow.data) (s := s₃) src a.identification a.ip6Dst
    a.currentTime m.flow with h | h <;> rw [h₄] at h
  · exact hI₃.of_flowsKept hk₃ hk₄ hA.keys₄ (FlowsKept.of_eq h)
  · have hv := flowView_createFlow B flowBlind_data (s := s₃) src a.identification a.ip6Dst a.currentTime
    rw [← h] at hv
    refine hI₃.transfer hk₃ hk₄ hA.keys₄ (fun q hq hq₃ h₀ => h₀.of_data ?_) fun q hq hq₃ => ?_
    · have hne : q ≠ s₃.brk := by simpa using hk₃.flow_ne_brk (by simpa using hq₃)
      exact (flow_data_of_view (by rw [hv, Function.update_noteq hne]) hq).2
    · -- the one new flow is the record `find_or_create_flow` made, with nothing in it
      by_cases hne : q = s₃.brk
      · subst hne
        have hd := congrFun hv s₃.brk
        rw [Function.update_same] at hd
        exact (Flow.Agrees.empty rfl rfl rfl).of_data (live_of_flowView hd).2
      · have := (flow_data_of_view (s := s₃) (by rw [hv, Function.update_noteq hne]) hq).1
        simp [hq₃] at this

/-- Storing the unfragmentable part of a fragment of the flow's key keeps agreement. -/
theorem Intact.storeUnfragmentable {allowed : Op → Prop} {Pay : In6Addr × In6Addr × UInt32 → List UInt8}
    {g : Shape} {f : Ptr} (hI : Intact allowed Pay s) (hk : Realizes s.skeleton g) (hf : (s.flows f).isSome)
    (hkey : s.flowKey f = a.key) (hallowed : allowed (.manage a m)) :
    Intact allowed Pay (storeUnfragmentable s (s.flow f).source f a) := by
  refine hI.rewrite hk (by rw [skeleton_storeUnfragmentable]; exact hk)
    (keysKept_storeUnfragmentable _ f a) hf
    { s.flow f with unfragmentable := some (a.unfragmentable.set 6 a.nextHeader) } ?_
    ⟨(hI f hf).fragments, (hI f hf).len, fun u hu => ⟨a, m, hallowed, hkey.symm, (Option.some.inj hu).symm⟩⟩
  unfold Ipv6Reassembly.storeUnfragmentable
  rw [flowView_charge, flowView_modifyFlow', map_flows_of_live _ hf]
  rfl

/-- Inserting a fragment of the payload of the flow's key, past the size screen, keeps agreement:
the new bytes are a slice of the payload, and a last fragment declares the payload's length. -/
theorem Intact.insertIntoFlow {allowed : Op → Prop} {Pay : In6Addr × In6Addr × UInt32 → List UInt8}
    {g : Shape} {f : Ptr} (hI : Intact allowed Pay s) (hk : Realizes s.skeleton g) (hf : (s.flows f).isSome)
    (hkey : s.flowKey f = a.key) (ha : a.FragmentOf (Pay a.key)) (hend : a.end ≤ maxDatagramSize) :
    Intact allowed Pay (insertIntoFlow s (s.flow f).source f a) := by
  have h₀ := hI f hf
  rw [hkey] at h₀
  refine hI.rewrite hk (by rw [skeleton_insertIntoFlow]; exact hk)
    (keysKept_insertIntoFlow _ f a) hf
    { s.flow f with
      len := if a.moreFragments = 0 then a.end.toUInt16 else (s.flow f).len,
      fragments := (insertFragment (s.flow f).fragments a.fragmentable a.offset.toNat a.end).1 } ?_ ?_
  · rw [flowView_insertIntoFlow Flow.data, map_flows_of_live _ hf]
  rw [hkey]
  refine ⟨?_, ?_, h₀.unfragmentable⟩
  · rw [show a.fragmentable = _ from ha.slice.2]
    exact sliceOf_insertFragment h₀.fragments ⟨ha.slice.1, rfl⟩
  · dsimp only
    split
    · exact .inr ((UInt16.toNat_ofNat_of_lt (Nat.lt_of_le_of_lt hend (by decide))).trans (ha.last ‹_›))
    · exact h₀.len

/-- The state `storeFragment` goes on from once the unfragmentable part is stored agrees, and its
flow is live, under the key of `a`, with an unfragmentable part. -/
theorem Intact.stored {allowed : Op → Prop} {Pay : In6Addr × In6Addr × UInt32 → List UInt8}
    {g : Shape} {f : Ptr} {s₁ : State} (hI : Intact allowed Pay s) (hk : Realizes s.skeleton g)
    (hf : (s.flows f).isSome) (hkey : s.flowKey f = a.key) (hallowed : allowed (.manage a m))
    (hS : (if (s.flow f).unfragmentable = none then
      Ipv6Reassembly.storeUnfragmentable s (s.flow f).source f a else s) = s₁) :
    Realizes s₁.skeleton g ∧ Intact allowed Pay s₁ ∧ (s₁.flows f).isSome ∧ s₁.flowKey f = a.key ∧
      (s₁.flow f).source = (s.flow f).source ∧ (s₁.flow f).unfragmentable ≠ none := by
  subst hS
  split
  next hnone =>
    have hk₁ : Realizes (Ipv6Reassembly.storeUnfragmentable s (s.flow f).source f a).skeleton g := by
      rw [skeleton_storeUnfragmentable]; exact hk
    have hf₁ : ((Ipv6Reassembly.storeUnfragmentable s (s.flow f).source f a).flows f).isSome :=
      (isSome_flows_stored (if_pos hnone)).trans hf
    exact ⟨hk₁, hI.storeUnfragmentable hk hf hkey hallowed, hf₁,
      ((keysKept_storeUnfragmentable _ f a).flowKey_eq hk hk₁ hf hf₁).trans hkey,
      flow_source_of_skeleton (skeleton_storeUnfragmentable _ _ _), unfragmentable_stored hf (if_pos hnone)⟩
  next hsome => exact ⟨hk, hI, hf, hkey, rfl, hsome⟩

/-- Once `storeFragment` has inserted a fragment of the payload of the flow's key that passed the
size screen, the state agrees, and its flow is live under the key of `a`. -/
theorem Intact.inserted {allowed : Op → Prop} {Pay : In6Addr × In6Addr × UInt32 → List UInt8}
    {g : Shape} {f : Ptr} {s₁ : State} (hI : Intact allowed Pay s) (hk : Realizes s.skeleton g)
    (hf : (s.flows f).isSome) (hkey : s.flowKey f = a.key) (hallowed : allowed (.manage a m))
    (ha : a.FragmentOf (Pay a.key)) (hend : a.end ≤ maxDatagramSize)
    (hS : (if (s.flow f).unfragmentable = none then
      Ipv6Reassembly.storeUnfragmentable s (s.flow f).source f a else s) = s₁) :
    Realizes (Ipv6Reassembly.insertIntoFlow s₁ (s.flow f).source f a).skeleton g ∧
      Intact allowed Pay (Ipv6Reassembly.insertIntoFlow s₁ (s.flow f).source f a) ∧
      ((Ipv6Reassembly.insertIntoFlow s₁ (s.flow f).source f a).flows f).isSome ∧
      (Ipv6Reassembly.insertIntoFlow s₁ (s.flow f).source f a).flowKey f = a.key := by
  obtain ⟨hk₁, hI₁, hf₁, hkey₁, hsrc₁, -⟩ := hI.stored hk hf hkey hallowed hS
  have hk₂ : Realizes (Ipv6Reassembly.insertIntoFlow s₁ (s.flow f).source f a).skeleton g := by
    rw [skeleton_insertIntoFlow]; exact hk₁
  have hf₂ := (flows_isSome_of_skeleton (skeleton_insertIntoFlow (s := s₁) (s.flow f).source f a)).trans hf₁
  exact ⟨hk₂, hsrc₁ ▸ hI₁.insertIntoFlow hk₁ hf₁ hkey₁ ha hend, hf₂,
    ((keysKept_insertIntoFlow _ f a).flowKey_eq hk₁ hk₂ hf₁ hf₂).trans hkey₁⟩

/-- `storeFragment`, given a fragment of the payload of the flow's key that passed the size screen,
keeps agreement. -/
theorem Intact.storeFragment {allowed : Op → Prop} {Pay : In6Addr × In6Addr × UInt32 → List UInt8}
    {g : Shape} {src f : Ptr} (hI : Intact allowed Pay s) (hk : Realizes s.skeleton g) (hf : (s.flows f).isSome)
    (hsrc : (s.flow f).source = src) (hkey : s.flowKey f = a.key) (hallowed : allowed (.manage a m))
    (ha : a.FragmentOf (Pay a.key)) (hend : a.end ≤ maxDatagramSize) :
    Intact allowed Pay (Ipv6Reassembly.storeFragment B s src f a m).1 := by
  subst hsrc
  rcases hst : Ipv6Reassembly.storeFragment B s (s.flow f).source f a m with ⟨t, r⟩
  rcases storeFragment_cases B hst with ⟨-, -, rfl, -⟩ | ⟨rfl, -⟩ | ⟨s₁, hS, hrest⟩
  · exact hI
  · exact hI.of_flowsKept hk (hk.deleteFlow_state hf)
      ((keeps_keysKept B s a.currentTime).deleteFlow s g f hk (KeysKept.refl s) hf) (flowsKept_deleteFlow B)
  obtain ⟨hk₂, hI₂, hf₂, -⟩ := hI.inserted hk hf hkey hallowed ha hend hS
  rcases hrest with ⟨-, -, rfl, -⟩ | ⟨-, rfl, -⟩ | ⟨-, -, hb⟩
  · exact (hI.stored hk hf hkey hallowed hS).2.1
  · exact hI₂
  obtain ⟨g', hk', hkk'⟩ := (keeps_keysKept B _ a.currentTime).buildCompleteDatagram hk₂ (KeysKept.refl _) hf₂ m.datagram
  have := hI₂.of_flowsKept hk₂ hk' hkk' (flowsKept_buildCompleteDatagram B _)
  rwa [hb] at this

theorem unfragmentable_insertIntoFlow {src f : Ptr} (hf : (s.flows f).isSome) :
    ((insertIntoFlow s src f a).flow f).unfragmentable = (s.flow f).unfragmentable := by
  have h := congrFun (flowView_insertIntoFlow Flow.unfragmentable src a (s := s) (f := f)) f
  rw [Function.update_same, map_flows_of_live _ hf] at h
  exact (live_of_flowView h).2

/-- A datagram comes only out of a successful compaction within the size bound: the flow holds
exactly `len` bytes, and the datagram is its stored prefix, with the payload length the code
computes, followed by its fragments. -/
theorem buildCompleteDatagram_some {f : Ptr} {ok : Bool} {buf : List UInt8}
    (h : (buildCompleteDatagram B s f ok).2 = some buf) :
    (s.flow f).unfragmentableLength + (s.flow f).len.toNat ≤ maxDatagramSize ∧
      heldBytes (s.flow f).fragments = (s.flow f).len.toNat ∧
      buf = setPayloadLength ((s.flow f).unfragmentable.getD [])
        ((s.flow f).len.toNat.toUInt16 + (s.flow f).unfragmentableLength.toUInt16 - sizeofIp6Hdr.toUInt16) ++
        (s.flow f).fragments.flatMap (·.ptr) := by
  unfold buildCompleteDatagram at h
  dsimp only at h
  split_ifs at h with h1
  split at h
  · cases h
  · rename_i count payload hc
    unfold compactFragments at hc
    split_ifs at hc with hheld
    cases hc
    cases h
    exact ⟨by omega, hheld, rfl⟩

/-- A datagram `storeFragment` returns, from a state that agrees, is built from a flow that
agrees with the key of `a`, whose fragments are in order and form a train from offset `0`, and
which holds an unfragmentable part. -/
theorem Intact.storeFragment_datagram {allowed : Op → Prop} {Pay : In6Addr × In6Addr × UInt32 → List UInt8}
    {g : Shape} {src f : Ptr} {buf : List UInt8} (hI : Intact allowed Pay s) (hk : Realizes s.skeleton g)
    (hsorted : FragmentsSorted s) (hf : (s.flows f).isSome) (hsrc : (s.flow f).source = src)
    (hkey : s.flowKey f = a.key) (hallowed : allowed (.manage a m)) (ha : a.FragmentOf (Pay a.key))
    (hend : a.end ≤ maxDatagramSize) (h : (Ipv6Reassembly.storeFragment B s src f a m).2 = some buf) :
    ∃ r : Flow, r.Agrees allowed Pay a.key ∧ Sorted r.fragments ∧ r.len ≠ 0 ∧
      checkTrainOfContiguousFragments r.fragments = true ∧ r.unfragmentable ≠ none ∧
      r.unfragmentableLength + r.len.toNat ≤ maxDatagramSize ∧ heldBytes r.fragments = r.len.toNat ∧
      buf = setPayloadLength (r.unfragmentable.getD [])
        (r.len.toNat.toUInt16 + r.unfragmentableLength.toUInt16 - sizeofIp6Hdr.toUInt16) ++
        r.fragments.flatMap (·.ptr) := by
  subst hsrc
  obtain ⟨s₁, hS, hlen, htrain, hb⟩ := storeFragment_some B h
  have hsorted₁ : FragmentsSorted s₁ := by
    subst hS
    split
    · exact fragmentsSorted_storeUnfragmentable hsorted
    · exact hsorted
  obtain ⟨-, hI₂, hf₂, hkey₂⟩ := hI.inserted hk hf hkey hallowed ha hend hS
  obtain ⟨hle, hheld, rfl⟩ := buildCompleteDatagram_some B hb
  exact ⟨_, hkey₂ ▸ hI₂ f hf₂, (fragmentsSorted_insertIntoFlow hsorted₁).flow f, hlen, htrain,
    by rw [unfragmentable_insertIntoFlow ((isSome_flows_stored hS).trans hf)]; exact unfragmentable_stored hf hS,
    hle, hheld, rfl⟩

end Store

/-! ## Runs of honest senders -/

section Runs

variable (B : Build) {allowed : Op → Prop} {Pay : In6Addr × In6Addr × UInt32 → List UInt8}
  {s t : State} {a : Packet} {m : Malloc}

/-- A call with a fragment of the payload of its key, from a reachable state that agrees, keeps
agreement. -/
theorem Intact.manage {allowed' : Op → Prop} {r : Option (List UInt8)} (hI : Intact allowed Pay s)
    (hs : Reachable B allowed' s) (hallowed : allowed (.manage a m)) (ha : a.FragmentOf (Pay a.key))
    (h : manageIpv6Fragment B s a m = some (t, r)) : Intact allowed Pay t := by
  obtain ⟨g, hk⟩ := realizes_of_reachable hs
  rcases manageIpv6Fragment_cases B h with ⟨-, rfl, -⟩ | ⟨s₁, src, hend, hts, h₁, hcase⟩
  · exact hI
  obtain ⟨⟨g₁, hk₁, hkk₁⟩, hlive₁⟩ :=
    (keeps_keysKept B s a.currentTime).findOrCreateSource hk (KeysKept.refl s) hts h₁
  have hI₁ := hI.of_flowsKept hk hk₁ hkk₁ (FlowsKept.of_eq (by
    simpa only [h₁] using flowView_findOrCreateSource B (V := Flow.data) (s := s) a.ip6Src m.source))
  rcases hcase with ⟨-, rfl, -⟩ | ⟨h0, he, -⟩ | ⟨s₂, h0, he, hrest⟩
  · exact hI₁
  · obtain ⟨hh, -⟩ := (keeps_keysKept B s₁ a.currentTime).evictSource s₁.brk hk₁ (KeysKept.refl s₁) (hlive₁ h0)
    rw [he] at hh
    obtain ⟨g', hk', hkk'⟩ : Holds _ t := hh
    exact hI₁.of_flowsKept hk₁ hk' hkk' (flowsKept_of_evictSource B he)
  obtain ⟨hh₂, hc₂⟩ := (keeps_keysKept B s₁ a.currentTime).evictSource s₁.brk hk₁ (KeysKept.refl s₁) (hlive₁ h0)
  rw [he] at hh₂
  obtain ⟨g₂, hk₂, hkk₂⟩ : Holds _ s₂ := hh₂
  rcases hrest with ⟨hw, -⟩ | ⟨s₃, s₄, f, hw, h₄, hfin⟩
  · obtain ⟨hh, -⟩ := (keeps_keysKept B s₂ a.currentTime).sweepTimers a.currentTime s₂.brk hk₂
      (KeysKept.refl s₂) (hc₂ s₂ he)
    rw [hw] at hh
    obtain ⟨g', hk', hkk'⟩ : Holds _ t := hh
    exact (hI₁.of_flowsKept hk₁ hk₂ hkk₂ (flowsKept_of_evictSource B he)).of_flowsKept hk₂ hk' hkk'
      (flowsKept_of_sweepTimers B hw)
  have hA := Ipv6Reassembly.atStore B hs hts h₁ h0 he hw h₄
  have hI₄ := hI.atStore B hk hA h₄
  rcases hfin with ⟨-, rfl, -⟩ | ⟨hf0, hst⟩
  · exact hI₄
  · obtain ⟨g₄, hk₄⟩ := hA.realizes₄
    have := hI₄.storeFragment B hk₄ (hA.live hf0) (hA.source hf0) (hA.key hf0) hallowed ha (not_lt.1 hend)
    rwa [hst] at this

/-- When every fragment a run may deliver is a fragment of the payload of its key, every flow of
every reachable state agrees with the payload of its key. -/
theorem intact_of_reachable (honest : ∀ a m, allowed (.manage a m) → a.FragmentOf (Pay a.key))
    (hs : Reachable B allowed s) : Intact allowed Pay s := by
  induction hs with
  | enable n => intro f hf; simp [enableIpv6Fragmentation] at hf
  | @step s s' op r hs hop hstep ih =>
    cases op with
    | manage a m => exact ih.manage B hs hop (honest a m hop) hstep
    | setPerHostMemoryLimit n => cases hstep; exact ih
    | setTotalMemoryLimit n => cases hstep; exact ih
    | setReassemblyTimeout n => cases hstep; exact ih

/-- When every fragment a run may deliver is a fragment of the payload of its key, every datagram a
call returns, from a reachable state and for such a fragment, is the payload of the fragment's
key: behind the unfragmentable part of one of the fragments of that key, with its next header
written in and the payload length set as the code computes it. -/
theorem datagram_is_payload (honest : ∀ a m, allowed (.manage a m) → a.FragmentOf (Pay a.key))
    (hs : Reachable B allowed s) (hallowed : allowed (.manage a m)) {buf : List UInt8}
    (h : manageIpv6Fragment B s a m = some (t, some buf)) :
    ∃ b m', allowed (.manage b m') ∧ b.key = a.key ∧
      buf = setPayloadLength (b.unfragmentable.set 6 b.nextHeader)
        ((Pay a.key).length.toUInt16 + b.unfragmentable.length.toUInt16 - sizeofIp6Hdr.toUInt16) ++ Pay a.key := by
  obtain ⟨g, hk⟩ := realizes_of_reachable hs
  rcases manageIpv6Fragment_cases B h with ⟨-, -, h⟩ | ⟨s₁, src, hend, hts, h₁, hrest⟩
  · cases h
  rcases hrest with ⟨-, -, h⟩ | ⟨-, -, h⟩ | ⟨s₂, h0, he, hrest⟩
  · cases h
  · cases h
  rcases hrest with ⟨-, h⟩ | ⟨s₃, s₄, f, hw, h₄, hrest⟩
  · cases h
  rcases hrest with ⟨-, -, h⟩ | ⟨hf0, hst⟩
  · cases h
  have hA := atStore B hs hts h₁ h0 he hw h₄
  obtain ⟨g₄, hk₄⟩ := hA.realizes₄
  obtain ⟨r, hr, hsr, hlen, htrain, hu, -, hheld, hbuf⟩ :=
    ((intact_of_reachable B honest hs).atStore B hk hA h₄).storeFragment_datagram B hk₄
      (fragmentsSorted_before_store B (fragmentsSorted_of_reachable B hs) h₁ he hw h₄) (hA.live hf0)
      (hA.source hf0) (hA.key hf0) hallowed (honest a m hallowed) (not_lt.1 hend) (congrArg Prod.snd hst)
  obtain ⟨u, hu'⟩ := Option.ne_none_iff_exists'.1 hu
  obtain ⟨b, m', hb, hbk, rfl⟩ := hr.unfragmentable u hu'
  refine ⟨b, m', hb, hbk, ?_⟩
  -- the fragments form a train from `0` to the declared length, which is the payload's
  have hP : r.len.toNat = (Pay a.key).length := hr.len.resolve_left hlen
  have htr : trainEnd 0 r.fragments = (Pay a.key).length := by
    have := heldBytes_of_trainFrom htrain hsr.1
    omega
  rw [hbuf, flatMap_ptr_of_trainFrom htrain hsr.1 hr.fragments, htr, hP]
  simp [Flow.unfragmentableLength, hu']

/-- The payload `0, 1, …, 15` sent from `::1` as `[0, 8)` and then `[8, 16)`: the second fragment
returns it, behind the header of one of the two fragments. -/
theorem datagram_is_payload_two_fragments :
    ∃ s t buf, Reachable lp64 (Op.Honest fun _ => (List.range 16).map Nat.toUInt8) s ∧
      manageIpv6Fragment lp64 s (frag 1 1 ((List.range 16).map Nat.toUInt8) 8 16 0 0) .ok = some (t, some buf) ∧
      ∃ b m', Op.Honest (fun _ => (List.range 16).map Nat.toUInt8) (.manage b m') ∧
        b.key = (frag 1 1 ((List.range 16).map Nat.toUInt8) 8 16 0 0).key ∧
        buf = setPayloadLength (b.unfragmentable.set 6 b.nextHeader)
          (((List.range 16).map Nat.toUInt8).length.toUInt16 + b.unfragmentable.length.toUInt16 -
            sizeofIp6Hdr.toUInt16) ++ (List.range 16).map Nat.toUInt8 := by
  obtain ⟨s, -, hs, -, h⟩ := (Reachable.enable 1 :
      Reachable lp64 (Op.Honest fun _ => (List.range 16).map Nat.toUInt8) _).of_run lp64
    (looseLimits ++ [.manage (frag 1 1 ((List.range 16).map Nat.toUInt8) 0 8 1 0) .ok])
    (fun s _ => ((manageIpv6Fragment lp64 s (frag 1 1 ((List.range 16).map Nat.toUInt8) 8 16 0 0) .ok).map
      fun x => x.2.isSome) = some true) (by decide) (by decide)
  obtain ⟨⟨t, r⟩, ht, hr⟩ := Option.map_eq_some'.1 h
  obtain ⟨buf, rfl⟩ := Option.isSome_iff_exists.1 hr
  exact ⟨s, t, buf, hs, ht, @datagram_is_payload lp64 _
    (fun _ => (List.range 16).map Nat.toUInt8) _ _ _ _ (fun _ _ h => h) hs (by decide) _ ht⟩

end Runs

end Ipv6Reassembly
