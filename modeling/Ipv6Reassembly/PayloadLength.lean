import Ipv6Reassembly.Datagram

/-!
# The payload length of a returned datagram

`dpi_ipv6_fragmentation_build_complete_datagram` copies the stored unfragmentable part, appends
the compacted fragments and writes `count + unfragmentable_length − sizeof(struct ip6_hdr)` into
the payload-length field of the copied header, in network byte order (lines 466–469). The field
reads back as the value written (`payloadLength_setPayloadLength`).

A property of flow data that a new flow has, and that storing an unfragmentable part and
inserting a fragment keep (`StoreStable`), holds of every flow of every reachable state
(`allFlows_of_reachable`). One such property is that a flow holds the bytes its fields declare
(`FlowData.Sized`): a stored unfragmentable part is a copy of a packet's, so a whole fixed header
or more, and each fragment holds as many bytes as its interval is long. So every datagram a call
returns has the length its header declares (`datagram_length_field`): it holds the fixed header,
fits the maximum datagram size, and its payload-length field is its length less the fixed header.
-/

namespace Ipv6Reassembly

/-! ## The payload-length field -/

/-- The payload-length field of an IPv6 header, bytes 4 and 5 in network byte order: the value
`ntohs(ip6->ip6_plen)` reads. -/
def payloadLength (pkt : List UInt8) : Nat := (pkt.getD 4 0).toNat * 256 + (pkt.getD 5 0).toNat

@[simp]
theorem length_setPayloadLength (hdr : List UInt8) (v : UInt16) :
    (setPayloadLength hdr v).length = hdr.length := by
  simp [setPayloadLength]

theorem toNat_shiftRight_eight (v : UInt16) : (v >>> 8).toNat = v.toNat / 256 := by
  show (v.toBitVec >>> (UInt16.mod 8 16).toBitVec).toNat = v.toNat / 256
  rw [BitVec.ushiftRight_eq', BitVec.toNat_ushiftRight, Nat.shiftRight_eq_div_pow]
  rfl

/-- The field `setPayloadLength` writes into a header of six bytes or more reads back as the value
written, whatever follows the header. -/
theorem payloadLength_setPayloadLength {hdr : List UInt8} (h : 6 ≤ hdr.length) (v : UInt16)
    (rest : List UInt8) : payloadLength (setPayloadLength hdr v ++ rest) = v.toNat := by
  have hl := length_setPayloadLength hdr v
  have h4 : (setPayloadLength hdr v ++ rest)[4]? = some (v >>> 8).toUInt8 := by
    rw [List.getElem?_append_left (by omega)]
    simp [setPayloadLength, List.getElem?_set]
    omega
  have h5 : (setPayloadLength hdr v ++ rest)[5]? = some v.toUInt8 := by
    rw [List.getElem?_append_left (by omega)]
    simp [setPayloadLength, List.getElem?_set]
    omega
  unfold payloadLength
  rw [List.getD_eq_getElem?_getD, List.getD_eq_getElem?_getD, h4, h5, Option.getD_some, Option.getD_some]
  show (v >>> 8).toNat % 256 * 256 + v.toNat % 256 = v.toNat
  have : v.toNat < 65536 := v.toNat_lt_size
  rw [toNat_shiftRight_eight]
  omega

example : payloadLength (setPayloadLength (List.replicate 40 0) 1234 ++ [1, 2]) = 1234 := by decide

/-- The value the code writes, `count + unfragmentable_length − sizeof(struct ip6_hdr)` in 16 bits,
is exact when the datagram fits the maximum size and holds the fixed header. -/
theorem toNat_payloadLengthValue {count len : Nat} (h : len + count ≤ maxDatagramSize)
    (hlen : sizeofIp6Hdr ≤ len) :
    (count.toUInt16 + len.toUInt16 - sizeofIp6Hdr.toUInt16).toNat = count + len - sizeofIp6Hdr := by
  show (BitVec.ofNat 16 count + BitVec.ofNat 16 len - BitVec.ofNat 16 sizeofIp6Hdr).toNat = _
  rw [BitVec.toNat_sub, BitVec.toNat_add]
  simp only [BitVec.toNat_ofNat]
  unfold maxDatagramSize sizeofIp6Hdr at *
  omega

/-! ## Properties of flow data that every run keeps -/

/-- `P` is a property of flow data that a new flow has, and that storing the unfragmentable part of
`a` and inserting the fragment `a` keep. -/
structure StoreStable (P : FlowData → Prop) (a : Packet) : Prop where
  new : ∀ id dst x, P ⟨none, 0, id, dst, [], x⟩
  unfragmentable : ∀ r : Flow, P r.data →
    P { r with unfragmentable := some (a.unfragmentable.set 6 a.nextHeader) }.data
  insert : ∀ r : Flow, P r.data →
    P { r with
      len := if a.moreFragments = 0 then a.end.toUInt16 else r.len,
      fragments := (insertFragment r.fragments a.fragmentable a.offset.toNat a.end).1 }.data

section Stable

variable (B : Build) {P : FlowData → Prop} {s t : State} {a : Packet} {m : Malloc}

theorem State.AllFlows.flow (hs : s.AllFlows P) {f : Ptr} (hf : (s.flows f).isSome) : P (s.flow f).data :=
  hs f _ (flowView_of_live _ hf)

theorem allFlows_stored (hu : ∀ r : Flow, P r.data →
      P { r with unfragmentable := some (a.unfragmentable.set 6 a.nextHeader) }.data)
    (hs : s.AllFlows P) {src f : Ptr} {s₁ : State}
    (hS : (if (s.flow f).unfragmentable = none then storeUnfragmentable s src f a else s) = s₁) :
    s₁.AllFlows P := by
  subst hS
  split
  · refine allFlows_update (flowView_modifyFlow' _) hs fun d hd => ?_
    obtain ⟨r, hr, rfl⟩ := Option.map_eq_some'.1 hd
    exact hu r (hs f r.data (by simp [State.flowView, hr]))
  · exact hs

theorem allFlows_insertIntoFlow (hP : StoreStable P a) (hs : s.AllFlows P) (src f : Ptr) :
    (insertIntoFlow s src f a).AllFlows P := by
  refine allFlows_update (flowView_insertIntoFlow Flow.data src a) hs fun d hd => ?_
  obtain ⟨r, hr, rfl⟩ := Option.map_eq_some'.1 hd
  exact hP.insert r (hs f r.data (by simp [State.flowView, hr]))

theorem allFlows_storeFragment (hP : StoreStable P a) (hs : s.AllFlows P) {src f : Ptr}
    {r : Option (List UInt8)} (h : storeFragment B s src f a m = (t, r)) : t.AllFlows P := by
  rcases storeFragment_cases B h with ⟨-, -, rfl, -⟩ | ⟨rfl, -⟩ | ⟨s₁, hS, hrest⟩
  · exact hs
  · exact (flowsKept_deleteFlow B).allFlows hs
  have hs₁ := allFlows_stored hP.unfragmentable hs hS
  rcases hrest with ⟨-, -, rfl, -⟩ | ⟨-, rfl, -⟩ | ⟨-, -, hb⟩
  · exact hs₁
  · exact allFlows_insertIntoFlow hP hs₁ src f
  · have := (flowsKept_buildCompleteDatagram B (f := f) m.datagram).allFlows (allFlows_insertIntoFlow hP hs₁ src f)
    rwa [hb] at this

/-- A call keeps a property of flow data that a new flow has, when `storeFragment`, reached
through the lookups, keeps it. -/
theorem allFlows_manageIpv6Fragment_of (hnew : ∀ id dst x, P ⟨none, 0, id, dst, [], x⟩) (hs : s.AllFlows P)
    (hstore : ∀ {s₁ s₂ s₃ s₄ : State} {src f : Ptr} {t : State} {r : Option (List UInt8)},
      s.tableSize ≠ 0 → findOrCreateSource B s a.ip6Src m.source = (s₁, src) → src ≠ 0 →
      evictSource B s₁.brk s₁ src = .cont s₂ → sweepTimers B s₂.brk s₂ src a.currentTime = .cont s₃ →
      findOrCreateFlow B s₃ src a.identification a.ip6Dst a.currentTime m.flow = (s₄, f) → f ≠ 0 →
      ¬ maxDatagramSize < a.end → s₄.AllFlows P → storeFragment B s₄ src f a m = (t, r) → t.AllFlows P)
    {r : Option (List UInt8)} (h : manageIpv6Fragment B s a m = some (t, r)) : t.AllFlows P := by
  rcases manageIpv6Fragment_cases B h with ⟨-, rfl, -⟩ | ⟨s₁, src, hend, hts, h₁, hrest⟩
  · exact hs
  have hs₁ : s₁.AllFlows P := by
    have := flowView_findOrCreateSource B (V := Flow.data) a.ip6Src m.source (s := s)
    rw [h₁] at this
    exact (FlowsKept.of_eq this).allFlows hs
  rcases hrest with ⟨-, rfl, -⟩ | ⟨-, he, -⟩ | ⟨s₂, h0, he, hrest⟩
  · exact hs₁
  · exact (flowsKept_of_evictSource B he).allFlows hs₁
  rcases hrest with ⟨hw, -⟩ | ⟨s₃, s₄, f, hw, h₄, hrest⟩
  · exact (flowsKept_of_sweepTimers B hw).allFlows ((flowsKept_of_evictSource B he).allFlows hs₁)
  have hs₄ := allFlows_before_store B hnew hs h₁ he hw h₄
  rcases hrest with ⟨-, rfl, -⟩ | ⟨hf0, hst⟩
  · exact hs₄
  · exact hstore hts h₁ h0 he hw h₄ hf0 hend hs₄ hst

theorem allFlows_manageIpv6Fragment (hP : StoreStable P a) (hs : s.AllFlows P) {r : Option (List UInt8)}
    (h : manageIpv6Fragment B s a m = some (t, r)) : t.AllFlows P :=
  allFlows_manageIpv6Fragment_of B hP.new hs (fun _ _ _ _ _ _ _ _ hs₄ hst => allFlows_storeFragment B hP hs₄ hst) h

/-- A property of flow data that every fragment's store keeps holds of every flow of every
reachable state. -/
theorem allFlows_of_reachable (hP : ∀ a, StoreStable P a) {allowed : Op → Prop}
    (hs : Reachable B allowed s) : s.AllFlows P := by
  induction hs with
  | enable n => intro q d hq; cases hq
  | @step _ _ op _ _ _ hstep ih =>
    cases op with
    | manage a m => exact allFlows_manageIpv6Fragment B (hP a) ih hstep
    | setPerHostMemoryLimit n => cases hstep; exact ih
    | setTotalMemoryLimit n => cases hstep; exact ih
    | setReassemblyTimeout n => cases hstep; exact ih

end Stable

/-! ## Flows hold what they declare -/

/-- The bytes a flow holds have the sizes its fields declare: a stored unfragmentable part is a
whole fixed header or more, and each fragment holds as many bytes as its interval is long. -/
structure FlowData.Sized (d : FlowData) : Prop where
  unfragmentable : ∀ u, d.unfragmentable = some u → sizeofIp6Hdr ≤ u.length
  fragments : ∀ fr ∈ d.fragments, fr.ptr.length = fr.end - fr.offset

theorem length_ptr_of_mem_trim {o e : Nat} {f g : Fragment} (hf : f.ptr.length = f.end - f.offset)
    (hg : g ∈ trim o e f) : g.ptr.length = g.end - g.offset := by
  rcases mem_trim.1 hg with ⟨-, rfl⟩ | ⟨-, rfl⟩ <;> simp only [List.length_take, List.length_drop] <;> omega

/-- Insertion keeps every fragment holding as many bytes as its interval is long. -/
theorem length_ptr_insertFragment {fs : List Fragment} {data : List UInt8} {o e : Nat}
    (hfs : ∀ f ∈ fs, f.ptr.length = f.end - f.offset) (hd : data.length = e - o) :
    ∀ g ∈ (insertFragment fs data o e).1, g.ptr.length = g.end - g.offset := fun g hg => by
  rcases mem_insertFragment.1 hg with rfl | ⟨f, hf, hgf⟩
  · exact hd
  · exact length_ptr_of_mem_trim (hfs f hf) hgf

/-- Fragments that each hold as many bytes as their interval is long hold `heldBytes` bytes. -/
theorem length_flatMap_ptr {fs : List Fragment} (h : ∀ f ∈ fs, f.ptr.length = f.end - f.offset) :
    (fs.flatMap (·.ptr)).length = heldBytes fs := by
  induction fs with
  | nil => rfl
  | cons f fs ih =>
    rw [List.flatMap_cons, List.length_append, heldBytes_cons, h f (List.mem_cons_self _ _),
      ih fun g hg => h g (List.mem_cons_of_mem _ hg)]

theorem storeStable_sized (a : Packet) : StoreStable FlowData.Sized a where
  new _ _ _ := ⟨fun _ h => Option.noConfusion h, fun _ h => absurd h (List.not_mem_nil _)⟩
  unfragmentable _ hr := ⟨fun u hu => (Option.some.inj hu) ▸ (List.length_set _ _ _).symm ▸ a.unfragmentable_size.1,
    hr.fragments⟩
  insert _ hr := ⟨hr.unfragmentable, length_ptr_insertFragment hr.fragments (by unfold Packet.end; omega)⟩

/-- In every reachable state every flow holds the bytes its fields declare. -/
theorem sized_of_reachable (B : Build) {allowed : Op → Prop} {s : State} (hs : Reachable B allowed s) :
    s.AllFlows FlowData.Sized :=
  allFlows_of_reachable B storeStable_sized hs

/-! ## The datagrams -/

section Datagrams

variable (B : Build) {s t : State} {a : Packet} {m : Malloc}

/-- A datagram built from a flow that holds what it declares and has an unfragmentable part holds
the fixed header, fits the maximum size, and declares its own payload length. -/
theorem datagram_of_sized {f : Ptr} {ok : Bool} {buf : List UInt8} (hd : (s.flow f).data.Sized)
    (hu : (s.flow f).unfragmentable ≠ none) (h : (buildCompleteDatagram B s f ok).2 = some buf) :
    sizeofIp6Hdr ≤ buf.length ∧ buf.length ≤ maxDatagramSize ∧
      payloadLength buf = buf.length - sizeofIp6Hdr := by
  obtain ⟨hle, hheld, rfl⟩ := buildCompleteDatagram_some B h
  obtain ⟨u, hu⟩ := Option.ne_none_iff_exists'.1 hu
  have h40 : sizeofIp6Hdr ≤ u.length := hd.unfragmentable u hu
  have hlen : ((s.flow f).fragments.flatMap (·.ptr)).length = (s.flow f).len.toNat :=
    (length_flatMap_ptr hd.fragments).trans hheld
  have hul : (s.flow f).unfragmentableLength = u.length := by simp [Flow.unfragmentableLength, hu]
  rw [hul] at hle ⊢
  rw [hu, Option.getD_some, List.length_append, length_setPayloadLength, hlen,
    payloadLength_setPayloadLength (le_trans (by decide) h40), toNat_payloadLengthValue (by omega) h40]
  refine ⟨by omega, by omega, by omega⟩

/-- Every datagram a call returns, from a reachable state, holds the fixed IPv6 header, fits the
maximum datagram size, and its payload-length field is its length less the fixed header. -/
theorem datagram_length_field {allowed : Op → Prop} {buf : List UInt8} (hs : Reachable B allowed s)
    (h : manageIpv6Fragment B s a m = some (t, some buf)) :
    sizeofIp6Hdr ≤ buf.length ∧ buf.length ≤ maxDatagramSize ∧
      payloadLength buf = buf.length - sizeofIp6Hdr := by
  rcases manageIpv6Fragment_cases B h with ⟨-, -, h⟩ | ⟨s₁, src, -, hts, h₁, hrest⟩
  · cases h
  rcases hrest with ⟨-, -, h⟩ | ⟨-, -, h⟩ | ⟨s₂, h0, he, hrest⟩
  · cases h
  · cases h
  rcases hrest with ⟨-, h⟩ | ⟨s₃, s₄, f, hw, h₄, hrest⟩
  · cases h
  rcases hrest with ⟨-, -, h⟩ | ⟨hf0, hst⟩
  · cases h
  have hf := (atStore B hs hts h₁ h0 he hw h₄).live hf0
  have hs₄ := allFlows_before_store B (storeStable_sized a).new (sized_of_reachable B hs) h₁ he hw h₄
  -- the datagram is built from the flow once the fragment is in
  obtain ⟨s₅, hS, -, -, hb⟩ := storeFragment_some B (congrArg Prod.snd hst)
  have hf₅ := (isSome_flows_stored hS).trans hf
  have hf₆ := (flows_isSome_of_skeleton (skeleton_insertIntoFlow (s := s₅) src f a)).trans hf₅
  refine datagram_of_sized B ?_ ?_ hb
  · exact (allFlows_insertIntoFlow (storeStable_sized a) (allFlows_stored (storeStable_sized a).unfragmentable hs₄ hS) src f).flow hf₆
  · rw [unfragmentable_insertIntoFlow hf₅]
    exact unfragmentable_stored hf hS

/-- The payload `0, 1, …, 15` sent from `::1` as `[0, 8)` and then `[8, 16)`: the second fragment
returns a datagram of 56 bytes whose header declares 16 bytes of payload. -/
theorem datagram_length_field_two_fragments :
    ∃ s t buf, Reachable lp64 Op.Allocates s ∧
      manageIpv6Fragment lp64 s (frag 1 1 ((List.range 16).map Nat.toUInt8) 8 16 0 0) .ok = some (t, some buf) ∧
      sizeofIp6Hdr ≤ buf.length ∧ buf.length ≤ maxDatagramSize ∧
      payloadLength buf = buf.length - sizeofIp6Hdr := by
  obtain ⟨s, -, hs, -, h⟩ := (Reachable.enable 1 : Reachable lp64 Op.Allocates _).of_run lp64
    (looseLimits ++ [.manage (frag 1 1 ((List.range 16).map Nat.toUInt8) 0 8 1 0) .ok])
    (fun s _ => ((manageIpv6Fragment lp64 s (frag 1 1 ((List.range 16).map Nat.toUInt8) 8 16 0 0) .ok).map
      fun x => x.2.isSome) = some true) (by decide) (by decide)
  obtain ⟨⟨t, r⟩, ht, hr⟩ := Option.map_eq_some'.1 h
  obtain ⟨buf, rfl⟩ := Option.isSome_iff_exists.1 hr
  exact ⟨s, t, buf, hs, ht, datagram_length_field lp64 hs ht⟩

end Datagrams

end Ipv6Reassembly
