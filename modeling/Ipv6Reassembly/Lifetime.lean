import Ipv6Reassembly.Ledger

/-!
# Lifetimes

A record of the engine keeps its key for as long as it lives: no routine rewrites the address of a
live source, and none relinks a live flow to another source or changes its identification or its
destination. `KeysKept s t` says so of the records at the addresses `s` has handed out: each is
gone in `t` or has the key it had in `s`. Records are only ever created at `brk`, so every routine
of a call keeps it (`keeps_keysKept`). With the structural invariant at both ends, the key of a
flow, that is the address of its source, its destination and its identification, which
`find_or_create_source` and `find_or_create_flow` look it up by, is the same in every later
state in which the flow still lives (`flow_keys_stable`).
-/

namespace Ipv6Reassembly

/-- The key `dpi_reordering_manage_ipv6_fragment` files a fragment under: the source address,
the destination address and the identification. -/
def Packet.key (a : Packet) : In6Addr × In6Addr × UInt32 := (a.ip6Src, a.ip6Dst, a.identification)

/-- The key of the flow at `f`: the address of its source, its destination and its
identification. -/
def State.flowKey (s : State) (f : Ptr) : In6Addr × In6Addr × UInt32 :=
  ((s.source (s.flow f).source).ipv6Srcaddr, (s.flow f).dstaddr, (s.flow f).id)

/-- Below `N`, every entry of `m` is gone or is the entry of `m₀`. -/
def KeptBelow {α : Type} (N : Nat) (m₀ m : Ptr → Option α) : Prop := ∀ p < N, m p = none ∨ m p = m₀ p

/-- Every record `s` holds at an address it has handed out is gone in `t` or has the same key:
sources their address, flows their source, identification and destination. -/
structure KeysKept (s t : State) : Prop where
  brk : s.brk ≤ t.brk
  sources : KeptBelow s.brk (s.sourceView Source.ipv6Srcaddr) (t.sourceView Source.ipv6Srcaddr)
  flows : KeptBelow s.brk (s.flowView Flow.key) (t.flowView Flow.key)

section KeptBelow

variable {α : Type} {N : Nat} {m₀ m : Ptr → Option α}

theorem KeptBelow.refl (N : Nat) (m : Ptr → Option α) : KeptBelow N m m := fun _ _ => .inr rfl

theorem KeptBelow.trans {m₁ : Ptr → Option α} {N' : Nat} (h₁ : KeptBelow N m₀ m₁) (h₂ : KeptBelow N' m₁ m)
    (hN : N ≤ N') : KeptBelow N m₀ m := fun p hp => by
  rcases h₂ p (Nat.lt_of_lt_of_le hp hN) with h | h
  · exact .inl h
  · rw [h]
    exact h₁ p hp

theorem KeptBelow.update_none (h : KeptBelow N m₀ m) (x : Ptr) : KeptBelow N m₀ (Function.update m x none) :=
  fun p hp => by
    rw [Function.update_apply]
    split
    · exact .inl rfl
    · exact h p hp

/-- A store at an address not yet handed out keeps what lies below. -/
theorem KeptBelow.update_of_le (h : KeptBelow N m₀ m) {x : Ptr} (hx : N ≤ x) (v : Option α) :
    KeptBelow N m₀ (Function.update m x v) := fun p hp => by
  rw [Function.update_noteq (Nat.ne_of_lt (Nat.lt_of_lt_of_le hp hx))]
  exact h p hp

/-- An entry kept below `N` that is still there is the old one. -/
theorem KeptBelow.eq_of_isSome (h : KeptBelow N m₀ m) {p : Ptr} (hp : p < N) (hs : (m p).isSome) :
    m p = m₀ p :=
  (h p hp).resolve_left fun h0 => by simp [h0] at hs

end KeptBelow

/-- Two invariants every call keeps are kept together. -/
theorem Keeps.and {B : Build} {I J : State → Shape → Prop} {now : UInt32} (hI : Keeps B I now)
    (hJ : Keeps B J now) : Keeps B (fun s g => I s g ∧ J s g) now where
  createSource s g addr hk h hi hf := ⟨hI.createSource s g addr hk h.1 hi hf, hJ.createSource s g addr hk h.2 hi hf⟩
  createFlow s g src id dst hk h hp hf :=
    ⟨hI.createFlow s g src id dst hk h.1 hp hf, hJ.createFlow s g src id dst hk h.2 hp hf⟩
  deleteFlow s g f hk h hf := ⟨hI.deleteFlow s g f hk h.1 hf, hJ.deleteFlow s g f hk h.2 hf⟩
  removeSource s g p hk h hp hnil := ⟨hI.removeSource s g p hk h.1 hp hnil, hJ.removeSource s g p hk h.2 hp hnil⟩
  storeUnfragmentable s g f a hk h hf hnone :=
    ⟨hI.storeUnfragmentable s g f a hk h.1 hf hnone, hJ.storeUnfragmentable s g f a hk h.2 hf hnone⟩
  insertIntoFlow s g f a hk h hf := ⟨hI.insertIntoFlow s g f a hk h.1 hf, hJ.insertIntoFlow s g f a hk h.2 hf⟩

section Keep

variable (B : Build) {s₀ s t u : State}

theorem KeysKept.refl (s : State) : KeysKept s s := ⟨le_rfl, KeptBelow.refl _ _, KeptBelow.refl _ _⟩

theorem KeysKept.trans (h₁ : KeysKept s t) (h₂ : KeysKept t u) : KeysKept s u :=
  ⟨h₁.brk.trans h₂.brk, h₁.sources.trans h₂.sources h₁.brk, h₁.flows.trans h₂.flows h₁.brk⟩

theorem keysKept_storeUnfragmentable (src f : Ptr) (a : Packet) :
    KeysKept s (storeUnfragmentable s src f a) := by
  refine ⟨le_rfl, ?_, ?_⟩
  · rw [sourceView_storeUnfragmentable (W := Source.ipv6Srcaddr) fun _ _ => rfl]
    exact KeptBelow.refl _ _
  · rw [flowView_key_storeUnfragmentable]
    exact KeptBelow.refl _ _

theorem keysKept_insertIntoFlow (src f : Ptr) (a : Packet) : KeysKept s (insertIntoFlow s src f a) := by
  refine ⟨by rw [brk_insertIntoFlow], ?_, ?_⟩
  · rw [sourceView_insertIntoFlow (W := Source.ipv6Srcaddr) fun _ _ => rfl]
    exact KeptBelow.refl _ _
  · rw [flowView_key_insertIntoFlow]
    exact KeptBelow.refl _ _

/-- Every routine of a call keeps the keys of the records `s₀` handed out. -/
theorem keeps_keysKept (s₀ : State) (now : UInt32) : Keeps B (fun s _ => KeysKept s₀ s) now where
  createSource s _ addr _ h _ _ := by
    refine ⟨h.brk.trans (by rw [brk_createSource]; exact Nat.le_succ _), ?_, ?_⟩
    · rw [sourceView_createSource B sourceBlind_addr]
      exact h.sources.update_of_le h.brk _
    · rw [flowView_createSource]
      exact h.flows
  createFlow s _ src id dst _ h _ _ := by
    refine ⟨h.brk.trans (by rw [brk_createFlow]; exact Nat.le_succ _), ?_, ?_⟩
    · rw [sourceView_createFlow B sourceBlind_addr fun _ _ => rfl]
      exact h.sources
    · rw [flowView_createFlow B flowBlind_key]
      exact h.flows.update_of_le h.brk _
  deleteFlow s _ f _ h _ := by
    refine ⟨by rw [brk_deleteFlow]; exact h.brk, ?_, ?_⟩
    · rw [sourceView_deleteFlow B sourceBlind_addr fun _ _ => rfl]
      exact h.sources
    · rw [flowView_deleteFlow B flowBlind_key]
      exact h.flows.update_none f
  removeSource s _ p _ h _ _ := by
    refine ⟨by rw [brk_removeSource]; exact h.brk, ?_, ?_⟩
    · rw [sourceView_removeSource B sourceBlind_addr]
      exact h.sources.update_none p
    · rw [flowView_removeSource]
      exact h.flows
  storeUnfragmentable _ _ _ _ _ h _ _ := h.trans (keysKept_storeUnfragmentable _ _ _)
  insertIntoFlow _ _ _ _ _ h _ := h.trans (keysKept_insertIntoFlow _ _ _)

/-- A call keeps the keys of the records of the state it starts from. -/
theorem KeysKept.manage {g : Shape} {a : Packet} {m : Malloc} {r : Option (List UInt8)}
    (hk : Realizes s.skeleton g) (h : manageIpv6Fragment B s a m = some (t, r)) : KeysKept s t :=
  let ⟨_, _, ht⟩ := (keeps_keysKept B s a.currentTime).manage hk (KeysKept.refl s) h
  ht

/-- A step keeps the keys of the records of the state it starts from. -/
theorem KeysKept.step {g : Shape} {op : Op} {r : Option (List UInt8)} (hk : Realizes s.skeleton g)
    (h : step B s op = some (t, r)) : KeysKept s t := by
  cases op with
  | manage a m => exact KeysKept.manage B hk h
  | setPerHostMemoryLimit n => cases h; exact ⟨le_rfl, KeptBelow.refl _ _, KeptBelow.refl _ _⟩
  | setTotalMemoryLimit n => cases h; exact ⟨le_rfl, KeptBelow.refl _ _, KeptBelow.refl _ _⟩
  | setReassemblyTimeout n => cases h; exact ⟨le_rfl, KeptBelow.refl _ _, KeptBelow.refl _ _⟩

/-- A state reachable by some operations is reachable by any. -/
theorem Reachable.any {allowed : Op → Prop} (hs : Reachable B allowed s) : Reachable B (fun _ => True) s := by
  induction hs with
  | enable n => exact .enable n
  | step _ _ h ih => exact ih.step trivial h

/-- A run from a reachable state keeps the keys of the records of that state. -/
theorem KeysKept.run : ∀ {ops : List Op} {s t : State} {rs : List (Option (List UInt8))},
    Reachable B (fun _ => True) s → Ipv6Reassembly.run B s ops = some (t, rs) → KeysKept s t
  | [], s, t, _, _, h => by cases h; exact KeysKept.refl s
  | op :: ops, s, t, rs, hs, h => by
    simp only [Ipv6Reassembly.run] at h
    split at h
    · cases h
    · rename_i u r hu
      obtain ⟨⟨t', rs'⟩, h', he⟩ := Option.map_eq_some'.1 h
      cases he
      obtain ⟨g, hk⟩ := realizes_of_reachable hs
      exact (KeysKept.step B hk hu).trans (KeysKept.run (hs.step trivial hu) h')

/-- A source below `s.brk` live in `t` was live in `s`, with the same address. -/
theorem KeysKept.source_eq (hkk : KeysKept s t) {p : Ptr} (hlt : p < s.brk) (hp : (t.sources p).isSome) :
    (s.sources p).isSome ∧ (t.source p).ipv6Srcaddr = (s.source p).ipv6Srcaddr := by
  have h := hkk.sources.eq_of_isSome hlt (by simpa [State.sourceView] using hp)
  rw [sourceView_of_live _ hp] at h
  obtain ⟨hs, he⟩ := live_of_sourceView h.symm
  exact ⟨hs, he.symm⟩

/-- A flow below `s.brk` live in `t` was live in `s`, with the same source, identification and
destination. -/
theorem KeysKept.flow_eq (hkk : KeysKept s t) {f : Ptr} (hlt : f < s.brk) (hf : (t.flows f).isSome) :
    (s.flows f).isSome ∧ (t.flow f).key = (s.flow f).key := by
  have h := hkk.flows.eq_of_isSome hlt (by simpa [State.flowView] using hf)
  rw [flowView_of_live _ hf] at h
  obtain ⟨hs, he⟩ := live_of_flowView h.symm
  exact ⟨hs, he.symm⟩

/-- Between two states whose links realize a shape, a flow live at both ends has the same key. -/
theorem KeysKept.flowKey_eq {g g' : Shape} (hkk : KeysKept s t) (hk : Realizes s.skeleton g)
    (hk' : Realizes t.skeleton g') {f : Ptr} (hf : (s.flows f).isSome) (hf' : (t.flows f).isSome) :
    t.flowKey f = s.flowKey f := by
  have h := (hkk.flow_eq (hk.flow_lt f (by simpa using hf)) hf').2
  simp only [Flow.key, Prod.mk.injEq] at h
  obtain ⟨hp, hid, hdst⟩ := h
  have hlive := hk.source_of_flow hf
  unfold State.flowKey
  rw [hp, hid, hdst, (hkk.source_eq (hk.source_lt _ (by simpa using hlive)) (hp ▸ hk'.source_of_flow hf')).2]

/-- Over every run from a reachable state, a source that lives at both ends has kept its
address, and a flow that lives at both ends has kept its key. -/
theorem flow_keys_stable {allowed : Op → Prop} {ops : List Op} {rs : List (Option (List UInt8))}
    (hs : Reachable B allowed s) (hrun : Ipv6Reassembly.run B s ops = some (t, rs)) :
    (∀ p, (s.sources p).isSome → (t.sources p).isSome →
      (t.source p).ipv6Srcaddr = (s.source p).ipv6Srcaddr) ∧
      ∀ f, (s.flows f).isSome → (t.flows f).isSome → t.flowKey f = s.flowKey f := by
  have hkk := KeysKept.run B (Reachable.any B hs) hrun
  obtain ⟨g, hk⟩ := realizes_of_reachable hs
  obtain ⟨g', hk'⟩ := realizes_of_reachable ((Reachable.any B hs).run B (fun _ _ => trivial) hrun)
  exact ⟨fun p hp hp' => (hkk.source_eq (hk.source_lt p (by simpa using hp)) hp').2,
    fun f hf hf' => hkk.flowKey_eq hk hk' hf hf'⟩

/-- After a fragment from `::1` opened the flow `2`, a fragment from `::2` and a second fragment
of the datagram from `::1` leave the flow `2` live, under the key it had. -/
theorem flow_keys_stable_two_sources :
    ∃ s t rs, Reachable lp64 Op.Allocates s ∧
      Ipv6Reassembly.run lp64 s [.manage (frag 2 1 (List.replicate 8 7) 0 8 1 0) .ok,
        .manage (frag 1 1 (List.replicate 16 7) 8 16 1 0) .ok] = some (t, rs) ∧
      (s.flows 2).isSome ∧ (t.flows 2).isSome ∧
      (∀ p, (s.sources p).isSome → (t.sources p).isSome →
        (t.source p).ipv6Srcaddr = (s.source p).ipv6Srcaddr) ∧
      ∀ f, (s.flows f).isSome → (t.flows f).isSome → t.flowKey f = s.flowKey f := by
  obtain ⟨s, -, hs, -, h2, hrun⟩ := (Reachable.enable 1 : Reachable lp64 Op.Allocates _).of_run lp64
    (looseLimits ++ [.manage (frag 1 1 (List.replicate 16 7) 0 8 1 0) .ok])
    (fun s _ => (s.flows 2).isSome ∧ (Ipv6Reassembly.run lp64 s
      [.manage (frag 2 1 (List.replicate 8 7) 0 8 1 0) .ok,
        .manage (frag 1 1 (List.replicate 16 7) 8 16 1 0) .ok]).map (fun x => (x.1.flows 2).isSome) = some true)
    (by decide) (by decide)
  obtain ⟨⟨t, rs⟩, ht, h2'⟩ := Option.map_eq_some'.1 hrun
  exact ⟨s, t, rs, hs, ht, h2, h2', flow_keys_stable lp64 hs ht⟩

end Keep

end Ipv6Reassembly
