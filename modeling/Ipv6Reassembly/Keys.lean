import Ipv6Reassembly.Frame
import Ipv6Reassembly.Invariant

/-!
# Keys

`find_or_create_source` looks a source up by its address, on the chain of the bucket the address
hashes to, and `find_or_create_flow` looks a flow up by `(id, dstaddr)` on the list of its source.
`Keyed s` says that every live source has the row its address hashes to, and that no key is held
twice: no two sources share an address, and no two flows of one source share `(id, dstaddr)`.
Every call keeps it (`keeps_keyed`), since a record is created only after the walk found none
with its key. With the structural invariant, the two lookups are then exact in every reachable
state (`keys_of_reachable`): they return the record with the key whenever there is one, and
create one only when there is none.
-/

namespace Ipv6Reassembly

/-- The address of a source and the row it was filed under. -/
def Source.key (r : Source) : In6Addr × UInt16 := (r.ipv6Srcaddr, r.row)

/-- The key of a flow: its source and `(id, dstaddr)`. -/
def Flow.key (r : Flow) : Ptr × UInt32 × In6Addr := (r.source, r.id, r.dstaddr)

theorem sourceBlind_key : SourceBlind Source.key := fun _ _ _ _ => rfl

theorem sourceBlind_addr : SourceBlind Source.ipv6Srcaddr := fun _ _ _ _ => rfl

theorem flowBlind_key : FlowBlind Flow.key := fun _ _ _ _ _ _ => rfl

/-- No key is held at two addresses of `m`. -/
def KeysUnique {κ : Type} (m : Ptr → Option κ) : Prop :=
  ∀ p q k, m p = some k → m q = some k → p = q

/-- The keys of the engine: every live source has the row its address hashes to, no two sources
share an address, and no two flows share a source and `(id, dstaddr)`. -/
structure Keyed (s : State) : Prop where
  row : ∀ p v, s.sourceView Source.key p = some v → v.2.toNat = hashFunction s v.1
  addr : KeysUnique (s.sourceView Source.ipv6Srcaddr)
  flow : KeysUnique (s.flowView Flow.key)

section Maps

variable {κ : Type} {m : Ptr → Option κ} {x : Ptr}

theorem KeysUnique.update_none (h : KeysUnique m) (x : Ptr) : KeysUnique (Function.update m x none) := by
  intro p q k hp hq
  have hpx : p ≠ x := by rintro rfl; simp at hp
  have hqx : q ≠ x := by rintro rfl; simp at hq
  rw [Function.update_noteq hpx] at hp
  rw [Function.update_noteq hqx] at hq
  exact h p q k hp hq

/-- A key no address holds may be stored anywhere. -/
theorem KeysUnique.update_some (h : KeysUnique m) {k : κ} (hk : ∀ q, m q ≠ some k) (x : Ptr) :
    KeysUnique (Function.update m x (some k)) := by
  have hval : ∀ q k', Function.update m x (some k) q = some k' →
      (q = x ∧ k' = k) ∨ (q ≠ x ∧ m q = some k') := fun q k' hq => by
    by_cases hqx : q = x
    · subst hqx
      simp only [Function.update_same, Option.some.injEq] at hq
      exact .inl ⟨rfl, hq.symm⟩
    · exact .inr ⟨hqx, by rwa [Function.update_noteq hqx] at hq⟩
  intro p q k' hp hq
  rcases hval p k' hp with ⟨hpx, hkp⟩ | ⟨-, hp'⟩ <;> rcases hval q k' hq with ⟨hqx, hkq⟩ | ⟨-, hq'⟩
  · exact hpx.trans hqx.symm
  · exact absurd (hkp ▸ hq') (hk q)
  · exact absurd (hkq ▸ hp') (hk p)
  · exact h p q k' hp' hq'

theorem forall_update {P : κ → Prop} (h : ∀ q v, m q = some v → P v) {o : Option κ}
    (ho : ∀ v, o = some v → P v) : ∀ q v, Function.update m x o q = some v → P v := by
  intro q v hq
  by_cases hqx : q = x
  · subst hqx
    exact ho v (by simpa using hq)
  · exact h q v (by rwa [Function.update_noteq hqx] at hq)

end Maps

/-! ## The lookups -/

section Lookup

variable {s : State} {g : Shape}

theorem getD_find?_ne_zero {l : List Ptr} {P : Ptr → Bool} (h0 : 0 ∉ l) {q : Ptr} (hq : q ∈ l)
    (hP : P q) : (l.find? P).getD 0 ≠ 0 := by
  obtain ⟨x, hx⟩ := Option.isSome_iff_exists.1 (List.find?_isSome.2 ⟨q, hq, hP⟩)
  rw [hx]
  exact fun h => h0 (h ▸ List.mem_of_find?_eq_some hx)

/-- The first node of `l` with `P` is the only one. -/
theorem find?_eq_of_unique {l : List Ptr} {P : Ptr → Bool} {q : Ptr} (hq : q ∈ l) (hP : P q)
    (hu : ∀ x ∈ l, P x → x = q) : l.find? P = some q := by
  obtain ⟨x, hx⟩ := Option.isSome_iff_exists.1 (List.find?_isSome.2 ⟨q, hq, hP⟩)
  rw [hx, hu x (List.mem_of_find?_eq_some hx) (List.find?_some hx)]

theorem Realizes.zero_not_mem_chain (hk : Realizes s.skeleton g) {i : Nat}
    (hi : i < s.tableSize.toNat) : 0 ∉ g.chain i :=
  (hk.chains.seg i hi).ne_zero

theorem Realizes.zero_not_mem_flowsOf (hk : Realizes s.skeleton g) {p : Ptr}
    (hp : (s.sources p).isSome) : 0 ∉ g.flowsOf p :=
  (hk.lists.seg p (by simpa using hp)).ne_zero

/-- A live source is on the chain of the row it records. -/
theorem Realizes.mem_chain_row (hk : Realizes s.skeleton g) {p : Ptr} (hp : (s.sources p).isSome) :
    (s.source p).row.toNat < s.tableSize.toNat ∧ p ∈ g.chain (s.source p).row.toNat := by
  obtain ⟨i, hi, hpi⟩ := (hk.chains.live p).1 (by simpa using hp)
  have hrow : (s.source p).row.toNat = i := by
    simpa [skeleton_source] using hk.chains.row i hi p hpi
  rw [hrow]
  exact ⟨hi, hpi⟩

theorem sourceView_of_live {α : Type} (W : Source → α) {p : Ptr} (hp : (s.sources p).isSome) :
    s.sourceView W p = some (W (s.source p)) := by
  obtain ⟨r, hr⟩ := Option.isSome_iff_exists.1 hp
  simp [State.sourceView, State.source, hr]

theorem flowView_of_live {α : Type} (V : Flow → α) {f : Ptr} (hf : (s.flows f).isSome) :
    s.flowView V f = some (V (s.flow f)) := by
  obtain ⟨r, hr⟩ := Option.isSome_iff_exists.1 hf
  simp [State.flowView, State.flow, hr]

theorem live_of_sourceView {α : Type} {W : Source → α} {p : Ptr} {v : α}
    (h : s.sourceView W p = some v) : (s.sources p).isSome ∧ W (s.source p) = v := by
  obtain ⟨r, hr, rfl⟩ := Option.map_eq_some'.1 h
  simp [State.source, hr]

theorem live_of_flowView {α : Type} {V : Flow → α} {f : Ptr} {v : α}
    (h : s.flowView V f = some v) : (s.flows f).isSome ∧ V (s.flow f) = v := by
  obtain ⟨r, hr, rfl⟩ := Option.map_eq_some'.1 h
  simp [State.flow, hr]

/-- Under the keys, a live source is on the chain its address hashes to. -/
theorem Keyed.mem_chain (hs : Keyed s) (hk : Realizes s.skeleton g) {p : Ptr}
    (hp : (s.sources p).isSome) :
    hashFunction s (s.source p).ipv6Srcaddr < s.tableSize.toNat ∧
      p ∈ g.chain (hashFunction s (s.source p).ipv6Srcaddr) := by
  have hrow := hs.row p _ (sourceView_of_live Source.key hp)
  simp only [Source.key] at hrow
  rw [← hrow]
  exact hk.mem_chain_row hp

/-- The walk of `find_or_create_source` finds the source with the address, if there is one. -/
theorem Keyed.findSourceIn_eq (hs : Keyed s) (hk : Realizes s.skeleton g) {p : Ptr}
    (hp : (s.sources p).isSome) :
    findSourceIn s (s.source p).ipv6Srcaddr (s.table (hashFunction s (s.source p).ipv6Srcaddr)) = p := by
  obtain ⟨hi, hmem⟩ := hs.mem_chain hk hp
  unfold findSourceIn
  rw [← State.chain, hk.chain_eq hi, find?_eq_of_unique hmem (by simp) fun x hx hP => ?_]
  · rfl
  have hx : (s.sources x).isSome := hk.source_live hi hx
  exact hs.addr x p _ (sourceView_of_live _ hx) ((of_decide_eq_true hP).symm ▸ sourceView_of_live _ hp)

/-- The walk of `find_or_create_flow` finds the flow of the source with the key, if there is
one. -/
theorem Keyed.findFlowIn_eq (hs : Keyed s) (hk : Realizes s.skeleton g) {f : Ptr}
    (hf : (s.flows f).isSome) :
    findFlowIn s (s.flow f).id (s.flow f).dstaddr (s.source (s.flow f).source).flows = f := by
  have hp := hk.source_of_flow hf
  have hmem : f ∈ g.flowsOf (s.flow f).source := by
    simpa [skeleton_flow] using (hk.lists.live f (by simpa using hf)).2
  unfold findFlowIn
  rw [← State.flowsOf, hk.flowsOf_eq hp, find?_eq_of_unique hmem (by simp) fun x hx hP => ?_]
  · rfl
  obtain ⟨hx, hsrc⟩ := hk.flow_of_mem hp hx
  simp only [decide_eq_true_eq] at hP
  refine hs.flow x f _ (flowView_of_live _ hx) ?_
  rw [flowView_of_live _ hf, Flow.key, Flow.key, hsrc, hP.1, hP.2]

/-- No live source has an address the walk of `find_or_create_source` does not find. -/
theorem Keyed.not_mem_of_findSourceIn (hs : Keyed s) (hk : Realizes s.skeleton g) {addr : In6Addr}
    (h : findSourceIn s addr (s.table (hashFunction s addr)) = 0) :
    ∀ q, s.sourceView Source.ipv6Srcaddr q ≠ some addr := by
  intro q hq
  obtain ⟨hlive, rfl⟩ := live_of_sourceView hq
  rw [hs.findSourceIn_eq hk hlive] at h
  obtain ⟨hi, hmem⟩ := hs.mem_chain hk hlive
  exact hk.zero_not_mem_chain hi (h ▸ hmem)

/-- No live flow of `src` has a key the walk of `find_or_create_flow` does not find. -/
theorem Keyed.not_mem_of_findFlowIn (hs : Keyed s) (hk : Realizes s.skeleton g) {src : Ptr}
    {id : UInt32} {dst : In6Addr} (h : findFlowIn s id dst (s.source src).flows = 0) :
    ∀ q, s.flowView Flow.key q ≠ some (src, id, dst) := by
  intro q hq
  obtain ⟨hlive, hkey⟩ := live_of_flowView hq
  simp only [Flow.key, Prod.mk.injEq] at hkey
  obtain ⟨rfl, rfl, rfl⟩ := hkey
  have hmem : q ∈ g.flowsOf (s.flow q).source := by
    simpa [skeleton_flow] using (hk.lists.live q (by simpa using hlive)).2
  rw [hs.findFlowIn_eq hk hlive] at h
  exact hk.zero_not_mem_flowsOf (hk.source_of_flow hlive) (h ▸ hmem)

end Lookup

/-! ## Every call keeps the keys -/

section Keep

variable (B : Build) {s : State}

theorem hashFunction_congr {t : State} (h : t.tableSize.toNat = s.tableSize.toNat) :
    hashFunction t = hashFunction s :=
  funext fun _ => by rw [hashFunction, hashFunction, h]

theorem tableSize_createSource (addr : In6Addr) :
    (createSource B s addr).tableSize.toNat = s.tableSize.toNat := by
  simpa using congrArg Skeleton.tableSize (skeleton_createSource B (s := s) addr)

theorem tableSize_createFlow (src : Ptr) (id : UInt32) (dst : In6Addr) (now : UInt32) :
    (createFlow B s src id dst now).tableSize.toNat = s.tableSize.toNat := by
  simpa [Skeleton.pushFlow] using congrArg Skeleton.tableSize (skeleton_createFlow B (s := s) src id dst now)

theorem tableSize_removeSource (row : UInt16) (p : Ptr) :
    (removeSource B s row p).tableSize.toNat = s.tableSize.toNat := by
  simpa [Skeleton.removeSource] using congrArg Skeleton.tableSize (skeleton_removeSource B (s := s) row p)

theorem flowView_key_storeUnfragmentable (src f : Ptr) (a : Packet) :
    (storeUnfragmentable s src f a).flowView Flow.key = s.flowView Flow.key :=
  flowView_modifyFlow fun _ => rfl

theorem flowView_key_insertIntoFlow (src f : Ptr) (a : Packet) :
    (insertIntoFlow s src f a).flowView Flow.key = s.flowView Flow.key := by
  unfold insertIntoFlow
  dsimp only
  rw [flowView_release, flowView_charge, flowView_modifyFlow]
  · split
    · exact flowView_modifyFlow fun _ => rfl
    · rfl
  · exact fun _ => rfl

/-- Every call keeps the keys. -/
theorem keeps_keyed (now : UInt32) : Keeps B (fun s _ => Keyed s) now where
  createSource s g addr hk hs hi hfind := by
    refine ⟨?_, ?_, ?_⟩
    · rw [hashFunction_congr (tableSize_createSource B addr), sourceView_createSource B sourceBlind_key]
      exact forall_update hs.row fun v hv => by
        cases hv
        exact UInt16.toNat_ofNat_of_lt (hashFunction_lt s addr)
    · rw [sourceView_createSource B sourceBlind_addr]
      exact hs.addr.update_some (hs.not_mem_of_findSourceIn hk hfind) _
    · rw [flowView_createSource]
      exact hs.flow
  createFlow s g src id dst hk hs _ hfind := by
    refine ⟨?_, ?_, ?_⟩
    · rw [hashFunction_congr (tableSize_createFlow B src id dst now), sourceView_createFlow B sourceBlind_key fun _ _ => rfl]
      exact hs.row
    · rw [sourceView_createFlow B sourceBlind_addr fun _ _ => rfl]
      exact hs.addr
    · rw [flowView_createFlow B flowBlind_key]
      exact hs.flow.update_some (hs.not_mem_of_findFlowIn hk hfind) _
  deleteFlow s g f _ hs _ := by
    refine ⟨?_, ?_, ?_⟩
    · rw [hashFunction_congr (tableSize_deleteFlow B), sourceView_deleteFlow B sourceBlind_key fun _ _ => rfl]
      exact hs.row
    · rw [sourceView_deleteFlow B sourceBlind_addr fun _ _ => rfl]
      exact hs.addr
    · rw [flowView_deleteFlow B flowBlind_key]
      exact hs.flow.update_none _
  removeSource s g p _ hs _ _ := by
    refine ⟨?_, ?_, ?_⟩
    · rw [hashFunction_congr (tableSize_removeSource B _ p), sourceView_removeSource B sourceBlind_key]
      exact forall_update hs.row fun _ h => by cases h
    · rw [sourceView_removeSource B sourceBlind_addr]
      exact hs.addr.update_none _
    · rw [flowView_removeSource]
      exact hs.flow
  storeUnfragmentable s g f a _ hs _ _ := by
    refine ⟨?_, ?_, ?_⟩
    · rw [sourceView_storeUnfragmentable (W := Source.key) fun _ _ => rfl]
      exact hs.row
    · rw [sourceView_storeUnfragmentable (W := Source.ipv6Srcaddr) fun _ _ => rfl]
      exact hs.addr
    · rw [flowView_key_storeUnfragmentable]
      exact hs.flow
  insertIntoFlow s g f a _ hs _ := by
    have hts : (insertIntoFlow s (s.flow f).source f a).tableSize = s.tableSize := by
      unfold insertIntoFlow
      split <;> rfl
    refine ⟨?_, ?_, ?_⟩
    · rw [hashFunction_congr (congrArg UInt16.toNat hts), sourceView_insertIntoFlow (W := Source.key) fun _ _ => rfl]
      exact hs.row
    · rw [sourceView_insertIntoFlow (W := Source.ipv6Srcaddr) fun _ _ => rfl]
      exact hs.addr
    · rw [flowView_key_insertIntoFlow]
      exact hs.flow

end Keep

/-! ## The lookups in reachable states -/

/-- The lookups of the engine are exact: every live source is on the chain its address hashes
to, no key is held twice, and `find_or_create_source` and `find_or_create_flow` return the record
with the key when there is one and create a record only when there is none. -/
structure Indexed (B : Build) (s : State) : Prop where
  mem_chain : ∀ p, (s.sources p).isSome → p ∈ s.chain (hashFunction s (s.source p).ipv6Srcaddr)
  addr_unique : ∀ p q, (s.sources p).isSome → (s.sources q).isSome →
    (s.source p).ipv6Srcaddr = (s.source q).ipv6Srcaddr → p = q
  flow_unique : ∀ f f', (s.flows f).isSome → (s.flows f').isSome →
    (s.flow f).source = (s.flow f').source → (s.flow f).id = (s.flow f').id →
    (s.flow f).dstaddr = (s.flow f').dstaddr → f = f'
  source_found : ∀ p ok, (s.sources p).isSome →
    findOrCreateSource B s (s.source p).ipv6Srcaddr ok = (s, p)
  source_created : ∀ addr ok, 0 < s.tableSize.toNat →
    (∀ p, (s.sources p).isSome → (s.source p).ipv6Srcaddr ≠ addr) →
    findOrCreateSource B s addr ok = if ok then (createSource B s addr, s.brk) else (s, 0)
  flow_found : ∀ f now ok, (s.flows f).isSome →
    findOrCreateFlow B s (s.flow f).source (s.flow f).id (s.flow f).dstaddr now ok = (s, f)
  flow_created : ∀ src id dst now ok, (s.sources src).isSome →
    (∀ f, (s.flows f).isSome → (s.flow f).source = src → (s.flow f).id ≠ id ∨ (s.flow f).dstaddr ≠ dst) →
    findOrCreateFlow B s src id dst now ok = if ok then (createFlow B s src id dst now, s.brk) else (s, 0)

section Indexed

variable (B : Build) {s : State} {g : Shape}

theorem Realizes.source_ne_zero (hk : Realizes s.skeleton g) {p : Ptr} (hp : (s.sources p).isSome) :
    p ≠ 0 := by
  obtain ⟨hi, hmem⟩ := hk.mem_chain_row hp
  exact fun h => hk.zero_not_mem_chain hi (h ▸ hmem)

theorem Realizes.flow_ne_zero (hk : Realizes s.skeleton g) {f : Ptr} (hf : (s.flows f).isSome) :
    f ≠ 0 := by
  have hmem : f ∈ g.flowsOf (s.flow f).source := by
    simpa [skeleton_flow] using (hk.lists.live f (by simpa using hf)).2
  exact fun h => hk.zero_not_mem_flowsOf (hk.source_of_flow hf) (h ▸ hmem)

theorem Keyed.indexed (hs : Keyed s) (hk : Realizes s.skeleton g) : Indexed B s where
  mem_chain p hp := by
    obtain ⟨hi, hmem⟩ := hs.mem_chain hk hp
    rwa [hk.chain_eq hi]
  addr_unique p q hp hq h := hs.addr p q _ (sourceView_of_live _ hp) (h ▸ sourceView_of_live _ hq)
  flow_unique f f' hf hf' h₁ h₂ h₃ := hs.flow f f' _ (flowView_of_live _ hf)
    (by rw [flowView_of_live _ hf', Flow.key, Flow.key, h₁, h₂, h₃])
  source_found p ok hp := by
    unfold findOrCreateSource
    rw [hs.findSourceIn_eq hk hp, if_pos (hk.source_ne_zero hp)]
  source_created addr ok hts hnone := by
    have hi : hashFunction s addr < s.tableSize.toNat := Nat.mod_lt _ hts
    have h0 : findSourceIn s addr (s.table (hashFunction s addr)) = 0 := by
      unfold findSourceIn
      rw [← State.chain, hk.chain_eq hi, List.find?_eq_none.2 fun x hx hP =>
        hnone x (hk.source_live hi hx) (of_decide_eq_true hP)]
      rfl
    unfold findOrCreateSource
    rw [h0, if_neg (not_not.2 rfl)]
    cases ok <;> rfl
  flow_found f now ok hf := by
    unfold findOrCreateFlow
    rw [hs.findFlowIn_eq hk hf, if_pos (hk.flow_ne_zero hf)]
  flow_created src id dst now ok hp hnone := by
    have h0 : findFlowIn s id dst (s.source src).flows = 0 := by
      unfold findFlowIn
      rw [← State.flowsOf, hk.flowsOf_eq hp, List.find?_eq_none.2 fun x hx hP => ?_]
      · rfl
      obtain ⟨hx, hsrc⟩ := hk.flow_of_mem hp hx
      simp only [decide_eq_true_eq] at hP
      rcases hnone x hx hsrc with h | h
      · exact h hP.1.symm
      · exact h hP.2.symm
    unfold findOrCreateFlow
    rw [h0, if_neg (not_not.2 rfl)]
    cases ok <;> rfl

theorem keyed_enable (tableSize : UInt16) : Keyed (enableIpv6Fragmentation B tableSize) :=
  ⟨fun _ _ h => by simp [State.sourceView, enableIpv6Fragmentation] at h,
    fun _ _ _ h => by simp [State.sourceView, enableIpv6Fragmentation] at h,
    fun _ _ _ h => by simp [State.flowView, enableIpv6Fragmentation] at h⟩

/-- In every reachable state the lookups of the engine are exact. -/
theorem keys_of_reachable {allowed : Op → Prop} (hs : Reachable B allowed s) : Indexed B s := by
  obtain ⟨g, hk, hkeys⟩ := Keeps.of_reachable (keeps_keyed B) (keyed_enable B)
    (fun _ _ h => ⟨fun _ => ⟨h.row, h.addr, h.flow⟩, fun _ => ⟨h.row, h.addr, h.flow⟩,
      fun _ => ⟨h.row, h.addr, h.flow⟩⟩) hs
  exact hkeys.indexed B hk

/-- After two flows from `::1` and one from `::2`, both sources in the one bucket, the keys are
unique and every lookup finds its record. -/
theorem keys_two_sources :
    ∃ s, Reachable lp64 Op.Allocates s ∧ (s.sources 1).isSome ∧ (s.sources 4).isSome ∧ (s.flows 3).isSome ∧ (s.flows 5).isSome ∧
      Indexed lp64 s := by
  obtain ⟨s, -, hs, -, h⟩ := (Reachable.enable 1 : Reachable lp64 Op.Allocates _).of_run lp64
    (looseLimits ++ [.manage (frag 1 1 (List.replicate 8 7) 0 8 1 0) .ok,
      .manage (frag 1 2 (List.replicate 8 7) 0 8 1 0) .ok, .manage (frag 2 1 (List.replicate 8 7) 0 8 1 0) .ok])
    (fun s _ => (s.sources 1).isSome ∧ (s.sources 4).isSome ∧ (s.flows 3).isSome ∧ (s.flows 5).isSome) (by decide) (by decide)
  exact ⟨s, hs, h.1, h.2.1, h.2.2.1, h.2.2.2, keys_of_reachable lp64 hs⟩

end Indexed

end Ipv6Reassembly
