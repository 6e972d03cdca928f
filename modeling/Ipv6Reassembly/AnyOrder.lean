import Ipv6Reassembly.InOrder

/-!
# Datagrams sent in any order

A sender may cut a payload `P` into pieces that share no byte and together hold all of it
(`Cuts`), and the network may deliver them in any order. Sent to an idle engine with room for
them, the pieces are all taken in and the one that arrives last returns the datagram: the
unfragmentable part of the first one to arrive, with its payload length set, followed by `P`
(`any_order_delivery`).

A piece holds none of the bytes already held, so `insertFragment` cuts nothing
(`insertFragment_removed_of_fresh`) and the fragments hold exactly the bytes of the pieces received
(`Received`). Only one piece is a last fragment, so the screen for a second last fragment never
drops one; and while a piece is missing, no fragment holds its first byte, so the fragments form no
train from `0` to the declared length (`Received.incomplete_of_missing`).
-/

namespace Ipv6Reassembly

/-! ## Inserting bytes not held -/

section Fresh

variable {fs : List Fragment} {data : List UInt8} {o e : Nat} {f : Fragment}

/-- Trimming `[o, e)` from a fragment none of whose bytes lie there keeps all of its bytes. -/
theorem heldBytes_trim_of_outside (hoe : o ≤ e) (h : ∀ i, f.offset ≤ i → i < f.end → ¬ (o ≤ i ∧ i < e)) :
    heldBytes (trim o e f) = f.end - f.offset := by
  have h₁ := h o
  have h₂ := h f.offset
  unfold trim
  split_ifs <;> simp only [heldBytes_append, heldBytes_cons, heldBytes_nil] <;> omega

/-- Inserting an interval none of whose bytes is held removes nothing. -/
theorem insertFragment_removed_of_fresh (hoe : o ≤ e) (h : ∀ i, o ≤ i → i < e → ¬ covers fs i) :
    (insertFragment fs data o e).2.1 = 0 := by
  suffices heldBytes (fs.flatMap (trim o e)) = heldBytes fs by simp [insertFragment, this]
  induction fs with
  | nil => rfl
  | cons f fs ih =>
    rw [List.flatMap_cons, heldBytes_append, heldBytes_cons,
      heldBytes_trim_of_outside hoe fun i hf hi hin => h i hin.1 hin.2 ((covers_cons f fs i).2 (.inl ⟨hf, hi⟩)),
      ih fun i ho he hc => h i ho he ((covers_cons f fs i).2 (.inr hc))]

/-- Fragments in order that start at `m` or later and end by `n` hold at most `n - m` bytes. -/
theorem heldBytes_le_of_sorted {n : Nat} : ∀ {m : Nat} {fs : List Fragment}, Sorted fs →
    (∀ f ∈ fs, m ≤ f.offset) → (∀ f ∈ fs, f.end ≤ n) → heldBytes fs ≤ n - m
  | _, [], _, _, _ => Nat.zero_le _
  | _, f :: fs, hs, hlo, hhi => by
    have hfs := List.pairwise_cons.1 hs.2
    have ih := heldBytes_le_of_sorted ⟨fun g hg => hs.1 g (List.mem_cons_of_mem _ hg), hfs.2⟩ hfs.1
      fun g hg => hhi g (List.mem_cons_of_mem _ hg)
    have := hs.1 f (List.mem_cons_self _ _)
    have := hlo f (List.mem_cons_self _ _)
    have := hhi f (List.mem_cons_self _ _)
    rw [heldBytes_cons]
    omega

end Fresh

/-! ## The pieces of a payload -/

/-- Two fragments share no byte of the payload. -/
def Packet.Apart (a b : Packet) : Prop := a.end ≤ b.offset.toNat ∨ b.end ≤ a.offset.toNat

instance (a b : Packet) : Decidable (a.Apart b) := inferInstanceAs (Decidable (_ ∨ _))

/-- The fragments `ps` cut the payload `P` into pieces: each is a non-empty fragment of `P`, no two
share a byte, together they hold every byte of `P`, and one of them is the last. -/
structure Cuts (P : List UInt8) (ps : List Packet) : Prop where
  fragments : ∀ a ∈ ps, a.FragmentOf P
  nonempty : ∀ a ∈ ps, a.offset.toNat < a.end
  apart : ps.Pairwise Packet.Apart
  whole : ∀ i < P.length, ∃ a ∈ ps, a.offset.toNat ≤ i ∧ i < a.end
  last : ∃ a ∈ ps, a.moreFragments = 0

/-- The fragments `fs` hold exactly the bytes of the pieces `as` of the payload `P`. -/
structure HeldPieces (P : List UInt8) (as : List Packet) (fs : List Fragment) : Prop where
  sorted : Sorted fs
  slices : ∀ f ∈ fs, SliceOf P f
  covers : ∀ i, covers fs i ↔ ∃ a ∈ as, a.offset.toNat ≤ i ∧ i < a.end

section HeldPieces

variable {P : List UInt8} {as : List Packet} {fs : List Fragment} {a : Packet}

theorem HeldPieces.nil (P : List UInt8) : HeldPieces P [] [] := ⟨sorted_nil, by simp, by simp⟩

/-- Inserting a fragment of `P` adds its bytes to those held. -/
theorem HeldPieces.insert (h : HeldPieces P as fs) (ha : a.FragmentOf P) :
    HeldPieces P (as ++ [a]) (insertFragment fs a.fragmentable a.offset.toNat a.end).1 := by
  have hfr : a.fragmentable = (P.drop a.offset.toNat).take (a.end - a.offset.toNat) := ha.slice.2
  refine ⟨sorted_insertFragment (Nat.le_add_right _ _) h.sorted, ?_, fun i => ?_⟩
  · rw [hfr]
    exact sliceOf_insertFragment h.slices ⟨ha.slice.1, rfl⟩
  · rw [covers_insertFragment, h.covers]
    simp only [List.mem_append, List.mem_singleton, or_and_right, exists_or, exists_eq_left]
    exact or_comm

theorem HeldPieces.heldBytes_le (h : HeldPieces P as fs) : heldBytes fs ≤ P.length :=
  heldBytes_le_of_sorted h.sorted (fun _ _ => Nat.zero_le _) fun f hf => (h.slices f hf).1

/-- A fragment none of whose bytes a piece received holds is inserted without cutting anything. -/
theorem HeldPieces.removed_of_apart (h : HeldPieces P as fs) (hapart : ∀ c ∈ as, c.Apart a) :
    (insertFragment fs a.fragmentable a.offset.toNat a.end).2.1 = 0 :=
  insertFragment_removed_of_fresh (Nat.le_add_right _ _) fun i hoi hie hc => by
    obtain ⟨c, hc, hci, hic⟩ := (h.covers i).1 hc
    rcases hapart c hc with h' | h' <;> omega

/-- Fragments holding every byte of `P` hold the whole payload, in order. -/
theorem HeldPieces.prefix (h : HeldPieces P as fs) (hall : ∀ i < P.length, ∃ a ∈ as, a.offset.toNat ≤ i ∧ i < a.end) :
    Prefix P P.length fs :=
  ⟨h.sorted, h.slices, fun f hf => (h.slices f hf).1, fun i hi => (h.covers i).2 (hall i hi)⟩

end HeldPieces

/-! ## The assembly of the pieces received -/

/-- The assembly `r` has received the pieces `as` of `P`: its fragments hold exactly their bytes,
and its declared length is that of `P` once the last piece is among them, `0` before. -/
structure Received (P : List UInt8) (as : List Packet) (r : Assembly) : Prop where
  held : HeldPieces P as r.fragments
  len : r.len = if ∃ a ∈ as, a.moreFragments = 0 then P.length.toUInt16 else 0

section Received

variable {P : List UInt8} {as bs : List Packet} {r : Assembly} {a b : Packet}

theorem Cuts.mid (hc : Cuts P (as ++ a :: bs)) : a.FragmentOf P ∧ a.offset.toNat < a.end :=
  ⟨hc.fragments a (by simp), hc.nonempty a (by simp)⟩

/-- A piece shares no byte with the pieces before it. -/
theorem Cuts.apart_mid (hc : Cuts P (as ++ a :: bs)) : ∀ c ∈ as, c.Apart a :=
  fun c hc' => (List.pairwise_append.1 hc.apart).2.2 c hc' a (List.mem_cons_self _ _)

/-- Two last pieces would share the last byte of `P`. -/
theorem Cuts.no_last_before (hc : Cuts P (as ++ a :: bs)) (hmf : a.moreFragments = 0) :
    ¬ ∃ c ∈ as, c.moreFragments = 0 := by
  rintro ⟨c, hc', hcm⟩
  have hce := (hc.fragments c (by simp [hc'])).last hcm
  have hae := hc.mid.1.last hmf
  have := hc.nonempty c (by simp [hc'])
  have := hc.mid.2
  rcases hc.apart_mid c hc' with h | h <;> omega

/-- A declared length is that of `P`, set by a last piece received. -/
theorem Received.toNat_len (hr : Received P as r) (hfit : P.length ≤ maxDatagramSize) (hlen : r.len ≠ 0) :
    r.len.toNat = P.length ∧ ∃ q ∈ as, q.moreFragments = 0 := by
  by_cases hq : ∃ q ∈ as, q.moreFragments = 0
  · refine ⟨?_, hq⟩
    rw [hr.len, if_pos hq]
    show P.length % 2 ^ 16 = P.length
    unfold maxDatagramSize at hfit
    omega
  · exact absurd (by rw [hr.len, if_neg hq]) hlen

/-- Inserting a fragment of `P` gives the assembly that has received it too, whatever it overlaps. -/
theorem Received.insert (hr : Received P as r) (ha : a.FragmentOf P) : Received P (as ++ [a]) (r.insert a) := by
  refine ⟨hr.held.insert ha, ?_⟩
  by_cases hmf : a.moreFragments = 0
  · rw [if_pos ⟨a, List.mem_append_right _ (List.mem_singleton_self a), hmf⟩]
    simp only [Assembly.insert, hmf, if_true, ha.last hmf]
  · have hiff : (∃ c ∈ as ++ [a], c.moreFragments = 0) ↔ ∃ c ∈ as, c.moreFragments = 0 := by
      simp [or_and_right, exists_or, hmf]
    simp only [Assembly.insert, hmf, if_false, hr.len, hiff]

/-- While a byte of `P` is in none of the fragments received, the assembly is not complete: a
declared length comes with a last fragment, whose bytes a train from `0` would reach, and with
them the missing byte. -/
theorem Received.incomplete_of_missing (hr : Received P as r)
    (hfr : ∀ c ∈ as, c.FragmentOf P ∧ c.offset.toNat < c.end)
    (hmiss : ∃ i < P.length, ∀ c ∈ as, ¬ (c.offset.toNat ≤ i ∧ i < c.end)) (hfit : P.length ≤ maxDatagramSize) :
    ¬ (r.len ≠ 0 ∧ checkTrainOfContiguousFragments r.fragments = true) := by
  rintro ⟨hlen, htrain⟩
  obtain ⟨q, hq, hqm⟩ := (hr.toNat_len hfit hlen).2
  obtain ⟨i, hi, hnot⟩ := hmiss
  have hqe := (hfr q hq).1.last hqm
  have hqo := (hfr q hq).2
  have hcov := covers_of_trainFrom htrain hr.held.sorted.1
  obtain ⟨-, hlt⟩ := (hcov (q.end - 1)).1 ((hr.held.covers _).2 ⟨q, hq, by omega, by omega⟩)
  obtain ⟨c, hc, hci⟩ := (hr.held.covers i).1 ((hcov i).2 ⟨Nat.zero_le _, by omega⟩)
  exact hnot c hc hci

/-- While a piece is still to come, the assembly is not complete: no piece received holds its first
byte. -/
theorem Received.incomplete (hr : Received P as r) (hc : Cuts P (as ++ b :: bs)) (hfit : P.length ≤ maxDatagramSize) :
    ¬ (r.len ≠ 0 ∧ checkTrainOfContiguousFragments r.fragments = true) := by
  have hb := hc.mid.2
  refine hr.incomplete_of_missing (fun c hc' => ⟨hc.fragments c (by simp [hc']), hc.nonempty c (by simp [hc'])⟩)
    ⟨b.offset.toNat, lt_of_lt_of_le hb hc.mid.1.slice.1, fun c hc' hci => ?_⟩ hfit
  rcases hc.apart_mid c hc' with h | h <;> omega

/-- Once every byte of `P` and the last fragment are in, the declared length is that of `P` and the
fragments hold `P` in order. -/
theorem Received.complete (hr : Received P as r) (hwhole : ∀ i < P.length, ∃ a ∈ as, a.offset.toNat ≤ i ∧ i < a.end)
    (hlast : ∃ a ∈ as, a.moreFragments = 0) (hfit : P.length ≤ maxDatagramSize) :
    r.len.toNat = P.length ∧ Prefix P P.length r.fragments := by
  refine ⟨?_, hr.held.prefix hwhole⟩
  rw [hr.len, if_pos hlast]
  show P.length % 2 ^ 16 = P.length
  unfold maxDatagramSize at hfit
  omega

end Received

/-! ## Runs of pieces in any order -/

section Runs

variable (B : Build) {s₀ : State} {P : List UInt8}

/-- A piece arriving after the pieces `as` passes both screens and is inserted without cutting
anything. -/
theorem storeFragment_piece {r : Assembly} {as bs : List Packet} {a : Packet} (hr : Received P as r)
    (hc : Cuts P (as ++ a :: bs)) (hfit : P.length ≤ maxDatagramSize) :
    storeFragment B (holding B s₀ r) s₀.brk (s₀.brk + 1) a .ok =
      if (r.insert a).len ≠ 0 ∧ checkTrainOfContiguousFragments (r.insert a).fragments then
        buildCompleteDatagram B (holding B s₀ (r.insert a)) (s₀.brk + 1) true
      else (holding B s₀ (r.insert a), none) := by
  refine storeFragment_holding B (fun ⟨hlen, hlt⟩ => ?_) (fun ⟨hmf, hlen⟩ => ?_) (hr.held.removed_of_apart hc.apart_mid)
  · have hlt : r.len.toNat < a.offset.toNat := hlt
    have := (hr.toNat_len hfit hlen).1
    have hae : a.end ≤ P.length := hc.mid.1.slice.1
    have := hc.mid.2
    omega
  · exact hc.no_last_before hmf (hr.toNat_len hfit hlen).2

/-- From the engine holding some of the pieces of `P`, the others, in any order, each get past
both loops, while the limits leave room for the whole datagram and the timer does not expire: each
call but the last returns nothing, the last returns the datagram, and the engine is idle again. -/
theorem run_holding_pieces (hs : s₀.Idle) (hsize : s₀.tableSize ≠ 0) (hP : P ≠ []) :
    ∀ (bs : List Packet) (r : Assembly) (as : List Packet), bs ≠ [] → Cuts P (as ++ bs) → Received P as r →
      (∀ a ∈ bs, a.key = (r.src, r.dst, r.id) ∧ ¬ r.expires < a.currentTime) →
      r.header.length + P.length ≤ maxDatagramSize →
      B.sizeofSource.toNat + B.sizeofFlow.toNat + r.header.length + P.length ≤ s₀.perSourceMemoryLimit.toNat →
      B.sizeofSource.toNat + B.sizeofFlow.toNat + r.header.length + P.length < s₀.totalMemoryLimit.toNat →
      ∃ t, run B (holding B s₀ r) (bs.map (Op.manage · .ok)) = some (t, List.replicate (bs.length - 1) none ++
        [some (setPayloadLength r.header (P.length.toUInt16 + r.header.length.toUInt16 - sizeofIp6Hdr.toUInt16) ++ P)]) ∧
        t.Idle ∧ t.config = s₀.config
  | [], _, _, h, _, _, _, _, _, _ => absurd rfl h
  | a :: bs, r, as, _, hc, hr, hkt, hfit, hper, htot => by
    have hP' : P.length ≤ maxDatagramSize := le_trans (Nat.le_add_left _ _) hfit
    have hcall := manageIpv6Fragment_room B hs hsize hr.held.heldBytes_le hc.mid.1.slice.1
      (hkt a (List.mem_cons_self _ _)).1 (hkt a (List.mem_cons_self _ _)).2 hfit hper htot
    have hstore := @storeFragment_piece B s₀ P r as bs a hr hc hP'
    have hr' := hr.insert hc.mid.1
    cases bs with
    | nil =>
      obtain ⟨hlen, hpre⟩ := hr'.complete hc.whole hc.last hP'
      have hne : (r.insert a).len ≠ 0 := fun h => (List.length_pos.2 hP).ne (by rw [← hlen, h]; rfl)
      have hbuild : buildCompleteDatagram B (holding B s₀ (r.insert a)) (s₀.brk + 1) true = _ :=
        buildCompleteDatagram_holding B (by rw [hlen]; exact hfit) (by rw [hlen, hpre.heldBytes])
      rw [hlen, hpre.flatMap_ptr, List.take_length] at hbuild
      rw [if_pos ⟨hne, hpre.trainFrom⟩, hbuild] at hstore
      refine ⟨deleteFlowAndEmptySource B (holding B s₀ (r.insert a)) (s₀.brk + 1), ?_,
        idle_deleteFlowAndEmptySource_holding B hs, config_deleteFlowAndEmptySource_holding B⟩
      simp only [List.map_cons, List.map_nil, run, step, hcall, hstore]
      rfl
    | cons b bs =>
      rw [if_neg (hr'.incomplete (by simpa using hc) hP')] at hstore
      obtain ⟨t, hrun, ht⟩ := run_holding_pieces hs hsize hP (b :: bs) (r.insert a) (as ++ [a]) (List.cons_ne_nil _ _)
        (by simpa using hc) hr' (fun c hc => hkt c (List.mem_cons_of_mem _ hc)) hfit hper htot
      refine ⟨t, ?_, ht⟩
      rw [List.map_cons, run, step, hcall, hstore]
      dsimp only
      rw [hrun]
      rfl

/-- The pieces `a₀ :: as` cut the payload `P` and arrive in this order under one key, and the
engine `s` has room for them: its limits leave room for the whole datagram, which fits the maximum
size, and no piece comes after the timer the first one starts has run out. -/
structure SentInAnyOrder (B : Build) (s : State) (P : List UInt8) (a₀ : Packet) (as : List Packet) : Prop where
  nonempty : P ≠ []
  cuts : Cuts P (a₀ :: as)
  key : ∀ a ∈ as, a.key = a₀.key
  time : ∀ a ∈ as, a.currentTime.toNat ≤ a₀.currentTime.toNat + s.timeout.toNat
  wrap : a₀.currentTime.toNat + s.timeout.toNat < 2 ^ 32
  fit : a₀.unfragmentable.length + P.length ≤ maxDatagramSize
  perSource : B.sizeofSource.toNat + B.sizeofFlow.toNat + a₀.unfragmentable.length + P.length ≤
    s.perSourceMemoryLimit.toNat
  total : B.sizeofSource.toNat + B.sizeofFlow.toNat + a₀.unfragmentable.length + P.length < s.totalMemoryLimit.toNat

/-- Sent to an idle engine with room for them, the pieces of a payload `P`, in whatever order they
arrive, are all taken in, and the one that arrives last returns the datagram `reassembled a₀ P`
behind the header of the first to arrive; the engine is idle again afterwards, with the same
configuration. -/
theorem any_order_delivery {s : State} {a₀ : Packet} {as : List Packet} (hs : s.Idle) (hsize : s.tableSize ≠ 0)
    (h : SentInAnyOrder B s P a₀ as) :
    ∃ t, run B s ((a₀ :: as).map (Op.manage · .ok)) =
      some (t, List.replicate as.length none ++ [some (reassembled a₀ P)]) ∧ t.Idle ∧ t.config = s.config := by
  have ha₀ := h.cuts.fragments a₀ (List.mem_cons_self _ _)
  have hkt := start_meets h.key h.time h.wrap
  have hfit : (Assembly.start s a₀).header.length + P.length ≤ maxDatagramSize := length_header_start s a₀ ▸ h.fit
  have hper := length_header_start s a₀ ▸ h.perSource
  have htot := length_header_start s a₀ ▸ h.total
  obtain ⟨t, hrun, ht⟩ := run_holding_pieces B hs hsize h.nonempty (a₀ :: as) (Assembly.start s a₀) []
    (List.cons_ne_nil _ _) h.cuts ⟨HeldPieces.nil P, by simp [Assembly.start]⟩ hkt hfit hper htot
  refine ⟨t, ?_, ht⟩
  rw [run_idle B as hs hsize (ha₀.slice.1.trans (le_trans (Nat.le_add_left _ _) h.fit))
    (manageIpv6Fragment_room B hs hsize (Nat.zero_le _) ha₀.slice.1 (hkt a₀ (List.mem_cons_self _ _)).1
      (hkt a₀ (List.mem_cons_self _ _)).2 hfit hper htot), hrun, payloadLength_start s h.fit]
  rfl

/-- The payload `0, 1, …, 15` from `::1`, sent as `[8, 12)`, then the last piece `[12, 16)`, then
`[0, 8)`, comes back at the third piece behind the header of the first. -/
theorem any_order_delivery_three_pieces :
    ∃ t, run lp64 { enableIpv6Fragmentation lp64 1 with perSourceMemoryLimit := 4096, totalMemoryLimit := 4096 }
      ([frag 1 1 ((List.range 16).map Nat.toUInt8) 8 12 1 0, frag 1 1 ((List.range 16).map Nat.toUInt8) 12 16 0 0,
        frag 1 1 ((List.range 16).map Nat.toUInt8) 0 8 1 0].map (Op.manage · .ok)) =
      some (t, [none, none, some (setPayloadLength ((header 1).set 6 59) 16 ++ (List.range 16).map Nat.toUInt8)]) ∧
      t.Idle ∧ t.config = (1, 4096, 4096, 0) :=
  @any_order_delivery lp64 ((List.range 16).map Nat.toUInt8)
    { enableIpv6Fragmentation lp64 1 with perSourceMemoryLimit := 4096, totalMemoryLimit := 4096 }
    (frag 1 1 ((List.range 16).map Nat.toUInt8) 8 12 1 0)
    [frag 1 1 ((List.range 16).map Nat.toUInt8) 12 16 0 0, frag 1 1 ((List.range 16).map Nat.toUInt8) 0 8 1 0]
    ⟨fun _ _ => rfl, rfl, rfl, rfl, fun _ => rfl, fun _ => rfl, one_ne_zero⟩ (by decide)
    ⟨by decide, ⟨by decide, by decide, by decide, by decide, by decide⟩, by decide, by decide, by decide, by decide,
      by decide, by decide⟩

end Runs

end Ipv6Reassembly
