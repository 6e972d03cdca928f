import Ipv6Reassembly.Ledger

/-!
# Teardown

`dpi_reordering_disable_ipv6_fragmentation` (lines 210–233) walks the rows of the table in order
and, along the chain of each row, reads the next source before it deletes the current one with
`delete_source`; then it frees the table and the state. Deleting the head of a chain makes the
source read before it the new head (`Keeps.deleteSourcesFrom`), so the walk of a row empties its
chain and leaves every other chain as it was, and the walk of all rows empties them all
(`Keeps.deleteRows`). From every reachable state the walk leaves nothing behind
(`disable_frees_everything`): no source and no flow record is live, every bucket and the timer
list are empty, and the counter of used memory is back to `0`.
-/

namespace Ipv6Reassembly

section

variable (B : Build)

/-- The loop of `dpi_reordering_disable_ipv6_fragmentation` over the chain from `p`
(lines 219–223): read the next link, then delete the source. -/
def deleteSourcesFrom : Nat → State → Ptr → State
  | 0, s, _ => s
  | n + 1, s, p => if p = 0 then s else deleteSourcesFrom n (deleteSource B s p) (s.source p).next

/-- `dpi_reordering_disable_ipv6_fragmentation(state)` up to its two `free`s: the chain of each
row, in row order, deleted source by source. -/
def disableIpv6Fragmentation (s : State) : State :=
  (List.range s.tableSize.toNat).foldl (fun s i => deleteSourcesFrom B s.brk s (s.table i)) s

theorem deleteSourcesFrom_null (n : Nat) (s : State) : deleteSourcesFrom B n s 0 = s := by
  cases n <;> rfl

theorem tableSize_deleteSource (s : State) (p : Ptr) :
    (deleteSource B s p).tableSize.toNat = s.tableSize.toNat := by
  rw [deleteSource, tableSize_removeSource, tableSize_deleteFlowsFrom]

theorem tableSize_deleteSourcesFrom : ∀ (n : Nat) (s : State) (p : Ptr),
    (deleteSourcesFrom B n s p).tableSize.toNat = s.tableSize.toNat
  | 0, _, _ => rfl
  | n + 1, s, p => by
    unfold deleteSourcesFrom
    split
    · rfl
    · rw [tableSize_deleteSourcesFrom, tableSize_deleteSource]

theorem tableSize_disableIpv6Fragmentation (s : State) :
    (disableIpv6Fragmentation B s).tableSize.toNat = s.tableSize.toNat := by
  unfold disableIpv6Fragmentation
  generalize List.range s.tableSize.toNat = rows
  induction rows generalizing s with
  | nil => rfl
  | cons i rows ih => rw [List.foldl_cons, ih, tableSize_deleteSourcesFrom]

end

/-! ## The walk of the rows -/

section Walk

variable {B : Build} {I : State → Shape → Prop} {now : UInt32}

/-- The walk of the chain of row `i`, with fuel for each of its sources, deletes them all: the
chain of row `i` empties and every other chain stays. -/
theorem Keeps.deleteSourcesFrom (hI : Keeps B I now) {i : Nat} :
    ∀ {s : State} {g : Shape} {n : Nat}, Realizes s.skeleton g → I s g → i < s.tableSize.toNat →
      (g.chain i).length ≤ n →
      ∃ g', Realizes (Ipv6Reassembly.deleteSourcesFrom B n s (s.table i)).skeleton g' ∧
        I (Ipv6Reassembly.deleteSourcesFrom B n s (s.table i)) g' ∧
        g'.chain = Function.update g.chain i [] := by
  intro s g n hk hs hi hn
  generalize hl : g.chain i = l at hn
  induction l generalizing s g n with
  | nil =>
    have h0 : s.table i = 0 := by simpa [hl] using hk.chains.seg i hi
    rw [h0, deleteSourcesFrom_null, ← hl, Function.update_eq_self]
    exact ⟨g, hk, hs, rfl⟩
  | cons p rest ih =>
    obtain ⟨m, rfl⟩ : ∃ m, n = m + 1 := ⟨n - 1, by simp at hn; omega⟩
    have hmem : p ∈ g.chain i := hl ▸ List.mem_cons_self _ _
    have hseg := hk.chains.seg i hi
    rw [hl] at hseg
    obtain ⟨hp, hp0, -, hrest⟩ := hseg
    rw [skeleton_table] at hp
    have hrow : (s.source p).row.toNat = i := by
      simpa [skeleton_source] using hk.chains.row i hi p hmem
    obtain ⟨ts, hk₁, hs₁⟩ := hI.deleteSource_shape hk hs (hk.source_live hi hmem)
    rw [hrow, hl, List.erase_cons_head] at hk₁ hs₁
    have hi₁ : i < (Ipv6Reassembly.deleteSource B s p).tableSize.toNat := by rwa [tableSize_deleteSource]
    -- the source read before the deletion heads the chain after it
    have hhead : (Ipv6Reassembly.deleteSource B s p).table i = (s.source p).next := by
      have h₁ := (hk₁.chains.seg i hi₁).head_eq
      have h₂ := hrest.head_eq
      simp only [skeleton_table, Function.update_same] at h₁
      rw [h₁, ← h₂, skeleton_sourceNext]
      rfl
    obtain ⟨g', hk', hs', hc⟩ := ih hk₁ hs₁ hi₁ (by simp) (by simpa using hn)
    rw [hp, Ipv6Reassembly.deleteSourcesFrom, if_neg hp0, ← hhead]
    exact ⟨g', hk', hs', by rw [hc, Function.update_idem]⟩

/-- The walk over the rows `rows`, each below the table size, empties the chain of every row it
visits, and a chain that was empty stays so. -/
theorem Keeps.deleteRows (hI : Keeps B I now) :
    ∀ (rows : List Nat) {s : State} {g : Shape}, Realizes s.skeleton g → I s g →
      (∀ i ∈ rows, i < s.tableSize.toNat) →
      ∃ g', Realizes (rows.foldl (fun s i => Ipv6Reassembly.deleteSourcesFrom B s.brk s (s.table i)) s).skeleton g' ∧
        I (rows.foldl (fun s i => Ipv6Reassembly.deleteSourcesFrom B s.brk s (s.table i)) s) g' ∧
        ∀ j, j ∈ rows ∨ g.chain j = [] → g'.chain j = []
  | [], s, g, hk, hs, _ => ⟨g, hk, hs, fun j hj => hj.resolve_left (List.not_mem_nil j)⟩
  | i :: rows, s, g, hk, hs, hrows => by
    have hi := hrows i (List.mem_cons_self _ _)
    obtain ⟨g₁, hk₁, hs₁, hc⟩ := hI.deleteSourcesFrom hk hs hi
      (length_le_of_lt (hk.chains.seg i hi).nodup fun p hp => hk.source_lt p (hk.chain_live hi hp))
    obtain ⟨g', hk', hs', hc'⟩ := hI.deleteRows rows hk₁ hs₁ fun j hj => by
      rw [tableSize_deleteSourcesFrom]
      exact hrows j (List.mem_cons_of_mem _ hj)
    refine ⟨g', hk', hs', fun j hj => hc' j ?_⟩
    rw [hc, Function.update_apply]
    by_cases hji : j = i
    · exact .inr (if_pos hji)
    · rw [if_neg hji]
      rcases hj with hj | hj
      · exact .inl ((List.mem_cons.1 hj).resolve_left hji)
      · exact .inr hj

end Walk

/-! ## What the teardown leaves -/

section Teardown

variable (B : Build) {s : State}

/-- From every reachable state, the walk of `dpi_reordering_disable_ipv6_fragmentation` deletes
every source and every flow: no record is live, every bucket and the timer list are empty, and
the counter of used memory is `0`, before the table and the state are freed. -/
theorem disable_frees_everything {allowed : Op → Prop} (hs : Reachable B allowed s) :
    (∀ p, (disableIpv6Fragmentation B s).sources p = none) ∧
      (∀ f, (disableIpv6Fragmentation B s).flows f = none) ∧
      (∀ i < s.tableSize.toNat, (disableIpv6Fragmentation B s).table i = 0) ∧
      (disableIpv6Fragmentation B s).timerHead = 0 ∧ (disableIpv6Fragmentation B s).timerTail = 0 ∧
      (disableIpv6Fragmentation B s).totalUsedMem = 0 := by
  obtain ⟨g, hk, hled⟩ := Keeps.of_reachable (keeps_ledger B) (ledger_enable B)
    (fun _ _ h => ⟨fun _ => ⟨h.source, h.total⟩, fun _ => ⟨h.source, h.total⟩,
      fun _ => ⟨h.source, h.total⟩⟩) hs
  obtain ⟨g', hk', hled', hc⟩ := (keeps_ledger B 0).deleteRows (List.range s.tableSize.toNat) hk hled
    fun i hi => List.mem_range.1 hi
  rw [← disableIpv6Fragmentation] at hk' hled'
  have hts := tableSize_disableIpv6Fragmentation B s
  generalize disableIpv6Fragmentation B s = t at hk' hled' hts
  have hnil : ∀ i < t.tableSize.toNat, g'.chain i = [] :=
    fun i hi => hc i (.inl (List.mem_range.2 (hts ▸ hi)))
  -- a live source lies on a chain, and a live flow belongs to a live source
  have hsrc : ∀ p, t.sources p = none := fun p => Option.not_isSome_iff_eq_none.1 fun h => by
    obtain ⟨i, hi, hp⟩ := (hk'.chains.live p).1 (by simpa using h)
    rw [hnil i hi] at hp
    exact List.not_mem_nil _ hp
  have hflow : ∀ f, t.flows f = none := fun f => Option.not_isSome_iff_eq_none.1 fun h => by
    simpa [hsrc] using (hk'.lists.live f (by simpa using h)).1
  have htimers : g'.timers = [] := List.eq_nil_iff_forall_not_mem.2 fun f hf => by
    simpa [hflow] using (hk'.timers.live f).1 hf
  refine ⟨hsrc, hflow, fun i hi => ?_, ?_, ?_, ?_⟩
  · simpa [hnil i (hts ▸ hi)] using hk'.chains.seg i (by simpa [hts] using hi)
  · simpa [htimers] using hk'.timers.seg
  · simpa [htimers] using hk'.timers.tail
  · simpa [State.counters, State.sourceView, hsrc] using hled'.total

/-- Two sources on the one chain of a table of size `1`, each with a flow: the teardown frees them
all. -/
theorem disable_frees_two_sources :
    ∃ s, Reachable lp64 Op.Allocates s ∧ (s.sources 1).isSome ∧ (s.sources 3).isSome ∧
      (s.flows 4).isSome ∧
      (∀ p, (disableIpv6Fragmentation lp64 s).sources p = none) ∧
      (∀ f, (disableIpv6Fragmentation lp64 s).flows f = none) ∧
      (∀ i < s.tableSize.toNat, (disableIpv6Fragmentation lp64 s).table i = 0) ∧
      (disableIpv6Fragmentation lp64 s).timerHead = 0 ∧ (disableIpv6Fragmentation lp64 s).timerTail = 0 ∧
      (disableIpv6Fragmentation lp64 s).totalUsedMem = 0 := by
  obtain ⟨s, -, hs, -, h1, h3, h4⟩ := (Reachable.enable 1 : Reachable lp64 Op.Allocates _).of_run lp64
    (looseLimits ++ [.manage (frag 1 1 (List.replicate 8 7) 0 8 1 0) .ok,
      .manage (frag 2 1 (List.replicate 8 7) 0 8 1 0) .ok])
    (fun s _ => (s.sources 1).isSome ∧ (s.sources 3).isSome ∧ (s.flows 4).isSome) (by decide) (by decide)
  exact ⟨s, hs, h1, h3, h4, disable_frees_everything lp64 hs⟩

end Teardown

end Ipv6Reassembly
