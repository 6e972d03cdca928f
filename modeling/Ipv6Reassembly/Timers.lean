import Ipv6Reassembly.Loops

/-!
# The timer list stays in order of expiry

`find_or_create_flow` gives a new flow a timer that expires `timeout` after the call's
`current_time` and appends it at the tail of the timer list (lines 401–405); no other line writes
an expiry, and `delete_flow` only unlinks a timer. Over the runs whose calls come at times that
never decrease, with `current_time + timeout` in 32 bits, and in which the timeout is set only
while no flow is live (`Timed`), the expiries along the timer list therefore never decrease and
none lies more than `timeout` after the last call (`ExpiryOrdered`, kept by every routine:
`keeps_inTime`).

The sweep (lines 630–645) only looks at the head of the list: it stops when the list is empty,
or when the head has not expired and the engine is under its memory limit (`sweepTimers_exit`).
With the order, a call that gets past the sweep to its flow lookup finds no expired flow, and the
engine under its limit unless no flow is live (`timers_in_order`).
-/

namespace Ipv6Reassembly

/-! ## The configuration

No routine of a call writes the table size, the memory limits or the timeout; only the setters
do. -/

/-- The fields only `dpi_reordering_enable_ipv6_fragmentation` and the setters write: the table
size, the per-source and total memory limits and the timeout. -/
def State.config (s : State) : UInt16 × UInt32 × UInt32 × UInt8 :=
  (s.tableSize, s.perSourceMemoryLimit, s.totalMemoryLimit, s.timeout)

section Config

variable (B : Build) {s : State}

@[simp] theorem config_charge (src : Ptr) (n : UInt32) : (s.charge src n).config = s.config := rfl

@[simp] theorem config_release (src : Ptr) (n : UInt32) : (s.release src n).config = s.config := rfl

@[simp] theorem config_modifyFlow (p : Ptr) (g : Flow → Flow) : (s.modifyFlow p g).config = s.config := rfl

@[simp] theorem config_modifySource (p : Ptr) (g : Source → Source) :
    (s.modifySource p g).config = s.config := rfl

@[simp] theorem config_freeFlow (p : Ptr) : (s.freeFlow p).config = s.config := rfl

@[simp] theorem config_addTimer (t : Ptr) : (addTimer s t).config = s.config := by
  unfold addTimer
  split_ifs <;> rfl

@[simp] theorem config_deleteTimer (t : Ptr) : (deleteTimer s t).config = s.config := by
  unfold deleteTimer
  dsimp only
  split_ifs <;> rfl

@[simp] theorem config_foldl_release (src : Ptr) (n : Fragment → UInt32) (fs : List Fragment) (s : State) :
    (fs.foldl (fun s fr => s.release src (n fr)) s).config = s.config := by
  induction fs generalizing s with
  | nil => rfl
  | cons fr fs ih => exact ih _

theorem config_deleteFlow (f : Ptr) : (deleteFlow B s f).config = s.config := by
  unfold deleteFlow
  dsimp only
  simp only [config_freeFlow, apply_ite State.config, config_modifyFlow, config_modifySource, ite_self]
  split <;> simp only [config_release, config_foldl_release, config_deleteTimer]

theorem config_createSource (addr : In6Addr) : (createSource B s addr).config = s.config := by
  unfold createSource
  dsimp only
  split_ifs <;> rfl

theorem config_createFlow (src : Ptr) (id : UInt32) (dst : In6Addr) (now : UInt32) :
    (createFlow B s src id dst now).config = s.config := by
  unfold createFlow
  dsimp only
  split_ifs <;> simp only [config_addTimer] <;> rfl

theorem config_removeSource (row : UInt16) (p : Ptr) : (removeSource B s row p).config = s.config := by
  unfold removeSource
  dsimp only
  split_ifs <;> simp only [State.config, State.freeSource, State.modifySource]

theorem config_storeUnfragmentable (src f : Ptr) (a : Packet) :
    (storeUnfragmentable s src f a).config = s.config := rfl

theorem config_insertIntoFlow (src f : Ptr) (a : Packet) : (insertIntoFlow s src f a).config = s.config := by
  unfold insertIntoFlow
  split_ifs <;> simp only [config_release, config_charge, config_modifyFlow]

end Config

theorem timeout_of_config {s t : State} (h : t.config = s.config) : t.timeout = s.timeout :=
  congrArg (·.2.2.2) h

/-! ## Runs in time -/

/-- The runs whose calls come in time: each call's `current_time` is at least the previous call's
and leaves room for the timeout in 32 bits, and the timeout is set only while no flow is live.
`Timed B T s`: a run of this kind, whose last call came at `T`, reaches `s`. -/
inductive Timed (B : Build) : Nat → State → Prop where
  | enable (tableSize : UInt16) : Timed B 0 (enableIpv6Fragmentation B tableSize)
  | manage {T : Nat} {s t : State} {a : Packet} {m : Malloc} {r : Option (List UInt8)} :
      Timed B T s → T ≤ a.currentTime.toNat → a.currentTime.toNat + s.timeout.toNat < 2 ^ 32 →
      manageIpv6Fragment B s a m = some (t, r) → Timed B a.currentTime.toNat t
  | setPerHostMemoryLimit {T : Nat} {s : State} (n : UInt32) :
      Timed B T s → Timed B T { s with perSourceMemoryLimit := n }
  | setTotalMemoryLimit {T : Nat} {s : State} (n : UInt32) :
      Timed B T s → Timed B T { s with totalMemoryLimit := n }
  | setReassemblyTimeout {T : Nat} {s : State} (x : UInt8) :
      Timed B T s → (∀ f, s.flows f = none) → Timed B T { s with timeout := x }

/-! ## The order of the expiries -/

/-- Along `ts` the timers of `s` expire in order, none later than `timeout` after `T`. -/
structure ExpiryOrdered (T : Nat) (s : State) (ts : List Ptr) : Prop where
  sorted : (ts.map fun f => (s.flow f).timer.expirationTime).Pairwise (· ≤ ·)
  bounded : ∀ f ∈ ts, (s.flow f).timer.expirationTime.toNat ≤ T + s.timeout.toNat

/-- In a call at `now`: `now + timeout` fits in 32 bits, and the timer list is in order of expiry,
none later than `timeout` after `now`. -/
structure InTime (now : UInt32) (s : State) (g : Shape) : Prop where
  fits : now.toNat + s.timeout.toNat < 2 ^ 32
  ordered : ExpiryOrdered now.toNat s g.timers

section Ordered

variable {T : Nat} {s t : State} {ts : List Ptr}

theorem expiryOrdered_nil : ExpiryOrdered T s [] := ⟨List.Pairwise.nil, fun _ h => absurd h (List.not_mem_nil _)⟩

theorem ExpiryOrdered.mono (h : ExpiryOrdered T s ts) {T' : Nat} (hT : T ≤ T') : ExpiryOrdered T' s ts :=
  ⟨h.sorted, fun f hf => (h.bounded f hf).trans (by omega)⟩

theorem ExpiryOrdered.sublist (h : ExpiryOrdered T s ts) {ts' : List Ptr} (hl : ts'.Sublist ts) :
    ExpiryOrdered T s ts' :=
  ⟨h.sorted.sublist (hl.map _), fun f hf => h.bounded f (hl.subset hf)⟩

/-- Expiries and timeout carried over to a state that keeps them along `ts`. -/
theorem ExpiryOrdered.congr (h : ExpiryOrdered T s ts)
    (hv : ∀ f ∈ ts, (t.flow f).timer.expirationTime = (s.flow f).timer.expirationTime)
    (ht : t.timeout = s.timeout) : ExpiryOrdered T t ts := by
  refine ⟨?_, fun f hf => ?_⟩
  · rw [List.map_congr_left hv]
    exact h.sorted
  · rw [hv f hf, ht]
    exact h.bounded f hf

/-- A timer appended after the others, expiring `timeout` after `T`, keeps the order. -/
theorem ExpiryOrdered.snoc (h : ExpiryOrdered T s ts) {b : Ptr}
    (hb : (s.flow b).timer.expirationTime.toNat = T + s.timeout.toNat) : ExpiryOrdered T s (ts ++ [b]) := by
  refine ⟨?_, fun f hf => ?_⟩
  · rw [List.map_append, List.pairwise_append]
    refine ⟨h.sorted, List.pairwise_singleton _ _, fun x hx y hy => ?_⟩
    obtain ⟨f, hf, rfl⟩ := List.mem_map.1 hx
    rw [List.map_singleton, List.mem_singleton] at hy
    subst hy
    show (s.flow f).timer.expirationTime.toNat ≤ (s.flow b).timer.expirationTime.toNat
    have := h.bounded f hf
    omega
  · rcases List.mem_append.1 hf with hf | hf
    · exact h.bounded f hf
    · rw [List.mem_singleton.1 hf, hb]

end Ordered

/-- Two states whose views of expiries agree at `q` give the flow at `q` the same expiry. -/
theorem expiry_of_flowView {s t : State} {q : Ptr}
    (h : t.flowView (fun r => r.timer.expirationTime) q = s.flowView (fun r => r.timer.expirationTime) q) :
    (t.flow q).timer.expirationTime = (s.flow q).timer.expirationTime := by
  simpa only [State.flow, State.flowView, Option.getD_map] using
    congrArg (·.getD (default : Flow).timer.expirationTime) h

theorem flowBlind_expiry : FlowBlind fun r : Flow => r.timer.expirationTime := fun _ _ _ _ h _ => h

theorem flowView_expiry_storeUnfragmentable {s : State} (src f : Ptr) (a : Packet) :
    (storeUnfragmentable s src f a).flowView (fun r => r.timer.expirationTime) =
      s.flowView (fun r => r.timer.expirationTime) :=
  flowView_modifyFlow fun _ => rfl

section Keeps

variable (B : Build) (now : UInt32)

/-- A routine that keeps the timeout keeps `now + timeout` in 32 bits. -/
theorem InTime.of_timeout {s t : State} {g g' : Shape} (h : InTime now s g) (ht : t.timeout = s.timeout)
    (ho : ExpiryOrdered now.toNat t g'.timers) : InTime now t g' :=
  ⟨by rw [ht]; exact h.fits, ho⟩

/-- Every routine of a call at `now` keeps the timer list in order of expiry. -/
theorem keeps_inTime : Keeps B (InTime now) now where
  createSource s g addr _ hs _ _ := by
    have ht := timeout_of_config (config_createSource B (s := s) addr)
    refine hs.of_timeout now ht (hs.ordered.congr (fun f _ => expiry_of_flowView ?_) ht)
    rw [flowView_createSource]
  createFlow s g src id dst hk hs _ _ := by
    have ht := timeout_of_config (config_createFlow B (s := s) src id dst now)
    have hv := flowView_createFlow B flowBlind_expiry (s := s) src id dst now
    refine hs.of_timeout now ht ((hs.ordered.congr (fun f hf => ?_) ht).snoc ?_)
    · have hne : f ≠ s.brk := hk.flow_ne_brk ((hk.timers.live f).1 hf)
      exact expiry_of_flowView (by rw [hv, Function.update_noteq hne])
    · -- the new timer expires at `now + timeout`, with no overflow
      rw [(live_of_flowView (V := fun r : Flow => r.timer.expirationTime) (by rw [hv, Function.update_same])).2, ht]
      exact Nat.mod_eq_of_lt hs.fits
  deleteFlow s g f hk hs _ := by
    have ht := timeout_of_config (config_deleteFlow B (s := s) f)
    refine hs.of_timeout now ht ((hs.ordered.sublist (List.erase_sublist f _)).congr (fun q hq => ?_) ht)
    have hne : q ≠ f := fun e => hk.timers.seg.nodup.not_mem_erase (e ▸ hq)
    exact expiry_of_flowView (by rw [flowView_deleteFlow B flowBlind_expiry, Function.update_noteq hne])
  removeSource s g p _ hs _ _ := by
    have ht := timeout_of_config (config_removeSource B (s := s) (s.source p).row p)
    refine hs.of_timeout now ht (hs.ordered.congr (fun f _ => expiry_of_flowView ?_) ht)
    rw [flowView_removeSource]
  storeUnfragmentable s g f a _ hs _ _ := by
    have ht := timeout_of_config (config_storeUnfragmentable (s := s) (s.flow f).source f a)
    refine hs.of_timeout now ht (hs.ordered.congr (fun q _ => expiry_of_flowView ?_) ht)
    rw [flowView_expiry_storeUnfragmentable]
  insertIntoFlow s g f a _ hs _ := by
    have ht := timeout_of_config (config_insertIntoFlow (s := s) (s.flow f).source f a)
    refine hs.of_timeout now ht (hs.ordered.congr (fun q _ => expiry_of_flowView ?_) ht)
    rw [flowView_insertIntoFlow]
    exact congrFun (Function.update_eq_self f _) q

end Keeps

/-- Every run in time keeps the timer list in order of expiry, none later than `timeout` after the
last call. -/
theorem expiryOrdered_of_timed {B : Build} {T : Nat} {s : State} (hs : Timed B T s) :
    ∃ g, Realizes s.skeleton g ∧ ExpiryOrdered T s g.timers := by
  induction hs with
  | enable tableSize => exact ⟨_, realizes_enable B tableSize, expiryOrdered_nil⟩
  | manage _ hle hfit h ih =>
    obtain ⟨g, hk, hg⟩ := ih
    obtain ⟨g', hk', hi⟩ := (keeps_inTime B _).manage hk ⟨hfit, hg.mono hle⟩ h
    exact ⟨g', hk', hi.ordered⟩
  | setPerHostMemoryLimit _ _ ih | setTotalMemoryLimit _ _ ih =>
    -- the limits are not links, expiries or the timeout
    obtain ⟨g, hk, hg⟩ := ih
    exact ⟨g, hk, hg.congr (fun _ _ => rfl) rfl⟩
  | setReassemblyTimeout _ _ hnone ih =>
    -- the timeout is set only while no flow, hence no timer, is live
    obtain ⟨g, hk, -⟩ := ih
    have hnil : g.timers = [] := List.eq_nil_iff_forall_not_mem.2 fun f hf => by
      simpa [hnone f] using (hk.timers.live f).1 hf
    exact ⟨g, hk, hnil ▸ expiryOrdered_nil⟩

/-! ## What the sweep leaves -/

section Sweep

variable (B : Build) {src : Ptr} {now : UInt32}

/-- Where the sweep stops with the timer list in order, no live flow has expired, and the engine
is under its memory limit unless no flow is live. -/
theorem unexpired_of_exit {T : Nat} {t : State} {g : Shape} (hk : Realizes t.skeleton g)
    (ho : ExpiryOrdered T t g.timers)
    (hexit : ¬(t.timerHead ≠ 0 ∧ ((t.flow t.timerHead).timer.expirationTime < now ∨
      t.totalMemoryLimit ≤ t.totalUsedMem))) :
    (∀ f, (t.flows f).isSome → ¬ (t.flow f).timer.expirationTime < now) ∧
      ((∃ f, (t.flows f).isSome) → t.totalUsedMem < t.totalMemoryLimit) := by
  -- a live flow makes the list non-empty, and its timer expires no earlier than the head's
  have hhead : ∀ f, (t.flows f).isSome → t.timerHead ≠ 0 ∧
      (t.flow t.timerHead).timer.expirationTime.toNat ≤ (t.flow f).timer.expirationTime.toNat := by
    intro f hf
    have hmem : f ∈ g.timers := (hk.timers.live f).2 (by simpa using hf)
    have hseg := hk.timers.seg
    have hsorted := ho.sorted
    cases hts : g.timers with
    | nil => rw [hts] at hmem; cases hmem
    | cons x xs =>
      rw [hts] at hseg hsorted hmem
      obtain ⟨hx, hx0, -⟩ := hseg
      rw [skeleton_timerHead] at hx
      subst hx
      rw [List.map_cons, List.pairwise_cons] at hsorted
      refine ⟨hx0, ?_⟩
      rcases List.mem_cons.1 hmem with rfl | hm
      · exact le_rfl
      · exact hsorted.1 _ (List.mem_map_of_mem _ hm)
  refine ⟨fun f hf hlt => ?_, fun ⟨f, hf⟩ => ?_⟩
  · obtain ⟨h0, hle⟩ := hhead f hf
    have hlt' : (t.flow f).timer.expirationTime.toNat < now.toNat := hlt
    exact hexit ⟨h0, .inl (show (t.flow t.timerHead).timer.expirationTime.toNat < now.toNat by omega)⟩
  · have hnot : ¬ t.totalMemoryLimit.toNat ≤ t.totalUsedMem.toNat := fun hle => hexit ⟨(hhead f hf).1, .inr hle⟩
    show t.totalUsedMem.toNat < t.totalMemoryLimit.toNat
    omega

/-- The call of `dpi_reordering_manage_ipv6_fragment` on `s` for `a` passes the size screen, finds
or creates its source `src`, and gets through the eviction loop and the sweep to its flow lookup
(line 650), in the state `t`. -/
def ReachesFlowLookup (s : State) (a : Packet) (m : Malloc) (src : Ptr) (t : State) : Prop :=
  ¬ maxDatagramSize < a.end ∧ s.tableSize ≠ 0 ∧ ∃ s₁ s₂, findOrCreateSource B s a.ip6Src m.source = (s₁, src) ∧
    src ≠ 0 ∧ evictSource B s₁.brk s₁ src = .cont s₂ ∧ sweepTimers B s₂.brk s₂ src a.currentTime = .cont t

end Sweep

/-- Over every run in time, the timer list is in order of expiry, and a later call, with room for
the timeout in 32 bits, that gets past the sweep to its flow lookup finds no live flow expired
and the engine under its memory limit unless no flow is live. -/
theorem timers_in_order {B : Build} {T : Nat} {s : State} (hs : Timed B T s) :
    (s.timerList.map fun f => (s.flow f).timer.expirationTime).Pairwise (· ≤ ·) ∧
      ∀ (a : Packet) (m : Malloc) (src : Ptr) (t : State), T ≤ a.currentTime.toNat →
        a.currentTime.toNat + s.timeout.toNat < 2 ^ 32 → ReachesFlowLookup B s a m src t →
        (∀ f, (t.flows f).isSome → ¬ (t.flow f).timer.expirationTime < a.currentTime) ∧
          ((∃ f, (t.flows f).isSome) → t.totalUsedMem < t.totalMemoryLimit) := by
  obtain ⟨g, hk, hg⟩ := expiryOrdered_of_timed hs
  refine ⟨by rw [hk.timerList_eq]; exact hg.sorted, fun a m src t hle hfit h => ?_⟩
  obtain ⟨-, hts, s₁, s₂, hsrc, h0, hev, hsw⟩ := h
  -- the order holds at the start of the call, and every routine of the call keeps it
  have hI := keeps_inTime B a.currentTime
  obtain ⟨⟨g₁, hk₁, hs₁⟩, hlive₁⟩ := hI.findOrCreateSource hk ⟨hfit, hg.mono hle⟩ hts hsrc
  obtain ⟨hh₂, hc₂⟩ := hI.evictSource s₁.brk hk₁ hs₁ (hlive₁ h0)
  rw [hev] at hh₂
  obtain ⟨g₂, hk₂, hs₂⟩ : Holds (InTime a.currentTime) s₂ := hh₂
  have hh₃ := (hI.sweepTimers a.currentTime s₂.brk hk₂ hs₂ (hc₂ s₂ hev)).1
  rw [hsw] at hh₃
  obtain ⟨g₃, hk₃, hs₃⟩ : Holds (InTime a.currentTime) t := hh₃
  exact unexpired_of_exit hk₃ hs₃.ordered (sweepTimers_exit hk₂ (length_walk_le _ _ _) hsw)

/-- A call of a run in time, with the outcome `P` of the call decided on its result. -/
theorem Timed.manage_of {B : Build} {T : Nat} {s : State} (hs : Timed B T s) {a : Packet} {m : Malloc}
    (hle : T ≤ a.currentTime.toNat) (hfit : a.currentTime.toNat + s.timeout.toNat < 2 ^ 32)
    (P : State → Prop) [DecidablePred P]
    (h : (manageIpv6Fragment B s a m).map (fun x => decide (P x.1)) = some true) :
    ∃ t, Timed B a.currentTime.toNat t ∧ P t := by
  obtain ⟨⟨t, r⟩, hrun, hP⟩ := Option.map_eq_some'.1 h
  exact ⟨t, hs.manage hle hfit hrun, of_decide_eq_true hP⟩

/-- With the limits loose and a timeout of 30 seconds, fragments from `::1` at times 0 and 1 give
two flows whose timers expire at 30 and 31, in that order along the timer list. -/
theorem timers_in_order_two_flows :
    ∃ s, Timed lp64 1 s ∧ s.timerList = [2, 3] ∧
      ((s.timerList.map fun f => (s.flow f).timer.expirationTime).Pairwise (· ≤ ·) ∧
        ∀ (a : Packet) (m : Malloc) (src : Ptr) (t : State), 1 ≤ a.currentTime.toNat →
          a.currentTime.toNat + s.timeout.toNat < 2 ^ 32 → ReachesFlowLookup lp64 s a m src t →
          (∀ f, (t.flows f).isSome → ¬ (t.flow f).timer.expirationTime < a.currentTime) ∧
            ((∃ f, (t.flows f).isSome) → t.totalUsedMem < t.totalMemoryLimit)) := by
  have h₀ := (((Timed.enable 1 : Timed lp64 0 _).setPerHostMemoryLimit 0xFFFFFFFF).setTotalMemoryLimit
    0xFFFFFFFF).setReassemblyTimeout 30 fun _ => rfl
  obtain ⟨s₁, hs₁, hfit, h₁⟩ := h₀.manage_of (a := frag 1 1 (List.replicate 8 7) 0 8 1 0) (m := .ok)
    (by decide) (by decide) (fun t => 1 + t.timeout.toNat < 2 ^ 32 ∧
      (manageIpv6Fragment lp64 t (frag 1 2 (List.replicate 8 7) 0 8 1 1) .ok).map
        (fun x => decide (x.1.timerList = [2, 3])) = some true) (by decide)
  obtain ⟨s₂, hs₂, hl⟩ := hs₁.manage_of (a := frag 1 2 (List.replicate 8 7) 0 8 1 1) (m := .ok) (by decide) hfit
    (fun t => t.timerList = [2, 3]) h₁
  exact ⟨s₂, hs₂, hl, timers_in_order hs₂⟩

end Ipv6Reassembly
