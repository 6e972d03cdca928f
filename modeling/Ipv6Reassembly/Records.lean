import Mathlib.Logic.Function.Basic
import Mathlib.Data.List.Basic

/-!
# Records of the IPv6 reassembly engine

`ipv6_reassembly.cpp` keeps three kinds of heap records: sources
(`dpi_ipv6_fragmentation_source_t`), flows (`dpi_ipv6_fragmentation_flow_t`) with the timer
embedded in each (`dpi_reassembly_timer_t`), and the fragments a flow owns
(`dpi_reassembly_fragment_t`). The engine (`dpi_ipv6_fragmentation_state_t`) owns a hash table of
source chains and the timer list. Records live in two heaps addressed by `Ptr`, `0` being `NULL`,
and `malloc` hands out the address `brk` and moves it on, so a fresh record never aliases a live
one. A timer is addressed by the flow it is embedded in: `&flow->timer` is written `flow`.

The sizes of the records and the engine's default limits are fixed by the build and by a header
that is not under src/; they are the fields of `Build`.
-/

namespace Ipv6Reassembly

/-- Addresses of heap records; `0` is `NULL`. -/
abbrev Ptr := Nat

/-- `struct in6_addr`: the sixteen bytes `s6_addr`. -/
@[ext]
structure In6Addr where
  s6Addr : List UInt8
  length_s6Addr : s6Addr.length = 16

/-- `dpi_v6_addresses_equal`: addresses are compared byte by byte. Deciding on the bytes alone
keeps the comparison free of casts, so that it evaluates. -/
instance : DecidableEq In6Addr := fun a b => decidable_of_iff (a.s6Addr = b.s6Addr) In6Addr.ext_iff.symm

instance : Inhabited In6Addr := ⟨⟨List.replicate 16 0, rfl⟩⟩

/-- `dpi_reassembly_fragment_t` (declared in reassembly.h, which is not under src/): the bytes
`ptr` of the interval `[offset, end)` of the fragmentable part. -/
structure Fragment where
  offset : Nat
  «end» : Nat
  ptr : List UInt8
deriving DecidableEq, Inhabited

/-- `dpi_reassembly_timer_t` (reassembly.h, not under src/): the expiration time, the flow it
belongs to (`data`) and its links in the timer list. -/
structure Timer where
  expirationTime : UInt32
  data : Ptr
  prev : Ptr
  next : Ptr
deriving DecidableEq, Inhabited

/-- `dpi_ipv6_fragmentation_flow_t`. The stored copy of the unfragmentable part is `none` while
`flow->unfragmentable` is `NULL`; `unfragmentable_length` is the length of the copy. -/
structure Flow where
  unfragmentable : Option (List UInt8)
  len : UInt16
  id : UInt32
  dstaddr : In6Addr
  fragments : List Fragment
  next : Ptr
  prev : Ptr
  timer : Timer
  source : Ptr
deriving Inhabited

/-- `dpi_ipv6_fragmentation_source_t`. -/
structure Source where
  flows : Ptr
  sourceUsedMem : UInt32
  ipv6Srcaddr : In6Addr
  row : UInt16
  prev : Ptr
  next : Ptr
deriving Inhabited

/-- `flow->unfragmentable_length`, the length of the stored unfragmentable part. -/
def Flow.unfragmentableLength (f : Flow) : Nat :=
  (f.unfragmentable.map List.length).getD 0

/-- The map `f` with the entry at `p` set to `v`: a store into the table or into a heap. It is a
plain `if` where `Function.update` has a cast, so that runs of the engine evaluate by `decide`. -/
def write {α : Type} (f : Ptr → α) (p : Ptr) (v : α) : Ptr → α := fun q => if q = p then v else f q

@[simp] theorem write_eq_update {α : Type} (f : Ptr → α) (p : Ptr) (v : α) :
    write f p v = Function.update f p v := by
  funext q; simp [write, Function.update_apply]

/-- `dpi_ipv6_fragmentation_state_t`, with the two heaps of records it points into. -/
structure State where
  table : Nat → Ptr
  totalUsedMem : UInt32
  tableSize : UInt16
  timerHead : Ptr
  timerTail : Ptr
  perSourceMemoryLimit : UInt32
  totalMemoryLimit : UInt32
  timeout : UInt8
  sources : Ptr → Option Source
  flows : Ptr → Option Flow
  brk : Ptr

/-- What the build fixes: `sizeof` of the two records and the defaults
`DPI_IPv6_FRAGMENTATION_DEFAULT_PER_HOST_MEMORY_LIMIT`, `..._TOTAL_MEMORY_LIMIT` and
`..._REASSEMBLY_TIMEOUT`. -/
structure Build where
  sizeofSource : UInt32
  sizeofFlow : UInt32
  defaultPerHostMemoryLimit : UInt32
  defaultTotalMemoryLimit : UInt32
  defaultReassemblyTimeout : UInt8

/-- `sizeof(struct ip6_hdr)`. -/
def sizeofIp6Hdr : Nat := 40

namespace State

/-- The source record at `p`; an address with no record reads as the default record. -/
def source (s : State) (p : Ptr) : Source := (s.sources p).getD default

/-- The flow record at `p`. -/
def flow (s : State) (p : Ptr) : Flow := (s.flows p).getD default

/-- Store `r` at `p`. -/
@[simps]
def setSource (s : State) (p : Ptr) (r : Source) : State :=
  { s with sources := write s.sources p (some r) }

/-- Store `r` at `p`. -/
@[simps]
def setFlow (s : State) (p : Ptr) (r : Flow) : State :=
  { s with flows := write s.flows p (some r) }

/-- `free` of the source record at `p`. -/
@[simps]
def freeSource (s : State) (p : Ptr) : State :=
  { s with sources := write s.sources p none }

/-- `free` of the flow record at `p`. -/
@[simps]
def freeFlow (s : State) (p : Ptr) : State :=
  { s with flows := write s.flows p none }

/-- Rewrite the source record at `p` by `g`; a write through a pointer to no record is dropped. -/
@[simps]
def modifySource (s : State) (p : Ptr) (g : Source → Source) : State :=
  { s with sources := write s.sources p ((s.sources p).map g) }

/-- Rewrite the flow record at `p` by `g`; a write through a pointer to no record is dropped. -/
@[simps]
def modifyFlow (s : State) (p : Ptr) (g : Flow → Flow) : State :=
  { s with flows := write s.flows p ((s.flows p).map g) }

/-- Rewrite the timer embedded in the flow at `p` by `g`. -/
def modifyTimer (s : State) (p : Ptr) (g : Timer → Timer) : State :=
  s.modifyFlow p fun f => { f with timer := g f.timer }

theorem source_setSource (s : State) (p q : Ptr) (r : Source) :
    (s.setSource p r).source q = if q = p then r else s.source q := by
  by_cases h : q = p <;> simp [source, h]

theorem flow_setFlow (s : State) (p q : Ptr) (r : Flow) :
    (s.setFlow p r).flow q = if q = p then r else s.flow q := by
  by_cases h : q = p <;> simp [flow, h]

theorem source_modifySource {s : State} {p q : Ptr} {g : Source → Source} (h : (s.sources p).isSome) :
    (s.modifySource p g).source q = if q = p then g (s.source p) else s.source q := by
  obtain ⟨r, hr⟩ := Option.isSome_iff_exists.1 h
  by_cases hq : q = p <;> simp [source, hq, hr]

theorem flow_modifyFlow {s : State} {p q : Ptr} {g : Flow → Flow} (h : (s.flows p).isSome) :
    (s.modifyFlow p g).flow q = if q = p then g (s.flow p) else s.flow q := by
  obtain ⟨r, hr⟩ := Option.isSome_iff_exists.1 h
  by_cases hq : q = p <;> simp [flow, hq, hr]

end State

end Ipv6Reassembly
