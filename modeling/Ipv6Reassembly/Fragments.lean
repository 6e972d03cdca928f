import Mathlib.Data.List.Pairwise
import Mathlib.Algebra.BigOperators.Group.List
import Mathlib.Algebra.Order.Ring.Nat
import Ipv6Reassembly.Records

/-!
# The fragment list

The three fragment-list routines that `dpi_reordering_manage_ipv6_fragment` calls live in
reassembly.c, which is not under src/; they are modelled from the spec (§4.1). `insertFragment`
puts the new interval in place and cuts from the older fragments whatever it covers, so the newest
bytes win; `checkTrainOfContiguousFragments` tests that the list starts at `0` and has no gap;
`compactFragments` concatenates the fragments, or fails (`-1`) when their byte count is not the
declared length.

A list is `Sorted` when its fragments are non-empty and each ends before the next starts. The
lemmas give what the engine's accounting and completion rest on: `insertFragment` keeps a list
sorted (`sorted_insertFragment`), reports the change of `heldBytes` exactly
(`heldBytes_insertFragment`), and covers the old bytes plus the new interval
(`covers_insertFragment`).
-/

namespace Ipv6Reassembly

/-- The bytes a list of fragments holds, `Σ (end − offset)`. -/
def heldBytes (fs : List Fragment) : Nat := (fs.map fun f => f.end - f.offset).sum

/-- The part of `f` outside `[o, e)`: `f` is kept, shrunk, split in two or dropped. -/
def trim (o e : Nat) (f : Fragment) : List Fragment :=
  (if f.offset < o then [⟨f.offset, min f.end o, f.ptr.take (min f.end o - f.offset)⟩] else []) ++
    if e < f.end then [⟨max f.offset e, f.end, f.ptr.drop (max f.offset e - f.offset)⟩] else []

/-- Modelled from the spec: `dpi_reassembly_insert_fragment(&fragments, data, offset, end,
&bytes_removed, &bytes_inserted)`. The new interval replaces what the list holds in
`[offset, end)` and is placed in order; the result is the new list, `bytes_removed` and
`bytes_inserted`. -/
def insertFragment (fragments : List Fragment) (data : List UInt8) (offset «end» : Nat) :
    List Fragment × Nat × Nat :=
  let kept := fragments.flatMap (trim offset «end»)
  (kept.filter (·.end ≤ offset) ++ ⟨offset, «end», data⟩ :: kept.filter (¬ ·.end ≤ offset),
    heldBytes fragments - heldBytes kept, «end» - offset)

/-- Modelled from the spec: `dpi_reassembly_ip_check_train_of_contiguous_fragments`, which the
engine calls with the list alone: the first fragment starts at `o` and each next one starts where
the previous one ends. -/
def trainFrom : Nat → List Fragment → Bool
  | _, [] => true
  | o, f :: fs => f.offset = o && trainFrom f.end fs

/-- `dpi_reassembly_ip_check_train_of_contiguous_fragments`: a train from offset `0`. -/
def checkTrainOfContiguousFragments (fragments : List Fragment) : Bool := trainFrom 0 fragments

/-- Modelled from the spec: `dpi_reassembly_ip_compact_fragments(fragments, &pkt_data, len)`. The
fragments are written in order; the byte count, or `none` for `-1` when the count is not `len`. -/
def compactFragments (fragments : List Fragment) (len : Nat) : Option (Nat × List UInt8) :=
  if heldBytes fragments = len then some (len, fragments.flatMap (·.ptr)) else none

/-- Fragments in order, each ending before the next starts. A fragment may be empty: nothing
screens out an empty fragmentable part. -/
def Sorted (fs : List Fragment) : Prop :=
  (∀ f ∈ fs, f.offset ≤ f.end) ∧ fs.Pairwise fun a b => a.end ≤ b.offset

@[simp]
theorem sorted_nil : Sorted [] := ⟨by simp, List.Pairwise.nil⟩

/-- Some fragment holds the byte at `i`. -/
def covers (fs : List Fragment) (i : Nat) : Prop := ∃ f ∈ fs, f.offset ≤ i ∧ i < f.end

@[simp]
theorem covers_nil (i : Nat) : ¬ covers [] i := fun ⟨_, h, _⟩ => List.not_mem_nil _ h

@[simp]
theorem covers_cons (f : Fragment) (fs : List Fragment) (i : Nat) :
    covers (f :: fs) i ↔ (f.offset ≤ i ∧ i < f.end) ∨ covers fs i := by
  simp only [covers, List.mem_cons, or_and_right, exists_or, exists_eq_left]

@[simp]
theorem heldBytes_nil : heldBytes [] = 0 := rfl

@[simp]
theorem heldBytes_cons (f : Fragment) (fs : List Fragment) :
    heldBytes (f :: fs) = f.end - f.offset + heldBytes fs := by
  simp [heldBytes]

@[simp]
theorem heldBytes_append (fs gs : List Fragment) :
    heldBytes (fs ++ gs) = heldBytes fs + heldBytes gs := by
  simp [heldBytes]

theorem heldBytes_filter_add (p : Fragment → Bool) (fs : List Fragment) :
    heldBytes (fs.filter p) + heldBytes (fs.filter fun f => !p f) = heldBytes fs := by
  induction fs with
  | nil => rfl
  | cons f fs ih => by_cases h : p f <;> simp [List.filter_cons, h, ← ih] <;> omega

/-! ## Trimming one fragment -/

section Trim

variable {o e : Nat} {f g : Fragment}

/-- The two pieces `trim` can keep: the part before `o` and the part after `e`. -/
theorem mem_trim : g ∈ trim o e f ↔
    (f.offset < o ∧ g = ⟨f.offset, min f.end o, f.ptr.take (min f.end o - f.offset)⟩) ∨
      (e < f.end ∧ g = ⟨max f.offset e, f.end, f.ptr.drop (max f.offset e - f.offset)⟩) := by
  unfold trim
  split_ifs <;> simp only [List.mem_append, List.mem_singleton, List.not_mem_nil, *, true_and, false_and,
    or_false, false_or]

theorem heldBytes_trim_le (hoe : o ≤ e) (f : Fragment) : heldBytes (trim o e f) ≤ f.end - f.offset := by
  unfold trim
  split_ifs <;> simp only [heldBytes_append, heldBytes_cons, heldBytes_nil] <;> omega

theorem mem_trim_bounds (hg : g ∈ trim o e f) : f.offset ≤ g.offset ∧ g.end ≤ f.end := by
  rcases mem_trim.1 hg with ⟨-, rfl⟩ | ⟨-, rfl⟩ <;> dsimp only <;> omega

/-- A piece of a trimmed fragment lies before `o` or after `e`. -/
theorem mem_trim_outside (hg : g ∈ trim o e f) : g.end ≤ o ∨ e ≤ g.offset := by
  rcases mem_trim.1 hg with ⟨-, rfl⟩ | ⟨-, rfl⟩ <;> dsimp only <;> omega

theorem mem_trim_le (hf : f.offset ≤ f.end) (hg : g ∈ trim o e f) : g.offset ≤ g.end := by
  rcases mem_trim.1 hg with ⟨h, rfl⟩ | ⟨h, rfl⟩ <;> dsimp only <;> omega

theorem sorted_trim (hoe : o ≤ e) (f : Fragment) :
    (trim o e f).Pairwise fun a b => a.end ≤ b.offset := by
  unfold trim
  split_ifs <;> simp only [List.singleton_append, List.nil_append, List.append_nil, List.pairwise_pair,
    List.pairwise_singleton, List.Pairwise.nil]
  omega

/-- The bytes a trimmed fragment still holds: those of `f` outside `[o, e)`. -/
theorem covers_trim (i : Nat) :
    covers (trim o e f) i ↔ (f.offset ≤ i ∧ i < f.end) ∧ ¬ (o ≤ i ∧ i < e) := by
  unfold trim
  split_ifs <;>
    simp only [List.singleton_append, List.nil_append, covers_cons, covers_nil, or_false, false_iff] <;> omega

end Trim

/-! ## Insertion -/

section Insert

variable {fs : List Fragment} {data : List UInt8} {o e : Nat}

theorem heldBytes_flatMap_trim_le (hoe : o ≤ e) (fs : List Fragment) :
    heldBytes (fs.flatMap (trim o e)) ≤ heldBytes fs := by
  induction fs with
  | nil => rfl
  | cons f fs ih =>
    simp only [List.flatMap_cons, heldBytes_append, heldBytes_cons]
    have := heldBytes_trim_le hoe f
    omega

/-- `bytes_inserted − bytes_removed` is the change of the bytes the list holds. -/
theorem heldBytes_insertFragment (hoe : o ≤ e) :
    heldBytes (insertFragment fs data o e).1 + (insertFragment fs data o e).2.1 =
      heldBytes fs + (insertFragment fs data o e).2.2 := by
  have h1 := heldBytes_filter_add (fun f => decide (f.end ≤ o)) (fs.flatMap (trim o e))
  have h2 := heldBytes_flatMap_trim_le hoe fs
  simp only [insertFragment, heldBytes_append, heldBytes_cons, decide_not]
  omega

theorem mem_insertFragment {g : Fragment} :
    g ∈ (insertFragment fs data o e).1 ↔ g = ⟨o, e, data⟩ ∨ ∃ f ∈ fs, g ∈ trim o e f := by
  simp only [insertFragment, List.mem_append, List.mem_cons, List.mem_filter, List.mem_flatMap]
  constructor
  · rintro (⟨h, -⟩ | rfl | ⟨h, -⟩)
    exacts [.inr h, .inl rfl, .inr h]
  · rintro (rfl | h)
    · exact .inr (.inl rfl)
    · by_cases hg : g.end ≤ o
      · exact .inl ⟨h, by simpa using hg⟩
      · exact .inr (.inr ⟨h, by simpa using hg⟩)

theorem covers_insertFragment (i : Nat) :
    covers (insertFragment fs data o e).1 i ↔ (o ≤ i ∧ i < e) ∨ covers fs i := by
  constructor
  · rintro ⟨g, hg, hi⟩
    rcases mem_insertFragment.1 hg with rfl | ⟨f, hf, hgf⟩
    · exact .inl hi
    · have := (covers_trim i).1 ⟨g, hgf, hi⟩
      exact .inr ⟨f, hf, this.1⟩
  · rintro (hi | ⟨f, hf, hi⟩)
    · exact ⟨_, mem_insertFragment.2 (.inl rfl), hi⟩
    · by_cases hin : o ≤ i ∧ i < e
      · exact ⟨_, mem_insertFragment.2 (.inl rfl), hin⟩
      · obtain ⟨g, hg, hgi⟩ := (covers_trim (o := o) (e := e) (f := f) i).2 ⟨hi, hin⟩
        exact ⟨g, mem_insertFragment.2 (.inr ⟨f, hf, hg⟩), hgi⟩

/-- Insertion keeps a list sorted. -/
theorem sorted_insertFragment (hoe : o ≤ e) (hs : Sorted fs) : Sorted (insertFragment fs data o e).1 := by
  have hkept : Sorted (fs.flatMap (trim o e)) := by
    refine ⟨fun g hg => ?_, List.pairwise_flatMap.2 ⟨fun f _ => sorted_trim hoe f, ?_⟩⟩
    · obtain ⟨f, hf, hgf⟩ := List.mem_flatMap.1 hg
      exact mem_trim_le (hs.1 f hf) hgf
    · refine hs.2.imp fun {a b} hab x hx y hy => ?_
      have := mem_trim_bounds hx
      have := mem_trim_bounds hy
      omega
  have hafter : ∀ y ∈ (fs.flatMap (trim o e)).filter (¬ ·.end ≤ o), e ≤ y.offset := by
    intro y hy
    obtain ⟨hy, hyo⟩ := List.mem_filter.1 hy
    obtain ⟨f, -, hyf⟩ := List.mem_flatMap.1 hy
    have := mem_trim_outside hyf
    simp only [decide_eq_true_eq] at hyo
    omega
  refine ⟨fun g hg => ?_, ?_⟩
  · rcases mem_insertFragment.1 hg with rfl | ⟨f, hf, hgf⟩
    · exact hoe
    · exact hkept.1 g (List.mem_flatMap.2 ⟨f, hf, hgf⟩)
  · refine List.pairwise_append.2 ⟨hkept.2.filter _, List.pairwise_cons.2 ⟨fun y hy => hafter y hy,
      hkept.2.filter _⟩, fun a ha b hb => ?_⟩
    have hao : a.end ≤ o := by simpa using (List.mem_filter.1 ha).2
    rcases List.mem_cons.1 hb with rfl | hb
    · exact hao
    · have := hafter b hb
      omega

end Insert

/-! ## Slices of one payload -/

section Slices

variable {P : List UInt8} {o e : Nat} {f g : Fragment}

/-- The fragment holds the bytes `[offset, end)` of the payload `P`. -/
def SliceOf (P : List UInt8) (f : Fragment) : Prop :=
  f.end ≤ P.length ∧ f.ptr = (P.drop f.offset).take (f.end - f.offset)

theorem sliceOf_trim (hf : SliceOf P f) (hg : g ∈ trim o e f) : SliceOf P g := by
  rcases mem_trim.1 hg with ⟨-, rfl⟩ | ⟨-, rfl⟩
  · refine ⟨by have := hf.1; dsimp only; omega, ?_⟩
    dsimp only
    rw [hf.2, List.take_take]
    congr 1
    omega
  · refine ⟨hf.1, ?_⟩
    dsimp only
    rw [hf.2, List.drop_take, List.drop_drop,
      show f.offset + (max f.offset e - f.offset) = max f.offset e by omega,
      show f.end - f.offset - (max f.offset e - f.offset) = f.end - max f.offset e by omega]

theorem sliceOf_insertFragment {fs : List Fragment} (hfs : ∀ f ∈ fs, SliceOf P f)
    (hnew : SliceOf P ⟨o, e, (P.drop o).take (e - o)⟩) :
    ∀ g ∈ (insertFragment fs ((P.drop o).take (e - o)) o e).1, SliceOf P g := by
  intro g hg
  rcases mem_insertFragment.1 hg with rfl | ⟨f, hf, hgf⟩
  · exact hnew
  · exact sliceOf_trim (hfs f hf) hgf

end Slices

/-! ## Trains -/

section Train

variable {o m : Nat} {fs : List Fragment}

/-- Where a train from `o` ends. -/
def trainEnd : Nat → List Fragment → Nat
  | o, [] => o
  | _, f :: fs => trainEnd f.end fs

theorem le_trainEnd (ht : trainFrom o fs = true) (hne : ∀ f ∈ fs, f.offset ≤ f.end) :
    o ≤ trainEnd o fs := by
  induction fs generalizing o with
  | nil => exact le_refl o
  | cons f fs ih =>
    simp only [trainFrom, Bool.and_eq_true, decide_eq_true_eq] at ht
    have := ih ht.2 (fun g hg => hne g (by simp [hg]))
    have := hne f (by simp)
    simp only [trainEnd]
    omega

/-- A train from `o` of non-empty fragments holds exactly the bytes `[o, trainEnd o fs)`. -/
theorem covers_of_trainFrom (ht : trainFrom o fs = true) (hne : ∀ f ∈ fs, f.offset ≤ f.end)
    (i : Nat) : covers fs i ↔ o ≤ i ∧ i < trainEnd o fs := by
  induction fs generalizing o with
  | nil => simp [covers, trainEnd]
  | cons f fs ih =>
    simp only [trainFrom, Bool.and_eq_true, decide_eq_true_eq] at ht
    have hf := hne f (by simp)
    have hrest := ih ht.2 (fun g hg => hne g (by simp [hg]))
    have := le_trainEnd ht.2 (fun g hg => hne g (by simp [hg]))
    simp only [covers, List.mem_cons, exists_eq_or_imp, trainEnd] at hrest ⊢
    rw [hrest]
    omega

/-- Fragments in order that lie in `[o, m)` and cover it form a train from `o`. -/
theorem trainFrom_of_covers (hs : Sorted fs) (hlo : ∀ f ∈ fs, o ≤ f.offset)
    (hhi : ∀ f ∈ fs, f.end ≤ m) (hcov : ∀ i, o ≤ i → i < m → covers fs i) :
    trainFrom o fs = true := by
  induction fs generalizing o with
  | nil => rfl
  | cons f fs ih =>
    have hf := hs.1 f (by simp)
    have hfs := List.pairwise_cons.1 hs.2
    have hfo : f.offset = o := by
      have := hlo f (by simp)
      have := hhi f (by simp)
      by_cases hom : o < m
      · obtain ⟨g, hg, hgo, hog⟩ := hcov o le_rfl hom
        rcases List.mem_cons.1 hg with rfl | hg
        · omega
        · have := hfs.1 g hg
          omega
      · omega
    simp only [trainFrom, hfo, decide_True, Bool.true_and]
    refine ih ⟨fun g hg => hs.1 g (by simp [hg]), hfs.2⟩ (fun g hg => hfs.1 g hg)
      (fun g hg => hhi g (by simp [hg])) fun i hi him => ?_
    obtain ⟨g, hg, hgi⟩ := hcov i (by omega) him
    rcases List.mem_cons.1 hg with rfl | hg
    · omega
    · exact ⟨g, hg, hgi⟩

/-- Every fragment of a train ends at or before the train's end. -/
theorem end_le_trainEnd (ht : trainFrom o fs = true) (hne : ∀ f ∈ fs, f.offset ≤ f.end) :
    ∀ f ∈ fs, f.end ≤ trainEnd o fs := by
  induction fs generalizing o with
  | nil => simp
  | cons f fs ih =>
    simp only [trainFrom, Bool.and_eq_true, decide_eq_true_eq] at ht
    have hrest := ih ht.2 (fun g hg => hne g (by simp [hg]))
    intro g hg
    rcases List.mem_cons.1 hg with rfl | hg
    · exact le_trainEnd ht.2 (fun g hg => hne g (by simp [hg]))
    · exact hrest g hg

theorem heldBytes_of_trainFrom (ht : trainFrom o fs = true) (hne : ∀ f ∈ fs, f.offset ≤ f.end) :
    heldBytes fs = trainEnd o fs - o := by
  induction fs generalizing o with
  | nil => simp [trainEnd]
  | cons f fs ih =>
    simp only [trainFrom, Bool.and_eq_true, decide_eq_true_eq] at ht
    have hrest := ih ht.2 (fun g hg => hne g (by simp [hg]))
    have := le_trainEnd ht.2 (fun g hg => hne g (by simp [hg]))
    have := hne f (by simp)
    simp only [heldBytes_cons, trainEnd, hrest]
    omega

/-- The bytes of a train of slices of `P` are `P` from `o` to the train's end. -/
theorem flatMap_ptr_of_trainFrom {P : List UInt8} (ht : trainFrom o fs = true)
    (hne : ∀ f ∈ fs, f.offset ≤ f.end) (hsl : ∀ f ∈ fs, SliceOf P f) :
    fs.flatMap (·.ptr) = (P.drop o).take (trainEnd o fs - o) := by
  induction fs generalizing o with
  | nil => simp [trainEnd]
  | cons f fs ih =>
    simp only [trainFrom, Bool.and_eq_true, decide_eq_true_eq] at ht
    have hrest := ih ht.2 (fun g hg => hne g (by simp [hg])) (fun g hg => hsl g (by simp [hg]))
    have := le_trainEnd ht.2 (fun g hg => hne g (by simp [hg]))
    have := hne f (by simp)
    obtain rfl := ht.1
    rw [List.flatMap_cons, hrest, (hsl f (by simp)).2, trainEnd,
      show trainEnd f.end fs - f.offset = (f.end - f.offset) + (trainEnd f.end fs - f.end) by omega,
      List.take_add, List.drop_drop, Nat.add_sub_cancel' (by omega)]

end Train

end Ipv6Reassembly
