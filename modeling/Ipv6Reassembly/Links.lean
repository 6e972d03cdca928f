import Mathlib.Data.List.Nodup
import Ipv6Reassembly.Records

/-!
# Doubly-linked lists through pointer fields

The engine threads three intrusive doubly-linked lists through its records: the chain of sources
in a bucket, the flows of a source, and the timer list. `Seg next prev b p xs q` says that from
`p`, whose predecessor is `b`, the `next` links visit exactly the nodes `xs` and then reach `q`,
and that each node's `prev` link is the node before it; a whole list is a segment from `NULL` to
`NULL`. `walk` follows `next` links for a bounded number of steps and returns a well-formed list
itself (`walk_eq`). The three list surgeries of the C code are `seg_push` (insertion at the
head), `seg_snoc` (insertion after the tail) and `seg_unlink`, and `Seg.congr` is the frame
lemma: a list reads the links of its own nodes only.
-/

namespace Ipv6Reassembly

/-- From `p` with predecessor `b`, the `next` links visit `xs` and then reach `q`, and the `prev`
links point back. -/
def Seg (next prev : Ptr → Ptr) : Ptr → Ptr → List Ptr → Ptr → Prop
  | _, p, [], q => p = q
  | b, p, x :: xs, q => p = x ∧ x ≠ 0 ∧ prev x = b ∧ Seg next prev x (next x) xs q

/-- The nodes met by following `next` from `p`, for at most `n` steps. -/
def walk (next : Ptr → Ptr) : Nat → Ptr → List Ptr
  | 0, _ => []
  | n + 1, p => if p = 0 then [] else p :: walk next n (next p)

/-- A walk from `NULL` meets nothing. -/
@[simp]
theorem walk_null (next : Ptr → Ptr) : ∀ n, walk next n 0 = []
  | 0 => rfl
  | _ + 1 => if_pos rfl

section

variable {next prev next' prev' : Ptr → Ptr}

@[simp]
theorem seg_nil {b p q : Ptr} : Seg next prev b p [] q ↔ p = q := Iff.rfl

@[simp]
theorem seg_cons {b p q x : Ptr} {xs : List Ptr} :
    Seg next prev b p (x :: xs) q ↔ p = x ∧ x ≠ 0 ∧ prev x = b ∧ Seg next prev x (next x) xs q :=
  Iff.rfl

/-- A list reads only the links of its own nodes. -/
theorem Seg.congr {xs : List Ptr} (hn : ∀ x ∈ xs, next' x = next x)
    (hp : ∀ x ∈ xs, prev' x = prev x) {b p q : Ptr} (h : Seg next prev b p xs q) :
    Seg next' prev' b p xs q := by
  induction xs generalizing b p with
  | nil => exact h
  | cons x xs ih =>
    obtain ⟨rfl, hx, hb, hs⟩ := h
    refine ⟨rfl, hx, (hp p (by simp)).trans hb, ?_⟩
    rw [hn p (by simp)]
    exact ih (fun y hy => hn y (by simp [hy])) (fun y hy => hp y (by simp [hy])) hs

theorem Seg.ne_zero {xs : List Ptr} {b p q : Ptr} (h : Seg next prev b p xs q) : 0 ∉ xs := by
  induction xs generalizing b p with
  | nil => simp
  | cons x xs ih =>
    obtain ⟨-, hx, -, hs⟩ := h
    simpa [Ne.symm hx] using ih hs

theorem Seg.head_eq {xs : List Ptr} {b p q : Ptr} (h : Seg next prev b p xs q) :
    p = xs.headD q := by
  cases xs with
  | nil => exact h
  | cons x xs => exact h.1

theorem Seg.mem_of_ne_zero {xs : List Ptr} {b p : Ptr} (h : Seg next prev b p xs 0) (hp : p ≠ 0) :
    p ∈ xs := by
  cases xs with
  | nil => exact absurd h hp
  | cons x xs => simp [h.1]

theorem seg_append {l₁ l₂ : List Ptr} {b p q : Ptr} :
    Seg next prev b p (l₁ ++ l₂) q ↔ ∃ m, Seg next prev b p l₁ m ∧ Seg next prev (l₁.getLastD b) m l₂ q := by
  induction l₁ generalizing b p with
  | nil => simp
  | cons x l₁ ih =>
    simp only [List.cons_append, seg_cons, ih, List.getLastD_cons]
    constructor
    · rintro ⟨h1, h2, h3, m, hm, hm'⟩
      exact ⟨m, ⟨h1, h2, h3, hm⟩, hm'⟩
    · rintro ⟨m, ⟨h1, h2, h3, hm⟩, hm'⟩
      exact ⟨h1, h2, h3, m, hm, hm'⟩

/-- The nodes of a list ending in `NULL` are determined by its first pointer. -/
theorem Seg.unique {xs ys : List Ptr} {b b' p : Ptr} (h : Seg next prev b p xs 0)
    (h' : Seg next prev b' p ys 0) : xs = ys := by
  induction xs generalizing b b' p ys with
  | nil => cases ys with
    | nil => rfl
    | cons y ys => exact absurd (h.symm.trans h'.1).symm h'.2.1
  | cons x xs ih => cases ys with
    | nil => exact absurd (h.1.symm.trans h') h.2.1
    | cons y ys =>
      obtain ⟨rfl, -, -, hs⟩ := h
      obtain ⟨rfl, -, -, hs'⟩ := h'
      rw [ih hs hs']

/-- A list ending in `NULL` has no cycle: its nodes are distinct. -/
theorem Seg.nodup {xs : List Ptr} {b p : Ptr} (h : Seg next prev b p xs 0) : xs.Nodup := by
  induction xs generalizing b p with
  | nil => exact List.nodup_nil
  | cons x xs ih =>
    obtain ⟨-, hx, hb, hs⟩ := h
    refine List.nodup_cons.2 ⟨fun hmem => ?_, ih hs⟩
    obtain ⟨t₁, t₂, rfl⟩ := List.append_of_mem hmem
    obtain ⟨m, -, hm⟩ := seg_append.1 hs
    obtain rfl : m = x := hm.1
    have := congrArg List.length (Seg.unique (seg_cons.2 ⟨rfl, hx, hb, hs⟩) hm)
    simp at this
    omega

/-- A list ending in `NULL`, with at most `n` nodes, is what `walk` returns. -/
theorem walk_eq {xs : List Ptr} {b p : Ptr} {n : Nat} (h : Seg next prev b p xs 0)
    (hn : xs.length ≤ n) : walk next n p = xs := by
  induction xs generalizing b p n with
  | nil => rw [show p = 0 from h, walk_null]
  | cons x xs ih =>
    obtain ⟨rfl, hx, -, hs⟩ := h
    obtain ⟨n, rfl⟩ : ∃ k, n = k + 1 := ⟨n - 1, by simp at hn; omega⟩
    simp only [walk, hx, ↓reduceIte, ih hs (by simpa using hn)]

/-- Insertion at the head, as `find_or_create_source` and `find_or_create_flow` do it. -/
theorem seg_push {h n : Ptr} {xs : List Ptr} (hs : Seg next prev 0 h xs 0) (hn : n ∉ xs) (n0 : n ≠ 0) (hnx : ∀ x ∈ xs, next' x = next x)
    (hpx : ∀ x ∈ xs, x ≠ h → prev' x = prev x) (hnn : next' n = h) (hnp : prev' n = 0)
    (hh : h ≠ 0 → prev' h = n) : Seg next' prev' 0 n (n :: xs) 0 := by
  refine ⟨rfl, n0, hnp, ?_⟩
  rw [hnn]
  cases xs with
  | nil => exact hs
  | cons x t =>
    have hxt : x ∉ t := (List.nodup_cons.1 hs.nodup).1
    obtain ⟨rfl, hx, -, ht⟩ := hs
    refine ⟨rfl, hx, hh hx, ?_⟩
    rw [hnx h (by simp)]
    exact ht.congr (fun y hy => hnx y (by simp [hy]))
      (fun y hy => hpx y (by simp [hy]) (fun e => hxt (e ▸ hy)))

theorem getLastD_snoc (l : List Ptr) (x d : Ptr) : (l ++ [x]).getLastD d = x := by
  simp [List.getLastD_eq_getLast?]

/-- Insertion after the tail, as `dpi_reassembly_add_timer` does it. -/
theorem seg_snoc {h n : Ptr} {xs : List Ptr} (hs : Seg next prev 0 h xs 0)
    (hn : n ∉ xs) (n0 : n ≠ 0) (hnx : ∀ x ∈ xs, x ≠ xs.getLastD 0 → next' x = next x)
    (hpx : ∀ x ∈ xs, prev' x = prev x) (ht : xs.getLastD 0 ≠ 0 → next' (xs.getLastD 0) = n)
    (hnn : next' n = 0) (hnp : prev' n = xs.getLastD 0) :
    Seg next' prev' 0 (if xs.getLastD 0 = 0 then n else h) (xs ++ [n]) 0 := by
  induction xs using List.reverseRecOn with
  | nil => simpa [n0] using ⟨hnp, hnn⟩
  | append_singleton l x _ =>
    have hx : x ≠ 0 := fun e => hs.ne_zero (by simp [e])
    have hxl : x ∉ l := fun hm => (List.nodup_append.1 hs.nodup).2.2 hm (List.mem_singleton_self x)
    simp only [getLastD_snoc] at hnx ht hnp ⊢
    rw [if_neg hx]
    obtain ⟨m, hm, hm'⟩ := seg_append.1 hs
    obtain ⟨rfl, -, hpx', hm0⟩ := hm'
    rw [List.append_assoc, seg_append]
    refine ⟨m, hm.congr (fun y hy => hnx y (by simp [hy]) (fun e => hxl (e ▸ hy))) ?_, ?_⟩
    · exact fun y hy => hpx y (by simp [hy])
    · refine ⟨rfl, hx, (hpx m (by simp)).trans hpx', ?_⟩
      rw [ht hx]
      exact ⟨rfl, n0, hnp, hnn⟩

theorem Seg.prev_mem {xs : List Ptr} {b p q x : Ptr} (h : Seg next prev b p xs q) (hx : x ∈ xs) :
    prev x = b ∨ prev x ∈ xs := by
  induction xs generalizing b p with
  | nil => simp at hx
  | cons y t ih =>
    obtain ⟨-, -, hb, hs⟩ := h
    rcases List.mem_cons.1 hx with rfl | hx
    · exact .inl hb
    · rcases ih hs hx with e | e <;> simp [e]

theorem Seg.next_mem {xs : List Ptr} {b p x : Ptr} (h : Seg next prev b p xs 0) (hx : x ∈ xs) :
    next x = 0 ∨ next x ∈ xs := by
  induction xs generalizing b p with
  | nil => simp at hx
  | cons y t ih =>
    obtain ⟨-, -, -, hs⟩ := h
    rcases List.mem_cons.1 hx with rfl | hx
    · cases t with
      | nil => exact .inl hs
      | cons z u => exact .inr (by simp [hs.1])
    · rcases ih hs hx with e | e <;> simp [e]

/-- No node is its own predecessor. -/
theorem Seg.prev_ne_self {xs : List Ptr} {b p x : Ptr} (h : Seg next prev b p xs 0) (hb : b ∉ xs)
    (hx : x ∈ xs) : prev x ≠ x := by
  induction xs generalizing b p with
  | nil => simp at hx
  | cons y t ih =>
    have hyt : y ∉ t := (List.nodup_cons.1 h.nodup).1
    obtain ⟨-, -, hyb, ht⟩ := h
    rcases List.mem_cons.1 hx with rfl | hx
    · exact fun e => hb (by simp [← hyb, e])
    · exact ih ht hyt hx

/-- No node is its own successor. -/
theorem Seg.next_ne_self {xs : List Ptr} {b p x : Ptr} (h : Seg next prev b p xs 0) (hx : x ∈ xs) :
    next x ≠ x := by
  induction xs generalizing b p with
  | nil => simp at hx
  | cons y t ih =>
    have hyt : y ∉ t := (List.nodup_cons.1 h.nodup).1
    obtain ⟨-, hy, -, ht⟩ := h
    rcases List.mem_cons.1 hx with rfl | hx
    · cases t with
      | nil => exact fun e => hy (e.symm.trans (seg_nil.1 ht))
      | cons z u => exact fun e => hyt (by rw [← e, ht.1]; exact List.mem_cons_self _ _)
    · exact ih ht hx

/-- Unlinking the node `x`, as `dpi_reassembly_delete_timer`, `delete_flow` and `delete_source`
do it: the predecessor's `next` (or the head) takes `next x`, and the successor's `prev` takes
`prev x`. -/
theorem seg_unlink {b p x : Ptr} {xs : List Ptr} (hs : Seg next prev b p xs 0) (hb : b ∉ xs)
    (hx : x ∈ xs) (hnx : ∀ y ∈ xs, y ≠ x → y ≠ prev x → next' y = next y)
    (hpx : ∀ y ∈ xs, y ≠ x → y ≠ next x → prev' y = prev y) (ha : prev x ≠ b → next' (prev x) = next x)
    (hc : next x ≠ 0 → prev' (next x) = prev x) :
    Seg next' prev' b (if prev x = b then next x else p) (xs.erase x) 0 := by
  induction xs generalizing b p with
  | nil => simp at hx
  | cons y t ih =>
    have hyt : y ∉ t := (List.nodup_cons.1 hs.nodup).1
    obtain ⟨rfl, hy, hyb, ht⟩ := hs
    by_cases hxy : x = p
    · subst hxy
      rw [if_pos hyb, List.erase_cons_head]
      cases t with
      | nil => exact ht
      | cons z u =>
        have hzu : z ∉ u := (List.nodup_cons.1 ht.nodup).1
        obtain ⟨hz, hz0, -, hu⟩ := ht
        refine ⟨hz, hz0, ?_, ?_⟩
        · rw [← hz, hc (hz ▸ hz0), hyb]
        · rw [hnx z (by simp) (fun e => hyt (by simp [e])) (fun e => hb (by simp [← hyb, ← e]))]
          refine hu.congr (fun w hw => hnx w (by simp [hw]) ?_ ?_)
            (fun w hw => hpx w (by simp [hw]) ?_ ?_)
          · exact fun e => hyt (by simp [← e, hw])
          · exact fun e => hb (by simp [← hyb, ← e, hw])
          · exact fun e => hyt (by simp [← e, hw])
          · exact fun e => hzu (by rw [← hz, ← e]; exact hw)
    · have hxt : x ∈ t := (List.mem_cons.1 hx).resolve_left hxy
      have hpb : prev x ≠ b := by
        rcases ht.prev_mem hxt with e | e
        · exact fun e' => hb (by simp [← e', e])
        · exact fun e' => hb (by simp [← e', e])
      rw [if_neg hpb, List.erase_cons_tail (by simpa using Ne.symm hxy)]
      refine ⟨rfl, hy, ?_, ?_⟩
      · rw [hpx p (by simp) (Ne.symm hxy) ?_, hyb]
        rcases ht.next_mem hxt with e | e
        · exact fun e' => hy (e'.trans e)
        · exact fun e' => hyt (e' ▸ e)
      · have key := ih ht hyt hxt (fun w hw => hnx w (by simp [hw])) (fun w hw => hpx w (by simp [hw]))
          (fun e => ha hpb)
        by_cases hpy : prev x = p
        · rw [← hpy] at key ⊢
          rw [ha hpb]
          simpa using key
        · rw [hnx p (by simp) (Ne.symm hxy) (Ne.symm hpy)]
          simpa [hpy] using key

/-- The last node of a list after unlinking `x`: the old predecessor of `x` if `x` was last. -/
theorem Seg.getLastD_erase {xs : List Ptr} {b p x : Ptr} (h : Seg next prev b p xs 0) (hx : x ∈ xs) :
    (xs.erase x).getLastD b = if next x = 0 then prev x else xs.getLastD b := by
  obtain ⟨l₁, l₂, rfl⟩ := List.append_of_mem hx
  have hnd := h.nodup
  have hxl : x ∉ l₁ := fun hm => (List.nodup_append.1 hnd).2.2 hm (List.mem_cons_self x l₂)
  rw [List.erase_append_right _ hxl, List.erase_cons_head]
  obtain ⟨m, -, rfl, hx0, hpx, hl₂⟩ := seg_append.1 h
  cases l₂ with
  | nil => simp [show next m = 0 from hl₂, hpx]
  | cons z u =>
    rw [if_neg (hl₂.1 ▸ hl₂.2.1)]
    simp [List.getLastD_eq_getLast?, List.getLast?_append]

end

end Ipv6Reassembly
