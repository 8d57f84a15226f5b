import Mathlib

/-!
# A heap of cells and the lists linked through it

A pointer is an index and a freed cell is `none`, so `load?`, `store?` and `free?` have no value on a
pointer that does not name a live cell. `Linked next heap p ns` says that following `next` from `p`
visits exactly the cells `ns`, in this order; the lemmas say what each heap operation does to a list
it touches (`Linked.alloc_snoc`, `Linked.cut`, `Linked.store_last`, `Linked.free_head`) or does not touch
(`Linked.store`, `Linked.append`). `live` counts the cells that are allocated, in a list or not.
-/

namespace Lib

variable {N : Type*} {next : N → Option Nat} {heap : List (Option N)} {p : Option Nat} {i : Nat}
  {n n' : N} {ns : List (Nat × N)}

/-- What the pointer `i` designates. -/
def load? (heap : List (Option N)) (i : Nat) : Option N := heap[i]?.join

/-- The heap after the cell at `i` is overwritten. -/
def store? (heap : List (Option N)) (i : Nat) (n : N) : Option (List (Option N)) :=
  (load? heap i).map fun _ => heap.set i (some n)

/-- The heap after `free(i)`. -/
def free? (heap : List (Option N)) (i : Nat) : Option (List (Option N)) :=
  (load? heap i).map fun _ => heap.set i none

/-- How many cells are allocated and not freed. -/
def live (heap : List (Option N)) : Nat := heap.countP Option.isSome

/-- `Linked next heap p ns`: from `p`, through `next`, one finds the cells `ns` and then `NULL`. -/
def Linked (next : N → Option Nat) (heap : List (Option N)) : Option Nat → List (Nat × N) → Prop
  | p, [] => p = none
  | p, (i, n) :: ns => p = some i ∧ load? heap i = some n ∧ Linked next heap (next n) ns

theorem load?_lt (h : load? heap i = some n) : i < heap.length := by
  by_contra hi
  simp [load?, List.getElem?_eq_none (by omega : heap.length ≤ i)] at h

theorem store?_eq (h : load? heap i = some n) : store? heap i n' = some (heap.set i (some n')) := by
  simp [store?, h]

theorem free?_eq (h : load? heap i = some n) : free? heap i = some (heap.set i none) := by
  simp [free?, h]

theorem load?_set_self (h : i < heap.length) : load? (heap.set i (some n)) i = some n := by
  simp [load?, h]

theorem load?_set_ne {j : Nat} (h : i ≠ j) (c : Option N) : load? (heap.set i c) j = load? heap j := by
  simp [load?, List.getElem?_set_ne h]

theorem load?_append (h : load? heap i = some n) (c : Option N) : load? (heap ++ [c]) i = some n := by
  have := load?_lt h
  simpa [load?, List.getElem?_append, this] using h

theorem load?_append_self : load? (heap ++ [some n]) heap.length = some n := by
  simp [load?]

@[simp] theorem live_nil : live ([] : List (Option N)) = 0 := rfl

@[simp] theorem live_append_some : live (heap ++ [some n]) = live heap + 1 := by simp [live]

/-- A live cell is counted. -/
theorem live_set (h : load? heap i = some n) (c : Option N) :
    live (heap.set i c) + 1 = live heap + if c.isSome then 1 else 0 := by
  have hlt := load?_lt h
  have hi : heap[i]? = some (some n) := Option.join_eq_some_iff.1 h
  have hget : heap[i] = some n := Option.some.inj ((List.getElem?_eq_getElem hlt).symm.trans hi)
  have hpos : 0 < heap.countP Option.isSome :=
    List.countP_pos_iff.2 ⟨some n, hget ▸ List.getElem_mem hlt, rfl⟩
  unfold live
  rw [List.countP_set hlt, hget]
  simp only [Option.isSome_some, if_true]
  omega

theorem live_store (h : load? heap i = some n) : live (heap.set i (some n')) = live heap := by
  have := live_set h (some n')
  simpa using this

theorem live_free (h : load? heap i = some n) : live (heap.set i none) + 1 = live heap := live_set h none

/-- Cells outside the list may change. -/
theorem Linked.store (h : Linked next heap p ns) (hi : i ∉ ns.map Prod.fst) (c : Option N) :
    Linked next (heap.set i c) p ns := by
  induction ns generalizing p with
  | nil => exact h
  | cons jn ns ih =>
    obtain ⟨j, m⟩ := jn
    simp only [List.map_cons, List.mem_cons, not_or] at hi
    exact ⟨h.1, (load?_set_ne hi.1 c).trans h.2.1, ih h.2.2 hi.2⟩

theorem Linked.append (h : Linked next heap p ns) (c : Option N) : Linked next (heap ++ [c]) p ns := by
  induction ns generalizing p with
  | nil => exact h
  | cons jn ns ih => exact ⟨h.1, load?_append h.2.1 c, ih h.2.2⟩

theorem Linked.load (h : Linked next heap p ns) (hm : (i, n) ∈ ns) : load? heap i = some n := by
  induction ns generalizing p with
  | nil => simp at hm
  | cons jn ns ih =>
    rcases List.mem_cons.1 hm with rfl | hm
    · exact h.2.1
    · exact ih h.2.2 hm

theorem Linked.lt (h : Linked next heap p ns) (hm : i ∈ ns.map Prod.fst) : i < heap.length := by
  obtain ⟨⟨j, m⟩, hjm, rfl⟩ := List.mem_map.1 hm
  exact load?_lt (h.load hjm)

/-- A list of distinct cells is no longer than the heap. -/
theorem Linked.length_le (h : Linked next heap p ns) (hnd : (ns.map Prod.fst).Nodup) :
    ns.length ≤ heap.length := by
  have hsub : (ns.map Prod.fst).toFinset ⊆ Finset.range heap.length := by
    intro i hi
    exact Finset.mem_range.2 (h.lt (List.mem_toFinset.1 hi))
  simpa [List.toFinset_card_of_nodup hnd] using Finset.card_le_card hsub

/-- The last cell of the list links to nothing. -/
theorem Linked.next_last (h : Linked next heap p (ns ++ [(i, n)])) : next n = none := by
  induction ns generalizing p with
  | nil => exact h.2.2
  | cons jn ns ih => exact ih h.2.2

/-- A cell that is overwritten and links to nothing is the last one from then on. -/
theorem Linked.cut {ms : List (Nat × N)} (h : Linked next heap p (ns ++ (i, n) :: ms)) (hi : i ∉ ns.map Prod.fst)
    (hn : next n' = none) : Linked next (heap.set i (some n')) p (ns ++ [(i, n')]) := by
  induction ns generalizing p with
  | nil => exact ⟨h.1, load?_set_self (load?_lt h.2.1), hn⟩
  | cons jn ns ih =>
    obtain ⟨j, m⟩ := jn
    simp only [List.map_cons, List.mem_cons, not_or] at hi
    exact ⟨h.1, (load?_set_ne hi.1 _).trans h.2.1, ih h.2.2 hi.2⟩

/-- Overwriting the last cell, which goes on linking to nothing. -/
theorem Linked.store_last (h : Linked next heap p (ns ++ [(i, n)])) (hi : i ∉ ns.map Prod.fst)
    (hn : next n' = none) : Linked next (heap.set i (some n')) p (ns ++ [(i, n')]) := h.cut hi hn

/-- The list starts at its first cell. -/
theorem Linked.head_eq (h : Linked next heap p ns) : p = (ns.map Prod.fst)[0]? := by
  cases ns with
  | nil => exact h
  | cons jn ns => exact h.1

/-- Each cell links to the one behind it. -/
theorem Linked.next_eq (h : Linked next heap p ns) {k : Nat} (hk : ns[k]? = some (i, n)) :
    next n = (ns.map Prod.fst)[k + 1]? := by
  induction ns generalizing p k with
  | nil => simp at hk
  | cons jn ns ih =>
    cases k with
    | zero =>
      rw [List.getElem?_cons_zero] at hk
      obtain rfl := Option.some.inj hk
      exact h.2.2.head_eq
    | succ k => exact ih h.2.2 hk

/-- Overwriting the first cell, which goes on linking to the rest. -/
theorem Linked.store_head (h : Linked next heap p ((i, n) :: ns)) (hi : i ∉ ns.map Prod.fst)
    (hn : next n' = next n) : Linked next (heap.set i (some n')) p ((i, n') :: ns) :=
  ⟨h.1, load?_set_self (load?_lt h.2.1), hn ▸ h.2.2.store hi _⟩

/-- A new cell `n''` linked behind the last one, whose link (and nothing else, `n'`) is set to it. -/
theorem Linked.alloc_snoc {n'' : N} (h : Linked next heap p (ns ++ [(i, n)])) (hi : i ∉ ns.map Prod.fst)
    (hn : next n' = some heap.length) (hn' : next n'' = none) :
    Linked next ((heap ++ [some n'']).set i (some n')) p (ns ++ [(i, n'), (heap.length, n'')]) := by
  have hlt : i < heap.length := h.lt (by simp)
  induction ns generalizing p with
  | nil =>
    refine ⟨h.1, load?_set_self (by simp; omega), hn, ?_, hn'⟩
    exact (load?_set_ne (by omega) _).trans load?_append_self
  | cons jn ns ih =>
    obtain ⟨j, m⟩ := jn
    simp only [List.map_cons, List.mem_cons, not_or] at hi
    exact ⟨h.1, (load?_set_ne hi.1 _).trans (load?_append h.2.1 _), ih h.2.2 hi.2⟩

/-- Freeing the first cell leaves the rest. -/
theorem Linked.free_head (h : Linked next heap p ((i, n) :: ns)) (hi : i ∉ ns.map Prod.fst) :
    Linked next (heap.set i none) (next n) ns := h.2.2.store hi none

end Lib
