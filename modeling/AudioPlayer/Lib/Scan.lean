import Mathlib
import AudioPlayer.Lib.Bytes
import AudioPlayer.Lib.Content

/-!
# Readers that move over a content

A reader is a computation on a state that has a place in the content. `Scanner.Reads c R bs m x` says that wherever
`bs` stands at the place, `m` answers `x` and leaves the state behind `bs` and otherwise as it was. Readers that follow
each other read what follows each other (`Reads.bind`), and a reader that is repeated reads a list (`Reads.times`).

The numbers of a file are in network order, the highest byte first: `beBytes` and `ofBeBytes`.
-/

namespace Lib

/-! ## Numbers in network order -/

/-- The `k` lower bytes of `n`, the highest first. -/
def beBytes : Nat → Nat → List Byte
  | 0, _ => []
  | k + 1, n => (n / 256 ^ k).toUInt8 :: beBytes k n

/-- The number that these bytes are. -/
def ofBeBytes : List Byte → Nat
  | [] => 0
  | b :: bs => b.toNat * 256 ^ bs.length + ofBeBytes bs

@[simp] theorem beBytes_length (k n : Nat) : (beBytes k n).length = k := by
  induction k with
  | zero => rfl
  | succ k ih => rw [beBytes, List.length_cons, ih]

theorem ofBeBytes_beBytes (k n : Nat) : ofBeBytes (beBytes k n) = n % 256 ^ k := by
  induction k with
  | zero => rw [pow_zero, Nat.mod_one]; rfl
  | succ k ih =>
    have hbyte : (n / 256 ^ k).toUInt8.toNat = n / 256 ^ k % 256 := rfl
    rw [beBytes, ofBeBytes, ih, beBytes_length, hbyte, Nat.pow_succ, Nat.mod_mul, Nat.mul_comm, Nat.add_comm]

theorem ofBeBytes_lt (bs : List Byte) : ofBeBytes bs < 256 ^ bs.length := by
  induction bs with
  | nil => exact Nat.one_pos
  | cons b bs ih =>
    have hb : b.toNat + 1 ≤ 256 := b.toNat_lt
    calc b.toNat * 256 ^ bs.length + ofBeBytes bs < b.toNat * 256 ^ bs.length + 256 ^ bs.length := by omega
      _ = (b.toNat + 1) * 256 ^ bs.length := by ring
      _ ≤ 256 * 256 ^ bs.length := Nat.mul_le_mul_right _ hb
      _ = 256 ^ (b :: bs).length := by rw [List.length_cons, Nat.pow_succ, Nat.mul_comm]

/-! ## Windows one behind the other -/

section
variable {α : Type*} {R xs ys : List α} {p : Nat}

theorem Window.left (h : Window R p (xs ++ ys)) : Window R p xs := (List.prefix_append xs ys).trans h

theorem Window.right (h : Window R p (xs ++ ys)) : Window R (p + xs.length) ys := by
  have hdrop := Window.drop (n := xs.length) h (by rw [List.length_append]; omega)
  rwa [List.drop_left] at hdrop

theorem Window.lt (h : Window R p xs) (hne : xs ≠ []) : p < R.length := by
  have hlen := h.length_le
  have := List.length_pos_of_ne_nil hne
  omega

theorem Window.fetch_eq (h : Window R p xs) : Lib.fetch R p xs.length = xs := h.eq_fetch.symm

end

/-! ## Readers -/

/-- A state with a place in the content; to move on by several steps is to move on by their sum. -/
structure Scanner (σ : Type*) where
  At : σ → Nat → Prop
  move : Nat → σ → σ
  move_zero : ∀ s, move 0 s = s
  move_add : ∀ s m n, move n (move m s) = move (m + n) s
  at_move : ∀ {s p}, At s p → ∀ n, At (move n s) (p + n)

namespace Scanner
variable {σ α β γ : Type} {c : Scanner σ} {R as bs : List γ} {x : α} {y : β} {m : StateT σ Option α}

/-- Where `bs` stands, `m` answers `x` and moves on behind it. -/
def Reads (c : Scanner σ) (R bs : List γ) (m : StateT σ Option α) (x : α) : Prop :=
  ∀ s p, c.At s p → Window R p bs → m s = some (x, c.move bs.length s)

theorem Reads.pure (c : Scanner σ) (R : List γ) (x : α) : c.Reads R [] (Pure.pure x) x := by
  intro s p _ _
  rw [List.length_nil, c.move_zero]
  rfl

/-- What follows each other is read by readers that follow each other. -/
theorem Reads.bind {k : α → StateT σ Option β} (hm : c.Reads R as m x) (hk : c.Reads R bs (k x) y) :
    c.Reads R (as ++ bs) (m >>= k) y := by
  intro s p hat hw
  have hrest := hk _ _ (c.at_move hat as.length) hw.right
  rw [c.move_add, ← List.length_append] at hrest
  calc (m >>= k) s = (m s).bind fun r => k r.1 r.2 := rfl
    _ = k x (c.move as.length s) := by rw [hm s p hat hw.left, Option.bind_some]
    _ = _ := hrest

/-- What follows need not read anything. -/
theorem Reads.last {k : α → StateT σ Option β} (hm : c.Reads R as m x) (hk : c.Reads R [] (k x) y) :
    c.Reads R as (m >>= k) y := by
  have hall := hm.bind hk
  rwa [List.append_nil] at hall

/-- What is read may be changed without reading. -/
theorem Reads.map {g : α → β} (hm : c.Reads R bs m x) : c.Reads R bs (g <$> m) (g x) := by
  intro s p hat hw
  calc (g <$> m) s = (m s).bind fun r => some (g r.1, r.2) := rfl
    _ = _ := by rw [hm s p hat hw]; rfl

theorem Reads.congr {as bs : List γ} (hm : c.Reads R as m x) (h : as = bs) : c.Reads R bs m x := h ▸ hm

end Scanner

/-- As many answers of one reader. -/
def times {σ α : Type} (m : StateT σ Option α) : Nat → StateT σ Option (List α)
  | 0 => pure []
  | n + 1 => do
    let x ← m
    let xs ← times m n
    pure (x :: xs)

/-- A list is read by a reader of its items. -/
theorem Scanner.Reads.times {σ α γ : Type} {c : Scanner σ} {R : List γ} {m : StateT σ Option α} {enc : α → List γ}
    (xs : List α) (hm : ∀ x ∈ xs, c.Reads R (enc x) m x) :
    c.Reads R (xs.flatMap enc) (Lib.times m xs.length) xs := by
  induction xs with
  | nil => exact .pure c R []
  | cons x xs ih =>
    have hrest := ih fun y hy => hm y (List.mem_cons_of_mem x hy)
    have htail : c.Reads R (xs.flatMap enc ++ []) (Lib.times m xs.length >>= fun ys => Pure.pure (x :: ys)) (x :: xs) :=
      hrest.bind (.pure c R (x :: xs))
    rw [List.append_nil] at htail
    exact (hm x List.mem_cons_self).bind (k := fun x => Lib.times m xs.length >>= fun ys => Pure.pure (x :: ys)) htail

end Lib
