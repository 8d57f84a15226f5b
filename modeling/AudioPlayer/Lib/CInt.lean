import Mathlib

/-!
# `int` and `uint32_t` arithmetic, and block copies

A signed operation whose result does not fit is undefined, so `int32?` has no value there; unsigned
arithmetic is modulo `2^32`. `memcpy?` has no value when the copy would leave either block. A
computation built from these in `Option` has a value exactly when it stays within what the language
defines, and the lemmas below say what that value is.
-/

namespace Lib

/-- The value of an `int` expression whose mathematical value is `x`. -/
def int32? (x : Int) : Option Int := if -2147483648 ≤ x ∧ x < 2147483648 then some x else none

/-- Conversion to `uint32_t`. -/
def toU32 (x : Int) : Int := x % 4294967296

/-- Conversion of an unsigned value to `int`, by two's complement. -/
def toI32 (x : Int) : Int := (x + 2147483648) % 4294967296 - 2147483648

/-- The two data models: pointers and `size_t` of 32 bits or of 64. -/
inductive Abi
  | ilp32 | lp64
deriving DecidableEq, Repr

/-- `sizeof(void*)`. -/
def Abi.ptr : Abi → Nat
  | .ilp32 => 4
  | .lp64 => 8

/-- Conversion to `size_t`. -/
def toSize (abi : Abi) (x : Int) : Nat := (x % 2 ^ (8 * abi.ptr)).toNat

/-- `%` of two `int`s. -/
def intMod? (a b : Int) : Option Int := if b = 0 then none else int32? (Int.tmod a b)

/-- `%` of two `uint32_t`s. -/
def u32Mod? (a b : Int) : Option Int := if b = 0 then none else some (a % b)

/-- The value fits. -/
def isInt (x : Int) : Bool := (int32? x).isSome

theorem int32?_eq_ite (x : Int) : int32? x = if isInt x then some x else none := by
  unfold isInt int32?
  split <;> rfl

theorem isInt_iff {x : Int} : isInt x ↔ -2147483648 ≤ x ∧ x < 2147483648 := by
  unfold isInt int32?
  split <;> simp_all

theorem int32?_eq {x : Int} (h1 : -2147483648 ≤ x) (h2 : x < 2147483648) : int32? x = some x := by
  simp [int32?, h1, h2]

theorem toU32_eq {x : Int} (h1 : 0 ≤ x) (h2 : x < 4294967296) : toU32 x = x :=
  Int.emod_eq_of_lt h1 h2

theorem toSize_eq {abi : Abi} {n : Nat} (h : n < 4294967296) : toSize abi n = n := by
  cases abi <;> simp only [toSize, Abi.ptr] <;> omega

theorem toI32_eq {x : Int} (h1 : -2147483648 ≤ x) (h2 : x < 2147483648) : toI32 x = x := by
  unfold toI32; omega

theorem intMod?_eq {a b : Int} (ha : 0 ≤ a) (hb : 0 < b) (hb' : b < 2147483648) :
    intMod? a b = some (a % b) := by
  have h0 : b ≠ 0 := by omega
  have h1 := Int.emod_nonneg a h0
  have h2 := Int.emod_lt_of_pos a hb
  simp only [intMod?, h0, if_false, Int.tmod_eq_emod_of_nonneg ha]
  exact int32?_eq (by omega) (by omega)

theorem u32Mod?_eq {a b : Int} (hb : 0 < b) : u32Mod? a b = some (a % b) := by
  simp [u32Mod?, show b ≠ 0 by omega]

/-- Where a position in `[0, 2n)` is modulo `n`. -/
theorem emod_wrap {a n : Int} (h0 : 0 ≤ a) (hn : a < 2 * n) : a % n = if a < n then a else a - n := by
  split
  · exact Int.emod_eq_of_lt h0 ‹_›
  · rw [← Int.sub_emod_right]; exact Int.emod_eq_of_lt (by omega) (by omega)

variable {α : Type*}

/-- `memcpy(&dst[off], src, n)`. -/
def memcpy? (dst : List α) (off : Int) (src : List α) (n : Int) : Option (List α) :=
  if 0 ≤ off ∧ 0 ≤ n ∧ off + n ≤ dst.length ∧ n ≤ src.length then
    some (dst.take off.toNat ++ src.take n.toNat ++ dst.drop (off + n).toNat)
  else none

/-- The `n` cells read by `memcpy(_, &src[off], n)`. -/
def memread? (src : List α) (off n : Int) : Option (List α) :=
  if 0 ≤ off ∧ 0 ≤ n ∧ off + n ≤ src.length then some ((src.drop off.toNat).take n.toNat) else none

section
variable {dst src : List α} {off n : Nat}

theorem memcpy?_eq (h1 : off + n ≤ dst.length) (h2 : n ≤ src.length) :
    memcpy? dst off src n = some (dst.take off ++ src.take n ++ dst.drop (off + n)) := by
  simp only [memcpy?]
  rw [if_pos (by omega), show ((off : Int) + n).toNat = off + n by omega]
  rfl

theorem memread?_eq (h : off + n ≤ src.length) : memread? src off n = some ((src.drop off).take n) := by
  simp only [memread?]
  rw [if_pos (by omega)]
  rfl

/-- What a cell holds after a copy. -/
theorem getElem?_memcpy {i : Nat} (h1 : off + n ≤ dst.length) (h2 : n ≤ src.length) :
    (dst.take off ++ src.take n ++ dst.drop (off + n))[i]? =
      if off ≤ i ∧ i < off + n then src[i - off]? else dst[i]? := by
  have h3 : (dst.take off).length = off := by simp; omega
  have h4 : (dst.take off ++ src.take n).length = off + n := by simp; omega
  split
  · rw [List.getElem?_append_left (by omega), List.getElem?_append_right (by omega), h3,
      List.getElem?_take_of_lt (by omega)]
  · by_cases hi : i < off
    · rw [List.getElem?_append_left (by omega), List.getElem?_append_left (by omega),
        List.getElem?_take_of_lt hi]
    · rw [List.getElem?_append_right (by omega), h4, List.getElem?_drop]
      congr 1; omega

end

/-! ## Two positions on a circle

How far `write` is ahead of `read` when both run modulo `n`, as C code computes it from their difference. -/

/-- The distance, with the sums the code forms on the way. -/
def circCount? (n read write : Int) : Option Int := do
  let tmp ← int32? ((← int32? (n + write)) - read)
  if tmp ≥ n then int32? (tmp - n) else some tmp

/-- The room left when one place always stays free. -/
def circFree? (n read write : Int) : Option Int := do
  let tmp ← int32? ((← int32? (n + read)) - write)
  let tmp ← if tmp > n then int32? (tmp - n) else some tmp
  int32? (tmp - 1)

/-- The distance. -/
def circDist (n read write : Int) : Nat :=
  (if read ≤ write then write - read else n + write - read).toNat

/-- Positions in range, and no sum of them overflows. -/
structure Circ (n read write : Int) : Prop where
  read_nonneg  : 0 ≤ read
  read_lt      : read < n
  write_nonneg : 0 ≤ write
  write_lt     : write < n
  small        : 2 * n ≤ 2147483648

namespace Circ
variable {n r w : Int} {k : Nat}

theorem dist_lt (h : Circ n r w) : (circDist n r w : Int) < n := by
  obtain ⟨_, _, _, _, _⟩ := h
  unfold circDist; split <;> omega

theorem count (h : Circ n r w) : circCount? n r w = some (circDist n r w : Int) := by
  obtain ⟨_, _, _, _, _⟩ := h
  unfold circCount? circDist
  rw [int32?_eq (by omega) (by omega)]
  simp only [Option.bind_eq_bind, Option.bind_some]
  rw [int32?_eq (by omega) (by omega)]
  simp only [Option.bind_some]
  split <;> split
  · rw [int32?_eq (by omega) (by omega)]; congr 1; omega
  · omega
  · omega
  · congr 1; omega

theorem free (h : Circ n r w) : circFree? n r w = some (n - 1 - circDist n r w) := by
  obtain ⟨_, _, _, _, _⟩ := h
  unfold circFree? circDist
  rw [int32?_eq (by omega) (by omega)]
  simp only [Option.bind_eq_bind, Option.bind_some]
  rw [int32?_eq (by omega) (by omega)]
  simp only [Option.bind_some]
  split
  · rw [int32?_eq (by omega) (by omega)]
    simp only [Option.bind_some]
    rw [int32?_eq (by omega) (by omega), if_neg (by omega)]
    congr 1; omega
  · rw [int32?_eq (by omega) (by omega)]
    congr 1; omega

/-- The writer moves on by `k`. -/
theorem write_add (h : Circ n r w) (hk : circDist n r w + k < n) :
    Circ n r ((w + k) % n) ∧ circDist n r ((w + k) % n) = circDist n r w + k := by
  obtain ⟨_, _, _, _, _⟩ := h
  unfold circDist at *
  rw [emod_wrap (by omega) (by split at hk <;> omega)]
  constructor
  · constructor <;> (try split) <;> (try split at hk) <;> omega
  · split at hk <;> split <;> split <;> omega

/-- The reader moves on by `k`. -/
theorem read_add (h : Circ n r w) (hk : k ≤ circDist n r w) :
    Circ n ((r + k) % n) w ∧ circDist n ((r + k) % n) w = circDist n r w - k := by
  obtain ⟨_, _, _, _, _⟩ := h
  unfold circDist at *
  rw [emod_wrap (by omega) (by split at hk <;> omega)]
  constructor
  · constructor <;> (try split) <;> (try split at hk) <;> omega
  · split at hk <;> split <;> split <;> omega

end Circ

/-! Positions counted from the start, each taken modulo `n` only when it is used. -/

section
variable {a b j n : Nat}

/-- Less than one turn apart, two positions fall on different places. -/
theorem mod_ne (h : a < b) (hb : b < a + n) : a % n ≠ b % n := by
  intro heq
  have hdvd : n ∣ b - a := Nat.dvd_of_mod_eq_zero (Nat.sub_mod_eq_zero_of_mod_eq heq.symm)
  have := Nat.le_of_dvd (by omega) hdvd
  omega

/-- Where the place `j` further on lies, for `j` up to one turn. -/
theorem add_mod_wrap (hj : j < n) : (a + j) % n = if a % n + j < n then a % n + j else a % n + j - n := by
  have ha := Nat.mod_lt a (show 0 < n by omega)
  rw [← Nat.mod_add_mod]
  split
  · exact Nat.mod_eq_of_lt ‹_›
  · rw [Nat.mod_eq_sub_mod (by omega), Nat.mod_eq_of_lt (by omega)]

theorem circ_mod (hn : 0 < n) (hs : 2 * n ≤ 2147483648) : Circ n (a % n : Nat) (b % n : Nat) := by
  have ha := Nat.mod_lt a hn
  have hb := Nat.mod_lt b hn
  constructor <;> omega

theorem circDist_mod (h : a ≤ b) (hb : b < a + n) : circDist n (a % n : Nat) (b % n : Nat) = b - a := by
  have ha := Nat.mod_lt a (show 0 < n by omega)
  obtain ⟨d, rfl⟩ : ∃ d, b = a + d := ⟨b - a, by omega⟩
  rw [add_mod_wrap (by omega)]
  unfold circDist
  split <;> split <;> omega

end

/-! ## What is read from a block after part of it was overwritten -/

section
variable {B xs : List α} {R W : Nat}

theorem drop_take_over (hR : R ≤ W) (hW : W + xs.length ≤ B.length) :
    ((B.take W ++ xs ++ B.drop (W + xs.length)).drop R).take (W + xs.length - R) =
      (B.drop R).take (W - R) ++ xs := by
  rw [List.append_assoc, List.drop_append_of_le_length (by simp; omega), List.drop_take, ← List.append_assoc]
  exact List.take_left' (by simp; omega)

theorem drop_over (hR : R ≤ W) (hW : W ≤ B.length) :
    (B.take W ++ xs).drop R = (B.drop R).take (W - R) ++ xs := by
  rw [List.drop_append_of_le_length (by simp; omega), List.drop_take]

theorem drop_overwritten (hR : xs.length ≤ R) : (xs ++ B.drop xs.length).drop R = B.drop R := by
  rw [List.drop_append, List.drop_eq_nil_of_le hR, List.nil_append, List.drop_drop]
  congr 1; omega

theorem drop_after (hR : W + xs.length ≤ R) (hW : W ≤ B.length) :
    (B.take W ++ xs ++ B.drop (W + xs.length)).drop R = B.drop R := by
  have h : (B.take W ++ xs).length = W + xs.length := by simp; omega
  rw [← h]
  exact drop_overwritten (by omega)

theorem take_upTo {ys : List α} (hW : W ≤ B.length) :
    (B.take W ++ xs ++ ys).take (W + xs.length) = B.take W ++ xs :=
  List.take_left' (by simp; omega)

end

end Lib
