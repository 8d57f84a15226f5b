import Mathlib
import AudioPlayer.Lib.CInt
import AudioPlayer.Lib.Scan
import AudioPlayer.AudioFile.Content

/-!
# What mp4ff reads of a file (`faad2-2.7/common/mp4ff/mp4util.c`)

The stream below mp4ff is the audio file of the player: its callbacks come to `audio_file_read` and `audio_file_seek`
(`src/aac_decoder.c:14-26`, `src/audio_player_process.c:23-57`), which answer as a cursor over the content of the file.
mp4ff counts its own position besides and does not look at what a seek returns, and a seek to the end of the file is
refused: from there on the two places differ.

| here | there |
|---|---|
| `Mp4Stream`                        | the cursor of the file, `current_position`, and whether the input was told to be done |
| `mp4ffReadData`, `mp4ffSetPosition`| `mp4util.c:34-43`, `:78-84` |
| `mp4ffReadInt32` and the like      | `:91-150`, `:170-191` |

A number of which not all bytes are there has no value: the rest of it is what the stack held.
-/

namespace AudioPlayer
open Lib

/-- The value of an expression in `int64_t`. -/
def int64? (x : Int) : Option Int := if -9223372036854775808 ≤ x ∧ x < 9223372036854775808 then some x else none

/-- Conversion to `uint64_t`, and back. -/
def toU64 (x : Int) : Nat := (x % 18446744073709551616).toNat

def toI64 (x : Int) : Int := (x + 9223372036854775808) % 18446744073709551616 - 9223372036854775808

theorem toI64_eq {x : Int} (h1 : -9223372036854775808 ≤ x) (h2 : x < 9223372036854775808) : toI64 x = x := by
  unfold toI64
  omega

theorem toU64_eq {n : Nat} (h : n < 18446744073709551616) : toU64 n = n := by
  unfold toU64
  omega

structure Mp4Stream where
  pos             : Nat  := 0
  currentPosition : Int  := 0
  /-- The input callback was asked for nothing, which it takes for the end of an m4a track. -/
  inputDone       : Bool := false
deriving DecidableEq

abbrev Mp4Scan := StateT Mp4Stream Option

section
variable (R : List Byte)

/-- The bytes that were read, at most `size`, which goes to the input callback as an `int`. -/
def mp4ffReadData (size : Nat) : Mp4Scan (List Byte) := fun s =>
  if 2147483648 ≤ size then none
  else do
    let current ← int64? (s.currentPosition + size)
    let (r, pos) := contentCall R s.pos (.read size)
    some (r.bytes, { pos, currentPosition := current, inputDone := s.inputDone || decide (size = 0) })

/-- The position goes to the callback as a `uint64_t` and on as an `int`. -/
def mp4ffSetPosition (position : Int) : Mp4Scan Unit := fun s =>
  some ((), { s with pos := (contentCall R s.pos (.seek (toI32 position))).2, currentPosition := position })

def mp4ffPosition : Mp4Scan Int := fun s => some (s.currentPosition, s)

/-- An unsigned number of `k` bytes. -/
def mp4ffReadNumber (k : Nat) : Mp4Scan Nat := do
  let bs ← mp4ffReadData R k
  if bs.length = k then pure (ofBeBytes bs) else failure

def mp4ffReadChar : Mp4Scan Nat := mp4ffReadNumber R 1
def mp4ffReadInt16 : Mp4Scan Nat := mp4ffReadNumber R 2
def mp4ffReadInt24 : Mp4Scan Nat := mp4ffReadNumber R 3
def mp4ffReadInt32 : Mp4Scan Nat := mp4ffReadNumber R 4
def mp4ffReadInt64 : Mp4Scan Nat := mp4ffReadNumber R 8

/-- The same as an `int32_t`, as the tables keep it. -/
def mp4ffReadSigned : Mp4Scan Int := (fun n : Nat => toI32 n) <$> mp4ffReadInt32 R

/-- The loop of `mp4ff_read_mp4_descr_length`, with the turns that are left. -/
def mp4ffDescrLoop : Nat → Nat → Mp4Scan Nat
  | 0, length => pure length
  | n + 1, length => do
    let b ← mp4ffReadChar R
    let length := 128 * length + b % 128
    if b < 128 then pure length else mp4ffDescrLoop n length

def mp4ffReadMp4DescrLength : Mp4Scan Nat := mp4ffDescrLoop R 4 0

end

/-! ## Reading what is there -/

def Mp4Stream.moved (n : Nat) (s : Mp4Stream) : Mp4Stream :=
  { s with pos := s.pos + n, currentPosition := s.currentPosition + n }

/-- Behind a seek into the file. -/
def Mp4Stream.goto (p : Nat) (s : Mp4Stream) : Mp4Stream := { s with pos := p, currentPosition := p }

/-- The two places agree. -/
def mp4Scanner : Scanner Mp4Stream where
  At s p := s.pos = p ∧ s.currentPosition = p
  move := Mp4Stream.moved
  move_zero s := by simp [Mp4Stream.moved]
  move_add s m n := by simp [Mp4Stream.moved, Nat.add_assoc, Int.add_assoc]
  at_move := by
    rintro s p ⟨hpos, hcur⟩ n
    simp [Mp4Stream.moved, hpos, hcur]

section
variable {R bs : List Byte}

theorem mp4ffSetPosition_in (hR : R.length < 2147483648) {p : Nat} (hp : p < R.length) (s : Mp4Stream) :
    mp4ffSetPosition R p s = some ((), s.goto p) := by
  rw [mp4ffSetPosition, toI32_eq (by omega) (by omega), contentCall, if_pos (by omega), Int.toNat_natCast]
  rfl

theorem mp4ffReadData_reads (hR : R.length < 2147483648) (hne : bs ≠ []) :
    mp4Scanner.Reads R bs (mp4ffReadData R bs.length) bs := by
  rintro s p ⟨hpos, hcur⟩ hw
  have hlen := hw.length_le
  have hpositive := List.length_pos_of_ne_nil hne
  have hfetch : fetch R s.pos bs.length = bs := by rw [hpos]; exact hw.fetch_eq
  have hint : int64? (s.currentPosition + bs.length) = some (s.currentPosition + bs.length) := by
    rw [int64?, if_pos (by omega)]
  have hzero : decide (bs.length = 0) = false := decide_eq_false (by omega)
  have hsmall : ¬2147483648 ≤ bs.length := by omega
  simp only [mp4ffReadData, if_neg hsmall, contentCall, hint, hfetch, hzero, Bool.or_false, Option.bind_eq_bind, Option.bind_some]
  rfl

theorem mp4ffReadNumber_reads (hR : R.length < 2147483648) (hne : bs ≠ []) :
    mp4Scanner.Reads R bs (mp4ffReadNumber R bs.length) (ofBeBytes bs) := by
  have hend : mp4Scanner.Reads R [] (if bs.length = bs.length then pure (ofBeBytes bs) else failure : Mp4Scan Nat)
      (ofBeBytes bs) := by
    rw [if_pos rfl]
    exact .pure _ R _
  have hall := (mp4ffReadData_reads hR hne).bind
    (k := fun read => if read.length = bs.length then pure (ofBeBytes read) else failure) hend
  rwa [List.append_nil] at hall

theorem mp4ffReadNumber_be (hR : R.length < 2147483648) {k n : Nat} (hk : 0 < k) (hn : n < 256 ^ k) :
    mp4Scanner.Reads R (beBytes k n) (mp4ffReadNumber R k) n := by
  have hne : beBytes k n ≠ [] := by
    intro h
    have hlen := beBytes_length k n
    rw [h, List.length_nil] at hlen
    omega
  have hread := mp4ffReadNumber_reads hR hne
  rwa [beBytes_length, ofBeBytes_beBytes, Nat.mod_eq_of_lt hn] at hread

/-- A length in groups of seven bits, the highest first; all but the last have the upper bit set. -/
def descrBytes : List Nat → List Byte
  | [] => []
  | [d] => [d.toUInt8]
  | d :: e :: ds => (d + 128).toUInt8 :: descrBytes (e :: ds)

def descrLength (ds : List Nat) : Nat := ds.foldl (fun length d => 128 * length + d) 0

theorem mp4ffDescrLoop_reads (hR : R.length < 2147483648) {ds : List Nat} (hne : ds ≠ []) (hsmall : ∀ d ∈ ds, d < 128) :
    ∀ {n : Nat} (length : Nat), ds.length ≤ n →
      mp4Scanner.Reads R (descrBytes ds) (mp4ffDescrLoop R n length)
        (ds.foldl (fun length d => 128 * length + d) length) := by
  induction ds with
  | nil => exact absurd rfl hne
  | cons d ds ih =>
    intro n length hn
    obtain ⟨n, rfl⟩ : ∃ k, n = k + 1 := ⟨n - 1, by simp only [List.length_cons] at hn; omega⟩
    have hd : d < 128 := hsmall d List.mem_cons_self
    cases ds with
    | nil =>
      have hbyte : ofBeBytes [d.toUInt8] = d := by
        simp only [ofBeBytes, List.length_nil, pow_zero, Nat.mul_one, Nat.add_zero]
        exact Nat.mod_eq_of_lt (by omega)
      have hread := mp4ffReadNumber_reads hR (List.cons_ne_nil d.toUInt8 [])
      rw [hbyte] at hread
      have hstop : mp4Scanner.Reads R [] (if d < 128 then pure (128 * length + d % 128) else
          mp4ffDescrLoop R n (128 * length + d % 128) : Mp4Scan Nat) (128 * length + d) := by
        rw [if_pos hd, Nat.mod_eq_of_lt hd]
        exact .pure _ R _
      exact hread.bind (k := fun b => if b < 128 then pure (128 * length + b % 128) else
        mp4ffDescrLoop R n (128 * length + b % 128)) hstop
    | cons e ds =>
      have hbyte : ofBeBytes [(d + 128).toUInt8] = d + 128 := by
        simp only [ofBeBytes, List.length_nil, pow_zero, Nat.mul_one, Nat.add_zero]
        exact Nat.mod_eq_of_lt (by omega)
      have hread := mp4ffReadNumber_reads hR (List.cons_ne_nil (d + 128).toUInt8 [])
      rw [hbyte] at hread
      have hrest := ih (by simp) (fun x hx => hsmall x (List.mem_cons_of_mem d hx)) (n := n) (128 * length + d)
        (by simp only [List.length_cons] at hn ⊢; omega)
      have hgo : mp4Scanner.Reads R (descrBytes (e :: ds)) (if d + 128 < 128 then pure (128 * length + (d + 128) % 128)
          else mp4ffDescrLoop R n (128 * length + (d + 128) % 128) : Mp4Scan Nat)
          ((e :: ds).foldl (fun length d => 128 * length + d) (128 * length + d)) := by
        rw [if_neg (by omega), show (d + 128) % 128 = d by omega]
        exact hrest
      exact hread.bind (k := fun b => if b < 128 then pure (128 * length + b % 128) else
        mp4ffDescrLoop R n (128 * length + b % 128)) hgo

theorem mp4ffReadMp4DescrLength_reads (hR : R.length < 2147483648) {ds : List Nat} (hne : ds ≠ [])
    (hsmall : ∀ d ∈ ds, d < 128) (hlen : ds.length ≤ 4) :
    mp4Scanner.Reads R (descrBytes ds) (mp4ffReadMp4DescrLength R) (descrLength ds) :=
  mp4ffDescrLoop_reads hR hne hsmall 0 hlen

end

end AudioPlayer
