import Mathlib
import AudioPlayer.Mp4ff.Format

/-!
# What is read of the tables of a track (`faad2-2.7/common/mp4ff/mp4atom.c:259-621`)

`Passes R bs u e m x`: where `bs` stands, `m` answers `x` and comes out behind `bs`. A seek to the end of the file is
refused; if `bs` ends there, the cursor of the file stays in front of the last `u` bytes. `e` says whether a part was
empty.
-/

namespace AudioPlayer
open Lib

/-- Behind `n` bytes from `p` on. -/
def Mp4Stream.behind (R : List Byte) (p n u : Nat) (e : Bool) (s : Mp4Stream) : Mp4Stream :=
  { pos := if p + n < R.length then p + n else p + n - u, currentPosition := ((p + n : Nat) : Int),
    inputDone := s.inputDone || e }

def Passes {α : Type} (R bs : List Byte) (u : Nat) (e : Bool) (m : Mp4Scan α) (x : α) : Prop :=
  ∀ s p, mp4Scanner.At s p → p ≤ R.length → Window R p bs → m s = some (x, s.behind R p bs.length u e)

section
variable {α β : Type} {R as bs : List Byte} {u v : Nat} {d e : Bool} {m : Mp4Scan α} {x : α} {y : β}
  {s : Mp4Stream} {p n : Nat}

theorem Mp4Stream.behind_moved (hat : mp4Scanner.At s p) : s.behind R p n 0 false = mp4Scanner.move n s := by
  obtain ⟨hpos, hcur⟩ := hat
  have hif : (if p + n < R.length then p + n else p + n - 0) = p + n := by split <;> rfl
  simp only [Mp4Stream.behind, hif, mp4Scanner, Mp4Stream.moved, hpos, hcur, Bool.or_false, Nat.cast_add]

theorem Mp4Stream.behind_zero (hat : mp4Scanner.At s p) : s.behind R p 0 0 false = s := by
  rw [Mp4Stream.behind_moved hat, mp4Scanner.move_zero]

theorem Mp4Stream.behind_behind {k : Nat} :
    (s.behind R p n u d).behind R (p + n) k v e = s.behind R p (n + k) v (d || e) := by
  simp only [Mp4Stream.behind, Nat.add_assoc, Bool.or_assoc]

/-- Not at the end of the file, the two places agree. -/
theorem Mp4Stream.behind_at (h : p + n < R.length) : mp4Scanner.At (s.behind R p n u e) (p + n) := by
  refine ⟨?_, rfl⟩
  rw [Mp4Stream.behind, if_pos h]

theorem Passes.ofReads (h : mp4Scanner.Reads R bs m x) : Passes R bs 0 false m x := by
  intro s p hat _ hw
  rw [h s p hat hw, Mp4Stream.behind_moved hat]

theorem Passes.bind {k : α → Mp4Scan β} (hm : Passes R as u d m x) (hne : bs ≠ []) (hk : Passes R bs v e (k x) y) :
    Passes R (as ++ bs) v (d || e) (m >>= k) y := by
  intro s p hat hp hw
  calc (m >>= k) s = (m s).bind fun r => k r.1 r.2 := rfl
    _ = k x (s.behind R p as.length u d) := by rw [hm s p hat hp hw.left, Option.bind_some]
    _ = some (y, (s.behind R p as.length u d).behind R (p + as.length) bs.length v e) :=
      hk _ _ (Mp4Stream.behind_at (hw.right.lt hne)) (hw.right.lt hne).le hw.right
    _ = some (y, s.behind R p (as ++ bs).length v (d || e)) := by
      rw [Mp4Stream.behind_behind, List.length_append]

theorem Passes.after {k : α → Mp4Scan β} (hm : mp4Scanner.Reads R as m x) (hk : Passes R bs v e (k x) y) :
    Passes R (as ++ bs) v e (m >>= k) y := by
  intro s p hat hp hw
  have hlen := hw.left.length_le
  have hrest := hk _ _ (mp4Scanner.at_move hat as.length) (by omega) hw.right
  calc (m >>= k) s = (m s).bind fun r => k r.1 r.2 := rfl
    _ = k x (mp4Scanner.move as.length s) := by rw [hm s p hat hw.left, Option.bind_some]
    _ = some (y, (s.behind R p as.length 0 false).behind R (p + as.length) bs.length v e) := by
      rw [hrest, Mp4Stream.behind_moved hat]
    _ = some (y, s.behind R p (as ++ bs).length v e) := by
      rw [Mp4Stream.behind_behind, List.length_append, Bool.false_or]

/-- What follows need not read anything. -/
theorem Passes.last {k : α → Mp4Scan β} (hm : Passes R bs u e m x) (hk : k x = pure y) :
    Passes R bs u e (m >>= k) y := by
  intro s p hat hp hw
  calc (m >>= k) s = (m s).bind fun r => k r.1 r.2 := rfl
    _ = k x (s.behind R p bs.length u e) := by rw [hm s p hat hp hw, Option.bind_some]
    _ = _ := by rw [hk]; rfl

theorem Passes.congr (hm : Passes R as u d m x) (hbs : as = bs) (hu : u = v) (hd : d = e) : Passes R bs v e m x :=
  hbs ▸ hu ▸ hd ▸ hm

/-- A seek ahead, from behind what was read. -/
theorem mp4ffSetPosition_behind (hR : R.length < 2147483648) {r : Nat} (hend : p + n + r ≤ R.length) :
    mp4ffSetPosition R ((p + n + r : Nat) : Int) (s.behind R p n u e) =
      some ((), s.behind R p (n + r) (if r = 0 then u else r) e) := by
  rw [mp4ffSetPosition, toI32_eq (by omega) (by omega), contentCall]
  by_cases hin : p + n + r < R.length
  · rw [if_pos (by omega), Int.toNat_natCast]
    simp only [Mp4Stream.behind, ← Nat.add_assoc, if_pos hin]
  · rw [if_neg (by omega)]
    simp only [Mp4Stream.behind, ← Nat.add_assoc, if_neg hin]
    by_cases hr : r = 0
    · subst hr
      simp only [Nat.add_zero, if_neg (show ¬p + n < R.length by omega), if_true]
    · simp only [if_pos (show p + n < R.length by omega), if_neg hr, Nat.add_sub_cancel]

end

/-! ## Fields -/

section
variable {R : List Byte} (hR : R.length < 2147483648)
include hR

theorem be32_reads {x : Int} (hx : isInt x) : mp4Scanner.Reads R (be32 x) (mp4ffReadSigned R) x := by
  obtain ⟨hlow, hhigh⟩ := isInt_iff.1 hx
  have hread := mp4ffReadNumber_be hR (k := 4) (n := (toU32 x).toNat) (by omega) (by rw [toU32]; omega)
  have hback : toI32 (((toU32 x).toNat : Nat) : Int) = x := by
    rw [toU32, toI32]
    omega
  have hsigned := hread.map (g := fun n : Nat => toI32 n)
  rw [hback] at hsigned
  exact hsigned

theorem raw_reads (bs : List Byte) (k : Nat) (hlen : bs.length = k) (hk : 0 < k) :
    mp4Scanner.Reads R bs (mp4ffReadNumber R k) (ofBeBytes bs) := by
  subst hlen
  exact mp4ffReadNumber_reads hR (List.ne_nil_of_length_pos hk)

/-- Fields that are read and dropped. -/
theorem times_reads (k : Nat) (hk : 0 < k) (n : Nat) (bs : List Byte) (hlen : bs.length = n * k) :
    ∃ xs, mp4Scanner.Reads R bs (times (mp4ffReadNumber R k) n) xs := by
  induction n generalizing bs with
  | zero =>
    obtain rfl : bs = [] := List.length_eq_zero_iff.1 (by omega)
    exact ⟨[], .pure _ R []⟩
  | succ n ih =>
    rw [Nat.add_one_mul] at hlen
    have hfirst := raw_reads hR (bs.take k) k (by rw [List.length_take]; omega) hk
    obtain ⟨xs, hrest⟩ := ih (bs.drop k) (by rw [List.length_drop]; omega)
    have hcons : mp4Scanner.Reads R (bs.drop k ++ []) (times (mp4ffReadNumber R k) n >>= fun xs =>
        pure (ofBeBytes (bs.take k) :: xs)) (ofBeBytes (bs.take k) :: xs) := hrest.bind (.pure _ R _)
    rw [List.append_nil] at hcons
    have hall := hfirst.bind (k := fun x => times (mp4ffReadNumber R k) n >>= fun xs => pure (x :: xs)) hcons
    rw [List.take_append_drop] at hall
    exact ⟨_, hall⟩

theorem version_reads {version : List Byte} (hlen : version.length = 4) :
    mp4Scanner.Reads R version (mp4ffReadVersion R) () := by
  have hchar := raw_reads hR (version.take 1) 1 (by rw [List.length_take]; omega) (by omega)
  have hflags := raw_reads hR (version.drop 1) 3 (by rw [List.length_drop]; omega) (by omega)
  have hboth := hchar.bind (k := fun _ => mp4ffReadNumber R 3 >>= fun _ => pure ()) (hflags.bind (.pure _ R ()))
  rwa [List.append_nil, List.take_append_drop] at hboth

/-! ## Headers -/

/-- The size, the name, and the size of 64 bits of a large atom. -/
def headerBytes (large : Bool) (name : List Byte) (n : Nat) : List Byte :=
  if large then beBytes 4 1 ++ name ++ beBytes 8 (16 + n) else beBytes 4 (8 + n) ++ name

omit hR in
theorem atomBytes_eq (large : Bool) (name payload : List Byte) :
    atomBytes large name payload = headerBytes large name payload.length ++ payload := by
  cases large <;> rfl

def atomHeader (large : Bool) (name : List Byte) (n : Nat) : AtomHeader :=
  if large then ⟨16 + n, mp4ffAtomNameToType name, 16⟩ else ⟨8 + n, mp4ffAtomNameToType name, 8⟩

/-- What a reader of eight bytes makes of a size and a name. -/
theorem sizeName_reads {size : Nat} {name : List Byte} (hname : name.length = 4) (hsize : size < 2147483648)
    (h : AtomHeader) {bs : List Byte} {x : AtomHeader}
    (hrest : mp4Scanner.Reads R bs (if size = 1 then do
        let size ← mp4ffReadInt64 R
        pure ⟨size, mp4ffAtomNameToType name, 16⟩
      else pure ⟨size, mp4ffAtomNameToType name, 8⟩ : Mp4Scan AtomHeader) x) :
    mp4Scanner.Reads R (beBytes 4 size ++ name ++ bs) (mp4ffAtomReadHeader R h) x := by
  have hlen : (beBytes 4 size ++ name).length = 8 := by rw [List.length_append, beBytes_length, hname]
  have hne : beBytes 4 size ++ name ≠ [] := List.ne_nil_of_length_pos (by omega)
  have hread := mp4ffReadData_reads hR hne
  rw [hlen] at hread
  have htake : (beBytes 4 size ++ name).take 4 = beBytes 4 size := List.take_left' (beBytes_length 4 size)
  have hdrop : (beBytes 4 size ++ name).drop 4 = name := List.drop_left' (beBytes_length 4 size)
  have hnumber : ofBeBytes (beBytes 4 size) = size := by rw [ofBeBytes_beBytes, Nat.mod_eq_of_lt (by omega)]
  have hwide : toU64 (toI32 (size : Int)) = size := by
    rw [toI32_eq (by omega) (by omega), toU64]
    omega
  unfold mp4ffAtomReadHeader
  refine hread.bind ?_
  rw [if_neg (fun hne => hne hlen), htake, hdrop, hnumber, hwide]
  exact hrest

theorem header_reads (large : Bool) {name : List Byte} {n : Nat} (hname : name.length = 4)
    (hn : 8 + n < 2147483648) (h : AtomHeader) :
    mp4Scanner.Reads R (headerBytes large name n) (mp4ffAtomReadHeader R h) (atomHeader large name n) := by
  cases large with
  | false =>
    have hrest : mp4Scanner.Reads R [] (if 8 + n = 1 then do
        let size ← mp4ffReadInt64 R
        pure ⟨size, mp4ffAtomNameToType name, 16⟩
      else pure ⟨8 + n, mp4ffAtomNameToType name, 8⟩ : Mp4Scan AtomHeader) ⟨8 + n, mp4ffAtomNameToType name, 8⟩ := by
      rw [if_neg (by omega)]
      exact .pure _ R _
    have hread := sizeName_reads hR hname (by omega) h hrest
    rwa [List.append_nil] at hread
  | true =>
    have hlong := mp4ffReadNumber_be hR (k := 8) (n := 16 + n) (by omega) (by omega)
    have hrest := hlong.bind (k := fun size => pure (AtomHeader.mk size (mp4ffAtomNameToType name) 16)) (.pure _ R _)
    rw [List.append_nil] at hrest
    exact sizeName_reads hR hname (by omega) h hrest

omit hR in
theorem atomBytes_ne_nil (large : Bool) (name payload : List Byte) : atomBytes large name payload ≠ [] := by
  cases large <;> exact List.append_ne_nil_of_left_ne_nil (by simp [beBytes]) _

omit hR in
theorem headerBytes_length (large : Bool) {name : List Byte} (hname : name.length = 4) (n : Nat) :
    (headerBytes large name n).length = if large then 16 else 8 := by
  cases large <;> simp [headerBytes, hname]

omit hR in
theorem atomBytes_length (large : Bool) {name : List Byte} (hname : name.length = 4) (payload : List Byte) :
    (atomBytes large name payload).length = (if large then 16 else 8) + payload.length := by
  rw [atomBytes_eq, List.length_append, headerBytes_length large hname]

/-- An atom that is read from `s` on: its header, what is read of it, and a seek behind it. -/
structure AtomParts (R : List Byte) (large : Bool) (name body rest : List Byte) (s : Mp4Stream) (p : Nat) : Prop where
  header  : ∀ h, mp4ffAtomReadHeader R h s = some (atomHeader large name (body ++ rest).length,
    s.behind R p (if large then 16 else 8) 0 false)
  at_body : mp4Scanner.At (s.behind R p (if large then 16 else 8) 0 false) (p + if large then 16 else 8)
  window  : Window R (p + if large then 16 else 8) body
  room    : p + (atomBytes large name (body ++ rest)).length ≤ R.length
  read    : ∀ {α : Type} {m : Mp4Scan α} {x : α} {u : Nat} {e : Bool}, Passes R body u e m x →
    m (s.behind R p (if large then 16 else 8) 0 false) =
      some (x, s.behind R p ((if large then 16 else 8) + body.length) u e)
  seek    : ∀ u e, mp4ffSetPosition R ((p + (atomBytes large name (body ++ rest)).length : Nat) : Int)
      (s.behind R p ((if large then 16 else 8) + body.length) u e) =
    some ((), s.behind R p (atomBytes large name (body ++ rest)).length (if rest = [] then u else rest.length) e)

theorem atom_parts (large : Bool) {name body rest : List Byte} (hname : name.length = 4) {s : Mp4Stream} {p : Nat}
    (hat : mp4Scanner.At s p) (hp : p ≤ R.length) (hw : Window R p (atomBytes large name (body ++ rest))) :
    AtomParts R large name body rest s p := by
  have hlen := hw.length_le
  rw [atomBytes_length large hname, List.length_append] at hlen
  have hbytes := hw
  rw [atomBytes_eq] at hbytes
  have hn : 8 + (body ++ rest).length < 2147483648 := by
    rw [List.length_append]
    split at hlen <;> omega
  have hroom : p + (atomBytes large name (body ++ rest)).length ≤ R.length := by
    rw [atomBytes_length large hname, List.length_append]
    omega
  have hbody := hbytes.right
  rw [headerBytes_length large hname] at hbody
  have hmove : mp4Scanner.move (if large then 16 else 8) s = s.behind R p (if large then 16 else 8) 0 false :=
    (Mp4Stream.behind_moved hat).symm
  have hatBody := mp4Scanner.at_move hat (if large then 16 else 8)
  rw [hmove] at hatBody
  refine ⟨fun h => ?_, hatBody, hbody.left, hroom, fun {α m x u e} hm => ?_, fun u e => ?_⟩
  · have hread := header_reads hR large hname hn h s p hat hbytes.left
    rw [headerBytes_length large hname, hmove] at hread
    exact hread
  · rw [hm _ _ hatBody (by omega) hbody.left, Mp4Stream.behind_behind, Bool.false_or]
  · have hseek := mp4ffSetPosition_behind hR (s := s) (p := p) (n := (if large then 16 else 8) + body.length)
      (r := rest.length) (u := u) (e := e) (by omega)
    have htotal : (atomBytes large name (body ++ rest)).length =
        (if large then 16 else 8) + body.length + rest.length := by
      rw [atomBytes_length large hname, List.length_append, Nat.add_assoc]
    have hrest : (rest.length = 0) = (rest = []) := propext List.length_eq_zero_iff
    rw [htotal, ← Nat.add_assoc]
    rw [Nat.add_assoc p] at hseek ⊢
    simp only [hrest] at hseek
    exact hseek

/-! ## Tables -/

omit hR in
theorem array_reads {α : Type} {alloc : Mp4Alloc} (halloc : ∀ n, alloc n = true) {m : Mp4Scan α} {enc : α → List Byte}
    {xs : List α} (hm : ∀ x ∈ xs, mp4Scanner.Reads R (enc x) m x) (size : Int) :
    mp4Scanner.Reads R (xs.flatMap enc) (mp4ffReadArray alloc size xs.length m) xs := by
  unfold mp4ffReadArray
  cases xs with
  | nil => exact .pure _ R []
  | cons x xs =>
    rw [if_neg (by simp only [List.length_cons]; omega), if_pos (halloc size), Int.toNat_natCast]
    exact .times (x :: xs) hm

variable {alloc : Mp4Alloc} (halloc : ∀ n, alloc n = true) {version : List Byte} (hversion : version.length = 4)
include hversion

theorem stszOne_reads {size count : Int} (hsize : isInt size) (hcount : isInt count) (hne : size ≠ 0) (t : Mp4ffTrack) :
    mp4Scanner.Reads R (version ++ (be32 size ++ be32 count)) (mp4ffReadStsz alloc R t)
      { t with stszSampleSize := size, stszSampleCount := count } := by
  refine (version_reads hR hversion).bind ((be32_reads hR hsize).bind ((be32_reads hR hcount).last ?_))
  rw [if_neg hne]
  exact .pure _ R _

include halloc

theorem stszEach_reads {sizes : List Int} (hlen : sizes.length < 2147483648) (hsizes : ∀ x ∈ sizes, isInt x)
    (t : Mp4ffTrack) :
    mp4Scanner.Reads R (version ++ (be32 0 ++ (be32 sizes.length ++ sizes.flatMap be32))) (mp4ffReadStsz alloc R t)
      { t with stszSampleSize := 0, stszSampleCount := sizes.length, stszTable := sizes } := by
  have hcount : isInt (sizes.length : Int) := isInt_iff.2 ⟨by omega, by omega⟩
  refine (version_reads hR hversion).bind ((be32_reads hR (by decide)).bind ((be32_reads hR hcount).bind ?_))
  rw [if_pos rfl]
  exact (array_reads halloc (fun x hx => be32_reads hR (hsizes x hx)) _).last (.pure _ R _)

omit hversion halloc in
theorem pair_reads {e : Int × Int} (he : IsPair e) : mp4Scanner.Reads R (pairBytes e) (mp4ffReadPair R) e :=
  (be32_reads hR he.1).bind ((be32_reads hR he.2).last (.pure _ R e))

theorem pairs_reads {entries : List (Int × Int)} (hlen : entries.length < 2147483648)
    (hentries : ∀ e ∈ entries, IsPair e) :
    mp4Scanner.Reads R (version ++ (be32 entries.length ++ entries.flatMap pairBytes)) (mp4ffReadPairs alloc R)
      ((entries.length : Int), entries) := by
  have hcount : isInt (entries.length : Int) := isInt_iff.2 ⟨by omega, by omega⟩
  refine (version_reads hR hversion).bind ((be32_reads hR hcount).bind ?_)
  rw [if_pos (halloc _), Int.toNat_natCast]
  exact (Scanner.Reads.times entries fun e he => pair_reads hR (hentries e he)).last (.pure _ R _)

theorem stts_reads {entries : List (Int × Int)} (hlen : entries.length < 2147483648) (hentries : ∀ e ∈ entries, IsPair e)
    {t : Mp4ffTrack} (hnew : t.sttsEntryCount = 0) :
    mp4Scanner.Reads R (version ++ (be32 entries.length ++ entries.flatMap pairBytes)) (mp4ffReadStts alloc R t)
      { t with sttsEntryCount := entries.length, stts := entries } := by
  unfold mp4ffReadStts
  rw [if_neg (fun hne => hne hnew)]
  exact (pairs_reads hR halloc hversion hlen hentries).last (.pure _ R _)

theorem ctts_reads {entries : List (Int × Int)} (hlen : entries.length < 2147483648) (hentries : ∀ e ∈ entries, IsPair e)
    {t : Mp4ffTrack} (hnew : t.cttsEntryCount = 0) :
    mp4Scanner.Reads R (version ++ (be32 entries.length ++ entries.flatMap pairBytes)) (mp4ffReadCtts alloc R t)
      { t with cttsEntryCount := entries.length, ctts := entries } := by
  unfold mp4ffReadCtts
  rw [if_neg (fun hne => hne hnew)]
  exact (pairs_reads hR halloc hversion hlen hentries).last (.pure _ R _)

omit hversion halloc in
theorem stscEntry_reads {e : StscEntry} (he : IsStscEntry e) :
    mp4Scanner.Reads R (stscBytes e) (mp4ffReadStscEntry R) e :=
  (be32_reads hR he.1).bind ((be32_reads hR he.2.1).bind ((be32_reads hR he.2.2).last (.pure _ R e)))

theorem stsc_reads {entries : List StscEntry} (hlen : entries.length < 2147483648)
    (hentries : ∀ e ∈ entries, IsStscEntry e) (t : Mp4ffTrack) :
    mp4Scanner.Reads R (version ++ (be32 entries.length ++ entries.flatMap stscBytes)) (mp4ffReadStsc alloc R t)
      { t with stscEntryCount := entries.length, stsc := entries } := by
  have hcount : isInt (entries.length : Int) := isInt_iff.2 ⟨by omega, by omega⟩
  exact (version_reads hR hversion).bind ((be32_reads hR hcount).bind
    ((array_reads halloc (fun e he => stscEntry_reads hR (hentries e he)) _).last (.pure _ R _)))

theorem stco_reads {offsets : List Int} (hlen : offsets.length < 2147483648) (hoffsets : ∀ x ∈ offsets, isInt x)
    (t : Mp4ffTrack) :
    mp4Scanner.Reads R (version ++ (be32 offsets.length ++ offsets.flatMap be32)) (mp4ffReadStco alloc R t)
      { t with stcoEntryCount := offsets.length, stcoChunkOffset := offsets } := by
  have hcount : isInt (offsets.length : Int) := isInt_iff.2 ⟨by omega, by omega⟩
  exact (version_reads hR hversion).bind ((be32_reads hR hcount).bind
    ((array_reads halloc (fun x hx => be32_reads hR (hoffsets x hx)) _).last (.pure _ R _)))

omit hR halloc hversion in
theorem take_drop_append (bs : List Byte) (i j : Nat) : (bs.drop i).take j ++ bs.drop (i + j) = bs.drop i := by
  rw [← List.drop_drop, List.take_append_drop]

omit halloc in
theorem mvhd_reads {times more : List Byte} {timeScale duration : Int} (htimes : times.length = 8)
    (hscale : isInt timeScale) (hduration : isInt duration) (hmore : more.length = 80) :
    mp4Scanner.Reads R (version ++ (times ++ (be32 timeScale ++ (be32 duration ++ more)))) (mp4ffReadMvhd R)
      (timeScale, duration) := by
  have h1 := raw_reads hR (times.take 4) 4 (by rw [List.length_take]; omega) (by omega)
  have h2 := raw_reads hR (times.drop 4) 4 (by rw [List.length_drop]; omega) (by omega)
  have h3 := raw_reads hR (more.take 4) 4 (by rw [List.length_take]; omega) (by omega)
  have h4 := raw_reads hR ((more.drop 4).take 2) 2 (by rw [List.length_take, List.length_drop]; omega) (by omega)
  obtain ⟨xs, h5⟩ := times_reads hR 1 (by omega) 10 ((more.drop 6).take 10)
    (by rw [List.length_take, List.length_drop]; omega)
  obtain ⟨ys, h6⟩ := times_reads hR 4 (by omega) 9 ((more.drop 16).take 36)
    (by rw [List.length_take, List.length_drop]; omega)
  obtain ⟨zs, h7⟩ := times_reads hR 4 (by omega) 7 (more.drop 52)
    (by rw [List.length_drop]; omega)
  have hsplit : times ++ (be32 timeScale ++ (be32 duration ++ more)) =
      times.take 4 ++ (times.drop 4 ++ (be32 timeScale ++ (be32 duration ++ (more.take 4 ++ ((more.drop 4).take 2 ++
        ((more.drop 6).take 10 ++ ((more.drop 16).take 36 ++ more.drop 52))))))) := by
    have hmore1 : (more.drop 16).take 36 ++ more.drop 52 = more.drop 16 := take_drop_append more 16 36
    have hmore2 : (more.drop 6).take 10 ++ more.drop 16 = more.drop 6 := take_drop_append more 6 10
    have hmore3 : (more.drop 4).take 2 ++ more.drop 6 = more.drop 4 := take_drop_append more 4 2
    rw [hmore1, hmore2, hmore3, List.take_append_drop, ← List.append_assoc (times.take 4), List.take_append_drop]
  rw [hsplit]
  exact (version_reads hR hversion).bind (h1.bind (h2.bind ((be32_reads hR hscale).bind ((be32_reads hR hduration).bind
    (h3.bind (h4.bind (h5.bind (h6.bind (h7.last (.pure _ R _))))))))))

omit halloc in
theorem mdhd_reads {times more : List Byte} {timeScale duration : Nat} (hnot : ofBeBytes version ≠ 1)
    (htimes : times.length = 8) (hscale : timeScale < 4294967296) (hduration : duration < 4294967296)
    (hmore : more.length = 4) (t : Mp4ffTrack) :
    mp4Scanner.Reads R (version ++ (times ++ (beBytes 4 timeScale ++ (beBytes 4 duration ++ more)))) (mp4ffReadMdhd R t)
      { t with timeScale, duration := if duration = 4294967295 then 18446744073709551615 else duration } := by
  have h0 := raw_reads hR version 4 hversion (by omega)
  have h1 := raw_reads hR (times.take 4) 4 (by rw [List.length_take]; omega) (by omega)
  have h2 := raw_reads hR (times.drop 4) 4 (by rw [List.length_drop]; omega) (by omega)
  have h3 := mp4ffReadNumber_be hR (k := 4) (n := timeScale) (by omega) (by omega)
  have h4 := mp4ffReadNumber_be hR (k := 4) (n := duration) (by omega) (by omega)
  have h5 := raw_reads hR (more.take 2) 2 (by rw [List.length_take]; omega) (by omega)
  have h6 := raw_reads hR (more.drop 2) 2 (by rw [List.length_drop]; omega) (by omega)
  have hsplit : times ++ (beBytes 4 timeScale ++ (beBytes 4 duration ++ more)) =
      (times.take 4 ++ (times.drop 4 ++ (beBytes 4 timeScale ++ beBytes 4 duration))) ++ (more.take 2 ++ more.drop 2) := by
    rw [List.take_append_drop, ← List.append_assoc (times.take 4), List.take_append_drop]
    simp only [List.append_assoc]
  have htimes : mp4Scanner.Reads R (times.take 4 ++ (times.drop 4 ++ (beBytes 4 timeScale ++ beBytes 4 duration)))
      (mp4ffReadMdhdTimes R (ofBeBytes version))
      (timeScale, if duration = 4294967295 then 18446744073709551615 else duration) := by
    rw [mp4ffReadMdhdTimes, if_neg hnot]
    exact h1.bind (h2.bind (h3.bind (h4.last (.pure _ R _))))
  rw [hsplit]
  exact h0.bind (htimes.bind (h5.bind (h6.last (.pure _ R _))))

omit halloc in
theorem mdhdLarge_reads {times more : List Byte} {timeScale duration : Nat} (hlarge : ofBeBytes version = 1)
    (htimes : times.length = 16) (hscale : timeScale < 4294967296) (hduration : duration < 18446744073709551616)
    (hmore : more.length = 4) (t : Mp4ffTrack) :
    mp4Scanner.Reads R (version ++ (times ++ (beBytes 4 timeScale ++ (beBytes 8 duration ++ more)))) (mp4ffReadMdhd R t)
      { t with timeScale, duration } := by
  have h0 := raw_reads hR version 4 hversion (by omega)
  have h1 := raw_reads hR (times.take 8) 8 (by rw [List.length_take]; omega) (by omega)
  have h2 := raw_reads hR (times.drop 8) 8 (by rw [List.length_drop]; omega) (by omega)
  have h3 := mp4ffReadNumber_be hR (k := 4) (n := timeScale) (by omega) (by omega)
  have h4 := mp4ffReadNumber_be hR (k := 8) (n := duration) (by omega) (by omega)
  have h5 := raw_reads hR (more.take 2) 2 (by rw [List.length_take]; omega) (by omega)
  have h6 := raw_reads hR (more.drop 2) 2 (by rw [List.length_drop]; omega) (by omega)
  have hsplit : times ++ (beBytes 4 timeScale ++ (beBytes 8 duration ++ more)) =
      (times.take 8 ++ (times.drop 8 ++ (beBytes 4 timeScale ++ beBytes 8 duration))) ++ (more.take 2 ++ more.drop 2) := by
    rw [List.take_append_drop, ← List.append_assoc (times.take 8), List.take_append_drop]
    simp only [List.append_assoc]
  have htimes : mp4Scanner.Reads R (times.take 8 ++ (times.drop 8 ++ (beBytes 4 timeScale ++ beBytes 8 duration)))
      (mp4ffReadMdhdTimes R (ofBeBytes version)) (timeScale, duration) := by
    rw [mp4ffReadMdhdTimes, if_pos hlarge]
    exact h1.bind (h2.bind (h3.bind (h4.last (.pure _ R _))))
  rw [hsplit]
  exact h0.bind (htimes.bind (h5.bind (h6.last (.pure _ R _))))

/-! ## Sample descriptions -/

omit hR hversion halloc in
theorem descr_reads (hR : R.length < 2147483648) {ds : List Nat} (h : IsDescr ds) :
    mp4Scanner.Reads R (descrBytes ds) (mp4ffReadMp4DescrLength R) (descrLength ds) :=
  mp4ffReadMp4DescrLength_reads hR h.1 h.2.2 h.2.1

omit hversion halloc in
/-- The bytes of the configuration; an empty one is asked for all the same. -/
theorem data_passes {bs : List Byte} (hlen : bs.length < 2147483648) :
    Passes R bs 0 bs.isEmpty (mp4ffReadData R bs.length) bs := by
  by_cases hne : bs = []
  · subst hne
    rintro s p ⟨hpos, hcur⟩ hp _
    have hint : int64? (p : Int) = some (p : Int) := by rw [int64?, if_pos (by omega)]
    have hif : (if p < R.length then p else p - 0) = p := by split <;> rfl
    have hsmall : ¬2147483648 ≤ 0 := by decide
    simp only [mp4ffReadData, List.length_nil, if_neg hsmall, contentCall, fetch_zero, Option.bind_eq_bind, Mp4Stream.behind, hpos, hcur,
      List.isEmpty_nil, Nat.cast_zero, add_zero, decide_true, hint, hif, Option.bind_some]
  · have hempty : bs.isEmpty = false := List.isEmpty_eq_false_iff.2 hne
    rw [hempty]
    exact .ofReads (mp4ffReadData_reads hR hne)

omit hversion in
theorem decoderConfig_passes {ds : List Nat} {config : List Byte} (hds : IsDescr ds)
    (hlen : descrLength ds = config.length) (hsmall : config.length < 2147483648) (t : Mp4ffTrack) :
    Passes R (descrBytes ds ++ config) 0 config.isEmpty (mp4ffReadDecoderConfig alloc R t)
      { t with decoderConfig := config } := by
  refine .after (descr_reads hR hds) ?_
  rw [if_pos (halloc _), hlen]
  exact (data_passes hR hsmall).last (if_pos rfl)

omit hversion in
theorem esds_passes {esds : Mp4Esds} (h : esds.Fits) (hsmall : esds.config.length < 2147483648) (t : Mp4ffTrack) :
    Passes R esds.bytes 0 esds.config.isEmpty (mp4ffReadEsds alloc R t) (esds.apply t) := by
  have htag := fun n (hn : n < 256) => mp4ffReadNumber_be hR (k := 1) (n := n) (by omega) (by omega)
  have hid := raw_reads hR _ _ h.id (by omega)
  have hstream := raw_reads hR _ _ h.streamType (by omega)
  have hmax := mp4ffReadNumber_be hR (k := 4) (n := esds.maxBitrate) (by omega) h.maxBitrate
  have havg := mp4ffReadNumber_be hR (k := 4) (n := esds.avgBitrate) (by omega) h.avgBitrate
  refine .after (version_reads hR h.version) (.after (htag 3 (by omega)) ?_)
  rw [if_pos rfl]
  refine .after (descr_reads hR h.length.1) ?_
  rw [if_neg (by have := h.length.2; omega)]
  refine .after hid ?_
  unfold mp4ffReadDecoderDescr
  refine .after (htag 4 (by omega)) ?_
  rw [if_neg (by omega)]
  refine .after (descr_reads hR h.configDescr.1) ?_
  rw [if_neg (by have := h.configDescr.2; omega)]
  refine .after (htag _ h.audioType) (.after hstream (.after hmax (.after havg (.after (htag 5 (by omega)) ?_))))
  rw [if_neg (by omega)]
  exact decoderConfig_passes hR halloc h.configLength.1 h.configLength.2 hsmall _

omit hversion in
/-- What is read of a sample description behind its header. -/
theorem stsdEntry_passes {d : Mp4SampleDesc} (h : d.Fits) (hsmall : d.body.length < 2147483648) (t : Mp4ffTrack) :
    Passes R d.body 0 d.asksNothing (mp4ffReadStsdEntry alloc R (mp4ffAtomNameToType d.name) t) (d.apply t) := by
  cases d with
  | mp4a reserved channelCount sampleSize between sampleRate fraction esdsSize esds rest =>
    obtain ⟨hreserved, hchannels, hbits, hbetween, hrate, hfraction, ⟨hesdsSize, hone⟩, hesds⟩ := h
    obtain ⟨xs, h1⟩ := times_reads hR 1 (by omega) 6 (reserved.take 6)
      (by rw [List.length_take]; omega)
    have h2 := raw_reads hR ((reserved.drop 6).take 2) 2 
      (by rw [List.length_take, List.length_drop]; omega) (by omega)
    have h3 := raw_reads hR ((reserved.drop 8).take 4) 4 
      (by rw [List.length_take, List.length_drop]; omega) (by omega)
    have h4 := raw_reads hR (reserved.drop 12) 4 (by rw [List.length_drop]; omega) (by omega)
    have h5 := fun n (hn : n < 65536) => mp4ffReadNumber_be hR (k := 2) (n := n) (by omega) (by omega)
    have h6 := raw_reads hR (between.take 2) 2 (by rw [List.length_take]; omega) (by omega)
    have h7 := raw_reads hR (between.drop 2) 2 (by rw [List.length_drop]; omega) (by omega)
    have h8 := raw_reads hR fraction 2 hfraction (by omega)
    have h9 : mp4Scanner.Reads R (beBytes 4 esdsSize ++ bytes "esds") (mp4ffAtomReadHeader R {})
        ⟨esdsSize, .esds, 8⟩ := by
      have hname : (bytes "esds").length = 4 := by decide
      refine (sizeName_reads hR hname hesdsSize {} ?_).congr (List.append_nil _)
      rw [if_neg hone]
      exact .pure _ R _
    have hreservedSplit : reserved =
        reserved.take 6 ++ ((reserved.drop 6).take 2 ++ ((reserved.drop 8).take 4 ++ reserved.drop 12)) := by
      have hlast : (reserved.drop 8).take 4 ++ reserved.drop 12 = reserved.drop 8 := take_drop_append reserved 8 4
      have hmid : (reserved.drop 6).take 2 ++ reserved.drop 8 = reserved.drop 6 := take_drop_append reserved 6 2
      rw [hlast, hmid, List.take_append_drop]
    have hbody :
        (Mp4SampleDesc.mp4a reserved channelCount sampleSize between sampleRate fraction esdsSize esds rest).body =
        reserved.take 6 ++ ((reserved.drop 6).take 2 ++ ((reserved.drop 8).take 4 ++ (reserved.drop 12 ++
          (beBytes 2 channelCount ++ (beBytes 2 sampleSize ++ (between.take 2 ++ (between.drop 2 ++
            (beBytes 2 sampleRate ++ (fraction ++ ((beBytes 4 esdsSize ++ bytes "esds") ++ esds.bytes)))))))))) := by
      conv_lhs => rw [Mp4SampleDesc.body, hreservedSplit, ← List.take_append_drop 2 between]
      simp only [List.append_assoc]
    have hconfig : esds.config.length < 2147483648 := by
      have hle : esds.config.length ≤ esds.bytes.length := by
        simp only [Mp4Esds.bytes, List.length_append]
        omega
      simp only [Mp4SampleDesc.body, List.length_append] at hsmall
      omega
    have hmp4a : mp4ffAtomNameToType (bytes "mp4a") = .mp4a := by decide
    rw [hbody, Mp4SampleDesc.name, hmp4a]
    exact .after h1 (.after h2 (.after h3 (.after h4 (.after (h5 _ hchannels) (.after (h5 _ hbits) (.after h6 (.after h7
      (.after (h5 _ hrate) (.after h8 (.after h9 (esds_passes hR halloc hesds hconfig _)))))))))))
  | other name rest =>
    have hentry : mp4ffReadStsdEntry alloc R (mp4ffAtomNameToType name) t =
        pure ((Mp4SampleDesc.other name rest).apply t) := by
      have hnot := h.2
      unfold mp4ffReadStsdEntry Mp4SampleDesc.apply
      split <;> simp_all
    rw [Mp4SampleDesc.name, hentry]
    exact .ofReads (.pure _ R _)

omit hversion in
/-- A turn of the loop passes a description. -/
theorem stsdTurn_passes {d : Mp4SampleDesc} (h : d.Fits) (t : Mp4ffTrack) :
    Passes R d.bytes d.rest.length d.asksNothing (mp4ffStsdTurn alloc R t) (d.apply t) := by
  intro s p hat hp hw
  have hwindow : Window R p (atomBytes false d.name (d.body ++ d.rest)) := hw
  have hparts := atom_parts hR false h.name_length hat hp hwindow
  have hlength : d.bytes.length = 8 + (d.body ++ d.rest).length := atomBytes_length false h.name_length _
  have hroom : p + d.bytes.length ≤ R.length := hparts.room
  have hsmall : d.body.length < 2147483648 := by
    rw [List.length_append] at hlength
    omega
  have hentry : mp4ffReadStsdEntry alloc R (mp4ffAtomNameToType d.name) t (s.behind R p 8 0 false) =
      some (d.apply t, s.behind R p (8 + d.body.length) 0 d.asksNothing) :=
    hparts.read (stsdEntry_passes hR halloc h hsmall t)
  have hseek : mp4ffSetPosition R ((p + d.bytes.length : Nat) : Int) (s.behind R p (8 + d.body.length) 0 d.asksNothing) =
      some ((), s.behind R p d.bytes.length d.rest.length d.asksNothing) := by
    have hrest : (if d.rest = [] then 0 else d.rest.length) = d.rest.length := by
      split <;> simp_all
    exact hrest ▸ hparts.seek 0 d.asksNothing
  have hsize : toI64 (s.currentPosition + (8 + (d.body ++ d.rest).length : Nat)) =
      ((p + d.bytes.length : Nat) : Int) := by
    rw [hat.2, ← hlength, toI64_eq (by omega) (by omega)]
    omega
  calc mp4ffStsdTurn alloc R t s = (mp4ffAtomReadHeader R {} s).bind fun h =>
        (mp4ffReadStsdEntry alloc R h.1.type t h.2).bind fun t =>
          (mp4ffSetPosition R (toI64 (s.currentPosition + h.1.size)) t.2).bind fun u => some (t.1, u.2) := rfl
    _ = (mp4ffReadStsdEntry alloc R (mp4ffAtomNameToType d.name) t (s.behind R p 8 0 false)).bind fun t =>
          (mp4ffSetPosition R (toI64 (s.currentPosition + (8 + (d.body ++ d.rest).length : Nat))) t.2).bind fun u =>
            some (t.1, u.2) := by
      rw [hparts.header, Option.bind_some]
      rfl
    _ = (mp4ffSetPosition R ((p + d.bytes.length : Nat) : Int) (s.behind R p (8 + d.body.length) 0 d.asksNothing)).bind
          fun u => some (d.apply t, u.2) := by
      rw [hentry, Option.bind_some, hsize]
    _ = _ := by rw [hseek, Option.bind_some]

omit hversion in
theorem stsdLoop_passes {ds : List Mp4SampleDesc} (h : ∀ d ∈ ds, d.Fits) (t : Mp4ffTrack) :
    Passes R (ds.flatMap Mp4SampleDesc.bytes) ((ds.getLast?.map fun d => d.rest.length).getD 0)
      (ds.any Mp4SampleDesc.asksNothing) (mp4ffStsdLoop alloc R ds.length t) (ds.foldl (fun t d => d.apply t) t) := by
  induction ds generalizing t with
  | nil => exact .ofReads (.pure _ R t)
  | cons d ds ih =>
    have hturn := stsdTurn_passes hR halloc (h d List.mem_cons_self) t
    have hrest := ih (fun x hx => h x (List.mem_cons_of_mem d hx)) (d.apply t)
    cases ds with
    | nil =>
      refine (hturn.last (k := mp4ffStsdLoop alloc R 0) rfl).congr ?_ rfl ?_
      · exact (List.append_nil _).symm
      · exact (Bool.or_false _).symm
    | cons e es =>
      refine (hturn.bind ?_ hrest).congr rfl (by rw [List.getLast?_cons_cons]) rfl
      exact List.append_ne_nil_of_left_ne_nil (atomBytes_ne_nil _ _ _) _

theorem stsd_passes {ds : List Mp4SampleDesc} (hlen : ds.length < 2147483648) (h : ∀ d ∈ ds, d.Fits) (t : Mp4ffTrack) :
    Passes R (version ++ (be32 ds.length ++ ds.flatMap Mp4SampleDesc.bytes))
      ((ds.getLast?.map fun d => d.rest.length).getD 0) (ds.any Mp4SampleDesc.asksNothing) (mp4ffReadStsd alloc R t)
      (ds.foldl (fun t d => d.apply t) { t with stsdEntryCount := ds.length }) := by
  have hcount : isInt (ds.length : Int) := isInt_iff.2 ⟨by omega, by omega⟩
  refine .after (version_reads hR hversion) (.after (be32_reads hR hcount) ?_)
  rw [Int.toNat_natCast]
  exact stsdLoop_passes hR halloc h _

end

end AudioPlayer
