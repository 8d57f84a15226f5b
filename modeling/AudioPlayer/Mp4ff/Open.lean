import Mathlib
import AudioPlayer.Mp4ff.Parse

/-!
# What is read of an m4a file (`faad2-2.7/common/mp4ff/mp4ff.c:35-222`)

The atoms of a file are read one after the other, and those in them in the same way. At the end of the file the place
of the cursor and the position of mp4ff may differ; what is left there is skipped.
-/

namespace AudioPlayer
open Lib

section
variable {R : List Byte} (hR : R.length < 2147483648) {alloc : Mp4Alloc} (halloc : ∀ n, alloc n = true)
include hR halloc

/-! ## The atoms in an atom -/

omit hR halloc in
/-- A turn of the loop. -/
theorem subAtoms_turn {fuel totalSize countedSize : Nat} {f g k : Mp4ff} {s t : Mp4Stream} {h : AtomHeader}
    (hlt : countedSize < totalSize) (hheader : mp4ffAtomReadHeader R {} s = some (h, t)) (hsize : h.size ≠ 0)
    (henter : (if h.type = .trak then mp4ffTrackAdd (f.at t) else some (f.at t)) = some g)
    (hread : (if h.type.subatomic then mp4ffParseSubAtoms alloc R fuel (toU64 (h.size - h.headerSize)) 0 g
      else mp4ffAtomRead alloc R fuel (toI32 h.size) h.type g) = some k)
    (hsum : countedSize + h.size < 18446744073709551616) :
    mp4ffParseSubAtoms alloc R (fuel + 1) totalSize countedSize (f.at s) =
      mp4ffParseSubAtoms alloc R fuel totalSize (countedSize + h.size) k := by
  have hstream : mp4ffAtomReadHeader R {} (f.at s).stream = some (h, t) := hheader
  have hat : ({ f.at s with stream := t } : Mp4ff) = f.at t := rfl
  rw [mp4ffParseSubAtoms, if_pos hlt, hstream, Option.bind_eq_bind, Option.bind_some]
  simp only [if_neg hsize, hat, Nat.mod_eq_of_lt hsum]
  by_cases htrak : h.type = .trak
  · rw [if_pos htrak] at henter
    rw [if_pos htrak, henter, Option.bind_eq_bind, Option.bind_some]
    by_cases hsub : h.type.subatomic = true
    · rw [if_pos hsub] at hread
      rw [if_pos hsub, hread, Option.bind_some]
    · rw [if_neg hsub] at hread
      rw [if_neg hsub, hread, Option.bind_some]
  · rw [if_neg htrak] at henter
    obtain rfl := Option.some.inj henter
    rw [if_neg htrak, Option.bind_eq_bind, Option.bind_some]
    by_cases hsub : h.type.subatomic = true
    · rw [if_pos hsub] at hread
      rw [if_pos hsub, hread, Option.bind_some]
    · rw [if_neg hsub] at hread
      rw [if_neg hsub, hread, Option.bind_some]

omit hR halloc in
theorem atomHeader_size (large : Bool) {name : List Byte} (hname : name.length = 4) (payload : List Byte) :
    (atomHeader large name payload.length).size = (atomBytes large name payload).length := by
  rw [atomBytes_length large hname]
  cases large <;> rfl

omit hR halloc in
theorem atomHeader_type (large : Bool) (name : List Byte) (n : Nat) :
    (atomHeader large name n).type = mp4ffAtomNameToType name := by
  cases large <;> rfl

omit hR halloc in
theorem atomHeader_content (large : Bool) (name : List Byte) {n : Nat} (hn : n < 18446744073709551616) :
    toU64 ((atomHeader large name n).size - (atomHeader large name n).headerSize) = n := by
  cases large <;> simp [atomHeader, toU64_eq hn]

omit hR halloc in
/-- The content of an atom leads behind it, from behind its header. -/
theorem skip_target (large : Bool) (name : List Byte) {p n : Nat} (h : p + n < 2147483648) :
    toI64 ((p : Int) + (atomHeader large name n).size - (atomHeader large name n).headerSize) =
      ((p + n : Nat) : Int) := by
  have hcontent : ((atomHeader large name n).size : Int) = (atomHeader large name n).headerSize + n := by
    cases large <;> simp [atomHeader]
  rw [hcontent, toI64_eq (by omega) (by omega)]
  omega

omit halloc in
/-- The header of an atom, from behind what was read before. -/
theorem header_behind {large : Bool} {name payload : List Byte} (hname : name.length = 4) {p n : Nat}
    (hw : Window R (p + n) (atomBytes large name payload)) (s : Mp4Stream) (u : Nat) (e : Bool) :
    mp4ffAtomReadHeader R {} (s.behind R p n u e) =
      some (atomHeader large name payload.length, s.behind R p (n + if large then 16 else 8) 0 e) := by
  have hlt : p + n < R.length := hw.lt (atomBytes_ne_nil _ _ _)
  have hat := Mp4Stream.behind_at (R := R) (s := s) (u := u) (e := e) hlt
  have hlen := hw.length_le
  rw [atomBytes_length large hname] at hlen
  have hsmall : 8 + payload.length < 2147483648 := by
    split at hlen <;> omega
  rw [atomBytes_eq] at hw
  rw [header_reads hR large hname hsmall {} _ _ hat hw.left, headerBytes_length large hname,
    ← Mp4Stream.behind_moved hat, Mp4Stream.behind_behind, Bool.or_false]

omit halloc in
/-- An atom behind what was read before: its header, of `k` bytes, and its content. -/
theorem atom_behind {large : Bool} {name payload : List Byte} (hname : name.length = 4) {p n : Nat}
    (hw : Window R (p + n) (atomBytes large name payload)) (s : Mp4Stream) (u : Nat) (e : Bool) :
    ∃ k, 0 < k ∧ (atomBytes large name payload).length = k + payload.length ∧
      (atomHeader large name payload.length).size = k + payload.length ∧ Window R (p + (n + k)) payload ∧
      mp4ffAtomReadHeader R {} (s.behind R p n u e) =
        some (atomHeader large name payload.length, s.behind R p (n + k) 0 e) := by
  have hlength := atomBytes_length large hname payload
  have hcontent := hw
  rw [atomBytes_eq] at hcontent
  have hinside := hcontent.right
  rw [headerBytes_length large hname, Nat.add_assoc] at hinside
  refine ⟨if large then 16 else 8, by split <;> omega, hlength, ?_, hinside, header_behind hR hname hw s u e⟩
  rw [atomHeader_size large hname, hlength]

omit hR halloc in
theorem enter_eq {name : List Byte} {f : Mp4ff}
    (hroom : mp4ffAtomNameToType name = .trak → f.tracks.length < mp4MaxTracks) (t : Mp4Stream) :
    (if mp4ffAtomNameToType name = .trak then mp4ffTrackAdd (f.at t) else some (f.at t)) =
      some ((Mp4Atoms.enter name f).at t) := by
  by_cases htrak : mp4ffAtomNameToType name = .trak
  · have hlt : (f.at t).tracks.length < mp4MaxTracks := hroom htrak
    rw [if_pos htrak, mp4ffTrackAdd, if_pos hlt, Mp4Atoms.enter, if_pos htrak]
    rfl
  · rw [if_neg htrak, Mp4Atoms.enter, if_neg htrak]

/-- The atoms one after the other, from behind what was read before. -/
theorem subAtoms_parses (a : Mp4Atoms) {f : Mp4ff} (hfits : a.Fits f) {fuel totalSize countedSize : Nat}
    (hfuel : a.bytes.length < fuel) (hsum : countedSize + a.bytes.length = totalSize)
    (hsmall : totalSize < 18446744073709551616) {s : Mp4Stream} {p n u : Nat} {e : Bool} (hp : p + n ≤ R.length)
    (hw : Window R (p + n) a.bytes) :
    mp4ffParseSubAtoms alloc R fuel totalSize countedSize (f.at (s.behind R p n u e)) =
      some ((a.apply f).at (s.behind R p (n + a.bytes.length) (a.unread u) (e || a.asksNothing))) := by
  induction a generalizing f fuel totalSize countedSize n u e with
  | nil =>
    obtain ⟨fuel, rfl⟩ : ∃ k, fuel = k + 1 := ⟨fuel - 1, by omega⟩
    rw [Mp4Atoms.bytes, List.length_nil] at hsum
    rw [mp4ffParseSubAtoms, if_neg (by omega), Mp4Atoms.asksNothing, Bool.or_false]
    rfl
  | table x version rest next ih =>
    obtain ⟨fuel, rfl⟩ : ∃ k, fuel = k + 1 := ⟨fuel - 1, by omega⟩
    obtain ⟨⟨hversion, hx, hwhole⟩, hnext⟩ := hfits
    obtain ⟨bs, hbs⟩ : ∃ bs, bs = (Mp4Atoms.versionOf x version ++ x.body) ++ rest := ⟨_, rfl⟩
    have hlength : (atomBytes false x.name bs).length = 8 + bs.length := atomBytes_length false hx.name.1 bs
    rw [Mp4Atoms.bytes, ← hbs] at hfuel hsum hw ⊢
    have hend := hw.length_le
    rw [List.length_append, hlength] at hfuel hsum hend ⊢
    have hlt : p + n < R.length := hw.left.lt (atomBytes_ne_nil _ _ _)
    have hat : mp4Scanner.At (s.behind R p n u e) (p + n) := Mp4Stream.behind_at hlt
    have hheader : mp4ffAtomReadHeader R {} (s.behind R p n u e) =
        some (⟨8 + bs.length, mp4ffAtomNameToType x.name, 8⟩, s.behind R p (n + 8) 0 e) :=
      header_behind hR hx.name.1 hw.left s u e
    have hread := atomRead_parses hR halloc hbs hversion hx hwhole (show bs.length < fuel by omega) hat hlt.le hw.left
    rw [Mp4Stream.behind_behind, Mp4Stream.behind_behind, Bool.or_false] at hread
    have htrak : mp4ffAtomNameToType x.name ≠ .trak := by
      intro htrak
      have hsub := hx.name.2
      rw [htrak] at hsub
      exact absurd hsub (by decide)
    have hnot : ¬(mp4ffAtomNameToType x.name).subatomic = true := by
      rw [hx.name.2]
      exact Bool.false_ne_true
    have hrest := hw.right
    rw [hlength, Nat.add_assoc] at hrest
    have hcount : countedSize < totalSize := by omega
    have hbound : countedSize + (8 + bs.length) < 18446744073709551616 := by omega
    have hdone : countedSize + (8 + bs.length) + next.bytes.length = totalSize := by omega
    rw [subAtoms_turn hcount hheader (show 8 + bs.length ≠ 0 by omega) (if_neg htrak) ((if_neg hnot).trans hread) hbound]
    refine (ih hnext (by omega) hdone hsmall (by omega) hrest).trans ?_
    rw [Mp4Atoms.asksNothing, Bool.or_assoc, Nat.add_assoc]
    rfl
  | parent large name inner next ihInner ih =>
    obtain ⟨fuel, rfl⟩ : ∃ k, fuel = k + 1 := ⟨fuel - 1, by omega⟩
    obtain ⟨⟨hname, hsub, hroom⟩, hinner, hnext⟩ := hfits
    rw [Mp4Atoms.bytes] at hfuel hsum hw ⊢
    obtain ⟨k, hpositive, hlength, hsize, hinside, hheader⟩ := atom_behind hR hname hw.left s u e
    have hend := hw.length_le
    rw [List.length_append, hlength] at hfuel hsum hend ⊢
    have hrest := hw.right
    rw [hlength, Nat.add_assoc, ← Nat.add_assoc n] at hrest
    have hcontent := atomHeader_content large name (show inner.bytes.length < 18446744073709551616 by omega)
    have hinner : mp4ffParseSubAtoms alloc R fuel (toU64 ((atomHeader large name inner.bytes.length).size -
        (atomHeader large name inner.bytes.length).headerSize)) 0
          ((Mp4Atoms.enter name f).at (s.behind R p (n + k) 0 e)) =
          some ((inner.apply (Mp4Atoms.enter name f)).at
            (s.behind R p (n + k + inner.bytes.length) (inner.unread 0) (e || inner.asksNothing))) := by
      rw [hcontent]
      exact ihInner hinner (by omega) (Nat.zero_add _) (by omega) (by omega) hinside
    have htype := atomHeader_type large name inner.bytes.length
    have hcount : countedSize < totalSize := by omega
    have hbound : countedSize + (k + inner.bytes.length) < 18446744073709551616 := by omega
    have hdone : countedSize + (k + inner.bytes.length) + next.bytes.length = totalSize := by omega
    have hnonzero : k + inner.bytes.length ≠ 0 := by omega
    rw [← hsize] at hbound hnonzero
    rw [subAtoms_turn hcount hheader hnonzero (by rw [htype]; exact enter_eq hroom _)
      ((if_pos (by rw [htype]; exact hsub)).trans hinner) hbound, hsize]
    refine (ih hnext (by omega) hdone hsmall (by omega) hrest).trans ?_
    rw [Mp4Atoms.asksNothing, Bool.or_assoc, Nat.add_assoc n, Nat.add_assoc n]
    rfl

/-! ## The roots -/

omit hR halloc in
theorem parseAtoms_turn {fuel : Nat} {f k : Mp4ff} {s t : Mp4Stream} {h : AtomHeader}
    (hheader : mp4ffAtomReadHeader R {} s = some (h, t)) (hsize : h.size ≠ 0)
    (hread : (if h.type.subatomic then mp4ffParseSubAtoms alloc R fuel (toU64 (h.size - h.headerSize)) 0 (f.at t)
      else (f.at t).scan (mp4ffSetPosition R (toI64 (t.currentPosition + h.size - h.headerSize)))) = some k) :
    mp4ffParseAtoms alloc R (fuel + 1) (f.at s) = mp4ffParseAtoms alloc R fuel k := by
  have hstream : mp4ffAtomReadHeader R {} (f.at s).stream = some (h, t) := hheader
  have hat : ({ f.at s with stream := t } : Mp4ff) = f.at t := rfl
  rw [mp4ffParseAtoms, hstream, Option.bind_eq_bind, Option.bind_some]
  simp only [if_neg hsize, hat]
  by_cases hsub : h.type.subatomic = true
  · rw [if_pos hsub] at hread
    rw [if_pos hsub, hread, Option.bind_eq_bind, Option.bind_some]
  · rw [if_neg hsub] at hread
    rw [if_neg hsub, hread, Option.bind_eq_bind, Option.bind_some]

omit hR halloc in
theorem Mp4Root.bytes_ne_nil (r : Mp4Root) : r.bytes ≠ [] := by
  cases r <;> exact atomBytes_ne_nil _ _ _

/-- A root atom, from behind what was read before. -/
theorem root_parses {r : Mp4Root} {f : Mp4ff} (hfits : r.Fits f) {fuel : Nat} (hfuel : r.bytes.length ≤ fuel)
    {s : Mp4Stream} {p n u : Nat} {e : Bool} (hw : Window R (p + n) r.bytes) :
    mp4ffParseAtoms alloc R (fuel + 1) (f.at (s.behind R p n u e)) =
      mp4ffParseAtoms alloc R fuel
        ((r.apply f).at (s.behind R p (n + r.bytes.length) r.unread (e || r.asksNothing))) := by
  cases r with
  | parent large name inner =>
    obtain ⟨⟨hname, hsub⟩, hinner⟩ := hfits
    rw [Mp4Root.bytes] at hfuel hw ⊢
    obtain ⟨k, hpositive, hlength, hsize, hinside, hheader⟩ := atom_behind hR hname hw s u e
    have hend := hw.length_le
    rw [hlength] at hfuel hend ⊢
    have hcontent := atomHeader_content large name (show inner.bytes.length < 18446744073709551616 by omega)
    have htype := atomHeader_type large name inner.bytes.length
    have hread : mp4ffParseSubAtoms alloc R fuel (toU64 ((atomHeader large name inner.bytes.length).size -
        (atomHeader large name inner.bytes.length).headerSize)) 0 (f.at (s.behind R p (n + k) 0 e)) =
          some ((inner.apply f).at
            (s.behind R p (n + k + inner.bytes.length) (inner.unread 0) (e || inner.asksNothing))) := by
      rw [hcontent]
      exact subAtoms_parses hR halloc inner hinner (by omega) (Nat.zero_add _) (by omega) (by omega) hinside
    rw [parseAtoms_turn hheader (by rw [hsize]; omega) ((if_pos (by rw [htype]; exact hsub)).trans hread),
      Nat.add_assoc n]
    rfl
  | skipped large name rest =>
    obtain ⟨hname, hsub⟩ := hfits
    rw [Mp4Root.bytes] at hfuel hw ⊢
    obtain ⟨k, hpositive, hlength, hsize, -, hheader⟩ := atom_behind hR hname hw s u e
    have hend := hw.length_le
    rw [hlength] at hfuel hend ⊢
    have htype := atomHeader_type large name rest.length
    have hnot : ¬(atomHeader large name rest.length).type.subatomic = true := by
      rw [htype, hsub]
      exact Bool.false_ne_true
    have hdest : toI64 (((p + (n + k) : Nat) : Int) + (atomHeader large name rest.length).size -
        (atomHeader large name rest.length).headerSize) = ((p + (n + k) + rest.length : Nat) : Int) :=
      skip_target large name (by omega)
    have hseek := mp4ffSetPosition_behind hR (s := s) (p := p) (n := n + k) (r := rest.length) (u := 0) (e := e)
      (by omega)
    have hrest : (if rest.length = 0 then 0 else rest.length) = rest.length := by
      split <;> simp_all
    rw [hrest] at hseek
    have hread : (f.at (s.behind R p (n + k) 0 e)).scan (mp4ffSetPosition R
        (toI64 ((s.behind R p (n + k) 0 e).currentPosition + (atomHeader large name rest.length).size -
          (atomHeader large name rest.length).headerSize))) =
        some (f.at (s.behind R p (n + k + rest.length) rest.length e)) := by
      have hcurrent : (s.behind R p (n + k) 0 e).currentPosition = ((p + (n + k) : Nat) : Int) := rfl
      have hstream : (f.at (s.behind R p (n + k) 0 e)).stream = s.behind R p (n + k) 0 e := rfl
      rw [hcurrent, hdest, Mp4ff.scan, hstream, hseek]
      rfl
    rw [parseAtoms_turn hheader (by rw [hsize]; omega) ((if_neg hnot).trans hread), Nat.add_assoc n, Mp4Root.asksNothing,
      Bool.or_false]
    rfl

/-- The roots one after the other; some turns of the loop are left. -/
theorem roots_parse {rs : List Mp4Root} {f : Mp4ff} (hfits : Mp4Fits rs f) {fuel k : Nat}
    (hfuel : (rs.flatMap Mp4Root.bytes).length + k < fuel) {s : Mp4Stream} {p n u : Nat} {e : Bool}
    (hw : Window R (p + n) (rs.flatMap Mp4Root.bytes)) :
    ∃ m, k < m ∧ mp4ffParseAtoms alloc R fuel (f.at (s.behind R p n u e)) =
      mp4ffParseAtoms alloc R m ((mp4Apply rs f).at (s.behind R p (n + (rs.flatMap Mp4Root.bytes).length)
        (rs.foldl (fun _ r => r.unread) u) (e || rs.any Mp4Root.asksNothing))) := by
  induction rs generalizing f fuel n u e with
  | nil => exact ⟨fuel, by omega, by rw [List.any_nil, Bool.or_false]; rfl⟩
  | cons r rs ih =>
    obtain ⟨hr, hrs⟩ := hfits
    have hpositive := List.length_pos_of_ne_nil (r.bytes_ne_nil)
    rw [List.flatMap_cons] at hw
    rw [List.flatMap_cons, List.length_append] at hfuel ⊢
    obtain ⟨fuel, rfl⟩ : ∃ k, fuel = k + 1 := ⟨fuel - 1, by omega⟩
    have hrest := hw.right
    rw [Nat.add_assoc] at hrest
    obtain ⟨m, hm, hrun⟩ := ih hrs (show (rs.flatMap Mp4Root.bytes).length + k < fuel by omega) (u := r.unread)
      (e := e || r.asksNothing) hrest
    refine ⟨m, hm, ?_⟩
    rw [root_parses hR halloc hr (by omega) hw.left, hrun, List.any_cons, Bool.or_assoc, Nat.add_assoc]
    rfl

/-! ## The end of the file -/

omit hR halloc in
theorem parseAtoms_stop {fuel : Nat} {f : Mp4ff} {s t : Mp4Stream} {h : AtomHeader}
    (hheader : mp4ffAtomReadHeader R {} s = some (h, t)) (hsize : h.size = 0) :
    mp4ffParseAtoms alloc R (fuel + 1) (f.at s) = some (f.at t) := by
  have hstream : mp4ffAtomReadHeader R {} (f.at s).stream = some (h, t) := hheader
  rw [mp4ffParseAtoms, hstream, Option.bind_eq_bind, Option.bind_some]
  exact if_pos hsize

omit hR halloc in
/-- Eight bytes, or what is left. -/
theorem readEight {s : Mp4Stream} (hlow : -9223372036854775808 ≤ s.currentPosition)
    (hhigh : s.currentPosition < 9223372036854775800) :
    mp4ffReadData R 8 s = some ((R.drop s.pos).take 8,
      ⟨s.pos + ((R.drop s.pos).take 8).length, s.currentPosition + 8, s.inputDone⟩) := by
  have hint : int64? (s.currentPosition + (8 : Nat)) = some (s.currentPosition + 8) := by
    rw [int64?, if_pos (by omega)]
    rfl
  have hfetch : fetch R s.pos 8 = (R.drop s.pos).take 8 := rfl
  have hzero : decide (8 = 0) = false := rfl
  have hsmall : ¬2147483648 ≤ 8 := by decide
  simp only [mp4ffReadData, if_neg hsmall, contentCall, hint, hfetch, hzero, Bool.or_false, Option.bind_eq_bind, Option.bind_some]

omit hR halloc in
/-- A size of 32 bits, read with a sign and widened. -/
theorem toU64_toI32_ne {n k : Nat} (h : n < 4294967296) (hk : k < 2147483648) (hne : n ≠ k) : toU64 (toI32 n) ≠ k := by
  unfold toU64 toI32
  omega

omit hR halloc in
theorem toI32_bounds (n : Int) : -2147483648 ≤ toI32 n ∧ toI32 n < 2147483648 := by
  unfold toI32
  omega

omit hR halloc in
/-- A widened size leads back where it was negative. -/
theorem wide_target {position n : Int} (hn : -2147483648 ≤ n) (hn2 : n < 2147483648)
    (hlow : -9223372036854775808 ≤ position + n) (hhigh : position + n < 9223372036854775808) :
    toI64 (position + 8 + toU64 n - (8 : Nat)) = position + n := by
  unfold toI64 toU64
  omega

omit hR halloc in
theorem header_short {s : Mp4Stream} (hlow : -9223372036854775808 ≤ s.currentPosition)
    (hhigh : s.currentPosition < 9223372036854775800) (hshort : (R.drop s.pos).length < 8) :
    ∃ t, mp4ffAtomReadHeader R {} s = some ({}, t) ∧ t.inputDone = s.inputDone := by
  have hlen : ((R.drop s.pos).take 8).length ≠ 8 := by
    rw [List.length_take]
    omega
  have hread := readEight (R := R) hlow hhigh
  refine ⟨⟨s.pos + ((R.drop s.pos).take 8).length, s.currentPosition + 8, s.inputDone⟩, ?_, rfl⟩
  calc mp4ffAtomReadHeader R {} s = (mp4ffReadData R 8 s).bind fun r =>
        (if r.1.length ≠ 8 then pure { ({} : AtomHeader) with size := 0 }
        else if toU64 (toI32 (ofBeBytes (r.1.take 4))) = 1 then do
          let size ← mp4ffReadInt64 R
          pure ⟨size, mp4ffAtomNameToType (r.1.drop 4), 16⟩
        else pure ⟨toU64 (toI32 (ofBeBytes (r.1.take 4))), mp4ffAtomNameToType (r.1.drop 4), 8⟩ :
          Mp4Scan AtomHeader) r.2 := rfl
    _ = _ := by
      rw [hread, Option.bind_some, if_pos hlen]
      rfl

omit hR halloc in
theorem header_small {s : Mp4Stream} (hlow : -9223372036854775808 ≤ s.currentPosition)
    (hhigh : s.currentPosition < 9223372036854775800) {size name tail : List Byte}
    (hdrop : R.drop s.pos = size ++ name ++ tail) (hsize : size.length = 4) (hname : name.length = 4) (hone : ofBeBytes size ≠ 1) :
    mp4ffAtomReadHeader R {} s = some (⟨toU64 (toI32 (ofBeBytes size)), mp4ffAtomNameToType name, 8⟩,
      ⟨s.pos + 8, s.currentPosition + 8, s.inputDone⟩) := by
  have height : (R.drop s.pos).take 8 = size ++ name := by
    rw [hdrop]
    exact List.take_left' (by rw [List.length_append, hsize, hname])
  have hlen : (size ++ name).length = 8 := by rw [List.length_append, hsize, hname]
  have htake : (size ++ name).take 4 = size := List.take_left' hsize
  have hskip : (size ++ name).drop 4 = name := List.drop_left' hsize
  have hread := readEight (R := R) hlow hhigh
  rw [height, hlen] at hread
  have hlt := ofBeBytes_lt size
  rw [hsize] at hlt
  have hnot := toU64_toI32_ne (by omega) (by omega) hone
  calc mp4ffAtomReadHeader R {} s = (mp4ffReadData R 8 s).bind fun r =>
        (if r.1.length ≠ 8 then pure { ({} : AtomHeader) with size := 0 }
        else if toU64 (toI32 (ofBeBytes (r.1.take 4))) = 1 then do
          let size ← mp4ffReadInt64 R
          pure ⟨size, mp4ffAtomNameToType (r.1.drop 4), 16⟩
        else pure ⟨toU64 (toI32 (ofBeBytes (r.1.take 4))), mp4ffAtomNameToType (r.1.drop 4), 8⟩ :
          Mp4Scan AtomHeader) r.2 := rfl
    _ = _ := by
      rw [hread, Option.bind_some, if_neg (fun hne => hne hlen), htake, hskip, if_neg hnot]
      rfl

omit hR halloc in
/-- What is left at the end of the file is skipped. -/
theorem skipped_ends {position : Int} {tail : List Byte} (h : Mp4Skipped R.length position tail) {f : Mp4ff} {fuel : Nat}
    (hfuel : tail.length < fuel) {s : Mp4Stream} (hdrop : R.drop s.pos = tail) (hcurrent : s.currentPosition = position)
    (hlow : -9223372036854775808 + 2147483648 * (tail.length : Int) ≤ position)
    (hhigh : position + 2147483648 * (tail.length : Int) < 9223372036854775800) :
    ∃ t, mp4ffParseAtoms alloc R fuel (f.at s) = some (f.at t) ∧ t.inputDone = s.inputDone := by
  induction h generalizing fuel s with
  | @short position tail hshort =>
    obtain ⟨fuel, rfl⟩ : ∃ k, fuel = k + 1 := ⟨fuel - 1, by omega⟩
    obtain ⟨t, hheader, hdone⟩ := header_short (R := R) (s := s) (by omega) (by omega) (by rw [hdrop]; exact hshort)
    exact ⟨t, parseAtoms_stop hheader rfl, hdone⟩
  | @zero position size name tail hsize hname hzero =>
    obtain ⟨fuel, rfl⟩ : ∃ k, fuel = k + 1 := ⟨fuel - 1, by omega⟩
    have hheader := header_small (R := R) (s := s) (by omega) (by omega) hdrop hsize hname (by omega)
    have hend : toU64 (toI32 ((0 : Nat) : Int)) = 0 := by decide
    rw [hzero, hend] at hheader
    exact ⟨_, parseAtoms_stop hheader rfl, rfl⟩
  | @skip position size name tail hsize hname hzero hone htype hseek hrest ih =>
    obtain ⟨fuel, rfl⟩ : ∃ k, fuel = k + 1 := ⟨fuel - 1, by omega⟩
    have hlength : (size ++ name ++ tail).length = 8 + tail.length := by
      rw [List.length_append, List.length_append, hsize, hname]
    rw [hlength] at hfuel hlow hhigh
    have hheader := header_small (R := R) (s := s) (by omega) (by omega) hdrop hsize hname hone
    have hlt := ofBeBytes_lt size
    rw [hsize] at hlt
    have hnot : ¬(mp4ffAtomNameToType name).subatomic = true := by
      rw [htype]
      exact Bool.false_ne_true
    have hpositive : toU64 (toI32 (ofBeBytes size)) ≠ 0 := toU64_toI32_ne (by omega) (by omega) hzero
    have hbound := toI32_bounds (ofBeBytes size)
    have hdest : toI64 (position + 8 + toU64 (toI32 (ofBeBytes size)) - (8 : Nat)) =
        position + toI32 (ofBeBytes size) := wide_target hbound.1 hbound.2 (by omega) (by omega)
    have hlow8 : -9223372036854775808 + 2147483648 * (tail.length : Int) ≤ position + toI32 (ofBeBytes size) := by omega
    have hhigh8 : position + toI32 (ofBeBytes size) + 2147483648 * (tail.length : Int) < 9223372036854775800 := by omega
    have hnext : R.drop (s.pos + 8) = tail := by
      rw [← List.drop_drop, hdrop]
      exact List.drop_left' (by rw [List.length_append, hsize, hname])
    generalize toU64 (toI32 (ofBeBytes size)) = n at hheader hpositive hdest
    generalize position + toI32 (ofBeBytes size) = dest at hdest hseek hlow8 hhigh8 ih
    have hread : (f.at ⟨s.pos + 8, s.currentPosition + 8, s.inputDone⟩).scan (mp4ffSetPosition R
        (toI64 (s.currentPosition + 8 + n - (8 : Nat)))) = some (f.at ⟨s.pos + 8, dest, s.inputDone⟩) := by
      rw [hcurrent, hdest]
      calc _ = some (f.at ⟨(contentCall R (s.pos + 8) (.seek (toI32 dest))).2, dest, s.inputDone⟩) := rfl
        _ = _ := by rw [contentCall, if_neg hseek]
    rw [parseAtoms_turn hheader hpositive ((if_neg hnot).trans hread)]
    exact ih (show tail.length < fuel by omega) hnext rfl hlow8 hhigh8

end

theorem Mp4Stream.behind_start (R : List Byte) : ({} : Mp4Stream).behind R 0 0 0 false = {} :=
  Mp4Stream.behind_zero ⟨rfl, rfl⟩

/-- **What mp4ff reads of a file is what the file says.** -/
theorem mp4ffOpenRead_reads {alloc : Mp4Alloc} (halloc : ∀ n, alloc n = true) {R : List Byte} {roots : List Mp4Root}
    (hfile : R = roots.flatMap Mp4Root.bytes) (hR : R.length < 2147483648) (hfits : Mp4Fits roots {})
    (hend : Mp4Skipped R.length R.length (R.drop (R.length - mp4Unread roots))) {fuel : Nat}
    (hfuel : 2 * R.length < fuel) :
    ∃ stream, mp4ffOpenRead alloc R fuel = some { mp4Apply roots {} with stream } ∧
      stream.inputDone = roots.any Mp4Root.asksNothing := by
  have hlength : (roots.flatMap Mp4Root.bytes).length = R.length := by rw [hfile]
  have hw : Window R (0 + 0) (roots.flatMap Mp4Root.bytes) := by
    rw [hfile]
    exact List.prefix_rfl
  have hturns : (roots.flatMap Mp4Root.bytes).length + R.length < fuel := by omega
  obtain ⟨k, hk, hrun⟩ := roots_parse hR halloc hfits hturns (s := {}) (u := 0) (e := false) hw
  rw [hlength, Nat.zero_add, Bool.false_or, Mp4Stream.behind_start] at hrun
  have hpos : (({} : Mp4Stream).behind R 0 R.length (mp4Unread roots) (roots.any Mp4Root.asksNothing)).pos =
      R.length - mp4Unread roots := by
    rw [Mp4Stream.behind, Nat.zero_add, if_neg (Nat.lt_irrefl _)]
  have htail : (R.drop (R.length - mp4Unread roots)).length ≤ R.length := by
    rw [List.length_drop]
    omega
  have hcurrent : (({} : Mp4Stream).behind R 0 R.length (mp4Unread roots)
      (roots.any Mp4Root.asksNothing)).currentPosition = (R.length : Int) := by
    rw [Mp4Stream.behind, Nat.zero_add]
  obtain ⟨t, hskipped, hdone⟩ : ∃ t, mp4ffParseAtoms alloc R k ((mp4Apply roots {}).at
      (({} : Mp4Stream).behind R 0 R.length (mp4Unread roots) (roots.any Mp4Root.asksNothing))) =
        some ((mp4Apply roots {}).at t) ∧ t.inputDone = (false || roots.any Mp4Root.asksNothing) :=
    skipped_ends hend (by omega) (congrArg R.drop hpos) hcurrent (by omega) (by omega)
  rw [Bool.false_or] at hdone
  exact ⟨t, hrun.trans hskipped, hdone⟩

/-- An AAC track: its configuration has two bytes. -/
def twoSamplesEsds : Mp4Esds where
  version := [0, 0, 0, 0]
  length := [22]
  id := [0, 0, 0]
  configDescr := [17]
  audioType := 64
  streamType := [21, 0, 0, 0]
  maxBitrate := 128000
  avgBitrate := 96000
  configLength := [2]
  config := [17, 144]

def twoSamplesDesc : Mp4SampleDesc :=
  .mp4a (List.replicate 16 0) 2 16 [0, 0, 0, 0] 44100 [0, 0] 36 twoSamplesEsds []

/-- A track of two samples, a title without a text, and the samples at the end of the file. -/
def twoSamplesFile : List Mp4Root :=
  [.skipped false (bytes "ftyp") (bytes "M4A "),
   .parent false (bytes "moov")
    (.parent false (bytes "trak")
      (.table (.stsd [twoSamplesDesc]) [0, 0, 0, 0] []
        (.table (.stszEach [2, 2]) [0, 0, 0, 0] []
          (.table (.stsc [⟨1, 2, 1⟩]) [0, 0, 0, 0] []
            (.table (.stco [252]) [0, 0, 0, 0] [] .nil))))
      (.parent false (bytes "udta")
        (.table (.metaAtom [.ilst [⟨[169, 110, 97, 109], [.data [0, 0, 0, 1] [0, 0, 0, 0] []]⟩]]) [0, 0, 0, 0] [] .nil)
        .nil)),
   .skipped false (bytes "mdat") (bytes "abcd")]

def twoSamplesTrack : Mp4ffTrack :=
  { type := .audio, channelCount := 2, sampleSize := 16, sampleRate := 44100, audioType := 64, maxBitrate := 128000,
    avgBitrate := 96000, decoderConfig := [17, 144], stsdEntryCount := 1, stszSampleCount := 2, stszTable := [2, 2],
    stscEntryCount := 1, stsc := [⟨1, 2, 1⟩], stcoEntryCount := 1, stcoChunkOffset := [252] }

theorem twoSamplesEsds_fits : twoSamplesEsds.Fits where
  version := rfl
  length := ⟨⟨by decide, by decide, by decide⟩, by decide⟩
  id := rfl
  configDescr := ⟨⟨by decide, by decide, by decide⟩, by decide⟩
  audioType := by decide
  streamType := rfl
  maxBitrate := by decide
  avgBitrate := by decide
  configLength := ⟨⟨by decide, by decide, by decide⟩, by decide⟩

theorem mp4ffOpenRead_reads_two :
    ∃ stream, mp4ffOpenRead (fun _ => true) (twoSamplesFile.flatMap Mp4Root.bytes) 1000 =
      some { stream, tracks := [twoSamplesTrack] } ∧ stream.inputDone = true := by
  have hdesc : ∀ d ∈ [twoSamplesDesc], d.Fits := by
    intro d hd
    rw [List.mem_singleton.1 hd]
    exact ⟨rfl, by decide, by decide, rfl, by decide, rfl, by decide, twoSamplesEsds_fits⟩
  have hstsz : ∀ x ∈ [(2 : Int), 2], isInt x := by decide
  have hstsc : ∀ e ∈ [StscEntry.mk 1 2 1], IsStscEntry e := by
    intro e he
    rw [List.mem_singleton.1 he]
    exact ⟨rfl, rfl, rfl⟩
  have hstco : ∀ x ∈ [(252 : Int)], isInt x := by decide
  have htag : (Mp4Tag.mk [169, 110, 97, 109] [.data [0, 0, 0, 1] [0, 0, 0, 0] []]).Fits := by
    refine ⟨rfl, ?_, by intro a ha; cases ha⟩
    intro a ha
    rw [List.mem_singleton.1 ha]
    exact ⟨rfl, rfl⟩
  have hmeta : ∀ a ∈ [Mp4MetaAtom.ilst [⟨[169, 110, 97, 109], [.data [0, 0, 0, 1] [0, 0, 0, 0] []]⟩]], a.Fits := by
    intro a ha
    rw [List.mem_singleton.1 ha]
    refine ⟨List.cons_ne_nil _ _, fun g hg => ?_⟩
    rw [List.mem_singleton.1 hg]
    exact htag
  have hftyp : (Mp4Root.skipped false (bytes "ftyp") (bytes "M4A ")).Fits {} := ⟨by decide, by decide⟩
  have hfits : Mp4Fits twoSamplesFile {} := by
    refine ⟨hftyp, ⟨⟨by decide, by decide⟩, ⟨by decide, by decide, fun _ => by decide⟩, ?_, ?_⟩,
      ⟨by decide, by decide⟩, trivial⟩
    · exact ⟨⟨rfl, ⟨by decide, hdesc⟩, by decide⟩, ⟨rfl, ⟨by decide, hstsz⟩, by decide⟩,
        ⟨rfl, ⟨by decide, hstsc⟩, by decide⟩, ⟨rfl, ⟨by decide, hstco⟩, by decide⟩, trivial⟩
    · exact ⟨⟨by decide, by decide, by decide⟩, ⟨⟨rfl, ⟨List.cons_ne_nil _ _, hmeta⟩, fun _ => rfl⟩, trivial⟩, trivial⟩
  have hlength : (twoSamplesFile.flatMap Mp4Root.bytes).length = 256 := by decide +kernel
  have htail : ((twoSamplesFile.flatMap Mp4Root.bytes).drop
      ((twoSamplesFile.flatMap Mp4Root.bytes).length - mp4Unread twoSamplesFile)).length < 8 := by decide +kernel
  exact mp4ffOpenRead_reads (fun _ => rfl) rfl (by omega) hfits (.short htail) (by omega)

end AudioPlayer
