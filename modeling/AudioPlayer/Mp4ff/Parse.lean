import Mathlib
import AudioPlayer.Mp4ff.Tags

/-!
# What is read of the atom of a table (`faad2-2.7/common/mp4ff/mp4atom.c:650-689`)

`Parses R bs u e m f g`: where `bs` stands, `m` makes of the tracks of `f` those of `g` and comes out behind `bs`, as in
`Passes`.
-/

namespace AudioPlayer
open Lib

def Mp4ff.at (s : Mp4Stream) (f : Mp4ff) : Mp4ff := { f with stream := s }

def Parses (R bs : List Byte) (u : Nat) (e : Bool) (m : Mp4ff → Option Mp4ff) (f g : Mp4ff) : Prop :=
  ∀ s p, mp4Scanner.At s p → p ≤ R.length → Window R p bs →
    m (f.at s) = some (g.at (s.behind R p bs.length u e))

section
variable {R bs : List Byte} {u : Nat} {e : Bool} {f : Mp4ff}

/-- What is read for a track goes into the newest. -/
theorem Parses.track {m : Mp4ffTrack → Mp4Scan Mp4ffTrack} {g : Mp4ffTrack → Mp4ffTrack} {t : Mp4ffTrack}
    (hlast : f.tracks.getLast? = some t) (hm : Passes R bs u e (m t) (g t)) :
    Parses R bs u e (fun f => f.readTrack m) f (.onTrack g f) := by
  intro s p hat hp hw
  calc (f.at s).readTrack m = f.tracks.getLast?.bind fun t => (m t s).bind fun r =>
        some { f with stream := r.2, tracks := f.tracks.dropLast ++ [r.1] } := rfl
    _ = some { f with stream := s.behind R p bs.length u e, tracks := f.tracks.dropLast ++ [g t] } := by
      rw [hlast, Option.bind_some, hm s p hat hp hw, Option.bind_some]
    _ = _ := by
      rw [Mp4ff.onTrack, hlast]
      rfl

theorem Parses.scan {m : Mp4Scan Unit} (hm : Passes R bs u e m ()) : Parses R bs u e (fun f => f.scan m) f f := by
  intro s p hat hp hw
  calc (f.at s).scan m = (m s).bind fun r => some { f with stream := r.2 } := rfl
    _ = _ := by
      rw [hm s p hat hp hw, Option.bind_some]
      rfl

end

theorem be32_ne_nil (x : Int) : be32 x ≠ [] := by simp [be32, beBytes]

theorem exists_last {f : Mp4ff} (h : f.tracks ≠ []) : ∃ t, f.tracks.getLast? = some t :=
  Option.isSome_iff_exists.1 (List.getLast?_isSome.2 h)

section
variable {R : List Byte} (hR : R.length < 2147483648) {alloc : Mp4Alloc} (halloc : ∀ n, alloc n = true)
include hR halloc

/-- What is read of a table behind the header of its atom. -/
theorem table_parses {x : Mp4Table} {version : List Byte} {f : Mp4ff} (hversion : version.length = 4)
    (hfits : x.Fits version f) {size : Int} {fuel : Nat}
    (hsize : x.whole = true → size = ((8 + (version ++ x.body).length : Nat) : Int))
    (hroom : 8 + (Mp4Atoms.versionOf x version ++ x.body).length < 2147483648) (hfuel : x.body.length < fuel) :
    Parses R (Mp4Atoms.versionOf x version ++ x.body) x.unread x.asksNothing
      (mp4ffReadAtomData alloc R fuel size (mp4ffAtomNameToType x.name)) f (x.apply f) := by
  rw [List.length_append] at hroom
  cases x with
  | stszOne sampleSize count =>
    obtain ⟨hne, hsampleSize, hcount, hnot⟩ := hfits
    obtain ⟨t, hlast⟩ := exists_last hne
    exact Parses.track hlast (.ofReads (stszOne_reads hR hversion hsampleSize hcount hnot t))
  | stszEach sizes =>
    obtain ⟨hne, hsizes⟩ := hfits
    obtain ⟨t, hlast⟩ := exists_last hne
    have hlen := length_le_flatMap be32_ne_nil sizes
    simp only [Mp4Table.body, List.length_append] at hroom
    exact Parses.track hlast (.ofReads (stszEach_reads hR halloc hversion (by omega) hsizes t))
  | stts entries =>
    obtain ⟨⟨t, hlast, hnew⟩, hentries⟩ := hfits
    have hlen := length_le_flatMap (f := pairBytes)
      (fun e => List.append_ne_nil_of_left_ne_nil (be32_ne_nil _) _) entries
    simp only [Mp4Table.body, List.length_append] at hroom
    exact Parses.track hlast (.ofReads (stts_reads hR halloc hversion (by omega) hentries hnew))
  | ctts entries =>
    obtain ⟨⟨t, hlast, hnew⟩, hentries⟩ := hfits
    have hlen := length_le_flatMap (f := pairBytes)
      (fun e => List.append_ne_nil_of_left_ne_nil (be32_ne_nil _) _) entries
    simp only [Mp4Table.body, List.length_append] at hroom
    exact Parses.track hlast (.ofReads (ctts_reads hR halloc hversion (by omega) hentries hnew))
  | stsc entries =>
    obtain ⟨hne, hentries⟩ := hfits
    obtain ⟨t, hlast⟩ := exists_last hne
    have hlen := length_le_flatMap (f := stscBytes)
      (fun e => List.append_ne_nil_of_left_ne_nil (be32_ne_nil _) _) entries
    simp only [Mp4Table.body, List.length_append] at hroom
    exact Parses.track hlast (.ofReads (stsc_reads hR halloc hversion (by omega) hentries t))
  | stco offsets =>
    obtain ⟨hne, hoffsets⟩ := hfits
    obtain ⟨t, hlast⟩ := exists_last hne
    have hlen := length_le_flatMap be32_ne_nil offsets
    simp only [Mp4Table.body, List.length_append] at hroom
    exact Parses.track hlast (.ofReads (stco_reads hR halloc hversion (by omega) hoffsets t))
  | stsd entries =>
    obtain ⟨hne, hentries⟩ := hfits
    obtain ⟨t, hlast⟩ := exists_last hne
    have hlen := length_le_flatMap (f := Mp4SampleDesc.bytes) (fun d => atomBytes_ne_nil _ _ _) entries
    simp only [Mp4Table.body, List.length_append] at hroom
    exact Parses.track hlast (stsd_passes hR halloc hversion (by omega) hentries t)
  | mvhd times timeScale duration more =>
    obtain ⟨htimes, hscale, hduration, hmore⟩ := hfits
    have hread := Passes.ofReads (mvhd_reads hR hversion htimes hscale hduration hmore)
    intro s p hat hp hw
    calc _ = (mp4ffReadMvhd R s).bind fun r => some ({ f with stream := r.2, timeScale := r.1.1, duration := r.1.2 } :
          Mp4ff) := rfl
      _ = some { f with stream := s.behind R p _ 0 false, timeScale := timeScale, duration := duration } := by
        rw [hread s p hat hp hw, Option.bind_some]
        rfl
  | mdhd times timeScale duration more =>
    obtain ⟨hne, hnot, htimes, hscale, hduration, hmore⟩ := hfits
    obtain ⟨t, hlast⟩ := exists_last hne
    exact Parses.track hlast (.ofReads (mdhd_reads hR hversion hnot htimes hscale hduration hmore t))
  | mdhdLarge times timeScale duration more =>
    obtain ⟨hne, hlarge, htimes, hscale, hduration, hmore⟩ := hfits
    obtain ⟨t, hlast⟩ := exists_last hne
    exact Parses.track hlast (.ofReads (mdhdLarge_reads hR hversion hlarge htimes hscale hduration hmore t))
  | metaAtom atoms =>
    obtain ⟨hne, hatoms⟩ := hfits
    have hlength : size = ((8 + (version ++ atoms.flatMap Mp4MetaAtom.bytes).length : Nat) : Int) := hsize rfl
    have hroom : 8 + (version.length + (atoms.flatMap Mp4MetaAtom.bytes).length) < 2147483648 := hroom
    have hwhole : toU64 size = 8 + (version ++ atoms.flatMap Mp4MetaAtom.bytes).length := by
      rw [hlength]
      exact toU64_eq (by rw [List.length_append]; exact Nat.lt_trans hroom (by omega))
    rw [List.length_append, hversion] at hwhole
    rw [hversion] at hroom
    have hcount : (atoms.flatMap Mp4MetaAtom.bytes).length + 12 = toU64 size := by omega
    have hturns : (atoms.flatMap Mp4MetaAtom.bytes).length < fuel := hfuel
    exact Parses.scan (meta_passes hR halloc hne hatoms hversion hturns hcount (by omega))
  | other name =>
    obtain ⟨-, -, hnot⟩ := hfits
    intro s p hat hp hw
    have hnone : mp4ffReadAtomData alloc R fuel size (mp4ffAtomNameToType name) (f.at s) = some (f.at s) := by
      simp only [Mp4Table.readTypes, List.mem_cons, not_or] at hnot
      unfold mp4ffReadAtomData
      split <;> simp_all
    exact hnone.trans (congrArg (fun s => some (f.at s)) (Mp4Stream.behind_zero hat).symm)

omit hR halloc in
/-- A table has a name of four characters, and its atom has no atoms in it. -/
theorem Mp4Table.Fits.name {x : Mp4Table} {version : List Byte} {f : Mp4ff} (h : x.Fits version f) :
    x.name.length = 4 ∧ (mp4ffAtomNameToType x.name).subatomic = false := by
  cases x with
  | other name => exact ⟨h.1, h.2.1⟩
  | _ =>
    rw [Mp4Table.name]
    decide

omit hR halloc in
theorem Mp4Atoms.versionOf_whole {x : Mp4Table} {version : List Byte} (h : x.whole = true) :
    Mp4Atoms.versionOf x version = version := by
  cases x <;> first | rfl | exact absurd h Bool.false_ne_true

omit hR halloc in
theorem atomRead_eq {fuel : Nat} {size dest : Int} {type : AtomType} {f g : Mp4ff} {t : Mp4Stream}
    (hdata : mp4ffReadAtomData alloc R fuel size type f = some g)
    (hdest : toI64 (f.stream.currentPosition + size - 8) = dest)
    (hseek : mp4ffSetPosition R dest g.stream = some ((), t)) :
    mp4ffAtomRead alloc R fuel size type f = some (g.at t) := by
  rw [mp4ffAtomRead, hdest, hdata, Option.bind_eq_bind, Option.bind_some, Mp4ff.scan, hseek]
  rfl

omit hR halloc in
theorem toI32_natCast {n : Nat} (h : n < 2147483648) : toI32 (n : Int) = n := toI32_eq (by omega) (by omega)

omit hR halloc in
/-- The size of an atom leads behind it, from behind its header. -/
theorem seek_target {p n : Nat} (h : p + (8 + n) < 2147483648) :
    toI64 (((p + 8 : Nat) : Int) + toI32 ((8 + n : Nat) : Int) - 8) = ((p + (8 + n) : Nat) : Int) := by
  rw [toI32_natCast (by omega), toI64_eq (by omega) (by omega)]
  omega

/-- The atom of a table behind its header. -/
theorem atomRead_parses {x : Mp4Table} {version rest bs : List Byte} {f : Mp4ff}
    (hbs : bs = (Mp4Atoms.versionOf x version ++ x.body) ++ rest) (hversion : version.length = 4)
    (hfits : x.Fits version f) (hwhole : x.whole = true → rest = []) {fuel : Nat} (hfuel : bs.length < fuel)
    {s : Mp4Stream} {p : Nat} (hat : mp4Scanner.At s p) (hp : p ≤ R.length)
    (hw : Window R p (atomBytes false x.name bs)) :
    mp4ffAtomRead alloc R fuel (toI32 ((8 + bs.length : Nat) : Int)) (mp4ffAtomNameToType x.name)
        (f.at (s.behind R p 8 0 false)) =
      some ((x.apply f).at
        (s.behind R p (8 + bs.length) (if rest = [] then x.unread else rest.length) x.asksNothing)) := by
  subst hbs
  have hparts := atom_parts hR false hfits.name.1 hat hp hw
  have hlength := atomBytes_length false hfits.name.1 ((Mp4Atoms.versionOf x version ++ x.body) ++ rest)
  rw [if_neg Bool.false_ne_true] at hlength
  have hroom := hparts.room
  have hsplit : ((Mp4Atoms.versionOf x version ++ x.body) ++ rest).length =
      (Mp4Atoms.versionOf x version ++ x.body).length + rest.length := List.length_append
  have hbody : (Mp4Atoms.versionOf x version ++ x.body).length =
      (Mp4Atoms.versionOf x version).length + x.body.length := List.length_append
  have hsmall : 8 + (Mp4Atoms.versionOf x version ++ x.body).length < 2147483648 := by omega
  have hturns : x.body.length < fuel := by omega
  have hin : p + 8 ≤ R.length := by omega
  have hsum : p + (8 + ((Mp4Atoms.versionOf x version ++ x.body) ++ rest).length) < 2147483648 := by omega
  have hsize := toI32_natCast (Nat.lt_of_le_of_lt (Nat.le_add_left _ p) hsum)
  have hcurrent : (f.at (s.behind R p 8 0 false)).stream.currentPosition = ((p + 8 : Nat) : Int) := rfl
  have hdest := seek_target hsum
  rw [← hcurrent] at hdest
  have hall : x.whole = true → toI32 ((8 + ((Mp4Atoms.versionOf x version ++ x.body) ++ rest).length : Nat) : Int) =
      ((8 + (version ++ x.body).length : Nat) : Int) := by
    intro hx
    rw [hsize, hwhole hx, List.append_nil, Mp4Atoms.versionOf_whole hx]
  have hat8 : mp4Scanner.At (s.behind R p 8 0 false) (p + 8) := hparts.at_body
  have hw8 : Window R (p + 8) (Mp4Atoms.versionOf x version ++ x.body) := hparts.window
  have htable := table_parses hR halloc hversion hfits hall hsmall hturns _ _ hat8 hin hw8
  rw [Mp4Stream.behind_behind, Bool.false_or] at htable
  have hseek : mp4ffSetPosition R ((p + (atomBytes false x.name ((Mp4Atoms.versionOf x version ++ x.body) ++ rest)).length
      : Nat) : Int) (s.behind R p (8 + (Mp4Atoms.versionOf x version ++ x.body).length) x.unread x.asksNothing) = _ :=
    hparts.seek x.unread x.asksNothing
  rw [hlength] at hseek
  have hread := atomRead_eq htable hdest hseek
  exact hread

end

end AudioPlayer
