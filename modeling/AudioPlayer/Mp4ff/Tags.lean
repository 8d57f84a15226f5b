import Mathlib
import AudioPlayer.Mp4ff.Tables

/-!
# What is read of the tags (`faad2-2.7/common/mp4ff/mp4meta.c:221-343`, `mp4atom.c:623-647`)

Three loops inside each other: the atoms of `meta`, the tags of `ilst`, the atoms of a tag. Each counts the sizes of what
it has read, and ends where they come to the size of the whole.
-/

namespace AudioPlayer
open Lib

section
variable {R : List Byte} (hR : R.length < 2147483648)
include hR

/-- The header of an atom, and what is read from there on. -/
theorem Passes.atom {α : Type} {large : Bool} {name payload bs : List Byte} (hname : name.length = 4) {h : AtomHeader}
    {u : Nat} {e : Bool} {k : AtomHeader → Mp4Scan α} {x : α}
    (hk : Passes R (payload ++ bs) u e (k (atomHeader large name payload.length)) x) :
    Passes R (atomBytes large name payload ++ bs) u e (mp4ffAtomReadHeader R h >>= k) x := by
  intro s p hat hp hw
  have hlen := hw.left.length_le
  rw [atomBytes_length large hname] at hlen
  have hn : 8 + payload.length < 2147483648 := by
    split at hlen <;> omega
  have hheader := header_reads hR large hname hn h
  rw [atomBytes_eq, List.append_assoc] at hw ⊢
  exact Passes.after hheader hk s p hat hp hw

/-- An atom of which something is read, and the seek to its end. -/
theorem Passes.seek {α β : Type} {large : Bool} {name body rest : List Byte} (hname : name.length = 4) {h : AtomHeader}
    {u : Nat} {e : Bool} {m : AtomHeader → Mp4Scan α} {k : AtomHeader → α → β} {x : α}
    (hm : Passes R body u e (m (atomHeader large name (body ++ rest).length)) x) :
    Passes R (atomBytes large name (body ++ rest)) (if rest = [] then u else rest.length) e
      (do
        let h ← mp4ffAtomReadHeader R h
        let position ← mp4ffPosition
        let x ← m h
        mp4ffSetPosition R (toI64 (position + h.size - h.headerSize))
        pure (k h x))
      (k (atomHeader large name (body ++ rest).length) x) := by
  intro s p hat hp hw
  have hparts := atom_parts hR large hname hat hp hw
  have hroom := hparts.room
  have hcurrent := hparts.at_body.2
  have hlength := atomBytes_length large hname (body ++ rest)
  have hsize : toI64 (((p + if large then 16 else 8 : Nat) : Int) + (atomHeader large name (body ++ rest).length).size -
      (atomHeader large name (body ++ rest).length).headerSize) =
      ((p + (atomBytes large name (body ++ rest)).length : Nat) : Int) := by
    have hcontent : ((atomHeader large name (body ++ rest).length).size : Int) -
        (atomHeader large name (body ++ rest).length).headerSize = (body ++ rest).length := by
      cases large <;> simp [atomHeader]
    rw [toI64_eq (by omega) (by omega)]
    omega
  calc _ = (mp4ffAtomReadHeader R h s).bind fun h => (m h.1 h.2).bind fun x =>
        (mp4ffSetPosition R (toI64 (h.2.currentPosition + h.1.size - h.1.headerSize)) x.2).bind fun u =>
          some (k h.1 x.1, u.2) := rfl
    _ = _ := by
      rw [hparts.header, Option.bind_some]
      dsimp only
      rw [hparts.read hm, Option.bind_some, hcurrent, hsize]
      dsimp only
      rw [hparts.seek, Option.bind_some]

/-! ## A tag -/

variable {alloc : Mp4Alloc} (halloc : ∀ n, alloc n = true)
include halloc

theorem string_passes {value : List Byte} (hsmall : value.length < 2147483648) :
    Passes R value 0 value.isEmpty (mp4ffReadString alloc R value.length) () := by
  unfold mp4ffReadString
  rw [if_pos (halloc _)]
  exact (data_passes hR hsmall).last rfl

omit hR halloc in
/-- The length of a text, which the code computes without a sign. -/
theorem text_length {n : Nat} (h : n < 2147483648) (k : Nat) : (toU32 ((k + n : Nat) - (k : Nat))).toNat = n := by
  rw [toU32]
  omega

theorem tagData_passes (parent : AtomType) {version reserved value : List Byte} (hversion : version.length = 4)
    (hreserved : reserved.length = 4) (hsmall : value.length < 2147483632) :
    Passes R ((Mp4TagAtom.data version reserved value).body parent) 0
      ((Mp4TagAtom.data version reserved value).asksNothing parent)
      (mp4ffReadTagData alloc R parent ⟨16 + value.length, .data, 8⟩)
      ((Mp4TagAtom.data version reserved value).ends parent) := by
  have hreservedReads := raw_reads hR _ _ hreserved (by omega)
  have hroom : toU64 (((16 + value.length : Nat) : Int) - (8 : Nat)) = 8 + value.length := by
    rw [toU64]
    omega
  refine .after (version_reads hR hversion) (.after hreservedReads ?_)
  simp only [Mp4TagAtom.taken, Mp4TagAtom.asksNothing, Mp4TagAtom.ends, Mp4TagAtom.numbers, hroom]
  by_cases hgenre : parent = .genre2 ∨ parent = .tempo
  · simp only [if_pos hgenre]
    by_cases hlong : 2 ≤ value.length
    · have hnumber := raw_reads hR (value.take 2) 2 (by rw [List.length_take]; omega) (by omega)
      rw [if_pos hlong, if_pos (by omega), decide_eq_true hlong]
      exact .ofReads (hnumber.last (.pure _ R true))
    · rw [if_neg hlong, if_neg (by omega), decide_eq_false hlong]
      exact .ofReads (.pure _ R false)
  · simp only [if_neg hgenre]
    by_cases htrack : parent = .track ∨ parent = .disc
    · simp only [if_pos htrack]
      by_cases hlong : 6 ≤ value.length
      · obtain ⟨xs, hnumbers⟩ := times_reads hR 2 (by omega) 3 (value.take 6)
          (by rw [List.length_take]; omega)
        rw [if_pos hlong, if_pos (by omega), decide_eq_true hlong]
        exact .ofReads (hnumbers.last (.pure _ R true))
      · rw [if_neg hlong, if_neg (by omega), decide_eq_false hlong]
        exact .ofReads (.pure _ R false)
    · have htext : (toU32 (((16 + value.length : Nat) : Int) - ((8 : Nat) + 8))).toNat = value.length :=
        text_length (by omega) 16
      simp only [if_neg htrack, htext, List.take_length]
      exact (string_passes hR halloc (by omega)).last rfl

/-- What is read of an atom of a tag behind its header. -/
theorem tagAtom_passes {a : Mp4TagAtom} (h : a.Fits) (parent : AtomType)
    (hsmall : (a.body parent ++ a.rest parent).length < 2147483632) :
    Passes R (a.body parent) 0 (a.asksNothing parent)
      (mp4ffReadTagAtom alloc R parent (atomHeader false a.label (a.body parent ++ a.rest parent).length))
      (a.ends parent) := by
  cases a with
  | data version reserved value =>
    have hdata : mp4ffAtomNameToType (bytes "data") = .data := by decide
    have hlength : ((Mp4TagAtom.data version reserved value).body parent ++
        (Mp4TagAtom.data version reserved value).rest parent).length = 8 + value.length := by
      rw [Mp4TagAtom.body, Mp4TagAtom.rest, List.append_assoc, List.append_assoc, List.take_append_drop,
        List.length_append, List.length_append, h.1, h.2]
      omega
    rw [hlength] at hsmall ⊢
    have hall := tagData_passes hR halloc parent h.1 h.2 (show value.length < 2147483632 by omega)
    have hheader : atomHeader false (bytes "data") (8 + value.length) = ⟨16 + value.length, .data, 8⟩ := by
      rw [atomHeader, if_neg (by decide), hdata, ← Nat.add_assoc]
    rw [Mp4TagAtom.label, hheader]
    exact hall
  | name version value =>
    have hname : mp4ffAtomNameToType (bytes "name") = .name := by decide
    have hlength : ((Mp4TagAtom.name version value).body parent ++ (Mp4TagAtom.name version value).rest parent).length =
        4 + value.length := by
      rw [Mp4TagAtom.body, Mp4TagAtom.rest, List.append_nil, List.length_append, h]
    rw [hlength] at hsmall ⊢
    have hheader : atomHeader false (bytes "name") (4 + value.length) = ⟨12 + value.length, .name, 8⟩ := by
      rw [atomHeader, if_neg (by decide), hname, ← Nat.add_assoc]
    have htext : (toU32 (((12 + value.length : Nat) : Int) - ((8 : Nat) + 4))).toNat = value.length :=
      text_length (by omega) 12
    rw [Mp4TagAtom.label, hheader]
    refine .after (version_reads hR h) ?_
    rw [htext]
    exact (string_passes hR halloc (by omega)).last rfl
  | other label rest =>
    have hskip : mp4ffReadTagAtom alloc R parent (atomHeader false label ([] ++ rest).length) = pure false := by
      have hdata := h.2.1
      have hname := h.2.2
      rw [atomHeader, if_neg (by decide)]
      unfold mp4ffReadTagAtom
      split <;> simp_all
    rw [Mp4TagAtom.body, Mp4TagAtom.rest, Mp4TagAtom.label, hskip]
    exact .ofReads (.pure _ R false)

omit hR halloc in
/-- A turn of the loop that is not done is an atom and the next turn. -/
theorem tagLoop_turn {parent : AtomType} {size fuel sumsize : Nat} (h : AtomHeader) (hlt : sumsize < size) :
    mp4ffTagLoop alloc R parent size (fuel + 1) h sumsize false =
      (do
        let h ← mp4ffAtomReadHeader R h
        let position ← mp4ffPosition
        let done ← mp4ffReadTagAtom alloc R parent h
        mp4ffSetPosition R (toI64 (position + h.size - h.headerSize))
        pure (h, done) : Mp4Scan (AtomHeader × Bool)) >>= fun r =>
      mp4ffTagLoop alloc R parent size fuel r.1 ((sumsize + r.1.size) % 18446744073709551616) r.2 := by
  rw [mp4ffTagLoop, if_pos hlt]
  simp only [Bool.false_eq_true, if_false, bind_assoc, pure_bind]

omit hR halloc in
theorem tagLoop_end {parent : AtomType} {size fuel : Nat} (h : AtomHeader) (done : Bool) :
    mp4ffTagLoop alloc R parent size (fuel + 1) h size done = pure () := by
  rw [mp4ffTagLoop, if_neg (Nat.lt_irrefl size)]

theorem tagLoop_passes {parent : AtomType} {size fuel sumsize : Nat} {as : List Mp4TagAtom} (h : AtomHeader)
    (hfits : ∀ a ∈ as, a.Fits) (hends : ∀ a ∈ as.dropLast, a.ends parent = false) (hfuel : as.length < fuel)
    (hsum : sumsize + (as.flatMap Mp4TagAtom.bytes).length = size) (hsize : size < 2147483632) :
    Passes R (as.flatMap Mp4TagAtom.bytes) ((as.getLast?.map fun a => (a.rest parent).length).getD 0)
      (as.any fun a => a.asksNothing parent) (mp4ffTagLoop alloc R parent size fuel h sumsize false) () := by
  induction as generalizing fuel sumsize h with
  | nil =>
    obtain ⟨fuel, rfl⟩ : ∃ k, fuel = k + 1 := ⟨fuel - 1, by simp only [List.length_nil] at hfuel; omega⟩
    obtain rfl : sumsize = size := by simpa using hsum
    rw [tagLoop_end]
    exact .ofReads (.pure _ R ())
  | cons a as ih =>
    obtain ⟨fuel, rfl⟩ : ∃ k, fuel = k + 1 := ⟨fuel - 1, by simp only [List.length_cons] at hfuel; omega⟩
    have hfit := hfits a List.mem_cons_self
    have hbytes := a.bytes_eq parent
    have hlength : a.bytes.length = 8 + (a.body parent ++ a.rest parent).length := by
      rw [hbytes]
      exact atomBytes_length false hfit.label_length _
    rw [List.flatMap_cons, List.length_append] at hsum
    have hrest : (if a.rest parent = [] then 0 else (a.rest parent).length) = (a.rest parent).length := by
      split <;> simp_all
    have hturn := Passes.seek hR hfit.label_length (h := h) (k := fun h done => (h, done))
      (tagAtom_passes hR halloc hfit parent (by omega))
    rw [← hbytes, hrest] at hturn
    have hheader : (atomHeader false a.label (a.body parent ++ a.rest parent).length).size = a.bytes.length :=
      hlength.symm
    have hnext : (sumsize + (atomHeader false a.label (a.body parent ++ a.rest parent).length).size) %
        18446744073709551616 = sumsize + a.bytes.length := by
      rw [hheader]
      exact Nat.mod_eq_of_lt (by omega)
    rw [tagLoop_turn h (by omega)]
    cases as with
    | nil =>
      obtain ⟨fuel, rfl⟩ : ∃ k, fuel = k + 1 := ⟨fuel - 1, by simp only [List.length_cons, List.length_nil] at hfuel; omega⟩
      refine (hturn.last ?_).congr (List.append_nil _).symm rfl (Bool.or_false _).symm
      dsimp only
      rw [hnext, show sumsize + a.bytes.length = size by simpa using hsum]
      exact tagLoop_end _ _
    | cons b bs =>
      have hnot : a.ends parent = false := hends a (by simp)
      rw [hnot] at hturn
      have hfuelRest : (b :: bs).length < fuel := by
        simp only [List.length_cons] at hfuel ⊢
        omega
      have hsumRest : sumsize + a.bytes.length + ((b :: bs).flatMap Mp4TagAtom.bytes).length = size := by
        rw [Nat.add_assoc]
        exact hsum
      have hloop := ih (atomHeader false a.label (a.body parent ++ a.rest parent).length)
        (fun x hx => hfits x (List.mem_cons_of_mem a hx))
        (fun x hx => hends x (by rw [List.dropLast_cons_cons]; exact List.mem_cons_of_mem a hx)) hfuelRest hsumRest
      rw [← hnext] at hloop
      refine (hturn.bind ?_ hloop).congr rfl (by rw [List.getLast?_cons_cons]) rfl
      exact List.append_ne_nil_of_left_ne_nil (by rw [b.bytes_eq parent]; exact atomBytes_ne_nil _ _ _) _

omit hR halloc in
theorem length_le_flatMap {α β : Type} {f : α → List β} (hne : ∀ x, f x ≠ []) (xs : List α) :
    xs.length ≤ (xs.flatMap f).length := by
  induction xs with
  | nil => exact Nat.le_refl 0
  | cons x xs ih =>
    have hpositive := List.length_pos_of_ne_nil (hne x)
    rw [List.flatMap_cons, List.length_append, List.length_cons]
    omega

omit hR halloc in
theorem Mp4TagAtom.bytes_ne_nil (a : Mp4TagAtom) : a.bytes ≠ [] := by
  rw [a.bytes_eq .title]
  exact atomBytes_ne_nil _ _ _

/-- A tag behind its header. -/
theorem tag_passes {g : Mp4Tag} (hg : g.Fits) {fuel : Nat} (hfuel : g.bytes.length ≤ fuel)
    (hsmall : g.bytes.length < 2147483632) :
    Passes R g.payload g.unread g.asksNothing
      (mp4ffTagLoop alloc R g.type (toU64 (toI32 (((8 + g.payload.length : Nat) : Int) - (8 : Nat)))) fuel {} 0 false)
      () := by
  have hlength : g.bytes.length = 8 + g.payload.length := atomBytes_length false hg.name _
  have hatoms : g.atoms.length ≤ g.payload.length := length_le_flatMap Mp4TagAtom.bytes_ne_nil g.atoms
  have hsize : toU64 (toI32 (((8 + g.payload.length : Nat) : Int) - (8 : Nat))) = g.payload.length := by
    rw [toI32_eq (by omega) (by omega), toU64]
    omega
  rw [hsize]
  exact tagLoop_passes hR halloc {} hg.atoms hg.ends (by omega) (Nat.zero_add _) (by omega)

/-! ## The tags of a file -/

omit hR halloc in
theorem Mp4Tag.bytes_ne_nil (g : Mp4Tag) : g.bytes ≠ [] := atomBytes_ne_nil _ _ _

/-- The loop stops four bytes early, which is less than a tag. -/
theorem metadataLoop_passes {gs : List Mp4Tag} (hfits : ∀ g ∈ gs, g.Fits) {size fuel sumsize : Nat} (h : AtomHeader)
    (hfuel : (gs.flatMap Mp4Tag.bytes).length < fuel) (hsum : sumsize + (gs.flatMap Mp4Tag.bytes).length = size + 4)
    (hsize : size < 2147483628) :
    Passes R (gs.flatMap Mp4Tag.bytes) ((gs.getLast?.map Mp4Tag.unread).getD 0) (gs.any Mp4Tag.asksNothing)
      (mp4ffMetadataLoop alloc R size fuel h sumsize) () := by
  induction gs generalizing fuel sumsize h with
  | nil =>
    obtain ⟨fuel, rfl⟩ : ∃ k, fuel = k + 1 := ⟨fuel - 1, by omega⟩
    rw [List.flatMap_nil, List.length_nil] at hsum
    rw [mp4ffMetadataLoop, if_neg (by omega)]
    exact .ofReads (.pure _ R ())
  | cons g gs ih =>
    obtain ⟨fuel, rfl⟩ : ∃ k, fuel = k + 1 := ⟨fuel - 1, by omega⟩
    have hg := hfits g List.mem_cons_self
    have hlength : g.bytes.length = 8 + g.payload.length := atomBytes_length false hg.name _
    rw [List.flatMap_cons, List.length_append] at hsum hfuel
    have htag := tag_passes hR halloc hg (show g.bytes.length ≤ fuel by omega) (by omega)
    have hnext : (sumsize + (8 + g.payload.length)) % 18446744073709551616 = sumsize + g.bytes.length := by
      rw [← hlength]
      exact Nat.mod_eq_of_lt (by omega)
    have hfuelRest : (gs.flatMap Mp4Tag.bytes).length < fuel := by omega
    have hsumRest : sumsize + g.bytes.length + (gs.flatMap Mp4Tag.bytes).length = size + 4 := by omega
    have hloop := ih (fun x hx => hfits x (List.mem_cons_of_mem g hx)) (atomHeader false g.name g.payload.length)
      hfuelRest hsumRest
    have hnonempty : (atomHeader false g.name g.payload.length).size ≠ 0 := by simp [atomHeader]
    have htagLoop : Passes R (g.payload ++ gs.flatMap Mp4Tag.bytes) (((g :: gs).getLast?.map Mp4Tag.unread).getD 0)
        ((g :: gs).any Mp4Tag.asksNothing)
        (mp4ffTagLoop alloc R g.type (toU64 (toI32 (((8 + g.payload.length : Nat) : Int) - (8 : Nat)))) fuel {} 0 false
          >>= fun _ => mp4ffMetadataLoop alloc R size fuel (atomHeader false g.name g.payload.length)
            ((sumsize + (8 + g.payload.length)) % 18446744073709551616)) () := by
      rw [hnext]
      cases gs with
      | nil =>
        refine (htag.last ?_).congr (List.append_nil _).symm rfl (Bool.or_false _).symm
        obtain ⟨fuel, rfl⟩ : ∃ k, fuel = k + 1 := ⟨fuel - 1, by omega⟩
        rw [List.flatMap_nil, List.length_nil] at hsum
        rw [mp4ffMetadataLoop, if_neg (by omega)]
      | cons k ks =>
        refine (htag.bind ?_ hloop).congr rfl (by rw [List.getLast?_cons_cons]) rfl
        exact List.append_ne_nil_of_left_ne_nil k.bytes_ne_nil _
    rw [mp4ffMetadataLoop, if_pos (by omega), List.flatMap_cons]
    refine Passes.atom hR hg.name ?_
    rw [if_neg hnonempty]
    exact htagLoop

omit halloc in
/-- An atom that is skipped. -/
theorem skip_passes {rest : List Byte} {size headerSize : Nat} (hsize : size = headerSize + rest.length) :
    Passes R rest rest.length false (do
      let position ← mp4ffPosition
      mp4ffSetPosition R (toI64 (position + size - headerSize))) () := by
  intro s p hat hp hw
  have hlen := hw.length_le
  have hseek := mp4ffSetPosition_behind hR (s := s) (p := p) (n := 0) (u := 0) (e := false) (r := rest.length) (by omega)
  rw [Mp4Stream.behind_zero hat, Nat.add_zero, Nat.zero_add] at hseek
  have hrest : (if rest.length = 0 then 0 else rest.length) = rest.length := by
    split <;> simp_all
  have htarget : toI64 (s.currentPosition + size - headerSize) = ((p + rest.length : Nat) : Int) := by
    rw [hat.2, toI64_eq (by omega) (by omega)]
    omega
  calc _ = mp4ffSetPosition R (toI64 (s.currentPosition + size - headerSize)) s := rfl
    _ = _ := by rw [htarget, hseek, hrest]

omit hR halloc in
theorem Mp4MetaAtom.Fits.room {a : Mp4MetaAtom} (h : a.Fits) : 4 < a.payload.length := by
  cases a with
  | ilst tags =>
    obtain ⟨g, gs, rfl⟩ := List.exists_cons_of_ne_nil h.1
    have hg : g.bytes.length = 8 + g.payload.length := atomBytes_length false (h.2 g List.mem_cons_self).name _
    rw [Mp4MetaAtom.payload, List.flatMap_cons, List.length_append]
    omega
  | other name rest => exact h.2.2

/-- What is read of an atom of `meta` behind its header. -/
theorem metaAtom_passes {a : Mp4MetaAtom} (h : a.Fits) {fuel : Nat} (hfuel : a.bytes.length ≤ fuel)
    (hsmall : a.bytes.length < 2147483640) :
    Passes R a.payload a.unread a.asksNothing
      (if mp4ffAtomNameToType a.name = .ilst then
        mp4ffMetadataLoop alloc R (toU64 (toI32 (((8 + a.payload.length : Nat) : Int) - ((8 : Nat) + 4)))) fuel {} 0
      else do
        let position ← mp4ffPosition
        mp4ffSetPosition R (toI64 (position + (8 + a.payload.length : Nat) - (8 : Nat)))) () := by
  have hlength : a.bytes.length = 8 + a.payload.length := atomBytes_length false h.name_length _
  cases a with
  | ilst tags =>
    have hilst : mp4ffAtomNameToType (Mp4MetaAtom.ilst tags).name = .ilst := (by decide :
      mp4ffAtomNameToType (bytes "ilst") = .ilst)
    have hpayload : (Mp4MetaAtom.ilst tags).payload = tags.flatMap Mp4Tag.bytes := rfl
    have hroom := h.room
    rw [hpayload] at hlength hroom ⊢
    have hsize : toU64 (toI32 (((8 + (tags.flatMap Mp4Tag.bytes).length : Nat) : Int) - ((8 : Nat) + 4))) =
        (tags.flatMap Mp4Tag.bytes).length - 4 := by
      rw [toI32_eq (by omega) (by omega), toU64]
      omega
    rw [if_pos hilst, hsize]
    exact metadataLoop_passes hR halloc h.2 {} (by omega) (by omega) (by omega)
  | other name rest =>
    rw [if_neg (show mp4ffAtomNameToType (Mp4MetaAtom.other name rest).name ≠ .ilst from h.2.1)]
    exact skip_passes hR rfl

omit hR halloc in
theorem Mp4MetaAtom.bytes_ne_nil (a : Mp4MetaAtom) : a.bytes ≠ [] := atomBytes_ne_nil _ _ _

/-- The first turn compares with four bytes more: there is no header yet. -/
theorem metaLoop_passes {as : List Mp4MetaAtom} (hfits : ∀ a ∈ as, a.Fits) {size fuel sumsize : Nat} {h : AtomHeader}
    (hfirst : h.headerSize = 8 ∨ h.headerSize = 0 ∧ as ≠ []) (hfuel : (as.flatMap Mp4MetaAtom.bytes).length < fuel)
    (hsum : sumsize + (as.flatMap Mp4MetaAtom.bytes).length + 12 = size) (hsize : size < 2147483648) :
    Passes R (as.flatMap Mp4MetaAtom.bytes) ((as.getLast?.map Mp4MetaAtom.unread).getD 0)
      (as.any Mp4MetaAtom.asksNothing) (mp4ffMetaLoop alloc R size fuel h sumsize) () := by
  induction as generalizing fuel sumsize h with
  | nil =>
    obtain ⟨fuel, rfl⟩ : ∃ k, fuel = k + 1 := ⟨fuel - 1, by omega⟩
    have hhead : h.headerSize = 8 := by simpa using hfirst
    rw [List.flatMap_nil, List.length_nil] at hsum
    rw [mp4ffMetaLoop, hhead, if_neg (by rw [toU64]; omega)]
    exact .ofReads (.pure _ R ())
  | cons a as ih =>
    obtain ⟨fuel, rfl⟩ : ∃ k, fuel = k + 1 := ⟨fuel - 1, by omega⟩
    have ha := hfits a List.mem_cons_self
    have hroom := ha.room
    have hlength : a.bytes.length = 8 + a.payload.length := atomBytes_length false ha.name_length _
    rw [List.flatMap_cons, List.length_append] at hsum hfuel
    have hatom := metaAtom_passes hR halloc ha (show a.bytes.length ≤ fuel by omega) (by omega)
    have hnext : (sumsize + (8 + a.payload.length)) % 18446744073709551616 = sumsize + a.bytes.length := by
      rw [← hlength]
      exact Nat.mod_eq_of_lt (by omega)
    have hfuelRest : (as.flatMap Mp4MetaAtom.bytes).length < fuel := by omega
    have hsumRest : sumsize + a.bytes.length + (as.flatMap Mp4MetaAtom.bytes).length + 12 = size := by omega
    have hloop := ih (fun x hx => hfits x (List.mem_cons_of_mem a hx))
      (h := atomHeader false a.name a.payload.length) (.inl rfl) hfuelRest hsumRest
    have hlt : sumsize < toU64 (size - (h.headerSize + 4)) := by
      have hhead : h.headerSize = 8 ∨ h.headerSize = 0 := hfirst.imp_right And.left
      rw [toU64]
      omega
    have hlong : ¬(atomHeader false a.name a.payload.length).size ≤
        (atomHeader false a.name a.payload.length).headerSize + 4 := by
      have hsize : (atomHeader false a.name a.payload.length).size = 8 + a.payload.length := rfl
      have hhead : (atomHeader false a.name a.payload.length).headerSize = 8 := rfl
      omega
    have hthen : ∀ {m : Mp4Scan Unit}, Passes R a.payload a.unread a.asksNothing m () →
        Passes R (a.payload ++ as.flatMap Mp4MetaAtom.bytes) (((a :: as).getLast?.map Mp4MetaAtom.unread).getD 0)
          ((a :: as).any Mp4MetaAtom.asksNothing) (m >>= fun _ => mp4ffMetaLoop alloc R size fuel
            (atomHeader false a.name a.payload.length) ((sumsize + (8 + a.payload.length)) % 18446744073709551616)) () := by
      intro m hm
      rw [hnext]
      cases as with
      | nil =>
        refine (hm.last ?_).congr (List.append_nil _).symm rfl (Bool.or_false _).symm
        obtain ⟨fuel, rfl⟩ : ∃ k, fuel = k + 1 := ⟨fuel - 1, by omega⟩
        rw [List.flatMap_nil, List.length_nil] at hsum
        have hhead : (atomHeader false a.name a.payload.length).headerSize = 8 := rfl
        rw [mp4ffMetaLoop, hhead, if_neg (by rw [toU64]; omega)]
      | cons b bs =>
        refine (hm.bind ?_ hloop).congr rfl (by rw [List.getLast?_cons_cons]) rfl
        exact List.append_ne_nil_of_left_ne_nil b.bytes_ne_nil _
    rw [mp4ffMetaLoop, if_pos hlt, List.flatMap_cons]
    refine Passes.atom hR ha.name_length ?_
    rw [if_neg hlong]
    by_cases hilst : mp4ffAtomNameToType a.name = .ilst
    · rw [if_pos hilst] at hatom
      exact (if_pos hilst).symm ▸ hthen hatom
    · rw [if_neg hilst] at hatom
      have hskip := hthen hatom
      rw [bind_assoc] at hskip
      exact (if_neg hilst).symm ▸ hskip

/-- The atoms of `meta`, with the size of the whole. -/
theorem meta_passes {as : List Mp4MetaAtom} (hne : as ≠ []) (hfits : ∀ a ∈ as, a.Fits) {version : List Byte}
    (hversion : version.length = 4) {size fuel : Nat} (hfuel : (as.flatMap Mp4MetaAtom.bytes).length < fuel)
    (hsum : (as.flatMap Mp4MetaAtom.bytes).length + 12 = size) (hsize : size < 2147483648) :
    Passes R (version ++ as.flatMap Mp4MetaAtom.bytes) ((as.getLast?.map Mp4MetaAtom.unread).getD 0)
      (as.any Mp4MetaAtom.asksNothing) (mp4ffReadMeta alloc R size fuel) () :=
  .after (version_reads hR hversion)
    (metaLoop_passes hR halloc hfits (.inr ⟨rfl, hne⟩) hfuel (by rw [Nat.zero_add]; exact hsum) hsize)

end

end AudioPlayer
