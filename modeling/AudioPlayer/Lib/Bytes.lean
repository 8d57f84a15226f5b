import Mathlib

/-!
# Byte strings as the C library reads them

`strstr` finds the first place of a pattern, `strncasecmp0` is `0 == strncasecmp(_, _, n)`, and the
`scan` functions are the conversions of `sscanf`: each gives what it converted and what it did not read.
Integers are read as the mathematical value of their digits; whether that fits is the caller's question.
-/

namespace Lib

abbrev Byte := UInt8

/-- The bytes of an ASCII literal. -/
def bytes (s : String) : List Byte := s.toList.map fun c => c.toNat.toUInt8

def crlf : List Byte := [13, 10]

/-- The string at the start of a buffer: up to the first NUL. -/
def cstr (s : List Byte) : List Byte := s.takeWhile (· ≠ 0)

/-- Where `pat` first occurs. -/
def strstr (pat : List Byte) : List Byte → Option Nat
  | [] => if pat = [] then some 0 else none
  | b :: s => if pat <+: b :: s then some 0 else (strstr pat s).map (· + 1)

def toLower (b : Byte) : Byte := if 65 ≤ b.toNat ∧ b.toNat ≤ 90 then b + 32 else b

/-- The strings are equal but for case. -/
def caseEq (a b : List Byte) : Prop := a.map toLower = b.map toLower

instance (a b : List Byte) : Decidable (caseEq a b) := inferInstanceAs (Decidable (_ = _))

/-- `0 == strncasecmp(a, b, n)`. -/
def strncasecmp0 (a b : List Byte) (n : Nat) : Bool := decide (caseEq ((cstr a).take n) ((cstr b).take n))

/-- `0 == strncmp(a, b, n)`. -/
def strncmp0 (a b : List Byte) (n : Nat) : Bool := decide ((cstr a).take n = (cstr b).take n)

def isSpace (b : Byte) : Bool := decide (b.toNat = 32 ∨ 9 ≤ b.toNat ∧ b.toNat ≤ 13)

def isDigit (b : Byte) : Bool := decide (48 ≤ b.toNat ∧ b.toNat ≤ 57)

def isHexDigit (b : Byte) : Bool :=
  decide (48 ≤ b.toNat ∧ b.toNat ≤ 57 ∨ 65 ≤ b.toNat ∧ b.toNat ≤ 70 ∨ 97 ≤ b.toNat ∧ b.toNat ≤ 102)

/-- The value of decimal digits. -/
def decVal (ds : List Byte) : Nat := ds.foldl (fun a b => 10 * a + (b.toNat - 48)) 0

def hexDigitVal (b : Byte) : Nat :=
  if isDigit b then b.toNat - 48 else if b.toNat ≤ 70 then b.toNat - 55 else b.toNat - 87

/-- The value of hexadecimal digits. -/
def hexVal (ds : List Byte) : Nat := ds.foldl (fun a b => 16 * a + hexDigitVal b) 0

/-- White space in a format: any amount of it. -/
def scanSpace (s : List Byte) : List Byte := s.dropWhile isSpace

/-- Ordinary characters in a format. -/
def scanLit (lit s : List Byte) : Option (List Byte) := if lit <+: s then some (s.drop lit.length) else none

/-- An optional sign. -/
def scanSign (s : List Byte) : Bool × List Byte :=
  if s.head? = some 45 then (true, s.tail) else if s.head? = some 43 then (false, s.tail) else (false, s)

/-- `%d`. -/
def scanInt (s : List Byte) : Option (Int × List Byte) :=
  let (neg, s) := scanSign (scanSpace s)
  let ds := s.takeWhile isDigit
  if ds = [] then none else some (if neg then -(decVal ds : Int) else decVal ds, s.dropWhile isDigit)

/-- `%lx`. -/
def scanHex (s : List Byte) : Option (Int × List Byte) :=
  let (neg, s) := scanSign (scanSpace s)
  let s' := if s.take 2 = bytes "0x" ∨ s.take 2 = bytes "0X" then s.drop 2 else s
  let s := if s'.head?.any isHexDigit then s' else s
  let ds := s.takeWhile isHexDigit
  if ds = [] then none else some (if neg then -(hexVal ds : Int) else hexVal ds, s.dropWhile isHexDigit)

/-! ## Finding a pattern -/

section
variable {pat s t : List Byte} {b : Byte} {i : Nat}

/-- A pattern that starts with `b` is found behind the part that has no `b`. -/
theorem strstr_append (h : b ∉ s) : strstr (b :: pat) (s ++ b :: pat ++ t) = some s.length := by
  induction s with
  | nil => simp [strstr]
  | cons c s ih =>
    have hc : ¬ (b :: pat <+: c :: (s ++ b :: pat ++ t)) := by
      rintro hp
      exact h (by simp [(List.cons_prefix_cons.1 hp).1])
    simp only [List.cons_append, strstr, hc, if_false]
    rw [ih (fun hm => h (by simp [hm]))]
    rfl

/-- The end of a line is not found before the line is complete. -/
theorem strstr_crlf_none {line : List Byte} (h : (13 : Byte) ∉ line) (hs : s <+: line ++ [13]) :
    strstr crlf s = none := by
  induction line generalizing s with
  | nil =>
    cases s with
    | nil => rfl
    | cons c s =>
      obtain rfl : s = [] := by
        have := hs.length_le
        simpa using this
      simp [strstr, crlf]
  | cons d line ih =>
    cases s with
    | nil => rfl
    | cons c s =>
      obtain ⟨rfl, hs'⟩ := List.cons_prefix_cons.1 hs
      have hc : ¬ (crlf <+: c :: s) := fun hp => h (by simp [(List.cons_prefix_cons.1 hp).1])
      simp only [strstr, hc, if_false, ih (fun hm => h (by simp [hm])) hs', Option.map_none]

theorem strstr_crlf {line : List Byte} (h : (13 : Byte) ∉ line) : strstr crlf (line ++ crlf ++ t) = some line.length :=
  strstr_append h

/-- What is found is there. -/
theorem strstr_length (h : strstr pat s = some i) : i + pat.length ≤ s.length := by
  induction s generalizing i with
  | nil =>
    unfold strstr at h
    split at h
    · simp_all
    · simp at h
  | cons b s ih =>
    unfold strstr at h
    split at h
    case isTrue hp =>
      cases h
      simpa using hp.length_le
    case isFalse =>
      obtain ⟨j, hj, rfl⟩ := Option.map_eq_some_iff.1 h
      have := ih hj
      simp only [List.length_cons]
      omega

/-- What is not in the whole is not in its start. -/
theorem strstr_prefix (hs : s <+: t) (h : strstr pat t = none) : strstr pat s = none := by
  induction t generalizing s with
  | nil =>
    obtain rfl := List.prefix_nil.1 hs
    exact h
  | cons c t ih =>
    unfold strstr at h
    split at h
    case isTrue => simp at h
    case isFalse hp =>
      cases s with
      | nil =>
        have hne : pat ≠ [] := by
          rintro rfl
          exact hp List.nil_prefix
        simp [strstr, hne]
      | cons b s =>
        obtain ⟨rfl, hs'⟩ := List.cons_prefix_cons.1 hs
        have hp' : ¬pat <+: b :: s := fun hpat => hp (hpat.trans hs)
        simp only [strstr, hp', if_false, ih hs' (Option.map_eq_none_iff.1 h), Option.map_none]

/-- What is found in a part is found in the whole. -/
theorem strstr_extend (hs : s <+: t) (h : strstr pat s = some i) : strstr pat t = some i := by
  induction s generalizing t i with
  | nil =>
    unfold strstr at h
    split at h
    case isTrue hpat =>
      subst hpat
      rw [← h]
      cases t with
      | nil => rfl
      | cons c t => exact if_pos List.nil_prefix
    case isFalse => cases h
  | cons b s ih =>
    obtain ⟨t, rfl⟩ := hs
    have hlen := strstr_length h
    rw [List.cons_append]
    unfold strstr at h ⊢
    split at h
    case isTrue hpat =>
      have hwhole : pat <+: b :: (s ++ t) := hpat.trans (List.prefix_append (b :: s) t)
      rw [if_pos hwhole]
      exact h
    case isFalse hpat =>
      obtain ⟨j, hj, rfl⟩ := Option.map_eq_some_iff.1 h
      have hnot : ¬ pat <+: b :: (s ++ t) := fun hp =>
        hpat (List.prefix_of_prefix_length_le hp (List.prefix_append (b :: s) t) (by omega))
      rw [if_neg hnot, ih (List.prefix_append s t) hj]
      rfl

theorem cstr_append (h : (0 : Byte) ∉ s) : cstr (s ++ t) = s ++ cstr t := by
  unfold cstr
  rw [List.takeWhile_append_of_pos]
  intro c hc
  have : c ≠ 0 := by rintro rfl; exact h hc
  simpa using this

theorem cstr_length : (cstr s).length ≤ s.length := (List.takeWhile_prefix _).length_le

theorem cstr_eq_self (h : (0 : Byte) ∉ s) : cstr s = s := by
  have := cstr_append (t := []) h
  simpa [cstr] using this

end

/-! ## Conversions -/

section
variable {s ds rest : List Byte}

theorem takeWhile_append_stop {p : Byte → Bool} (h1 : ∀ b ∈ ds, p b) (h2 : ∀ b ∈ rest.head?, p b = false) :
    (ds ++ rest).takeWhile p = ds ∧ (ds ++ rest).dropWhile p = rest := by
  rw [List.takeWhile_append_of_pos h1, List.dropWhile_append_of_pos h1]
  cases rest with
  | nil => simp
  | cons c rest => simp [h2 c (by simp)]

theorem scanSpace_eq_self (h : ∀ b ∈ s.head?, isSpace b = false) : scanSpace s = s := by
  cases s with
  | nil => rfl
  | cons c s => simp [scanSpace, h c (by simp)]

theorem scanSign_eq_self (h : ∀ b ∈ s.head?, b ≠ 45 ∧ b ≠ 43) : scanSign s = (false, s) := by
  unfold scanSign
  have h1 : ¬ s.head? = some 45 := fun h0 => (h _ h0).1 rfl
  have h2 : ¬ s.head? = some 43 := fun h0 => (h _ h0).2 rfl
  rw [if_neg h1, if_neg h2]

/-- A run of digits is read as their value. -/
theorem scanInt_digits (hne : ds ≠ []) (hd : ∀ b ∈ ds, isDigit b) (hr : ∀ b ∈ rest.head?, isDigit b = false) :
    scanInt (ds ++ rest) = some ((decVal ds : Int), rest) := by
  obtain ⟨c, ds', rfl⟩ := List.exists_cons_of_ne_nil hne
  have hc : isDigit c = true := hd c (by simp)
  have hspace : isSpace c = false := by
    simp only [isDigit, isSpace, decide_eq_true_eq, decide_eq_false_iff_not] at hc ⊢; omega
  have hsign : c ≠ 45 ∧ c ≠ 43 := by constructor <;> (rintro rfl; revert hc; decide)
  obtain ⟨h1, h2⟩ := takeWhile_append_stop hd hr
  unfold scanInt
  rw [scanSpace_eq_self (by simpa using hspace), scanSign_eq_self (by simpa using hsign)]
  simp only [h1, h2, hne, if_false, Bool.false_eq_true]

/-- `n` digits stay below `10 ^ n`. -/
theorem decVal_lt (hd : ∀ b ∈ ds, isDigit b) : decVal ds < 10 ^ ds.length := by
  have acc : ∀ a, ds.foldl (fun a b => 10 * a + (b.toNat - 48)) a < (a + 1) * 10 ^ ds.length := by
    induction ds with
    | nil => intro a; simp
    | cons b ds ih =>
      intro a
      have hb : b.toNat - 48 ≤ 9 := by
        have := hd b (by simp)
        simp only [isDigit, decide_eq_true_eq] at this; omega
      calc (b :: ds).foldl (fun a b => 10 * a + (b.toNat - 48)) a
          < (10 * a + (b.toNat - 48) + 1) * 10 ^ ds.length := ih (fun c hc => hd c (by simp [hc])) _
        _ ≤ (10 * (a + 1)) * 10 ^ ds.length := Nat.mul_le_mul_right _ (by omega)
        _ = (a + 1) * 10 ^ (b :: ds).length := by rw [List.length_cons, pow_succ]; ring
  simpa [decVal] using acc 0

/-- A run of hexadecimal digits is read as their value. -/
theorem scanHex_digits (hne : ds ≠ []) (hd : ∀ b ∈ ds, isHexDigit b) : scanHex ds = some ((hexVal ds : Int), []) := by
  obtain ⟨c, ds', rfl⟩ := List.exists_cons_of_ne_nil hne
  have hc : isHexDigit c = true := hd c (by simp)
  have hspace : isSpace c = false := by
    simp only [isHexDigit, isSpace, decide_eq_true_eq, decide_eq_false_iff_not] at hc ⊢; omega
  have hsign : c ≠ 45 ∧ c ≠ 43 := by constructor <;> (rintro rfl; revert hc; decide)
  have hx : ¬ ((c :: ds').take 2 = bytes "0x" ∨ (c :: ds').take 2 = bytes "0X") := by
    have hmem : ∀ b ∈ (c :: ds').take 2, isHexDigit b := fun b hb => hd b (List.mem_of_mem_take hb)
    rintro (h | h) <;> rw [h] at hmem
    · exact absurd (hmem 120 (by decide)) (by decide)
    · exact absurd (hmem 88 (by decide)) (by decide)
  obtain ⟨h1, h2⟩ := @takeWhile_append_stop (c :: ds') [] _ hd (by simp)
  rw [List.append_nil] at h1 h2
  unfold scanHex
  rw [scanSpace_eq_self (by simpa using hspace), scanSign_eq_self (by simpa using hsign)]
  simp only [hx, if_false, ite_self, h1, h2, hne, Bool.false_eq_true]

end

/-! ## Sixteen bits -/

/-- A 16-bit value, the lower byte first. -/
def le16 (x : BitVec 16) : List Byte := [⟨x.setWidth 8⟩, ⟨(x.sshiftRight 8).setWidth 8⟩]
/-- The conversion of an `int` to a byte. -/
def toByte (x : Int) : Byte := ⟨BitVec.ofInt 8 x⟩

/-- The bytes of an `int` that is stored as 16 bits are those of its own lower two bytes. -/
theorem le16_ofInt (x : Int) : le16 (BitVec.ofInt 16 x) = [toByte x, toByte (x >>> (8 : Nat))] := by
  have hlow : (BitVec.ofInt 16 x).setWidth 8 = BitVec.ofInt 8 x := by
    apply BitVec.eq_of_toNat_eq
    simp only [BitVec.toNat_setWidth, BitVec.toNat_ofInt]
    omega
  have hhigh : ((BitVec.ofInt 16 x).sshiftRight 8).setWidth 8 = BitVec.ofInt 8 (x >>> (8 : Nat)) := by
    apply BitVec.eq_of_toNat_eq
    rw [BitVec.sshiftRight_eq, BitVec.toNat_setWidth, BitVec.toNat_ofInt, BitVec.toNat_ofInt,
      BitVec.toInt_ofInt, Int.shiftRight_eq_div_pow, Int.shiftRight_eq_div_pow]
    unfold Int.bmod
    norm_num
    split <;> omega
  unfold le16 toByte
  rw [hlow, hhigh]

/-! ## Numbers in memory -/

/-- The `k` lower bytes of `n`, the lowest first. -/
def leBytes : Nat → Nat → List Byte
  | 0, _ => []
  | k + 1, n => n.toUInt8 :: leBytes k (n / 256)

/-- The number that these bytes are. -/
def ofLeBytes : List Byte → Nat
  | [] => 0
  | b :: bs => b.toNat + 256 * ofLeBytes bs

@[simp] theorem leBytes_length (k n : Nat) : (leBytes k n).length = k := by
  induction k generalizing n with
  | zero => rfl
  | succ k ih => rw [leBytes, List.length_cons, ih]

theorem ofLeBytes_leBytes (k n : Nat) : ofLeBytes (leBytes k n) = n % 256 ^ k := by
  induction k generalizing n with
  | zero => simp [leBytes, ofLeBytes, Nat.mod_one]
  | succ k ih =>
    have hbyte : n.toUInt8.toNat = n % 256 := rfl
    rw [leBytes, ofLeBytes, ih, hbyte, Nat.pow_succ', Nat.mod_mul]

end Lib
