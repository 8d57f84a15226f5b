import Mathlib
import AudioPlayer.Httpclient.Request

/-!
# Which URLs are split (`utils/httpclient.c:163-229`)

`httpclient_connect` documents the URLs it takes as `http[s]://host[:port][/[path]]` (`httpclient.c:1072`), and a
fragment may follow. `DocumentedUrl` is such a URL by its parts. `httpclient_parse_url` looks for the first slash
behind `://` and computes the lengths of the host and of the path from there: where the path is absent there is no
slash, or one of the fragment, and the split fails. `httpclientParseUrl_splits` says that there is no other way to
fail, but for parts that are too long.
-/

namespace AudioPlayer
open Lib

/-- A URL of the documented form. -/
structure DocumentedUrl where
  secure   : Bool
  host     : List Byte
  port     : Option (List Byte)
  path     : Option (List Byte)
  fragment : Option (List Byte)
  host_ne     : host ≠ []
  host_length : host.length ≤ 63
  host_clean  : ∀ b ∈ host, b ≠ 58 ∧ b ≠ 47 ∧ b ≠ 35
  port_number : ∀ ds ∈ port, ds ≠ [] ∧ (∀ b ∈ ds, isDigit b) ∧ 1 ≤ decVal ds ∧ decVal ds ≤ 65535
  path_clean  : ∀ p ∈ path, (35 : Byte) ∉ p

namespace DocumentedUrl
variable (u : DocumentedUrl)

def scheme : List Byte := if u.secure then bytes "https" else bytes "http"

/-- `:` and the port. -/
def portText : List Byte := (u.port.map (58 :: ·)).getD []

/-- `/` and the rest of the path. -/
def pathText : List Byte := (u.path.map (47 :: ·)).getD []

/-- `#` and the fragment. -/
def fragmentText : List Byte := (u.fragment.map (35 :: ·)).getD []

/-- What follows `://`. -/
def hierarchy : List Byte := u.host ++ u.portText ++ u.pathText ++ u.fragmentText

def text : List Byte := u.scheme ++ bytes "://" ++ u.hierarchy

def portNumber : Nat := (u.port.map decVal).getD 0

/-- `r` is the split of `u`: an absent path is `/` or empty. -/
def Splits (r : ParsedUrl) : Prop :=
  r.scheme = u.scheme ∧ r.host = u.host ∧ r.port = u.portNumber ∧
    match u.path with
    | some p => r.path = 47 :: p
    | none => r.path = [47] ∨ r.path = []

end DocumentedUrl

/-- The string has no `://`, or one of its parts is longer than `httpclient_connect` has room for: the scheme, the
host up to a colon, slash or fragment, or the path up to the fragment. -/
def Unsplittable (url : List Byte) : Prop :=
  match strstr (bytes "://") url with
  | none => True
  | some schemeLen =>
    let rest := url.drop (schemeLen + 3)
    8 ≤ schemeLen ∨ httpclientMaxHostLen ≤ (rest.takeWhile fun b => b ≠ 58 ∧ b ≠ 47 ∧ b ≠ 35).length ∨
      ∃ p, rest.dropWhile (fun b => b ≠ 47 ∧ b ≠ 35) = 47 :: p ∧
        httpclientMaxUrlLen ≤ (47 :: p.takeWhile (· ≠ 35)).length

/-! ## Searching for a character -/

section
variable {b : Byte} {s t : List Byte} {i : Nat}

theorem strchr_none (h : b ∉ s) : strchr b s = none := by
  rw [strchr, List.findIdx?_eq_none_iff]
  intro c hc
  exact beq_false_of_ne fun hcb => h (hcb ▸ hc)

theorem strchr_append (h : b ∉ s) : strchr b (s ++ t) = (strchr b t).map (· + s.length) := by
  have := strchr_none h
  rw [strchr] at this ⊢
  rw [List.findIdx?_append, this, Option.none_or]
  rfl

theorem strchr_self : strchr b (b :: t) = some 0 := by
  rw [strchr, List.findIdx?_cons, if_pos (beq_self_eq_true b)]

/-- What stops at a character stops no later than where it is found. -/
theorem takeWhile_length_le_strchr {p : Byte → Bool} (hp : p b = false) (h : strchr b s = some i) :
    (s.takeWhile p).length ≤ i := by
  induction s generalizing i with
  | nil => cases h
  | cons c s ih =>
    rw [strchr, List.findIdx?_cons] at h
    by_cases hcb : c = b
    · rw [List.takeWhile_cons_of_neg (by rw [hcb, hp]; simp)]
      exact Nat.zero_le _
    · rw [if_neg (by simpa using hcb)] at h
      obtain ⟨k, hk, rfl⟩ := Option.map_eq_some_iff.1 h
      have := ih hk
      rw [List.takeWhile_cons]
      split
      · rw [List.length_cons]
        omega
      · exact Nat.zero_le _

/-- Up to where a character is found, or all. -/
theorem strchr_getD_length (b : Byte) (s : List Byte) :
    (strchr b s).getD s.length = (s.takeWhile (· ≠ b)).length := by
  induction s with
  | nil => rfl
  | cons c s ih =>
    rw [strchr, List.findIdx?_cons]
    by_cases hcb : c = b
    · rw [if_pos (by simpa using hcb), List.takeWhile_cons_of_neg (by simpa using hcb)]
      rfl
    · rw [if_neg (by simpa using hcb), List.takeWhile_cons_of_pos (by simpa using hcb), List.length_cons,
        List.length_cons, ← ih, strchr]
      cases s.findIdx? (· == b) <;> rfl

end

/-! ## The documented form -/

section
variable (u : DocumentedUrl)

theorem bytes_colonSlashSlash : bytes "://" = [58, 47, 47] := by decide

theorem DocumentedUrl.strstr_text : strstr (bytes "://") u.text = some u.scheme.length := by
  rw [DocumentedUrl.text, bytes_colonSlashSlash]
  refine strstr_append ?_
  cases h : u.secure <;> simp only [DocumentedUrl.scheme, h] <;> decide

theorem DocumentedUrl.drop_text : u.text.drop (u.scheme.length + 3) = u.hierarchy := by
  rw [DocumentedUrl.text, bytes_colonSlashSlash, List.append_assoc, ← List.drop_drop, List.drop_left]
  rfl

theorem DocumentedUrl.scheme_length : u.scheme.length ≤ 5 := by
  cases h : u.secure <;> simp only [DocumentedUrl.scheme, h] <;> decide

/-- A colon, a slash and a fragment's sign are no digits. -/
theorem DocumentedUrl.portText_clean {b : Byte} (hb : b = 47 ∨ b = 35) : b ∉ u.portText := by
  unfold DocumentedUrl.portText
  cases hport : u.port with
  | none => simp
  | some ds =>
    obtain ⟨-, hdigits, -⟩ := u.port_number ds hport
    intro hmem
    rw [Option.map_some, Option.getD_some, List.mem_cons] at hmem
    rcases hmem with h58 | hds
    · rcases hb with rfl | rfl <;> exact absurd h58 (by decide)
    · have := hdigits b hds
      rcases hb with rfl | rfl <;> exact absurd this (by decide)

theorem DocumentedUrl.authority_clean {b : Byte} (hb : b = 47 ∨ b = 35) : b ∉ u.host ++ u.portText := by
  intro hmem
  rcases List.mem_append.1 hmem with hhost | hport
  · have := u.host_clean b hhost
    rcases hb with rfl | rfl
    · exact this.2.1 rfl
    · exact this.2.2 rfl
  · exact u.portText_clean hb hport

/-- The port in front of a path. -/
theorem DocumentedUrl.parsePort {p : List Byte} (hpath : u.path = some p) :
    httpclientParsePort u.hierarchy (u.host ++ u.portText).length =
      some (if u.port = none then 0 else u.host.length, u.portNumber) := by
  have hcolon : (58 : Byte) ∉ u.host := fun h => (u.host_clean 58 h).1 rfl
  unfold httpclientParsePort DocumentedUrl.hierarchy DocumentedUrl.portNumber
  cases hport : u.port with
  | none =>
    have hempty : u.portText = [] := by rw [DocumentedUrl.portText, hport]; rfl
    have hnone : (strchr 58 (u.host ++ (u.pathText ++ u.fragmentText))).filter (· < u.host.length) = none := by
      rw [strchr_append hcolon]
      cases strchr 58 (u.pathText ++ u.fragmentText) with
      | none => rfl
      | some k => simp [Option.filter]
    rw [hempty, List.append_nil, List.append_assoc, hnone]
    rfl
  | some ds =>
    obtain ⟨hne, hdigits, hpos, hle⟩ := u.port_number ds hport
    have hds : u.portText = 58 :: ds := by rw [DocumentedUrl.portText, hport]; rfl
    have hslash : u.pathText = 47 :: p := by rw [DocumentedUrl.pathText, hpath]; rfl
    have hfind : strchr 58 (u.host ++ (58 :: ds ++ (47 :: p ++ u.fragmentText))) = some u.host.length := by
      rw [strchr_append hcolon, List.cons_append, strchr_self, Option.map_some, Nat.zero_add]
    have hdrop : (u.host ++ (58 :: ds ++ (47 :: p ++ u.fragmentText))).drop (u.host.length + 1) =
        ds ++ (47 :: (p ++ u.fragmentText)) := by
      rw [← List.drop_drop, List.drop_left]
      rfl
    rw [hds, hslash, List.append_assoc, List.append_assoc, hfind, Option.filter_some_pos (by simp)]
    dsimp only
    rw [hdrop, scanInt_digits hne hdigits (by simp [isDigit])]
    simp only [Option.map_some, reduceCtorEq, if_false, Option.getD_some, Option.some.injEq, Prod.mk.injEq, true_and]
    omega

/-- A path that is there: the split, unless the path is too long. -/
theorem DocumentedUrl.parse_path {p : List Byte} (hpath : u.path = some p) :
    httpclientParseUrl 8 httpclientMaxHostLen httpclientMaxUrlLen u.text =
      if p.length + 1 < 2048 then
        some (some { scheme := u.scheme, host := u.host, port := u.portNumber, path := 47 :: p })
      else some none := by
  have hscheme := u.scheme_length
  have hhost := u.host_length
  have hne : u.host.length ≠ 0 := fun h0 => u.host_ne (List.length_eq_zero_iff.1 h0)
  have hslash : u.pathText = 47 :: p := by rw [DocumentedUrl.pathText, hpath]; rfl
  have hauth : u.hierarchy = (u.host ++ u.portText) ++ 47 :: (p ++ u.fragmentText) := by
    rw [DocumentedUrl.hierarchy, hslash, List.append_assoc, List.cons_append]
  have hfind : strchr 47 u.hierarchy = some (u.host ++ u.portText).length := by
    rw [hauth, strchr_append (u.authority_clean (.inl rfl)), strchr_self, Option.map_some, Nat.zero_add]
  have hfragment : (strchr 35 u.hierarchy).getD u.hierarchy.length =
      (u.host ++ u.portText).length + (p.length + 1) := by
    have hp : (35 : Byte) ∉ 47 :: p := by
      rw [List.mem_cons, not_or]
      exact ⟨by decide, u.path_clean p hpath⟩
    rw [hauth, strchr_append (u.authority_clean (.inr rfl)), ← List.cons_append, strchr_append hp]
    unfold DocumentedUrl.fragmentText
    cases u.fragment with
    | none => simp [strchr]; omega
    | some f => simp [strchr_self]; omega
  have hlen : (if (if u.port = none then 0 else u.host.length) = 0 then (u.host ++ u.portText).length
      else if u.port = none then 0 else u.host.length) = u.host.length := by
    by_cases hport : u.port = none
    · simp [hport, DocumentedUrl.portText]
    · rw [if_neg hport, if_neg hne]
  have htake : u.text.take u.scheme.length = u.scheme := by
    rw [DocumentedUrl.text, List.append_assoc, List.take_left]
  have hhostTake : u.hierarchy.take u.host.length = u.host := by
    rw [DocumentedUrl.hierarchy, List.append_assoc, List.append_assoc, List.take_left]
  have hpathTake : (u.hierarchy.drop (u.host ++ u.portText).length).take (p.length + 1) = 47 :: p := by
    rw [hauth, List.drop_left, ← List.cons_append, ← List.length_cons (a := (47 : Byte)), List.take_left]
  unfold httpclientParseUrl
  rw [u.strstr_text]
  dsimp only
  rw [if_neg (by omega), u.drop_text, hfind]
  dsimp only
  rw [u.parsePort hpath]
  dsimp only
  rw [hlen, if_neg (by unfold httpclientMaxHostLen; omega), hfragment]
  have hpathLen : (((u.host ++ u.portText).length + (p.length + 1) : Nat) : Int) -
      ((u.host ++ u.portText).length : Int) = ((p.length + 1 : Nat) : Int) := by omega
  rw [hpathLen, if_neg (by omega), Int.toNat_natCast, htake, hhostTake, hpathTake]
  by_cases hroom : p.length + 1 < 2048
  · rw [if_neg (by unfold httpclientMaxUrlLen; omega), if_pos hroom]
  · rw [if_pos (by unfold httpclientMaxUrlLen; omega), if_neg hroom]

end

section
variable {url : List Byte} {schemeLen : Nat}

/-- A slash behind the fragment's sign is no path: nothing is split. -/
theorem httpclientParseUrl_no_path (hscheme : strstr (bytes "://") url = some schemeLen)
    (hpath : ∀ slash, strchr 47 (url.drop (schemeLen + 3)) = some slash →
      ∃ fragment, strchr 35 (url.drop (schemeLen + 3)) = some fragment ∧ fragment < slash) (r : ParsedUrl) :
    httpclientParseUrl 8 httpclientMaxHostLen httpclientMaxUrlLen url ≠ some (some r) := by
  intro hparse
  unfold httpclientParseUrl at hparse
  rw [hscheme] at hparse
  dsimp only at hparse
  by_cases hlong : 8 < schemeLen + 1
  · rw [if_pos hlong] at hparse
    cases hparse
  rw [if_neg hlong] at hparse
  cases hslash : strchr 47 (url.drop (schemeLen + 3)) with
  | none =>
    rw [hslash] at hparse
    cases hparse
  | some slash =>
    obtain ⟨fragment, hfragment, hlt⟩ := hpath slash hslash
    rw [hslash] at hparse
    dsimp only at hparse
    cases hport : httpclientParsePort (url.drop (schemeLen + 3)) slash with
    | none =>
      rw [hport] at hparse
      cases hparse
    | some found =>
      rw [hport, hfragment, Option.getD_some] at hparse
      dsimp only at hparse
      generalize (if found.1 = 0 then slash else found.1) = hostLen at hparse
      by_cases hhost : httpclientMaxHostLen < hostLen + 1
      · rw [if_pos hhost] at hparse
        cases hparse
      · rw [if_neg hhost] at hparse
        by_cases hbefore : (fragment : Int) - slash = -1
        · rw [if_pos hbefore] at hparse
          cases hparse
        · rw [if_neg hbefore, if_pos (.inl (by omega))] at hparse
          cases hparse

/-- The host ends at the colon that was found, if any. -/
theorem httpclientParsePort_colon {rest : List Byte} {slash hostLen port : Nat}
    (h : httpclientParsePort rest slash = some (hostLen, port)) : hostLen = 0 ∨ strchr 58 rest = some hostLen := by
  unfold httpclientParsePort at h
  cases hcolon : (strchr 58 rest).filter (· < slash) with
  | none =>
    rw [hcolon] at h
    exact .inl (Prod.mk.inj (Option.some.inj h)).1.symm
  | some colon =>
    rw [hcolon] at h
    obtain ⟨⟨n, tail⟩, -, hfound⟩ := Option.map_eq_some_iff.1 h
    obtain ⟨rfl, -⟩ := Prod.mk.inj hfound
    exact .inr (Option.filter_eq_some_iff.1 hcolon).1

/-- The length of the path that stands in front of the fragment. -/
theorem pathLen_of_dropWhile {rest p : List Byte} {slash : Nat}
    (hp : rest.dropWhile (fun b => b ≠ 47 ∧ b ≠ 35) = 47 :: p) (hslash : strchr 47 rest = some slash) :
    (strchr 35 rest).getD rest.length = slash + (47 :: p.takeWhile (· ≠ 35)).length := by
  have hsplit : rest = rest.takeWhile (fun b => b ≠ 47 ∧ b ≠ 35) ++ 47 :: p := by
    rw [← hp, List.takeWhile_append_dropWhile]
  have hclean : ∀ b ∈ rest.takeWhile (fun b => b ≠ 47 ∧ b ≠ 35), b ≠ 47 ∧ b ≠ 35 := by
    intro b hb
    simpa using List.mem_takeWhile_imp hb
  generalize rest.takeWhile (fun b => b ≠ 47 ∧ b ≠ 35) = before at hsplit hclean
  subst hsplit
  rw [strchr_append fun h => (hclean 47 h).1 rfl, strchr_self, Option.map_some, Option.some.injEq,
    Nat.zero_add] at hslash
  subst hslash
  rw [strchr_append fun h => (hclean 35 h).2 rfl]
  have hfragment : strchr 35 (47 :: p) = (strchr 35 p).map (· + 1) := by
    rw [strchr, List.findIdx?_cons, if_neg (by decide)]
    rfl
  have hlen := strchr_getD_length 35 p
  rw [hfragment, List.length_append, List.length_cons, List.length_cons, ← hlen]
  cases strchr 35 p with
  | none =>
    simp only [Option.map_none, Option.getD_none]
  | some k =>
    simp only [Option.map_some, Option.getD_some]
    omega

/-- A part that is too long is refused before anything is copied past its end. -/
theorem httpclientParseUrl_unsplittable (h : Unsplittable url) :
    httpclientParseUrl 8 httpclientMaxHostLen httpclientMaxUrlLen url = some none := by
  unfold httpclientParseUrl
  unfold Unsplittable at h
  cases hscheme : strstr (bytes "://") url with
  | none => rfl
  | some schemeLen =>
    rw [hscheme] at h
    dsimp only at h ⊢
    by_cases hlong : 8 < schemeLen + 1
    · rw [if_pos hlong]
    rw [if_neg hlong]
    generalize url.drop (schemeLen + 3) = rest at h ⊢
    cases hslash : strchr 47 rest with
    | none => rfl
    | some slash =>
      dsimp only
      cases hport : httpclientParsePort rest slash with
      | none => rfl
      | some found =>
        obtain ⟨colon, port⟩ := found
        dsimp only
        have hstop : (rest.takeWhile fun b => b ≠ 58 ∧ b ≠ 47 ∧ b ≠ 35).length ≤
            if colon = 0 then slash else colon := by
          split
          · exact takeWhile_length_le_strchr (by decide) hslash
          · rcases httpclientParsePort_colon hport with h0 | hcolon
            · contradiction
            · exact takeWhile_length_le_strchr (by decide) hcolon
        generalize (if colon = 0 then slash else colon) = hostLen at hstop ⊢
        by_cases hhost : httpclientMaxHostLen < hostLen + 1
        · rw [if_pos hhost]
        rw [if_neg hhost]
        rcases h with h8 | h64 | ⟨p, hp, h2048⟩
        · omega
        · omega
        · have hpath := pathLen_of_dropWhile hp hslash
          rw [if_neg (by unfold httpclientMaxUrlLen at h2048; omega), if_pos (.inr (by omega))]

/-- **Which URLs are split**: of the documented ones those whose path is there and fits, with its slash and its NUL; a
string without `://` or with a part that is too long is refused. -/
theorem httpclientParseUrl_splits (u : DocumentedUrl) (url : List Byte) :
    ((∃ r, httpclientParseUrl 8 httpclientMaxHostLen httpclientMaxUrlLen u.text = some (some r) ∧ u.Splits r) ↔
        ∃ p, u.path = some p ∧ p.length + 1 < 2048) ∧
      (Unsplittable url → httpclientParseUrl 8 httpclientMaxHostLen httpclientMaxUrlLen url = some none) := by
  refine ⟨?_, fun h => httpclientParseUrl_unsplittable h⟩
  cases hpath : u.path with
  | none =>
    constructor
    · rintro ⟨r, hparse, -⟩
      refine absurd hparse (httpclientParseUrl_no_path u.strstr_text ?_ r)
      intro slash hslash
      have hempty : u.pathText = [] := by rw [DocumentedUrl.pathText, hpath]; rfl
      rw [u.drop_text, DocumentedUrl.hierarchy, hempty, List.append_nil] at hslash ⊢
      rw [strchr_append (u.authority_clean (.inl rfl))] at hslash
      obtain ⟨k, hk, rfl⟩ := Option.map_eq_some_iff.1 hslash
      unfold DocumentedUrl.fragmentText at hk ⊢
      cases hfragment : u.fragment with
      | none =>
        rw [hfragment] at hk
        cases hk
      | some f =>
        rw [hfragment] at hk
        refine ⟨(u.host ++ u.portText).length, ?_, ?_⟩
        · rw [strchr_append (u.authority_clean (.inr rfl))]
          simp [strchr_self]
        · have hk0 : k ≠ 0 := by
            rintro rfl
            simp [strchr, List.findIdx?_cons] at hk
          omega
    · rintro ⟨p, hp, -⟩
      cases hp
  | some p =>
    rw [u.parse_path hpath]
    by_cases hroom : p.length + 1 < 2048
    · rw [if_pos hroom]
      refine ⟨fun _ => ⟨p, rfl, hroom⟩, fun _ => ⟨_, rfl, rfl, rfl, rfl, ?_⟩⟩
      rw [hpath]
    · rw [if_neg hroom]
      constructor
      · rintro ⟨r, hparse, -⟩
        cases hparse
      · rintro ⟨p', hp, hroom'⟩
        obtain rfl := Option.some.inj hp
        exact absurd hroom' hroom

/-- A host and nothing else. -/
def bareHost : DocumentedUrl where
  secure := false
  host := bytes "h"
  port := none
  path := none
  fragment := none
  host_ne := by decide
  host_length := by decide
  host_clean := by decide +kernel
  port_number := by simp
  path_clean := by simp

/-- `http://h` is refused. -/
theorem httpclientParseUrl_bareHost :
    bareHost.text = bytes "http://h" ∧
      httpclientParseUrl 8 httpclientMaxHostLen httpclientMaxUrlLen bareHost.text = some none := by
  decide

end

end AudioPlayer
