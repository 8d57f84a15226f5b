import Mathlib
import AudioPlayer.Lib.Bytes
import AudioPlayer.Lib.CInt

/-!
# Prompts by name (`prompt/prompt_flash.c`)

| here | there |
| --- | --- |
| `PromptDataInfo`, `FileAddrInfo` | `prompt_data_info_t`, `file_addr_info_t` (`prompt_flash.h:9-22`) |
| `promptDataInfo`                 | `data_info` (`prompt_flash.c:9-17`), from the names of `prompt_def.h` |
| `promptListStop`, `promptSearch` | the `while` and the `for` of `prompt_file_index_get` (`prompt_flash.c:32-51`) |
| `promptFileCheckExist`           | `prompt_file_check_exist` (`:65-76`) |
| `promptAddrInfoGet`              | `prompt_addr_info_get` (`:79-110`) |

A list of names is an array up to its `NULL`. `flash` is what `flash_read` delivers as a `file_addr_info_t` from an
address, if it succeeds. The search compares as many characters as the asked name has, so a name matches every entry
that begins with it: `promptFileIndexGet_exact_iff` says for which names and lists that makes no difference.
-/

namespace AudioPlayer
open Lib

/-- `prompt_data_info_t`. -/
structure PromptDataInfo where
  promptFileArray : List (List Byte)
  addr            : BitVec 32
deriving DecidableEq

/-- `file_addr_info_t`. -/
structure FileAddrInfo where
  offset : BitVec 32
  len    : BitVec 32
deriving DecidableEq

def promptFileName1 : List (List Byte) :=
  ["AlmDeleteOk.mp3", "AlmFull.mp3", "AlmNull.mp3", "AlmReminder.mp3", "AlmSetFail.mp3", "AlmSetSuccess.mp3",
   "AlmTimeInvalid.mp3", "AlmTimePass.mp3", "AlmTimeSame.mp3", "BfEnterLpRemind.mp3", "canNotCol.mp3",
   "Colted.mp3", "StartUp.mp3", "charge_prompt.mp3"].map bytes

def promptFileName2 : List (List Byte) :=
  ["DeviceLock.mp3", "DeviceUnlock.mp3", "Ding.mp3", "HasNw.mp3", "LikeNull.mp3", "LKTranslate.mp3",
   "LKWechat.mp3", "LongKey.mp3", "LPEnter.mp3", "LpPmpt.mp3", "Song.mp3", "Story.mp3", "CHstudio.mp3",
   "English.mp3", "MinVolumn.mp3", "MaxVolumn.mp3"].map bytes

def promptFileName3 : List (List Byte) :=
  ["LPWake.mp3", "noMountTfCard.mp3", "NoNw.mp3", "NoNwCfg.mp3", "NwBad.mp3", "NwCfg.mp3", "NwCfgFai.mp3",
   "NwCfging.mp3", "NwCfgOk.mp3", "NwCnted.mp3", "NwCntF.mp3", "NwDisCnt.mp3", "ImHere.mp3"].map bytes

def promptFileName4 : List (List Byte) :=
  ["NwReCnted.mp3", "PleaseUnlock.mp3", "readyPlayColList.mp3", "readyPlayLocalRes.mp3", "RequestTimeout.mp3",
   "StyNoSpt.mp3", "tfCardNoRes.mp3", "TfCardPullOut.mp3", "UgFail.mp3", "UgStart.mp3", "UgSuc.mp3",
   "WechatMsgIn.mp3", "WechatMsgSend.mp3", "WechatUnread.mp3"].map bytes

/-- `data_info` (`prompt_flash.c:14-17`), with the bases of `flash_access.h:7-10`. -/
def promptDataInfo : List PromptDataInfo :=
  [⟨promptFileName1, 0x00000000#32⟩, ⟨promptFileName2, 0x40000000#32⟩, ⟨promptFileName3, 0x80000000#32⟩,
   ⟨promptFileName4, 0xC0000000#32⟩]

/-- `ROM_BASE` (`flash_access.h:6`). -/
def romBase : BitVec 32 := 0

/-- `FILE_ADDR_INFO_LEN`. -/
def fileAddrInfoLen : Nat := 8

/-- The comparison of the search (`prompt_flash.c:37`): `len` is the `int` that `strlen` is converted to
(`:23`), and converted back to `size_t`. -/
def promptMatches (abi : Abi) (fileName entry : List Byte) : Bool :=
  strncmp0 fileName entry (toSize abi (toI32 (cstr fileName).length))

/-- Where the `while` stops in a list, from entry `count` on. -/
def promptListStop (abi : Abi) (fileName : List Byte) : List (List Byte) → Nat → Nat
  | [], count => count
  | entry :: entries, count =>
    if promptMatches abi fileName entry then count else promptListStop abi fileName entries (count + 1)

/-- The `for` over the lists, from list `index` on: `*data_index` and `*file_index`. -/
def promptSearch (abi : Abi) (fileName : List Byte) : List PromptDataInfo → Nat → Option (Nat × Nat)
  | [], _ => none
  | info :: infos, index =>
    let count := promptListStop abi fileName info.promptFileArray 0
    if info.promptFileArray[count]? = none then promptSearch abi fileName infos (index + 1) else some (index, count)

/-- `prompt_file_index_get`: the return value, and the two indices where they are written. `strlen(NULL)` has no
value. -/
def promptFileIndexGet (abi : Abi) (infos : List PromptDataInfo) (fileName : Option (List Byte)) :
    Option (Int × Option (Nat × Nat)) := do
  match promptSearch abi (← fileName) infos 0 with
  | none => some (-1, none)
  | some found => some (0, some found)

/-- `prompt_file_check_exist`. -/
def promptFileCheckExist (abi : Abi) (infos : List PromptDataInfo) (fileName : Option (List Byte)) : Option Bool := do
  let (ret, _) ← promptFileIndexGet abi infos fileName
  some (ret ≠ -1)

/-- `prompt_addr_info_get` with both destinations given: the return value, and what is written to them. -/
def promptAddrInfoGet (abi : Abi) (infos : List PromptDataInfo) (flash : BitVec 32 → Option FileAddrInfo)
    (fileName : Option (List Byte)) : Option (Int × Option (BitVec 32 × BitVec 32)) :=
  if fileName = none then some (-1, none)
  else do
    let (ret, found) ← promptFileIndexGet abi infos fileName
    if ret ≠ 0 then some (-1, none)
    else
      let (dataIndex, fileIndex) := found.getD (0, 0)
      let info ← infos[dataIndex]?
      match flash (info.addr + BitVec.ofNat 32 (fileIndex * fileAddrInfoLen)) with
      | none => some (-1, none)
      | some fileAddr => some (0, some (fileAddr.offset + info.addr - romBase, fileAddr.len))

/-! ## The first entry of several lists -/

section
variable {α : Type*} {p q : α → Bool} {lists : List (List α)} {i j : Nat} {x : α}

/-- `x` is entry `j` of list `i`, and the first of all entries that `p` is true of. -/
structure FirstEntry (p : α → Bool) (lists : List (List α)) (i j : Nat) (x : α) : Prop where
  entry  : ∃ list, lists[i]? = some list ∧ list[j]? = some x
  holds  : p x
  before : ∀ y ∈ (lists.take i).flatten, p y = false
  above  : ∀ list, lists[i]? = some list → ∀ y ∈ list.take j, p y = false

/-- It is the first also when the lists are one. -/
theorem FirstEntry.find (h : FirstEntry p lists i j x) : lists.flatten.find? p = some x := by
  obtain ⟨list, hlist, hx⟩ := h.entry
  have hsplit : lists = lists.take i ++ list :: lists.drop (i + 1) := by
    obtain ⟨hi, rfl⟩ := List.getElem?_eq_some_iff.1 hlist
    rw [List.getElem_cons_drop, List.take_append_drop]
  have hcut : list = list.take j ++ x :: list.drop (j + 1) := by
    obtain ⟨hj, rfl⟩ := List.getElem?_eq_some_iff.1 hx
    rw [List.getElem_cons_drop, List.take_append_drop]
  have habove := h.above list hlist
  rw [hsplit, List.flatten_append, List.flatten_cons, List.find?_append, List.find?_append, hcut, List.find?_append,
    List.find?_eq_none.2 (by simpa using h.before), List.find?_eq_none.2 (by simpa using habove),
    List.find?_cons_of_pos h.holds]
  rfl

theorem FirstEntry.mem (h : FirstEntry p lists i j x) : x ∈ lists.flatten := List.mem_of_find?_eq_some h.find

/-- At one place there is one entry. -/
theorem FirstEntry.at_eq {x' : α} (h : FirstEntry p lists i j x) (h' : FirstEntry q lists i j x') : x = x' := by
  obtain ⟨list, hlist, hx⟩ := h.entry
  obtain ⟨list', hlist', hx'⟩ := h'.entry
  rw [hlist] at hlist'
  obtain rfl := Option.some.inj hlist'
  rw [hx] at hx'
  exact Option.some.inj hx'

theorem FirstEntry.le {i' j' : Nat} {x' : α} (h : FirstEntry p lists i j x) (h' : FirstEntry p lists i' j' x') :
    i ≤ i' ∧ (i = i' → j ≤ j') := by
  obtain ⟨list, hlist, hx⟩ := h'.entry
  have hholds := h'.holds
  constructor
  · by_contra hlt
    have hmem : list ∈ lists.take i := by
      rw [List.mem_take_iff_getElem]
      obtain ⟨hi, rfl⟩ := List.getElem?_eq_some_iff.1 hlist
      exact ⟨i', by omega, rfl⟩
    rw [h.before x' (List.mem_flatten.2 ⟨list, hmem, List.mem_of_getElem? hx⟩)] at hholds
    cases hholds
  · rintro rfl
    by_contra hlt
    have hmem : x' ∈ list.take j := by
      rw [List.mem_take_iff_getElem]
      obtain ⟨hj, rfl⟩ := List.getElem?_eq_some_iff.1 hx
      exact ⟨j', by omega, rfl⟩
    rw [h.above list hlist x' hmem] at hholds
    cases hholds

/-- Two firsts are one. -/
theorem FirstEntry.unique {i' j' : Nat} {x' : α} (h : FirstEntry p lists i j x) (h' : FirstEntry p lists i' j' x') :
    i = i' ∧ j = j' := by
  obtain ⟨hi, hj⟩ := h.le h'
  obtain ⟨hi', hj'⟩ := h'.le h
  have heq : i = i' := by omega
  exact ⟨heq, Nat.le_antisymm (hj heq) (hj' heq.symm)⟩

/-- It is also the first that `q` is true of, where `q` is true of it and of no entry that `p` is false of. -/
theorem FirstEntry.narrow (h : FirstEntry p lists i j x) (hqp : ∀ y, q y → p y) (hx : q x) :
    FirstEntry q lists i j x where
  entry := h.entry
  holds := hx
  before y hy := by
    have := h.before y hy
    by_contra hq
    rw [hqp y (by simpa using hq)] at this
    cases this
  above list hlist y hy := by
    have := h.above list hlist y hy
    by_contra hq
    rw [hqp y (by simpa using hq)] at this
    cases this

end

/-! ## What the search finds -/

section
variable {abi : Abi} {infos : List PromptDataInfo} {fileName : List Byte}

/-- The lists of names. -/
def promptNames (infos : List PromptDataInfo) : List (List (List Byte)) := infos.map PromptDataInfo.promptFileArray

/-- The entry is the name. -/
def promptNamed (fileName entry : List Byte) : Bool := decide (cstr entry = cstr fileName)

theorem promptListStop_eq (entries : List (List Byte)) (count : Nat) :
    promptListStop abi fileName entries count = count + entries.findIdx (promptMatches abi fileName) := by
  induction entries generalizing count with
  | nil => rfl
  | cons entry entries ih =>
    rw [promptListStop, ih, List.findIdx_cons]
    cases promptMatches abi fileName entry with
    | true => rfl
    | false =>
      simp only [Bool.false_eq_true, if_false, cond_false]
      omega

/-- The loops stop at the first entry that matches. -/
theorem promptSearch_spec (abi : Abi) (fileName : List Byte) (infos : List PromptDataInfo) (index : Nat) :
    promptSearch abi fileName infos index = none ∧
        (∀ entry ∈ (promptNames infos).flatten, promptMatches abi fileName entry = false) ∨
      ∃ i j x, promptSearch abi fileName infos index = some (index + i, j) ∧
        FirstEntry (promptMatches abi fileName) (promptNames infos) i j x := by
  induction infos generalizing index with
  | nil => exact .inl ⟨rfl, by simp [promptNames]⟩
  | cons info infos ih =>
    have hstop := @promptListStop_eq abi fileName info.promptFileArray 0
    rw [Nat.zero_add] at hstop
    by_cases hfound : info.promptFileArray.findIdx (promptMatches abi fileName) < info.promptFileArray.length
    · right
      refine ⟨0, _, _, ?_, ⟨_, rfl, List.getElem?_eq_getElem hfound⟩, List.findIdx_getElem, by simp, ?_⟩
      · simp only [promptSearch, hstop]
        rw [if_neg (by rw [List.getElem?_eq_getElem hfound]; simp)]
        rfl
      · rintro list hlist y hy
        obtain rfl : info.promptFileArray = list := by simpa [promptNames] using hlist
        obtain ⟨k, hk, rfl⟩ := List.mem_take_iff_getElem.1 hy
        exact List.not_of_lt_findIdx (by omega)
    · have hnone : ∀ entry ∈ info.promptFileArray, promptMatches abi fileName entry = false := by
        have := List.findIdx_eq_length.1 (Nat.le_antisymm List.findIdx_le_length (by omega) :
          info.promptFileArray.findIdx (promptMatches abi fileName) = info.promptFileArray.length)
        simpa using this
      have hgo : promptSearch abi fileName (info :: infos) index = promptSearch abi fileName infos (index + 1) := by
        simp only [promptSearch, hstop]
        rw [if_pos (List.getElem?_eq_none (by omega))]
      rw [hgo]
      rcases ih (index + 1) with ⟨hsearch, hall⟩ | ⟨i, j, x, hsearch, hfirst⟩
      · refine .inl ⟨hsearch, ?_⟩
        intro entry hentry
        rw [promptNames, List.map_cons, List.flatten_cons, List.mem_append] at hentry
        exact hentry.elim (hnone entry) (hall entry)
      · refine .inr ⟨i + 1, j, x, by rw [hsearch, Nat.add_assoc, Nat.add_comm 1 i], ?_⟩
        obtain ⟨hentry, hholds, hbefore, habove⟩ := hfirst
        refine ⟨hentry, hholds, ?_, habove⟩
        intro y hy
        rw [promptNames, List.map_cons, List.take_succ_cons, List.flatten_cons, List.mem_append] at hy
        exact hy.elim (hnone y) (hbefore y)

/-- A name whose length is an `int` matches the entries that begin with it. -/
theorem promptMatches_iff (entry : List Byte) (h : (cstr fileName).length < 2147483648) :
    promptMatches abi fileName entry ↔ cstr fileName <+: cstr entry := by
  rw [promptMatches, strncmp0, toI32_eq (by omega) (by omega), toSize_eq (by omega), List.take_length,
    decide_eq_true_eq, List.prefix_iff_eq_take]

/-- A name matches itself. -/
theorem promptMatches_of_named (entry : List Byte) (h : promptNamed fileName entry) :
    promptMatches abi fileName entry := by
  have heq : cstr entry = cstr fileName := by simpa [promptNamed] using h
  rw [promptMatches, strncmp0, heq]
  exact decide_eq_true rfl

/-- What asking for a name is for: the first entry that is the name is found, if there is one, and its record is
read. -/
structure PromptExact (abi : Abi) (infos : List PromptDataInfo) (fileName : List Byte) : Prop where
  missing : (∀ entry ∈ (promptNames infos).flatten, promptNamed fileName entry = false) →
    promptFileIndexGet abi infos (some fileName) = some (-1, none)
  found   : (∃ entry ∈ (promptNames infos).flatten, promptNamed fileName entry) →
    ∃ i j x, promptFileIndexGet abi infos (some fileName) = some (0, some (i, j)) ∧
      FirstEntry (promptNamed fileName) (promptNames infos) i j x
  exist   : promptFileCheckExist abi infos (some fileName) =
    some (decide (∃ entry ∈ (promptNames infos).flatten, promptNamed fileName entry))
  record  : ∀ i j x info, FirstEntry (promptNamed fileName) (promptNames infos) i j x → infos[i]? = some info →
    ∀ flash : BitVec 32 → Option FileAddrInfo, promptAddrInfoGet abi infos flash (some fileName) =
      match flash (info.addr + BitVec.ofNat 32 (j * fileAddrInfoLen)) with
      | none => some (-1, none)
      | some fileAddr => some (0, some (fileAddr.offset + info.addr - romBase, fileAddr.len))

/-- The first entry that matches the name, of all lists, is the name. -/
def FirstMatchIsName (abi : Abi) (infos : List PromptDataInfo) (fileName : List Byte) : Prop :=
  ∀ entry ∈ (promptNames infos).flatten.find? (promptMatches abi fileName), promptNamed fileName entry

instance : Decidable (FirstMatchIsName abi infos fileName) :=
  inferInstanceAs (Decidable (∀ entry ∈ (promptNames infos).flatten.find? (promptMatches abi fileName), _))

/-- **Which names are found exactly**: those of which the first entry that begins with them, as far as it is compared,
is the name itself. -/
theorem promptFileIndexGet_exact_iff (abi : Abi) (infos : List PromptDataInfo) (fileName : List Byte) :
    PromptExact abi infos fileName ↔ FirstMatchIsName abi infos fileName := by
  rcases promptSearch_spec abi fileName infos 0 with ⟨hsearch, hall⟩ | ⟨i, j, x, hsearch, hfirst⟩
  · have hget : promptFileIndexGet abi infos (some fileName) = some (-1, none) := by
      simp only [promptFileIndexGet, Option.bind_eq_bind, Option.bind_some, hsearch]
    have hnone : ∀ entry ∈ (promptNames infos).flatten, promptNamed fileName entry = false := by
      intro entry hentry
      by_contra hnamed
      have hmatch := @promptMatches_of_named abi fileName entry (by simpa using hnamed)
      rw [hall entry hentry] at hmatch
      cases hmatch
    have hno : ¬ ∃ entry ∈ (promptNames infos).flatten, promptNamed fileName entry := by
      rintro ⟨entry, hentry, hnamed⟩
      rw [hnone entry hentry] at hnamed
      cases hnamed
    constructor
    · intro _ entry hentry
      rw [List.find?_eq_none.2 (by simpa using hall)] at hentry
      cases hentry
    · intro _
      refine ⟨fun _ => hget, fun h => absurd h hno, ?_, fun i j x info h => absurd ⟨x, h.mem, h.holds⟩ hno⟩
      simp only [promptFileCheckExist, hget, Option.bind_eq_bind, Option.bind_some, hno]
      rfl
  · rw [Nat.zero_add] at hsearch
    have hget : promptFileIndexGet abi infos (some fileName) = some (0, some (i, j)) := by
      simp only [promptFileIndexGet, Option.bind_eq_bind, Option.bind_some, hsearch]
    constructor
    · intro hexact entry hentry
      rw [hfirst.find, Option.mem_some_iff] at hentry
      subst hentry
      by_cases hex : ∃ entry ∈ (promptNames infos).flatten, promptNamed fileName entry
      · obtain ⟨i', j', x', hget', hfirst'⟩ := hexact.found hex
        rw [hget] at hget'
        obtain ⟨rfl, rfl⟩ : i = i' ∧ j = j' := by simpa using hget'
        rw [hfirst.at_eq hfirst']
        exact hfirst'.holds
      · -- something was found, and nothing is there
        have hmiss := hexact.missing (by simpa using hex)
        rw [hget] at hmiss
        simp at hmiss
    · intro hname
      have hnamed : promptNamed fileName x := hname x (by rw [hfirst.find]; rfl)
      have hfirst' := hfirst.narrow (fun y => promptMatches_of_named y) hnamed
      have hex : ∃ entry ∈ (promptNames infos).flatten, promptNamed fileName entry := ⟨x, hfirst.mem, hnamed⟩
      refine ⟨?_, fun _ => ⟨i, j, x, hget, hfirst'⟩, ?_, ?_⟩
      · intro hall
        rw [hall x hfirst.mem] at hnamed
        cases hnamed
      · simp only [promptFileCheckExist, hget, Option.bind_eq_bind, Option.bind_some, hex]
        rfl
      · intro i' j' x' info h' hinfo flash
        obtain ⟨rfl, rfl⟩ := hfirst'.unique h'
        simp only [promptAddrInfoGet, hget, Option.bind_eq_bind, Option.bind_some, reduceCtorEq, if_false, ne_eq,
          not_true, Option.getD_some, hinfo]

/-- Every prompt of the firmware is found under its own name. -/
theorem promptDataInfo_exact :
    ∀ info ∈ promptDataInfo, ∀ name ∈ info.promptFileArray, PromptExact .ilp32 promptDataInfo name := by
  have hnames : ∀ info ∈ promptDataInfo, ∀ name ∈ info.promptFileArray,
      FirstMatchIsName .ilp32 promptDataInfo name := by decide +kernel
  exact fun info hinfo name hname => (promptFileIndexGet_exact_iff _ _ _).2 (hnames info hinfo name hname)

/-- No prompt is called `Alm`, and the first one, `AlmDeleteOk.mp3`, is found for it. -/
theorem promptFileIndexGet_beginning :
    promptFileIndexGet .ilp32 promptDataInfo (some (bytes "Alm")) = some (0, some (0, 0)) ∧
      ¬ PromptExact .ilp32 promptDataInfo (bytes "Alm") := by
  have hget : promptFileIndexGet .ilp32 promptDataInfo (some (bytes "Alm")) = some (0, some (0, 0)) := by
    decide +kernel
  refine ⟨hget, fun hexact => ?_⟩
  have hmiss := hexact.missing (by decide +kernel)
  rw [hget] at hmiss
  simp at hmiss

end

end AudioPlayer
