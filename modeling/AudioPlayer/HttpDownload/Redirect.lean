import Mathlib
import AudioPlayer.HttpDownload.Location
import AudioPlayer.HttpDownload.Resources
import AudioPlayer.HttpDownload.Outcomes

/-!
# Where a redirect leads (`utils/http_download_process.c:18-66`, `:237-260`, `:495-518`)

The location is copied by `strncpy` over its length into a block of one byte more, so the byte behind it is whatever
the heap held: the URL that is connected to goes on to the next NUL. And it is rewritten at every connect, so that a
second try of `httpss` is with another URL. `redirect_follows` says when it is the URL the answer gave, `redirected_run`
that every later try of the download uses the one that was found, if the rewriting leaves it.

| here | there |
|---|---|
| `UrlUse`               | a call of `httpclient_connect` or of `httpclient_send_request`, with the string it is given |
| `httpDownloadConnUses` | those of `http_download_proc_conn` |
| `httpDownloadUses`     | those of a whole action |
-/

namespace AudioPlayer
open Lib

variable {cap : Nat}

inductive UrlUse
  | connect (url : List Byte)
  | request (url : List Byte)
deriving DecidableEq, Repr

def UrlUse.url : UrlUse → List Byte
  | .connect url | .request url => url

/-- A leading `https` loses its `s`. -/
def httpsToHttp (url : List Byte) : List Byte :=
  if caseEq (url.take 5) (bytes "https") then url.take 4 ++ url.drop 5 else url

/-- The connect, where there is one, and the request. -/
def httpDownloadConnUses (env : HttpEnv) (p : HttpDownloadProc cap) : List UrlUse :=
  if p.url = none ∨ p.httpBuffer = none then []
  else
    let (ret, q) := httpDownloadProcOpenClient env p
    let url := cstr (q.url.getD [])
    (if p.httpOpened then [] else [.connect url]) ++ if ret = .success then [.request url] else []

def httpDownloadUses (env : HttpEnv) : HttpDownloadAction → HttpDownloadProc cap → List UrlUse
  | .start, p =>
    let (ret, p) := httpDownloadProcStart env p
    if ret = .success then httpDownloadConnUses env { p with lastError := ret } else []
  | .conn, p => httpDownloadConnUses env p
  | .recvPoll, p =>
    let (ret, p) := httpDownloadProcRecv env p
    if ret = .errRecv ∨ ret = .redirect then
      httpDownloadConnUses env (httpDownloadProcCloseClient { p with lastError := ret })
    else []
  | .waitRangePoll, p =>
    if httpDownloadWaitRange p = .success then
      httpDownloadConnUses env { p with lastError := httpDownloadWaitRange p }
    else []
  | .stop, _ | .pause, _ | .waitFreePoll, _ => []

/-- The calls of a turn. -/
def DownloadSys.uses (s : DownloadSys cap) (env : HttpEnv) (E : Word) : List UrlUse :=
  match httpDownloadSelect s.curState E with
  | none => []
  | some a => httpDownloadUses env a s.proc

def DownloadAct.uses (s : DownloadSys cap) : DownloadAct → List UrlUse
  | .turn pause resume env => s.uses env (downloadEvents false false pause resume)
  | .pop _ => []

/-- The step makes no request. -/
def DownloadAct.Tries (s : DownloadSys cap) (a : DownloadAct) : Prop := ∀ url, .request url ∉ a.uses s

/-- The turn connects to `u` and asks for `u`; where the connect is refused, so does every later step up to the
first that makes a request. -/
def DownloadSys.Follows (answers : HttpRequest → HttpReply → Prop) (s : DownloadSys cap) (env : HttpEnv) (E : Word)
    (u : List Byte) : Prop :=
  (∀ w ∈ s.uses env E, w.url = u) ∧
  ((∀ url, .request url ∉ s.uses env E) → ∀ acts t a t',
    Steps (Restrict (DownloadStep answers) DownloadAct.Tries) (s.turn env E) acts t → DownloadStep answers t a t' →
      ∀ w ∈ a.uses t, w.url = u)

/-- What the parser takes for the location: the value of the last field whose name is taken for it and that fits. -/
def Head.location (h : Head) : List Byte := (lastOf HeadField.notedLocation h.fields).getD []

/-- The head of a redirect to `v`, which the parser does not miss. -/
structure Redirects (h : Head) (v : List Byte) : Prop where
  given  : ∃ f ∈ h.fields, caseEq f.name locationName ∧ f.value = v
  length : 1 ≤ v.length ∧ v.length ≤ 511
  seen   : h.location ≠ []

/-- The turn receives the redirect, the first that is to be followed. -/
structure ReceivesRedirect (s : DownloadSys cap) (env : HttpEnv) (h : Head) (v : List Byte) : Prop where
  state    : s.curState = httpDownloadStaRecv
  direct   : s.proc.redirect = false
  answer   : Redirects h v
  received : env.recvRet.failed = false
  /-- What the call says of the answer, whatever follows its head. -/
  call     : ∃ body sock ext expired code code' left, s.proc.clientData.isMore = false ∧
    s.proc.clientData.ext = some ext ∧ sock.bytes = h.encode ++ body ∧
    httpclientRecvResponse expired code s.proc.clientData (some sock) = some (env.recvRet, code', env.recvData, left)

/-- The location `w` and what the heap holds behind its copy up to a NUL, `g`, make up `v`: `w` is `v` with nothing
behind it, or with the `s` that the rewriting takes off again, or another field's value that is completed to `v`. -/
def Spells (v w g : List Byte) : Prop :=
  w = v ∧ (g = [] ∨ caseEq v (bytes "http") ∧ caseEq g (bytes "s")) ∨ w ≠ v ∧ httpsToHttp (w ++ g) = httpsToHttp v

/-- The connect of the turn is refused, and not for the last time. -/
structure DownloadSys.Refused (s : DownloadSys cap) (env : HttpEnv) : Prop where
  connect : env.connect ≠ .ok
  again   : s.proc.errConnCount + 1 < httpDownloadMaxErrConnCount

/-! ## The URL as a string -/

section
variable {url v g : List Byte}

theorem zero_notMem_cstr (s : List Byte) : (0 : Byte) ∉ cstr s := fun hm => by
  simpa using List.mem_takeWhile_imp hm

/-- A buffer is a string, and then nothing or the NUL and more. -/
theorem cstr_split (s : List Byte) : s = cstr s ∨ ∃ t, s = cstr s ++ 0 :: t := by
  induction s with
  | nil => exact .inl rfl
  | cons b s ih =>
    by_cases hb : b = 0
    · subst hb
      exact .inr ⟨s, rfl⟩
    · have hcons : cstr (b :: s) = b :: cstr s := List.takeWhile_cons_of_pos (by simpa using hb)
      rw [hcons]
      rcases ih with hs | ⟨t, hs⟩
      · exact .inl (congrArg (b :: ·) hs)
      · exact .inr ⟨t, congrArg (b :: ·) hs⟩

theorem caseEq_length_eq {a b : List Byte} (h : caseEq a b) : a.length = b.length := by
  have hlen := congrArg List.length h
  rwa [List.length_map, List.length_map] at hlen

/-- Whether a string starts with `https` does not depend on what is behind its NUL. -/
theorem https_cstr (s : List Byte) : caseEq (s.take 5) (bytes "https") ↔ caseEq ((cstr s).take 5) (bytes "https") := by
  rcases cstr_split s with hs | ⟨t, hs⟩
  · rw [← hs]
  by_cases hlen : 5 ≤ (cstr s).length
  · have htake : s.take 5 = (cstr s).take 5 := by
      conv_lhs => rw [hs]
      exact List.take_append_of_le_length hlen
    rw [htake]
  · constructor
    · intro h
      have hzero : (0 : Byte) ∈ s.take 5 := by
        rw [hs, List.take_append, List.take_of_length_le (by omega), List.mem_append]
        obtain ⟨n, hn⟩ : ∃ n, 5 - (cstr s).length = n + 1 := ⟨4 - (cstr s).length, by omega⟩
        rw [hn, List.take_succ_cons]
        exact .inr (.head _)
      have hlower : toLower 0 ∈ (bytes "https").map toLower := h ▸ List.mem_map_of_mem hzero
      exact absurd hlower (by decide)
    · intro h
      have hfive := caseEq_length_eq h
      have : (bytes "https").length = 5 := by decide
      rw [List.length_take] at hfive
      omega

/-- The rewriting sees the string only. -/
theorem cstr_preprocess (url : List Byte) :
    cstr (httpDownloadProcUrlPreprocess url) = httpDownloadProcUrlPreprocess (cstr url) := by
  have hno := zero_notMem_cstr url
  have hparts : ∀ n m, (0 : Byte) ∉ (cstr url).take n ++ (cstr url).drop m := fun n m hm => by
    rcases List.mem_append.1 hm with hm | hm
    · exact hno (List.mem_of_mem_take hm)
    · exact hno (List.mem_of_mem_drop hm)
  unfold httpDownloadProcUrlPreprocess
  by_cases hhttps : caseEq (url.take 5) (bytes "https")
  · have hcstr := (https_cstr url).1 hhttps
    have hfive := caseEq_length_eq hcstr
    rw [List.length_take, show (bytes "https").length = 5 by decide] at hfive
    rw [if_pos hhttps, if_pos hcstr]
    rcases cstr_split url with hs | ⟨t, hs⟩
    · rw [← hs]
      refine cstr_eq_self ?_
      split
      · rw [List.eraseIdx_eq_take_drop_succ, hs]
        exact hparts _ _
      · rw [hs]
        intro hm
        rcases List.mem_append.1 hm with hm | hm
        · exact hno (List.mem_of_mem_take hm)
        rcases List.mem_append.1 hm with hm | hm
        · exact hno (List.mem_of_mem_drop (List.mem_of_mem_take hm))
        · exact hno (List.mem_of_mem_drop hm)
    generalize cstr url = c at hs hno hparts hfive
    subst hs
    have htake : (c ++ 0 :: t).take 4 = c.take 4 := List.take_append_of_le_length (by omega)
    have hdrop : (c ++ 0 :: t).drop 5 = c.drop 5 ++ 0 :: t := List.drop_append_of_le_length (by omega)
    rw [List.eraseIdx_eq_take_drop_succ, List.eraseIdx_eq_take_drop_succ, htake, hdrop]
    by_cases hshort : c.length < 2048
    · rw [if_pos hshort]
      -- the NUL is among the bytes that are moved
      have hmoved : ∀ t', cstr (c.take 4 ++ (c.drop 5 ++ 0 :: t')) = c.take 4 ++ c.drop 5 := by
        intro t'
        rw [← List.append_assoc, cstr_append (hparts 4 5)]
        exact List.append_nil _
      split
      · exact hmoved t
      · obtain ⟨n, hn⟩ : ∃ n, 2043 - (c.drop 5).length = n + 1 :=
          ⟨2042 - (c.drop 5).length, by rw [List.length_drop]; omega⟩
        have hall : (c.drop 5).take 2043 = c.drop 5 := List.take_of_length_le (by rw [List.length_drop]; omega)
        rw [List.take_append, hall, hn, List.take_succ_cons, List.append_assoc, List.cons_append]
        exact hmoved _
    · rw [if_neg hshort, if_neg (by rw [List.length_append]; omega), List.take_append_of_le_length
        (by rw [List.length_drop]; omega), List.drop_append_of_le_length (by omega), ← List.append_assoc,
        ← List.append_assoc, ← List.append_assoc, cstr_append]
      · exact List.append_nil _
      · intro hm
        rcases List.mem_append.1 hm with hm | hm
        · rcases List.mem_append.1 hm with hm | hm
          · exact hno (List.mem_of_mem_take hm)
          · exact hno (List.mem_of_mem_drop (List.mem_of_mem_take hm))
        · exact hno (List.mem_of_mem_drop hm)
  · rw [if_neg hhttps, if_neg fun h => hhttps ((https_cstr url).2 h)]

theorem preprocess_eq (h : url.length < 2048) : httpDownloadProcUrlPreprocess url = httpsToHttp url := by
  unfold httpDownloadProcUrlPreprocess httpsToHttp
  rw [if_pos h, List.eraseIdx_eq_take_drop_succ]

theorem httpsToHttp_length (url : List Byte) : (httpsToHttp url).length =
    if caseEq (url.take 5) (bytes "https") then url.length - 1 else url.length := by
  unfold httpsToHttp
  split
  · rename_i h
    have hfive := caseEq_length_eq h
    rw [List.length_take, show (bytes "https").length = 5 by decide] at hfive
    rw [List.length_append, List.length_take, List.length_drop]
    omega
  · rfl

theorem preprocess_length (url : List Byte) : (httpDownloadProcUrlPreprocess url).length =
    if caseEq (url.take 5) (bytes "https") ∧ url.length < 2048 then url.length - 1 else url.length := by
  by_cases hshort : url.length < 2048
  · rw [preprocess_eq hshort, httpsToHttp_length]
    simp only [hshort, and_true]
  · rw [if_neg fun h => hshort h.2]
    unfold httpDownloadProcUrlPreprocess
    split
    · simp only [List.length_append, List.length_take, List.length_drop]
      omega
    · rfl

theorem caseEq_append {a b c d : List Byte} (h : caseEq (a ++ b) (c ++ d)) (hlen : a.length = c.length) :
    caseEq a c ∧ caseEq b d := by
  unfold caseEq at h
  rw [List.map_append, List.map_append] at h
  exact List.append_inj h (by rw [List.length_map, List.length_map]; exact hlen)

/-- What follows a copied location is harmless only if there is nothing, or the `s` that is taken off again. -/
theorem preprocess_iff (hv : v.length < 2048) : httpDownloadProcUrlPreprocess (v ++ g) = httpsToHttp v ↔
    g = [] ∨ caseEq v (bytes "http") ∧ caseEq g (bytes "s") := by
  have hhttps : bytes "https" = bytes "http" ++ bytes "s" := by decide
  have hfour : (bytes "http").length = 4 := by decide
  have hone : (bytes "s").length = 1 := by decide
  constructor
  · intro heq
    have hlen := congrArg List.length heq
    rw [preprocess_length, httpsToHttp_length, List.length_append] at hlen
    by_cases hg : g.length = 0
    · exact .inl (List.length_eq_zero_iff.1 hg)
    by_cases hlong : 5 ≤ v.length
    · -- the first five bytes are those of the location, so the lengths differ
      rw [List.take_append_of_le_length hlong] at hlen
      split at hlen <;> split at hlen <;> first | omega | tauto
    · have hshort : ¬ caseEq (v.take 5) (bytes "https") := fun h => by
        have hfive := caseEq_length_eq h
        rw [hhttps, List.length_append, List.length_take] at hfive
        omega
      rw [if_neg hshort] at hlen
      split at hlen
      · rename_i h
        have hfive := caseEq_length_eq h.1
        rw [hhttps, List.length_append, List.length_take, List.length_append] at hfive
        have hall : (v ++ g).take 5 = v ++ g := List.take_of_length_le (by rw [List.length_append]; omega)
        rw [hall, hhttps] at h
        exact .inr (caseEq_append h.1 (by omega))
      · omega
  · rintro (rfl | ⟨hv4, hg1⟩)
    · rw [List.append_nil]
      exact preprocess_eq hv
    · have hvlen := caseEq_length_eq hv4
      have hglen := caseEq_length_eq hg1
      have htake : (v ++ g).take 5 = v ++ g := List.take_of_length_le (by rw [List.length_append]; omega)
      have hcase : caseEq ((v ++ g).take 5) (bytes "https") := by
        rw [htake, hhttps]
        unfold caseEq at hv4 hg1 ⊢
        rw [List.map_append, List.map_append, hv4, hg1]
      rw [preprocess_eq (by rw [List.length_append]; omega)]
      unfold httpsToHttp
      rw [if_pos hcase, if_neg fun h => by
        have hfive := caseEq_length_eq h
        rw [hhttps, List.length_append, List.length_take] at hfive
        omega]
      rw [List.take_append_of_le_length (by omega), List.take_of_length_le (by omega),
        List.drop_of_length_le (by rw [List.length_append]; omega), List.append_nil]

theorem httpsToHttp_eq_self : httpsToHttp url = url ↔ ¬ caseEq (url.take 5) (bytes "https") := by
  constructor
  · intro heq hhttps
    have hlen := congrArg List.length heq
    have hfive := caseEq_length_eq hhttps
    rw [httpsToHttp_length, if_pos hhttps] at hlen
    rw [List.length_take, show (bytes "https").length = 5 by decide] at hfive
    omega
  · intro hplain
    unfold httpsToHttp
    rw [if_neg hplain]

/-- What was rewritten is rewritten again where a second `s` follows. -/
theorem httpsToHttp_twice : httpsToHttp (httpsToHttp v) = httpsToHttp v ↔ ¬ caseEq (v.take 6) (bytes "httpss") := by
  have hsix : bytes "httpss" = bytes "https" ++ bytes "s" := by decide
  have hfive : bytes "https" = bytes "http" ++ bytes "s" := by decide
  have hsplit : v.take 6 = v.take 5 ++ (v.drop 5).take 1 := by
    rw [← List.take_add]
  rw [httpsToHttp_eq_self, not_iff_not]
  by_cases hhttps : caseEq (v.take 5) (bytes "https")
  · have hlen := caseEq_length_eq hhttps
    rw [List.length_take, show (bytes "https").length = 5 by decide] at hlen
    have hfour : (v.take 4).length = 4 := by
      rw [List.length_take]
      omega
    have htake : (httpsToHttp v).take 5 = v.take 4 ++ (v.drop 5).take 1 := by
      unfold httpsToHttp
      rw [if_pos hhttps, List.take_append, List.take_of_length_le (by omega), hfour]
    have hhead : caseEq (v.take 4) (bytes "http") := by
      rw [hfive, show v.take 5 = v.take 4 ++ (v.drop 4).take 1 by rw [← List.take_add]] at hhttps
      exact (caseEq_append hhttps hfour).1
    rw [htake, hsplit, hfive, hsix]
    unfold caseEq at hhead hhttps ⊢
    rw [List.map_append, List.map_append, List.map_append, List.map_append, hhead, hhttps, List.append_right_inj,
      List.append_right_inj]
  · have hsame : httpsToHttp v = v := httpsToHttp_eq_self.2 hhttps
    rw [hsame]
    refine iff_of_false hhttps fun htwice => ?_
    have hlen := caseEq_length_eq htwice
    rw [List.length_take, show (bytes "httpss").length = 6 by decide] at hlen
    rw [hsplit, hsix] at htwice
    refine hhttps (caseEq_append htwice ?_).1
    rw [List.length_take, show (bytes "https").length = 5 by decide]
    omega

/-- What the turn connects to is the URL that was given exactly where the location and the heap spell it. -/
theorem spells_iff {w : List Byte} (hv : v.length < 512) :
    httpDownloadProcUrlPreprocess (w ++ g) = httpsToHttp v ↔ Spells v w g := by
  unfold Spells
  by_cases hw : w = v
  · subst hw
    rw [preprocess_iff (by omega)]
    simp
  · rw [and_iff_right hw, or_iff_right fun h => hw h.1]
    by_cases hshort : (w ++ g).length < 2048
    · rw [preprocess_eq hshort]
    · have hlen := preprocess_length (w ++ g)
      rw [if_neg fun h => hshort h.2] at hlen
      have hlen' := httpsToHttp_length (w ++ g)
      have hlenv := httpsToHttp_length v
      constructor
      · intro heq
        rw [heq] at hlen
        split at hlenv <;> omega
      · intro heq
        rw [heq] at hlen'
        split at hlen' <;> split at hlenv <;> omega

end

/-! ## The turn of the redirect -/

section
variable {s : DownloadSys cap} {p q : HttpDownloadProc cap} {env : HttpEnv} {h : Head} {u v : List Byte} {start resume : Bool}

theorem Redirects.noted (ha : Redirects h v) : lastOf HeadField.notedLocation h.fields = some h.location := by
  have hseen := ha.seen
  unfold Head.location at hseen ⊢
  cases hlast : lastOf HeadField.notedLocation h.fields with
  | none => exact absurd (by rw [hlast]; rfl) hseen
  | some w => rfl

/-- The location that is noted has no NUL in it. -/
theorem Redirects.no_nul (ha : Redirects h v) : (0 : Byte) ∉ h.location := by
  obtain ⟨f, -, hf⟩ := lastOf_mem ha.noted
  unfold HeadField.notedLocation at hf
  split at hf
  · rw [← Option.some.inj hf]
    exact value_no_nul f
  · cases hf

/-- The call leaves the location the answer gives. -/
theorem ReceivesRedirect.location (hr : ReceivesRedirect s env h v) :
    ∃ ext, env.recvData.ext = some ext ∧ ext.location = h.location := by
  obtain ⟨body, sock, ext, expired, code, code', left, hmore, hext, hbytes, hrun⟩ := hr.call
  have hloc := httpclientRecvResponse_location hmore hbytes hrun hr.received
  rw [hr.answer.noted] at hloc
  unfold HttpclientData.location at hloc
  rw [hext] at hloc
  exact Option.map_eq_some_iff.1 hloc

/-- What `http_download_proc_recv` makes of the redirect. -/
theorem ReceivesRedirect.recv (hr : ReceivesRedirect s env h v) : ∃ q : HttpDownloadProc cap,
    q.httpBuffer = s.proc.httpBuffer ∧ q.errConnCount = s.proc.errConnCount ∧
    httpDownloadProcRecv env s.proc = if env.malloc 0 then
      (.redirect, { q with url := some (h.location ++ env.urlRest), redirect := true })
      else (.errMalloc, { q with url := none }) := by
  obtain ⟨ext, hext, hloc⟩ := hr.location
  have hne := hr.answer.seen
  unfold httpDownloadProcRecv HttpDownloadProc.ext
  dsimp only
  rw [hr.received, if_neg Bool.false_ne_true, hext, Option.getD_some, hloc, hr.direct, if_pos (by simpa using hne)]
  refine ⟨{ s.proc with
    httpRet := env.recvRet
    clientData := env.recvData
    clientDataExt := some ext
    recvBuf := some env.recvData.responseBuf
    client := env.recvConn
    redirect := false }, rfl, rfl, rfl⟩

theorem closeClient_url (p : HttpDownloadProc cap) : (httpDownloadProcCloseClient p).url = p.url := by
  unfold httpDownloadProcCloseClient
  split <;> rfl

/-- Opening rewrites the URL, whether the peer accepts or not. -/
theorem openClient_url (hclosed : p.httpOpened = false) :
    (httpDownloadProcOpenClient env p).2.url = p.url.map httpDownloadProcUrlPreprocess := by
  unfold httpDownloadProcOpenClient
  rw [if_neg (by rw [hclosed]; exact Bool.false_ne_true)]
  split <;> rfl

/-- The calls where the client is closed: a connect, and a request if the peer accepts. -/
theorem connUses_closed {url : List Byte} (hclosed : p.httpOpened = false) (hurl : p.url = some url)
    (hbuf : p.httpBuffer ≠ none) : httpDownloadConnUses env p =
      .connect (cstr (httpDownloadProcUrlPreprocess url)) ::
        if env.connect = .ok then [.request (cstr (httpDownloadProcUrlPreprocess url))] else [] := by
  have hparam : ¬ (p.url = none ∨ p.httpBuffer = none) := by
    rintro (hnone | hnone)
    · rw [hurl] at hnone
      cases hnone
    · exact hbuf hnone
  unfold httpDownloadConnUses httpDownloadProcOpenClient
  rw [if_neg hparam, hclosed, if_neg Bool.false_ne_true]
  by_cases hok : env.connect = .ok
  · rw [if_neg (not_not.2 hok), if_pos hok, hurl]
    rfl
  · rw [if_pos hok, if_neg hok, hurl]
    dsimp only
    rw [if_neg Bool.false_ne_true, if_neg (by split <;> exact HttpDownloadProcReturn.noConfusion)]
    rfl

/-- A connect that is refused ends the download, or leaves it to be tried again. -/
theorem connAction_refused (hclosed : p.httpOpened = false) (hurl : p.url ≠ none) (hbuf : p.httpBuffer ≠ none)
    (hrefused : env.connect ≠ .ok) :
    (p.errConnCount + 1 < httpDownloadMaxErrConnCount → (httpDownloadProcConnAction env p).2 = comFsmHoldState ∧
      (httpDownloadProcConnAction env p).1.httpOpened = false ∧
      (httpDownloadProcConnAction env p).1.httpBuffer = p.httpBuffer) ∧
    (¬ p.errConnCount + 1 < httpDownloadMaxErrConnCount →
      (httpDownloadProcConnAction env p).2 = httpDownloadStaIdle) := by
  unfold httpDownloadProcConnAction httpDownloadProcConn httpDownloadProcOpenClient
  rw [if_neg (fun hnone => hnone.elim hurl hbuf), hclosed, if_neg Bool.false_ne_true, if_pos hrefused]
  constructor
  · intro hfew
    rw [if_neg (by omega)]
    exact ⟨rfl, closeClient_httpOpened, (SameData.closeClient _).httpBuffer⟩
  · intro hmany
    rw [if_pos (by omega)]
    rfl

theorem connAction_httpBuffer : (httpDownloadProcConnAction env p).1.httpBuffer = p.httpBuffer := by
  have hcases := connAction_cases env p
  generalize httpDownloadProcConnAction env p = res at hcases
  cases hcases with
  | sent hsame => exact hsame.httpBuffer
  | gaveUp hsame => exact hsame.httpBuffer
  | held hsame => exact hsame.httpBuffer

/-- Without a pause the turn runs `http_download_proc_recv_poll`. -/
theorem select_recv (hstate : s.curState = httpDownloadStaRecv) :
    httpDownloadSelect s.curState (downloadEvents start false false resume) = some .recvPoll := by
  have hidle : httpDownloadStaRecv ≠ httpDownloadStaIdle := by decide
  have hpause : httpDownloadStaRecv ≠ httpDownloadStaPause := by decide
  rw [hstate, select_download (by decide), if_neg fun h => hidle h.2, if_neg (by decide), if_neg (by decide),
    if_neg fun h => hpause h.2]
  rfl

/-- Nothing is pushed in that turn. -/
theorem ReceivesRedirect.pushed (hr : ReceivesRedirect s env h v) :
    (s.turn env (downloadEvents start false false resume)).proc.pushed = s.proc.pushed := by
  obtain ⟨q, hbuf, -, hrecv⟩ := hr.recv
  rw [turn_eq exit_downloadEvents, select_recv hr.state]
  dsimp only [DownloadSys.after, httpDownloadExec]
  unfold HttpDownloadProc.pushed httpDownloadProcRecvPoll
  rw [hrecv]
  cases env.malloc 0 with
  | false =>
    rw [if_neg Bool.false_ne_true]
    dsimp only
    rw [if_neg (by decide), if_neg (by decide), if_neg (by decide), (SameData.stop _).httpBuffer]
    dsimp only
    rw [hbuf]
  | true =>
    rw [if_pos rfl]
    dsimp only
    rw [if_neg (by decide), if_neg (by decide), if_pos (.inr rfl), connAction_httpBuffer, (SameData.closeClient _).httpBuffer]
    dsimp only
    rw [hbuf]

/-- The client is closed when the turn comes to its connect, and the URL is what was copied, with what follows it. -/
theorem ReceivesRedirect.exec (hr : ReceivesRedirect s env h v) :
    (env.malloc 0 = false → s.uses env (downloadEvents start false false resume) = [] ∧
      (s.turn env (downloadEvents start false false resume)).curState = httpDownloadStaIdle) ∧
    (env.malloc 0 = true → ∃ p : HttpDownloadProc cap, p.httpOpened = false ∧ p.redirect = true ∧
      p.url = some (h.location ++ env.urlRest) ∧ p.httpBuffer = s.proc.httpBuffer ∧
      p.errConnCount = s.proc.errConnCount ∧
      s.uses env (downloadEvents start false false resume) = httpDownloadConnUses env p ∧
      s.turn env (downloadEvents start false false resume) = s.after (httpDownloadProcConnAction env p)) := by
  obtain ⟨q, hbuf, hcount, hrecv⟩ := hr.recv
  have hne : httpDownloadStaIdle ≠ comFsmHoldState ∧ httpDownloadStaIdle ≠ s.curState := by
    rw [hr.state]
    decide
  rw [turn_eq exit_downloadEvents]
  unfold DownloadSys.uses
  rw [select_recv hr.state]
  dsimp only [httpDownloadUses, httpDownloadExec]
  constructor
  · intro hmalloc
    rw [hmalloc, if_neg Bool.false_ne_true] at hrecv
    rw [recvPoll_of hrecv, hrecv]
    dsimp only
    rw [if_neg (by decide), if_neg (by decide), if_neg (by decide), if_neg (by decide)]
    exact ⟨rfl, if_pos hne⟩
  · intro hmalloc
    rw [hmalloc, if_pos rfl] at hrecv
    rw [recvPoll_of hrecv, hrecv]
    dsimp only
    rw [if_pos (.inr rfl), if_neg (by decide), if_neg (by decide), if_pos (.inr rfl)]
    refine ⟨_, closeClient_httpOpened, ?_, closeClient_url _, ?_, ?_, rfl, rfl⟩
    · unfold httpDownloadProcCloseClient
      split <;> rfl
    · rw [(SameData.closeClient _).httpBuffer]
      exact hbuf
    · rw [← hcount]
      unfold httpDownloadProcCloseClient
      split <;> rfl

/-- What is copied, as a string. -/
theorem ReceivesRedirect.copied (hr : ReceivesRedirect s env h v) :
    cstr (httpDownloadProcUrlPreprocess (h.location ++ env.urlRest)) =
      httpDownloadProcUrlPreprocess (h.location ++ cstr env.urlRest) := by
  rw [cstr_preprocess, cstr_append hr.answer.no_nul]

end

/-! ## The turns after it -/

/-- A redirect has been followed, and the URL is `u`. -/
structure Redirected (u : List Byte) (p : HttpDownloadProc cap) : Prop where
  redirect : p.redirect = true
  url      : p.url.map cstr = some u

section
variable {answers : HttpRequest → HttpReply → Prop} {s t t' : DownloadSys cap} {acts : List DownloadAct} {a : DownloadAct}
  {p q : HttpDownloadProc cap} {env : HttpEnv} {h : Head} {u v : List Byte} {start resume : Bool}

theorem Redirected.of_eq (h : Redirected u p) (hurl : q.url = p.url) (hred : q.redirect = p.redirect) : Redirected u q :=
  ⟨hred.trans h.redirect, hurl ▸ h.url⟩

theorem Redirected.closeClient (h : Redirected u p) : Redirected u (httpDownloadProcCloseClient p) := by
  refine h.of_eq (closeClient_url p) ?_
  unfold httpDownloadProcCloseClient
  split <;> rfl

theorem Redirected.stop (h : Redirected u p) : Redirected u (httpDownloadProcStop p) :=
  h.closeClient.of_eq rfl rfl

/-- Opening keeps a URL that is not rewritten. -/
theorem Redirected.openClient (h : Redirected u p) (hu : httpDownloadProcUrlPreprocess u = u) :
    Redirected u (httpDownloadProcOpenClient env p).2 := by
  have hurl : (p.url.map httpDownloadProcUrlPreprocess).map cstr = some u := by
    obtain ⟨url, hsome, hcstr⟩ := Option.map_eq_some_iff.1 h.url
    rw [hsome, Option.map_some, Option.map_some, cstr_preprocess, hcstr, hu]
  unfold httpDownloadProcOpenClient
  split
  · exact h
  · split
    · exact ⟨h.redirect, hurl⟩
    · exact ⟨h.redirect, hurl⟩

/-- Past its check the connect keeps what opening left. -/
theorem conn_of_open {ret : HttpDownloadProcReturn} (hparam : ¬ (p.url = none ∨ p.httpBuffer = none))
    (hopen : httpDownloadProcOpenClient env p = (ret, q)) (hq : Redirected u q) :
    Redirected u (httpDownloadProcConn env p).2 := by
  unfold httpDownloadProcConn
  rw [if_neg hparam, hopen]
  cases ret with
  | success =>
    dsimp only
    split <;> exact hq.of_eq rfl rfl
  | _ => exact hq

/-- What the connect action leaves where the connect left it. -/
theorem connAction_of_conn (hconn : Redirected u (httpDownloadProcConn env p).2) :
    Redirected u (httpDownloadProcConnAction env p).1 := by
  obtain ⟨ret, q, hres⟩ : ∃ ret q, httpDownloadProcConn env p = (ret, q) := ⟨_, _, rfl⟩
  rw [hres] at hconn
  have herr : Redirected u { q with lastError := ret } := hconn.of_eq rfl rfl
  rw [connAction_of hres]
  split
  · exact herr
  · split
    · exact herr.stop
    · exact herr.closeClient

theorem Redirected.connAction (h : Redirected u p) (hu : httpDownloadProcUrlPreprocess u = u) :
    Redirected u (httpDownloadProcConnAction env p).1 := by
  refine connAction_of_conn ?_
  by_cases hparam : p.url = none ∨ p.httpBuffer = none
  · unfold httpDownloadProcConn
    rw [if_pos hparam]
    exact h
  · have hopened := @Redirected.openClient _ _ env _ h hu
    obtain ⟨ret, q, hopen⟩ : ∃ ret q, httpDownloadProcOpenClient env p = (ret, q) := ⟨_, _, rfl⟩
    rw [hopen] at hopened
    exact conn_of_open hparam hopen hopened

theorem Redirected.recvBlock (h : Redirected u p) : Redirected u (httpDownloadProcRecvBlock p).2 := by
  unfold httpDownloadProcRecvBlock
  dsimp only
  refine h.of_eq ?_ ?_ <;> split_ifs <;> rfl

/-- A second redirect is not followed. -/
theorem Redirected.recv (h : Redirected u p) : Redirected u (httpDownloadProcRecv env p).2 := by
  unfold httpDownloadProcRecv
  dsimp only
  split
  · split <;> exact h.of_eq rfl rfl
  split
  · rename_i hfirst
    rw [h.redirect] at hfirst
    simp at hfirst
  split
  · exact h.of_eq rfl rfl
  split
  · refine Redirected.recvBlock ?_
    exact h.of_eq rfl rfl
  split
  · exact h.of_eq rfl rfl
  · refine Redirected.recvBlock ?_
    exact h.of_eq rfl rfl

theorem Redirected.pushAction (h : Redirected u p) : Redirected u (httpDownloadProcPushAction p).1 := by
  have hpush : Redirected u (httpDownloadProcPushData p).2 := by
    unfold httpDownloadProcPushData
    dsimp only
    split
    · exact h
    · refine h.of_eq ?_ ?_ <;> split_ifs <;> rfl
  obtain ⟨ret, q, hres⟩ : ∃ ret q, httpDownloadProcPushData p = (ret, q) := ⟨_, _, rfl⟩
  rw [hres] at hpush
  have herr : Redirected u { q with lastError := ret } := hpush.of_eq rfl rfl
  rw [pushAction_of hres]
  split
  · exact herr
  split
  · exact herr
  split
  · dsimp only
    split
    · exact herr.closeClient
    · exact herr
  · exact herr.stop

theorem Redirected.recvPoll (h : Redirected u p) (hu : httpDownloadProcUrlPreprocess u = u) :
    Redirected u (httpDownloadProcRecvPoll env p).1 := by
  have hrecv := @Redirected.recv _ _ env _ h
  obtain ⟨ret, q, hres⟩ : ∃ ret q, httpDownloadProcRecv env p = (ret, q) := ⟨_, _, rfl⟩
  rw [hres] at hrecv
  have herr : Redirected u { q with lastError := ret } := hrecv.of_eq rfl rfl
  rw [recvPoll_of hres]
  split
  · exact herr.pushAction
  split
  · exact herr
  split
  · exact herr.closeClient.connAction hu
  · exact herr.stop

/-- Only START looks for another URL. -/
theorem Redirected.exec (h : Redirected u p) (hu : httpDownloadProcUrlPreprocess u = u) {a : HttpDownloadAction}
    (ha : a ≠ .start) : Redirected u (httpDownloadExec env a p).1 := by
  cases a with
  | start => exact absurd rfl ha
  | stop => exact Redirected.stop (h.of_eq rfl rfl)
  | pause => exact h.closeClient
  | conn => exact h.connAction hu
  | recvPoll => exact h.recvPoll hu
  | waitFreePoll =>
    have herr : Redirected u { p with lastError := httpDownloadWaitFree p } := h.of_eq rfl rfl
    unfold httpDownloadExec httpDownloadProcWaitFreePoll
    dsimp only
    split
    · exact herr.pushAction
    · exact herr
  | waitRangePoll =>
    have herr : Redirected u { p with lastError := httpDownloadWaitRange p } := h.of_eq rfl rfl
    unfold httpDownloadExec httpDownloadProcWaitRangePoll
    dsimp only
    split
    · exact herr.connAction hu
    · exact herr

theorem Redirected.connUses (h : Redirected u p) (hu : httpDownloadProcUrlPreprocess u = u) :
    ∀ w ∈ httpDownloadConnUses env p, w.url = u := by
  intro w hw
  unfold httpDownloadConnUses at hw
  split at hw
  · cases hw
  have hopened := @Redirected.openClient _ _ env _ h hu
  obtain ⟨ret, q, hopen⟩ : ∃ ret q, httpDownloadProcOpenClient env p = (ret, q) := ⟨_, _, rfl⟩
  rw [hopen] at hopened hw
  obtain ⟨url, hurl, hcstr⟩ := Option.map_eq_some_iff.1 hopened.url
  dsimp only at hurl hw
  rw [hurl, Option.getD_some, hcstr] at hw
  rcases List.mem_append.1 hw with hw | hw
  · split at hw
    · cases hw
    · rw [List.mem_singleton.1 hw, UrlUse.url]
  · split at hw
    · rw [List.mem_singleton.1 hw, UrlUse.url]
    · cases hw

theorem Redirected.uses (h : Redirected u p) (hu : httpDownloadProcUrlPreprocess u = u) {a : HttpDownloadAction}
    (ha : a ≠ .start) : ∀ w ∈ httpDownloadUses env a p, w.url = u := by
  intro w hw
  cases a with
  | start => exact absurd rfl ha
  | stop => cases hw
  | pause => cases hw
  | waitFreePoll => cases hw
  | conn => exact h.connUses hu w hw
  | recvPoll =>
    have hrecv := @Redirected.recv _ _ env _ h
    obtain ⟨ret, q, hres⟩ : ∃ ret q, httpDownloadProcRecv env p = (ret, q) := ⟨_, _, rfl⟩
    simp only [httpDownloadUses, hres] at hw
    rw [hres] at hrecv
    have herr : Redirected u { q with lastError := ret } := hrecv.of_eq rfl rfl
    split at hw
    · exact herr.closeClient.connUses hu w hw
    · cases hw
  | waitRangePoll =>
    simp only [httpDownloadUses] at hw
    have herr : Redirected u { p with lastError := httpDownloadWaitRange p } := h.of_eq rfl rfl
    split at hw
    · exact herr.connUses hu w hw
    · cases hw

/-- A turn without START selects no start action. -/
theorem select_ne_start {pause resume : Bool} (hs : s.curState ∈ downloadStates) :
    httpDownloadSelect s.curState (downloadEvents false false pause resume) ≠ some .start := by
  rw [select_download hs]
  simp only [downloadStates, List.mem_cons, List.not_mem_nil, or_false] at hs
  rcases hs with hs | hs | hs | hs | hs <;> rw [hs] <;> cases pause <;> cases resume <;> decide

/-- A turn uses the URL, and keeps it. -/
theorem Redirected.turn {pause resume : Bool} (h : Redirected u s.proc) (hs : s.curState ∈ downloadStates)
    (hu : httpDownloadProcUrlPreprocess u = u) :
    Redirected u (s.turn env (downloadEvents false false pause resume)).proc ∧
      ∀ w ∈ s.uses env (downloadEvents false false pause resume), w.url = u := by
  have hne := @select_ne_start _ s pause resume hs
  rw [turn_eq exit_downloadEvents]
  unfold DownloadSys.uses
  cases hsel : httpDownloadSelect s.curState (downloadEvents false false pause resume) with
  | none => exact ⟨h, fun w hw => by cases hw⟩
  | some a =>
    have ha : a ≠ .start := fun h0 => hne (hsel.trans (congrArg some h0))
    exact ⟨h.exec hu ha, h.uses hu ha⟩

/-- **Every later try is with the same URL**, in any run of the download. -/
theorem redirected_run (hu : httpDownloadProcUrlPreprocess u = u) (hrun : Steps (DownloadStep answers) s acts t)
    (hs : s.curState ∈ downloadStates) (h : Redirected u s.proc) (hstep : DownloadStep answers t a t') :
    ∀ w ∈ a.uses t, w.url = u := by
  have hkeeps : ∀ (s : DownloadSys cap) a t, Redirected u s.proc ∧ s.curState ∈ downloadStates →
      DownloadStep answers s a t → Redirected u t.proc ∧ t.curState ∈ downloadStates := by
    rintro s a t ⟨h, hs⟩ hstep
    cases hstep with
    | turn => exact ⟨(h.turn hs hu).1, turn_mem hs exit_downloadEvents⟩
    | pop => exact ⟨h.of_eq rfl rfl, hs⟩
  obtain ⟨hred, hmem⟩ := Steps.invariant (I := fun s => Redirected u s.proc ∧ s.curState ∈ downloadStates) hkeeps hrun
    ⟨h, hs⟩
  cases hstep with
  | turn => exact (hred.turn hmem hu).2
  | pop => exact fun w hw => by cases hw

/-- A download that has ended makes no call. -/
theorem idle_run (hrun : Steps (DownloadStep answers) s acts t) (hs : s.curState = httpDownloadStaIdle)
    (hstep : DownloadStep answers t a t') : a.uses t = [] := by
  have hselect : ∀ pause resume,
      httpDownloadSelect httpDownloadStaIdle (downloadEvents false false pause resume) = none := by
    intro pause resume
    cases pause <;> cases resume <;> rfl
  have hidle : t.curState = httpDownloadStaIdle := by
    refine Steps.invariant (I := fun s => s.curState = httpDownloadStaIdle) ?_ hrun hs
    intro s a t hs hstep
    cases hstep with
    | turn =>
      rw [turn_eq exit_downloadEvents, hs, hselect]
      exact hs
    | pop => exact hs
  cases hstep with
  | turn =>
    rw [DownloadAct.uses, DownloadSys.uses, hidle, hselect]
  | pop => rfl

/-- A refused connect is made again when a pause is over, and the URL is rewritten again. -/
theorem refused_again (hs : s.curState = httpDownloadStaRecv) (hclosed : s.proc.httpOpened = false)
    (hbuf : s.proc.httpBuffer ≠ none) (h : Redirected u s.proc)
    (hfollows : ∀ acts t a t', Steps (Restrict (DownloadStep answers) DownloadAct.Tries) s acts t →
      DownloadStep answers t a t' → ∀ w ∈ a.uses t, w.url = u) : httpDownloadProcUrlPreprocess u = u := by
  obtain ⟨url, hurl, hcstr⟩ := Option.map_eq_some_iff.1 h.url
  let env : HttpEnv := { HttpEnv.refusing with recvData := { responseBufLen := 2049, ext := some s.proc.ext } }
  have hhands : ∀ p : HttpDownloadProc cap, p.ext = s.proc.ext → Hands answers p env := by
    intro p hext
    refine .failed rfl ?_
    rw [hext]
    rfl
  have hpaused : s.turn env (downloadEvents false false true false) =
      ⟨httpDownloadStaPause, httpDownloadProcCloseClient s.proc⟩ := by
    rw [turn_eq exit_downloadEvents, hs, show httpDownloadSelect httpDownloadStaRecv
      (downloadEvents false false true false) = some .pause from rfl]
    unfold DownloadSys.after
    rw [hs]
    rfl
  have hclose : httpDownloadProcCloseClient s.proc = s.proc := by
    unfold httpDownloadProcCloseClient
    rw [if_neg (by rw [hclosed]; exact Bool.false_ne_true)]
  rw [hclose] at hpaused
  have hpause : DownloadStep answers s (.turn true false env) ⟨httpDownloadStaPause, s.proc⟩ := by
    rw [← hpaused]
    exact .turn (fun _ => rfl) (hhands _ rfl)
  have htries : DownloadAct.Tries s (.turn true false env) := by
    intro url hmem
    rw [DownloadAct.uses, DownloadSys.uses, hs, show httpDownloadSelect httpDownloadStaRecv
      (downloadEvents false false true false) = some .pause from rfl] at hmem
    cases hmem
  have huses : DownloadAct.uses ⟨httpDownloadStaPause, s.proc⟩ (.turn false true env) =
      [.connect (httpDownloadProcUrlPreprocess u)] := by
    rw [DownloadAct.uses, DownloadSys.uses, show httpDownloadSelect httpDownloadStaPause
      (downloadEvents false false false true) = some .conn from rfl]
    dsimp only [httpDownloadUses]
    rw [connUses_closed hclosed hurl hbuf, cstr_preprocess, hcstr]
    rfl
  refine hfollows _ _ (.turn false true env) _ (.one ⟨hpause, htries⟩) (.turn (fun _ => rfl) (hhands _ rfl))
    (.connect (httpDownloadProcUrlPreprocess u)) ?_
  rw [huses]
  exact .head _

/-- The URL of the redirect's turn is the one that is kept. -/
theorem conn_redirected (hclosed : p.httpOpened = false) (hred : p.redirect = true) (hbuf : p.httpBuffer ≠ none)
    {url : List Byte} (hurl : p.url = some url) :
    Redirected (cstr (httpDownloadProcUrlPreprocess url)) (httpDownloadProcConnAction env p).1 := by
  have hopened := @openClient_url _ p env hclosed
  have hopenred : (httpDownloadProcOpenClient env p).2.redirect = true := by
    unfold httpDownloadProcOpenClient
    split
    · exact hred
    · split <;> exact hred
  obtain ⟨ret, q, hopen⟩ : ∃ ret q, httpDownloadProcOpenClient env p = (ret, q) := ⟨_, _, rfl⟩
  rw [hopen] at hopened hopenred
  have hparam : ¬ (p.url = none ∨ p.httpBuffer = none) := by
    rintro (hnone | hnone)
    · rw [hurl] at hnone
      cases hnone
    · exact hbuf hnone
  refine connAction_of_conn (conn_of_open hparam hopen ⟨hopenred, ?_⟩)
  rw [hopened, hurl, Option.map_some, Option.map_some]

/-- Without memory or a buffer the download ends. -/
theorem ReceivesRedirect.follows_gone (hr : ReceivesRedirect s env h v)
    (hno : env.malloc 0 = false ∨ s.proc.httpBuffer = none) :
    s.Follows answers env (downloadEvents start false false resume) u := by
  have hend : s.uses env (downloadEvents start false false resume) = [] ∧
      (s.turn env (downloadEvents start false false resume)).curState = httpDownloadStaIdle := by
    obtain ⟨hfailed, hexec⟩ := @ReceivesRedirect.exec _ s env h v start resume hr
    cases hmalloc : env.malloc 0 with
    | false => exact hfailed hmalloc
    | true =>
      obtain ⟨p, -, -, -, hbuf, -, huses, hturn⟩ := hexec hmalloc
      have hparam : p.url = none ∨ p.httpBuffer = none :=
        .inr (hbuf.trans (hno.resolve_left (by rw [hmalloc]; exact Bool.noConfusion)))
      have hconn : httpDownloadProcConn env p = (.errParam, p) := by
        unfold httpDownloadProcConn
        rw [if_pos hparam]
      rw [huses, hturn, connAction_of hconn, if_neg (by decide), if_pos (.inr rfl)]
      unfold httpDownloadConnUses DownloadSys.after
      rw [if_pos hparam, hr.state]
      exact ⟨rfl, rfl⟩
  refine ⟨fun w hw => ?_, fun _ acts t a t' hrun hstep w hw => ?_⟩
  · rw [hend.1] at hw
    cases hw
  · rw [idle_run (hrun.mono fun _ _ _ hs => hs.1) hend.2 hstep] at hw
    cases hw

/-- With both, it follows to `u` if that is what the heap makes of the location, and if no try is left or the
rewriting leaves `u` alone. -/
theorem ReceivesRedirect.follows_iff (hr : ReceivesRedirect s env h v) (hmalloc : env.malloc 0 = true)
    (hbuf : s.proc.httpBuffer ≠ none) : s.Follows answers env (downloadEvents start false false resume) u ↔
      httpDownloadProcUrlPreprocess (h.location ++ cstr env.urlRest) = u ∧
        (httpDownloadProcUrlPreprocess u = u ∨ ¬ s.Refused env) := by
  obtain ⟨p, hclosed, hred, hurl, hpbuf, hcount, huses, hturn⟩ :=
    (@ReceivesRedirect.exec _ s env h v start resume hr).2 hmalloc
  rw [← hpbuf] at hbuf
  have hmem : s.curState ∈ downloadStates := by
    rw [hr.state]
    decide
  have hkept := @conn_redirected _ p env hclosed hred hbuf _ hurl
  have hrefused := @connAction_refused _ p env hclosed (by rw [hurl]; exact Option.some_ne_none _) hbuf
  have hstates : (s.turn env (downloadEvents start false false resume)).curState ∈ downloadStates :=
    turn_mem hmem exit_downloadEvents
  rw [hr.copied] at hkept
  unfold DownloadSys.Follows
  rw [huses, connUses_closed hclosed hurl hbuf, hr.copied]
  rw [hturn] at hstates ⊢
  constructor
  · rintro ⟨hnow, hlater⟩
    have heq : httpDownloadProcUrlPreprocess (h.location ++ cstr env.urlRest) = u := hnow _ (.head _)
    refine ⟨heq, or_iff_not_imp_right.2 fun hagain => ?_⟩
    obtain ⟨hconnect, hfew⟩ := not_not.1 hagain
    obtain ⟨hhold, hclosed', hbuf'⟩ := (hrefused hconnect).1 (hcount ▸ hfew)
    have hstate : (s.after (httpDownloadProcConnAction env p)).curState = httpDownloadStaRecv := by
      unfold DownloadSys.after
      rw [hhold, if_neg fun hne => hne.1 rfl, hr.state]
    refine refused_again hstate hclosed' (by rw [DownloadSys.after, hbuf']; exact hbuf) (heq ▸ hkept) (hlater ?_)
    intro url hreq
    rw [if_neg hconnect] at hreq
    cases hreq with
    | tail _ hreq => cases hreq
  · rintro ⟨heq, hagain⟩
    constructor
    · intro w hw
      rcases List.mem_cons.1 hw with rfl | hw
      · exact heq
      · split at hw
        · rw [List.mem_singleton.1 hw]
          exact heq
        · cases hw
    · intro hnone acts t a t' hrun hstep
      have hrun' := hrun.mono fun _ _ _ hs => hs.1
      by_cases hconnect : env.connect = .ok
      · rw [if_pos hconnect] at hnone
        exact absurd (.tail _ (.head _)) (hnone _)
      rcases hagain with hstable | hlast
      · exact redirected_run hstable hrun' hstates (heq ▸ hkept) hstep
      · have hidle : (s.after (httpDownloadProcConnAction env p)).curState = httpDownloadStaIdle := by
          unfold DownloadSys.after
          rw [(hrefused hconnect).2 fun hfew => hlast ⟨hconnect, hcount ▸ hfew⟩, hr.state]
          rfl
        intro w hw
        rw [idle_run hrun' hidle hstep] at hw
        cases hw

end

/-- **A redirect is followed to the URL it gives exactly where the location that is noted and the byte behind its
copy spell it**, and the rewriting leaves it alone if the connect is refused and made again; nothing of its body is
pushed. -/
theorem redirect_follows {answers : HttpRequest → HttpReply → Prop} {s : DownloadSys cap} {env : HttpEnv} {h : Head}
    {v : List Byte} {start resume : Bool} (hr : ReceivesRedirect s env h v) :
    (s.Follows answers env (downloadEvents start false false resume) (httpsToHttp v) ∧
      (s.turn env (downloadEvents start false false resume)).proc.pushed = s.proc.pushed) ↔
    env.malloc 0 = false ∨ s.proc.httpBuffer = none ∨ Spells v h.location (cstr env.urlRest) ∧
      (¬ caseEq (v.take 6) (bytes "httpss") ∨ ¬ s.Refused env) := by
  have hv := hr.answer.length.2
  rw [and_iff_left hr.pushed]
  by_cases hno : env.malloc 0 = false ∨ s.proc.httpBuffer = none
  · rw [← or_assoc]
    exact iff_of_true (hr.follows_gone hno) (.inl hno)
  · obtain ⟨hmalloc, hbuf⟩ := not_or.1 hno
    have hlen := httpsToHttp_length v
    have hshort : (httpsToHttp v).length < 2048 := by
      rw [hlen]
      split <;> omega
    rw [hr.follows_iff (eq_true_of_ne_false hmalloc) hbuf, spells_iff (by omega), preprocess_eq hshort,
      httpsToHttp_twice, or_iff_right hmalloc, or_iff_right hbuf]

/-- `HTTP/1.1 302 Found`. -/
def statusFound : StatusLine where
  major := 49
  minor := 49
  code := bytes "302"
  reason := bytes "Found"
  major_ok := isDigit_one
  minor_ok := isDigit_one
  code_len := by decide +kernel
  code_ok := by decide +kernel
  reason_ok := by decide +kernel

/-- `Location: https://h/p`. -/
def locationField : HeadField :=
  ⟨bytes "Location", bytes "https://h/p", by decide +kernel, by decide +kernel, by decide +kernel⟩

/-- A redirect with a body of three bytes. -/
def foundHead : Head := ⟨statusFound, [lengthThree, locationField]⟩

/-- The download has asked for something. -/
def askedSys : DownloadSys 4 :=
  ⟨httpDownloadStaRecv, { (httpDownloadInit : HttpDownloadProc 4) with
    url := some (bytes "http://g/")
    httpBuffer := some { queue := ⟨[], by decide⟩ }
    clientData := freshData
    clientDataExt := some {}
    httpOpened := true
    recvBuf := some [] }⟩

/-- What the call leaves of the redirect. -/
def foundData : HttpclientData :=
  { freshData with
    retrieveLen := 0
    responseContentLen := 3
    contentBlockLen := 3
    responseBuf := bytes "abc"
    ext := some { location := bytes "https://h/p" } }

/-- The heap holds `rest` where the new URL ends. -/
def foundEnv (connect : HttpclientResult) (rest : List Byte) : HttpEnv :=
  { HttpEnv.accepting with connect, recvRet := .ok, recvData := foundData, recvConn := .open, urlRest := rest }

theorem found_recv : httpclientRecvResponse (fun _ => false) 0 freshData
    (some [.bytes 72 ((foundHead.encode ++ bytes "abc").drop 1)]) = some (.ok, 302, foundData, some []) := by
  decide +kernel

theorem receives_found (connect : HttpclientResult) (rest : List Byte) :
    ReceivesRedirect askedSys (foundEnv connect rest) foundHead (bytes "https://h/p") where
  state := rfl
  direct := rfl
  received := rfl
  answer := ⟨⟨locationField, .tail _ (.head _), by decide +kernel⟩, by decide +kernel, by decide +kernel⟩
  call := ⟨bytes "abc", [.bytes 72 ((foundHead.encode ++ bytes "abc").drop 1)], {}, fun _ => false, 0, 302, some [],
    rfl, rfl, by decide +kernel, found_recv⟩

/-- With a NUL behind the copy `http://h/p` is connected to, and again when that is refused. -/
theorem redirect_follows_nul :
    askedSys.Follows (fun _ _ => True) (foundEnv .errorConn [0]) (downloadEvents false false false false)
      (httpsToHttp (bytes "https://h/p")) ∧
    (askedSys.turn (foundEnv .errorConn [0]) (downloadEvents false false false false)).proc.pushed =
      askedSys.proc.pushed :=
  (redirect_follows (receives_found .errorConn [0])).2
    (.inr (.inr ⟨.inl ⟨by decide +kernel, .inl (by decide)⟩, .inl (by decide +kernel)⟩))

/-- With a `%` left on the heap it is `http://h/p%`. -/
theorem redirect_follows_rest : ReceivesRedirect askedSys (foundEnv .ok [37, 0]) foundHead (bytes "https://h/p") ∧
    (∀ k, (foundEnv .ok [37, 0]).malloc k = true) ∧
    askedSys.uses (foundEnv .ok [37, 0]) (downloadEvents false false false false) =
      [.connect (bytes "http://h/p%"), .request (bytes "http://h/p%")] ∧
    ∀ answers, ¬ askedSys.Follows answers (foundEnv .ok [37, 0]) (downloadEvents false false false false)
      (httpsToHttp (bytes "https://h/p")) := by
  have huses : askedSys.uses (foundEnv .ok [37, 0]) (downloadEvents false false false false) =
      [.connect (bytes "http://h/p%"), .request (bytes "http://h/p%")] := by decide +kernel
  refine ⟨receives_found _ _, fun _ => rfl, huses, fun answers hfollows => ?_⟩
  have hurl := hfollows.1 (.connect (bytes "http://h/p%")) (by rw [huses]; exact .head _)
  exact absurd hurl (by decide +kernel)

end AudioPlayer
