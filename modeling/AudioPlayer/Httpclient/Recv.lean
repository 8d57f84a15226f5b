import Mathlib
import AudioPlayer.Lib.Bytes

/-!
# Reading from the socket (`httpclient_recv`, `utils/httpclient.c:548-627`)

A `Socket` is what `recv` will answer, in order: bytes that arrive together, `EWOULDBLOCK` where nothing
has arrived yet (a blocking `recv` waits past it), or a failure. At its end the peer has closed. So the
splits of a byte stream into `recv` results are the sockets without `fail` that carry these bytes.

`httpclientRecv_spec` says what a call reads, `Slow` singles out the streams that arrive byte by byte.
-/

namespace AudioPlayer
open Lib

/-- `HTTPCLIENT_RESULT` (`httpclient.h`). -/
inductive HttpclientResult
  | ok | retrieveMoreData | errorConn | closed | error | errorPrtcl
deriving DecidableEq, Repr

inductive SocketEvent
  | bytes (b : Byte) (bs : List Byte)
  | wouldBlock
  | fail
deriving DecidableEq, Repr

abbrev Socket := List SocketEvent

namespace Socket

/-- The bytes still to come. -/
def bytes : Socket → List Byte
  | [] => []
  | .bytes b bs :: s => b :: bs ++ bytes s
  | .wouldBlock :: s => bytes s
  | .fail :: s => bytes s

/-- The bytes `bs` arrive next. -/
def push (bs : List Byte) (s : Socket) : Socket :=
  match bs with
  | [] => s
  | b :: bs => .bytes b bs :: s

/-- `recv` can be called this often before only the close is left. -/
def weight (s : Socket) : Nat := s.bytes.length + s.length

end Socket

inductive RecvRet
  | got (bs : List Byte)
  | wouldBlock
  | fail
deriving DecidableEq, Repr

/-- `recv` of at most `n` bytes; no bytes is the close. -/
def recv (block : Bool) (n : Nat) : Socket → RecvRet × Socket
  | [] => (.got [], [])
  | .wouldBlock :: s => if block then recv block n s else (.wouldBlock, s)
  | .fail :: s => (.fail, s)
  | .bytes b bs :: s => (.got ((b :: bs).take n), Socket.push ((b :: bs).drop n) s)

/-- The loop of `httpclient_recv` with the bytes `buf` read so far (plain HTTP). -/
def httpclientRecvLoop (minLen maxLen : Nat) : Nat → List Byte → Socket → HttpclientResult × List Byte × Socket
  | 0, buf, s => (.ok, buf, s)
  | fuel + 1, buf, s =>
    if buf.length < maxLen then
      if buf.length < minLen then
        match recv true (minLen - buf.length) s with
        | (.got [], s) => (.closed, buf, s)
        | (.got bs, s) => httpclientRecvLoop minLen maxLen fuel (buf ++ bs) s
        | (_, s) => (.errorConn, buf, s)
      else
        match recv false (maxLen - buf.length) s with
        | (.wouldBlock, s) => (.ok, buf, s)
        | (.got [], s) => (.ok, buf, s)
        | (.got bs, s) => httpclientRecvLoop minLen maxLen fuel (buf ++ bs) s
        | (.fail, s) => (.errorConn, buf, s)
    else (.ok, buf, s)

/-- `httpclient_recv`: every turn reads a byte or ends it, so these turns are enough. -/
def httpclientRecv (minLen maxLen : Nat) (s : Socket) : HttpclientResult × List Byte × Socket :=
  httpclientRecvLoop minLen maxLen maxLen [] s

/-! ## What a call reads -/

/-- What is still to be used up: bytes in the socket count twice, since they pass through `data`. -/
def load (data : List Byte) (s : Socket) : Nat := 2 * s.weight + data.length

namespace Socket
variable {s : Socket} {bs : List Byte} {b : Byte} {n : Nat}

@[simp] theorem bytes_nil : bytes [] = [] := rfl
@[simp] theorem bytes_wouldBlock : bytes (.wouldBlock :: s) = bytes s := rfl
@[simp] theorem bytes_fail : bytes (.fail :: s) = bytes s := rfl
@[simp] theorem bytes_bytes : bytes (.bytes b bs :: s) = b :: bs ++ bytes s := rfl
@[simp] theorem bytes_push : (push bs s).bytes = bs ++ s.bytes := by cases bs <;> simp [push]

/-- No `recv` fails. -/
def NoFail (s : Socket) : Prop := .fail ∉ s

theorem NoFail.push (h : NoFail s) : NoFail (Socket.push bs s) := by
  cases bs <;> simpa [Socket.push, NoFail] using h

theorem NoFail.tail {e : SocketEvent} (h : NoFail (e :: s)) : NoFail s := fun hm => h (by simp [hm])

/-- Bytes come one at a time, with a pause behind each; `now` says whether one may come at once. -/
def SlowFrom : Bool → Socket → Prop
  | _, [] => True
  | _, .wouldBlock :: s => SlowFrom true s
  | now, .bytes _ bs :: s => now = true ∧ bs = [] ∧ SlowFrom false s
  | _, .fail :: _ => False

abbrev Slow (s : Socket) : Prop := SlowFrom true s

theorem SlowFrom.slow (h : SlowFrom false s) : Slow s := by
  cases s with
  | nil => trivial
  | cons e s => cases e <;> first | exact h | exact absurd h.1 (by simp)

theorem length_add_weight_push {t : Socket} : n + weight (push bs t) ≤ n + bs.length + t.weight + 1 := by
  cases bs with
  | nil => simp [push]
  | cons b bs => simp [push, weight]; omega

end Socket

open Socket

section
variable {s : Socket} {n : Nat}

/-- What is cut off the bytes that arrive first. -/
theorem take_push {b : Byte} {bs : List Byte} (hs : NoFail (.bytes b bs :: s)) (hn : 0 < n) :
    (b :: bs).take n ++ (push ((b :: bs).drop n) s).bytes = bytes (.bytes b bs :: s) ∧
      (push ((b :: bs).drop n) s).NoFail ∧ ((b :: bs).take n).length ≤ n ∧ (b :: bs).take n ≠ [] ∧
      ((b :: bs).take n).length + (push ((b :: bs).drop n) s).weight ≤ weight (.bytes b bs :: s) := by
  refine ⟨?_, hs.tail.push, by simp, ?_, ?_⟩
  · rw [bytes_push, ← List.append_assoc, List.take_append_drop, bytes_bytes]
  · simp; omega
  · have h := @length_add_weight_push ((b :: bs).drop n) ((b :: bs).take n).length s
    have hlen : ((b :: bs).take n).length + ((b :: bs).drop n).length = (b :: bs).length := by
      rw [← List.length_append, List.take_append_drop]
    have hw : weight (.bytes b bs :: s) = (b :: bs).length + s.weight + 1 := by simp [weight]; omega
    omega

/-- A blocking `recv` reads something unless nothing comes any more. -/
theorem recv_true (hs : s.NoFail) (hn : 0 < n) : ∃ bs s', recv true n s = (.got bs, s') ∧
    bs ++ s'.bytes = s.bytes ∧ s'.NoFail ∧ bs.length ≤ n ∧ (bs = [] → s.bytes = []) ∧
    bs.length + s'.weight ≤ s.weight ∧ (s.Slow → bs.length ≤ 1 ∧ s'.SlowFrom false) := by
  induction s with
  | nil => exact ⟨[], [], rfl, rfl, hs, by simp, by simp, by simp, fun h => ⟨by simp, trivial⟩⟩
  | cons e s ih =>
    cases e with
    | fail => exact absurd (List.mem_cons_self) hs
    | wouldBlock =>
      obtain ⟨bs, s', h1, h2, h3, h4, h5, h6, h7⟩ := ih hs.tail
      exact ⟨bs, s', h1, h2, h3, h4, h5, by simp [weight] at h6 ⊢; omega, h7⟩
    | bytes b bs =>
      obtain ⟨h1, h2, h3, h4, h5⟩ := take_push hs hn
      refine ⟨_, _, rfl, h1, h2, h3, fun h => absurd h h4, h5, ?_⟩
      rintro ⟨-, rfl, h⟩
      obtain ⟨m, rfl⟩ : ∃ m, n = m + 1 := ⟨n - 1, by omega⟩
      exact ⟨by simp, by simpa [push] using h⟩

/-- A non-blocking `recv` reads what has arrived, or uses up a pause. -/
theorem recv_false (hs : s.NoFail) (hn : 0 < n) :
    (∃ s', recv false n s = (.wouldBlock, s') ∧ s'.bytes = s.bytes ∧ s'.NoFail ∧ s'.weight < s.weight ∧
      ∀ now, s.SlowFrom now → s'.Slow) ∨
    (s = [] ∧ recv false n s = (.got [], [])) ∨
    ∃ bs s', recv false n s = (.got bs, s') ∧ bs ≠ [] ∧ bs ++ s'.bytes = s.bytes ∧ s'.NoFail ∧ bs.length ≤ n ∧
      bs.length + s'.weight ≤ s.weight ∧ ∀ now, s.SlowFrom now → now = true ∧ bs.length ≤ 1 ∧ s'.SlowFrom false := by
  cases s with
  | nil => exact .inr (.inl ⟨rfl, rfl⟩)
  | cons e s =>
    cases e with
    | fail => exact absurd (List.mem_cons_self) hs
    | wouldBlock => exact .inl ⟨s, rfl, rfl, hs.tail, by simp [weight], fun _ h => h⟩
    | bytes b bs =>
      obtain ⟨h1, h2, h3, h4, h5⟩ := take_push hs hn
      refine .inr (.inr ⟨_, _, rfl, h4, h1, h2, h3, h5, ?_⟩)
      rintro now ⟨hnow, rfl, h⟩
      obtain ⟨m, rfl⟩ : ∃ m, n = m + 1 := ⟨n - 1, by omega⟩
      exact ⟨hnow, by simp, by simpa [push] using h⟩

end

/-- What the loop adds to `buf`: as much as is asked for if that much comes. Induction on the turns. -/
theorem httpclientRecvLoop_spec {minLen maxLen fuel : Nat} {buf : List Byte} {s : Socket} (hs : s.NoFail)
    (hle : minLen ≤ maxLen) (hbuf : buf.length ≤ maxLen) (hfuel : maxLen ≤ buf.length + fuel) :
    ∃ ret bs s', httpclientRecvLoop minLen maxLen fuel buf s = (ret, buf ++ bs, s') ∧
      bs ++ s'.bytes = s.bytes ∧ s'.NoFail ∧ (buf ++ bs).length ≤ maxLen ∧
      (ret = .ok ∧ minLen ≤ (buf ++ bs).length ∨ ret = .closed ∧ s.bytes.length + buf.length < minLen) ∧
      bs.length + s'.weight ≤ s.weight ∧
      (minLen ≤ buf.length → buf.length < maxLen → s ≠ [] → s'.weight < s.weight) ∧
      (s.Slow → (buf.length < minLen ∨ buf = [] ∨ s.SlowFrom false) →
        s'.Slow ∧ (buf ++ bs).length ≤ max (max minLen 1) buf.length) := by
  induction fuel generalizing buf s with
  | zero =>
    refine ⟨.ok, [], s, by simp [httpclientRecvLoop], rfl, hs, by simpa using hbuf,
      .inl ⟨rfl, by simp; omega⟩, by simp, by omega, fun h _ => ⟨h, by simp⟩⟩
  | succ fuel ih =>
    unfold httpclientRecvLoop
    by_cases hmax : buf.length < maxLen
    case neg =>
      rw [if_neg hmax]
      refine ⟨.ok, [], s, by simp, rfl, hs, by simpa using hbuf,
        .inl ⟨rfl, by simp; omega⟩, by simp, by omega, fun h _ => ⟨h, by simp⟩⟩
    rw [if_pos hmax]
    by_cases hmin : buf.length < minLen
    · rw [if_pos hmin]
      obtain ⟨bs, s₁, h1, h2, h3, h4, h5, h6, h7⟩ := recv_true hs (by omega : 0 < minLen - buf.length)
      rw [h1]
      cases bs with
      | nil =>
        refine ⟨.closed, [], s₁, by simp, h2, h3, by simpa using hbuf, .inr ⟨rfl, ?_⟩, h6, by omega,
          fun h _ => ⟨(h7 h).2.slow, by simp⟩⟩
        rw [h5 rfl]; simpa using hmin
      | cons b bs =>
        obtain ⟨ret, cs, s', g1, g2, g3, g4, g5, g6, g7, g8⟩ :=
          @ih (buf ++ b :: bs) s₁ h3 (by simp at h4 ⊢; omega) (by simp; omega)
        refine ⟨ret, b :: bs ++ cs, s', by simpa using g1, ?_, g3, by simpa using g4, ?_, ?_, by omega, ?_⟩
        · rw [List.append_assoc, g2, h2]
        · have hlen := congrArg List.length h2
          simp only [List.length_append, List.length_cons] at g5 hlen ⊢
          exact g5.imp (fun h => ⟨h.1, by omega⟩) (fun h => ⟨h.1, by omega⟩)
        · simp at g6 h6 ⊢; omega
        · intro h _
          obtain ⟨h8, h9⟩ := h7 h
          obtain ⟨h10, h11⟩ := g8 h9.slow (.inr (.inr h9))
          refine ⟨h10, ?_⟩
          simp only [List.length_append, List.append_assoc, List.length_cons] at h8 h11 ⊢
          omega
    · rw [if_neg hmin]
      rcases recv_false hs (by omega : 0 < maxLen - buf.length) with
        ⟨s₁, h1, h2, h3, h4, h5⟩ | ⟨rfl, h1⟩ | ⟨bs, s₁, h1, h2, h3, h4, h5, h6, h7⟩
      · rw [h1]
        refine ⟨.ok, [], s₁, by simp, by simpa using h2, h3, by simpa using hbuf,
          .inl ⟨rfl, by simp; omega⟩, by simp; omega, by omega, fun h _ => ⟨h5 _ h, by simp⟩⟩
      · rw [h1]
        refine ⟨.ok, [], [], by simp, rfl, hs, by simpa using hbuf, .inl ⟨rfl, by simp; omega⟩, by simp, by simp,
          fun h _ => ⟨trivial, by simp⟩⟩
      · rw [h1]
        obtain ⟨b, bs, rfl⟩ := List.exists_cons_of_ne_nil h2
        obtain ⟨ret, cs, s', g1, g2, g3, g4, g5, g6, g7, g8⟩ :=
          @ih (buf ++ b :: bs) s₁ h4 (by simp at h5 ⊢; omega) (by simp; omega)
        refine ⟨ret, b :: bs ++ cs, s', by simpa using g1, ?_, g3, by simpa using g4, ?_, ?_, ?_, ?_⟩
        · rw [List.append_assoc, g2, h3]
        · have hlen := congrArg List.length h3
          simp only [List.length_append, List.length_cons] at g5 hlen ⊢
          exact g5.imp (fun h => ⟨h.1, by omega⟩) (fun h => ⟨h.1, by omega⟩)
        · simp at g6 h6 ⊢; omega
        · intros; simp at g6 h6; omega
        · intro h hcase
          have hnil : buf = [] := by
            rcases hcase with hc | hc | hc
            · omega
            · exact hc
            · exact absurd (h7 _ hc).1 (by simp)
          obtain ⟨-, h9, h10⟩ := h7 _ h
          obtain ⟨h11, h12⟩ := g8 h10.slow (.inr (.inr h10))
          refine ⟨h11, ?_⟩
          simp only [List.length_append, List.append_assoc, List.length_cons, hnil, List.length_nil] at h9 h12 ⊢
          omega

section
variable {minLen maxLen fuel : Nat} {s s' : Socket}

theorem recv_length {block : Bool} {bs : List Byte} {n : Nat} (h : recv block n s = (.got bs, s')) : bs.length ≤ n := by
  induction s with
  | nil =>
    cases h
    exact Nat.zero_le n
  | cons e s ih =>
    cases e with
    | bytes b bs =>
      cases h
      exact List.length_take_le _ _
    | fail => cases h
    | wouldBlock =>
      unfold recv at h
      split at h
      · exact ih h
      · cases h

theorem httpclientRecvLoop_length {buf : List Byte} (hle : minLen ≤ maxLen) (hbuf : buf.length ≤ maxLen) :
    (httpclientRecvLoop minLen maxLen fuel buf s).2.1.length ≤ maxLen := by
  induction fuel generalizing buf s with
  | zero => exact hbuf
  | succ fuel ih =>
    -- what a `recv` of at most the room adds
    have hnext : ∀ {block n bs t}, recv block n s = (.got bs, t) → n ≤ maxLen - buf.length →
        (httpclientRecvLoop minLen maxLen fuel (buf ++ bs) t).2.1.length ≤ maxLen := by
      intro block n bs t hrecv hn
      have hbs := recv_length hrecv
      refine ih ?_
      rw [List.length_append]
      omega
    unfold httpclientRecvLoop
    split
    · split
      · split
        case h_1 => exact hbuf
        case h_2 hrecv => exact hnext hrecv (by omega)
        case h_3 => exact hbuf
      · split
        case h_1 => exact hbuf
        case h_2 => exact hbuf
        case h_3 hrecv => exact hnext hrecv le_rfl
        case h_4 => exact hbuf
    · exact hbuf

theorem httpclientRecv_length (hle : minLen ≤ maxLen) : (httpclientRecv minLen maxLen s).2.1.length ≤ maxLen :=
  httpclientRecvLoop_length hle (Nat.zero_le _)

end

/-- **A call of `httpclient_recv`** reads a prefix of what is to come; at least `minLen` bytes unless the
stream ends before. -/
theorem httpclientRecv_spec {minLen maxLen : Nat} {s : Socket} (hs : s.NoFail) (hle : minLen ≤ maxLen) :
    ∃ ret bs s', httpclientRecv minLen maxLen s = (ret, bs, s') ∧
      bs ++ s'.bytes = s.bytes ∧ s'.NoFail ∧ bs.length ≤ maxLen ∧
      (ret = .ok ∧ minLen ≤ bs.length ∨ ret = .closed ∧ s.bytes.length < minLen) ∧
      bs.length + s'.weight ≤ s.weight ∧ (minLen = 0 → 0 < maxLen → s ≠ [] → s'.weight < s.weight) ∧
      (s.Slow → s'.Slow ∧ bs.length ≤ max minLen 1) := by
  obtain ⟨ret, bs, s', g1, g2, g3, g4, g5, g6, g7, g8⟩ :=
    @httpclientRecvLoop_spec _ _ _ [] _ hs hle (Nat.zero_le _) (Nat.le_add_left _ _)
  refine ⟨ret, bs, s', g1, g2, g3, g4, g5, g6, fun h0 h1 => g7 (Nat.le_of_eq h0) h1, fun h => ?_⟩
  simpa using g8 h (.inr (.inl rfl))

/-- If that much is to come, a call succeeds. -/
theorem httpclientRecv_ok {minLen maxLen : Nat} {s : Socket} (hs : s.NoFail) (hle : minLen ≤ maxLen)
    (hmin : minLen ≤ s.bytes.length) :
    ∃ bs s', httpclientRecv minLen maxLen s = (.ok, bs, s') ∧
      bs ++ s'.bytes = s.bytes ∧ s'.NoFail ∧ minLen ≤ bs.length ∧ bs.length ≤ maxLen ∧
      bs.length + s'.weight ≤ s.weight ∧ (minLen = 0 → 0 < maxLen → s ≠ [] → s'.weight < s.weight) ∧
      (s.Slow → s'.Slow ∧ bs.length ≤ max minLen 1) := by
  obtain ⟨ret, bs, s', g1, g2, g3, g4, ⟨rfl, g5⟩ | ⟨-, g5⟩, g6⟩ := httpclientRecv_spec hs hle
  · exact ⟨bs, s', g1, g2, g3, g5, g4, g6⟩
  · omega

/-! ## What comes first -/

namespace Socket

/-- The bytes that come without a pause. -/
def burst : Socket → List Byte
  | .bytes b bs :: s => b :: bs ++ burst s
  | _ => []

/-- The bytes of the first burst. -/
def ready (s : Socket) : List Byte := burst (s.dropWhile (· = .wouldBlock))

theorem burst_push {bs : List Byte} {s : Socket} : burst (push bs s) = bs ++ burst s := by
  cases bs <;> rfl

end Socket

/-- Behind the first byte, the loop takes what comes without a pause. -/
theorem httpclientRecvLoop_burst {n fuel : Nat} {buf : List Byte} {s : Socket} (hs : s.NoFail) (hbuf : buf ≠ [])
    (hle : buf.length ≤ n) (hfuel : n ≤ buf.length + fuel) :
    (httpclientRecvLoop 1 n fuel buf s).2.1 = buf ++ s.burst.take (n - buf.length) := by
  have hpos := List.length_pos_iff.2 hbuf
  induction fuel generalizing buf s with
  | zero =>
    have h0 : n - buf.length = 0 := by omega
    simp [httpclientRecvLoop, h0]
  | succ fuel ih =>
    unfold httpclientRecvLoop
    by_cases hmax : buf.length < n
    case neg =>
      have h0 : n - buf.length = 0 := by omega
      simp [hmax, h0]
    have hmin : ¬ buf.length < 1 := by omega
    rw [if_pos hmax, if_neg hmin]
    cases s with
    | nil => simp [recv, burst]
    | cons e s =>
      cases e with
      | fail => exact absurd List.mem_cons_self hs
      | wouldBlock => simp [recv, burst]
      | bytes b bs =>
        obtain ⟨k, hk⟩ : ∃ k, n - buf.length = k + 1 := ⟨n - buf.length - 1, by omega⟩
        rw [hk]
        simp only [recv, List.take_succ_cons, List.drop_succ_cons]
        have hlen : (buf ++ b :: bs.take k).length = buf.length + 1 + min k bs.length := by simp; omega
        rw [ih (hs.tail.push) (by simp) (by omega) (by omega) (by omega), burst_push, burst, List.cons_append,
          List.take_succ_cons, List.take_append, List.append_assoc, List.cons_append]
        have hk' : n - (buf ++ b :: bs.take k).length = k - min k bs.length := by omega
        have hdrop : (bs.drop k).take (k - min k bs.length) = [] := by
          rw [List.take_eq_nil_iff, List.drop_eq_nil_iff]; omega
        have hsub : k - min k bs.length - (bs.drop k).length = k - bs.length := by rw [List.length_drop]; omega
        rw [hk', List.take_append, hdrop, hsub, List.nil_append]

theorem recv_skip {n : Nat} {s : Socket} : recv true n s = recv true n (s.dropWhile (· = .wouldBlock)) := by
  induction s with
  | nil => rfl
  | cons e s ih => cases e <;> first | exact ih | rfl

/-- The first call reads the first burst. -/
theorem httpclientRecv_ready {n : Nat} {s : Socket} (hs : s.NoFail) (hn : 1 ≤ n) :
    (httpclientRecv 1 n s).2.1 = s.ready.take n := by
  obtain ⟨m, rfl⟩ : ∃ m, n = m + 1 := ⟨n - 1, by omega⟩
  have hs' : NoFail (s.dropWhile (· = .wouldBlock)) := fun hm => hs ((List.dropWhile_suffix _).subset hm)
  rw [httpclientRecv, httpclientRecvLoop, if_pos (by simp), if_pos (by simp), List.length_nil, recv_skip, ready]
  cases hskip : s.dropWhile (· = .wouldBlock) with
  | nil => simp [recv, burst]
  | cons e t =>
    rw [hskip] at hs'
    cases e with
    | fail => exact absurd List.mem_cons_self hs'
    | wouldBlock =>
      have hhead := List.head?_dropWhile_not (fun e : SocketEvent => e = .wouldBlock) s
      rw [hskip] at hhead
      simp at hhead
    | bytes b bs =>
      simp only [recv, Nat.sub_zero, List.take_succ_cons, List.take_zero, List.drop_succ_cons, List.drop_zero]
      rw [httpclientRecvLoop_burst hs'.tail.push (by simp) (by simp) (by simp), burst_push]
      rfl

/-- At a pause the loop ends. -/
theorem httpclientRecvLoop_pause {n fuel : Nat} {buf : List Byte} {s : Socket} (hs : s.NoFail) (hslow : s.Slow)
    (hbuf : buf ≠ []) :
    ∃ s', httpclientRecvLoop 1 n fuel buf (.wouldBlock :: s) = (.ok, buf, s') ∧ s'.bytes = s.bytes ∧
      s'.NoFail ∧ s'.Slow := by
  have hpos := List.length_pos_iff.2 hbuf
  have hmin : ¬ buf.length < 1 := by omega
  have hpause : NoFail (.wouldBlock :: s) := by simpa [NoFail] using hs
  cases fuel with
  | zero => exact ⟨_, rfl, rfl, hpause, hslow⟩
  | succ fuel =>
    rw [httpclientRecvLoop, if_neg hmin]
    by_cases hmax : buf.length < n
    · rw [if_pos hmax]
      exact ⟨s, rfl, rfl, hs, hslow⟩
    · rw [if_neg hmax]
      exact ⟨_, rfl, rfl, hpause, hslow⟩

/-- A burst that fits is read as a whole, and what comes slowly behind it still does. -/
theorem httpclientRecv_burst {n : Nat} {b : Byte} {bs : List Byte} {s : Socket} (hs : s.NoFail) (hslow : s.Slow)
    (hn : (b :: bs).length ≤ n) :
    ∃ s', httpclientRecv 1 n (.bytes b bs :: .wouldBlock :: s) = (.ok, b :: bs, s') ∧ s'.bytes = s.bytes ∧
      s'.NoFail ∧ s'.Slow := by
  obtain ⟨m, rfl⟩ : ∃ m, n = m + 1 := ⟨n - 1, by simp at hn; omega⟩
  have hfirst : httpclientRecv 1 (m + 1) (.bytes b bs :: .wouldBlock :: s) =
      httpclientRecvLoop 1 (m + 1) m [b] (push bs (.wouldBlock :: s)) := by
    rw [httpclientRecv, httpclientRecvLoop, if_pos (by simp), if_pos (by simp)]
    rfl
  rw [hfirst]
  cases bs with
  | nil => exact httpclientRecvLoop_pause hs hslow (by simp)
  | cons c cs =>
    simp only [List.length_cons] at hn
    obtain ⟨k, rfl⟩ : ∃ k, m = k + 1 := ⟨m - 1, by omega⟩
    have hmin : ¬ [b].length < 1 := by simp
    have hmax : [b].length < k + 1 + 1 := by simp
    have hroom : (c :: cs).length ≤ k + 1 + 1 - [b].length := by simp; omega
    have hall : recv false (k + 1 + 1 - [b].length) (push (c :: cs) (.wouldBlock :: s)) =
        (.got (c :: cs), .wouldBlock :: s) := by
      rw [push, recv, List.take_of_length_le hroom, List.drop_of_length_le hroom]
      rfl
    rw [httpclientRecvLoop, if_pos hmax, if_neg hmin, hall]
    exact httpclientRecvLoop_pause hs hslow (by simp)

namespace Socket

/-- Byte by byte. -/
def slow (bs : List Byte) : Socket := bs.flatMap fun b => [.bytes b [], .wouldBlock]

theorem bytes_slow (bs : List Byte) : (slow bs).bytes = bs := by
  induction bs with
  | nil => rfl
  | cons b bs ih => exact congrArg (b :: ·) ih

theorem noFail_slow (bs : List Byte) : (slow bs).NoFail := by
  simp [NoFail, slow]

theorem slow_slow (bs : List Byte) : (slow bs).Slow := by
  induction bs with
  | nil => trivial
  | cons b bs ih => exact ⟨rfl, rfl, ih⟩

end Socket

end AudioPlayer
