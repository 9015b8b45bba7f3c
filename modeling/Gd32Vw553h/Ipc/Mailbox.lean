/-
  Ipc/Mailbox.lean --- mailboxes (`_rt_mb_send_wait`, `rt_mb_urgent`, `_rt_mb_recv` and
  `rt_mb_control` of `rt-thread/src/ipc.c`).

  The mails are kept in a ring between `out_offset` and `in_offset`; `rt_mb_urgent` puts one in
  front.  A call that finds the mailbox full or empty waits and competes again
  (`Ipc.Blocking`).  Sizes are below `2 ^ 16`, so that the offsets do not overflow.

  `mailbox_right` compares the mailbox with a queue with two ends, by what the calls return.
-/
import Gd32Vw553h.Foundation.BoundedDeque
import Gd32Vw553h.Foundation.RingQueue
import Gd32Vw553h.Ipc.Blocking

set_option autoImplicit false

namespace Gd32Vw553h.Ipc

open Gd32Vw553h.Foundation Gd32Vw553h.Klibc

/-! ## The mails -/

/-- `RT_MB_ENTRY_MAX` -/
abbrev rtMbEntryMax : Nat := 0xffff

/-- `rt_ubase_t` -/
abbrev Mail : Type := BitVec 32

/-- `struct rt_mailbox`, without its lists. -/
structure RtMailbox where
  msgPool : Nat → Mail
  size : Nat
  entry : Nat
  inOffset : Nat
  outOffset : Nat

namespace RtMailbox

variable {mb : RtMailbox} {value : Mail}

def init (msgPool : Nat → Mail) (size : Nat) : RtMailbox where
  msgPool := msgPool
  size := size
  entry := 0
  inOffset := 0
  outOffset := 0

/-- `mb->msg_pool[mb->in_offset] = value`, and the next `in_offset`. -/
def store (mb : RtMailbox) (value : Mail) : RtMailbox :=
  { mb with
    msgPool := Function.update mb.msgPool mb.inOffset value
    inOffset := ringNext mb.size mb.inOffset }

/-- The same in front of the other mails. -/
def storeFirst (mb : RtMailbox) (value : Mail) : RtMailbox :=
  let outOffset := if mb.outOffset > 0 then mb.outOffset - 1 else mb.size - 1
  { mb with
    outOffset := outOffset
    msgPool := Function.update mb.msgPool outOffset value
    entry := mb.entry + 1 }

/-- A mail is taken from `out_offset`. -/
def fetch (mb : RtMailbox) : Mail × RtMailbox :=
  (mb.msgPool mb.outOffset, { mb with
    outOffset := ringNext mb.size mb.outOffset
    entry := if mb.entry > 0 then mb.entry - 1 else mb.entry })

/-- The mailbox is initialised again. -/
def clear (mb : RtMailbox) : RtMailbox := { mb with entry := 0, inOffset := 0, outOffset := 0 }

/-- The mails in their order. -/
def mails (mb : RtMailbox) : List Mail := ringSlice mb.size mb.msgPool mb.outOffset mb.entry

/-- The offsets are in the pool and enclose the mails. -/
structure WellFormed (mb : RtMailbox) : Prop where
  size : mb.size ≤ rtMbEntryMax
  entry : mb.entry ≤ mb.size
  outOffset : mb.outOffset < mb.size
  inOffset : mb.inOffset = ringIndex mb.size mb.outOffset mb.entry

theorem wellFormed_init (msgPool : Nat → Mail) {size : Nat} (hpos : 0 < size)
    (hmax : size ≤ rtMbEntryMax) : (init msgPool size).WellFormed where
  size := hmax
  entry := Nat.zero_le _
  outOffset := hpos
  inOffset := (if_pos hpos).symm

theorem mails_length (mb : RtMailbox) : mb.mails.length = mb.entry := ringSlice_length _ _ _

/-- A mail is appended. -/
theorem WellFormed.store (h : mb.WellFormed) (hroom : mb.entry < mb.size) (value : Mail) :
    { mb.store value with entry := mb.entry + 1 }.WellFormed ∧
      { mb.store value with entry := mb.entry + 1 }.mails = mb.mails ++ [value] := by
  have hout := h.outOffset
  refine ⟨⟨h.size, hroom, hout, ?_⟩, ?_⟩
  · show ringNext mb.size mb.inOffset = ringIndex mb.size mb.outOffset (mb.entry + 1)
    rw [h.inOffset]
    unfold ringNext ringIndex
    split_ifs <;> omega
  · show ringSlice mb.size (Function.update mb.msgPool mb.inOffset value) mb.outOffset
      (mb.entry + 1) = _
    rw [h.inOffset]
    exact ringSlice_update mb.msgPool hroom value

theorem WellFormed.storeFirst (h : mb.WellFormed) (hroom : mb.entry < mb.size) (value : Mail) :
    (mb.storeFirst value).WellFormed ∧ (mb.storeFirst value).mails = value :: mb.mails := by
  have hout := h.outOffset
  obtain ⟨before, hbefore⟩ : ∃ before,
      before = if mb.outOffset > 0 then mb.outOffset - 1 else mb.size - 1 := ⟨_, rfl⟩
  have hlt : before < mb.size := by
    rw [hbefore]
    split <;> omega
  have hnext : ringNext mb.size before = mb.outOffset := by
    rw [hbefore]
    unfold ringNext
    split_ifs <;> omega
  have hstored : mb.storeFirst value = { mb with
      outOffset := before
      msgPool := Function.update mb.msgPool before value
      entry := mb.entry + 1 } := by
    rw [hbefore]
    rfl
  rw [hstored]
  refine ⟨⟨h.size, hroom, hlt, ?_⟩, ?_⟩
  · show mb.inOffset = ringIndex mb.size before (mb.entry + 1)
    rw [h.inOffset, ← hnext]
    unfold ringNext ringIndex
    split_ifs <;> omega
  · show ringSlice mb.size (Function.update mb.msgPool before value) before (mb.entry + 1) = _
    rw [ringSlice_cons _ hlt hroom, hnext, Function.update_self]
    refine congrArg (value :: ·) (List.map_congr_left fun i hi => ?_)
    have hi : i < mb.entry := List.mem_range.mp hi
    refine Function.update_of_ne ?_ _ _
    rw [← hnext]
    unfold ringNext ringIndex
    split_ifs <;> omega

/-- The first mail is taken. -/
theorem WellFormed.fetch (h : mb.WellFormed) (hmail : 0 < mb.entry) :
    mb.fetch.2.WellFormed ∧ mb.mails = mb.fetch.1 :: mb.fetch.2.mails ∧
      mb.fetch.2.entry = mb.entry - 1 := by
  have hout := h.outOffset
  have hentry := h.entry
  have hleft : (if mb.entry > 0 then mb.entry - 1 else mb.entry) = mb.entry - 1 := if_pos hmail
  refine ⟨⟨h.size, ?_, ringNext_lt (by omega) _, ?_⟩, ?_, hleft⟩
  · show (if mb.entry > 0 then mb.entry - 1 else mb.entry) ≤ mb.size
    omega
  · show mb.inOffset = ringIndex mb.size (ringNext mb.size mb.outOffset)
      (if mb.entry > 0 then mb.entry - 1 else mb.entry)
    rw [h.inOffset, hleft]
    unfold ringNext ringIndex
    split_ifs <;> omega
  · show ringSlice mb.size mb.msgPool mb.outOffset mb.entry = mb.msgPool mb.outOffset ::
      ringSlice mb.size mb.msgPool (ringNext mb.size mb.outOffset)
        (if mb.entry > 0 then mb.entry - 1 else mb.entry)
    rw [hleft, ← ringSlice_cons _ hout (by omega), Nat.sub_add_cancel hmail]

theorem WellFormed.clear (h : mb.WellFormed) : mb.clear.WellFormed ∧ mb.clear.mails = [] := by
  have hpos : 0 < mb.size := Nat.lt_of_le_of_lt (Nat.zero_le _) h.outOffset
  exact ⟨⟨h.size, Nat.zero_le _, hpos, (if_pos hpos).symm⟩, rfl⟩

end RtMailbox

/-! ## The calls -/

/-- `rt_mb_send`, `rt_mb_urgent`, `rt_mb_recv` and `RT_IPC_CMD_RESET` -/
inductive MbRequest where
  | send (value : Mail)
  | urgent (value : Mail)
  | recv
  | reset
  deriving DecidableEq

/-- What a call has returned. -/
structure MbReturn where
  request : MbRequest
  /-- the timeout of the caller -/
  given : BitVec 32
  error : Int
  /-- `*value`, where it has been written -/
  value : Option Mail
  /-- the ticks since the call -/
  ticks : Nat

/-- A mailbox and the threads that use it. -/
structure MbState (τ : Type*) where
  mb : RtMailbox
  block : BlockState τ MbRequest
  returns : List MbReturn

/-- What threads, interrupt handlers and timers do. -/
inductive MbStep (τ : Type*) where
  /-- `rt_mb_send_wait`, up to its return or its `rt_schedule` -/
  | sendWait (thread : τ) (value : Mail) (timeout : BitVec 32)
  /-- `rt_mb_recv`, up to its return or its `rt_schedule` -/
  | recv (thread : τ) (timeout : BitVec 32)
  /-- `rt_mb_send`, which does not wait -/
  | send (value : Mail)
  /-- `rt_mb_recv` with `RT_WAITING_NO` -/
  | recvNow
  | urgent (value : Mail)
  | reset
  /-- a thread goes on behind its `rt_schedule` -/
  | wake (thread : τ)
  /-- the timer of a thread runs out -/
  | expire (thread : τ)
  | tick

/-- The list a call waits in. -/
def MbRequest.side : MbRequest → WaitSide
  | .send _ | .urgent _ => .senders
  | .recv | .reset => .receivers

/-- What is returned without waiting. -/
def MbRequest.refusal : MbRequest → Int
  | .recv => -rtETimeout
  | _ => -rtEFull

/-- The test of the loops: the mailbox is full or empty. -/
def RtMailbox.blocked (mb : RtMailbox) : MbRequest → Bool
  | .send _ | .urgent _ => mb.entry == mb.size
  | .recv => mb.entry == 0
  | .reset => false

namespace MbState

variable {τ : Type*}

def init (msgPool : Nat → Mail) (size : Nat) (flag : IpcFlag) (currentPriority : τ → Nat)
    (now : Nat) : MbState τ where
  mb := .init msgPool size
  block := .init flag currentPriority now
  returns := []

/-- A call returns. -/
def finish (s : MbState τ) (request : MbRequest) (given : BitVec 32) (since : Nat) (error : Int)
    (value : Option Mail) : MbState τ :=
  { s with returns := s.returns ++ [⟨request, given, error, value, s.block.now - since⟩] }

section Code

variable [DecidableEq τ]

/-- The end of `_rt_mb_send_wait`, once there is room. -/
def put (s : MbState τ) (value : Mail) : Int × MbState τ :=
  let mb := s.mb.store value
  if mb.entry < rtMbEntryMax then
    (0, { s with mb := { mb with entry := mb.entry + 1 }, block := s.block.wakeOne .receivers })
  else (-rtEFull, { s with mb := mb })

/-- The end of `rt_mb_urgent`. -/
def putFirst (s : MbState τ) (value : Mail) : MbState τ :=
  { s with mb := s.mb.storeFirst value, block := s.block.wakeOne .receivers }

/-- The end of `_rt_mb_recv`, once there is a mail. -/
def take (s : MbState τ) : Mail × MbState τ :=
  (s.mb.fetch.1, { s with mb := s.mb.fetch.2, block := s.block.wakeOne .senders })

/-- `rt_mb_control` with `RT_IPC_CMD_RESET` -/
def clear (s : MbState τ) : MbState τ :=
  { s with mb := s.mb.clear, block := (s.block.resumeAll .receivers).resumeAll .senders }

/-- A call that need not wait returns. -/
def serve (s : MbState τ) (request : MbRequest) (given : BitVec 32) (since : Nat) : MbState τ :=
  match request with
  | .send value => (s.put value).2.finish request given since (s.put value).1 none
  | .urgent value => (s.putFirst value).finish request given since 0 none
  | .recv => s.take.2.finish request given since 0 (some s.take.1)
  | .reset => s.clear.finish request given since 0 none

/-- A call that does not wait. -/
def callNow (s : MbState τ) (request : MbRequest) : MbState τ :=
  if s.mb.blocked request then s.finish request 0 s.block.now request.refusal none
  else s.serve request 0 s.block.now

/-- The loops of `_rt_mb_send_wait` and `_rt_mb_recv`, up to `rt_schedule`. -/
def waitLoop (s : MbState τ) (thread : τ) (call : BlockedCall MbRequest) : MbState τ :=
  if s.mb.blocked call.request then
    let s := { s with block := s.block.setError thread (-rtEIntr) }
    if call.timeout = 0 then
      let s := if call.request = MbRequest.recv then
        { s with block := s.block.setError thread (-rtETimeout) } else s
      s.finish call.request call.given call.since call.request.refusal none
    else { s with block := s.block.suspend thread call }
  else s.serve call.request call.given call.since

/-- A call of a thread that may wait. -/
def callWait (s : MbState τ) (thread : τ) (request : MbRequest) (timeout : BitVec 32) :
    MbState τ :=
  if timeout = 0 then s.callNow request
  else s.waitLoop thread {
    request := request, side := request.side, timeout := timeout, tickDelta := 0
    given := timeout, since := s.block.now }

/-- The loops behind `rt_schedule`. -/
def waitEnd (s : MbState τ) (thread : τ) (call : BlockedCall MbRequest) : MbState τ :=
  let left : MbState τ := { s with block := s.block.leave thread }
  if s.block.susp.error thread ≠ 0 then
    left.finish call.request call.given call.since (s.block.susp.error thread) none
  else left.waitLoop thread { call with timeout := s.block.timeLeft call }

/-- `rt_mb_send_wait` -/
def rtMbSendWait (s : MbState τ) (thread : τ) (value : Mail) (timeout : BitVec 32) : MbState τ :=
  s.callWait thread (.send value) timeout

/-- `rt_mb_recv` -/
def rtMbRecv (s : MbState τ) (thread : τ) (timeout : BitVec 32) : MbState τ :=
  s.callWait thread .recv timeout

/-- `rt_mb_send` -/
def rtMbSend (s : MbState τ) (value : Mail) : MbState τ := s.callNow (.send value)

/-- `rt_mb_urgent` -/
def rtMbUrgent (s : MbState τ) (value : Mail) : MbState τ := s.callNow (.urgent value)

/-- `rt_mb_control` -/
def rtMbReset (s : MbState τ) : MbState τ := s.callNow .reset

/-- A thread is in no call. -/
def Free (s : MbState τ) (thread : τ) : Prop :=
  s.block.susp.suspended thread = false ∧ (s.block.call thread).isNone

instance (s : MbState τ) (thread : τ) : Decidable (s.Free thread) :=
  inferInstanceAs (Decidable (_ ∧ _))

def machine : Machine (MbState τ) (MbStep τ) where
  step s
    | .sendWait thread value timeout =>
        if s.Free thread then some (s.rtMbSendWait thread value timeout) else none
    | .recv thread timeout => if s.Free thread then some (s.rtMbRecv thread timeout) else none
    | .send value => some (s.rtMbSend value)
    | .recvNow => some (s.callNow .recv)
    | .urgent value => some (s.rtMbUrgent value)
    | .reset => some s.rtMbReset
    | .wake thread =>
        if s.block.susp.suspended thread then none
        else (s.block.call thread).map (s.waitEnd thread)
    | .expire thread =>
        if s.block.Due thread then some { s with block := s.block.expire thread } else none
    | .tick => some { s with block := s.block.tick }

end Code

/-! ## What mailboxes promise -/

/-- What a call has done to the queue of mails. -/
def op (r : MbReturn) : Option (DequeOp Mail) :=
  if r.error = 0 then
    match r.request with
    | .send value => some (.append value)
    | .urgent value => some (.prepend value)
    | .recv => r.value.map .take
    | .reset => some .clear
  else none

/-- The mails that may be received, and the places that may be used. -/
def room (mb : RtMailbox) : WaitSide → Nat
  | .receivers => mb.entry
  | .senders => mb.size - mb.entry

structure MailboxRight (s : MbState τ) (size : Nat) : Prop where
  /-- what the calls have returned is a run of a queue with two ends, which now holds the mails -/
  refines : (boundedDeque size).exec [] (s.returns.filterMap op) = some s.mb.mails
  entry : s.mb.entry = s.mb.mails.length
  /-- a thread has been woken for each mail and for each free place, while threads wait for them -/
  counted : ∀ k, s.block.Counted k (room s.mb k)
  /-- no call gives up before its timeout -/
  late : ∀ r ∈ s.returns, r.error < 0 → 0 < r.given.toInt → r.given.toInt ≤ r.ticks

/-! ## The invariant -/

section Invariant

variable {s next : MbState τ} {t : τ} {size : Nat} {request : MbRequest} {given : BitVec 32}
  {since : Nat} {c : BlockedCall MbRequest}

/-- What holds in the middle of a call, too. -/
structure Base (s : MbState τ) (size : Nat) : Prop where
  block : s.block.Kept fun _ => false
  sides : ∀ t c, s.block.call t = some c → c.side = c.request.side
  mb : s.mb.WellFormed
  sized : s.mb.size = size
  refines : (boundedDeque size).exec [] (s.returns.filterMap op) = some s.mb.mails
  late : ∀ r ∈ s.returns, r.error < 0 → 0 < r.given.toInt → r.given.toInt ≤ r.ticks

structure Kept (s : MbState τ) (size : Nat) : Prop extends Base s size where
  counted : ∀ k, s.block.Counted k (room s.mb k)

theorem kept_init (msgPool : Nat → Mail) (flag : IpcFlag) (currentPriority : τ → Nat) (now : Nat)
    (hpos : 0 < size) (hmax : size ≤ rtMbEntryMax) :
    (init msgPool size flag currentPriority now).Kept size where
  block := BlockState.kept_init flag currentPriority now
  sides _ _ hc := by cases hc
  mb := RtMailbox.wellFormed_init msgPool hpos hmax
  sized := rfl
  refines := rfl
  late _ hr := absurd hr List.not_mem_nil
  counted k := BlockState.counted_init flag currentPriority now k _

/-- A return that does nothing to the queue. -/
theorem exec_returns_none {rs : List MbReturn} {r : MbReturn} {q : List Mail}
    (h : (boundedDeque size).exec [] (rs.filterMap op) = some q) (hr : op r = none) :
    (boundedDeque size).exec [] ((rs ++ [r]).filterMap op) = some q := by
  rw [List.filterMap_append, List.filterMap_cons_none hr, List.filterMap_nil, List.append_nil]
  exact h

theorem exec_returns_some {rs : List MbReturn} {r : MbReturn} {q q' : List Mail}
    {o : DequeOp Mail} (h : (boundedDeque size).exec [] (rs.filterMap op) = some q)
    (hr : op r = some o) (hstep : (boundedDeque size).step q o = some q') :
    (boundedDeque size).exec [] ((rs ++ [r]).filterMap op) = some q' := by
  rw [List.filterMap_append, List.filterMap_cons_some hr, List.filterMap_nil,
    Machine.exec_concat h]
  exact hstep

theorem late_finish {rs : List MbReturn} {r : MbReturn}
    (h : ∀ r ∈ rs, r.error < 0 → 0 < r.given.toInt → r.given.toInt ≤ r.ticks)
    (hr : r.error < 0 → 0 < r.given.toInt → r.given.toInt ≤ r.ticks) :
    ∀ r' ∈ rs ++ [r], r'.error < 0 → 0 < r'.given.toInt → r'.given.toInt ≤ r'.ticks := by
  intro r' hmem
  rcases List.mem_append.mp hmem with hmem | hmem
  · exact h r' hmem
  · rw [List.mem_singleton.mp hmem]
    exact hr

theorem refusal_neg (request : MbRequest) : request.refusal < 0 := by
  have hfull : -rtEFull < 0 := by decide
  cases request with
  | send | urgent | reset => exact hfull
  | recv => exact (by decide : -rtETimeout < 0)

/-- A call that fails does nothing to the mails. -/
theorem Base.fail (h : s.Base size) {error : Int} (herror : error ≠ 0)
    (hlate : error < 0 → 0 < given.toInt → given.toInt ≤ (s.block.now - since : Nat)) :
    (s.finish request given since error none).Base size where
  block := h.block
  sides := h.sides
  mb := h.mb
  sized := h.sized
  refines := exec_returns_none h.refines (if_neg herror)
  late := late_finish h.late hlate

/-- A blocked call has no room on its side. -/
theorem room_of_blocked {mb : RtMailbox} (hblocked : mb.blocked request = true) :
    room mb request.side = 0 := by
  cases request with
  | send | urgent =>
    have hfull : mb.entry = mb.size := beq_iff_eq.mp hblocked
    exact Nat.sub_eq_zero_of_le hfull.ge
  | recv =>
    have hempty : mb.entry = 0 := beq_iff_eq.mp hblocked
    exact hempty
  | reset => cases hblocked

/-- A unit of room is left over for the call that has it. -/
theorem Kept.spare (h : s.Kept size) (k : WaitSide) :
    s.block.Counted k (room s.mb k - if k = request.side then 1 else 0) :=
  (h.counted k).mono (Nat.sub_le _ _)

variable [DecidableEq τ]

/-- A call is served: it has its unit of room, and wakes a thread for the other side. -/
theorem Base.serve (h : s.Base size) (hfree : s.mb.blocked request = false)
    (hcounted : ∀ k, s.block.Counted k (room s.mb k - if k = request.side then 1 else 0)) :
    (s.serve request given since).Kept size := by
  have hzero : ∀ (P : Prop), (0 : Int) < 0 → P := fun P hneg => absurd hneg (lt_irrefl 0)
  have hentry := h.mb.entry
  have hmax := h.mb.size
  have hlength : s.mb.mails.length = s.mb.entry := s.mb.mails_length
  cases request with
  | send value =>
    have hroom : s.mb.entry < s.mb.size := Nat.lt_of_le_of_ne hentry fun heq =>
      Bool.false_ne_true (hfree.symm.trans (beq_iff_eq.mpr heq))
    obtain ⟨hmb, hmails⟩ := h.mb.store hroom value
    have hput : s.put value = (0, { s with
        mb := { s.mb.store value with entry := s.mb.entry + 1 }
        block := s.block.wakeOne .receivers }) := if_pos (Nat.lt_of_lt_of_le hroom hmax)
    rw [MbState.serve, hput]
    exact {
      block := h.block.wakeOne fun _ _ _ => rfl
      sides := h.sides
      mb := hmb
      sized := h.sized
      refines := exec_returns_some h.refines rfl (by
        show _ = some { s.mb.store value with entry := s.mb.entry + 1 }.mails
        rw [hmails]
        exact if_pos (by rw [hlength, ← h.sized]; exact hroom))
      late := late_finish h.late fun hneg => hzero _ hneg
      counted := fun k => by
        cases k with
        | receivers => exact (hcounted .receivers).wakeOne h.block fun _ _ _ => rfl
        | senders =>
          exact (hcounted .senders).wakeOne_of_ne h.block (fun _ _ _ => rfl) (by decide) }
  | urgent value =>
    have hroom : s.mb.entry < s.mb.size := Nat.lt_of_le_of_ne hentry fun heq =>
      Bool.false_ne_true (hfree.symm.trans (beq_iff_eq.mpr heq))
    obtain ⟨hmb, hmails⟩ := h.mb.storeFirst hroom value
    exact {
      block := h.block.wakeOne fun _ _ _ => rfl
      sides := h.sides
      mb := hmb
      sized := h.sized
      refines := exec_returns_some h.refines rfl (by
        show _ = some (s.mb.storeFirst value).mails
        rw [hmails]
        exact if_pos (by rw [hlength, ← h.sized]; exact hroom))
      late := late_finish h.late fun hneg => hzero _ hneg
      counted := fun k => by
        cases k with
        | receivers => exact (hcounted .receivers).wakeOne h.block fun _ _ _ => rfl
        | senders =>
          exact (hcounted .senders).wakeOne_of_ne h.block (fun _ _ _ => rfl) (by decide) }
  | recv =>
    have hmail : 0 < s.mb.entry := Nat.pos_of_ne_zero fun heq =>
      Bool.false_ne_true (hfree.symm.trans (beq_iff_eq.mpr heq))
    obtain ⟨hmb, hmails, hleft⟩ := h.mb.fetch hmail
    exact {
      block := h.block.wakeOne fun _ _ _ => rfl
      sides := h.sides
      mb := hmb
      sized := h.sized
      refines := exec_returns_some h.refines rfl (by
        rw [hmails]
        exact if_pos rfl)
      late := late_finish h.late fun hneg => hzero _ hneg
      counted := fun k => by
        cases k with
        | receivers =>
          refine BlockState.Counted.mono
            ((hcounted .receivers).wakeOne_of_ne h.block (fun _ _ _ => rfl) (by decide)) ?_
          exact hleft.le
        | senders =>
          refine ((hcounted .senders).wakeOne h.block fun _ _ _ => rfl).mono ?_
          show s.mb.size - s.mb.fetch.2.entry ≤ s.mb.size - s.mb.entry - 0 + 1
          omega }
  | reset =>
    obtain ⟨hmb, hmails⟩ := h.mb.clear
    have hfirst := h.block.resumeAll (fun _ => rfl) .receivers
    exact {
      block := hfirst.resumeAll (fun _ => rfl) .senders
      sides := h.sides
      mb := hmb
      sized := h.sized
      refines := exec_returns_some h.refines rfl (by
        show _ = some s.mb.clear.mails
        rw [hmails]
        rfl)
      late := late_finish h.late fun hneg => hzero _ hneg
      counted := fun k => by
        obtain ⟨hcount, hempty, -⟩ := (hcounted k).resumeAll h.block (fun _ => rfl) .receivers
        obtain ⟨hcount', hempty', hstays⟩ := hcount.resumeAll hfirst (fun _ => rfl) .senders
        refine hcount'.of_empty ?_
        cases k with
        | receivers => exact hstays hempty
        | senders => exact hempty' }

theorem Kept.callNow (h : s.Kept size) (request : MbRequest) : (s.callNow request).Kept size := by
  unfold MbState.callNow
  cases hblocked : s.mb.blocked request with
  | true =>
    have hneg := refusal_neg request
    exact { h.fail hneg.ne fun _ hpos => absurd hpos (by decide) with counted := h.counted }
  | false => exact h.serve hblocked h.spare

/-- The loops: a thread with a unit of room uses it, any other one waits or gives up. -/
theorem Base.waitLoop (h : s.Base size) (hrun : s.block.susp.suspended t = false)
    (hout : s.block.call t = none) (hside : c.side = c.request.side) (hgoes : s.block.GoesOn c)
    (hcounted : ∀ k, s.block.Counted k (room s.mb k - if k = c.request.side then 1 else 0)) :
    (s.waitLoop t c).Kept size := by
  unfold MbState.waitLoop
  cases hblocked : s.mb.blocked c.request with
  | false => exact h.serve hblocked hcounted
  | true =>
    have hzero := room_of_blocked hblocked
    have hall : ∀ k, s.block.Counted k (room s.mb k) := fun k => by
      refine (hcounted k).mono ?_
      by_cases hk : k = c.request.side
      · rw [hk, hzero]
        exact Nat.zero_le _
      · rw [if_neg hk]
        exact le_refl _
    have hblock := h.block.setError hout (-rtEIntr)
    have hcount : ∀ k, (s.block.setError t (-rtEIntr)).Counted k (room s.mb k) :=
      fun k => (hall k).setError hout (-rtEIntr)
    rw [if_pos rfl]
    by_cases hover : c.timeout = 0
    · rw [if_pos hover]
      have hneg := refusal_neg c.request
      have hlate : 0 < c.given.toInt → c.given.toInt ≤ (s.block.now - c.since : Nat) :=
        fun hpos => by
          have hdone := hgoes.late hover hpos
          have hsince := hgoes.since
          omega
      split
      · exact {
          block := hblock.setError hout (-rtETimeout)
          sides := h.sides
          mb := h.mb
          sized := h.sized
          refines := exec_returns_none h.refines (if_neg hneg.ne)
          late := late_finish h.late fun _ => hlate
          counted := fun k => (hcount k).setError hout (-rtETimeout) }
      · exact {
          block := hblock
          sides := h.sides
          mb := h.mb
          sized := h.sized
          refines := exec_returns_none h.refines (if_neg hneg.ne)
          late := late_finish h.late fun _ => hlate
          counted := hcount }
    · rw [if_neg hover]
      exact {
        block := hblock.suspend hrun ⟨hgoes.since, hgoes.left⟩ hover
        sides := fun u c' hc => by
          rcases BlockState.call_of_suspend hc with ⟨hrequest, hthis⟩ | hother
          · rw [hthis, hrequest]
            exact hside
          · exact h.sides u c' hother
        mb := h.mb
        sized := h.sized
        refines := h.refines
        late := h.late
        counted := fun k => (hcount k).suspend hout fun hk => by
          rw [hk, hside]
          exact hzero }

theorem Kept.callWait (h : s.Kept size) (hfree : s.Free t) (request : MbRequest)
    (timeout : BitVec 32) : (s.callWait t request timeout).Kept size := by
  unfold MbState.callWait
  by_cases hnow : timeout = 0
  · rw [if_pos hnow]
    exact h.callNow request
  · rw [if_neg hnow]
    refine h.waitLoop hfree.1 (Option.isNone_iff_eq_none.mp hfree.2) rfl ⟨le_refl _, fun hpos => ?_⟩
      h.spare
    show 0 ≤ timeout.toInt ∧ timeout.toInt ≤ (s.block.now : Int) - s.block.now + timeout.toInt
    have hpos' : 0 < timeout.toInt := hpos
    omega

theorem Kept.waitEnd (h : s.Kept size) (hrun : s.block.susp.suspended t = false)
    (hc : s.block.call t = some c) : (s.waitEnd t c).Kept size := by
  have hleft : Base { s with block := s.block.leave t } size := {
    block := h.block.leave hrun
    sides := fun u c' hthis => h.sides u c' (BlockState.call_of_leave hthis)
    mb := h.mb
    sized := h.sized
    refines := h.refines
    late := h.late }
  unfold MbState.waitEnd
  by_cases herror : s.block.susp.error t = 0
  · rw [if_neg (not_not.mpr herror)]
    have hgoes := h.block.timeLeft hc
    refine hleft.waitLoop (c := { c with timeout := s.block.timeLeft c }) hrun
      (s.block.leave_call t) (h.sides t c hc) ⟨hgoes.since, hgoes.left⟩ fun k => ?_
    by_cases hk : k = c.request.side
    · rw [if_pos hk]
      exact (h.counted k).leave t
    · rw [if_neg hk]
      refine (h.counted k).leave_of_not ?_
      rintro ⟨⟨c', hc', hside⟩, -⟩
      obtain rfl := Option.some.inj (hc.symm.trans hc')
      exact hk (hside.symm.trans (h.sides t c hc))
  · rw [if_pos herror]
    have hnot : ∀ k, ¬ s.block.Woken k t := fun k hwoken => herror hwoken.2.2
    refine { hleft.fail herror (fun hneg hpos => ?_) with
      counted := fun k => (h.counted k).leave_of_not (hnot k) }
    have hlate := h.block.expired t c hc hrun hneg hpos
    have hsince := h.block.since t c hc
    show c.given.toInt ≤ (s.block.now - c.since : Nat)
    omega

theorem Kept.step {a : MbStep τ} (h : s.Kept size) (hstep : machine.step s a = some next) :
    next.Kept size := by
  cases a with
  | sendWait t value timeout =>
    by_cases hfree : s.Free t
    · simp only [machine, if_pos hfree] at hstep
      obtain rfl := Option.some.inj hstep
      exact h.callWait hfree (.send value) timeout
    · simp only [machine, if_neg hfree] at hstep
      cases hstep
  | recv t timeout =>
    by_cases hfree : s.Free t
    · simp only [machine, if_pos hfree] at hstep
      obtain rfl := Option.some.inj hstep
      exact h.callWait hfree .recv timeout
    · simp only [machine, if_neg hfree] at hstep
      cases hstep
  | send value =>
    obtain rfl := Option.some.inj hstep
    exact h.callNow (.send value)
  | recvNow =>
    obtain rfl := Option.some.inj hstep
    exact h.callNow .recv
  | urgent value =>
    obtain rfl := Option.some.inj hstep
    exact h.callNow (.urgent value)
  | reset =>
    obtain rfl := Option.some.inj hstep
    exact h.callNow .reset
  | wake t =>
    cases hrun : s.block.susp.suspended t with
    | true =>
      simp only [machine, hrun, if_true] at hstep
      cases hstep
    | false =>
      simp only [machine, hrun, Bool.false_eq_true, if_false] at hstep
      obtain ⟨c, hc, rfl⟩ := Option.map_eq_some_iff.mp hstep
      exact h.waitEnd hrun hc
  | expire t =>
    by_cases hdue : s.block.Due t
    · simp only [machine, if_pos hdue] at hstep
      obtain rfl := Option.some.inj hstep
      exact ⟨⟨h.block.expire hdue, h.sides, h.mb, h.sized, h.refines, h.late⟩,
        fun k => (h.counted k).expire h.block hdue⟩
    · simp only [machine, if_neg hdue] at hstep
      cases hstep
  | tick =>
    obtain rfl := Option.some.inj hstep
    exact ⟨⟨h.block.tick, h.sides, h.mb, h.sized, h.refines, h.late⟩, h.counted⟩

/-- In every run of threads, interrupt handlers and timers, the mailbox is a queue with two
ends, wakes a thread for each mail and each free place, and keeps the timeouts. -/
theorem mailbox_right (msgPool : Nat → Mail) (flag : IpcFlag) (currentPriority : τ → Nat)
    (now : Nat) (hpos : 0 < size) (hmax : size ≤ rtMbEntryMax) {steps : List (MbStep τ)}
    {final : MbState τ}
    (run : machine.Run Machine.anyStep (init msgPool size flag currentPriority now) steps final) :
    final.MailboxRight size := by
  have hkept : final.Kept size :=
    run.invariant (fun _ _ _ _ hstep h => Kept.step h hstep)
      (kept_init msgPool flag currentPriority now hpos hmax)
  exact ⟨hkept.refines, final.mb.mails_length.symm, hkept.counted, hkept.late⟩

/-- A receiver waits, is woken by a mail, and finds an urgent one in front of it. -/
def overtaken : List (MbStep Bool) :=
  [.recv false 5, .tick, .send 1, .urgent 2, .wake false, .recv true 0, .sendWait true 3 10]

theorem mailbox_right_overtaken :
    ∃ final, machine.exec (init (fun _ => 0) 2 .prio (fun _ => 8) 0) overtaken = some final ∧
      final.returns.filterMap (·.value) = [2, 1] ∧ final.MailboxRight 2 := by
  obtain ⟨final, hexec⟩ :
      ∃ final, machine.exec (init (fun _ => 0) 2 .prio (fun _ => 8) 0) overtaken = some final :=
    ⟨_, rfl⟩
  have hends : (machine.exec (init (fun _ => 0) 2 .prio (fun _ => 8) 0) overtaken).map (fun s =>
      s.returns.filterMap (·.value)) = some [2, 1] := rfl
  rw [hexec] at hends
  exact ⟨final, hexec, Option.some.inj hends, mailbox_right (fun _ => 0) .prio (fun _ => 8) 0
    (by decide) (by decide) (Machine.Run.of_exec hexec (Machine.admitted_anyStep _ _))⟩

end Invariant

end MbState

end Gd32Vw553h.Ipc
