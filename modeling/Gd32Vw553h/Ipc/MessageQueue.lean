/-
  Ipc/MessageQueue.lean --- message queues with the threads that wait (`_rt_mq_send_wait`,
  `rt_mq_urgent`, `_rt_mq_recv` and `rt_mq_control` of `rt-thread/src/ipc.c`).

  A step is a section that holds the lock, what a call does to its slot in between, or something
  that happens to a thread meanwhile.  `_timer_check` drops its own lock before it calls
  `_thread_timeout`, so that a timer runs out in two steps.  A second section or a reset in
  between meets a waiter that cannot be made ready any more.  `rt_susp_list_dequeue` fails then,
  which nobody looks at, and a thread behind that waiter is not woken.

  `messageQueue_right` says that this is the only way in which a thread is left asleep, and that
  it does no harm to the messages.
-/
import Gd32Vw553h.Ipc.Blocking
import Gd32Vw553h.Ipc.MessageTransfer

set_option autoImplicit false

namespace Gd32Vw553h.Ipc

open Gd32Vw553h.Foundation Gd32Vw553h.Klibc

/-! ## The code -/

/-- A message queue and the threads that use it. -/
structure MqState (τ : Type*) where
  data : MqData τ
  block : BlockState τ MqRequest
  /-- `_timer_check` is still to call `_thread_timeout` for the thread -/
  fired : τ → Bool

/-- What threads, interrupt handlers and timers do. -/
inductive MqStep (τ : Type*) where
  /-- `rt_mq_send_wait`, up to its return, the end of its first section or its `rt_schedule` -/
  | sendWait (thread : τ) (buffer : List UInt8) (timeout : BitVec 32)
  /-- `rt_mq_recv` in the same way -/
  | recv (thread : τ) (size : Nat) (timeout : BitVec 32)
  /-- the first section of a call that does not wait, in a thread or an interrupt handler -/
  | now (caller : Option τ) (request : MqRequest)
  | reset
  /-- a call copies its message -/
  | copy (i : Nat)
  /-- the second section of a call -/
  | finish (i : Nat)
  /-- a thread goes on behind its `rt_schedule` -/
  | wake (thread : τ)
  /-- `_timer_check` takes the timer of a thread -/
  | fire (thread : τ)
  /-- it calls `_thread_timeout` -/
  | timeout (thread : τ)
  | tick

/-- The list a call waits in. -/
def MqRequest.side : MqRequest → WaitSide
  | .send _ | .urgent _ => .senders
  | .recv _ => .receivers

/-- The list from which a call wakes a thread at its end. -/
def MqWork.wakes : MqWork → WaitSide
  | .send _ _ _ => .receivers
  | .recv _ _ _ => .senders

namespace MqState

variable {τ : Type*}

def init (data : MqData τ) (flag : IpcFlag) (currentPriority : τ → Nat) (now : Nat) :
    MqState τ where
  data := data
  block := .init flag currentPriority now
  fired _ := false

section Code

variable [DecidableEq τ]

/-- A call that does not wait, up to its return or the end of its first section. -/
def callNow (s : MqState τ) (caller : Option τ) (request : MqRequest) : MqState τ :=
  if s.data.mq.tooLong request then { s with data := s.data.refuse request (-rtError) }
  else if s.data.mq.blocked request then
    { s with data := s.data.refuse request request.refusal }
  else { s with data := s.data.serve caller request }

/-- The loops of `_rt_mq_send_wait` and `_rt_mq_recv`, up to `rt_schedule`. -/
def waitLoop (s : MqState τ) (thread : τ) (call : BlockedCall MqRequest) : MqState τ :=
  if s.data.mq.blocked call.request then
    let block := s.block.setError thread (-rtEIntr)
    if call.timeout = 0 then
      { s with
        data := s.data.refuse call.request call.request.refusal
        block := if call.request.side = .receivers then block.setError thread (-rtETimeout)
          else block }
    else { s with block := block.suspend thread call }
  else { s with data := s.data.serve (some thread) call.request }

/-- A call of a thread that may wait. -/
def callWait (s : MqState τ) (thread : τ) (request : MqRequest) (timeout : BitVec 32) :
    MqState τ :=
  if timeout = 0 then s.callNow (some thread) request
  else if s.data.mq.tooLong request then { s with data := s.data.refuse request (-rtError) }
  else s.waitLoop thread {
    request := request, side := request.side, timeout := timeout, tickDelta := 0
    given := timeout, since := s.block.now }

/-- The loops behind `rt_schedule`. -/
def waitEnd (s : MqState τ) (thread : τ) (call : BlockedCall MqRequest) : MqState τ :=
  let left : MqState τ := { s with block := s.block.leave thread }
  if s.block.susp.error thread ≠ 0 then
    { left with data := s.data.refuse call.request (s.block.susp.error thread) }
  else left.waitLoop thread { call with timeout := s.block.timeLeft call }

/-- `rt_mq_send_wait` -/
def rtMqSendWait (s : MqState τ) (thread : τ) (buffer : List UInt8) (timeout : BitVec 32) :
    MqState τ :=
  s.callWait thread (.send buffer) timeout

/-- `rt_mq_recv` -/
def rtMqRecv (s : MqState τ) (thread : τ) (size : Nat) (timeout : BitVec 32) : MqState τ :=
  s.callWait thread (.recv size) timeout

/-- The second section of a call, with the slot it has. -/
def finish (s : MqState τ) (i : Nat) (job : MqJob τ) : MqState τ :=
  let data := { s.data with jobs := s.data.jobs.eraseIdx i }
  match job.work with
  | .send urgent buffer _ =>
    match data.link job.slot urgent buffer with
    | (true, data) => { s with data := data, block := s.block.wakeOne .receivers }
    | (false, data) => { s with data := data }
  | .recv size message buffer =>
    { s with
      data := data.giveBack job.slot size message (buffer.getD [])
      block := s.block.wakeOne .senders }

/-- `rt_mq_control` with `RT_IPC_CMD_RESET` -/
def rtMqReset (s : MqState τ) : MqState τ :=
  { s with
    data := s.data.reset
    block := (s.block.resumeAll .receivers).resumeAll .senders }

/-- A thread is in no call. -/
def Free (s : MqState τ) (thread : τ) : Prop :=
  s.block.susp.suspended thread = false ∧ (s.block.call thread).isNone ∧
    ∀ job ∈ s.data.jobs, job.caller ≠ some thread

instance (s : MqState τ) (thread : τ) : Decidable (s.Free thread) :=
  inferInstanceAs (Decidable (_ ∧ _))

/-- A thread that is in no call, or an interrupt handler. -/
def MayCall (s : MqState τ) : Option τ → Prop
  | some thread => s.Free thread
  | none => True

instance (s : MqState τ) (caller : Option τ) : Decidable (s.MayCall caller) :=
  match caller with
  | some thread => inferInstanceAs (Decidable (s.Free thread))
  | none => inferInstanceAs (Decidable True)

def machine : Machine (MqState τ) (MqStep τ) where
  step s
    | .sendWait thread buffer timeout =>
        if s.Free thread then some (s.rtMqSendWait thread buffer timeout) else none
    | .recv thread size timeout =>
        if s.Free thread then some (s.rtMqRecv thread size timeout) else none
    | .now caller request => if s.MayCall caller then some (s.callNow caller request) else none
    | .reset => some s.rtMqReset
    | .copy i =>
        s.data.jobs[i]?.bind fun job =>
          if job.work.copied then none else some { s with data := s.data.copy i job }
    | .finish i =>
        s.data.jobs[i]?.bind fun job =>
          if job.work.copied then some (s.finish i job) else none
    | .wake thread =>
        if s.block.susp.suspended thread then none
        else (s.block.call thread).map (s.waitEnd thread)
    | .fire thread =>
        if s.block.Due thread then
          some { s with
            block := s.block.fire thread, fired := Function.update s.fired thread true }
        else none
    | .timeout thread =>
        if s.fired thread then
          some { s with
            block := s.block.timeout thread, fired := Function.update s.fired thread false }
        else none
    | .tick => some { s with block := s.block.tick }

end Code

/-! ## What is promised to the threads -/

/-- The messages that may be received, and the slots that may be used. -/
def room (free queued : List Nat) : WaitSide → Nat
  | .receivers => queued.length
  | .senders => free.length

/-- The thread that is to be woken has a timer that has not been taken, and for a reset all of
them have. -/
def InTime (s : MqState τ) : MqStep τ → Prop
  | .finish i => ∀ job, s.data.jobs[i]? = some job →
      ∀ t rest, s.block.susp.suspendThread job.work.wakes = t :: rest → s.fired t = false
  | .reset => ∀ k, ∀ t ∈ s.block.susp.suspendThread k, s.fired t = false
  | _ => True

/-! ## The invariant -/

section Invariant

variable {s next : MqState τ} {t : τ} {maxMsgs : Nat} {timely timely' : Prop}
  {free queued : List Nat} {request : MqRequest} {c : BlockedCall MqRequest}

/-- What holds of the threads while all dequeues come in time. -/
structure Awake (s : MqState τ) (free queued : List Nat) : Prop where
  block : s.block.Kept s.fired
  sides : ∀ t c, s.block.call t = some c → c.side = c.request.side
  counted : ∀ k, s.block.Counted k (room free queued k)

/-- What holds of the messages in any case, and of the threads in a `timely` run. -/
structure Kept (s : MqState τ) (maxMsgs : Nat) (timely : Prop) (free queued : List Nat) :
    Prop where
  transfers : Transfers s.data maxMsgs free queued
  awake : timely → s.Awake free queued

/-- A thread runs in the loop of a call, and may use a unit of room on its side. -/
structure Competes (s : MqState τ) (t : τ) (c : BlockedCall MqRequest) (free queued : List Nat) :
    Prop where
  block : s.block.Kept s.fired
  sides : ∀ t c, s.block.call t = some c → c.side = c.request.side
  runs : s.block.susp.suspended t = false
  out : s.block.call t = none
  side : c.side = c.request.side
  goes : s.block.GoesOn c
  counted : ∀ k, s.block.Counted k (room free queued k - if k = c.request.side then 1 else 0)

theorem kept_init {data : MqData τ} (h : Transfers data maxMsgs free queued) (flag : IpcFlag)
    (currentPriority : τ → Nat) (now : Nat) :
    (init data flag currentPriority now).Kept maxMsgs True free queued where
  transfers := h
  awake _ := {
    block := BlockState.kept_init flag currentPriority now
    sides := fun _ _ hc => nomatch hc
    counted := fun k => BlockState.counted_init flag currentPriority now k _ }

theorem Kept.mono (h : s.Kept maxMsgs timely free queued) (himp : timely' → timely) :
    s.Kept maxMsgs timely' free queued :=
  ⟨h.transfers, fun htimely => h.awake (himp htimely)⟩

/-- A blocked call has no room on its side. -/
theorem room_of_blocked {data : MqData τ} (h : Transfers data maxMsgs free queued)
    (hblocked : data.mq.blocked request = true) : room free queued request.side = 0 := by
  have hfree : data.mq.msgQueueFree.isNone = true → free.length = 0 := fun hnone => by
    have hhead := h.lists.spare.head
    rw [Option.isNone_iff_eq_none.mp hnone] at hhead
    rw [List.head?_eq_none_iff.mp hhead.symm]
    rfl
  cases request with
  | send buffer => exact hfree hblocked
  | urgent buffer => exact hfree hblocked
  | recv size =>
    have hzero : data.mq.entry = 0 := beq_iff_eq.mp hblocked
    exact h.entry.symm.trans hzero

/-- A call that is served uses a unit of room. -/
theorem serve_room {data : MqData τ} (h : Transfers data maxMsgs free queued) (caller : Option τ)
    (hserved : data.mq.blocked request = false) :
    ∃ free' queued', Transfers (data.serve caller request) maxMsgs free' queued' ∧
      ∀ k, room free' queued' k = room free queued k - if k = request.side then 1 else 0 := by
  cases request with
  | send buffer =>
    obtain ⟨slot, rest, rfl, hgrab⟩ := h.grab hserved caller false buffer
    exact ⟨rest, queued, hgrab, fun k => by cases k <;> rfl⟩
  | urgent buffer =>
    obtain ⟨slot, rest, rfl, hgrab⟩ := h.grab hserved caller true buffer
    exact ⟨rest, queued, hgrab, fun k => by cases k <;> rfl⟩
  | recv size =>
    have hentry : data.mq.entry ≠ 0 := fun hzero =>
      Bool.false_ne_true (hserved.symm.trans (beq_iff_eq.mpr hzero))
    obtain ⟨slot, rest, rfl, hpick⟩ := h.pick hentry caller size
    exact ⟨free, rest, hpick, fun k => by cases k <;> rfl⟩

/-- A call that returns an error. -/
theorem Kept.refuse (h : s.Kept maxMsgs timely free queued) {error : Int} (herror : error ≠ 0) :
    Kept { s with data := s.data.refuse request error } maxMsgs timely free queued :=
  ⟨h.transfers.refuse herror, fun htimely => ⟨(h.awake htimely).block, (h.awake htimely).sides,
    (h.awake htimely).counted⟩⟩

theorem Kept.callNow (h : s.Kept maxMsgs timely free queued) (caller : Option τ)
    (request : MqRequest) :
    ∃ free' queued', (s.callNow caller request).Kept maxMsgs timely free' queued' := by
  unfold MqState.callNow
  split
  · exact ⟨free, queued, h.refuse (by decide)⟩
  · split
    · exact ⟨free, queued, h.refuse (Transfers.refusal_neg request).ne⟩
    · rename_i hblocked
      obtain ⟨free', queued', hserve, hroom⟩ := serve_room h.transfers caller
        (Bool.eq_false_iff.mpr hblocked)
      refine ⟨free', queued', hserve, fun htimely => ?_⟩
      obtain ⟨hblock, hsides, hcounted⟩ := h.awake htimely
      refine ⟨hblock, hsides, fun k => (hcounted k).mono ?_⟩
      rw [hroom]
      exact Nat.sub_le _ _

variable [DecidableEq τ]

/-- The loops: a thread with a unit of room uses it, any other one waits or gives up. -/
theorem waitLoop_kept (h : Transfers s.data maxMsgs free queued)
    (hcompetes : timely → s.Competes t c free queued) :
    ∃ free' queued', (s.waitLoop t c).Kept maxMsgs timely free' queued' := by
  unfold MqState.waitLoop
  cases hblocked : s.data.mq.blocked c.request with
  | false =>
    obtain ⟨free', queued', hserve, hroom⟩ := serve_room h (some t) hblocked
    refine ⟨free', queued', hserve, fun htimely => ?_⟩
    have hc := hcompetes htimely
    exact ⟨hc.block, hc.sides, fun k => (hroom k).symm ▸ hc.counted k⟩
  | true =>
    have hzero := room_of_blocked h hblocked
    have hcounted : timely → ∀ k, (s.block.setError t (-rtEIntr)).Counted k
        (room free queued k) := fun htimely k => by
      have hc := hcompetes htimely
      refine ((hc.counted k).mono ?_).setError hc.out (-rtEIntr)
      by_cases hk : k = c.request.side
      · rw [hk, hzero]
        exact Nat.zero_le _
      · rw [if_neg hk]
        exact le_refl _
    rw [if_pos rfl]
    by_cases hover : c.timeout = 0
    · rw [if_pos hover]
      refine ⟨free, queued, h.refuse (Transfers.refusal_neg c.request).ne, fun htimely => ?_⟩
      have hc := hcompetes htimely
      have hblock := hc.block.setError hc.out (-rtEIntr)
      split
      · exact ⟨hblock.setError hc.out (-rtETimeout), hc.sides,
          fun k => (hcounted htimely k).setError hc.out (-rtETimeout)⟩
      · exact ⟨hblock, hc.sides, hcounted htimely⟩
    · rw [if_neg hover]
      refine ⟨free, queued, h, fun htimely => ?_⟩
      have hc := hcompetes htimely
      refine ⟨(hc.block.setError hc.out (-rtEIntr)).suspend hc.runs
        ⟨hc.goes.since, hc.goes.left⟩ hover, fun u c' hc' => ?_,
        fun k => (hcounted htimely k).suspend hc.out fun hk => ?_⟩
      · rcases BlockState.call_of_suspend hc' with ⟨hrequest, hthis⟩ | hother
        · rw [hthis, hrequest]
          exact hc.side
        · exact hc.sides u c' hother
      · rw [hk, hc.side]
        exact hzero

theorem Kept.callWait (h : s.Kept maxMsgs timely free queued) (hfree : s.Free t)
    (request : MqRequest) (timeout : BitVec 32) :
    ∃ free' queued', (s.callWait t request timeout).Kept maxMsgs timely free' queued' := by
  unfold MqState.callWait
  by_cases hnow : timeout = 0
  · rw [if_pos hnow]
    exact h.callNow (some t) request
  · rw [if_neg hnow]
    split
    · exact ⟨free, queued, h.refuse (by decide)⟩
    · refine waitLoop_kept h.transfers fun htimely => ?_
      obtain ⟨hblock, hsides, hcounted⟩ := h.awake htimely
      exact {
        block := hblock
        sides := hsides
        runs := hfree.1
        out := Option.isNone_iff_eq_none.mp hfree.2.1
        side := rfl
        goes := ⟨le_refl _, fun hpos => by
          have hpos' : 0 < timeout.toInt := hpos
          show 0 ≤ timeout.toInt ∧
            timeout.toInt ≤ (s.block.now : Int) - s.block.now + timeout.toInt
          omega⟩
        counted := fun k => (hcounted k).mono (Nat.sub_le _ _) }

theorem Kept.waitEnd (h : s.Kept maxMsgs timely free queued)
    (hrun : s.block.susp.suspended t = false) (hc : s.block.call t = some c) :
    ∃ free' queued', (s.waitEnd t c).Kept maxMsgs timely free' queued' := by
  have hsides : timely → ∀ u c', (s.block.leave t).call u = some c' → c'.side = c'.request.side :=
    fun htimely u c' hthis => (h.awake htimely).sides u c' (BlockState.call_of_leave hthis)
  unfold MqState.waitEnd
  by_cases herror : s.block.susp.error t = 0
  · rw [if_neg (not_not.mpr herror)]
    refine waitLoop_kept (c := { c with timeout := s.block.timeLeft c }) h.transfers
      fun htimely => ?_
    obtain ⟨hblock, hside, hcounted⟩ := h.awake htimely
    have hgoes := hblock.timeLeft hc
    exact {
      block := hblock.leave hrun
      sides := hsides htimely
      runs := hrun
      out := s.block.leave_call t
      side := hside t c hc
      goes := ⟨hgoes.since, hgoes.left⟩
      counted := fun k => by
        show (s.block.leave t).Counted k (_ - if k = c.request.side then 1 else 0)
        by_cases hk : k = c.request.side
        · rw [if_pos hk]
          exact (hcounted k).leave t
        · rw [if_neg hk]
          refine (hcounted k).leave_of_not ?_
          rintro ⟨⟨c', hc', hthis⟩, -⟩
          obtain rfl := Option.some.inj (hc.symm.trans hc')
          exact hk (hthis.symm.trans (hside t c hc)) }
  · rw [if_pos herror]
    refine ⟨free, queued, h.transfers.refuse herror, fun htimely => ?_⟩
    obtain ⟨hblock, -, hcounted⟩ := h.awake htimely
    exact ⟨hblock.leave hrun, hsides htimely,
      fun k => (hcounted k).leave_of_not fun hwoken => herror hwoken.2.2⟩

/-- The second section of a call makes room on one side, and wakes a thread there. -/
theorem Kept.finish (h : s.Kept maxMsgs timely free queued) (hmax : maxMsgs ≤ rtMqEntryMax)
    {i : Nat} {job : MqJob τ} (hjob : s.data.jobs[i]? = some job)
    (hcopied : job.work.copied = true) (htime : timely → s.InTime (.finish i)) :
    ∃ free' queued', (s.finish i job).Kept maxMsgs timely free' queued' := by
  have hjobs := h.transfers.perm (Transfers.jobs_perm hjob)
  have hawake : ∀ free' queued', (∀ k, room free' queued' k =
      if k = job.work.wakes then room free queued k + 1 else room free queued k) → timely →
      (s.block.wakeOne job.work.wakes).Kept s.fired ∧
        ∀ k, (s.block.wakeOne job.work.wakes).Counted k (room free' queued' k) := by
    intro free' queued' hroom htimely
    obtain ⟨hblock, -, hcounted⟩ := h.awake htimely
    have hout := htime htimely job hjob
    refine ⟨hblock.wakeOne hout, fun k => ?_⟩
    rw [hroom]
    by_cases hk : k = job.work.wakes
    · rw [if_pos hk]
      subst hk
      exact (hcounted _).wakeOne hblock hout
    · rw [if_neg hk]
      exact (hcounted k).wakeOne_of_ne hblock hout (Ne.symm hk)
  unfold MqState.finish
  obtain ⟨caller, slot, work⟩ := job
  cases work with
  | send urgent buffer copied =>
    obtain rfl : copied = true := hcopied
    obtain ⟨data, queued', hlink, hlength, htransfers⟩ := hjobs.link hmax rfl
    dsimp only
    rw [hlink]
    refine ⟨free, queued', htransfers, fun htimely => ?_⟩
    obtain ⟨hblock, hcounted⟩ := hawake free queued' (fun k => by
      cases k with
      | receivers => exact hlength
      | senders => rfl) htimely
    exact ⟨hblock, (h.awake htimely).sides, hcounted⟩
  | recv size message buffer =>
    obtain ⟨copied, rfl⟩ := Option.isSome_iff_exists.mp hcopied
    refine ⟨slot :: free, queued, hjobs.giveBack rfl, fun htimely => ?_⟩
    obtain ⟨hblock, hcounted⟩ := hawake (slot :: free) queued (fun k => by
      cases k with
      | receivers => rfl
      | senders => rfl) htimely
    exact ⟨hblock, (h.awake htimely).sides, hcounted⟩

/-- After a reset nobody waits. -/
theorem Kept.rtMqReset (h : s.Kept maxMsgs timely free queued)
    (htime : timely → s.InTime .reset) :
    ∃ free' queued', s.rtMqReset.Kept maxMsgs timely free' queued' := by
  refine ⟨_, _, h.transfers.reset, fun htimely => ?_⟩
  obtain ⟨hblock, hsides, hcounted⟩ := h.awake htimely
  have hout : ∀ t, s.fired t = false := fun t => Bool.eq_false_iff.mpr fun hfired => by
    obtain ⟨c, -, hmem⟩ := hblock.waits t (hblock.timed.fired t hfired).1
    exact Bool.false_ne_true ((htime htimely c.side t hmem).symm.trans hfired)
  have hfirst := hblock.resumeAll hout .receivers
  refine ⟨hfirst.resumeAll hout .senders, hsides, fun k => ?_⟩
  obtain ⟨hcount, hempty, -⟩ := (hcounted k).resumeAll hblock hout .receivers
  obtain ⟨hcount', hempty', hstays⟩ := hcount.resumeAll hfirst hout .senders
  refine hcount'.of_empty ?_
  cases k with
  | receivers => exact hstays hempty
  | senders => exact hempty'

theorem Kept.step {a : MqStep τ} (h : s.Kept maxMsgs timely free queued)
    (hmax : maxMsgs ≤ rtMqEntryMax) (htime : timely → s.InTime a)
    (hstep : machine.step s a = some next) :
    ∃ free' queued', next.Kept maxMsgs timely free' queued' := by
  cases a with
  | sendWait t buffer timeout =>
    by_cases hfree : s.Free t
    · simp only [machine, if_pos hfree] at hstep
      obtain rfl := Option.some.inj hstep
      exact h.callWait hfree (.send buffer) timeout
    · simp only [machine, if_neg hfree] at hstep
      cases hstep
  | recv t size timeout =>
    by_cases hfree : s.Free t
    · simp only [machine, if_pos hfree] at hstep
      obtain rfl := Option.some.inj hstep
      exact h.callWait hfree (.recv size) timeout
    · simp only [machine, if_neg hfree] at hstep
      cases hstep
  | now caller request =>
    by_cases hmay : s.MayCall caller
    · simp only [machine, if_pos hmay] at hstep
      obtain rfl := Option.some.inj hstep
      exact h.callNow caller request
    · simp only [machine, if_neg hmay] at hstep
      cases hstep
  | reset =>
    obtain rfl := Option.some.inj hstep
    exact h.rtMqReset htime
  | copy i =>
    obtain ⟨job, hjob, hcopy⟩ := Option.bind_eq_some_iff.mp hstep
    cases hcopied : job.work.copied with
    | true =>
      rw [hcopied, if_pos rfl] at hcopy
      cases hcopy
    | false =>
      rw [hcopied, if_neg Bool.false_ne_true] at hcopy
      obtain rfl := Option.some.inj hcopy
      exact ⟨free, queued, h.transfers.copy hjob, fun htimely => ⟨(h.awake htimely).block,
        (h.awake htimely).sides, (h.awake htimely).counted⟩⟩
  | finish i =>
    obtain ⟨job, hjob, hfinish⟩ := Option.bind_eq_some_iff.mp hstep
    cases hcopied : job.work.copied with
    | true =>
      rw [hcopied, if_pos rfl] at hfinish
      obtain rfl := Option.some.inj hfinish
      exact h.finish hmax hjob hcopied htime
    | false =>
      rw [hcopied, if_neg Bool.false_ne_true] at hfinish
      cases hfinish
  | wake t =>
    cases hrun : s.block.susp.suspended t with
    | true =>
      simp only [machine, hrun, if_true] at hstep
      cases hstep
    | false =>
      simp only [machine, hrun, Bool.false_eq_true, if_false] at hstep
      obtain ⟨c, hc, rfl⟩ := Option.map_eq_some_iff.mp hstep
      exact h.waitEnd hrun hc
  | fire t =>
    by_cases hdue : s.block.Due t
    · simp only [machine, if_pos hdue] at hstep
      obtain rfl := Option.some.inj hstep
      refine ⟨free, queued, h.transfers, fun htimely => ?_⟩
      obtain ⟨hblock, hsides, hcounted⟩ := h.awake htimely
      exact ⟨hblock.fire hdue, hsides, hcounted⟩
    · simp only [machine, if_neg hdue] at hstep
      cases hstep
  | timeout t =>
    by_cases hfired : s.fired t = true
    · simp only [machine, if_pos hfired] at hstep
      obtain rfl := Option.some.inj hstep
      refine ⟨free, queued, h.transfers, fun htimely => ?_⟩
      obtain ⟨hblock, hsides, hcounted⟩ := h.awake htimely
      exact ⟨hblock.timeout hfired, hsides, fun k => (hcounted k).timeout hblock hfired⟩
    · simp only [machine, if_neg hfired] at hstep
      cases hstep
  | tick =>
    obtain rfl := Option.some.inj hstep
    refine ⟨free, queued, h.transfers, fun htimely => ?_⟩
    obtain ⟨hblock, hsides, hcounted⟩ := h.awake htimely
    exact ⟨hblock.tick, hsides, hcounted⟩

/-- A run is timely if all of its steps are. -/
theorem Kept.run {steps : List (MqStep τ)} {final : MqState τ}
    (run : machine.Run Machine.anyStep s steps final) (hmax : maxMsgs ≤ rtMqEntryMax)
    (h : s.Kept maxMsgs timely free queued) :
    ∃ free' queued', final.Kept maxMsgs (timely ∧ machine.Admitted InTime s steps)
      free' queued' := by
  induction run generalizing timely free queued with
  | nil s => exact ⟨free, queued, h.mono And.left⟩
  | @cons s mid final a rest _ hstep _ ih =>
    have hfirst : s.Kept maxMsgs (timely ∧ s.InTime a) free queued := h.mono And.left
    obtain ⟨free', queued', hmid⟩ := hfirst.step hmax And.right hstep
    obtain ⟨free'', queued'', hfinal⟩ := ih hmid
    exact ⟨free'', queued'', hfinal.mono fun hall =>
      ⟨⟨hall.1, hall.2.1⟩, hall.2.2 mid hstep⟩⟩

omit [DecidableEq τ] in
theorem maxMsgs_le (maxMsgs : UInt16) : maxMsgs.toNat ≤ rtMqEntryMax :=
  Nat.le_of_lt_succ maxMsgs.toNat_lt

/-- In every run of threads, interrupt handlers and timers each slot is in one place, and the
messages are those of a queue with two ends.  If moreover no thread is to be woken whose timer
has been taken, threads are woken for all messages and free slots. -/
theorem messageQueue_right (msgSize maxMsgs : UInt16) (next : Nat → Option Nat)
    (length : Nat → Nat) (bytes : Nat → Nat → UInt8) (flag : IpcFlag) (currentPriority : τ → Nat)
    (now : Nat) {steps : List (MqStep τ)} {final : MqState τ}
    (run : machine.Run Machine.anyStep
      (init (.init msgSize maxMsgs next length bytes) flag currentPriority now) steps final) :
    ∃ free queued, Transfers final.data maxMsgs.toNat free queued ∧
      (machine.Admitted InTime
          (init (.init msgSize maxMsgs next length bytes) flag currentPriority now) steps →
        ∀ k, final.block.Counted k (room free queued k)) := by
  obtain ⟨free, queued, hkept⟩ := Kept.run run (maxMsgs_le maxMsgs)
    (kept_init (Transfers.init msgSize maxMsgs next length bytes) flag currentPriority now)
  exact ⟨free, queued, hkept.transfers, fun hall => (hkept.awake ⟨trivial, hall⟩).counted⟩

/-- A queue of two slots for messages of up to four bytes. -/
def twoSlots (flag : IpcFlag) : MqState Bool :=
  init (.init 4 2 (fun _ => none) (fun _ => 0) fun _ _ => 0) flag (fun _ => 8) 0

/-- A receiver waits; a message and an urgent one are copied at the same time, and the receiver
finds the urgent one. -/
def overtaken : List (MqStep Bool) :=
  [.recv false 2 5, .sendWait true [1, 2, 3] 0, .now none (.urgent [9, 8, 7]), .copy 1, .copy 0,
    .finish 1, .finish 0, .wake false, .copy 0, .finish 0]

theorem messageQueue_right_overtaken :
    ∃ final, machine.exec (twoSlots .prio) overtaken = some final ∧
      final.data.returns.filterMap (fun r => r.message.map fun _ => r.buffer) = [[9, 8]] ∧
      ∃ free queued, Transfers final.data 2 free queued ∧
        ∀ k, final.block.Counted k (room free queued k) := by
  obtain ⟨final, hexec⟩ : ∃ final, machine.exec (twoSlots .prio) overtaken = some final :=
    ⟨_, rfl⟩
  have hends : (machine.exec (twoSlots .prio) overtaken).map (fun s =>
      s.data.returns.filterMap (fun r => r.message.map fun _ => r.buffer)) = some [[9, 8]] := rfl
  rw [hexec] at hends
  have htimely : machine.Admitted InTime (twoSlots .prio) overtaken :=
    .cons trivial rfl (.cons trivial rfl (.cons trivial rfl (.cons trivial rfl (.cons trivial rfl
      (.cons (fun _ _ _ _ _ => rfl) rfl (.cons (fun _ _ _ _ _ => rfl) rfl (.cons trivial rfl
        (.cons trivial rfl (.cons (fun _ _ _ _ _ => rfl) rfl trivial)))))))))
  obtain ⟨free, queued, htransfers, hcounted⟩ := messageQueue_right 4 2 (fun _ => none)
    (fun _ => 0) (fun _ _ => 0) .prio (fun _ => 8) 0
    (Machine.Run.of_exec hexec (Machine.admitted_anyStep _ _))
  exact ⟨final, hexec, Option.some.inj hends, free, queued, htransfers, hcounted htimely⟩

/-- Two receivers wait, and the timer of the first one has been taken when a message comes. -/
def leavesAsleep : List (MqStep Bool) :=
  [.recv false 4 1, .recv true 4 (-1), .tick, .fire false, .now none (.send [7]), .copy 0,
    .finish 0, .timeout false, .wake false]

theorem not_messageQueue_right :
    ∃ final, machine.Run Machine.anyStep (twoSlots .fifo) leavesAsleep final ∧
      ¬ ∃ free queued, Transfers final.data 2 free queued ∧
        ∀ k, final.block.Counted k (room free queued k) := by
  obtain ⟨final, hexec⟩ : ∃ final, machine.exec (twoSlots .fifo) leavesAsleep = some final :=
    ⟨_, rfl⟩
  have hends : (machine.exec (twoSlots .fifo) leavesAsleep).map (fun s =>
      (s.data.mq.entry, s.block.susp.suspendThread .receivers, (s.block.call false).isNone,
        s.block.susp.suspended true)) = some (1, [true], true, true) := rfl
  rw [hexec] at hends
  simp only [Option.map_some, Option.some.injEq, Prod.mk.injEq] at hends
  obtain ⟨hentry, hwaits, hout, hasleep⟩ := hends
  refine ⟨final, .of_exec hexec (Machine.admitted_anyStep _ _), ?_⟩
  rintro ⟨free, queued, htransfers, hcounted⟩
  obtain ⟨woken, hwoken, hroom⟩ := hcounted .receivers
  have hnone : woken = ∅ := Finset.eq_empty_of_forall_notMem fun t ht => by
    obtain ⟨⟨c, hc, -⟩, hrun, -⟩ := (hwoken t).mp ht
    cases t with
    | false =>
      rw [hc] at hout
      cases hout
    | true => exact Bool.false_ne_true (hrun.symm.trans hasleep)
  have hle : queued.length ≤ woken.card := hroom (by rw [hwaits]; exact List.cons_ne_nil _ _)
  rw [hnone, Finset.card_empty, ← htransfers.entry, hentry] at hle
  exact absurd hle (by decide)

end Invariant

end MqState

end Gd32Vw553h.Ipc
