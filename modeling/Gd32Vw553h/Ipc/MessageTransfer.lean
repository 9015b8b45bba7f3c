/-
  Ipc/MessageTransfer.lean --- messages on their way through a message queue
  (`_rt_mq_send_wait`, `rt_mq_urgent`, `_rt_mq_recv` and `rt_mq_control` of
  `rt-thread/src/ipc.c`).

  A message is copied outside the lock.  A sender takes a free slot in a first section, fills it,
  and links it in a second one; a receiver takes a message, reads it, and frees its slot.  What
  other calls do in between does not matter, since the slot is in neither list then: `Transfers`
  says where every slot is, and compares the calls with a queue with two ends.

  Waiting for a slot or a message is left to `Ipc.MessageQueue`.
-/
import Gd32Vw553h.Foundation.BoundedDeque
import Gd32Vw553h.Ipc.MessageSlots
import Gd32Vw553h.Klibc.KErrno

set_option autoImplicit false

namespace Gd32Vw553h.Ipc

open Gd32Vw553h.Foundation Gd32Vw553h.Klibc

/-! ## The code -/

/-- `RT_MQ_ENTRY_MAX` -/
abbrev rtMqEntryMax : Nat := 0xffff

/-- `rt_mq_send`, `rt_mq_urgent` and `rt_mq_recv` -/
inductive MqRequest where
  | send (buffer : List UInt8)
  | urgent (buffer : List UInt8)
  | recv (size : Nat)
  deriving DecidableEq

/-- What a call does to the slot in its hands. -/
inductive MqWork where
  /-- a message to be sent, and whether it has been copied -/
  | send (urgent : Bool) (buffer : List UInt8) (copied : Bool)
  /-- a message that has been taken, and what has been copied of it -/
  | recv (size : Nat) (message : List UInt8) (buffer : Option (List UInt8))

/-- A call between its two sections. -/
structure MqJob (τ : Type*) where
  /-- the thread, if it is no interrupt handler -/
  caller : Option τ
  slot : Nat
  work : MqWork

/-- What a call has returned. -/
structure MqReturn where
  request : MqRequest
  result : Int
  /-- the message that has been taken from the queue -/
  message : Option (List UInt8)
  /-- what has been written to `buffer` -/
  buffer : List UInt8

/-- The slots, the calls that have one, and what has happened so far. -/
structure MqData (τ : Type*) where
  mq : MqStore
  jobs : List (MqJob τ)
  /-- what has been put into the queue and taken from it -/
  history : List (DequeOp (List UInt8))
  returns : List MqReturn

/-- What is returned without waiting. -/
def MqRequest.refusal : MqRequest → Int
  | .recv _ => -rtETimeout
  | _ => -rtEFull

/-- `size > mq->msg_size` -/
def MqStore.tooLong (mq : MqStore) : MqRequest → Bool
  | .send buffer | .urgent buffer => buffer.length > mq.msgSize
  | .recv _ => false

/-- The test of the loops: the queue is full or empty. -/
def MqStore.blocked (mq : MqStore) : MqRequest → Bool
  | .send _ | .urgent _ => mq.msgQueueFree.isNone
  | .recv _ => mq.entry == 0

def MqWork.copied : MqWork → Bool
  | .send _ _ copied => copied
  | .recv _ _ buffer => buffer.isSome

/-- The message that a receiver has taken. -/
def MqWork.message : MqWork → Option (List UInt8)
  | .send _ _ _ => none
  | .recv _ message _ => some message

/-- What is done between the two sections. -/
def MqWork.copy (mq : MqStore) (slot : Nat) : MqWork → MqStore × MqWork
  | .send urgent buffer _ =>
      let mq := if urgent then mq else { mq with next := Function.update mq.next slot none }
      (mq.fill slot buffer, .send urgent buffer true)
  | .recv size message _ => (mq, .recv size message (some (mq.read slot size)))

namespace MqData

variable {τ : Type*}

def init (msgSize maxMsgs : UInt16) (next : Nat → Option Nat) (length : Nat → Nat)
    (bytes : Nat → Nat → UInt8) : MqData τ where
  mq := .init msgSize maxMsgs next length bytes
  jobs := []
  history := []
  returns := []

/-- A call returns. -/
def ret (d : MqData τ) (request : MqRequest) (result : Int) (message : Option (List UInt8))
    (buffer : List UInt8) : MqData τ :=
  { d with returns := d.returns ++ [⟨request, result, message, buffer⟩] }

/-- A call returns an error. -/
def refuse (d : MqData τ) (request : MqRequest) (error : Int) : MqData τ :=
  d.ret request error none []

/-- The end of the first section of a sender. -/
def grab (d : MqData τ) (caller : Option τ) (urgent : Bool) (buffer : List UInt8) : MqData τ :=
  match d.mq.popFree with
  | some (slot, mq) =>
      { d with mq := mq, jobs := ⟨caller, slot, .send urgent buffer false⟩ :: d.jobs }
  | none => d

/-- The end of the first section of a receiver. -/
def pick (d : MqData τ) (caller : Option τ) (size : Nat) : MqData τ :=
  match d.mq.popHead with
  | some (slot, mq) =>
      { d with
        mq := { mq with entry := if mq.entry > 0 then mq.entry - 1 else mq.entry }
        jobs := ⟨caller, slot, .recv size (d.mq.text slot) none⟩ :: d.jobs
        history := d.history ++ [.take (d.mq.text slot)] }
  -- `msg_queue_head` is not null while `entry` is not 0
  | none => d

/-- A call that need not wait takes a slot. -/
def serve (d : MqData τ) (caller : Option τ) : MqRequest → MqData τ
  | .send buffer => d.grab caller false buffer
  | .urgent buffer => d.grab caller true buffer
  | .recv size => d.pick caller size

/-- A call copies its message. -/
def copy (d : MqData τ) (i : Nat) (job : MqJob τ) : MqData τ :=
  { d with
    mq := (job.work.copy d.mq job.slot).1
    jobs := d.jobs.set i { job with work := (job.work.copy d.mq job.slot).2 } }

/-- The second section of a sender, and whether it wakes a receiver. -/
def link (d : MqData τ) (slot : Nat) (urgent : Bool) (buffer : List UInt8) : Bool × MqData τ :=
  let request : MqRequest := if urgent then .urgent buffer else .send buffer
  let mq := if urgent then d.mq.linkHead slot else d.mq.linkTail slot
  let history := d.history ++ [if urgent then .prepend buffer else .append buffer]
  if mq.entry < rtMqEntryMax then
    (true, ({ d with mq := { mq with entry := mq.entry + 1 }, history := history }.ret request 0
      none []))
  else (false, { d with mq := mq, history := history }.refuse request (-rtEFull))

/-- The second section of a receiver. -/
def giveBack (d : MqData τ) (slot size : Nat) (message buffer : List UInt8) : MqData τ :=
  { d with mq := d.mq.pushFree slot }.ret (.recv size) buffer.length (some message) buffer

/-- `rt_mq_control` with `RT_IPC_CMD_RESET` -/
def reset (d : MqData τ) : MqData τ :=
  { d with mq := d.mq.reset, history := d.history ++ [.clear] }

end MqData

/-! ## What is promised about messages -/

/-- The message of a call that has sent it. -/
def MqReturn.sent (r : MqReturn) : Option (List UInt8) :=
  if r.result = 0 then
    match r.request with
    | .send buffer | .urgent buffer => some buffer
    | .recv _ => none
  else none

/-- What a call may rely on about the slot in its hands. -/
def MqJob.Holds {τ : Type*} (mq : MqStore) (job : MqJob τ) : Prop :=
  match job.work with
  | .send urgent buffer copied =>
      copied = true → mq.text job.slot = buffer ∧ (urgent = false → mq.next job.slot = none)
  | .recv size message buffer =>
      mq.text job.slot = message ∧ ∀ copied, buffer = some copied → copied = message.take size

/-- Each slot is in one place, and each message goes from one call to one call. -/
structure Transfers {τ : Type*} (d : MqData τ) (maxMsgs : Nat) (free queued : List Nat) :
    Prop where
  lists : d.mq.Lists free queued
  max : d.mq.maxMsgs = maxMsgs
  slots : (free ++ queued ++ d.jobs.map (·.slot)).Perm (List.range maxMsgs)
  entry : d.mq.entry = queued.length
  holds : ∀ job ∈ d.jobs, job.Holds d.mq
  /-- a run of a queue with two ends, which now holds the messages -/
  refines : (boundedDeque maxMsgs).exec [] d.history = some (queued.map d.mq.text)
  /-- what has been put into it is what calls have sent -/
  sent : d.history.filterMap DequeOp.put = d.returns.filterMap MqReturn.sent
  /-- what has been taken from it has been received by one call each, or is being copied -/
  once : (d.history.filterMap DequeOp.taken).Perm
    (d.returns.filterMap (·.message) ++ d.jobs.filterMap (·.work.message))
  received : ∀ r ∈ d.returns, ∀ message, r.message = some message →
    ∃ size, r.request = .recv size ∧ r.buffer = message.take size ∧ r.result = r.buffer.length

namespace Transfers

variable {τ : Type*} {d : MqData τ} {maxMsgs : Nat} {free queued : List Nat} {job : MqJob τ}
  {others jobs : List (MqJob τ)} {caller : Option τ} {request : MqRequest} {error : Int}
  {slot size : Nat} {urgent : Bool} {buffer message : List UInt8}

theorem init (msgSize maxMsgs : UInt16) (next : Nat → Option Nat) (length : Nat → Nat)
    (bytes : Nat → Nat → UInt8) :
    Transfers (MqData.init msgSize maxMsgs next length bytes : MqData τ) maxMsgs.toNat
      (List.range maxMsgs.toNat).reverse [] := by
  have hempty : MqStore.Lists {
      msgSize := msgSize.toNat, maxMsgs := maxMsgs.toNat, entry := 0, msgQueueHead := none
      msgQueueTail := none, msgQueueFree := none, next := next, length := length
      bytes := bytes } [] [] := ⟨rfl, rfl, rfl⟩
  obtain ⟨hlists, hentry, hmax⟩ := hempty.pushFree_foldl maxMsgs.toNat
  exact {
    lists := hlists
    max := hmax
    slots := by
      rw [List.append_nil]
      exact (List.append_nil _).symm ▸ List.reverse_perm _
    entry := hentry
    holds := fun _ hmem => absurd hmem List.not_mem_nil
    refines := rfl
    sent := rfl
    once := List.Perm.refl []
    received := fun _ hmem => absurd hmem List.not_mem_nil }

/-- The order of the calls does not matter. -/
theorem perm (h : Transfers d maxMsgs free queued) (hperm : jobs.Perm d.jobs) :
    Transfers { d with jobs := jobs } maxMsgs free queued where
  lists := h.lists
  max := h.max
  slots := ((hperm.map _).append_left _).trans h.slots
  entry := h.entry
  holds job hmem := h.holds job (hperm.mem_iff.mp hmem)
  refines := h.refines
  sent := h.sent
  once := h.once.trans ((hperm.symm.filterMap _).append_left _)
  received := h.received

theorem nodup (h : Transfers d maxMsgs free queued) :
    (free ++ queued ++ d.jobs.map (·.slot)).Nodup :=
  h.slots.nodup_iff.mpr List.nodup_range

theorem lists_nodup (h : Transfers d maxMsgs free queued) : (free ++ queued).Nodup :=
  (List.nodup_append.mp h.nodup).1

/-- A slot in the hands of a call is nowhere else. -/
theorem apart (h : Transfers { d with jobs := job :: others } maxMsgs free queued) :
    job.slot ∉ free ∧ job.slot ∉ queued ∧
      ∀ other ∈ others, other.slot ≠ job.slot ∧ other.slot ∉ queued := by
  obtain ⟨-, hjobs, hdisjoint⟩ := List.nodup_append.mp h.nodup
  have hself : job.slot ∈ (job :: others).map (·.slot) := List.mem_cons_self
  refine ⟨fun hmem => ?_, fun hmem => ?_, fun other hother => ⟨fun heq => ?_, fun hmem => ?_⟩⟩
  · exact hdisjoint job.slot (List.mem_append_left _ hmem) job.slot hself rfl
  · exact hdisjoint job.slot (List.mem_append_right _ hmem) job.slot hself rfl
  · exact (List.nodup_cons.mp hjobs).1 (List.mem_map.mpr ⟨other, hother, heq⟩)
  · refine hdisjoint other.slot (List.mem_append_right _ hmem) other.slot ?_ rfl
    exact List.mem_cons_of_mem _ (List.mem_map_of_mem hother)

/-- There are as many slots as there were at first. -/
theorem length_eq (h : Transfers d maxMsgs free queued) :
    free.length + queued.length + d.jobs.length = maxMsgs := by
  have hlength := h.slots.length_eq
  simp only [List.length_append, List.length_map, List.length_range] at hlength
  exact hlength

/-- A slot that is kept by its call stays as it was. -/
theorem holds_congr {mq mq' : MqStore} (h : job.Holds mq)
    (htext : mq'.text job.slot = mq.text job.slot) (hnext : mq'.next job.slot = mq.next job.slot) :
    job.Holds mq' := by
  unfold MqJob.Holds at h ⊢
  rw [htext, hnext]
  exact h

/-- An operation on the queue is recorded. -/
theorem exec_history {ops : List (DequeOp (List UInt8))} {op : DequeOp (List UInt8)}
    {q q' : List (List UInt8)} (h : (boundedDeque maxMsgs).exec [] ops = some q)
    (hstep : (boundedDeque maxMsgs).step q op = some q') :
    (boundedDeque maxMsgs).exec [] (ops ++ [op]) = some q' := by
  rw [Machine.exec_concat h]
  exact hstep

theorem refusal_neg (request : MqRequest) : request.refusal < 0 := by
  have hfull : -rtEFull < 0 := by decide
  cases request with
  | send | urgent => exact hfull
  | recv => exact (by decide : -rtETimeout < 0)

/-- A call that returns an error has not changed the queue. -/
theorem refuse (h : Transfers d maxMsgs free queued) (herror : error ≠ 0) :
    Transfers (d.refuse request error) maxMsgs free queued where
  lists := h.lists
  max := h.max
  slots := h.slots
  entry := h.entry
  holds := h.holds
  refines := h.refines
  sent := by
    show _ = List.filterMap MqReturn.sent (d.returns ++ [⟨request, error, none, []⟩])
    have hnone : MqReturn.sent ⟨request, error, none, []⟩ = none := if_neg herror
    rw [List.filterMap_append, List.filterMap_cons_none hnone, List.filterMap_nil,
      List.append_nil]
    exact h.sent
  once := by
    show List.Perm _
      (List.filterMap MqReturn.message (d.returns ++ [⟨request, error, none, []⟩]) ++ _)
    rw [List.filterMap_append, List.filterMap_cons_none rfl, List.filterMap_nil,
      List.append_nil]
    exact h.once
  received r hr message hmessage := by
    rcases List.mem_append.mp hr with hold | hnew
    · exact h.received r hold message hmessage
    · rw [List.mem_singleton.mp hnew] at hmessage
      cases hmessage

/-- A sender takes a free slot. -/
theorem grab (h : Transfers d maxMsgs free queued) (hfree : d.mq.msgQueueFree.isNone = false)
    (caller : Option τ) (urgent : Bool) (buffer : List UInt8) :
    ∃ slot rest, free = slot :: rest ∧
      Transfers (d.grab caller urgent buffer) maxMsgs rest queued := by
  obtain ⟨slot, rest, rfl, hpop, hlists⟩ := h.lists.popFree hfree
  refine ⟨slot, rest, rfl, ?_⟩
  rw [MqData.grab, hpop]
  exact {
    lists := hlists
    max := h.max
    slots := List.perm_middle.trans h.slots
    entry := h.entry
    holds := fun job hmem => by
      rcases List.mem_cons.mp hmem with rfl | hmem
      · intro hcopied
        cases hcopied
      · exact h.holds job hmem
    refines := h.refines
    sent := h.sent
    once := h.once
    received := h.received }

/-- A receiver takes the first message. -/
theorem pick (h : Transfers d maxMsgs free queued) (hentry : d.mq.entry ≠ 0)
    (caller : Option τ) (size : Nat) :
    ∃ slot rest, queued = slot :: rest ∧
      Transfers (d.pick caller size) maxMsgs free rest := by
  have hsome : queued ≠ [] := by
    rintro rfl
    exact hentry h.entry
  have hqueued := (List.nodup_append.mp h.lists_nodup).2.1
  obtain ⟨slot, rest, mq, rfl, hpop, hlists, hsame, hmax, -, hnext, htext⟩ :=
    h.lists.popHead hqueued hsome
  refine ⟨slot, rest, rfl, ?_⟩
  rw [MqData.pick, hpop]
  have hcount : (if mq.entry > 0 then mq.entry - 1 else mq.entry) = rest.length := by
    rw [hsame, h.entry, List.length_cons, if_pos (Nat.succ_pos _), Nat.add_sub_cancel]
  exact {
    lists := ⟨hlists.spare, hlists.queue, hlists.tail⟩
    max := hmax.trans h.max
    slots := by
      have hmiddle : (free ++ rest ++ slot :: d.jobs.map (·.slot)).Perm
          (slot :: (free ++ rest ++ d.jobs.map (·.slot))) := List.perm_middle
      refine hmiddle.trans (List.Perm.trans ?_ h.slots)
      rw [List.append_assoc, List.append_assoc]
      exact List.perm_middle.symm
    entry := hcount
    holds := fun job hmem => by
      rcases List.mem_cons.mp hmem with rfl | hmem
      · refine ⟨?_, fun copied hcopied => ?_⟩
        · exact congrFun htext slot
        · cases hcopied
      · exact holds_congr (h.holds job hmem) (congrFun htext job.slot) (congrFun hnext job.slot)
    refines := exec_history h.refines (by
      show _ = some (rest.map mq.text)
      rw [htext]
      exact if_pos rfl)
    sent := by
      show List.filterMap _ (d.history ++ [.take (d.mq.text slot)]) = _
      rw [List.filterMap_append, List.filterMap_cons_none rfl, List.filterMap_nil,
        List.append_nil]
      exact h.sent
    once := by
      show (List.filterMap _ (d.history ++ [.take (d.mq.text slot)])).Perm
        (_ ++ d.mq.text slot :: d.jobs.filterMap (·.work.message))
      rw [List.filterMap_append]
      refine (h.once.append_right [d.mq.text slot]).trans ?_
      exact (List.perm_append_singleton _ _).trans List.perm_middle.symm
    received := h.received }

/-- What copying changes. -/
theorem copy_eq (mq : MqStore) (slot : Nat) (work : MqWork) :
    ∃ next length bytes, (work.copy mq slot).1 =
        { mq with next := next, length := length, bytes := bytes } ∧
      ∀ other, other ≠ slot →
        next other = mq.next other ∧ (work.copy mq slot).1.text other = mq.text other := by
  cases work with
  | recv size message buffer => exact ⟨_, _, _, rfl, fun _ _ => ⟨rfl, rfl⟩⟩
  | send urgent buffer copied =>
    cases urgent with
    | true => exact ⟨_, _, _, rfl, fun other hne => ⟨rfl, MqStore.text_fill_of_ne hne⟩⟩
    | false =>
      refine ⟨_, _, _, rfl, fun other hne => ⟨Function.update_of_ne hne _ _, ?_⟩⟩
      exact MqStore.text_fill_of_ne hne

/-- A call that has copied its message. -/
theorem copy_holds {mq : MqStore} (h : job.Holds mq) :
    MqJob.Holds (job.work.copy mq job.slot).1
      { job with work := (job.work.copy mq job.slot).2 } := by
  obtain ⟨caller, slot, work⟩ := job
  cases work with
  | recv size message buffer =>
    obtain ⟨htext, -⟩ := h
    refine ⟨htext, fun copied hcopied => ?_⟩
    rw [← Option.some.inj hcopied, MqStore.read_eq, htext]
  | send urgent buffer copied =>
    refine fun _ => ⟨MqStore.text_fill_self _ slot buffer, fun hurgent => ?_⟩
    subst hurgent
    exact Function.update_self slot none mq.next

theorem copy_message (mq : MqStore) (slot : Nat) (work : MqWork) :
    (work.copy mq slot).2.message = work.message := by
  cases work <;> rfl

/-- A call copies its message while its slot is in no list. -/
theorem copyHead (h : Transfers { d with jobs := job :: others } maxMsgs free queued) :
    Transfers { d with
      mq := (job.work.copy d.mq job.slot).1
      jobs := { job with work := (job.work.copy d.mq job.slot).2 } :: others }
      maxMsgs free queued := by
  obtain ⟨hfree, hqueued, hothers⟩ := h.apart
  have hself := copy_holds (h.holds job List.mem_cons_self)
  obtain ⟨next, length, bytes, heq, hframe⟩ := copy_eq d.mq job.slot job.work
  have hmessage := copy_message d.mq job.slot job.work
  generalize job.work.copy d.mq job.slot = copied at *
  obtain ⟨mq, work⟩ := copied
  obtain rfl : mq = { d.mq with next := next, length := length, bytes := bytes } := heq
  exact {
    lists := ⟨h.lists.spare.congr fun a ha => (hframe a (ne_of_mem_of_not_mem ha hfree)).1,
      h.lists.queue.congr fun a ha => (hframe a (ne_of_mem_of_not_mem ha hqueued)).1,
      h.lists.tail⟩
    max := h.max
    slots := h.slots
    entry := h.entry
    holds := fun other hmem => by
      rcases List.mem_cons.mp hmem with rfl | hmem
      · exact hself
      · obtain ⟨hnext, htext⟩ := hframe other.slot (hothers other hmem).1
        exact holds_congr (h.holds other (List.mem_cons_of_mem _ hmem)) htext hnext
    refines := by
      refine h.refines.trans (congrArg some (List.map_congr_left fun a ha => ?_))
      exact (hframe a (ne_of_mem_of_not_mem ha hqueued)).2.symm
    sent := h.sent
    once := by
      refine h.once.trans (List.Perm.of_eq (congrArg (_ ++ ·) ?_))
      rw [List.filterMap_cons, List.filterMap_cons, hmessage]
    received := h.received }

/-- The calls are those that the one at `i` leaves, and this one. -/
theorem jobs_perm {i : Nat} (hjob : d.jobs[i]? = some job) :
    (job :: d.jobs.eraseIdx i).Perm d.jobs := by
  obtain ⟨hi, hget⟩ := List.getElem?_eq_some_iff.mp hjob
  rw [← hget]
  exact List.getElem_cons_eraseIdx_perm hi

theorem copy (h : Transfers d maxMsgs free queued) {i : Nat} (hjob : d.jobs[i]? = some job) :
    Transfers (d.copy i job) maxMsgs free queued := by
  have hcopied := (h.perm (jobs_perm hjob)).copyHead
  obtain ⟨hi, -⟩ := List.getElem?_eq_some_iff.mp hjob
  exact hcopied.perm (List.set_perm_cons_eraseIdx hi _)

/-- A message has been linked, at one end or the other. -/
theorem linked (h : Transfers { d with jobs := job :: others } maxMsgs free queued)
    {mq : MqStore} {queued' : List Nat} {op : DequeOp (List UInt8)}
    (hlists : mq.Lists free queued') (htext : mq.text = d.mq.text)
    (hmax : mq.maxMsgs = d.mq.maxMsgs) (hentry : mq.entry = d.mq.entry)
    (hnext : ∀ other ∈ others, mq.next other.slot = d.mq.next other.slot)
    (hperm : queued'.Perm (job.slot :: queued)) (hmessage : job.work.message = none)
    (hstep : (boundedDeque maxMsgs).step (queued.map d.mq.text) op = some (queued'.map d.mq.text))
    (hput : op.put = some buffer) (htaken : op.taken = none)
    (hsent : MqReturn.sent ⟨request, 0, none, []⟩ = some buffer) :
    Transfers (MqData.ret { d with
      mq := { mq with entry := mq.entry + 1 }
      jobs := others
      history := d.history ++ [op] } request 0 none []) maxMsgs free queued' where
  lists := ⟨hlists.spare, hlists.queue, hlists.tail⟩
  max := hmax.trans h.max
  slots := by
    have hall : (free ++ queued' ++ others.map (·.slot)).Perm
        (free ++ (job.slot :: queued) ++ others.map (·.slot)) :=
      (hperm.append_left free).append_right _
    refine hall.trans (List.Perm.trans ?_ h.slots)
    rw [List.append_assoc, List.append_assoc]
    have hmiddle : (queued ++ job.slot :: others.map (·.slot)).Perm
        (job.slot :: (queued ++ others.map (·.slot))) := List.perm_middle
    exact hmiddle.symm.append_left free
  entry := by
    have hcount : d.mq.entry = queued.length := h.entry
    show mq.entry + 1 = queued'.length
    rw [hentry, hcount, hperm.length_eq, List.length_cons]
  holds other hmem :=
    holds_congr (h.holds other (List.mem_cons_of_mem _ hmem)) (congrFun htext other.slot)
      (hnext other hmem)
  refines := exec_history h.refines (by
    show _ = some (queued'.map mq.text)
    rw [htext]
    exact hstep)
  sent := by
    show List.filterMap DequeOp.put (d.history ++ [op]) =
      List.filterMap MqReturn.sent (d.returns ++ [⟨request, 0, none, []⟩])
    rw [List.filterMap_append, List.filterMap_append, List.filterMap_cons_some hput,
      List.filterMap_cons_some hsent]
    exact congrArg (· ++ [buffer]) h.sent
  once := by
    show List.Perm (List.filterMap DequeOp.taken (d.history ++ [op]))
      (List.filterMap MqReturn.message (d.returns ++ [⟨request, 0, none, []⟩]) ++ _)
    rw [List.filterMap_append, List.filterMap_append, List.filterMap_cons_none htaken,
      List.filterMap_cons_none rfl, List.filterMap_nil, List.append_nil, List.filterMap_nil,
      List.append_nil]
    refine h.once.trans (List.Perm.of_eq (congrArg (_ ++ ·) ?_))
    exact List.filterMap_cons_none hmessage
  received r hr message hmessage := by
    rcases List.mem_append.mp hr with hold | hnew
    · exact h.received r hold message hmessage
    · rw [List.mem_singleton.mp hnew] at hmessage
      cases hmessage

/-- A sender that has copied its message links it. -/
theorem link (h : Transfers { d with jobs := job :: others } maxMsgs free queued)
    (hmax : maxMsgs ≤ rtMqEntryMax) (hwork : job.work = .send urgent buffer true) :
    ∃ d' queued', MqData.link { d with jobs := others } job.slot urgent buffer = (true, d') ∧
      queued'.length = queued.length + 1 ∧ Transfers d' maxMsgs free queued' := by
  obtain ⟨hfree, hqueued, hothers⟩ := h.apart
  have hlists : d.mq.Lists free queued := h.lists
  have hholds : job.Holds d.mq := h.holds job List.mem_cons_self
  rw [MqJob.Holds, hwork] at hholds
  obtain ⟨htext, hend⟩ := hholds rfl
  have hmessage : job.work.message = none := by
    rw [hwork]
    rfl
  have hlength : free.length + queued.length + (job :: others).length = maxMsgs := h.length_eq
  have hcount : d.mq.entry = queued.length := h.entry
  rw [List.length_cons] at hlength
  have hroom : d.mq.entry < rtMqEntryMax := by omega
  have hspace : (queued.map d.mq.text).length < maxMsgs := by
    rw [List.length_map]
    omega
  cases urgent with
  | true =>
    refine ⟨_, job.slot :: queued, if_pos hroom, rfl, ?_⟩
    refine h.linked (hlists.linkHead hfree hqueued) rfl rfl rfl (fun other hother => ?_)
      (List.Perm.refl _) hmessage ?_ rfl rfl rfl
    · exact Function.update_of_ne (hothers other hother).1 _ _
    · rw [List.map_cons, htext]
      exact if_pos hspace
  | false =>
    refine ⟨_, queued ++ [job.slot], if_pos hroom, by rw [List.length_append]; rfl, ?_⟩
    refine h.linked (hlists.linkTail h.lists_nodup hqueued (hend rfl)) rfl rfl rfl
      (fun other hother => ?_) (List.perm_append_singleton _ _) hmessage ?_ rfl rfl rfl
    · exact hlists.linkTail_next (hothers other hother).2
    · rw [List.map_append, List.map_singleton, htext]
      exact if_pos hspace

/-- A receiver that has copied its message frees the slot. -/
theorem giveBack (h : Transfers { d with jobs := job :: others } maxMsgs free queued)
    (hwork : job.work = .recv size message (some buffer)) :
    Transfers (MqData.giveBack { d with jobs := others } job.slot size message buffer) maxMsgs
      (job.slot :: free) queued := by
  obtain ⟨hfree, hqueued, hothers⟩ := h.apart
  have hlists : d.mq.Lists free queued := h.lists
  have hholds : job.Holds d.mq := h.holds job List.mem_cons_self
  rw [MqJob.Holds, hwork] at hholds
  have hcopied : buffer = message.take size := hholds.2 buffer rfl
  have hmessage : job.work.message = some message := by
    rw [hwork]
    rfl
  exact {
    lists := hlists.pushFree hfree hqueued
    max := h.max
    slots := List.perm_middle.symm.trans h.slots
    entry := h.entry
    holds := fun other hmem =>
      holds_congr (h.holds other (List.mem_cons_of_mem _ hmem)) rfl
        (Function.update_of_ne (hothers other hmem).1 _ _)
    refines := h.refines
    sent := by
      show _ = List.filterMap MqReturn.sent
        (d.returns ++ [⟨.recv size, buffer.length, some message, buffer⟩])
      have hnone : MqReturn.sent ⟨.recv size, buffer.length, some message, buffer⟩ = none := by
        unfold MqReturn.sent
        split <;> rfl
      rw [List.filterMap_append, List.filterMap_cons_none hnone, List.filterMap_nil,
        List.append_nil]
      exact h.sent
    once := by
      show List.Perm _ (List.filterMap MqReturn.message
        (d.returns ++ [⟨.recv size, buffer.length, some message, buffer⟩]) ++ _)
      rw [List.filterMap_append, List.append_assoc]
      refine h.once.trans (List.Perm.of_eq (congrArg (_ ++ ·) ?_))
      exact List.filterMap_cons_some hmessage
    received := fun r hr m hm => by
      rcases List.mem_append.mp hr with hold | hnew
      · exact h.received r hold m hm
      · rw [List.mem_singleton.mp hnew] at hm ⊢
        obtain rfl := Option.some.inj hm
        exact ⟨size, rfl, hcopied, rfl⟩ }

/-- A reset frees the slots of all messages, and leaves those alone that calls have. -/
theorem reset (h : Transfers d maxMsgs free queued) :
    Transfers d.reset maxMsgs (queued.reverse ++ free) [] := by
  have hlength := h.length_eq
  have hfuel : queued.length < d.mq.maxMsgs + 1 := by
    rw [h.max]
    omega
  obtain ⟨hlists, htext, hmax, hnext⟩ := h.lists.releaseLoop h.lists_nodup hfuel
  obtain ⟨-, -, hdisjoint⟩ := List.nodup_append.mp h.nodup
  exact {
    lists := ⟨hlists.spare, hlists.queue, hlists.tail⟩
    max := hmax.trans h.max
    slots := by
      rw [List.append_nil]
      refine List.Perm.trans (List.Perm.append_right _ ?_) h.slots
      exact ((List.reverse_perm queued).append_right free).trans List.perm_append_comm
    entry := rfl
    holds := fun job hmem => by
      refine holds_congr (h.holds job hmem) (congrFun htext job.slot) (hnext job.slot fun hin => ?_)
      exact hdisjoint job.slot (List.mem_append_right _ hin) job.slot
        (List.mem_map_of_mem hmem) rfl
    refines := exec_history h.refines rfl
    sent := by
      show List.filterMap _ (d.history ++ [.clear]) = _
      rw [List.filterMap_append, List.filterMap_cons_none rfl, List.filterMap_nil,
        List.append_nil]
      exact h.sent
    once := by
      show List.Perm (List.filterMap _ (d.history ++ [.clear])) _
      rw [List.filterMap_append, List.filterMap_cons_none rfl, List.filterMap_nil,
        List.append_nil]
      exact h.once
    received := h.received }

end Transfers

end Gd32Vw553h.Ipc
