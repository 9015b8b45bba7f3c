/-
  Foundation/Mailbox.lean --- a one-slot mailbox with a counting signal.

  A poster overwrites the slot and raises the signal once; a fetcher consumes one
  signal and copies the slot.  Several posts may share the slot before a fetch, so
  a value may be fetched twice and another one never.  What holds is that every
  fetched value was posted, that fetches never exceed posts, and that the last
  value fetched is the last one posted as soon as no signal is left
  (`Mailbox.Consistent`), provided nobody else writes a slot that was posted to.
-/
import Gd32Vw553h.Foundation.Runs

set_option autoImplicit false

namespace Gd32Vw553h.Foundation

/-- The slot, the signals not consumed, and the values posted and fetched so far. -/
structure Mailbox (α : Type*) where
  slot : α
  posted : List α
  pending : Nat
  fetched : List α

inductive MailboxAction (α : Type*) where
  /-- Overwrite the slot and raise the signal. -/
  | post (a : α)
  /-- Consume a signal and copy the slot. -/
  | fetch
  /-- Overwrite the slot without a signal. -/
  | overwrite (a : α)

/-- The mailbox as a machine. -/
def mailbox (α : Type*) : Machine (Mailbox α) (MailboxAction α) where
  step m
    | .post a =>
        some { m with slot := a, posted := m.posted ++ [a], pending := m.pending + 1 }
    | .fetch =>
        if m.pending = 0 then none
        else some { m with pending := m.pending - 1, fetched := m.fetched ++ [m.slot] }
    | .overwrite a => some { m with slot := a }

namespace Mailbox

variable {α : Type*}

/-- Only an unused slot is overwritten without a signal. -/
def OverwriteUnused (m : Mailbox α) : MailboxAction α → Prop
  | .overwrite _ => m.posted = []
  | _ => True

/-- What holds of a mailbox between steps. -/
structure Consistent (m : Mailbox α) : Prop where
  count : m.posted.length = m.pending + m.fetched.length
  slot : ∀ a, m.posted.getLast? = some a → m.slot = a
  fetched : ∀ a ∈ m.fetched, a ∈ m.posted
  last : m.pending = 0 → m.fetched.getLast? = m.posted.getLast?

/-- An unused mailbox. -/
def unused (a : α) : Mailbox α := ⟨a, [], 0, []⟩

theorem consistent_unused (a : α) : (unused a).Consistent where
  count := rfl
  slot := by simp [unused]
  fetched := by simp [unused]
  last := fun _ => rfl

theorem Consistent.post {m : Mailbox α} (h : m.Consistent) (a : α) :
    Consistent ⟨a, m.posted ++ [a], m.pending + 1, m.fetched⟩ where
  count := by
    simp only [List.length_append, List.length_singleton, h.count]
    omega
  slot := by
    intro b hb
    simpa using hb
  fetched := fun b hb => List.mem_append_left [a] (h.fetched b hb)
  last := fun hzero => absurd hzero (Nat.succ_ne_zero m.pending)

/-- A pending signal means that something was posted, and the slot holds the last
post. -/
theorem Consistent.slot_of_pending {m : Mailbox α} (h : m.Consistent) (hpos : m.pending ≠ 0) :
    m.posted.getLast? = some m.slot := by
  have hne : m.posted ≠ [] := by
    intro hnil
    have hcount := h.count
    rw [hnil, List.length_nil] at hcount
    omega
  have hlast := List.getLast?_eq_some_getLast hne
  rw [hlast, h.slot _ hlast]

theorem Consistent.fetch {m : Mailbox α} (h : m.Consistent) (hpos : m.pending ≠ 0) :
    Consistent ⟨m.slot, m.posted, m.pending - 1, m.fetched ++ [m.slot]⟩ where
  count := by
    simp only [List.length_append, List.length_singleton, h.count]
    omega
  slot := h.slot
  fetched := by
    intro b hb
    rcases List.mem_append.mp hb with hold | hnew
    · exact h.fetched b hold
    · rw [List.mem_singleton.mp hnew]
      exact List.mem_of_getLast? (h.slot_of_pending hpos)
  last := by
    intro _
    rw [List.getLast?_append, h.slot_of_pending hpos]
    rfl

theorem Consistent.overwrite {m : Mailbox α} (h : m.Consistent) (hunused : m.posted = [])
    (a : α) : Consistent { m with slot := a } where
  count := h.count
  slot := by
    intro b hb
    rw [hunused] at hb
    exact absurd hb (by simp)
  fetched := h.fetched
  last := h.last

theorem Consistent.step {m m' : Mailbox α} {action : MailboxAction α}
    (hok : m.OverwriteUnused action) (hstep : (mailbox α).step m action = some m')
    (h : m.Consistent) : m'.Consistent := by
  cases action with
  | post a =>
    obtain rfl := Option.some.inj hstep
    exact h.post a
  | fetch =>
    by_cases hzero : m.pending = 0
    · simp [mailbox, hzero] at hstep
    · simp only [mailbox, hzero, if_false, Option.some.injEq] at hstep
      rw [← hstep]
      exact h.fetch hzero
  | overwrite a =>
    obtain rfl := Option.some.inj hstep
    exact h.overwrite hok a

/-- Every run that overwrites an unused slot only ends in a consistent mailbox. -/
theorem Consistent.run {m m' : Mailbox α} {actions : List (MailboxAction α)}
    (run : (mailbox α).Run OverwriteUnused m actions m') (h : m.Consistent) : m'.Consistent :=
  run.invariant (fun _ _ _ hok hstep hm => hm.step hok hstep) h

end Mailbox

end Gd32Vw553h.Foundation
