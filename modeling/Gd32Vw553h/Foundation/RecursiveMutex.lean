/-
  Foundation/RecursiveMutex.lean --- the hold count of a recursive mutex.

  Seen from one thread a recursive mutex is a count.  Taking it adds one, up to a
  maximum at which the attempt fails and changes nothing; releasing it subtracts
  one, and does nothing for a thread that holds nothing.  Code whose takes and
  releases pair up therefore leaves the count as it was exactly when its nesting
  fits below the maximum.  `HoldEffect` are the three shapes that code has, and
  `HoldEffect.apply_eq_iff` says for each when the count survives it.

  Between threads a recursive mutex is an owner and that count.  `HeldBy m t d` says
  that `t` holds it at least `d` times; at most one thread does for a positive `d`,
  and nothing that another thread does to the mutex changes it.
-/
import Mathlib.Order.Basic

set_option autoImplicit false

namespace Gd32Vw553h.Foundation

/-- Take the mutex; `limit` is the largest count. -/
def takeHold (limit hold : Nat) : Nat := if hold < limit then hold + 1 else hold

/-- Release it; a thread that does not hold it changes nothing. -/
def releaseHold (hold : Nat) : Nat := hold - 1

/-- What a piece of code does to the count. -/
inductive HoldEffect where
  /-- takes and releases pair up, nested at most `depth` deep -/
  | paired (depth : Nat)
  /-- paired code and then one release more -/
  | released (depth : Nat)
  /-- one take more and then paired code -/
  | kept (depth : Nat)
  deriving DecidableEq

namespace HoldEffect

def depth : HoldEffect → Nat
  | paired d => d
  | released d => d
  | kept d => d

/-- The effect of the same code between a take and a release. -/
def within : HoldEffect → HoldEffect
  | paired d => paired (d + 1)
  | released d => released (d + 1)
  | kept d => kept (d + 1)

/-- The effect of the same code after paired code `d` deep. -/
def after (d : Nat) : HoldEffect → HoldEffect
  | paired k => paired (max d k)
  | released k => released (max d k)
  | kept k => kept (max (d - 1) k)

@[simp] theorem depth_within (e : HoldEffect) : e.within.depth = e.depth + 1 := by
  cases e <;> rfl

theorem depth_after_le (d : Nat) (e : HoldEffect) : (e.after d).depth ≤ max d e.depth := by
  cases e with
  | paired k => exact Nat.le_refl _
  | released k => exact Nat.le_refl _
  | kept k =>
    simp only [after, depth]
    omega

section Limit

variable (limit : Nat)

/-- Takes that meet the maximum are lost, and their releases are not. -/
def apply : HoldEffect → Nat → Nat
  | paired d, hold => min hold (limit - d)
  | released d, hold => releaseHold (min hold (limit - d))
  | kept d, hold => min (takeHold limit hold) (limit - d)

/-- When the count is the same afterwards: paired code must fit below the maximum, a
release too many must find nothing held, and a take too many must make up for exactly one
take that the maximum has cost. -/
def Preserves (hold : Nat) : HoldEffect → Prop
  | paired d => hold + d ≤ limit
  | released _ => hold = 0
  | kept d => hold + d = limit

instance (hold : Nat) (e : HoldEffect) : Decidable (e.Preserves limit hold) := by
  cases e <;> unfold Preserves <;> infer_instance

variable {limit}

theorem takeHold_le {hold : Nat} (h : hold ≤ limit) : takeHold limit hold ≤ limit := by
  unfold takeHold
  split <;> omega

theorem takeHold_eq_min {hold : Nat} (h : hold ≤ limit) :
    takeHold limit hold = min (hold + 1) limit := by
  unfold takeHold
  split <;> omega

theorem apply_paired_zero {hold : Nat} (h : hold ≤ limit) :
    (paired 0).apply limit hold = hold := by
  show min hold (limit - 0) = hold
  omega

/-- Code between a take and a release. -/
theorem apply_within (e : HoldEffect) {hold : Nat} (h : hold ≤ limit) (hdepth : e.depth < limit) :
    releaseHold (e.apply limit (takeHold limit hold)) = e.within.apply limit hold := by
  have htake := takeHold_eq_min h
  have htwice := takeHold_eq_min (takeHold_le h)
  cases e with
  | paired k =>
    simp only [depth] at hdepth
    simp only [apply, within, releaseHold, htake]
    omega
  | released k =>
    simp only [depth] at hdepth
    simp only [apply, within, releaseHold, htake]
    omega
  | kept k =>
    simp only [depth] at hdepth
    simp only [apply, within, releaseHold, htwice]
    rw [htake]
    omega

/-- Of two nestings the deeper one counts. -/
theorem min_limits (limit n d k : Nat) :
    min (min n (limit - d)) (limit - k) = min n (limit - max d k) := by
  rw [Nat.min_assoc, Nat.sub_min_sub_left]

/-- Code after paired code. -/
theorem apply_after (e : HoldEffect) (d : Nat) {hold : Nat} (h : hold ≤ limit) (hd : d ≤ limit) :
    e.apply limit ((paired d).apply limit hold) = (e.after d).apply limit hold := by
  cases e with
  | paired k => exact min_limits limit hold d k
  | released k => exact congrArg releaseHold (min_limits limit hold d k)
  | kept k =>
    have hle : min hold (limit - d) ≤ limit := Nat.le_trans (Nat.min_le_left _ _) h
    -- the extra take lifts the limit of the code before it by one
    have hlift : min (min hold (limit - d) + 1) limit =
        min (min (hold + 1) limit) (limit - (d - 1)) := by omega
    simp only [apply, after]
    rw [takeHold_eq_min hle, takeHold_eq_min h, hlift]
    exact min_limits limit (min (hold + 1) limit) (d - 1) k

/-- When a count survives. -/
theorem apply_eq_iff (e : HoldEffect) {hold : Nat} (h : hold ≤ limit) (hdepth : e.depth ≤ limit) :
    e.apply limit hold = hold ↔ e.Preserves limit hold := by
  cases e with
  | paired d =>
    simp only [depth] at hdepth
    simp only [apply, Preserves]
    omega
  | released d =>
    simp only [apply, Preserves, releaseHold]
    omega
  | kept d =>
    simp only [depth] at hdepth
    simp only [apply, Preserves, takeHold_eq_min h]
    omega

end Limit

end HoldEffect

/-! ## Between threads -/

/-- A recursive mutex of threads `ι`. -/
structure RecursiveMutex (ι : Type*) where
  owner : Option ι
  hold : Nat

namespace RecursiveMutex

variable {ι : Type*}

/-- Nobody owns it. -/
def free : RecursiveMutex ι := ⟨none, 0⟩

/-- Thread `t` holds it `hold` times from now on. -/
def setHold (_ : RecursiveMutex ι) (t : ι) (hold : Nat) : RecursiveMutex ι :=
  ⟨if hold = 0 then none else some t, hold⟩

/-- Thread `t` holds it at least `d` times. -/
def HeldBy (m : RecursiveMutex ι) (t : ι) (d : Nat) : Prop :=
  0 < d → m.owner = some t ∧ d ≤ m.hold

variable {m m' : RecursiveMutex ι} {t u : ι} {d e : Nat}

theorem heldBy_zero (m : RecursiveMutex ι) (t : ι) : m.HeldBy t 0 :=
  fun h => absurd h (Nat.lt_irrefl 0)

theorem HeldBy.le (h : m.HeldBy t d) (hle : e ≤ d) : m.HeldBy t e := fun hpos =>
  ⟨(h (Nat.lt_of_lt_of_le hpos hle)).1, Nat.le_trans hle (h (Nat.lt_of_lt_of_le hpos hle)).2⟩

/-- At most one thread holds the mutex. -/
theorem HeldBy.exclusive (ht : m.HeldBy t d) (hu : m.HeldBy u e) (hd : 0 < d) (he : 0 < e) :
    t = u :=
  Option.some.inj ((ht hd).1.symm.trans (hu he).1)

theorem heldBy_setHold (m : RecursiveMutex ι) (t : ι) {hold : Nat} (h : d ≤ hold) :
    (m.setHold t hold).HeldBy t d := by
  intro hpos
  have hne : hold ≠ 0 := by omega
  exact ⟨if_neg hne, h⟩

/-- What the owner does to its count is nothing to the others. -/
theorem HeldBy.setHold_other {hold : Nat} (ht : m.HeldBy t d) (hd : 0 < d) (hu : m.HeldBy u e)
    (hne : u ≠ t) : (m.setHold t hold).HeldBy u e :=
  fun he => absurd (ht.exclusive hu hd he).symm hne

variable [DecidableEq ι]

/-- Thread `t` takes it; there is no step while another thread owns it. -/
def take (limit : Nat) (m : RecursiveMutex ι) (t : ι) : Option (RecursiveMutex ι) :=
  if m.owner = none ∨ m.owner = some t then some (m.setHold t (takeHold limit m.hold)) else none

/-- Thread `t` releases it, in vain when it is not the owner. -/
def release (m : RecursiveMutex ι) (t : ι) : RecursiveMutex ι :=
  if m.owner = some t then m.setHold t (releaseHold m.hold) else m

theorem HeldBy.take {limit : Nat} (h : m.HeldBy t d) (hd : d < limit)
    (htake : m.take limit t = some m') : m'.HeldBy t (d + 1) := by
  unfold RecursiveMutex.take at htake
  split at htake
  · obtain rfl := Option.some.inj htake
    refine heldBy_setHold m t ?_
    have hle : d ≤ m.hold := by
      rcases Nat.eq_zero_or_pos d with hzero | hpos
      · omega
      · exact (h hpos).2
    unfold takeHold
    split <;> omega
  · exact nomatch htake

theorem HeldBy.take_other {limit : Nat} (hu : m.HeldBy u e) (hne : u ≠ t)
    (htake : m.take limit t = some m') : m'.HeldBy u e := by
  intro he
  have howner := (hu he).1
  unfold RecursiveMutex.take at htake
  split at htake
  · rename_i hfree
    rcases hfree with hnone | hself
    · exact nomatch howner.symm.trans hnone
    · exact absurd (Option.some.inj (howner.symm.trans hself)) hne
  · exact nomatch htake

theorem HeldBy.release (h : m.HeldBy t (d + 1)) : (m.release t).HeldBy t d := by
  obtain ⟨howner, hle⟩ := h (Nat.succ_pos d)
  unfold RecursiveMutex.release
  rw [if_pos howner]
  refine heldBy_setHold m t ?_
  unfold releaseHold
  omega

theorem HeldBy.release_other (hu : m.HeldBy u e) (hne : u ≠ t) : (m.release t).HeldBy u e := by
  intro he
  have hother : m.owner ≠ some t := by
    rw [(hu he).1]
    exact fun heq => hne (Option.some.inj heq)
  unfold RecursiveMutex.release
  rw [if_neg hother]
  exact hu he

end RecursiveMutex

end Gd32Vw553h.Foundation
