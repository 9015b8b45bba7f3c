/-
  Wlan/StationState.lean --- the state byte of the station between
  `rt_wlan_event_dispatch` and `rt_wlan_prot_ready_event`
  (`components/drivers/wlan/dev_wlan_mgnt.c`).

  The dispatcher changes `_sta_mgnt.state` by one statement a flag; the ready event
  tests `RT_WLAN_STATE_CONNECT`, tests `RT_WLAN_STATE_READY` and sets it, with only
  the last of the three under the interrupt lock.  A disconnect that falls between
  the first test and the setting leaves `READY` behind without `CONNECT`:
  `not_ready_connected_late_set`.  `ready_connected` says that nothing else does,
  and `ready_unconnected_remains` that such a setting is never made good by the
  handlers in progress.
-/
import Gd32Vw553h.Foundation.Threads
import Gd32Vw553h.Wlan.Scan

set_option autoImplicit false

namespace Gd32Vw553h.Wlan

open Gd32Vw553h.Foundation

/-! ## The state byte -/

/-- The flags of `_sta_mgnt.state` that the two functions use. -/
inductive StaFlag where
  | connect
  | connecting
  | ready
  deriving DecidableEq

/-- `RT_WLAN_STATE_CONNECT`, `RT_WLAN_STATE_CONNECTING`, `RT_WLAN_STATE_READY` -/
def StaFlag.bit : StaFlag → UInt8
  | connect => 0x1
  | connecting => 0x2
  | ready => 0x4

/-- `_sta_mgnt`, as far as the two functions look at it. -/
structure StaState (δ : Type*) where
  device : Option δ
  state : UInt8

variable {δ : Type*}

/-- `_sta_mgnt.state & flag` -/
def StaState.Has (m : StaState δ) (flag : StaFlag) : Prop := m.state &&& flag.bit ≠ 0

instance (m : StaState δ) (flag : StaFlag) : Decidable (m.Has flag) :=
  inferInstanceAs (Decidable (_ ≠ _))

/-- `rt_wlan_is_connected` -/
def rtWlanIsConnected (m : StaState δ) : Bool :=
  if m.device.isNone then false else m.Has .connect

/-- `rt_wlan_is_ready` -/
def rtWlanIsReady (m : StaState δ) : Bool :=
  if m.device.isNone then false else m.Has .ready

/-- A statement on the state byte. -/
inductive StateStmt where
  /-- `_sta_mgnt.state |= flag` -/
  | raise (flag : StaFlag)
  /-- `_sta_mgnt.state &= ~flag` -/
  | lower (flag : StaFlag)
  deriving DecidableEq

def StateStmt.run (m : StaState δ) : StateStmt → StaState δ
  | raise flag => { m with state := m.state ||| flag.bit }
  | lower flag => { m with state := m.state &&& ~~~flag.bit }

/-! ## The two functions -/

/-- The statements of `rt_wlan_event_dispatch` on `_sta_mgnt.state`, by event. -/
def RtWlanDevEvent.stateStmts : RtWlanDevEvent → List StateStmt
  | connect => [.raise .connect, .lower .connecting]
  | connectFail => [.lower .connect, .lower .connecting, .lower .ready]
  | disconnect => [.lower .connect, .lower .ready]
  | initDone | apStart | apStop | apAssociated | apDisassociated | apAssociateFailed
  | scanReport | scanDone => []

/-- The calls. -/
inductive StateCall (δ : Type*) where
  /-- `rt_wlan_event_dispatch(device, event, buff, parameter)` -/
  | dispatch (event : RtWlanDevEvent)
  /-- `rt_wlan_prot_ready_event(wlan, buff)` -/
  | protReady (wlan : Option δ)

/-- Where a call stands. -/
inductive StatePoint (δ : Type*) where
  /-- these statements are still to come, then what leaves the state byte alone -/
  | dispatch (todo : List StateStmt)
  | testConnect (wlan : Option δ)
  | testReady
  | setReady
  | sendReady

section Code

variable {ι : Type*} [DecidableEq δ]

/-- One statement; `rt_wlan_send_to_thread` and the rest of the dispatcher do not touch
the state byte. -/
def stateStmt (m : StaState δ) : StatePoint δ → StaState δ × Option (StatePoint δ)
  | .dispatch [] => (m, none)
  | .dispatch (stmt :: todo) => (stmt.run m, some (.dispatch todo))
  | .testConnect wlan =>
    if wlan.isNone ∨ m.device ≠ wlan ∨ ¬ m.Has .connect then (m, none)
    else (m, some .testReady)
  | .testReady => if m.Has .ready then (m, none) else (m, some .setReady)
  | .setReady => ((StateStmt.raise .ready).run m, some .sendReady)
  | .sendReady => (m, none)

/-- The calls of both functions, by any threads. -/
def stateProgram : Program ι (StaState δ) (StatePoint δ) (StateCall δ) Unit where
  entry
    | .dispatch event => .dispatch event.stateStmts
    | .protReady wlan => .testConnect wlan
  stmt _ m point _ := some (stateStmt m point)

end Code

/-! ## Flags -/

theorem StaFlag.bit_and_bit (f g : StaFlag) : f.bit &&& g.bit ≠ 0 ↔ f = g := by
  cases f <;> cases g <;> decide

theorem StaFlag.not_bit_and_bit (f g : StaFlag) :
    ~~~f.bit &&& g.bit = if f = g then 0 else g.bit := by
  cases f <;> cases g <;> rfl

theorem StateStmt.raise_has (m : StaState δ) (f g : StaFlag) :
    ((raise f).run m).Has g ↔ m.Has g ∨ f = g := by
  have hdistrib : (m.state ||| f.bit) &&& g.bit = m.state &&& g.bit ||| f.bit &&& g.bit := by
    apply UInt8.eq_of_toBitVec_eq
    simp only [UInt8.toBitVec_and, UInt8.toBitVec_or, BitVec.and_or_distrib_right]
  unfold StaState.Has StateStmt.run
  rw [hdistrib, ← StaFlag.bit_and_bit f g, ne_eq, UInt8.or_eq_zero_iff, not_and_or]

theorem StateStmt.lower_has (m : StaState δ) (f g : StaFlag) :
    ((lower f).run m).Has g ↔ m.Has g ∧ f ≠ g := by
  have hassoc : m.state &&& ~~~f.bit &&& g.bit = m.state &&& (~~~f.bit &&& g.bit) :=
    UInt8.and_assoc _ _ _
  unfold StaState.Has StateStmt.run
  rw [hassoc, StaFlag.not_bit_and_bit]
  by_cases h : f = g
  · rw [if_pos h, UInt8.and_zero]
    exact iff_of_false (fun hne => hne rfl) fun hand => hand.2 h
  · rw [if_neg h]
    exact (and_iff_left h).symm

/-! ## When `READY` is covered -/

/-- A dispatcher that has yet to set `CONNECT` or to clear `READY`. -/
def StatePoint.Repairs : StatePoint δ → Prop
  | .dispatch todo => .raise .connect ∈ todo ∨ .lower .ready ∈ todo
  | _ => False

section Invariant

variable {ι : Type*}

/-- `CONNECT` is set, or a dispatcher in progress puts the flags right. -/
def Covered (s : Threads ι (StaState δ) (StatePoint δ)) : Prop :=
  s.shared.Has .connect ∨ ∃ t k, s.point t = some k ∧ k.Repairs

/-- `rt_wlan_prot_ready_event` sets `READY` only while that is covered. -/
def SetsReadyInTime (s : Threads ι (StaState δ) (StatePoint δ)) :
    ThreadAction ι (StateCall δ) Unit → Prop
  | .call _ _ => True
  | .next t _ => s.point t = some .setReady → Covered s

/-- After a statement that clears `CONNECT` one that clears `READY` follows, and a
dispatcher never sets `READY`. -/
def Orderly : List StateStmt → Prop
  | [] => True
  | stmt :: todo =>
    stmt ≠ .raise .ready ∧ (stmt = .lower .connect → .lower .ready ∈ todo) ∧ Orderly todo

theorem orderly_stateStmts (event : RtWlanDevEvent) : Orderly event.stateStmts := by
  cases event <;> simp [RtWlanDevEvent.stateStmts, Orderly]

def StatePoint.Orderly : StatePoint δ → Prop
  | .dispatch todo => Wlan.Orderly todo
  | _ => True

/-- The invariant of all interleavings. -/
structure ReadyInv (s : Threads ι (StaState δ) (StatePoint δ)) : Prop where
  covered : s.shared.Has .ready → Covered s
  orderly : ∀ t k, s.point t = some k → k.Orderly

/-- A covered state stays covered when the statement keeps `CONNECT` and, if its thread
repairs, leaves the repairing statement to come. -/
theorem Covered.goTo [DecidableEq ι] {s : Threads ι (StaState δ) (StatePoint δ)} {t : ι}
    {k : StatePoint δ} {shared : StaState δ} {next : Option (StatePoint δ)} (h : Covered s)
    (hpoint : s.point t = some k) (hconnect : s.shared.Has .connect → shared.Has .connect)
    (hrepairs : k.Repairs → ∃ k', next = some k' ∧ k'.Repairs) :
    Covered (s.goTo t shared next) := by
  rcases h with hconn | ⟨u, k₁, hu, hk₁⟩
  · exact .inl (hconnect hconn)
  · by_cases hut : u = t
    · subst hut
      obtain rfl : k = k₁ := Option.some.inj (hpoint.symm.trans hu)
      obtain ⟨k', hnext, hk'⟩ := hrepairs hk₁
      exact .inr ⟨u, k', by rw [Threads.goTo_point_self, hnext], hk'⟩
    · exact .inr ⟨u, k₁, by rw [Threads.goTo_point_of_ne s shared next hut, hu], hk₁⟩

variable [DecidableEq δ]

/-- The tests of the ready event leave the state byte alone. -/
theorem stateStmt_testConnect (m : StaState δ) (wlan : Option δ) :
    stateStmt m (.testConnect wlan) = (m, none) ∨
      stateStmt m (.testConnect wlan) = (m, some .testReady) := by
  simp only [stateStmt]
  split
  · exact .inl rfl
  · exact .inr rfl

theorem stateStmt_testReady (m : StaState δ) :
    stateStmt m .testReady = (m, none) ∨ stateStmt m .testReady = (m, some .setReady) := by
  simp only [stateStmt]
  split
  · exact .inl rfl
  · exact .inr rfl

theorem stateStmt_orderly {m : StaState δ} {k k' : StatePoint δ} (h : k.Orderly)
    (hnext : (stateStmt m k).2 = some k') : k'.Orderly := by
  cases k with
  | dispatch todo =>
    cases todo with
    | nil => exact nomatch hnext
    | cons stmt todo =>
      obtain rfl := Option.some.inj hnext
      exact h.2.2
  | testConnect wlan =>
    rcases stateStmt_testConnect m wlan with hstmt | hstmt
    · rw [hstmt] at hnext
      exact nomatch hnext
    · rw [hstmt] at hnext
      obtain rfl := Option.some.inj hnext
      trivial
  | testReady =>
    rcases stateStmt_testReady m with hstmt | hstmt
    · rw [hstmt] at hnext
      exact nomatch hnext
    · rw [hstmt] at hnext
      obtain rfl := Option.some.inj hnext
      trivial
  | setReady =>
    obtain rfl := Option.some.inj hnext
    trivial
  | sendReady => exact nomatch hnext

/-- Only the dispatcher and the setting of `READY` change the state byte. -/
theorem stateStmt_same (m : StaState δ) {k : StatePoint δ} (hset : k ≠ .setReady)
    (hdispatch : ∀ todo, k ≠ .dispatch todo) : (stateStmt m k).1 = m ∧ ¬ k.Repairs := by
  cases k with
  | dispatch todo => exact absurd rfl (hdispatch todo)
  | setReady => exact absurd rfl hset
  | sendReady => exact ⟨rfl, id⟩
  | testConnect wlan =>
    rcases stateStmt_testConnect m wlan with hstmt | hstmt
    · exact ⟨congrArg Prod.fst hstmt, id⟩
    · exact ⟨congrArg Prod.fst hstmt, id⟩
  | testReady =>
    rcases stateStmt_testReady m with hstmt | hstmt
    · exact ⟨congrArg Prod.fst hstmt, id⟩
    · exact ⟨congrArg Prod.fst hstmt, id⟩

variable [DecidableEq ι]

omit [DecidableEq δ] in
/-- After a statement of the dispatcher `READY` is covered if it was before. -/
theorem covered_dispatch {s : Threads ι (StaState δ) (StatePoint δ)} {t : ι} {stmt : StateStmt}
    {todo : List StateStmt} (h : ReadyInv s) (hpoint : s.point t = some (.dispatch (stmt :: todo)))
    (hready : (stmt.run s.shared).Has .ready) :
    Covered (s.goTo t (stmt.run s.shared) (some (.dispatch todo))) := by
  obtain ⟨hset, hclear, -⟩ := h.orderly t _ hpoint
  cases stmt with
  | raise flag =>
    rw [StateStmt.raise_has] at hready
    cases flag with
    | ready => exact absurd rfl hset
    | connect => exact .inl ((StateStmt.raise_has _ _ _).mpr (.inr rfl))
    | connecting =>
      have hcovered := h.covered (hready.resolve_right (by decide))
      refine hcovered.goTo hpoint (fun hconn => (StateStmt.raise_has _ _ _).mpr (.inl hconn)) ?_
      rintro (hmem | hmem)
      · exact ⟨_, rfl, .inl (List.mem_of_ne_of_mem (by decide) hmem)⟩
      · exact ⟨_, rfl, .inr (List.mem_of_ne_of_mem (by decide) hmem)⟩
  | lower flag =>
    rw [StateStmt.lower_has] at hready
    cases flag with
    | ready => exact absurd rfl hready.2
    | connect =>
      have hrepairs : StatePoint.Repairs (δ := δ) (.dispatch todo) := .inr (hclear rfl)
      exact .inr ⟨t, _, Threads.goTo_point_self s t _ _, hrepairs⟩
    | connecting =>
      refine (h.covered hready.1).goTo hpoint (fun hconn => ?_) ?_
      · exact (StateStmt.lower_has _ _ _).mpr ⟨hconn, by decide⟩
      · rintro (hmem | hmem)
        · exact ⟨_, rfl, .inl (List.mem_of_ne_of_mem (by decide) hmem)⟩
        · exact ⟨_, rfl, .inr (List.mem_of_ne_of_mem (by decide) hmem)⟩

/-- A statement keeps the invariant; the setting of `READY` does when it is in time. -/
theorem readyInv_stmt {s : Threads ι (StaState δ) (StatePoint δ)} {t : ι} {k : StatePoint δ}
    (hok : SetsReadyInTime s (.next t ())) (hpoint : s.point t = some k) (h : ReadyInv s) :
    ReadyInv (s.goTo t (stateStmt s.shared k).1 (stateStmt s.shared k).2) := by
  refine ⟨fun hready => ?_, Threads.forall_goTo (fun k' hnext => ?_)
    fun u k' _ hu => h.orderly u k' hu⟩
  · by_cases hdispatch : ∃ todo, k = .dispatch todo
    · obtain ⟨todo, rfl⟩ := hdispatch
      cases todo with
      | nil =>
        refine (h.covered hready).goTo hpoint id ?_
        rintro (hmem | hmem)
        · exact nomatch hmem
        · exact nomatch hmem
      | cons stmt todo => exact covered_dispatch h hpoint hready
    · by_cases hset : k = .setReady
      · subst hset
        refine (hok hpoint).goTo hpoint (fun hconn => ?_) nofun
        exact (StateStmt.raise_has _ _ _).mpr (.inl hconn)
      · obtain ⟨hsame, hrepairs⟩ := stateStmt_same s.shared hset
          fun todo htodo => hdispatch ⟨todo, htodo⟩
        rw [hsame] at hready ⊢
        exact (h.covered hready).goTo hpoint id fun hk => absurd hk hrepairs
  · exact stateStmt_orderly (h.orderly t k hpoint) hnext

/-- A call that begins changes nothing for the others. -/
theorem readyInv_call {s : Threads ι (StaState δ) (StatePoint δ)} {t : ι}
    (c : StateCall δ) (hidle : s.point t = none) (h : ReadyInv s) :
    ReadyInv (s.goTo t s.shared (some ((stateProgram (ι := ι)).entry c))) := by
  refine ⟨fun hready => ?_, Threads.forall_goTo (fun k hnext => ?_)
    fun u k _ hu => h.orderly u k hu⟩
  · rcases h.covered hready with hconn | ⟨u, k, hu, hk⟩
    · exact .inl hconn
    · have hut : u ≠ t := by
        rintro rfl
        exact nomatch hidle.symm.trans hu
      exact .inr ⟨u, k, (Threads.goTo_point_of_ne s _ _ hut).trans hu, hk⟩
  · obtain rfl := Option.some.inj hnext
    cases c with
    | dispatch event => exact orderly_stateStmts event
    | protReady wlan => trivial

/-- A ready link that nothing covers, and that the handlers in progress leave so. -/
theorem uncovered_stmt {s : Threads ι (StaState δ) (StatePoint δ)} {t : ι} {k : StatePoint δ}
    (hpoint : s.point t = some k) (hready : s.shared.Has .ready) (huncovered : ¬ Covered s) :
    (stateStmt s.shared k).1.Has .ready ∧
      ¬ Covered (s.goTo t (stateStmt s.shared k).1 (stateStmt s.shared k).2) := by
  have hconn : ¬ s.shared.Has .connect := fun h => huncovered (.inl h)
  have hnone : ∀ u k', s.point u = some k' → ¬ k'.Repairs := fun u k' hu hk =>
    huncovered (.inr ⟨u, k', hu, hk⟩)
  have hflags : (stateStmt s.shared k).1.Has .ready ∧ ¬ (stateStmt s.shared k).1.Has .connect ∧
      ∀ k', (stateStmt s.shared k).2 = some k' → ¬ k'.Repairs := by
    have hown := hnone t k hpoint
    cases k with
    | dispatch todo =>
      cases todo with
      | nil => exact ⟨hready, hconn, nofun⟩
      | cons stmt todo =>
        refine ⟨?_, ?_, fun k' hnext hk' => hown ?_⟩
        · cases stmt with
          | raise flag => exact (StateStmt.raise_has _ _ _).mpr (.inl hready)
          | lower flag =>
            refine (StateStmt.lower_has _ _ _).mpr ⟨hready, ?_⟩
            rintro rfl
            exact hown (.inr List.mem_cons_self)
        · cases stmt with
          | lower flag => exact fun h => hconn ((StateStmt.lower_has _ _ _).mp h).1
          | raise flag =>
            intro h
            rcases (StateStmt.raise_has _ _ _).mp h with hold | rfl
            · exact hconn hold
            · exact hown (.inl List.mem_cons_self)
        · obtain rfl := Option.some.inj hnext
          exact hk'.imp (List.mem_cons_of_mem _) (List.mem_cons_of_mem _)
    | setReady =>
      refine ⟨(StateStmt.raise_has _ _ _).mpr (.inl hready), fun h => ?_, fun k' hnext => ?_⟩
      · exact hconn (((StateStmt.raise_has _ _ _).mp h).resolve_right (by decide))
      · obtain rfl := Option.some.inj hnext
        exact id
    | sendReady => exact ⟨hready, hconn, nofun⟩
    | testConnect wlan =>
      rcases stateStmt_testConnect s.shared wlan with hstmt | hstmt
      · rw [hstmt]
        exact ⟨hready, hconn, nofun⟩
      · rw [hstmt]
        exact ⟨hready, hconn, fun k' hnext => by obtain rfl := Option.some.inj hnext; exact id⟩
    | testReady =>
      rcases stateStmt_testReady s.shared with hstmt | hstmt
      · rw [hstmt]
        exact ⟨hready, hconn, nofun⟩
      · rw [hstmt]
        exact ⟨hready, hconn, fun k' hnext => by obtain rfl := Option.some.inj hnext; exact id⟩
  obtain ⟨hready', hconn', hnext'⟩ := hflags
  refine ⟨hready', ?_⟩
  rintro (h | ⟨u, k', hu, hk'⟩)
  · exact hconn' h
  · exact Threads.forall_goTo hnext' (fun v k _ hv => hnone v k hv) u k' hu hk'

end Invariant

/-! ## Whole runs -/

section Runs

variable {ι : Type*} [DecidableEq ι] [DecidableEq δ] {s s' : Threads ι (StaState δ) (StatePoint δ)}
  {actions : List (ThreadAction ι (StateCall δ) Unit)}

/-- The flags do not contradict each other, and neither do the two queries. -/
def ReadyConnected (m : StaState δ) : Prop :=
  (m.Has .ready → m.Has .connect) ∧ (rtWlanIsReady m = true → rtWlanIsConnected m = true)

omit [DecidableEq ι] [DecidableEq δ] in
theorem readyInv_start (device : Option δ) :
    ReadyInv (.start ⟨device, 0⟩ : Threads ι (StaState δ) (StatePoint δ)) :=
  ⟨fun h => absurd UInt8.zero_and h, nofun⟩

theorem readyInv_run (device : Option δ)
    (run : stateProgram.threads.Run SetsReadyInTime (.start ⟨device, 0⟩) actions s) :
    ReadyInv s := by
  refine Program.invariant (fun s t c hidle h => readyInv_call c hidle h)
    (fun s t _ k shared next hok hpoint hstmt h => ?_) run (readyInv_start device)
  have hinv := readyInv_stmt hok hpoint h
  rw [Option.some.inj hstmt] at hinv
  exact hinv

/-- In every run in which `READY` is set in time, `READY` without `CONNECT` is never left
behind. -/
theorem ready_connected (device : Option δ)
    (run : stateProgram.threads.Run SetsReadyInTime (.start ⟨device, 0⟩) actions s)
    (hidle : s.Idle) : ReadyConnected s.shared := by
  have hflags : s.shared.Has .ready → s.shared.Has .connect := by
    intro hready
    rcases (readyInv_run device run).covered hready with hconn | ⟨u, k, hu, -⟩
    · exact hconn
    · exact nomatch (hidle u).symm.trans hu
  refine ⟨hflags, fun hready => ?_⟩
  unfold rtWlanIsReady at hready
  unfold rtWlanIsConnected
  cases hdevice : s.shared.device.isNone with
  | true =>
    rw [hdevice] at hready
    exact nomatch hready
  | false =>
    rw [hdevice] at hready
    exact decide_eq_true (hflags (of_decide_eq_true hready))

/-- When `READY` is not set in time, it stands without `CONNECT` until another handler
begins, whatever those in progress still do. -/
theorem ready_unconnected_remains {mid : Threads ι (StaState δ) (StatePoint δ)} {t : ι}
    (hset : s.point t = some .setReady) (huncovered : ¬ Covered s)
    (hstep : stateProgram.threads.step s (.next t ()) = some mid)
    (run : stateProgram.threads.Run (fun _ a => ∃ u, a = .next u ()) mid actions s') :
    ¬ ReadyConnected s'.shared := by
  have hlost : s'.shared.Has .ready ∧ ¬ Covered s' := by
    refine run.invariant (I := fun s => s.shared.Has .ready ∧ ¬ Covered s) ?_ ?_
    · rintro s _ mid ⟨u, rfl⟩ hnext ⟨hready, hnot⟩
      obtain ⟨k, shared, next, hpoint, hstmt, rfl⟩ := Program.step_next hnext
      have hkeep := uncovered_stmt hpoint hready hnot
      rw [Option.some.inj hstmt] at hkeep
      exact hkeep
    · obtain ⟨k, shared, next, hpoint, hstmt, rfl⟩ := Program.step_next hstep
      obtain rfl : .setReady = k := Option.some.inj (hset.symm.trans hpoint)
      obtain ⟨rfl, rfl⟩ := Prod.mk.inj (Option.some.inj hstmt)
      refine ⟨(StateStmt.raise_has _ _ _).mpr (.inr rfl), ?_⟩
      rintro (hconn | ⟨u, k', hu, hk'⟩)
      · exact huncovered (.inl (((StateStmt.raise_has _ _ _).mp hconn).resolve_right (by decide)))
      · refine Threads.forall_goTo (A := fun _ k => ¬ k.Repairs) (fun k hnext => ?_)
          (fun v k _ hv hk => huncovered (.inr ⟨v, k, hv, hk⟩)) u k' hu hk'
        obtain rfl := Option.some.inj hnext
        exact id
  intro h
  exact hlost.2 (.inl (h.1 hlost.1))

end Runs

/-! ## A ready event that is overtaken -/

/-- Thread 0 dispatches `CONNECT`, thread 1 runs the ready event. -/
def readyAfterConnect : List (ThreadAction Bool (StateCall Unit) Unit) :=
  [.call false (.dispatch .connect), .next false (), .next false (), .next false (),
    .call true (.protReady (some ())), .next true (), .next true (), .next true (), .next true ()]

theorem ready_connected_after_connect :
    ∃ s, stateProgram.threads.exec (.start ⟨some (), 0⟩) readyAfterConnect = some s ∧
      rtWlanIsReady s.shared = true ∧ ReadyConnected s.shared := by
  have hexec : (stateProgram.threads.exec (.start ⟨some (), 0⟩) readyAfterConnect).map
      (fun s => (rtWlanIsReady s.shared, s.point false, s.point true)) =
      some (true, none, none) := rfl
  obtain ⟨s, hs, hfinal⟩ := Option.map_eq_some_iff.mp hexec
  obtain ⟨hready, hfalse, htrue⟩ : rtWlanIsReady s.shared = true ∧ s.point false = none ∧
      s.point true = none := by simpa using hfinal
  have hadmitted : stateProgram.threads.Admitted SetsReadyInTime (.start ⟨some (), 0⟩)
      readyAfterConnect :=
    .cons trivial rfl <| .cons nofun rfl <| .cons nofun rfl <| .cons nofun rfl <|
      .cons trivial rfl <| .cons nofun rfl <| .cons nofun rfl <|
      .cons (fun _ => .inl (by decide)) rfl <| .cons nofun rfl trivial
  refine ⟨s, hs, hready, ready_connected (some ()) (Machine.Run.of_exec hs hadmitted) fun t => ?_⟩
  cases t with
  | false => exact hfalse
  | true => exact htrue

/-- As above, but a dispatch of `DISCONNECT` falls between the tests and the setting. -/
def overtaken : List (ThreadAction Bool (StateCall Unit) Unit) :=
  [.call false (.dispatch .connect), .next false (), .next false (), .next false (),
    .call true (.protReady (some ())), .next true (), .next true (),
    .call false (.dispatch .disconnect), .next false (), .next false (), .next false (),
    .next true (), .next true ()]

/-- All handlers have returned and the link is ready, but not connected. -/
theorem not_ready_connected_late_set :
    ¬ ∀ s, stateProgram.threads.Run Machine.anyStep (.start ⟨some (), 0⟩) overtaken s →
      s.Idle → ReadyConnected s.shared := by
  intro h
  have hexec : (stateProgram.threads.exec (.start ⟨some (), 0⟩) overtaken).map
      (fun s => (s.shared, s.point false, s.point true)) =
      some (⟨some (), 0x4⟩, none, none) := rfl
  obtain ⟨s, hs, hfinal⟩ := Option.map_eq_some_iff.mp hexec
  obtain ⟨hshared, hfalse, htrue⟩ : s.shared = ⟨some (), 0x4⟩ ∧ s.point false = none ∧
      s.point true = none := by simpa using hfinal
  have hconnected := h s (Machine.Run.of_exec hs (Machine.admitted_anyStep _ _)) fun t => by
    cases t with
    | false => exact hfalse
    | true => exact htrue
  rw [hshared] at hconnected
  exact absurd (hconnected.1 (by decide)) (by decide)

end Gd32Vw553h.Wlan
