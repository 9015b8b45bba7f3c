/-
  Provision/HandOff.lean --- from accepted lines to connection attempts.

  The credential slot and `gd_prov_sem` are a mailbox: storing the pair of a line
  is a post whose signal is raised by the release, and the worker's copy is a
  fetch.  `step_tracks` says that every step of the machine is a step of the
  mailbox or none.  The worker's start-up store is an overwrite without a signal;
  where it overwrites nothing that was accepted, `handOff_of_run` gives the
  hand-off in every state of every run.
-/
import Gd32Vw553h.Foundation.Mailbox
import Gd32Vw553h.Provision.WebPage
import Gd32Vw553h.Provision.Worker

set_option autoImplicit false

namespace Gd32Vw553h.Provision

open Gd32Vw553h.Foundation Gd32Vw553h.Klibc Gd32Vw553h.Json

variable (env : Env)

/-! ## The slot as a mailbox -/

/-- A pair within the limits of `gd_prov_submit_json`. -/
structure Fits (pair : Pair) : Prop where
  ssidNul : NulFree pair.1
  ssidLen : pair.1.length ≤ gdProvMaxSsidLen
  passwordNul : NulFree pair.2
  passwordLen : pair.2.length ≤ gdProvMaxPasswordLen

/-- Copying a slot gives back the pair stored in it. -/
theorem storedCredentials_pair {pair : Pair} (h : Fits pair) :
    (cString (storedCredentials pair.1 pair.2).ssid.toList,
      cString (storedCredentials pair.1 pair.2).password.toList) = pair := by
  rw [storedCredentials_ssid _ h.ssidNul h.ssidLen,
    storedCredentials_password _ h.passwordNul h.passwordLen,
    cString_zeroPad h.ssidNul (Nat.lt_succ_of_le h.ssidLen),
    cString_zeroPad h.passwordNul (Nat.lt_succ_of_le h.passwordLen)]

/-- The built-in default. -/
def defaultPair : Pair := (gdProvDefaultSsid, gdProvDefaultPassword)

theorem fits_default : Fits defaultPair where
  ssidNul := by decide
  ssidLen := by decide
  passwordNul := by decide
  passwordLen := by decide

/-- The mailbox `m` is the slot of `s`. -/
structure Tracks (s : System) (m : Mailbox Pair) : Prop where
  posted : m.posted = s.accepted
  pending : m.pending = s.pending
  fetched : m.fetched = s.copied
  creds : s.globals.creds = storedCredentials m.slot.1 m.slot.2
  fits : Fits m.slot

theorem tracks_initial : Tracks System.initial (Mailbox.unused ([], [])) where
  posted := rfl
  pending := rfl
  fetched := rfl
  creds := by decide
  fits := ⟨by simp [NulFree, Mailbox.unused], Nat.zero_le _,
    by simp [NulFree, Mailbox.unused], Nat.zero_le _⟩

/-- A step that leaves the slot's variables alone. -/
theorem Tracks.stutter {s s' : System} {m : Mailbox Pair} (h : Tracks s m)
    (haccepted : s'.accepted = s.accepted) (hpending : s'.pending = s.pending)
    (hcopied : s'.copied = s.copied) (hcreds : s'.globals.creds = s.globals.creds) :
    Tracks s' m where
  posted := h.posted.trans haccepted.symm
  pending := h.pending.trans hpending.symm
  fetched := h.fetched.trans hcopied.symm
  creds := hcreds.trans h.creds
  fits := h.fits

/-! ## Steps -/

/-- The condition on a step: the worker's start-up store comes before every
accepted line, and the semaphore has room for a release. -/
def HandOffOk (s : System) : Action → Prop
  | .worker => s.worker = .start → s.accepted = []
  | .submitter _ => s.sem < rtSemValueMax
  | _ => True

/-- What a step of the machine is for the mailbox. -/
def MailboxStep (m : Mailbox Pair) (s' : System) : Prop :=
  ∃ actions m', (mailbox Pair).Run Mailbox.OverwriteUnused m actions m' ∧ Tracks s' m'

theorem MailboxStep.of_tracks {m : Mailbox Pair} {s' : System} (h : Tracks s' m) :
    MailboxStep m s' := ⟨[], m, .nil m, h⟩

theorem MailboxStep.of_step {m m' : Mailbox Pair} {s' : System} {action : MailboxAction Pair}
    (hstep : (mailbox Pair).step m action = some m') (hok : m.OverwriteUnused action)
    (h : Tracks s' m') : MailboxStep m s' :=
  ⟨[action], m', .cons hok hstep (.nil m'), h⟩

variable {s : System} {m : Mailbox Pair}

/-- A rejected line leaves the slot alone, an accepted one posts its pair. -/
theorem submitStep_tracks (h : Tracks s m) (json : Vector UInt8 gdProvJsonBufferLen)
    (connIdx : UInt8) : MailboxStep m (s.submitStep env json connIdx) := by
  cases hcheck : gdProvCheckJson env (cString json.toList) with
  | error status =>
    obtain ⟨sends, tx, heq, -⟩ := gdProvSubmitJson_rejected env hcheck connIdx s.globals
    simp only [System.submitStep, hcheck, heq]
    exact .of_tracks (h.stutter rfl rfl rfl rfl)
  | ok pair =>
    obtain ⟨ssid, password⟩ := pair
    obtain ⟨⟨hssidNul, -, hssidLen⟩, hpasswordNul, hpasswordLen⟩ := gdProvCheckJson_ok env hcheck
    simp only [System.submitStep, hcheck]
    have hpost : (mailbox Pair).step m (.post (ssid, password)) =
        some ⟨(ssid, password), m.posted ++ [(ssid, password)], m.pending + 1, m.fetched⟩ := rfl
    refine .of_step hpost trivial ⟨?_, ?_, ?_, rfl, ?_⟩
    · simp [h.posted]
    · simp [h.pending, System.pending]
      omega
    · exact h.fetched
    · exact ⟨hssidNul, hssidLen, hpasswordNul, hpasswordLen⟩

/-- A release moves a signal from the submission to the semaphore or the worker. -/
theorem rtSemRelease_pending (s : System) (hroom : s.sem < rtSemValueMax) :
    s.rtSemRelease.pending = s.pending + 1 := by
  cases hworker : s.worker <;>
    simp [System.rtSemRelease, hworker, hroom, System.pending, WorkerPc.taken] <;> omega

theorem submitterStep_tracks (h : Tracks s m) (hroom : s.sem < rtSemValueMax) {i : Nat}
    {s' : System} (hstep : s.submitterStep env i = some s') : MailboxStep m s' := by
  cases hi : s.submitters[i]? with
  | none => simp [System.submitterStep, hi] at hstep
  | some submitter =>
    obtain ⟨connIdx, pc⟩ := submitter
    have hlt : i < s.submitters.length := (List.getElem?_eq_some_iff.mp hi).1
    cases pc with
    | notify =>
      simp only [System.submitterStep, hi, Option.some.injEq] at hstep
      rw [← hstep]
      exact .of_tracks (h.stutter rfl (by simp [System.pending]) rfl
        (gdProvNotify_frame env _ _ _).1)
    | release =>
      simp only [System.submitterStep, hi, Option.some.injEq] at hstep
      rw [← hstep]
      let released : System :=
        { s with globals := s.globals.emit .semRelease, submitters := s.submitters.eraseIdx i }
      obtain ⟨hglobals, haccepted, hcopied, -⟩ := rtSemRelease_frame released
      have hpending : released.rtSemRelease.pending = s.pending := by
        rw [rtSemRelease_pending released hroom]
        simp only [released, System.pending, List.length_eraseIdx_of_lt hlt]
        omega
      exact .of_tracks (h.stutter haccepted hpending hcopied (by rw [hglobals]; rfl))

/-- The worker's copy is a fetch, its start-up store an overwrite; its other steps
leave the slot alone. -/
theorem workerStep_tracks (h : Tracks s m) (hunused : s.worker = .start → s.accepted = [])
    {s' : System} (hstep : s.workerStep env = some s') : MailboxStep m s' := by
  cases hworker : s.worker with
  | start =>
    simp only [System.workerStep, hworker, Option.some.injEq] at hstep
    rw [← hstep]
    have hnone : m.posted = [] := by rw [h.posted, hunused hworker]
    have hoverwrite : (mailbox Pair).step m (.overwrite defaultPair) =
        some { m with slot := defaultPair } := rfl
    refine .of_step hoverwrite hnone ⟨h.posted, ?_, ?_, rfl, fits_default⟩
    · rw [h.pending]
      simp [System.pending, hworker, WorkerPc.taken]
    · rw [h.fetched]
      simp [System.copied, hworker, WorkerPc.untried]
  | take =>
    simp only [System.workerStep, hworker, Option.some.injEq] at hstep
    rw [← hstep]
    unfold System.rtSemTake
    split
    · refine .of_tracks (h.stutter rfl ?_ ?_ rfl)
      · simp only [System.pending, hworker, WorkerPc.taken]
        omega
      · simp [System.copied, hworker, WorkerPc.untried]
    · refine .of_tracks (h.stutter rfl ?_ ?_ rfl)
      · simp [System.pending, hworker, WorkerPc.taken]
      · simp [System.copied, hworker, WorkerPc.untried]
  | blocked => simp [System.workerStep, hworker] at hstep
  | copy =>
    simp only [System.workerStep, hworker, Option.some.injEq] at hstep
    rw [← hstep]
    have hsignal : m.pending ≠ 0 := by
      rw [h.pending]
      simp [System.pending, hworker, WorkerPc.taken]
    have hfetch : (mailbox Pair).step m .fetch =
        some ⟨m.slot, m.posted, m.pending - 1, m.fetched ++ [m.slot]⟩ := by
      simp [mailbox, hsignal]
    refine .of_step hfetch trivial ⟨h.posted, ?_, ?_, h.creds, h.fits⟩
    · simp [h.pending, System.pending, System.workerCopy, hworker, WorkerPc.taken]
    · -- the pair copied is the one stored
      have hpair := storedCredentials_pair h.fits
      rw [← h.creds] at hpair
      simp [h.fetched, System.copied, System.workerCopy, hworker, WorkerPc.untried, Job.pair,
        hpair]
  | notifyConnecting job =>
    simp only [System.workerStep, hworker, Option.some.injEq] at hstep
    rw [← hstep]
    refine .of_tracks (h.stutter rfl ?_ ?_ (workerNotify_frame env _ _ _).1)
    · simp [System.pending, System.workerNotify, hworker, WorkerPc.taken]
    · simp [System.copied, System.workerNotify, hworker, WorkerPc.untried]
  | connect job =>
    simp only [System.workerStep, hworker, Option.some.injEq] at hstep
    rw [← hstep]
    refine .of_tracks (h.stutter rfl ?_ ?_ rfl)
    · simp [System.pending, hworker, WorkerPc.taken]
    · simp [System.copied, hworker, WorkerPc.untried]
  | connecting job => simp [System.workerStep, hworker] at hstep
  | notifyResponse job text =>
    simp only [System.workerStep, hworker, Option.some.injEq] at hstep
    rw [← hstep]
    refine .of_tracks (h.stutter rfl ?_ ?_ (workerNotify_frame env _ _ _).1)
    · simp [System.pending, System.workerNotify, hworker, WorkerPc.taken]
    · simp [System.copied, System.workerNotify, hworker, WorkerPc.untried]

theorem wifiDoneStep_tracks (h : Tracks s m) {ret : Int} {ip : String} {s' : System}
    (hstep : s.wifiDoneStep ret ip = some s') : MailboxStep m s' := by
  cases hworker : s.worker with
  | connecting job =>
    simp only [System.wifiDoneStep, hworker, Option.some.injEq] at hstep
    rw [← hstep]
    refine .of_tracks (h.stutter rfl ?_ ?_ rfl)
    · simp [System.pending, hworker, WorkerPc.taken]
    · simp [System.copied, hworker, WorkerPc.untried]
  | _ => simp [System.wifiDoneStep, hworker] at hstep

theorem connEvtStep_tracks (h : Tracks s m) (connIdx : UInt8) (connected : Bool) :
    MailboxStep m (s.connEvtStep connIdx connected) := by
  refine .of_tracks (h.stutter rfl rfl rfl ?_)
  cases connected <;> rfl

/-- Every admitted step is a step of the mailbox or leaves it as it is. -/
theorem step_tracks {s' : System} {a : Action} (h : Tracks s m) (hok : HandOffOk s a)
    (hstep : (provisioning env).step s a = some s') : MailboxStep m s' := by
  cases a with
  | connEvt connIdx connected =>
    obtain rfl := Option.some.inj hstep
    exact connEvtStep_tracks h connIdx connected
  | submit json connIdx =>
    obtain rfl := Option.some.inj hstep
    exact submitStep_tracks env h json connIdx
  | submitter i => exact submitterStep_tracks env h hok hstep
  | worker => exact workerStep_tracks env h hok hstep
  | wifiDone ret ip => exact wifiDoneStep_tracks h hstep

/-! ## The hand-off -/

/-- What the hand-off promises in a state: every attempt used an accepted pair,
attempts do not exceed accepted lines, and once no signal is left and the worker
waits, each line whose submission is complete had its attempt and the last attempt
used the last accepted pair. -/
structure HandOff (s : System) : Prop where
  attempts_accepted : ∀ pair ∈ s.attempts, pair ∈ s.accepted
  attempts_le : s.attempts.length ≤ s.accepted.length
  drained : s.sem = 0 → s.worker = .blocked →
    s.attempts.length + s.submitters.length = s.accepted.length ∧
      (s.submitters = [] → s.attempts.getLast? = s.accepted.getLast?)

theorem handOff_of_consistent (h : Tracks s m) (hm : m.Consistent) : HandOff s where
  attempts_accepted := by
    intro pair hpair
    rw [← h.posted]
    refine hm.fetched pair ?_
    rw [h.fetched]
    exact List.mem_append_left _ hpair
  attempts_le := by
    have hcount := hm.count
    rw [h.posted, h.fetched, System.copied, List.length_append] at hcount
    omega
  drained := by
    intro hsem hblocked
    have hcount := hm.count
    have hlast := hm.last
    rw [h.posted, h.fetched, h.pending] at hcount hlast
    simp only [System.pending, System.copied, hsem, hblocked, WorkerPc.taken, WorkerPc.untried,
      List.append_nil, Nat.add_zero] at hcount hlast
    exact ⟨by omega, fun hidle => hlast (by rw [hidle]; rfl)⟩

/-- In every run in which the worker's start-up store precedes the accepted lines
and no release finds the semaphore full, the hand-off holds in every state. -/
theorem handOff_of_run {actions : List Action}
    (run : (provisioning env).Run HandOffOk System.initial actions s) : HandOff s := by
  obtain ⟨_, m, hrun, htracks⟩ := run.simulate (mailbox Pair)
    Mailbox.OverwriteUnused Tracks
    (fun _ _ _ _ h hok hstep => step_tracks env h hok hstep) tracks_initial
  exact handOff_of_consistent htracks (Mailbox.Consistent.run hrun
    (Mailbox.consistent_unused ([], [])))

/-- The credentials of the two runs below. -/
def samplePair : Pair := (utf8 ['n', 'e', 't'], utf8 ['p', 'w'])

theorem gdProvCheckJson_sample :
    gdProvCheckJson objectEnv (cString (pageLine ['n', 'e', 't'] ['p', 'w']).toList) =
      .ok samplePair :=
  gdProvCheckJson_pageLine (by decide) (by decide)
    (by decide) (by decide) (by decide)

/-- The worker waits before the line comes: the line is tried and the system drained. -/
theorem handOff_of_waiting_worker :
    ∃ s, HandOff s ∧ s.attempts = [samplePair] ∧ s.sem = 0 ∧ s.worker = .blocked := by
  have hcheck := gdProvCheckJson_sample
  have hfits : Fits samplePair :=
    ⟨by decide, by decide, by decide, by decide⟩
  have hpair := storedCredentials_pair hfits
  obtain ⟨s, hexec, hattempts, hsem, hworker⟩ : ∃ s, (provisioning objectEnv).exec
      System.initial [.worker, .worker, .submit (pageLine ['n', 'e', 't'] ['p', 'w']) 0,
        .submitter 0, .submitter 0, .worker, .worker, .worker, .wifiDone 0 "192.168.1.2",
        .worker, .worker] = some s ∧
      s.attempts = [samplePair] ∧ s.sem = 0 ∧ s.worker = .blocked := by
    simp [Machine.exec, provisioning, System.submitStep, hcheck, System.submitterStep,
      System.initial, System.rtSemRelease, System.workerStep, System.rtSemTake,
      System.workerCopy, System.workerNotify, System.wifiDoneStep]
    exact hpair
  refine ⟨s, handOff_of_run objectEnv (Machine.Run.of_exec hexec ?_), hattempts, hsem, hworker⟩
  simp [Machine.Admitted, provisioning, HandOffOk, System.submitStep, hcheck,
    System.submitterStep, System.initial, System.rtSemRelease, System.workerStep,
    System.rtSemTake, System.workerCopy, System.workerNotify, System.wifiDoneStep]

/-- A line accepted before the worker's start-up store: the worker overwrites its
pair and tries the built-in default. -/
theorem default_attempted_of_early_line {json : Vector UInt8 gdProvJsonBufferLen} {pair : Pair}
    (hcheck : gdProvCheckJson env (cString json.toList) = .ok pair) (connIdx : UInt8) :
    ∃ s, (provisioning env).exec System.initial
        [.submit json connIdx, .submitter 0, .submitter 0, .worker, .worker, .worker, .worker,
          .worker] = some s ∧
      s.attempts = [defaultPair] ∧ s.accepted = [pair] := by
  obtain ⟨ssid, password⟩ := pair
  have hpair := storedCredentials_pair fits_default
  simp [Machine.exec, provisioning, System.submitStep, hcheck, System.submitterStep,
    System.initial, System.rtSemRelease, System.workerStep, System.rtSemTake,
    System.workerCopy, System.workerNotify]
  exact hpair

theorem not_handOff_of_early_line :
    ∃ s, (provisioning objectEnv).Run Machine.anyStep System.initial
        [.submit (pageLine ['n', 'e', 't'] ['p', 'w']) 0, .submitter 0, .submitter 0, .worker,
          .worker, .worker, .worker, .worker] s ∧
      s.accepted = [samplePair] ∧ s.attempts = [defaultPair] ∧ ¬ HandOff s := by
  obtain ⟨s, hexec, hattempts, haccepted⟩ :=
    default_attempted_of_early_line objectEnv gdProvCheckJson_sample 0
  refine ⟨s, Machine.Run.of_exec hexec (Machine.admitted_anyStep _ _), haccepted, hattempts,
    fun h => ?_⟩
  have hmem := h.attempts_accepted defaultPair (by rw [hattempts]; exact List.mem_singleton_self _)
  rw [haccepted] at hmem
  exact absurd hmem (by decide)

end Gd32Vw553h.Provision
