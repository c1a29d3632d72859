import MightyColab.Job.Models
import MightyColab.Lib.Runs

/-!
# Who stopped the workload

The runner's wait loop, the watchdog's loop, writers of `cancel.json` outside
the VM, and the workload itself, as one machine whose steps interleave freely.
The runner derives its verdict from `cancel.json` and its own `term_sent` flag,
not from who sent the signal, so the state also keeps what really happened: was
SIGTERM ever sent, and was the workload still running then.
-/

namespace MightyColab
namespace Job

open Lib

namespace CancelRace

/-- The shim process as `os.waitpid` sees it. -/
inductive Child where
  | running
  | exited (code : Int)
  | signaled (number : Int)
  deriving DecidableEq, Repr

/-- The content of `cancel.json` as `_read_json_checked` finds it. -/
inductive CancelFile where
  | readable (value : Json)
  | unreadable (error : String)

def CancelFile.intent : CancelFile -> Json
  | .readable value => value
  | .unreadable error =>
      .obj [("intent", .str "cancelled"), ("by", .null), ("error", .str error)]

def wallClockCancel (now : Nat) : CancelFile :=
  .readable (.obj
    [("intent", .str "cancelled"), ("by", .str "wall_clock"), ("at", .int now)])

structure Config where
  /-- The runner's start plus `--deadline`. -/
  deadline : Option Nat
  /-- `--artifact-sync-interval`, when there is a manifest to sync. -/
  syncInterval : Option Nat

inductive RunnerPc where
  /-- About to call `os.waitpid`. -/
  | poll
  /-- The child runs: about to read the clock. -/
  | readClock
  /-- About to test whether `cancel.json` exists. -/
  | readCancel (now : Nat)
  | decide (now : Nat) (cancelRequested : Bool)
  /-- The deadline passed first: about to write `cancel.json`. -/
  | writeIntent (now : Nat)
  | sigterm (now : Nat)
  /-- The process group has its SIGTERM; the escapees and `term_sent` follow. -/
  | escapees (now : Nat)
  | sigkill (now : Nat)
  | maySync (now : Nat)
  /-- Inside `_sync_artifacts_once`, for any length of time. -/
  | syncing
  /-- Out of the loop: probes and sweeps, then `cancel.json` is read. -/
  | ended
  /-- `cancel.json` has been read; the verdict is next. -/
  | verdict
  | done
  deriving DecidableEq, Repr

inductive WatchdogPc where
  | top
  | checkResult (now : Nat) (deadline : Option Nat)
  | checkCancel (now : Nat) (deadline : Option Nat)
  | decide (now : Nat) (deadline : Option Nat) (cancelRequested : Bool)
  /-- In `_cancel`: tests once more whether `cancel.json` exists. -/
  | recheck (now : Nat)
  | writeIntent (now : Nat)
  | sigterm (now : Nat)
  | sigkill (now : Nat)
  | stopped
  deriving DecidableEq, Repr

structure State where
  clock : Nat
  child : Child
  cancel : Option CancelFile
  /-- The workload value in `result.json`. -/
  result : Option Workload
  runner : RunnerPc
  termSent : Bool
  killSent : Bool
  escalateAt : Nat
  lastSync : Nat
  exitCode : Option Int
  termSignal : Option Int
  /-- The runner's `runner_error` as its wait loop left it. -/
  loopError : Option String
  /-- The runner's `intent`, from its one read of `cancel.json`. -/
  intent : Option Json
  watchdog : WatchdogPc
  cancelSent : Bool
  watchdogKillSent : Bool
  watchdogEscalateAt : Option Nat
  /-- The runner or the watchdog has sent SIGTERM to the workload. -/
  signalled : Bool
  /-- One of them did while the workload was still running. -/
  signalledRunning : Bool

/-- The wait loop and the watchdog about to start on a running workload. -/
def init : State where
  clock := 0
  child := .running
  cancel := none
  result := none
  runner := .poll
  termSent := false
  killSent := false
  escalateAt := 0
  lastSync := 0
  exitCode := none
  termSignal := none
  loopError := none
  intent := none
  watchdog := .top
  cancelSent := false
  watchdogKillSent := false
  watchdogEscalateAt := none
  signalled := false
  signalledRunning := false

inductive Action where
  | advance (seconds : Nat)
  | childExits (code : Int)
  | childDies (number : Int)
  /-- A cancel from outside the VM, or another state of its upload. -/
  | writeCancel (file : CancelFile)
  /-- The runner's next step. -/
  | runner
  /-- An exception inside the runner's wait loop. -/
  | runnerRaises (error : String)
  /-- The runner writes its result: `tagged` processes survived, or not, and
  escapee detection answered, or not. -/
  | finish (tagged detectOk : Bool)
  /-- The watchdog's next step; `readable` says whether `launch.json` gave it a
  deadline on this tick. -/
  | watchdog (readable : Bool)
  /-- The watchdog ends: stopped, killed, or never started. -/
  | watchdogStops

/-- `_safe_killpg(shim_pgid, SIGTERM)`. -/
def State.sendTerm (s : State) : State :=
  { s with
    signalled := true
    signalledRunning := s.signalledRunning || s.child = .running }

def RunnerPc.inLoop : RunnerPc -> Bool
  | .ended | .verdict | .done => false
  | _ => true

/-- The verdict of `main`, before the containment check. -/
def verdict (loopError : Option String) (exitCode termSignal : Option Int)
    (termSent : Bool) (intent : Option Json) : Workload :=
  let intended := (intent.map Json.truthy).getD false
  if loopError.isSome ∧ exitCode = none ∧ termSignal = none then .unknown
  else if termSent && intended then .cancelled
  else if termSignal.isSome then (if intended then .cancelled else .failed)
  else if exitCode = some 0 then .succeeded
  else .failed

/-- `_classify_workload`: a clean result requires containment. -/
def classifyWorkload (workload : Workload) (tagged detectOk : Bool) : Workload :=
  if !detectOk && workload = .succeeded then .unknown
  else if tagged && workload = .succeeded then .failed
  else workload

def runnerStep (cfg : Config) (s : State) : Option State :=
  match s.runner with
  | .poll =>
      match s.child with
      | .running => some { s with runner := .readClock }
      | .exited code => some { s with exitCode := some code, runner := .ended }
      | .signaled number => some { s with termSignal := some number, runner := .ended }
  | .readClock => some { s with runner := .readCancel s.clock }
  | .readCancel now => some { s with runner := .decide now s.cancel.isSome }
  | .decide now cancelRequested =>
      let deadlineReached : Bool := (cfg.deadline.map fun d => decide (d < now)).getD false
      if !s.termSent && (cancelRequested || deadlineReached) then
        if deadlineReached && !cancelRequested then
          some { s with runner := .writeIntent now }
        else some { s with runner := .sigterm now }
      else if s.termSent && !s.killSent && decide (s.escalateAt < now) then
        some { s with runner := .sigkill now }
      else some { s with runner := .maySync now }
  | .writeIntent now =>
      some { s with cancel := some (wallClockCancel now), runner := .sigterm now }
  | .sigterm now => some { s.sendTerm with runner := .escapees now }
  | .escapees now =>
      some { s with
        termSent := true, escalateAt := now + graceSeconds, runner := .maySync now }
  | .sigkill now => some { s with killSent := true, runner := .maySync now }
  | .maySync now =>
      match cfg.syncInterval with
      | some interval =>
          if !s.termSent && decide (s.lastSync + interval ≤ now) then
            some { s with runner := .syncing }
          else some { s with runner := .poll }
      | none => some { s with runner := .poll }
  | .syncing => some { s with lastSync := s.clock, runner := .poll }
  | .ended =>
      some { s with intent := s.cancel.map CancelFile.intent, runner := .verdict }
  | .verdict | .done => none

def watchdogStep (cfg : Config) (readable : Bool) (s : State) : Option State :=
  match s.watchdog with
  | .top =>
      let deadline := if readable then cfg.deadline else none
      some { s with watchdog := .checkResult s.clock deadline }
  | .checkResult now deadline =>
      if s.result.isSome then some { s with watchdog := .stopped }
      else some { s with watchdog := .checkCancel now deadline }
  | .checkCancel now deadline =>
      some { s with watchdog := .decide now deadline s.cancel.isSome }
  | .decide now deadline cancelRequested =>
      let deadlineReached : Bool := (deadline.map fun d => decide (d ≤ now)).getD false
      if !s.cancelSent && (cancelRequested || deadlineReached) then
        if cancelRequested then some { s with watchdog := .sigterm now }
        else some { s with watchdog := .recheck now }
      else
        match s.watchdogEscalateAt with
        | some escalateAt =>
            if !s.watchdogKillSent && decide (escalateAt ≤ now) then
              some { s with watchdog := .sigkill now }
            else some { s with watchdog := .top }
        | none => some { s with watchdog := .top }
  | .recheck now =>
      if s.cancel.isSome then some { s with watchdog := .sigterm now }
      else some { s with watchdog := .writeIntent now }
  | .writeIntent now =>
      some { s with cancel := some (wallClockCancel now), watchdog := .sigterm now }
  | .sigterm now =>
      some { s.sendTerm with
        cancelSent := true
        watchdogEscalateAt := some (now + graceSeconds)
        watchdog := .top }
  | .sigkill _ => some { s with watchdogKillSent := true, watchdog := .top }
  | .stopped => none

def step (cfg : Config) (s : State) : Action -> Option State
  | .advance seconds => some { s with clock := s.clock + seconds }
  | .childExits code =>
      if s.child = .running then some { s with child := .exited code } else none
  | .childDies number =>
      if s.child = .running then some { s with child := .signaled number } else none
  | .writeCancel file => some { s with cancel := some file }
  | .runner => runnerStep cfg s
  | .runnerRaises error =>
      if s.runner.inLoop then
        some { s with loopError := some error, runner := .ended }
      else none
  | .finish tagged detectOk =>
      match s.runner with
      | .verdict =>
          some { s with
            result := some (classifyWorkload
              (verdict s.loopError s.exitCode s.termSignal s.termSent s.intent)
              tagged detectOk)
            runner := .done }
      | _ => none
  | .watchdog readable => watchdogStep cfg readable s
  | .watchdogStops => some { s with watchdog := .stopped }

def machine (cfg : Config) : Machine State Action where
  start := fun s => s = init
  step := step cfg

/-!
## What the result may say
-/

/-- The claim's two directions, for the workload value in `result.json`. -/
def Truthful (s : State) : Prop :=
  forall w, s.result = some w ->
    (s.signalledRunning = true ->
      w = .cancelled ∨ (w = .unknown ∧ s.loopError.isSome)) ∧
    (s.signalled = false -> w ≠ .cancelled)

/-- The runner's flag and the file it reads late agree with what happened. A
request written from outside is not a falsy value; a workload that was signalled
and still exited by itself was signalled by the runner; and a workload nobody
signalled is not dead by a signal with a cancel request on file. -/
def Attributable (s : State) : Action -> Prop
  | .writeCancel file => file.intent.truthy = true
  | .runner =>
      (s.runner = .poll -> (exists code, s.child = .exited code) ->
        s.signalledRunning = true -> s.termSent = true) ∧
      (s.runner = .ended -> s.termSignal.isSome -> s.signalled = false ->
        s.cancel = none)
  | _ => True

/-- How the wait loop ended: it failed, or it reaped the child. -/
def Outcome (s : State) : Prop :=
  (s.loopError.isSome ∧ s.exitCode = none ∧ s.termSignal = none) ∨
    (s.loopError = none ∧ s.child ≠ .running ∧
      ((s.exitCode.isSome ∧ s.termSignal = none ∧
          (s.signalledRunning = true -> s.termSent = true)) ∨
        (s.exitCode = none ∧ s.termSignal.isSome)))

structure Invariant (s : State) : Prop where
  termSent : s.termSent = true -> s.signalled = true
  running : s.signalledRunning = true -> s.signalled = true
  requested : s.signalled = true -> s.cancel.isSome
  truthy : forall f, s.cancel = some f -> f.intent.truthy = true
  runnerDecide : forall now, s.runner = .decide now true -> s.cancel.isSome
  runnerSigterm : forall now, s.runner = .sigterm now -> s.cancel.isSome
  runnerEscapees : forall now, s.runner = .escapees now -> s.signalled = true
  watchdogDecide : forall now deadline,
    s.watchdog = .decide now deadline true -> s.cancel.isSome
  watchdogSigterm : forall now, s.watchdog = .sigterm now -> s.cancel.isSome
  inLoop : s.runner.inLoop = true ->
    s.exitCode = none ∧ s.termSignal = none ∧ s.loopError = none
  outcome : s.runner.inLoop = false -> Outcome s
  read : s.runner = .verdict -> s.loopError = none ->
    (s.signalledRunning = true -> (s.intent.map Json.truthy).getD false = true) ∧
    (s.termSignal.isSome -> s.signalled = false -> s.intent = none)
  written : forall w, s.result = some w ->
    (w = .unknown ∧ s.loopError.isSome ∧ s.runner = .done) ∨
      (s.runner = .done ∧ s.child ≠ .running ∧
        (s.signalledRunning = true -> w = .cancelled) ∧
        (w = .cancelled -> s.signalled = true))

theorem Invariant.truthful {s : State} (h : Invariant s) : Truthful s := by
  intro w hw
  rcases h.written w hw with ⟨hunknown, herror, _⟩ | ⟨_, _, hcancelled, hsignalled⟩
  · exact ⟨fun _ => Or.inr ⟨hunknown, herror⟩, fun _ => by rw [hunknown]; decide⟩
  · refine ⟨fun hrun => Or.inl (hcancelled hrun), fun hno hw => ?_⟩
    rw [hsignalled hw] at hno
    cases hno

theorem invariant_init : Invariant init := by
  constructor <;> simp [init, RunnerPc.inLoop]

theorem wallClockCancel_truthy (now : Nat) :
    (wallClockCancel now).intent.truthy = true := rfl

theorem intended_of_cancel {s : State} (h : Invariant s)
    (hcancel : s.cancel.isSome = true) :
    ((s.cancel.map CancelFile.intent).map Json.truthy).getD false = true := by
  rcases Option.isSome_iff_exists.mp hcancel with ⟨f, hf⟩
  simpa [hf] using h.truthy f hf

theorem Invariant.move {s : State} {pc : RunnerPc} (h : Invariant s)
    (hfrom : s.runner.inLoop = true) (hto : pc.inLoop = true)
    (hdecide : forall now, pc = .decide now true -> s.cancel.isSome)
    (hsigterm : forall now, pc = .sigterm now -> s.cancel.isSome)
    (hescapees : forall now, pc = .escapees now -> s.signalled = true) :
    Invariant { s with runner := pc } :=
  { h with
    runnerDecide := hdecide
    runnerSigterm := hsigterm
    runnerEscapees := hescapees
    inLoop := fun _ => h.inLoop hfrom
    outcome := fun hout => by
      rw [hto] at hout
      cases hout
    read := fun hpc => by
      change pc = .verdict at hpc
      rw [hpc] at hto
      cases hto
    written := fun w hw => by
      have hdone : s.runner = .done := by
        rcases h.written w hw with ⟨_, _, hdone⟩ | ⟨hdone, _⟩ <;> exact hdone
      rw [hdone] at hfrom
      cases hfrom }

theorem Invariant.request {s : State} {f : CancelFile} (h : Invariant s)
    (hf : f.intent.truthy = true) : Invariant { s with cancel := some f } :=
  { h with
    requested := fun _ => rfl
    truthy := fun g hg => by
      cases hg
      exact hf
    runnerDecide := fun _ _ => rfl
    runnerSigterm := fun _ _ => rfl
    watchdogDecide := fun _ _ _ => rfl
    watchdogSigterm := fun _ _ => rfl }

theorem Outcome.reaped {s : State} (h : Outcome s) (herror : s.loopError = none) :
    s.child ≠ .running := by
  rcases h with ⟨hsome, _⟩ | ⟨_, hchild, _⟩
  · rw [herror] at hsome
    cases hsome
  · exact hchild

theorem sendTerm_reaped {s : State} (hchild : s.child ≠ .running) :
    s.sendTerm.signalledRunning = s.signalledRunning := by
  simp [State.sendTerm, hchild]

theorem Invariant.sendTerm {s : State} (h : Invariant s) (hcancel : s.cancel.isSome = true) :
    Invariant s.sendTerm :=
  { h with
    termSent := fun _ => rfl
    running := fun _ => rfl
    requested := fun _ => hcancel
    runnerEscapees := fun _ _ => rfl
    outcome := fun hout => by
      rcases h.outcome hout with herror | ⟨hnone, hchild, hended⟩
      · exact Or.inl herror
      · refine Or.inr ⟨hnone, hchild, ?_⟩
        rw [sendTerm_reaped hchild]
        exact hended
    read := fun hpc herror => by
      have hout : s.runner.inLoop = false := by
        have hpc' : s.runner = .verdict := hpc
        rw [hpc']
        rfl
      have hread := h.read hpc herror
      refine ⟨fun hrun => hread.left ?_, fun _ hno => by cases hno⟩
      rwa [sendTerm_reaped ((h.outcome hout).reaped herror)] at hrun
    written := fun w hw => by
      rcases h.written w hw with herror | ⟨hdone, hchild, hcancelled, _⟩
      · exact Or.inl herror
      · refine Or.inr ⟨hdone, hchild, fun hrun => hcancelled ?_, fun _ => rfl⟩
        rwa [sendTerm_reaped hchild] at hrun }

theorem Invariant.leave {s : State} {exitCode termSignal : Option Int}
    {loopError : Option String} (h : Invariant s) (hfrom : s.runner.inLoop = true)
    (houtcome : Outcome { s with
      exitCode := exitCode, termSignal := termSignal, loopError := loopError }) :
    Invariant { s with
      exitCode := exitCode, termSignal := termSignal, loopError := loopError
      runner := .ended } :=
  { h with
    runnerDecide := fun _ hpc => by cases hpc
    runnerSigterm := fun _ hpc => by cases hpc
    runnerEscapees := fun _ hpc => by cases hpc
    inLoop := fun hin => by cases hin
    outcome := fun _ => houtcome
    read := fun hpc => by cases hpc
    written := fun w hw => by
      have hdone : s.runner = .done := by
        rcases h.written w hw with ⟨_, _, hdone⟩ | ⟨hdone, _⟩ <;> exact hdone
      rw [hdone] at hfrom
      cases hfrom }

theorem Invariant.unwritten {s : State} (h : Invariant s) (hpc : s.runner ≠ .done) :
    s.result = none := by
  cases hresult : s.result with
  | none => rfl
  | some w =>
      rcases h.written w hresult with ⟨_, _, hdone⟩ | ⟨hdone, _⟩ <;> exact absurd hdone hpc

theorem decide_invariant {cfg : Config} {s next : State} {now : Nat} {requested : Bool}
    (h : Invariant s) (hpc : s.runner = .decide now requested)
    (hstep : runnerStep cfg s = some next) : Invariant next := by
  have hin : s.runner.inLoop = true := by rw [hpc]; rfl
  simp only [runnerStep, hpc] at hstep
  split at hstep
  · split at hstep
    · cases hstep
      exact h.move hin rfl (by simp) (by simp) (by simp)
    · rename_i hsend hdeadline
      have hrequested : requested = true := by
        cases requested with
        | true => rfl
        | false => simp_all
      rw [hrequested] at hpc
      cases hstep
      exact h.move hin rfl (by simp) (fun _ _ => h.runnerDecide now hpc) (by simp)
  · split at hstep <;> cases hstep <;>
      exact h.move hin rfl (by simp) (by simp) (by simp)

theorem runnerStep_invariant {cfg : Config} {s next : State} (h : Invariant s)
    (hguard : Attributable s .runner) (hstep : runnerStep cfg s = some next) :
    Invariant next := by
  cases hpc : s.runner with
  | poll =>
      have hfrom : s.runner.inLoop = true := by rw [hpc]; rfl
      have hloop := h.inLoop hfrom
      simp only [runnerStep, hpc] at hstep
      split at hstep
      · cases hstep
        exact h.move hfrom rfl (by simp) (by simp) (by simp)
      · rename_i code hchild
        cases hstep
        refine h.leave hfrom (Or.inr ⟨hloop.2.2, by simp [hchild], Or.inl ?_⟩)
        exact ⟨rfl, hloop.2.1, hguard.left hpc ⟨code, hchild⟩⟩
      · rename_i number hchild
        cases hstep
        refine h.leave hfrom (Or.inr ⟨hloop.2.2, by simp [hchild], Or.inr ?_⟩)
        exact ⟨hloop.1, rfl⟩
  | readClock =>
      simp only [runnerStep, hpc] at hstep
      cases hstep
      exact h.move (by rw [hpc]; rfl) rfl (by simp) (by simp) (by simp)
  | readCancel now =>
      simp only [runnerStep, hpc] at hstep
      cases hstep
      refine h.move (by rw [hpc]; rfl) rfl (fun now' hto => ?_) (by simp) (by simp)
      injection hto
  | decide now requested => exact decide_invariant h hpc hstep
  | writeIntent now =>
      simp only [runnerStep, hpc] at hstep
      cases hstep
      exact (h.request (wallClockCancel_truthy now)).move (by rw [hpc]; rfl) rfl (by simp)
        (fun _ _ => rfl) (by simp)
  | sigterm now =>
      simp only [runnerStep, hpc] at hstep
      cases hstep
      exact (h.sendTerm (h.runnerSigterm now hpc)).move
        (by simp [State.sendTerm, hpc, RunnerPc.inLoop]) rfl (by simp) (by simp)
        (fun _ _ => rfl)
  | escapees now =>
      simp only [runnerStep, hpc] at hstep
      cases hstep
      have hmoved : Invariant { s with runner := .maySync now } :=
        h.move (by rw [hpc]; rfl) rfl (by simp) (by simp) (by simp)
      exact { hmoved with
        termSent := fun _ => h.runnerEscapees now hpc
        outcome := fun hout => by cases hout }
  | sigkill now =>
      simp only [runnerStep, hpc] at hstep
      cases hstep
      have hmoved : Invariant { s with runner := .maySync now } :=
        h.move (by rw [hpc]; rfl) rfl (by simp) (by simp) (by simp)
      exact { hmoved with }
  | maySync now =>
      simp only [runnerStep, hpc] at hstep
      split at hstep
      · split at hstep <;> cases hstep <;>
          exact h.move (by rw [hpc]; rfl) rfl (by simp) (by simp) (by simp)
      · cases hstep
        exact h.move (by rw [hpc]; rfl) rfl (by simp) (by simp) (by simp)
  | syncing =>
      simp only [runnerStep, hpc] at hstep
      cases hstep
      have hmoved : Invariant { s with runner := .poll } :=
        h.move (by rw [hpc]; rfl) rfl (by simp) (by simp) (by simp)
      exact { hmoved with }
  | ended =>
      simp only [runnerStep, hpc] at hstep
      cases hstep
      have hnone := h.unwritten (by rw [hpc]; simp)
      exact { h with
        runnerDecide := fun _ hto => by cases hto
        runnerSigterm := fun _ hto => by cases hto
        runnerEscapees := fun _ hto => by cases hto
        inLoop := fun hto => by cases hto
        outcome := fun _ => h.outcome (by rw [hpc]; rfl)
        read := fun _ _ => ⟨fun hrun => intended_of_cancel h (h.requested (h.running hrun)),
          fun hterm hno => by
            have hcancel := hguard.right hpc hterm hno
            simp [hcancel]⟩
        written := fun w hw => by
          change s.result = some w at hw
          rw [hnone] at hw
          cases hw }
  | verdict =>
      simp only [runnerStep, hpc] at hstep
      cases hstep
  | done =>
      simp only [runnerStep, hpc] at hstep
      cases hstep

theorem Invariant.watch {s : State} {pc : WatchdogPc} (h : Invariant s)
    (hdecide : forall now deadline, pc = .decide now deadline true -> s.cancel.isSome)
    (hsigterm : forall now, pc = .sigterm now -> s.cancel.isSome) :
    Invariant { s with watchdog := pc } :=
  { h with
    watchdogDecide := hdecide
    watchdogSigterm := hsigterm }

theorem watchdogStep_invariant {cfg : Config} {readable : Bool} {s next : State}
    (h : Invariant s) (hstep : watchdogStep cfg readable s = some next) :
    Invariant next := by
  cases hpc : s.watchdog with
  | top =>
      simp only [watchdogStep, hpc] at hstep
      cases hstep
      exact h.watch (by simp) (by simp)
  | checkResult now deadline =>
      simp only [watchdogStep, hpc] at hstep
      split at hstep <;> cases hstep <;> exact h.watch (by simp) (by simp)
  | checkCancel now deadline =>
      simp only [watchdogStep, hpc] at hstep
      cases hstep
      refine h.watch (fun now' deadline' hto => ?_) (by simp)
      injection hto
  | decide now deadline requested =>
      simp only [watchdogStep, hpc] at hstep
      split at hstep
      · split at hstep
        · rename_i _ hrequested
          rw [hrequested] at hpc
          cases hstep
          exact h.watch (by simp) fun _ _ => h.watchdogDecide now deadline hpc
        · cases hstep
          exact h.watch (by simp) (by simp)
      · split at hstep
        · split at hstep <;> cases hstep <;> exact h.watch (by simp) (by simp)
        · cases hstep
          exact h.watch (by simp) (by simp)
  | recheck now =>
      simp only [watchdogStep, hpc] at hstep
      split at hstep
      · rename_i hcancel
        cases hstep
        exact h.watch (by simp) fun _ _ => hcancel
      · cases hstep
        exact h.watch (by simp) (by simp)
  | writeIntent now =>
      simp only [watchdogStep, hpc] at hstep
      cases hstep
      exact (h.request (wallClockCancel_truthy now)).watch (by simp) fun _ _ => rfl
  | sigterm now =>
      simp only [watchdogStep, hpc] at hstep
      cases hstep
      have hmoved : Invariant { s.sendTerm with watchdog := .top } :=
        (h.sendTerm (h.watchdogSigterm now hpc)).watch (by simp) (by simp)
      exact { hmoved with }
  | sigkill now =>
      simp only [watchdogStep, hpc] at hstep
      cases hstep
      have hmoved : Invariant { s with watchdog := .top } := h.watch (by simp) (by simp)
      exact { hmoved with }
  | stopped =>
      simp only [watchdogStep, hpc] at hstep
      cases hstep

theorem classifyWorkload_cancelled (w : Workload) (tagged detectOk : Bool) :
    classifyWorkload w tagged detectOk = .cancelled <-> w = .cancelled := by
  cases w <;> cases tagged <;> cases detectOk <;> simp [classifyWorkload]

theorem verdict_truthful {s : State} (h : Invariant s) (hpc : s.runner = .verdict)
    (herror : s.loopError = none) (tagged detectOk : Bool) :
    let w := classifyWorkload
      (verdict s.loopError s.exitCode s.termSignal s.termSent s.intent) tagged detectOk
    (s.signalledRunning = true -> w = .cancelled) ∧
      (w = .cancelled -> s.signalled = true) := by
  intro w
  have hread := h.read hpc herror
  have hended : (s.exitCode.isSome ∧ s.termSignal = none ∧
      (s.signalledRunning = true -> s.termSent = true)) ∨
        (s.exitCode = none ∧ s.termSignal.isSome) := by
    rcases h.outcome (by rw [hpc]; rfl) with ⟨hsome, _⟩ | ⟨_, _, hended⟩
    · rw [herror] at hsome
      cases hsome
    · exact hended
  rw [classifyWorkload_cancelled]
  simp only [verdict, herror, Option.isSome_none, Bool.false_eq_true, false_and, if_false]
  rcases hended with ⟨hexit, hterm, hsent⟩ | ⟨hexit, hterm⟩
  · refine ⟨fun hrun => ?_, fun hw => ?_⟩
    · rw [hsent hrun, hread.left hrun]
      rfl
    · refine h.termSent ?_
      by_contra hno
      simp only [hterm, Bool.eq_false_iff.mpr hno, Bool.false_and] at hw
      revert hw
      simp only [Option.isSome_none, Bool.false_eq_true, if_false]
      split <;> simp
  · refine ⟨fun hrun => ?_, fun hw => ?_⟩
    · rw [hread.left hrun, hterm]
      split <;> rfl
    · by_contra hno
      have hintent := hread.right hterm (Bool.eq_false_iff.mpr hno)
      simp only [hintent, hterm, Option.map_none, Option.getD_none, Bool.and_false,
        Bool.false_eq_true, if_false, if_true] at hw
      cases hw

theorem finish_invariant {cfg : Config} {tagged detectOk : Bool} {s next : State}
    (h : Invariant s) (hstep : step cfg s (.finish tagged detectOk) = some next) :
    Invariant next := by
  cases hpc : s.runner with
  | verdict =>
      have houtcome := h.outcome (by rw [hpc]; rfl)
      have hverdict := verdict_truthful h hpc
      simp only [step, hpc] at hstep
      cases hstep
      exact { h with
        runnerDecide := fun _ hto => by cases hto
        runnerSigterm := fun _ hto => by cases hto
        runnerEscapees := fun _ hto => by cases hto
        inLoop := fun hto => by cases hto
        outcome := fun _ => houtcome
        read := fun hto => by cases hto
        written := fun w hw => by
          cases hw
          by_cases herror : s.loopError = none
          · exact Or.inr ⟨rfl, houtcome.reaped herror, hverdict herror tagged detectOk⟩
          · rcases houtcome with ⟨hsome, hexit, hterm⟩ | ⟨hnone, _⟩
            · refine Or.inl ⟨?_, hsome, rfl⟩
              simp [verdict, classifyWorkload, hsome, hexit, hterm]
            · exact absurd hnone herror }
  | _ =>
      simp only [step, hpc] at hstep
      cases hstep

theorem childEnds_invariant {s : State} {child : Child} (h : Invariant s)
    (hrunning : s.child = .running) :
    Invariant { s with child := child } :=
  { h with
    outcome := fun hout => by
      rcases h.outcome hout with herror | ⟨_, hreaped, _⟩
      · exact Or.inl herror
      · exact absurd hrunning hreaped
    written := fun w hw => by
      rcases h.written w hw with herror | ⟨_, hreaped, _⟩
      · exact Or.inl herror
      · exact absurd hrunning hreaped }

theorem invariant_preserved (cfg : Config) :
    (machine cfg).Preserved Attributable Invariant := by
  intro s a next h hguard hstep
  simp only [machine] at hstep
  cases a with
  | runner => exact runnerStep_invariant h hguard hstep
  | watchdog readable => exact watchdogStep_invariant h hstep
  | finish tagged detectOk => exact finish_invariant h hstep
  | writeCancel file =>
      simp only [step] at hstep
      cases hstep
      exact h.request hguard
  | advance seconds =>
      simp only [step] at hstep
      cases hstep
      exact { h with }
  | watchdogStops =>
      simp only [step] at hstep
      cases hstep
      exact h.watch (by simp) (by simp)
  | childExits code =>
      simp only [step] at hstep
      split at hstep
      · cases hstep
        exact childEnds_invariant h (by assumption)
      · cases hstep
  | childDies number =>
      simp only [step] at hstep
      split at hstep
      · cases hstep
        exact childEnds_invariant h (by assumption)
      · cases hstep
  | runnerRaises error =>
      simp only [step] at hstep
      split at hstep
      · rename_i hin
        cases hstep
        have hloop := h.inLoop hin
        exact h.leave hin (Or.inl ⟨rfl, hloop.1, hloop.2.1⟩)
      · cases hstep

/-- In every run whose steps are attributable, `result.json` is truthful about
who stopped the workload. -/
theorem cancelled_truthful (cfg : Config) {s : State}
    (hreach : (machine cfg).Reaches Attributable s) : Truthful s := by
  have hinv : Invariant s :=
    Machine.reaches_invariant (fun s hs => by rw [hs]; exact invariant_init)
      (invariant_preserved cfg) hreach
  exact hinv.truthful

/-- A run that meets the guard: a cancel from outside, the runner's SIGTERM, and
a workload that dies of it. -/
theorem cancelled_truthful_request :
    exists s, (machine ⟨none, none⟩).Reaches Attributable s ∧
      s.result = some .cancelled ∧ s.signalledRunning = true ∧ Truthful s := by
  let run : List Action :=
    [.writeCancel (wallClockCancel 0), .runner, .runner, .runner, .runner, .runner,
     .runner, .runner, .childDies 15, .runner, .runner, .finish false true]
  have hguard : (machine ⟨none, none⟩).Guarded Attributable init run := by
    simp [run, Machine.Guarded, machine, step, runnerStep, init, State.sendTerm,
      Attributable, wallClockCancel_truthy]
  have hreach : (machine ⟨none, none⟩).Reaches Attributable
      (((machine ⟨none, none⟩).exec init run).get rfl) :=
    ⟨init, run, rfl, hguard, rfl⟩
  exact ⟨_, hreach, rfl, rfl, cancelled_truthful ⟨none, none⟩ hreach⟩

/-- The watchdog signals a running workload at the deadline; the workload exits 0
before the runner's next look at it, and the result says `succeeded`. -/
theorem cancelled_not_truthful :
    exists s, (machine ⟨some 0, none⟩).Reaches Machine.Free s ∧
      s.signalledRunning = true ∧ s.loopError = none ∧
      s.result = some .succeeded ∧ ¬Truthful s := by
  let run : List Action :=
    [.watchdog true, .watchdog true, .watchdog true, .watchdog true, .watchdog true,
     .watchdog true, .watchdog true, .childExits 0, .runner, .runner,
     .finish false true]
  refine ⟨((machine ⟨some 0, none⟩).exec init run).get rfl,
    ⟨init, run, rfl, Machine.guarded_free _ run init, rfl⟩, rfl, rfl, rfl, ?_⟩
  intro htruthful
  rcases (htruthful .succeeded rfl).left rfl with h | ⟨h, _⟩
  · cases h
  · cases h

/-- Nobody signals the workload; it dies of a signal of its own, a cancel lands
before the runner reads the file, and the result says `cancelled`. -/
theorem cancelled_unsignalled :
    exists s, (machine ⟨none, none⟩).Reaches Machine.Free s ∧
      s.signalled = false ∧ s.result = some .cancelled := by
  let run : List Action :=
    [.childDies 9, .runner, .writeCancel (wallClockCancel 0), .runner,
     .finish false true]
  exact ⟨((machine ⟨none, none⟩).exec init run).get rfl,
    ⟨init, run, rfl, Machine.guarded_free _ run init, rfl⟩, rfl, rfl⟩

end CancelRace
end Job
end MightyColab
