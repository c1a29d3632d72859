import MightyColab.Job.Runner

/-!
# What keeps the runner from its result

The runner's `main` once more, from its launch record to `result.json`, as the calls it
makes on the way, the handler that stands around each, and the exceptions they raise.
-/

namespace MightyColab
namespace Job

open Lib

namespace RunnerFailures

/-!
## Exceptions and handlers
-/

/-- The classes that the handlers tell apart. An exception counts for the first that it
belongs to. -/
inductive Kind where
  | osError
  | subprocessError
  | valueError
  /-- Any other `Exception`. -/
  | other
  /-- A `BaseException` that is no `Exception`. -/
  | base
  deriving DecidableEq, Repr

inductive Handler where
  | nothing
  /-- `except OSError`. -/
  | osError
  /-- `except (OSError, ValueError)`. -/
  | osOrValue
  /-- `except (OSError, subprocess.SubprocessError)`. -/
  | osOrSubprocess
  /-- `except Exception`. -/
  | exception
  deriving DecidableEq, Repr

def Handler.catches : Handler -> Kind -> Bool
  | .nothing, _ => false
  | .osError, kind => kind = .osError
  | .osOrValue, kind => kind = .osError || kind = .valueError
  | .osOrSubprocess, kind => kind = .osError || kind = .subprocessError
  | .exception, kind => kind ≠ .base

/-!
## The calls
-/

/-- The steps of `main` outside its two handlers of `BaseException`, which stand around
staging and around the wait for the consumer. -/
inductive Step where
  | oomBefore
  /-- `subprocess.Popen` of the shim, and the group it is in. -/
  | shim
  | watchdog
  | syncManifest
  | descendants
  | sweep
  | tagged
  | cancelFile
  | exceptionFile
  | oomAfter
  | oomLog
  | offloadManifest
  | offloadItem (n : Nat)
  deriving DecidableEq, Repr

inductive Call where
  | step (s : Step)
  /-- The log line about a step. -/
  | log (s : Step)
  /-- The log lines of a failed staging: the message, and the trace after it. -/
  | stageLog
  | stageTrace
  /-- The traceback of what ended the wait. -/
  | waitTrace
  /-- The warning about the n-th path whose periodic sync has failed. -/
  | syncFailure (n : Nat)
  /-- The log line before the result is written. -/
  | verdictLog
  deriving DecidableEq, Repr

def Step.handler : Step -> Handler
  | .oomBefore | .oomAfter => .osOrValue
  | .shim => .nothing
  | .watchdog => .osError
  | .oomLog => .osOrSubprocess
  | .syncManifest | .descendants | .sweep | .tagged | .cancelFile | .exceptionFile
  | .offloadManifest | .offloadItem _ => .exception

/-- The handler around a call; that of a log line is in `_log`. -/
def Call.handler : Call -> Handler
  | .step s => s.handler
  | _ => .osOrValue

/-- A run, and the exceptions that its calls raise. -/
structure Behaviour where
  run : Runner.Run
  raised : Call -> Option Kind
  /-- `dmesg` runs and fails. -/
  dmesgFails : Bool
  /-- What the run knows of a failed step is what its handler has left. -/
  watchdog : run.watchdogStart.isSome = (raised (.step .watchdog)).isSome
  syncManifest : run.syncDisabled.isSome = true -> (raised (.step .syncManifest)).isSome = true
  descendants : run.descendants.isOk = (raised (.step .descendants)).isNone
  sweep : run.sweep.isSome = (raised (.step .sweep)).isSome
  tagged : run.tagged.isOk = (raised (.step .tagged)).isNone
  oomBefore : (raised (.step .oomBefore)).isSome = true -> run.oomBefore = none
  oomAfter : (raised (.step .oomAfter)).isSome = true -> run.oomAfter = none

namespace Behaviour

variable (b : Behaviour)

def probe (s : Step) : List Call :=
  if (b.raised (.step s)).isSome then [.step s, .log s] else [.step s]

def oomKillCount (s : Step) (count : Option Nat) : List Call :=
  if count.isNone then [.step s, .log s] else [.step s]

/-- `_oom_log`, asked for only after a kill. -/
def oomLog : List Call :=
  if b.run.oomKills.any (· ≠ 0) then
    if b.dmesgFails then [.step .oomLog, .log .oomLog] else b.probe .oomLog
  else []

/-- `_read_json_checked`, and the warning about a file that cannot be read. -/
def readJson (s : Step) (file : Runner.FileRead) : List Call :=
  match file with
  | .unreadable _ => [.step s, .log s]
  | _ => [.step s]

/-- `_offload`, if there is a manifest. -/
def offload : List Call :=
  match b.run.args.offloadManifest.filter (· ≠ "") with
  | none => []
  | some path =>
      match Runner.loadManifest (some path) b.run.offloadRead with
      | .error _ => [.step .offloadManifest, .log .offloadManifest]
      | .ok items =>
          .step .offloadManifest ::
            (List.range items.length).flatMap fun n => b.probe (.offloadItem n)

def beforeWait : List Call :=
  oomKillCount .oomBefore b.run.oomBefore ++ [.step .shim] ++ b.probe .watchdog ++
    (if (b.run.args.artifactSyncInterval.filter (· ≠ 0)).isSome ∧
        (b.run.args.offloadManifest.filter (· ≠ "")).isSome then b.probe .syncManifest
    else [])

def afterWait (s : Runner.Wait) : List Call :=
  (if s.runnerError.isSome then [.waitTrace] else []) ++
    (List.range b.run.syncFailures.length).map .syncFailure ++
    b.probe .descendants ++ b.probe .sweep ++ b.probe .tagged ++
    readJson .cancelFile b.run.cancelFile ++ readJson .exceptionFile b.run.exceptionFile ++
    oomKillCount .oomAfter b.run.oomAfter ++ b.oomLog ++ b.offload ++ [.verdictLog]

/-- The log lines of `_stage_failure`; a failed input has no trace. -/
def stageFailure (error : Runner.StageError) : List Call :=
  match error with
  | .item _ _ _ => [.stageLog]
  | .setup _ => [.stageLog, .stageTrace]

def perform : List Call -> Except Kind Unit
  | [] => .ok ()
  | c :: rest =>
      match b.raised c with
      | none => perform rest
      | some kind => if c.handler.catches kind then perform rest else .error kind

/-- `main` from the launch record on: the payload of the result it writes, nothing while the
wait still goes on, or the exception that it ends with. -/
def main : Except Kind (Option Runner.Payload) :=
  match b.run.stage with
  | (inputs, some error) => do
      b.perform (stageFailure error)
      return some (b.run.stageFailure inputs error)
  | (inputs, none) => do
      b.perform b.beforeWait
      match Runner.wait b.run.deadline b.run.ticks {} with
      | none => return none
      | some s =>
          b.perform (b.afterWait s)
          return some (b.run.verdict inputs s)

/-- The calls that `main` makes when none ends it early. -/
def calls : List Call :=
  match b.run.stage with
  | (_, some error) => stageFailure error
  | (_, none) =>
      match Runner.wait b.run.deadline b.run.ticks {} with
      | none => b.beforeWait
      | some s => b.beforeWait ++ b.afterWait s

/-!
## The result
-/

/-- What a call raises, if anything, its handler covers. -/
def Covered (c : Call) : Prop :=
  forall kind, b.raised c = some kind -> c.handler.catches kind = true

/-- If `main` ends, it has written a result with a terminal workload. -/
def LeavesResult : Prop :=
  exists result, b.main = .ok result ∧
    forall p, result = some p -> p.workload.terminal = true

variable {b}

theorem perform_iff {cs : List Call} :
    b.perform cs = .ok () <-> forall c, c ∈ cs -> b.Covered c := by
  induction cs with
  | nil => exact ⟨fun _ c h => absurd h List.not_mem_nil, fun _ => rfl⟩
  | cons c rest ih =>
      rw [List.forall_mem_cons, ← ih, perform]
      unfold Covered
      cases hraised : b.raised c with
      | none => exact ⟨fun h => ⟨fun _ h => (by cases h), h⟩, And.right⟩
      | some kind =>
          simp only [Option.some.injEq, forall_eq']
          by_cases hcatch : c.handler.catches kind = true
          · rw [if_pos hcatch]
            exact ⟨fun h => ⟨hcatch, h⟩, And.right⟩
          · rw [if_neg hcatch]
            exact ⟨fun h => (by cases h), fun h => absurd h.1 hcatch⟩

theorem perform_bind {cs : List Call} {rest : Except Kind (Option Runner.Payload)}
    {result : Option Runner.Payload} :
    (b.perform cs >>= fun _ => rest) = .ok result <->
      b.perform cs = .ok () ∧ rest = .ok result := by
  cases h : b.perform cs with
  | ok u => exact ⟨fun hrest => ⟨rfl, hrest⟩, And.right⟩
  | error kind => exact ⟨fun hrest => (by cases hrest), fun hboth => (by cases hboth.1)⟩

/-- `main` ends without an exception of its own exactly where every call is covered. -/
theorem main_iff : (exists result, b.main = .ok result) <->
    forall c, c ∈ b.calls -> b.Covered c := by
  unfold main calls
  rcases b.run.stage with ⟨inputs, _ | error⟩
  · cases hwait : Runner.wait b.run.deadline b.run.ticks {} with
    | none =>
        simp only [perform_bind, ← perform_iff]
        exact ⟨fun ⟨_, h⟩ => h.1, fun h => ⟨none, h, rfl⟩⟩
    | some s =>
        simp only [perform_bind, List.forall_mem_append, ← perform_iff]
        exact ⟨fun ⟨_, h⟩ => ⟨h.1, h.2.1⟩, fun h => ⟨_, h.1, h.2, rfl⟩⟩
  · simp only [perform_bind, ← perform_iff]
    exact ⟨fun ⟨_, h⟩ => h.1, fun h => ⟨_, h, rfl⟩⟩

theorem workloadOf_terminal (s : Runner.Wait) (intent : Json) :
    (Runner.workloadOf s intent).terminal = true := by
  unfold Runner.workloadOf
  repeat' split
  all_goals rfl

theorem classifyWorkload_terminal {workload : Workload} (h : workload.terminal = true)
    (tagged : List Nat) (detectOk : Bool) :
    (Runner.classifyWorkload workload tagged detectOk).1.terminal = true := by
  unfold Runner.classifyWorkload
  split
  · rfl
  · split
    · rfl
    · exact h

theorem main_terminal {p : Runner.Payload} (h : b.main = .ok (some p)) :
    p.workload.terminal = true := by
  unfold main at h
  rcases hstage : b.run.stage with ⟨inputs, _ | error⟩
  · simp only [hstage] at h
    have h := (perform_bind.mp h).2
    cases hwait : Runner.wait b.run.deadline b.run.ticks {} with
    | none =>
        rw [hwait] at h
        cases h
    | some s =>
        rw [hwait] at h
        have h := (perform_bind.mp h).2
        cases h
        exact classifyWorkload_terminal (workloadOf_terminal _ _) _ _
  · simp only [hstage] at h
    have h := (perform_bind.mp h).2
    cases h
    cases error <;> rfl

end Behaviour

/-- The runner leaves a result exactly where none of its calls raises what its handler does
not cover. -/
theorem leaves_result_iff (b : Behaviour) :
    b.LeavesResult <-> forall c, c ∈ b.calls -> b.Covered c := by
  rw [← Behaviour.main_iff]
  constructor
  · rintro ⟨result, hmain, _⟩
    exact ⟨result, hmain⟩
  · rintro ⟨result, hmain⟩
    refine ⟨result, hmain, fun p hp => ?_⟩
    rw [hp] at hmain
    exact Behaviour.main_terminal hmain

def raisesOnly (raised : Call -> Option Kind)
    (h : forall s, s ≠ .shim -> raised (.step s) = none) : Behaviour where
  run := { Runner.exitsZero .absent with oomBefore := some 0, oomAfter := some 0 }
  raised := raised
  dmesgFails := false
  watchdog := by rw [h _ (by decide)]; rfl
  syncManifest := fun hdisabled => by cases hdisabled
  descendants := by rw [h _ (by decide)]; rfl
  sweep := by rw [h _ (by decide)]; rfl
  tagged := by rw [h _ (by decide)]; rfl
  oomBefore := fun hraised => by rw [h _ (by decide)] at hraised; cases hraised
  oomAfter := fun hraised => by rw [h _ (by decide)] at hraised; cases hraised

/-- The fork of the shim fails: there is no result. -/
theorem no_result : ¬forall b : Behaviour, b.LeavesResult := by
  intro h
  let raised : Call -> Option Kind := fun c =>
    if c = .step .shim then some .osError else none
  let b := raisesOnly raised (by
    intro s hs
    exact if_neg fun heq => hs (Call.step.inj heq))
  have hcovered := (leaves_result_iff b).mp (h b) (.step .shim) (by decide)
  exact absurd (hcovered .osError rfl) (by decide)

end RunnerFailures
end Job
end MightyColab
