import MightyColab.Job.Models
import MightyColab.Job.Transport

/-!
# Releasing a VM

`release_assignment` and what every command does around it: read the compute units,
copy the VM's records, decide whether to keep the VM, forget its session, and tidy
the hints. None of it raises, so each is a function of the envelope and of the
answers it meets.

Times are readings of a clock in seconds. The text of an exception stands for what
`describe_error` makes of it.
-/

namespace MightyColab
namespace Job

open Lib
open Transport (ReadStatus)

/-- `if value:` for an optional string: neither None nor empty. -/
def nonempty (value : Option String) : Option String :=
  value.filter (· ≠ "")

theorem nonempty_eq_some {value : Option String} {s : String}
    (h : nonempty value = some s) : value = some s := by
  rcases Option.filter_eq_some_iff.mp h with ⟨hvalue, _⟩
  exact hvalue

/-!
## Compute units and the assignment
-/

/-- `read_compute_units`: the reading, or a hint with the error. -/
def readComputeUnits (answer : Except String ComputeUnitReading) (moment : String)
    (env : JobEnvelope) : Option ComputeUnitReading × JobEnvelope :=
  match answer with
  | .ok reading => (some reading, env)
  | .error detail => (none, env.addHint s!"compute units not read at {moment}: {detail}")

/-- What `client.unassign` raised. -/
structure ApiError where
  text : String
  /-- `get_status_code`. -/
  status : Option Nat
  /-- `response_body_if_json(error, limit=300)` with credentials redacted. -/
  body : Option String
  deriving DecidableEq, Repr

/-- The backend's answers to one `release_assignment`. -/
structure ReleaseAnswer where
  unassign : Except ApiError Unit
  /-- The endpoints that `list_assignments` shows. -/
  listing : Except String (List (Option String))

/-- `release_assignment`: what became of the assignment, and the error. -/
def releaseAssignment (answer : ReleaseAnswer) (endpoint : String) :
    Cleanup × Option String :=
  match answer.unassign with
  | .ok _ => (.released, none)
  | .error error =>
      if error.status = some 404 then
        -- only the listing tells a VM that is gone from a changed control-plane path
        match answer.listing with
        | .error listingError =>
            (.failed, some (s!"HTTP 404 from unassign ({error.text}), and the " ++
              s!"assignment listing that would confirm it failed ({listingError})"))
        | .ok listed =>
            if some endpoint ∈ listed then
              (.failed, some (s!"HTTP 404 from unassign, but {endpoint} is still " ++
                s!"listed; {error.text}"))
            else (.alreadyAbsent, none)
      else
        let detail := match error.status with
          | some status => s!"HTTP {status}; {error.text}"
          | none => error.text
        (.failed, some (match nonempty error.body with
          | some body => s!"{detail}; body: {body}"
          | none => detail))

theorem releaseAssignment_terminal (answer : ReleaseAnswer) (endpoint : String) :
    (releaseAssignment answer endpoint).1.terminal = true := by
  unfold releaseAssignment
  split
  · rfl
  · split
    · split
      · rfl
      · split <;> rfl
    · rfl

/-- The answers to `_release`: the assignment's release and the reading after it. -/
structure Release where
  assignment : ReleaseAnswer
  units : Except String ComputeUnitReading

def release (answer : Release) (failure : String) (env : JobEnvelope) : JobEnvelope :=
  match nonempty env.endpoint with
  | none => { env with cleanup := .alreadyAbsent }
  | some endpoint =>
      let (cleanup, detail) := releaseAssignment answer.assignment endpoint
      let (reading, env) :=
        readComputeUnits answer.units "release" { env with cleanup := cleanup }
      let env := { env with computeUnitsAtRelease := reading }
      let env := if cleanup = .failed then env.recordFailure .cleanup else env
      match nonempty detail with
      | some detail =>
          env.addHint s!"{failure} ({detail}); endpoint {endpoint} may still be billing"
      | none => env

/-- `_forget_session`; `failure` is what removing the session record raises. -/
def forgetSession (failure : Option String) (env : JobEnvelope) : JobEnvelope :=
  match nonempty env.session, failure with
  | some session, some error =>
      if env.cleanup = .failed then env
      else env.addHint s!"local session record {session} not removed ({error})"
  | _, _ => env

/-!
## Keeping the VM
-/

/-- `keep_vm`. Without a readable plan only `--leave-up` counts. -/
def keepVm (env : JobEnvelope) (spec : Option JobSpec) (secretRemoved : Bool) : Bool :=
  if !secretRemoved then false
  else
    let uploadFailed := match spec with
      | some spec =>
          decide (spec.onOffloadFail = .leaveUp) &&
            env.artifacts.any fun artifact => artifact.status = .failed
      | none => false
    env.leaveUp || uploadFailed

/-- `str` of a list of integers. -/
def intsText (items : List Int) : String := (Json.arr (items.map .int)).pyStr

/-- `record_vm_kept`. A descendant that outlived the workload on a VM kept up is a
cleanup failure. -/
def recordVmKept (env : JobEnvelope) (jobId : String) : JobEnvelope :=
  if env.survivingDescendants.isEmpty then
    { env with cleanup := .leftUp }.addHint
      ("VM left running deliberately and is still billing: " ++
        s!"\x60mighty-colab job destroy {jobId}\x60 when done")
  else
    let env := { env with cleanup := .failed }.recordFailure .cleanup
    let env := env.addHint
      (s!"cleanup: VM left up with pids {intsText env.survivingDescendants} still " ++
        s!"holding its resources; \x60mighty-colab job destroy {jobId}\x60 " ++
        "releases the VM and everything on it")
    { env with
      reason := env.reason.or (some
        (s!"VM left up with {env.survivingDescendants.length} " ++
          "surviving descendant(s) still holding its resources"))
      retryClass := env.retryClass.or (some .fixHuman) }

/-!
## Copying the VM's records
-/

def vmRecordFiles : List String :=
  ["runner.log", "install.log", "result.json", "exception.json", "watchdog.json",
    "launch.json", "cancel.json", "offload.manifest.json", "stage.manifest.json"]

/-- `VM_RECORD_COPY_BUDGET_SECONDS`. -/
def vmRecordCopyBudget : Nat := 120

structure RecordCopy where
  clock : Rat
  read : Except String (Option String × ReadStatus)
  write : Option String

structure Copied where
  copied : List String := []
  unreadable : List String := []
  stopped : Option String := none

/-- The loop of `copy_vm_records`, which a stop leaves. -/
def copyRecords (deadline : Rat) (answer : String -> RecordCopy) :
    List String -> Copied -> Copied
  | [], done => done
  | name :: rest, done =>
      let record := answer name
      let stop (why : String) : Copied := { done with stopped := some why }
      if deadline < record.clock then stop s!"{vmRecordCopyBudget}s budget spent"
      else
        match record.read with
        | .error error => stop error
        | .ok (_, .notFound) => copyRecords deadline answer rest done
        | .ok (_, .sessionLost) => stop "session_lost"
        | .ok (some _, .ok) =>
            match record.write with
            | some error => stop error
            | none =>
                copyRecords deadline answer rest
                  { done with copied := done.copied ++ [name] }
        | .ok _ =>
            copyRecords deadline answer rest
              { done with unreadable := done.unreadable ++ [name] }

/-- The answers to one `copy_vm_records`. -/
structure CopyAnswer where
  started : Rat
  localDir : String
  record : String -> RecordCopy

/-- `copy_vm_records`: the hint that names what was copied. -/
def copyVmRecords (answer : CopyAnswer) : String :=
  let done := copyRecords (answer.started + vmRecordCopyBudget) answer.record
    vmRecordFiles {}
  let names := if done.copied.isEmpty then "none" else ", ".intercalate done.copied
  let unreadable :=
    if done.unreadable.isEmpty then ""
    else "; unreadable: " ++ ", ".intercalate done.unreadable
  let stopped := match done.stopped with
    | some why => s!"; copying stopped ({why})"
    | none => ""
  s!"VM records copied before release to {answer.localDir}: {names}" ++
    unreadable ++ stopped

def copyBeforeRelease (transport : Bool) (answer : CopyAnswer) (env : JobEnvelope) :
    JobEnvelope :=
  match nonempty env.endpoint with
  | none => env
  | some _ =>
      if transport then env.addHint (copyVmRecords answer)
      else env.addHint ("VM records not copied before release: no local session for " ++
        "this job, so the VM's files could not be read")

/-!
## Hints
-/

/-- Whether `needle` occurs in `text`. -/
def occursIn (needle : List Char) : List Char -> Bool
  | [] => needle.isEmpty
  | c :: rest => needle.isPrefixOf (c :: rest) || occursIn needle rest

def staleBillingHintMarkers : List String := ["still billing", "left running", "left up"]

def staleBilling (hint : String) : Bool :=
  staleBillingHintMarkers.any fun marker => occursIn marker.toList hint.toLower.toList

def dedup (items : List String) : List String :=
  items.foldl (fun seen item => if item ∈ seen then seen else seen ++ [item]) []

def finalizeHints (env : JobEnvelope) : JobEnvelope :=
  let hints :=
    if env.cleanup.gone then env.hints.filter fun hint => !staleBilling hint
    else env.hints
  { env with hints := dedup hints }

def replaceHint (lead : String) (text : Option String) (env : JobEnvelope) :
    JobEnvelope :=
  let kept := env.hints.filter fun hint => !lead.isPrefixOf hint
  { env with hints := kept ++ (text.map (lead ++ ·)).toList }

/-!
## What the steps change
-/

/-- The two envelopes differ in their hints at most. -/
def OnlyHints (env env' : JobEnvelope) : Prop :=
  exists hints, env' = { env with hints }

theorem OnlyHints.refl (env : JobEnvelope) : OnlyHints env env := ⟨env.hints, rfl⟩

theorem OnlyHints.trans {env env' env'' : JobEnvelope} (h : OnlyHints env env')
    (h' : OnlyHints env' env'') : OnlyHints env env'' := by
  rcases h with ⟨hints, rfl⟩
  rcases h' with ⟨hints', rfl⟩
  exact ⟨hints', rfl⟩

theorem OnlyHints.same {alpha : Type} {env env' : JobEnvelope} (h : OnlyHints env env')
    (f : JobEnvelope -> alpha)
    (hf : forall env hints, f { env with hints } = f env := by intros; rfl) :
    f env' = f env := by
  rcases h with ⟨hints, heq⟩
  rw [heq, hf]

theorem addHint_onlyHints (env : JobEnvelope) (hint : String) :
    OnlyHints env (env.addHint hint) := ⟨_, rfl⟩

theorem forgetSession_onlyHints (failure : Option String) (env : JobEnvelope) :
    OnlyHints env (forgetSession failure env) := by
  unfold forgetSession
  split
  · split
    · exact OnlyHints.refl env
    · exact addHint_onlyHints env _
  · exact OnlyHints.refl env

theorem copyBeforeRelease_onlyHints (transport : Bool) (answer : CopyAnswer)
    (env : JobEnvelope) : OnlyHints env (copyBeforeRelease transport answer env) := by
  unfold copyBeforeRelease
  split
  · exact OnlyHints.refl env
  · split <;> exact addHint_onlyHints env _

theorem finalizeHints_onlyHints (env : JobEnvelope) :
    OnlyHints env (finalizeHints env) := ⟨_, rfl⟩

theorem replaceHint_onlyHints (lead : String) (text : Option String)
    (env : JobEnvelope) : OnlyHints env (replaceHint lead text env) := ⟨_, rfl⟩

theorem readComputeUnits_onlyHints (answer : Except String ComputeUnitReading)
    (moment : String) (env : JobEnvelope) :
    OnlyHints env (readComputeUnits answer moment env).2 := by
  cases answer with
  | ok reading => exact OnlyHints.refl env
  | error detail => exact addHint_onlyHints env _

def releaseOutcome (answer : ReleaseAnswer) (env : JobEnvelope) : Cleanup :=
  match nonempty env.endpoint with
  | none => .alreadyAbsent
  | some endpoint => (releaseAssignment answer endpoint).1

/-- A release records its outcome, a reading, a failure and hints, and nothing else. -/
theorem release_eq (answer : Release) (failure : String) (env : JobEnvelope) :
    exists units failed hints, release answer failure env =
      { env with
        cleanup := releaseOutcome answer.assignment env
        computeUnitsAtRelease := units, failedPhase := failed, hints } := by
  unfold release releaseOutcome
  cases hend : nonempty env.endpoint with
  | none => exact ⟨_, _, _, rfl⟩
  | some endpoint =>
      simp only
      rcases readComputeUnits_onlyHints answer.units "release"
        { env with cleanup := (releaseAssignment answer.assignment endpoint).1 } with
        ⟨hints, hread⟩
      rw [hread]
      split <;> split <;> exact ⟨_, _, _, rfl⟩

theorem release_same {alpha : Type} (answer : Release) (failure : String)
    (env : JobEnvelope) (f : JobEnvelope -> alpha)
    (hf : forall (env : JobEnvelope) cleanup units failed hints,
      f { env with
          cleanup, computeUnitsAtRelease := units, failedPhase := failed, hints } =
        f env := by intros; rfl) :
    f (release answer failure env) = f env := by
  rcases release_eq answer failure env with ⟨units, failed, hints, heq⟩
  rw [heq, hf]

theorem release_cleanup (answer : Release) (failure : String) (env : JobEnvelope) :
    (release answer failure env).cleanup = releaseOutcome answer.assignment env := by
  rcases release_eq answer failure env with ⟨units, failed, hints, heq⟩
  rw [heq]

end Job
end MightyColab
