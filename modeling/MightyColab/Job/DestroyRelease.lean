import MightyColab.Job.Destroy

/-!
# When `destroy` releases the VM

Every step of `destroy` before the release is followed to the point where it can raise.
The result, the credentials, the cancel request, the records and the session are
guarded; the stored plan, the session store, `control.result` with a workload that
cannot be hashed, the supervisor's identity file, the terminal, the keep-alive daemon
and the last write are not.
-/

namespace MightyColab
namespace Job

open Lib

namespace Destroy

variable {args : Args} {a : Answers} {env env' : JobEnvelope} {endpoint : String}
  {transport confirmed : Bool} {s : Desk}

/-!
## What the command's steps keep
-/

theorem reconcile_endpoint (a : Answers) (transport : Bool) (env : JobEnvelope) :
    (reconcile a transport env).endpoint = env.endpoint := by
  unfold reconcile
  cases transport with
  | false => rfl
  | true =>
      simp only [Bool.not_true, Bool.false_eq_true, if_false]
      split
      · rfl
      · split
        · split
          · next h => exact (absorbRemoteResult_spec h).left.endpoint
          · rfl
        · split <;> rfl

theorem recoverOffVmResult_endpoint {answer : OffVm} {found : Bool}
    (h : recoverOffVmResult answer env = .ok (found, env')) :
    env'.endpoint = env.endpoint := by
  unfold recoverOffVmResult at h
  split at h
  · cases h
  · cases h
    split <;> rfl
  · split at h
    · next habsorb =>
        cases h
        exact (absorbRemoteResult_spec habsorb).left.endpoint
    · cases h
      rfl

theorem recover_endpoint (h : recover a env = .ok env') :
    env'.endpoint = env.endpoint := by
  unfold recover at h
  split at h
  · cases h
    rfl
  · rcases hrec : recoverOffVmResult a.offVm env with text | ⟨found, recovered⟩
    · simp [hrec] at h
    · have hkept := recoverOffVmResult_endpoint hrec
      cases found <;> simp only [hrec] at h <;> cases h <;> exact hkept

theorem absorbAwaited_endpoint (a : Answers) (wait : Nat) (env : JobEnvelope) :
    (absorbAwaited a wait env).2.endpoint = env.endpoint := by
  unfold absorbAwaited
  split
  · split
    · next h => exact (absorbRemoteResult_spec h).left.endpoint
    · rfl
  · rfl

theorem destroyedVerdict_keeps (plan : Option Plan) (note : Option String)
    (confirmed : Bool) (outcome : Option String) (env : JobEnvelope) :
    (destroyedVerdict plan note confirmed outcome env).endpoint = env.endpoint ∧
      (destroyedVerdict plan note confirmed outcome env).cleanup = env.cleanup := by
  unfold destroyedVerdict finalizeHints
  cases env.workload.terminal <;> exact ⟨rfl, rfl⟩

/-!
## The release and the last record
-/

/-- The release of the endpoint was attempted, and a record of its outcome put on
disk. -/
def Released (a : Answers) (endpoint : String) (s : Desk) : Prop :=
  .release endpoint ∈ s.log ∧
    exists env, .wrote env ∈ s.log ∧ s.disk = some env ∧ env.endpoint = some endpoint ∧
      env.cleanup = (releaseAssignment a.release.assignment endpoint).1

theorem not_released_of_log (h : s.log = []) : ¬Released a endpoint s := by
  rintro ⟨hmem, _⟩
  rw [h] at hmem
  cases hmem

theorem report_still (a : Answers) : Prog.Still (report a) := by
  intro s
  unfold report
  cases a.emit with
  | some text => rfl
  | none =>
      simp only [Command.attempted_none, Prog.bind_run, Prog.pure_run, Prog.get_run]
      split <;> rfl

variable (a transport confirmed) in
/-- The record that the last steps write: of the same endpoint, with the outcome of its
release. -/
theorem lastRecord_spec (plan : Option Plan) (note outcome : Option String)
    (hend : nonempty env.endpoint = some endpoint) :
    let last := destroyedVerdict plan note confirmed outcome
      (forgetSession a.forget
        (release a.release "unassign failed" (copyBeforeRelease transport a.copy env)))
    last.endpoint = some endpoint ∧
      last.cleanup = (releaseAssignment a.release.assignment endpoint).1 := by
  intro last
  have hcopy := copyBeforeRelease_onlyHints transport a.copy env
  have hforget := forgetSession_onlyHints a.forget
    (release a.release "unassign failed" (copyBeforeRelease transport a.copy env))
  rcases destroyedVerdict_keeps plan note confirmed outcome (forgetSession a.forget
    (release a.release "unassign failed" (copyBeforeRelease transport a.copy env))) with
    ⟨hendpoint, hcleanup⟩
  constructor
  · rw [hendpoint, hforget.same JobEnvelope.endpoint,
      release_same _ _ _ JobEnvelope.endpoint, hcopy.same JobEnvelope.endpoint]
    exact nonempty_eq_some hend
  · rw [hcleanup, hforget.same JobEnvelope.cleanup, release_cleanup, releaseOutcome,
      hcopy.same JobEnvelope.endpoint, hend]

/-- The last steps release and record exactly when the keep-alive daemon's end does not
raise and the write lands. -/
theorem releaseAndRecord_iff (plan : Option Plan) (note outcome : Option String)
    (hlog : s.log = []) (hend : nonempty s.env.endpoint = some endpoint) :
    Released a endpoint
        (releaseAndRecord a plan transport note confirmed outcome s).2 <->
      a.keepAlive = none ∧ a.write.lands = true := by
  unfold releaseAndRecord
  cases hkeep : a.keepAlive with
  | some text =>
      simp only [Prog.bind_run, Command.modifyEnv_run, Command.attempted_some,
        Prog.raise_run, reduceCtorEq, false_and, iff_false]
      exact not_released_of_log hlog
  | none =>
      have hlast := lastRecord_spec a transport confirmed plan note outcome hend
      have hcopied : nonempty (copyBeforeRelease transport a.copy s.env).endpoint =
          some endpoint := by
        rw [(copyBeforeRelease_onlyHints _ _ _).same JobEnvelope.endpoint, hend]
      simp only [Prog.bind_run_ok (Command.modifyEnv_run _ _), Command.attempted_none,
        Prog.bind_run_ok (Prog.pure_run _ _),
        Prog.bind_run_ok (Command.releaseVm_run _ _ _), true_and]
      rw [Prog.bind_still fun _ => report_still a, Command.writeEnvelope_run, hcopied,
        hlog]
      cases hlands : a.write.lands with
      | true =>
          simp only [if_true, iff_true]
          exact ⟨by simp, _, List.mem_cons_self, rfl, hlast⟩
      | false =>
          simp only [Bool.false_eq_true, if_false, iff_false]
          rintro ⟨_, env, hwrote, _⟩
          simp at hwrote

/-!
## The wait
-/

/-- The record names the endpoint, and no release of it is on record. -/
def Holds (endpoint : String) (env : JobEnvelope) : Prop :=
  nonempty env.endpoint = some endpoint ∧ env.cleanup.gone = false

/-- What a live `job apply` writes while `destroy` waits for it still holds the
endpoint. -/
def StillHeld (a : Answers) (endpoint : String) : Prop :=
  (forall i env, (a.awaits i).written = some env -> Holds endpoint env) ∧
    forall env, a.latest.written = some env -> Holds endpoint env

theorem reread_holds {r : Reread} {disk : Option JobEnvelope}
    (hwritten : forall env, r.written = some env -> Holds endpoint env)
    (hdisk : forall env, disk = some env -> Holds endpoint env) :
    (forall env, (reread r disk).2 = some env -> Holds endpoint env) ∧
      forall current, (reread r disk).1 = .ok current -> current = (reread r disk).2 := by
  unfold reread
  cases hr : r.written with
  | none => cases r.fault <;> simp_all
  | some env => cases r.fault <;> simp_all

theorem awaitSupervisorCleanup_holds (hheld : StillHeld a endpoint) (polls left : Nat)
    {disk : Option JobEnvelope}
    (hdisk : forall env, disk = some env -> Holds endpoint env) :
    let r := awaitSupervisorCleanup a.awaits polls left disk
    (forall env, r.2 = some env -> Holds endpoint env) ∧
      forall env, r.1 = .ok (some env) -> Holds endpoint env := by
  induction left generalizing disk with
  | zero => exact ⟨hdisk, by simp [awaitSupervisorCleanup]⟩
  | succ left ih =>
      simp only [awaitSupervisorCleanup]
      have hread := reread_holds (r := (a.awaits (polls - (left + 1))).toReread)
        (hheld.left _) hdisk
      rcases hrun : reread (a.awaits (polls - (left + 1))).toReread disk with
        ⟨current, disk'⟩
      rw [hrun] at hread
      rcases hread with ⟨hdisk', hcurrent⟩
      cases current with
      | error text => exact ih hdisk'
      | ok current =>
          have hsame : current = disk' := hcurrent current rfl
          subst hsame
          simp only
          split
          · exact ⟨hdisk', by simpa using hdisk'⟩
          · split
            · exact ⟨hdisk', by simp⟩
            · exact ⟨hdisk', by simpa using hdisk'⟩
            · exact ih hdisk'

/-- `destroy` waits: for a workload it has asked to stop, and the request arrived. -/
def Waits (args : Args) (a : Answers) (transport : Bool) (env : JobEnvelope) : Prop :=
  env.workload.terminal = false ∧ transport = true ∧
    (cancelRunner a transport env).2 = true ∧ 0 < args.wait

/-- No step of the wait raises: the notice is printed, and the identity file of the
supervisor can be read each time it is asked for. -/
def WaitReturns (args : Args) (a : Answers) (env : JobEnvelope) : Prop :=
  a.echo = none ∧ exists alive, a.supervisorAlive = .ok alive ∧
    (alive = true -> exists current, (awaitSupervisorCleanup a.awaits
      (waitPolls args.wait) (waitPolls args.wait) (some env)).1 = .ok current)

/-- A wait that goes on to the release, from a record that names the endpoint. -/
def GoesOn (endpoint : String) (r : Outcome Raise Waited × Desk) : Prop :=
  (exists outcome, r.1 = .ok (.release outcome)) ∧
    nonempty r.2.env.endpoint = some endpoint

variable (args a) in
theorem waitForRunner_spec (hlog : s.log = [])
    (hend : nonempty s.env.endpoint = some endpoint) :
    let r := waitForRunner args a s
    r.2.log = [] ∧ (GoesOn endpoint r ∧ a.echo = none ∨
      (exists e, r.1 = .raised e) ∧ a.echo ≠ none) := by
  cases hecho : a.echo with
  | some text => simp [waitForRunner, hecho, Prog.bind_run, hlog]
  | none =>
      have hsame := absorbAwaited_endpoint a args.wait s.env
      simp [waitForRunner, hecho, Prog.bind_run, hlog, GoesOn, hsame, hend]

theorem takeOver_endpoint (args : Args) (current : Option JobEnvelope)
    {latest : Except String (Option JobEnvelope)}
    (hend : nonempty env.endpoint = some endpoint)
    (hlatest : forall env, latest = .ok (some env) -> Holds endpoint env) :
    nonempty (takeOver args current latest env).endpoint = some endpoint := by
  unfold takeOver
  cases current <;> cases latest with
  | error text => exact hend
  | ok latest =>
      cases latest with
      | none => exact hend
      | some latest => exact (hlatest latest rfl).left

variable (args) in
theorem waitForApply_spec (hheld : StillHeld a endpoint) (hlog : s.log = [])
    (hend : nonempty s.env.endpoint = some endpoint)
    (hdisk : s.disk = some env) (hholds : Holds endpoint env) :
    let r := waitForApply args a s
    let done := exists current, (awaitSupervisorCleanup a.awaits
      (waitPolls args.wait) (waitPolls args.wait) (some env)).1 = .ok current
    r.2.log = [] ∧ (GoesOn endpoint r ∧ a.echo = none ∧ done ∨
      (exists e, r.1 = .raised e) ∧ ¬(a.echo = none ∧ done)) := by
  intro r done
  have hstart : forall env', some env = some env' -> Holds endpoint env' := by
    rintro _ ⟨⟩
    exact hholds
  have hwait := awaitSupervisorCleanup_holds hheld (waitPolls args.wait)
    (waitPolls args.wait) hstart
  cases hecho : a.echo with
  | some text => simp [r, waitForApply, hecho, Prog.bind_run, hlog]
  | none =>
      rcases hrun : awaitSupervisorCleanup a.awaits (waitPolls args.wait)
        (waitPolls args.wait) (some env) with ⟨current, disk⟩
      rw [hrun] at hwait
      rcases hwait with ⟨hdisk', hcurrent⟩
      cases current with
      | error text =>
          simp [r, done, waitForApply, hecho, Prog.bind_run, hdisk, hrun, hlog]
      | ok current =>
          have hnotGone : (current.any fun env => env.cleanup.gone) = false := by
            cases current with
            | none => rfl
            | some env => exact (hcurrent env rfl).right
          have hlatest := reread_holds (r := a.latest) hheld.right hdisk'
          have htaken : nonempty (takeOver args current (reread a.latest disk).1
              s.env).endpoint = some endpoint :=
            takeOver_endpoint args current hend fun env h =>
              hlatest.left env (hlatest.right _ h).symm
          simp [r, done, waitForApply, hecho, Prog.bind_run, hdisk, hrun, hlog, hnotGone,
            GoesOn, htaken]

variable (args transport confirmed) in
/-- The wait goes on to the release exactly when none of its steps raises, and does not
release or write by itself. -/
theorem await_spec (hheld : a.supervisorAlive = .ok true ->
      Holds endpoint env ∧ StillHeld a endpoint)
    (hlog : s.log = []) (hend : nonempty s.env.endpoint = some endpoint)
    (hdisk : s.disk = some env) :
    let r := await args a transport confirmed s
    let clear := s.env.workload.terminal = false ∧ transport = true ∧
      confirmed = true ∧ 0 < args.wait -> WaitReturns args a env
    r.2.log = [] ∧ (GoesOn endpoint r ∧ clear ∨ (exists e, r.1 = .raised e) ∧ ¬clear) := by
  intro r clear
  by_cases hwaits : s.env.workload.terminal = false ∧ transport = true ∧
      confirmed = true ∧ 0 < args.wait
  · rcases hwaits with ⟨hopen, htransport, hconfirmed, hpos⟩
    have hr : r = (do
        if ← Command.lift a.supervisorAlive then waitForApply args a
        else waitForRunner args a) s := by
      simp [r, await, Prog.bind_run, hopen, htransport, hconfirmed, hpos]
    cases halive : a.supervisorAlive with
    | error text =>
        simp [hr, halive, clear, WaitReturns, Prog.bind_run, hlog, hopen, htransport,
          hconfirmed, hpos]
    | ok alive =>
        cases alive with
        | true =>
            have hspec := waitForApply_spec args (hheld halive).right hlog hend
              hdisk (hheld halive).left
            simpa [hr, halive, clear, WaitReturns, Prog.bind_run, hopen, htransport,
              hconfirmed, hpos] using hspec
        | false =>
            have hspec := waitForRunner_spec args a hlog hend
            simpa [hr, halive, clear, WaitReturns, Prog.bind_run, hopen, htransport,
              hconfirmed, hpos] using hspec
  · have hr : r = (.ok (.release none), s) := by
      have hcond : (!s.env.workload.terminal && transport && confirmed &&
          decide (0 < args.wait)) = false := by
        by_contra hne
        simp only [Bool.not_eq_false, Bool.and_eq_true, Bool.not_eq_true',
          decide_eq_true_eq] at hne
        exact hwaits ⟨hne.1.1.1, hne.1.1.2, hne.1.2, hne.2⟩
      simp only [r, await, Prog.bind_run, Prog.get_run, hcond]
      rfl
    rw [hr]
    exact ⟨hlog, Or.inl ⟨⟨⟨none, rfl⟩, hend⟩, fun h => absurd h hwaits⟩⟩

/-!
## The whole command
-/

/-- No unguarded step before the release raises, and the last write lands. -/
def Unobstructed (args : Args) (a : Answers) (env : JobEnvelope) : Prop :=
  exists plan transport env', a.plan = .ok plan ∧ openTransport a env = .ok transport ∧
    recover a (reconcile a transport env) = .ok env' ∧
    (Waits args a transport env' -> WaitReturns args a env) ∧
    a.keepAlive = none ∧ a.write.lands = true

def found (env : JobEnvelope) : Desk := { env, disk := some env }

variable (args transport) in
/-- What follows the scrub releases and records exactly when its steps do not raise. -/
theorem conclude_iff (plan : Option Plan) (hfull : args.cancelOnly = false)
    (hheld : a.supervisorAlive = .ok true -> Holds endpoint env ∧ StillHeld a endpoint)
    (hlog : s.log = []) (hend : nonempty s.env.endpoint = some endpoint)
    (hdisk : s.disk = some env) :
    Released a endpoint (conclude args a plan transport s).2 <->
      (Waits args a transport s.env -> WaitReturns args a env) ∧
        a.keepAlive = none ∧ a.write.lands = true := by
  have hwait := await_spec args transport (cancelRunner a transport s.env).2 hheld hlog hend hdisk
  unfold conclude
  rw [Prog.bind_run_ok (Prog.get_run s), hfull]
  simp only [Bool.false_and, Bool.false_eq_true, if_false]
  rw [Prog.bind_run]
  rcases hawait : await args a transport (cancelRunner a transport s.env).2 s with ⟨o, s'⟩
  rw [hawait] at hwait
  rcases hwait with ⟨hlog', ⟨⟨⟨outcome, ho⟩, hend'⟩, hclear⟩ | ⟨⟨e, ho⟩, hclear⟩⟩
  · cases ho
    simp only
    rw [releaseAndRecord_iff plan _ outcome hlog' hend']
    exact ⟨fun h => ⟨hclear, h⟩, fun h => h.right⟩
  · cases ho
    exact ⟨fun h => absurd h (not_released_of_log hlog'), fun h => absurd h.left hclear⟩

/-- For every readable envelope that names an endpoint, and as long as no live
`job apply` releases it: a `destroy` without `--cancel-only` calls the release and
records its outcome exactly when no unguarded step raises. -/
theorem destroy_releases_iff (args : Args) (a : Answers) (env : JobEnvelope)
    (endpoint : String) (hfull : args.cancelOnly = false) (hread : a.envelope = none)
    (hend : nonempty env.endpoint = some endpoint)
    (hheld : a.supervisorAlive = .ok true ->
      Holds endpoint env ∧ StillHeld a endpoint) :
    Released a endpoint (destroy args a (found env)).2 <-> Unobstructed args a env := by
  have hrun : (destroy args a (found env)) =
      (do
        let plan ← Command.lift (a.plan.mapError PlanError.text)
        let transport ← Command.lift (openTransport a env)
        let env ← Command.lift (recover a (reconcile a transport env))
        Command.modifyEnv fun _ => env
        conclude args a plan transport) (found env) := by
    simp [destroy, Command.readEnvelope, hread, found, Prog.bind_run]
  rw [hrun]
  unfold Unobstructed
  cases hplan : a.plan with
  | error text =>
      simp [Except.mapError, Prog.bind_run, not_released_of_log, found]
  | ok plan =>
      cases htransport : openTransport a env with
      | error text =>
          simp [Except.mapError, Prog.bind_run, not_released_of_log, found]
      | ok transport =>
          cases hrecover : recover a (reconcile a transport env) with
          | error text =>
              simp [Except.mapError, Prog.bind_run, not_released_of_log, found, hrecover]
          | ok env' =>
              have hend' : nonempty env'.endpoint = some endpoint := by
                rw [recover_endpoint hrecover, reconcile_endpoint, hend]
              have hiff := conclude_iff args transport
                (s := { found env with env := env' }) plan hfull hheld rfl hend' rfl
              simpa [Except.mapError, Prog.bind_run, hrecover] using hiff

/-- A run in which every guarded step fails: no result, no `control.result`, no scrub,
no cancel, no records, and a session record that cannot be removed. -/
def allGuardedFail (plan : PlanRead) : Answers where
  envelope := none
  plan := plan
  session := .ok true
  transport := none
  result := .error "ConnectionError: refused"
  note := {}
  absorb := ⟨.ok none, "now"⟩
  offVm := ⟨.error (.invalid "plan file is invalid"), .error "", .ok none, "now"⟩
  scrub := .error "ConnectionError: refused"
  cancel := .error "ConnectionError: refused"
  supervisorAlive := .ok false
  echo := none
  awaits := fun _ => {}
  latest := {}
  looks := fun _ => ⟨.error "", .error "", .error ""⟩
  waitAbsorb := ⟨.ok none, "now"⟩
  copy := ⟨0, "jobs/j", fun _ => ⟨0, .error "ConnectionError: refused", none⟩⟩
  keepAlive := none
  release := ⟨⟨.ok (), .error ""⟩, .error "HTTPError: 503"⟩
  forget := some "OSError: disk"
  write := {}
  emit := none

def launched : JobEnvelope :=
  { jobId := "j", workload := .running, session := some "job-j", endpoint := some "e" }

theorem destroy_releases_iff_guarded :
    Released (allGuardedFail (.ok none)) "e"
      (destroy ⟨"j", false, 300⟩ (allGuardedFail (.ok none)) (found launched)).2 := by
  refine (destroy_releases_iff ⟨"j", false, 300⟩ (allGuardedFail (.ok none)) launched "e"
    rfl rfl (by decide) (fun h => by cases h)).mpr ?_
  refine ⟨none, true, _, rfl, by decide, rfl, ?_, rfl, rfl⟩
  rintro ⟨_, _, hconfirmed, _⟩
  cases hconfirmed

/-- A stored plan that does not validate: `destroy` raises before it has done anything,
and the VM stays assigned. -/
theorem destroy_not_released :
    exists args a env endpoint, args.cancelOnly = false ∧ a.envelope = none ∧
      nonempty env.endpoint = some endpoint ∧ a.supervisorAlive = .ok false ∧
      (exists text, a.plan = .error (.invalid text)) ∧
      (destroy args a (found env)).1 =
        .raised (.exception "plan file is invalid: spec.name: Field required") ∧
      (destroy args a (found env)).2.log = [] ∧
      ¬Released a endpoint (destroy args a (found env)).2 := by
  refine ⟨⟨"j", false, 300⟩,
    allGuardedFail (.error (.invalid "plan file is invalid: spec.name: Field required")),
    launched, "e", rfl, rfl, by decide, rfl, ⟨_, rfl⟩, rfl, rfl, ?_⟩
  exact not_released_of_log rfl

end Destroy
end Job
end MightyColab
