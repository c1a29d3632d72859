import MightyColab.Job.DoneFinal

/-!
# The records that `status` and `destroy` write

Each command follows one of a few courses, and puts on disk what that course makes of the
record it has read. The courses are listed once, so that what holds of every record a
command writes is shown for each of them as a fact about records.

The command runs alone: nothing but itself writes the record.
-/

namespace MightyColab
namespace Job

open Lib

namespace Records

open Concurrent

/-- Every record written is one of these, and the one on disk is too, or is as it was. -/
def Only (S : JobEnvelope -> Prop) (disk : Option JobEnvelope) (s : Desk) : Prop :=
  (forall env, .wrote env ∈ s.log -> S env) ∧
    (s.disk = disk ∨ exists env, s.disk = some env ∧ S env)

variable {S : JobEnvelope -> Prop} {disk : Option JobEnvelope} {s : Desk}
  {env env' : JobEnvelope}

theorem only_desk (copy : Option JobEnvelope) : Only S copy (desk copy) := by
  refine ⟨fun env h => ?_, Or.inl rfl⟩
  cases h

theorem only_replace (h : Only S disk s) (env : JobEnvelope) : Only S disk { s with env } := h

theorem only_write (answer : Write) (h : Only S disk s) (hgood : S s.env) :
    Only S disk (Command.writeEnvelope answer s).2 := by
  rw [Command.writeEnvelope_run]
  split
  · refine ⟨fun env hmem => ?_, Or.inr ⟨s.env, rfl, hgood⟩⟩
    rcases List.mem_cons.mp hmem with heq | hmem
    · cases heq
      exact hgood
    · exact h.left env hmem
  · exact h

theorem only_write_still {result : Type} {f : Unit -> Command result}
    (hf : forall u, Prog.Still (f u)) (answer : Write) (h : Only S disk s) (hgood : S s.env) :
    Only S disk ((Command.writeEnvelope answer >>= f) s).2 := by
  rw [Prog.bind_still hf]
  exact only_write answer h hgood

theorem only_release (answer : Release) (failure : String) (h : Only S disk s) :
    Only S disk (Command.releaseVm answer failure s).2 := by
  rw [Command.releaseVm_run]
  refine ⟨fun env hmem => ?_, h.right⟩
  rcases List.mem_append.mp hmem with hmem | hmem
  · cases hend : nonempty s.env.endpoint <;> simp [hend] at hmem
  · exact h.left env hmem

/-!
## `destroy`
-/

section Destroying

variable (args : Destroy.Args) (a : Destroy.Answers)

/-- The answers of a `destroy` beside which nothing writes the record. -/
def alone : Destroy.Answers :=
  { a with
    awaits := fun i => { a.awaits i with written := none }
    latest := { a.latest with written := none } }

def destroyReleased (failure : String) (transport : Bool) (env : JobEnvelope) : JobEnvelope :=
  forgetSession a.forget (release a.release failure (copyBeforeRelease transport a.copy env))

/-- The record that `destroy` has read, with the result that it could absorb. -/
def Read (copy : JobEnvelope) (transport : Bool) (env : JobEnvelope) : Prop :=
  Destroy.openTransport a copy = .ok transport ∧
    Destroy.recover a (Destroy.reconcile a transport copy) = .ok env

/-- `destroy` waits: the workload has no verdict, and the cancel request arrived. -/
def waits (transport : Bool) (env : JobEnvelope) : Bool :=
  !env.workload.terminal && transport && (Destroy.cancelRunner a transport env).2 &&
    decide (0 < args.wait)

/-- The record that `destroy` releases the VM from. -/
inductive Before (copy : JobEnvelope) (transport : Bool) : JobEnvelope -> Prop where
  | read {env : JobEnvelope} : Read a copy transport env -> waits args a transport env = false ->
      Before copy transport env
  /-- It has waited for the runner. -/
  | awaited {env : JobEnvelope} : Read a copy transport env -> waits args a transport env = true ->
      a.supervisorAlive = .ok false ->
      Before copy transport (Destroy.absorbAwaited a args.wait env).2
  /-- It has waited for a live `job apply`, and has read the record again. -/
  | tookOver {env : JobEnvelope} (current : Option JobEnvelope)
      (latest : Except String (Option JobEnvelope)) : Read a copy transport env ->
      waits args a transport env = true -> a.supervisorAlive = .ok true ->
      (forall env', latest = .ok env' -> env' = some copy) ->
      Before copy transport (Destroy.takeOver args current latest env)

/-- What `destroy` puts on disk. -/
inductive DestroyWrites (copy : JobEnvelope) : JobEnvelope -> Prop where
  /-- A `--cancel-only` that cannot keep the VM. -/
  | forced {transport : Bool} {env : JobEnvelope} (problem : String) : args.cancelOnly = true ->
      Read a copy transport env -> (Destroy.removeSecret a transport env).1 = false ->
      DestroyWrites copy
        (Destroy.forcedVerdict problem (destroyReleased a "forced unassign failed" transport env))
  /-- A `--cancel-only` that keeps it. -/
  | left {transport : Bool} {env : JobEnvelope} (note : Option String) (confirmed : Bool) :
      args.cancelOnly = true -> Read a copy transport env ->
      DestroyWrites copy (Destroy.cancelOnlyVerdict note confirmed env)
  | released {transport : Bool} {env : JobEnvelope} (plan : Option Plan) (note : Option String)
      (confirmed : Bool) (outcome : Option String) : args.cancelOnly = false ->
      Before args a copy transport env ->
      DestroyWrites copy (Destroy.destroyedVerdict plan note confirmed outcome
        (destroyReleased a "unassign failed" transport env))

theorem releaseAndRecord_only (plan : Option Plan) (transport : Bool) (note : Option String)
    (confirmed : Bool) (outcome : Option String) (h : Only S disk s)
    (hgood : S (Destroy.destroyedVerdict plan note confirmed outcome
      (destroyReleased a "unassign failed" transport s.env))) :
    Only S disk (Destroy.releaseAndRecord a plan transport note confirmed outcome s).2 := by
  unfold Destroy.releaseAndRecord
  rw [Prog.bind_run_ok (Command.modifyEnv_run _ s)]
  cases a.keepAlive with
  | some text => exact h
  | none =>
      rw [Command.attempted_none, Prog.bind_run_ok (Prog.pure_run _ _),
        Prog.bind_run_ok (Command.releaseVm_run _ _ _),
        Prog.bind_run_ok (Command.modifyEnv_run _ _),
        Prog.bind_run_ok (Command.modifyEnv_run _ _)]
      exact only_write_still (fun _ => Destroy.report_still a) a.write
        (only_release a.release "unassign failed" h) hgood

theorem releaseForced_only (transport : Bool) (problem : Option String) (h : Only S disk s)
    (hgood : S (Destroy.forcedVerdict (problem.getD "None")
      (destroyReleased a "forced unassign failed" transport s.env))) :
    Only S disk (Destroy.releaseForced a transport problem s).2 := by
  unfold Destroy.releaseForced
  rw [Prog.bind_run_ok (Command.modifyEnv_run _ s)]
  cases a.keepAlive with
  | some text => exact h
  | none =>
      rw [Command.attempted_none, Prog.bind_run_ok (Prog.pure_run _ _),
        Prog.bind_run_ok (Command.releaseVm_run _ _ _),
        Prog.bind_run_ok (Command.modifyEnv_run _ _),
        Prog.bind_run_ok (Command.modifyEnv_run _ _)]
      refine only_write_still (fun _ t => ?_) a.write
        (only_release a.release "forced unassign failed" h) hgood
      cases a.emit <;> rfl

theorem leaveRunning_only (note : Option String) (confirmed : Bool) (h : Only S disk s)
    (hgood : S (Destroy.cancelOnlyVerdict note confirmed s.env)) :
    Only S disk (Destroy.leaveRunning a note confirmed s).2 := by
  unfold Destroy.leaveRunning
  rw [Prog.bind_run_ok (Command.modifyEnv_run _ s)]
  refine only_write_still (fun _ t => ?_) a.write h hgood
  cases a.emit with
  | some text => rfl
  | none =>
      simp only [Command.attempted_none, Prog.bind_run, Prog.pure_run, Prog.get_run]
      split <;> rfl

def Alone : Prop := (forall i, (a.awaits i).written = none) ∧ a.latest.written = none

theorem alone_alone : Alone (alone a) := ⟨fun _ => rfl, rfl⟩

theorem reread_alone {r : Destroy.Reread} (h : r.written = none)
    (disk : Option JobEnvelope) :
    (Destroy.reread r disk).2 = disk ∧
      forall read, (Destroy.reread r disk).1 = .ok read -> read = disk := by
  unfold Destroy.reread
  rw [h]
  cases r.fault with
  | none => exact ⟨rfl, fun read h => (Except.ok.inj h).symm⟩
  | some text => exact ⟨rfl, fun read h => by cases h⟩

variable {a} in
theorem awaitSupervisorCleanup_alone (halone : Alone a) (polls : Nat) :
    forall left (disk : Option JobEnvelope),
      (Destroy.awaitSupervisorCleanup a.awaits polls left disk).2 = disk := by
  intro left
  induction left with
  | zero => exact fun _ => rfl
  | succ left ih =>
      intro disk
      rw [Destroy.awaitSupervisorCleanup]
      have hread := (reread_alone (halone.left (polls - (left + 1))) disk).left
      rcases hrun : Destroy.reread (a.awaits (polls - (left + 1))).toReread disk with ⟨current, disk'⟩
      rw [hrun] at hread
      simp only at hread
      rw [hread]
      cases current with
      | error text => exact ih disk
      | ok current =>
          simp only
          split
          · rfl
          · cases (a.awaits (polls - (left + 1))).alive with
            | error text => rfl
            | ok alive =>
                cases alive with
                | false => rfl
                | true => exact ih disk

variable {a} in
/-- The wait for a live `job apply` writes nothing, and leads to the release or ends. -/
theorem waitForApply_only (halone : Alone a) (copy : JobEnvelope) (hdisk : s.disk = some copy)
    (h : Only S (some copy) s) :
    Only S (some copy) (Destroy.waitForApply args a s).2 ∧
      forall outcome t, Destroy.waitForApply args a s = (.ok (.release outcome), t) ->
        exists current latest, (forall env', latest = .ok env' -> env' = some copy) ∧
          t.env = Destroy.takeOver args current latest s.env := by
  unfold Destroy.waitForApply
  cases a.echo with
  | some text => exact ⟨h, fun _ _ hrun => by cases hrun⟩
  | none =>
      rw [Command.attempted_none, Prog.bind_run_ok (Prog.pure_run _ _),
        Prog.bind_run_ok (Prog.get_run s)]
      simp only
      rw [Prog.bind_run_ok (Prog.modify_run _ s)]
      have hsame := awaitSupervisorCleanup_alone halone (waitPolls args.wait)
        (waitPolls args.wait) s.disk
      rcases hrun : Destroy.awaitSupervisorCleanup a.awaits (waitPolls args.wait)
        (waitPolls args.wait) s.disk with ⟨current, disk⟩
      rw [hrun] at hsame
      simp only at hsame
      subst hsame
      cases current with
      | error text => exact ⟨h, fun _ _ hrun => by cases hrun⟩
      | ok current =>
          rw [Command.lift_ok, Prog.bind_run_ok (Prog.pure_run _ _)]
          split
          · cases a.emit with
            | some text => exact ⟨h, fun _ _ hrun => by cases hrun⟩
            | none => exact ⟨h, fun _ _ hrun => by cases hrun⟩
          · rcases reread_alone halone.right s.disk with ⟨hdisk', hread⟩
            rcases hrun' : Destroy.reread a.latest s.disk with ⟨latest, disk'⟩
            rw [hrun'] at hdisk' hread
            simp only at hdisk' hread
            subst hdisk'
            simp only
            rw [Prog.bind_run_ok (Prog.modify_run _ _)]
            refine ⟨h, fun outcome t hrun => ?_⟩
            cases hrun
            exact ⟨current, latest, fun env' hlatest => (hread env' hlatest).trans hdisk, rfl⟩

variable {a} in
theorem await_only (halone : Alone a) {copy : JobEnvelope} {transport : Bool}
    (hread : Read a copy transport s.env) (hdisk : s.disk = some copy)
    (h : Only S (some copy) s) :
    let r := Destroy.await args a transport (Destroy.cancelRunner a transport s.env).2 s
    Only S (some copy) r.2 ∧
      forall outcome t, r = (.ok (.release outcome), t) -> Before args a copy transport t.env := by
  intro r
  have hr : r = (if waits args a transport s.env then do
      if ← Command.lift a.supervisorAlive then Destroy.waitForApply args a
      else Destroy.waitForRunner args a
    else return .release none : Command Destroy.Waited) s := rfl
  rw [hr]
  cases hwaits : waits args a transport s.env with
  | true =>
      simp only [if_true]
      cases halive : a.supervisorAlive with
      | error text => exact ⟨h, fun _ _ hrun => by cases hrun⟩
      | ok alive =>
          rw [Command.lift_ok, Prog.bind_run_ok (Prog.pure_run _ _)]
          cases alive with
          | true =>
              rcases waitForApply_only args halone copy hdisk h with ⟨honly, hgoes⟩
              refine ⟨honly, fun outcome t hrun => ?_⟩
              rcases hgoes outcome t hrun with ⟨current, latest, hlatest, henv⟩
              rw [henv]
              exact Before.tookOver current latest hread hwaits halive hlatest
          | false =>
              simp only [Bool.false_eq_true, if_false]
              unfold Destroy.waitForRunner
              cases a.echo with
              | some text => exact ⟨h, fun _ _ hrun => by cases hrun⟩
              | none =>
                  rw [Command.attempted_none, Prog.bind_run_ok (Prog.pure_run _ _),
                    Prog.bind_run_ok (Prog.get_run s)]
                  refine ⟨h, fun outcome t hrun => ?_⟩
                  cases hrun
                  exact Before.awaited hread hwaits halive
  | false =>
      refine ⟨h, fun outcome t hrun => ?_⟩
      cases hrun
      exact Before.read hread hwaits

variable {args a} in
theorem conclude_released (halone : Alone a) {copy : JobEnvelope} {plan : Option Plan}
    {transport : Bool} (hfull : args.cancelOnly = false) (hread : Read a copy transport s.env)
    (hdisk : s.disk = some copy)
    (hgood : forall env note confirmed outcome, Before args a copy transport env ->
      S (Destroy.destroyedVerdict plan note confirmed outcome
        (destroyReleased a "unassign failed" transport env)))
    (h : Only S (some copy) s) :
    Only S (some copy) (Destroy.conclude args a plan transport s).2 := by
  unfold Destroy.conclude
  rw [Prog.bind_run_ok (Prog.get_run s)]
  simp only [hfull, Bool.false_and, Bool.false_eq_true, if_false]
  rcases await_only args halone hread hdisk h with ⟨honly, hgoes⟩
  rw [Prog.bind_run]
  rcases hrun : Destroy.await args a transport (Destroy.cancelRunner a transport s.env).2 s
    with ⟨o, t⟩
  rw [hrun] at honly
  cases o with
  | raised e => exact honly
  | ended => exact honly
  | ok waited =>
      cases waited with
      | released => exact honly
      | release outcome =>
          exact releaseAndRecord_only a plan transport _ _ outcome honly
            (hgood _ _ _ _ (hgoes outcome t hrun))

variable {a} in
theorem destroyConclude_only (halone : Alone a) {copy : JobEnvelope} (plan : Option Plan)
    {transport : Bool} (hread : Read a copy transport s.env) (hdisk : s.disk = some copy)
    (h : Only (DestroyWrites args a copy) (some copy) s) :
    Only (DestroyWrites args a copy) (some copy) (Destroy.conclude args a plan transport s).2 := by
  cases hcancel : args.cancelOnly with
  | true =>
      unfold Destroy.conclude
      rw [Prog.bind_run_ok (Prog.get_run s)]
      simp only [hcancel]
      cases hremoved : (Destroy.removeSecret a transport s.env).1 with
      | false =>
          simp only [Bool.not_false, Bool.and_true, if_true]
          exact releaseForced_only a transport _ h
            (DestroyWrites.forced _ hcancel hread hremoved)
      | true =>
          simp only [Bool.not_true, Bool.and_false, Bool.false_eq_true, if_false, if_true]
          exact leaveRunning_only a _ _ h (DestroyWrites.left _ _ hcancel hread)
  | false =>
      exact conclude_released halone hcancel hread hdisk (fun env note confirmed outcome hbefore =>
        DestroyWrites.released plan note confirmed outcome hcancel hbefore) h

variable {a} in
theorem destroy_only (halone : Alone a) (copy : JobEnvelope) :
    Only (DestroyWrites args a copy) (some copy)
      (Destroy.destroy args a (desk (some copy))).2 := by
  have hstart : Only (DestroyWrites args a copy) (some copy) (desk (some copy)) := only_desk _
  unfold Destroy.destroy
  cases a.envelope with
  | some text => exact hstart
  | none =>
      rw [Prog.bind_run_ok (Command.readEnvelope_none _)]
      simp only [desk]
      cases a.plan with
      | error error => exact hstart
      | ok plan =>
          rw [Except.mapError, Command.lift_ok, Prog.bind_run_ok (Prog.pure_run _ _)]
          cases hopen : Destroy.openTransport a copy with
          | error text => exact hstart
          | ok transport =>
              rw [Command.lift_ok, Prog.bind_run_ok (Prog.pure_run _ _)]
              cases hrecover : Destroy.recover a (Destroy.reconcile a transport copy) with
              | error text => exact hstart
              | ok env =>
                  rw [Command.lift_ok, Prog.bind_run_ok (Prog.pure_run _ _),
                    Prog.bind_run_ok (Command.modifyEnv_run _ _)]
                  exact destroyConclude_only (s := ⟨env, some copy, []⟩) args halone plan
                    ⟨hopen, hrecover⟩ rfl (only_replace hstart env)

theorem destroy_none : (Destroy.destroy args a (desk none)).2 = desk none := by
  unfold Destroy.destroy
  cases a.envelope <;> rfl

end Destroying

/-!
## `status`
-/

section Asking

variable (args : Status.Args) (a : Status.Answers)

def statusReleased (failure : String) (transport : Bool) (env : JobEnvelope) : JobEnvelope :=
  forgetSession a.forget (release a.release failure (copyBeforeRelease transport a.copy env))

/-- The record that `status` has read, with what it notes of the supervisor. -/
def Noted (copy : JobEnvelope) (orphan : Bool) (env : JobEnvelope) : Prop :=
  exists alive, a.supervisorAlive = .ok alive ∧ env = Status.noteSupervisor alive copy ∧
    orphan = Status.orphaned alive env

def consults (env : JobEnvelope) : Bool :=
  (nonempty env.session).isSome && Status.cleanupPending env

/-- The record with which `status` has reached the VM. -/
def Asked (copy : JobEnvelope) (orphan : Bool) (env : JobEnvelope) : Prop :=
  exists noted, Noted a copy orphan noted ∧ consults noted = true ∧
    Status.ensureKeepAlive a.keepAlive noted = .ok env

def loopEnv (orphan : Bool) (deadline : Option (Rat × String)) :
    List Status.Pass -> WatchdogStaleness -> JobEnvelope -> Option JobEnvelope
  | [], _, _ => none
  | p :: rest, staleness, env =>
      match Status.pass args orphan deadline p staleness env with
      | .error _ => none
      | .ok (.break env) => some env
      | .ok (.again staleness env) =>
          if args.poll then loopEnv orphan deadline rest staleness env else some env

def Looked (orphan : Bool) (env env' : JobEnvelope) : Prop :=
  env.workload.terminal = true ∧ env' = env ∨
    env.workload.terminal = false ∧ exists deadline,
      (orphan = true -> Status.statusPollDeadline a env = .ok deadline) ∧
        (orphan = false -> deadline = none) ∧
          loopEnv args orphan deadline a.passes {} env = some env'

inductive Ended (env : JobEnvelope) : JobEnvelope -> Prop where
  | kept (spec : Option JobSpec) : Status.keepSpec a.keepPlan = .ok spec ->
      keepVm env spec true = true ->
      Ended env { recordVmKept env env.jobId with supervisor := .finished }
  | released (spec : Option JobSpec) : Status.keepSpec a.keepPlan = .ok spec ->
      keepVm env spec true = false ->
      Ended env (Status.orphanVerdict (statusReleased a "recovery teardown failed" true env))

/-- What `status` puts on disk once it has looked at the VM. -/
inductive First (copy : JobEnvelope) : JobEnvelope -> Prop where
  | looked {orphan : Bool} {env env' : JobEnvelope} : Asked a copy orphan env ->
      Looked args a orphan env env' -> (orphan && env'.workload.terminal) = false ->
      First copy env'
  | finished {env env' last : JobEnvelope} : Asked a copy true env ->
      Looked args a true env env' -> env'.workload.terminal = true -> Ended a env' last ->
      First copy last

/-- The session record is not there, or the credential file cannot be confirmed removed. -/
def Unscrubbed : Prop :=
  a.session = .ok false ∨ a.session = .ok true ∧ (scrubReport a.scrub).1 = false

/-- What `status` puts on disk. -/
inductive StatusWrites (copy : JobEnvelope) : JobEnvelope -> Prop where
  /-- The VM is not asked. -/
  | apart {orphan : Bool} {env : JobEnvelope} : Noted a copy orphan env -> consults env = false ->
      StatusWrites copy (finalizeHints (Status.notConsulted args.jobId false env))
  /-- The session record is not there. -/
  | missing {orphan : Bool} {env : JobEnvelope} (hint : String) : Noted a copy orphan env ->
      consults env = true -> Status.mustScrub orphan env = false ->
      StatusWrites copy (finalizeHints (Status.notConsulted args.jobId true (env.addHint hint)))
  /-- The credential file may still be there. -/
  | forced {orphan : Bool} {noted env env' : JobEnvelope} (transport : Bool)
      (cause : Option String) : Noted a copy orphan noted -> consults noted = true ->
      OnlyHints noted env -> Status.mustScrub orphan env = true -> Unscrubbed a ->
      Status.recover a.offVm env = .ok env' ->
      StatusWrites copy (Status.forcedVerdict cause
        (statusReleased a "forced unassign failed" transport env'))
  /-- An orphan that has a verdict. -/
  | ended {env last : JobEnvelope} : Asked a copy true env -> env.workload.terminal = true ->
      Ended a env last -> StatusWrites copy last
  | first {env : JobEnvelope} : First args a copy env -> StatusWrites copy env
  | last {env : JobEnvelope} : First args a copy env ->
      StatusWrites copy (finalizeHints (Status.notConsulted args.jobId true env))

theorem statusConclude_only (consulted : Bool) (h : Only S disk s)
    (hgood : S (finalizeHints (Status.notConsulted args.jobId consulted s.env))) :
    Only S disk (Status.conclude args a consulted s).2 := by
  unfold Status.conclude
  rw [Prog.bind_run_ok (Command.modifyEnv_run _ s)]
  exact only_write_still (fun _ => Command.attempted_still a.emit) a.lastWrite h hgood

theorem forceRelease_only (transport : Bool) (cause : Option String) (h : Only S disk s)
    (hgood : S (Status.forcedVerdict cause
      (statusReleased a "forced unassign failed" transport s.env))) :
    Only S disk (Status.forceReleaseUnconfirmedSecret a transport cause s).2 := by
  unfold Status.forceReleaseUnconfirmedSecret
  rw [Prog.bind_run_ok (Command.modifyEnv_run _ s),
    Prog.bind_run_ok (Command.releaseVm_run _ _ _),
    Prog.bind_run_ok (Command.modifyEnv_run _ _), Prog.bind_run_ok (Command.modifyEnv_run _ _)]
  refine only_write_still (fun _ t => ?_) a.write
    (only_release a.release "forced unassign failed" h) hgood
  cases a.emit <;> rfl

theorem write_ok {answer : Write} {t : Desk} (h : Command.writeEnvelope answer s = (.ok (), t)) :
    t.env = s.env := by
  have hrun := congrArg Prod.snd h
  rw [Command.writeEnvelope_run] at hrun
  change _ = t at hrun
  rw [← hrun]
  split <;> rfl

theorem releaseOrphanedJob_only (h : Only S disk s)
    (hgood : forall last, Ended a s.env last -> S last) :
    Only S disk (Status.releaseOrphanedJob a s).2 ∧
      forall t, Status.releaseOrphanedJob a s = (.ok (), t) -> Ended a s.env t.env := by
  unfold Status.releaseOrphanedJob
  cases hspec : Status.keepSpec a.keepPlan with
  | error text => exact ⟨h, fun t hrun => by cases hrun⟩
  | ok spec =>
      rw [Command.lift_ok, Prog.bind_run_ok (Prog.pure_run _ _), Prog.bind_run_ok (Prog.get_run s)]
      simp only
      cases hkeep : keepVm s.env spec true with
      | true =>
          have hended : Ended a s.env _ := Ended.kept spec hspec hkeep
          simp only [if_true]
          rw [Prog.bind_run_ok (Command.modifyEnv_run _ s)]
          refine ⟨only_write a.write h (hgood _ hended), fun t hrun => ?_⟩
          rw [write_ok hrun]
          exact hended
      | false =>
          have hended : Ended a s.env _ := Ended.released spec hspec hkeep
          simp only [Bool.false_eq_true, if_false]
          rw [Prog.bind_run_ok (Command.modifyEnv_run _ s)]
          cases a.stopKeepAlive with
          | some text => exact ⟨h, fun t hrun => by cases hrun⟩
          | none =>
              rw [Command.attempted_none, Prog.bind_run_ok (Prog.pure_run _ _),
                Prog.bind_run_ok (Command.releaseVm_run _ _ _),
                Prog.bind_run_ok (Command.modifyEnv_run _ _),
                Prog.bind_run_ok (Command.modifyEnv_run _ _)]
              refine ⟨only_write a.write
                (only_release a.release "recovery teardown failed" h) (hgood _ hended),
                fun t hrun => ?_⟩
              rw [write_ok hrun]
              exact hended

theorem loop_run (orphan : Bool) (deadline : Option (Rat × String)) :
    forall (passes : List Status.Pass) (staleness : WatchdogStaleness) (s : Desk),
      (exists env, loopEnv args orphan deadline passes staleness s.env = some env ∧
        Status.loop args orphan deadline passes staleness s = (.ok (), { s with env })) ∨
      ((forall t, Status.loop args orphan deadline passes staleness s ≠ (.ok (), t)) ∧
        exists env, (Status.loop args orphan deadline passes staleness s).2 = { s with env }) := by
  intro passes
  induction passes with
  | nil =>
      intro staleness s
      exact Or.inr ⟨fun t hrun => (by cases hrun), s.env, rfl⟩
  | cons p rest ih =>
      intro staleness s
      unfold Status.loop loopEnv
      rw [Prog.bind_run_ok (Prog.get_run s)]
      cases Status.pass args orphan deadline p staleness s.env with
      | error text => exact Or.inr ⟨fun t hrun => (by cases hrun), s.env, rfl⟩
      | ok turn =>
          rw [Command.lift_ok, Prog.bind_run_ok (Prog.pure_run _ _)]
          cases turn with
          | «break» env => exact Or.inl ⟨env, rfl, rfl⟩
          | again staleness env =>
              simp only
              rw [Prog.bind_run_ok (Command.modifyEnv_run _ s)]
              cases args.poll with
              | false => exact Or.inl ⟨env, rfl, rfl⟩
              | true => exact ih staleness { s with env }

theorem consultVm_run (orphan : Bool) (s : Desk) :
    (exists env, Looked args a orphan s.env env ∧
        Status.consultVm args a orphan s = (.ok (), { s with env })) ∨
      ((forall t, Status.consultVm args a orphan s ≠ (.ok (), t)) ∧
        exists env, (Status.consultVm args a orphan s).2 = { s with env }) := by
  unfold Status.consultVm
  rw [Prog.bind_run_ok (Prog.get_run s)]
  cases hwork : s.env.workload.terminal with
  | true => exact Or.inl ⟨s.env, Or.inl ⟨hwork, rfl⟩, rfl⟩
  | false =>
      simp only [Bool.false_eq_true, if_false]
      have hloop : forall deadline, (orphan = true ->
            Status.statusPollDeadline a s.env = .ok deadline) ->
          (orphan = false -> deadline = none) ->
          (exists env, Looked args a orphan s.env env ∧
              Status.loop args orphan deadline a.passes {} s = (.ok (), { s with env })) ∨
            ((forall t, Status.loop args orphan deadline a.passes {} s ≠ (.ok (), t)) ∧
              exists env, (Status.loop args orphan deadline a.passes {} s).2 = { s with env }) := by
        intro deadline horphan hother
        rcases loop_run args orphan deadline a.passes {} s with ⟨env, henv, hrun⟩ | hnot
        · exact Or.inl ⟨env, Or.inr ⟨hwork, deadline, horphan, hother, henv⟩, hrun⟩
        · exact Or.inr hnot
      cases orphan with
      | false =>
          exact hloop none (fun h => by cases h) fun _ => rfl
      | true =>
          simp only [if_true]
          cases hdeadline : Status.statusPollDeadline a s.env with
          | error text => exact Or.inr ⟨fun t hrun => (by cases hrun), s.env, rfl⟩
          | ok deadline =>
              rw [Command.lift_ok, Prog.bind_run_ok (Prog.pure_run _ _)]
              exact hloop deadline (fun _ => hdeadline) fun h => (by cases h)

theorem superviseVm_only {copy : JobEnvelope} {orphan : Bool} (hasked : Asked a copy orphan s.env)
    (h : Only (StatusWrites args a copy) disk s) :
    Only (StatusWrites args a copy) disk (Status.superviseVm args a orphan s).2 := by
  unfold Status.superviseVm
  rw [Prog.bind_run]
  rcases consultVm_run args a orphan s with ⟨env, hlooked, hrun⟩ | ⟨hnot, env, hstate⟩
  · rw [hrun]
    simp only
    rw [Prog.bind_run_ok (Prog.get_run _)]
    have hconclude : forall {t : Desk}, Only (StatusWrites args a copy) disk t ->
        First args a copy t.env ->
        Only (StatusWrites args a copy) disk (Status.conclude args a true t).2 :=
      fun ht hfirst => statusConclude_only args a true ht (StatusWrites.last hfirst)
    cases hfinish : orphan && env.workload.terminal with
    | true =>
        simp only [if_true]
        rw [Bool.and_eq_true] at hfinish
        rcases hfinish with ⟨rfl, hterminal⟩
        rcases releaseOrphanedJob_only (s := { s with env }) a h (fun last hended =>
          StatusWrites.first (First.finished hasked hlooked hterminal hended)) with ⟨honly, hended⟩
        rw [Prog.bind_run]
        rcases hrelease : Status.releaseOrphanedJob a { s with env } with ⟨o, t⟩
        rw [hrelease] at honly
        cases o with
        | raised e => exact honly
        | ended => exact honly
        | ok _ =>
            exact hconclude honly
              (First.finished hasked hlooked hterminal (hended t hrelease))
    | false =>
        simp only [Bool.false_eq_true, if_false]
        have hfirst : First args a copy env := First.looked hasked hlooked hfinish
        have honly := only_write (s := { s with env }) a.write h (StatusWrites.first hfirst)
        rw [Prog.bind_run]
        rcases hwrite : Command.writeEnvelope a.write { s with env } with ⟨o, t⟩
        rw [hwrite] at honly
        cases o with
        | raised e => exact honly
        | ended => exact honly
        | ok _ =>
            refine hconclude honly ?_
            rw [write_ok hwrite]
            exact hfirst
  · rcases hrun : Status.consultVm args a orphan s with ⟨o, t⟩
    rw [hrun] at hstate
    simp only at hstate
    subst hstate
    cases o with
    | ok _ => exact absurd hrun (hnot _)
    | raised e => exact h
    | ended => exact h

theorem recoverAndForce_only {copy : JobEnvelope} {orphan : Bool} {noted : JobEnvelope}
    (transport : Bool) (cause : JobEnvelope -> Option String) (hnoted : Noted a copy orphan noted)
    (hconsults : consults noted = true) (hhints : OnlyHints noted s.env)
    (hmust : Status.mustScrub orphan s.env = true) (hunscrubbed : Unscrubbed a)
    (h : Only (StatusWrites args a copy) disk s) :
    Only (StatusWrites args a copy) disk
      ((do
        let env ← Command.lift (Status.recover a.offVm s.env)
        Command.modifyEnv fun _ => env
        Status.forceReleaseUnconfirmedSecret a transport (cause env)) s).2 := by
  cases hrecover : Status.recover a.offVm s.env with
  | error text => exact h
  | ok env =>
      rw [Command.lift_ok, Prog.bind_run_ok (Prog.pure_run _ _),
        Prog.bind_run_ok (Command.modifyEnv_run _ _)]
      exact forceRelease_only (s := { s with env }) a transport _ h
        (StatusWrites.forced transport _ hnoted hconsults hhints hmust hunscrubbed hrecover)

theorem withSession_only {copy : JobEnvelope} {orphan : Bool} (hnoted : Noted a copy orphan s.env)
    (hconsults : consults s.env = true) (hsession : a.session = .ok true)
    (h : Only (StatusWrites args a copy) disk s) :
    Only (StatusWrites args a copy) disk (Status.withSession args a orphan s).2 := by
  unfold Status.withSession
  rw [Prog.bind_run_ok (Prog.get_run s)]
  cases hensure : Status.ensureKeepAlive a.keepAlive s.env with
  | error text => exact h
  | ok env =>
      have hasked : Asked a copy orphan env := ⟨s.env, hnoted, hconsults, hensure⟩
      have hhints := Status.ensureKeepAlive_onlyHints hensure
      rw [Command.lift_ok, Prog.bind_run_ok (Prog.pure_run _ _),
        Prog.bind_run_ok (Command.modifyEnv_run _ _)]
      cases a.transport with
      | some text => exact h
      | none =>
          rw [Command.attempted_none, Prog.bind_run_ok (Prog.pure_run _ _)]
          have hscrubbed : Only (StatusWrites args a copy) disk
              ((if orphan && env.workload.terminal then do
                  Status.releaseOrphanedJob a
                  Command.attempted a.emit
                else Status.superviseVm args a orphan) { s with env }).2 := by
            cases hended : orphan && env.workload.terminal with
            | true =>
                rw [Bool.and_eq_true] at hended
                rcases hended with ⟨rfl, hterminal⟩
                simp only [if_true]
                rw [Prog.bind_still fun _ => Command.attempted_still a.emit]
                exact (releaseOrphanedJob_only (s := { s with env }) a h fun last hlast =>
                  StatusWrites.ended hasked hterminal hlast).left
            | false =>
                simp only [Bool.false_eq_true, if_false]
                exact superviseVm_only (s := { s with env }) args a hasked h
          cases hmust : Status.mustScrub orphan env with
          | false => simpa using hscrubbed
          | true =>
              rcases hscrub : scrubReport a.scrub with ⟨removed, problem⟩
              cases removed with
              | true => simpa using hscrubbed
              | false =>
                  simp only [if_true, Bool.not_false]
                  exact recoverAndForce_only (s := { s with env }) args a true _ hnoted hconsults
                    hhints hmust (Or.inr ⟨hsession, by rw [hscrub]⟩) h

theorem withoutSession_only {copy : JobEnvelope} {orphan : Bool}
    (hnoted : Noted a copy orphan s.env) (hconsults : consults s.env = true)
    (hsession : a.session = .ok false) (h : Only (StatusWrites args a copy) disk s) :
    Only (StatusWrites args a copy) disk (Status.withoutSession args a orphan s).2 := by
  unfold Status.withoutSession
  rw [Prog.bind_run_ok (Prog.get_run s)]
  cases hmust : Status.mustScrub orphan s.env with
  | true =>
      simp only [if_true]
      exact recoverAndForce_only args a false _ hnoted hconsults (OnlyHints.refl _) hmust
        (Or.inl hsession) h
  | false =>
      simp only [Bool.false_eq_true, if_false]
      rw [Prog.bind_run_ok (Command.modifyEnv_run _ s)]
      exact statusConclude_only args a true h (StatusWrites.missing _ hnoted hconsults hmust)

theorem status_only (copy : JobEnvelope) :
    Only (StatusWrites args a copy) (some copy) (Status.status args a (desk (some copy))).2 := by
  have hstart : Only (StatusWrites args a copy) (some copy) (desk (some copy)) := only_desk _
  unfold Status.status
  cases a.envelope with
  | some text => exact hstart
  | none =>
      rw [Prog.bind_run_ok (Command.readEnvelope_none _)]
      simp only [desk]
      cases halive : a.supervisorAlive with
      | error text => exact hstart
      | ok alive =>
          rw [Command.lift_ok, Prog.bind_run_ok (Prog.pure_run _ _),
            Prog.bind_run_ok (Command.modifyEnv_run _ _)]
          have hnoted : Noted a copy (Status.orphaned alive (Status.noteSupervisor alive copy))
              (Status.noteSupervisor alive copy) := ⟨alive, halive, rfl, rfl⟩
          have honly := only_replace hstart (Status.noteSupervisor alive copy)
          simp only
          split
          · next hconsults =>
              cases hsession : a.session with
              | error text => exact honly
              | ok present =>
                  rw [Command.lift_ok, Prog.bind_run_ok (Prog.pure_run _ _)]
                  cases present with
                  | true =>
                      exact withSession_only (s := ⟨_, some copy, []⟩) args a hnoted hconsults
                        hsession honly
                  | false =>
                      exact withoutSession_only (s := ⟨_, some copy, []⟩) args a hnoted hconsults
                        hsession honly
          · next hconsults =>
              exact statusConclude_only (s := ⟨_, some copy, []⟩) args a false honly
                (StatusWrites.apart hnoted (Bool.eq_false_iff.mpr hconsults))

theorem status_none : (Status.status args a (desk none)).2 = desk none := by
  unfold Status.status
  cases a.envelope <;> rfl

end Asking

end Records
end Job
end MightyColab
