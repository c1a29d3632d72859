import MightyColab.Job.Supervisors

/-!
# The verdict does not depend on the supervisor

The records of `destroy` and of a released orphan beside what apply's poll records. A result
is the same verdict whoever absorbs it. Without one the workload is unknown to all three;
apply and status then blame the run and would retry it, and `destroy`, which was asked to end
the job, does neither.
-/

namespace MightyColab
namespace Job

open Lib

namespace Supervisors

variable {x : Sight} {env env' : JobEnvelope} {result : Json.Fields} {args : Destroy.Args}
  {a : Destroy.Answers}

/-!
## What a release leaves of a verdict
-/

/-- The verdict of `env` on record after the release: a failed one is a failure of the
cleanup where nothing had failed. -/
structure Recorded (env last : JobEnvelope) : Prop where
  workload : last.workload = env.workload
  offload : last.offload = env.offload
  retryClass : last.retryClass = env.retryClass
  failedPhase : last.failedPhase =
    env.failedPhase.or (if last.cleanup = .failed then some .cleanup else none)

theorem Recorded.of_alike {last : JobEnvelope} (h : Alike env env') (hlast : Recorded env' last) :
    Recorded env last :=
  ⟨hlast.workload.trans h.workload, hlast.offload.trans h.offload,
    hlast.retryClass.trans h.retryClass, by rw [hlast.failedPhase, h.failedPhase]⟩

theorem Recorded.of_onlyHints {last last' : JobEnvelope} (h : Recorded env last)
    (hhints : OnlyHints last last') : Recorded env last' := by
  rcases hhints with ⟨hints, rfl⟩
  exact ⟨h.workload, h.offload, h.retryClass, h.failedPhase⟩

theorem release_recorded (answer : Release) (failure : String) (env : JobEnvelope) :
    Recorded env (release answer failure env) := by
  refine ⟨release_same answer failure env JobEnvelope.workload,
    release_same answer failure env JobEnvelope.offload,
    release_same answer failure env JobEnvelope.retryClass, ?_⟩
  rw [release_cleanup]
  unfold release releaseOutcome
  cases nonempty env.endpoint with
  | none => exact (Option.or_none).symm
  | some endpoint =>
      simp only
      rcases readComputeUnits_onlyHints answer.units "release"
        { env with cleanup := (releaseAssignment answer.assignment endpoint).1 } with
        ⟨hints, hread⟩
      rw [hread]
      by_cases hfailed : (releaseAssignment answer.assignment endpoint).1 = .failed
      · rw [if_pos hfailed, if_pos hfailed]
        split <;> rfl
      · rw [if_neg hfailed, if_neg hfailed, Option.or_none]
        split <;> rfl

theorem released_recorded (transport : Bool) (copy : CopyAnswer) (answer : Release)
    (failure : String) (forget : Option String) (env : JobEnvelope) :
    Recorded env (forgetSession forget (release answer failure
      (copyBeforeRelease transport copy env))) :=
  ((release_recorded answer failure _).of_alike
    (Alike.of_onlyHints (copyBeforeRelease_onlyHints transport copy env))).of_onlyHints
      (forgetSession_onlyHints forget _)

theorem destroyedVerdict_recorded {last : JobEnvelope} (h : Recorded env last)
    (hended : env.workload.terminal = true) (plan : Option Plan) (note : Option String)
    (confirmed : Bool) (outcome : Option String) :
    Recorded env (Destroy.destroyedVerdict plan note confirmed outcome last) := by
  have hterminal : last.workload.terminal = true := by rw [h.workload, hended]
  unfold Destroy.destroyedVerdict
  simp only [hterminal, if_true]
  have hkept : Recorded env { last with supervisor := .finished } :=
    ⟨h.workload, h.offload, h.retryClass, h.failedPhase⟩
  exact hkept.of_onlyHints (finalizeHints_onlyHints _)

/-- The record of a job whose verdict `destroy` cannot know. -/
structure Forgone (spec : JobSpec) (env last : JobEnvelope) : Prop where
  workload : last.workload = .unknown
  offload : last.offload = (unknown spec env).offload
  retryClass : last.retryClass = some .doNotRetry
  failedPhase : last.failedPhase =
    env.failedPhase.or (if last.cleanup = .failed then some .cleanup else none)

theorem destroyedVerdict_forgone {last : JobEnvelope} (h : Recorded env last)
    (hopen : env.workload.terminal = false) (plan : Plan) (note : Option String)
    (confirmed : Bool) (outcome : Option String) :
    Forgone plan.spec env (Destroy.destroyedVerdict (some plan) note confirmed outcome last) := by
  have hrunning : last.workload.terminal = false := by rw [h.workload, hopen]
  unfold Destroy.destroyedVerdict
  simp only [hrunning, Bool.false_eq_true, if_false]
  refine ⟨rfl, ?_, rfl, h.failedPhase⟩
  change (if last.offload.terminal then last.offload
    else if !plan.spec.artifacts.isEmpty then .skipped else .notRequired) = _
  rw [h.offload, unknown]
  cases plan.spec.artifacts.isEmpty <;> rfl

theorem orphanVerdict_recorded {last : JobEnvelope} (h : Recorded env last)
    (hclosed : env.offload.terminal = true) : Recorded env (Status.orphanVerdict last) := by
  refine ⟨h.workload, ?_, h.retryClass, h.failedPhase⟩
  rw [orphanVerdict_offload, h.offload, if_pos hclosed]

/-!
## What destroy reads
-/

/-- A job whose runner has been launched, with a session to reach its VM by. -/
structure Launched (env : JobEnvelope) : Prop where
  workload : env.workload.terminal = false
  session : (nonempty env.session).isSome = true

theorem openTransport_run (h : Launched env) :
    Destroy.openTransport (x.answers a) env = .ok true := by
  rcases Option.isSome_iff_exists.mp h.session with ⟨session, hsession⟩
  unfold Destroy.openTransport
  rw [hsession]
  rfl

theorem lost_reads (h : x.Lost) : exists r, x.look.result = .ok r ∧ okRecord r = none := by
  rcases h with ⟨⟨record, status⟩, hread, rfl⟩ | ⟨record, hdead⟩
  · exact ⟨_, hread, by cases record <;> rfl⟩
  · rcases dead_reads hdead with ⟨r, w, hr, hnone, _⟩
    exact ⟨r, hr, hnone⟩

theorem reconcile_absorbs {absorbed : JobEnvelope} (h : x.HasResult result)
    (habsorb : Absorb.absorbResult env x.plan.spec result x.now = .ok absorbed) :
    Destroy.reconcile (x.answers a) true env = { absorbed with supervisor := .finished } := by
  rcases h with ⟨read, hread, hrecord⟩
  have hresult : (x.answers a).result = .ok read := hread
  have hremote : absorbRemoteResult env (x.answers a).absorb.plan result
      (x.answers a).absorb.now = .ok absorbed := habsorb
  unfold Destroy.reconcile
  simp only [Bool.not_true, Bool.false_eq_true, if_false, hresult, hrecord, hremote]

theorem reconcile_hints (h : x.Lost ∨ x.Rejected env) :
    OnlyHints env (Destroy.reconcile (x.answers a) true env) := by
  rcases h with hlost | ⟨result, error, ⟨read, hread, hrecord⟩, hrejects⟩
  · rcases lost_reads hlost with ⟨read, hread, hnone⟩
    have hresult : (x.answers a).result = .ok read := hread
    unfold Destroy.reconcile
    simp only [Bool.not_true, Bool.false_eq_true, if_false, hresult, hnone]
    split
    · exact OnlyHints.refl env
    · exact addHint_onlyHints env _
  · have hresult : (x.answers a).result = .ok read := hread
    have hremote : absorbRemoteResult env (x.answers a).absorb.plan result
        (x.answers a).absorb.now = .error error := hrejects
    unfold Destroy.reconcile
    simp only [Bool.not_true, Bool.false_eq_true, if_false, hresult, hrecord, hremote]
    exact addHint_onlyHints env _

theorem read_eq {transport : Bool} (launched : Launched env)
    (h : Records.Read (x.answers a) env transport env') :
    Destroy.recover (x.answers a) (Destroy.reconcile (x.answers a) true env) = .ok env' := by
  rcases h with ⟨hopen, hrecover⟩
  cases hopen.symm.trans (openTransport_run launched)
  exact hrecover

theorem read_absorbs {transport : Bool} {absorbed : JobEnvelope} (launched : Launched env)
    (h : x.Absorbs env absorbed) (hended : absorbed.workload.terminal = true)
    (hread : Records.Read (x.answers a) env transport env') : Alike absorbed env' := by
  have hrecover := read_eq launched hread
  rcases h with ⟨result, hbrings, habsorb⟩
  unfold Destroy.recover at hrecover
  cases hbrings with
  | read hresult =>
      rw [reconcile_absorbs hresult habsorb, if_pos hended] at hrecover
      cases hrecover
      exact ⟨rfl, rfl, rfl, rfl, rfl, rfl, rfl⟩
  | recovered hlost hrecovers =>
      have hhints : OnlyHints env (Destroy.reconcile (x.answers a) true env) :=
        reconcile_hints (Or.inl hlost)
      have hopen : (Destroy.reconcile (x.answers a) true env).workload.terminal = false :=
        (hhints.same fun env => env.workload.terminal).trans launched.workload
      rcases Alike.absorbResult_alike (Alike.of_onlyHints hhints) habsorb x.now with
        ⟨absorbed', habsorb', hsame⟩
      have hoffVm : recoverOffVmResult (x.answers a).offVm
          (Destroy.reconcile (x.answers a) true env) = .ok (true, absorbed') :=
        recoverOffVmResult_run hrecovers habsorb'
      rw [if_neg (by rw [hopen]; decide), hoffVm] at hrecover
      cases hrecover
      exact hsame.trans ⟨rfl, rfl, rfl, rfl, rfl, rfl, rfl⟩

theorem read_alike {transport : Bool} (launched : Launched env) (h : x.NoResult env)
    (hread : Records.Read (x.answers a) env transport env') : Alike env env' := by
  have hrecover := read_eq launched hread
  have hhints := reconcile_hints (a := a) h.right
  have hopen : (Destroy.reconcile (x.answers a) true env).workload.terminal = false :=
    (hhints.same fun env => env.workload.terminal).trans launched.workload
  rcases recoverOffVmResult_none h.left (Destroy.reconcile (x.answers a) true env) with
    ⟨noted, hnoted, honly⟩
  have hoffVm : recoverOffVmResult (x.answers a).offVm
      (Destroy.reconcile (x.answers a) true env) = .ok (false, noted) := hnoted
  unfold Destroy.recover at hrecover
  rw [if_neg (by rw [hopen]; decide), hoffVm] at hrecover
  cases hrecover
  exact (Alike.of_onlyHints hhints).trans (Alike.of_onlyHints honly)

/-!
## The record that destroy releases the VM from
-/

theorem awaitPolls_result {look : Look} {wait polls : Nat} : forall left unreadable : Nat,
    awaitPolls (fun _ => look) wait polls left unreadable = .ok result ->
      observeRemote look = .ok (.result result) := by
  intro left
  induction left with
  | zero =>
      intro unreadable h
      unfold awaitPolls at h
      split at h <;> cases h
  | succ left ih =>
      intro unreadable h
      unfold awaitPolls at h
      split at h
      · cases h
      · next hobserve =>
          cases h
          exact hobserve
      · cases h
      · cases h
      · cases h
      · exact ih _ h
      · exact ih _ h
      · exact ih _ h

theorem absorbAwaited_alike (h : x.NoResult env) (halike : Alike env env') (wait : Nat) :
    Alike env (Destroy.absorbAwaited (x.answers a) wait env').2 := by
  unfold Destroy.absorbAwaited
  cases hawait : awaitRunnerResult (x.answers a).looks wait with
  | error why => exact halike.trans (Alike.of_onlyHints (addHint_onlyHints env' _))
  | ok result =>
      have hobserve : observeRemote x.look = .ok (.result result) := awaitPolls_result _ _ hawait
      rcases h.right with hlost | ⟨result', error, hresult, hrejects⟩
      · rcases observe_lost hlost env with ⟨observation, reason, hobserve', hend⟩
        cases hobserve'.symm.trans hobserve
        cases hend
      · cases (observe_result hresult).symm.trans hobserve
        rcases Alike.absorbResult_error_alike halike hrejects x.now with ⟨error', hrejects'⟩
        have hremote : absorbRemoteResult env' (x.answers a).waitAbsorb.plan result
            (x.answers a).waitAbsorb.now = .error error' := hrejects'
        simp only [hremote]
        exact halike.trans (Alike.of_onlyHints (addHint_onlyHints env' _))

theorem takeOver_alike {current : Option JobEnvelope}
    {latest : Except String (Option JobEnvelope)} (halike : Alike env env')
    (hlatest : forall read, latest = .ok read -> read = some env) :
    Alike env (Destroy.takeOver args current latest env') := by
  have hadd : forall {taken : JobEnvelope} (hint : String), Alike env taken ->
      Alike env (taken.addHint hint) :=
    fun hint htaken => htaken.trans (Alike.of_onlyHints (addHint_onlyHints _ hint))
  unfold Destroy.takeOver
  cases latest with
  | error error =>
      cases current with
      | none => exact hadd _ (hadd _ halike)
      | some current => exact hadd _ (hadd _ halike)
  | ok read =>
      cases hlatest read rfl
      cases current with
      | none => exact hadd _ (Alike.refl env)
      | some current => exact hadd _ (Alike.refl env)

theorem before_alike {transport : Bool} (launched : Launched env) (h : x.NoResult env)
    (hbefore : Records.Before args (x.answers a) env transport env') : Alike env env' := by
  cases hbefore with
  | read hread _ => exact read_alike launched h hread
  | awaited hread _ _ => exact absorbAwaited_alike h (read_alike launched h hread) args.wait
  | tookOver current latest hread _ _ hlatest =>
      exact takeOver_alike (read_alike launched h hread) hlatest

theorem before_absorbs {transport : Bool} {absorbed : JobEnvelope} (launched : Launched env)
    (h : x.Absorbs env absorbed) (hended : absorbed.workload.terminal = true)
    (hbefore : Records.Before args (x.answers a) env transport env') : Alike absorbed env' := by
  have hstill : forall {transport : Bool} {read : JobEnvelope}, Alike absorbed read ->
      Records.waits args (x.answers a) transport read = false := by
    intro transport read halike
    unfold Records.waits
    rw [halike.workload, hended]
    rfl
  cases hbefore with
  | read hread _ => exact read_absorbs launched h hended hread
  | awaited hread hwaits _ =>
      cases (hstill (read_absorbs launched h hended hread)).symm.trans hwaits
  | tookOver current latest hread hwaits _ _ =>
      cases (hstill (read_absorbs launched h hended hread)).symm.trans hwaits

theorem destroys_only (launched : Launched env) (hfull : args.cancelOnly = false)
    {good : JobEnvelope -> Prop}
    (hgood : forall before note confirmed outcome,
      Records.Before args (x.answers a) env true before ->
        good (Destroy.destroyedVerdict (some x.plan) note confirmed outcome
          (Records.destroyReleased (x.answers a) "unassign failed" true before)))
    {last : JobEnvelope} (h : Destroys x args a env last) : good last := by
  have hstart : Records.Only good (some env) (Concurrent.desk (some env)) := Records.only_desk _
  have hopen := openTransport_run (x := x) (a := a) launched
  have honly : Records.Only good (some env)
      (Destroy.destroy args (x.answers a) (Concurrent.desk (some env))).2 := by
    unfold Destroy.destroy
    cases (x.answers a).envelope with
    | some text => exact hstart
    | none =>
        rw [Prog.bind_run_ok (Command.readEnvelope_none _)]
        simp only [Concurrent.desk]
        rw [show (x.answers a).plan = .ok (some x.plan) from rfl, Except.mapError, Command.lift_ok,
          Prog.bind_run_ok (Prog.pure_run _ _), hopen, Command.lift_ok,
          Prog.bind_run_ok (Prog.pure_run _ _)]
        cases hread : Destroy.recover (x.answers a) (Destroy.reconcile (x.answers a) true env) with
        | error text => exact hstart
        | ok read =>
            rw [Command.lift_ok, Prog.bind_run_ok (Prog.pure_run _ _),
              Prog.bind_run_ok (Command.modifyEnv_run _ _)]
            exact Records.conclude_released (s := ⟨read, some env, []⟩) (Records.alone_alone _)
              hfull ⟨hopen, hread⟩ rfl hgood (Records.only_replace hstart read)
  exact honly.left last h

/-!
## The record that status releases the VM from
-/

/-- What `status` puts on disk when it releases the VM of this record. -/
def Releases (x : Sight) (b : Status.Answers) (env last : JobEnvelope) : Prop :=
  keepVm env (some x.plan.spec) true = false ∧
    .wrote last ∈ (Status.releaseOrphanedJob { b with keepPlan := .ok (some x.plan) }
      (Concurrent.desk (some env))).2.log

theorem releases_only {b : Status.Answers} {polled last : JobEnvelope}
    (h : Releases x b polled last) : exists released, Recorded polled released ∧
      last = Status.orphanVerdict released := by
  rcases h with ⟨hnot, hwrote⟩
  have honly := (Records.releaseOrphanedJob_only { b with keepPlan := .ok (some x.plan) }
    (s := { env := polled, disk := some polled, log := [] }) (S := Records.Ended
      { b with keepPlan := .ok (some x.plan) } polled) (Records.only_desk _) fun last h => h).left
  cases honly.left last hwrote with
  | kept spec hspec hkeep =>
      cases hspec
      cases hnot.symm.trans hkeep
  | released spec hspec _ => exact ⟨_, released_recorded true _ _ _ _ polled, rfl⟩

/-!
## The three verdicts
-/

/-- The verdict is the same whoever records it: the result's, where there is one to absorb.
Where there is none the workload is unknown to all three; apply and status blame the run, and
would retry one that was lost, while `destroy` would not and blames nothing. -/
theorem verdicts_agree (x : Sight) (env : JobEnvelope) (launched : Launched env)
    (ours : ApplyRun x env) (orphan : StatusRun x env) (args : Destroy.Args)
    (a : Destroy.Answers) (hfull : args.cancelOnly = false) :
    (forall absorbed, x.Absorbs env absorbed ->
      exists applied polled, ours.Records applied ∧ orphan.Leaves polled ∧
        Alike absorbed applied ∧ Alike applied polled ∧
        keepVm polled (some x.plan.spec) true = keepVm applied (some x.plan.spec) true ∧
        (forall b last, Releases x b polled last -> Recorded applied last) ∧
        (absorbed.workload.terminal = true -> forall last, Destroys x args a env last ->
          Recorded applied last)) ∧
    (x.NoResult env ->
      exists applied polled, ours.Records applied ∧ orphan.Leaves polled ∧
        applied.workload = .unknown ∧ polled.workload = .unknown ∧
        applied.failedPhase = env.failedPhase.or (some .run) ∧
        polled.failedPhase = applied.failedPhase ∧
        keepVm polled (some x.plan.spec) true = keepVm applied (some x.plan.spec) true ∧
        applied.retryClass = some .retrySame ∧
        (x.Lost -> polled.retryClass = applied.retryClass) ∧
        (x.plan.spec.artifacts ≠ [] -> forall b last, Releases x b polled last ->
          last.offload = applied.offload) ∧
        (forall last, Destroys x args a env last ->
          last.workload = .unknown ∧ last.offload = applied.offload ∧
            last.retryClass = some .doNotRetry ∧ last.failedPhase =
              env.failedPhase.or (if last.cleanup = .failed then some .cleanup else none))) := by
  constructor
  · intro absorbed habsorbs
    rcases ours.absorbs habsorbs with ⟨applied, hours, happlied⟩
    rcases orphan.absorbs habsorbs with ⟨polled, horphan, hpolled⟩
    have halike : Alike applied polled := happlied.symm.trans hpolled
    have hclosed : applied.offload.terminal = true := by
      rcases habsorbs with ⟨result, _, habsorb⟩
      rw [happlied.offload]
      exact (Absorb.absorbResult_spec habsorb).2.2
    refine ⟨applied, polled, hours, horphan, happlied, halike, halike.keepVm _ _, ?_, ?_⟩
    · intro b last hreleases
      rcases releases_only hreleases with ⟨released, hreleased, rfl⟩
      exact orphanVerdict_recorded (hreleased.of_alike halike) hclosed
    · intro hended last hdestroys
      refine destroys_only launched hfull ?_ hdestroys
      intro before note confirmed outcome hbefore
      have hread : Alike applied before :=
        happlied.symm.trans (before_absorbs launched habsorbs hended hbefore)
      refine destroyedVerdict_recorded ((released_recorded true _ _ _ _ before).of_alike hread)
        ?_ _ _ _ _
      rw [happlied.workload, hended]
  · intro hnothing
    rcases ours.gives_up hnothing with ⟨applied, hours, happlied⟩
    rcases orphan.gives_up hnothing with ⟨polled, horphan, hpolled, hretries⟩
    have hkeep : keepVm polled (some x.plan.spec) true =
        keepVm applied (some x.plan.spec) true := by
      unfold keepVm
      rw [hpolled.leaveUp, hpolled.artifacts, happlied.leaveUp, happlied.artifacts]
      rfl
    refine ⟨applied, polled, hours, horphan, happlied.workload, hpolled.workload,
      happlied.failedPhase, hpolled.failedPhase.trans happlied.failedPhase.symm, hkeep,
      happlied.retryClass, fun hlost => (hretries hlost).trans happlied.retryClass.symm, ?_, ?_⟩
    · intro hdeclared b last hreleases
      rcases releases_only hreleases with ⟨released, hreleased, rfl⟩
      have hoffload := hpolled.offload
      rw [orphanVerdict_offload, orphanVerdict_offload] at hoffload
      rw [orphanVerdict_offload, hreleased.offload, hoffload, happlied.offload, unknown]
      simp only [List.isEmpty_iff, hdeclared, if_false]
    · intro last hdestroys
      have hforgone : Forgone x.plan.spec env last := by
        refine destroys_only launched hfull ?_ hdestroys
        intro before note confirmed outcome hbefore
        exact destroyedVerdict_forgone ((released_recorded true _ _ _ _ before).of_alike
          (before_alike launched hnothing hbefore)) launched.workload x.plan note confirmed outcome
      exact ⟨hforgone.workload, hforgone.offload.trans happlied.offload.symm,
        hforgone.retryClass, hforgone.failedPhase⟩

/-!
## A job at its end
-/

def seen (read : Option Json.Fields × Transport.ReadStatus) : Sight where
  plan := { jobId := "j", spec := Absorb.plainSpec }
  look := ⟨.ok read, .ok (none, .notFound), .ok (none, .notFound)⟩
  fetch := .error ""
  now := "now"

def firstTick (x : Sight) (env : JobEnvelope) : ApplyRun x env where
  deadline := 1
  closing := {}
  earlier := []
  last := { time := 0 }
  later := []
  launched := { env, disk := none }
  before := (0, { env, disk := none })
  alike := Alike.refl env
  goesOn := .refl _
  inTime := by decide

def firstPass (x : Sight) (env : JobEnvelope) : StatusRun x env where
  args := ⟨"j", true⟩
  deadline := none
  earlier := []
  last := Absence.tooEarly
  later := []
  staleness := {}
  orphan := env
  before := ({}, env)
  polls := rfl
  alike := Alike.refl env
  goesOn := .refl _
  inTime := rfl
  keepAlive := ⟨none, rfl⟩

theorem verdicts_agree_succeeded :
    exists absorbed applied polled,
      (firstTick (seen (some (Absorb.warned "offload"), .ok)) Destroy.launched).Records applied ∧
      (firstPass (seen (some (Absorb.warned "offload"), .ok)) Destroy.launched).Leaves polled ∧
      absorbed.workload = .succeeded ∧ Alike absorbed applied ∧ Alike applied polled ∧
      forall last, Destroys (seen (some (Absorb.warned "offload"), .ok)) ⟨"j", false, 300⟩
        (Destroy.allGuardedFail (.ok none)) Destroy.launched last -> Recorded applied last := by
  have habsorbs : exists absorbed, (seen (some (Absorb.warned "offload"), .ok)).Absorbs
      Destroy.launched absorbed ∧ absorbed.workload = .succeeded :=
    ⟨_, ⟨Absorb.warned "offload", .read ⟨_, rfl, rfl⟩, rfl⟩, rfl⟩
  rcases habsorbs with ⟨absorbed, habsorbs, hsucceeded⟩
  have hagree := verdicts_agree (seen (some (Absorb.warned "offload"), .ok)) Destroy.launched
    ⟨rfl, rfl⟩ (firstTick _ _) (firstPass _ _) ⟨"j", false, 300⟩
    (Destroy.allGuardedFail (.ok none)) rfl
  rcases hagree.left absorbed habsorbs with
    ⟨applied, polled, hours, horphan, happlied, hpolled, _, _, hdestroys⟩
  exact ⟨absorbed, applied, polled, hours, horphan, hsucceeded, happlied, hpolled,
    hdestroys (by rw [hsucceeded]; rfl)⟩

/-- An assignment that is gone: apply blames the run and would retry it, and a `destroy` of
the same job would not, and blames nothing. -/
theorem verdicts_differ :
    exists (x : Sight) (env : JobEnvelope) (ours : ApplyRun x env) (orphan : StatusRun x env)
      (args : Destroy.Args) (a : Destroy.Answers) (applied polled last : JobEnvelope),
      Launched env ∧ x.Gone ∧ args.cancelOnly = false ∧ ours.Records applied ∧
      orphan.Leaves polled ∧ Destroys x args a env last ∧
      applied.retryClass = some .retrySame ∧ last.retryClass = some .doNotRetry ∧
      applied.failedPhase = some .run ∧ last.failedPhase = none := by
  let x := seen (none, .sessionLost)
  have hgone : x.Gone := ⟨_, rfl, rfl⟩
  have hnothing : x.NoResult Destroy.launched := ⟨⟨_, rfl⟩, Or.inl (Or.inl hgone)⟩
  rcases (firstTick x Destroy.launched).gives_up hnothing with ⟨applied, hours, happlied⟩
  rcases (firstPass x Destroy.launched).gives_up hnothing with ⟨polled, horphan, _⟩
  have hwrote : exists last, Destroys x ⟨"j", false, 300⟩ (Destroy.allGuardedFail (.ok none))
      Destroy.launched last ∧ last.retryClass = some .doNotRetry ∧ last.failedPhase = none :=
    ⟨_, List.Mem.head _, rfl, rfl⟩
  rcases hwrote with ⟨last, hwrote, hretry, hfailed⟩
  exact ⟨x, Destroy.launched, firstTick _ _, firstPass _ _, _, _, applied, polled, last,
    ⟨rfl, rfl⟩, hgone, rfl, hours, horphan, hwrote, happlied.retryClass, hretry,
    happlied.failedPhase, hfailed⟩

end Supervisors
end Job
end MightyColab
