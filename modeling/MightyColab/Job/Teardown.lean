import MightyColab.Job.Coherent
import MightyColab.Job.DoneFinal
import MightyColab.Job.Provision

/-!
# Teardown and the verdict

What `destroy`, `status` and apply's cleanup do to the verdict of a job that has one. Only
a failed release may be recorded beside it. They also absorb a result once more over a
verdict that is there, and fill in what it left empty.
-/

namespace MightyColab
namespace Job

open Lib

namespace Teardown

open Concurrent

/-!
## Verdicts
-/

def ending (env : JobEnvelope) :
    Workload × Offload × Option Int × Option RetryClass × Option String :=
  (env.workload, env.offload, env.exitCode, env.retryClass, env.reason)

structure SameVerdict (env env' : JobEnvelope) : Prop where
  said : ending env' = ending env
  failedPhase : env'.failedPhase = env.failedPhase

/-- The verdict of `t`, or that with a failed release where it had no failure. -/
def Says (failed : List Deed -> Prop) (t : JobEnvelope) (log : List Deed)
    (env : JobEnvelope) : Prop :=
  ending env = ending t ∧
    (env.failedPhase = t.failedPhase ∨
      t.failedPhase = none ∧ env.failedPhase = some .cleanup ∧ failed log)

def Judged (env : JobEnvelope) : Prop :=
  env.workload.terminal = true ∧ env.offload.terminal = true

/-- An absorbed result never takes a failure back, and is none of the cleanup. -/
def Later (env t : JobEnvelope) : Prop :=
  t.failedPhase = env.failedPhase ∨ env.failedPhase = none ∧ t.failedPhase ≠ some .cleanup

variable {failed : List Deed -> Prop} {t env env' : JobEnvelope} {log : List Deed}

theorem SameVerdict.trans {env'' : JobEnvelope} (h : SameVerdict env env')
    (h' : SameVerdict env' env'') : SameVerdict env env'' :=
  ⟨h'.said.trans h.said, h'.failedPhase.trans h.failedPhase⟩

theorem SameVerdict.of_onlyHints (h : OnlyHints env env') : SameVerdict env env' :=
  ⟨h.same ending, h.same JobEnvelope.failedPhase⟩

theorem SameVerdict.judged (h : SameVerdict env env') (hjudged : Judged env) :
    Judged env' := by
  have hwork : env'.workload = env.workload := congrArg Prod.fst h.said
  have hoff : env'.offload = env.offload := congrArg (fun e => e.2.1) h.said
  rw [Judged, hwork, hoff]
  exact hjudged

theorem says_self : Says failed t log t := ⟨rfl, Or.inl rfl⟩

theorem says_same (h : Says failed t log env) (hsame : SameVerdict env env') :
    Says failed t log env' :=
  ⟨hsame.said.trans h.left, by rw [hsame.failedPhase]; exact h.right⟩

theorem says_of (hsame : SameVerdict env t) (h : Says failed t log env') :
    Says failed env log env' := by
  rcases h with ⟨hending, hphase⟩
  refine ⟨hending.trans hsame.said, ?_⟩
  rw [← hsame.failedPhase]
  exact hphase

theorem kept_of {s : Desk} (hsame : SameVerdict env t) (h : Kept (Says failed t) s) :
    Kept (Says failed env) s :=
  ⟨says_of hsame h.env, fun newer e older hlog => says_of hsame (h.wrote newer e older hlog)⟩

theorem sameVerdict_of_tells {e : JobEnvelope} (hlater : Later env t)
    (h : Says failed t log e) (h' : Says failed env log e) : SameVerdict env t := by
  refine ⟨h.left.symm.trans h'.left, ?_⟩
  rcases hlater with heq | ⟨hnone, hother⟩
  · exact heq
  · rcases h.right with ht | ⟨ht, _, _⟩
    · rcases h'.right with henv | ⟨_, hcleanup, _⟩
      · exact ht.symm.trans henv
      · exact absurd (ht.symm.trans hcleanup) hother
    · exact ht.trans hnone.symm

theorem sameVerdict_of_not {e : JobEnvelope} (hfailed : ¬failed log)
    (h : Says failed t log e) (h' : Says failed env log e) : SameVerdict env t := by
  have ht := h.right.resolve_right fun hrelease => hfailed hrelease.2.2
  have henv := h'.right.resolve_right fun hrelease => hfailed hrelease.2.2
  exact ⟨h.left.symm.trans h'.left, ht.symm.trans henv⟩

theorem says_judged (h : Says failed t log env) (hjudged : Judged t) : Judged env := by
  have hwork : env.workload = t.workload := congrArg Prod.fst h.left
  have hoff : env.offload = t.offload := congrArg (fun e => e.2.1) h.left
  rw [Judged, hwork, hoff]
  exact hjudged

/-!
## What a release adds
-/

/-- A release was attempted and failed. -/
def ReleaseFailed (answer : ReleaseAnswer) (log : List Deed) : Prop :=
  exists endpoint, .release endpoint ∈ log ∧ (releaseAssignment answer endpoint).1 = .failed

theorem release_failedPhase (answer : Release) (failure : String) (env : JobEnvelope) :
    (release answer failure env).failedPhase = env.failedPhase ∨
      env.failedPhase = none ∧
        (release answer failure env).failedPhase = some .cleanup ∧
        exists endpoint, nonempty env.endpoint = some endpoint ∧
          (releaseAssignment answer.assignment endpoint).1 = .failed := by
  unfold release
  cases hend : nonempty env.endpoint with
  | none => exact Or.inl rfl
  | some endpoint =>
      simp only
      rcases readComputeUnits_onlyHints answer.units "release"
        { env with cleanup := (releaseAssignment answer.assignment endpoint).1 } with
        ⟨hints, hread⟩
      rw [hread]
      by_cases hout : (releaseAssignment answer.assignment endpoint).1 = .failed
      · simp only [hout, if_true]
        cases hphase : env.failedPhase with
        | none =>
            refine Or.inr ⟨rfl, ?_, endpoint, rfl, hout⟩
            split <;> simp [JobEnvelope.recordFailure, JobEnvelope.addHint]
        | some phase =>
            refine Or.inl ?_
            split <;> simp [JobEnvelope.recordFailure, JobEnvelope.addHint]
      · simp only [hout, if_false]
        split <;> exact Or.inl rfl

theorem says_closed (answer : Release) (t : JobEnvelope) :
    Closed answer (Says (ReleaseFailed answer.assignment) t) where
  hints _ _ _ hhints h := says_same h (SameVerdict.of_onlyHints hhints)
  write log env h := by
    refine ⟨h.left, h.right.imp id fun hfailed => ⟨hfailed.1, hfailed.2.1, ?_⟩⟩
    rcases hfailed.2.2 with ⟨endpoint, hmem, hout⟩
    exact ⟨endpoint, List.mem_cons_of_mem _ hmem, hout⟩
  release failure log env h := by
    refine ⟨(release_same answer failure env ending).trans h.left, ?_⟩
    rcases release_failedPhase answer failure env with hsame | ⟨hnone, hphase, endpoint, hend, hout⟩
    · rw [hsame]
      refine h.right.imp id fun hfailed => ⟨hfailed.1, hfailed.2.1, ?_⟩
      rcases hfailed.2.2 with ⟨endpoint, hmem, hout⟩
      exact ⟨endpoint, List.mem_append_right _ hmem, hout⟩
    · refine Or.inr ⟨?_, hphase, endpoint, ?_, hout⟩
      · rcases h.right with heq | ⟨heq, _, _⟩
        · exact heq.symm.trans hnone
        · exact heq
      · simp [hend]

/-!
## The verdicts that a judged record does not take
-/

theorem destroyedVerdict_same (plan : Option Plan) (note : Option String) (confirmed : Bool)
    (outcome : Option String) (h : Judged env) :
    SameVerdict env (Destroy.destroyedVerdict plan note confirmed outcome env) := by
  unfold Destroy.destroyedVerdict
  simp only [h.left, if_true]
  exact ⟨rfl, rfl⟩

theorem destroyForced_same (problem : String) (h : Judged env) :
    SameVerdict env (Destroy.forcedVerdict problem env) := by
  unfold Destroy.forcedVerdict
  simp only [h.left, if_true]
  exact ⟨rfl, rfl⟩

theorem statusForced_same (cause : Option String) (h : Judged env) :
    SameVerdict env (Status.forcedVerdict cause env) := by
  unfold Status.forcedVerdict
  simp only [h.left, if_true]
  exact ⟨rfl, rfl⟩

theorem orphanVerdict_same (h : Judged env) : SameVerdict env (Status.orphanVerdict env) := by
  unfold Status.orphanVerdict
  simp only [h.right, if_true]
  exact ⟨rfl, rfl⟩

/-!
## What absorbing does to the failed phase
-/

theorem recordFailure_later {phase : Phase} (hphase : phase ≠ .cleanup) (env : JobEnvelope) :
    Later env (env.recordFailure phase) := by
  unfold Later JobEnvelope.recordFailure
  cases henv : env.failedPhase with
  | none => exact Or.inr ⟨rfl, fun h => hphase (Option.some.inj h)⟩
  | some earlier => exact Or.inl rfl

theorem absorbOutcome_later {base : JobEnvelope} {spec : JobSpec} {result : Json.Fields}
    {stageFailed : Bool} {reason : Option String} {retry : Option RetryClass}
    (h : Absorb.absorbOutcome base spec result stageFailed reason retry = .ok env') :
    Later base env' := by
  unfold Absorb.absorbOutcome at h
  split at h
  · cases h
    exact recordFailure_later (by decide) _
  · rcases Fallible.bind_ok h with ⟨⟨workloadReason, workloadRetry⟩, _, h⟩
    simp only at h
    split at h
    · cases h
      exact recordFailure_later (by decide) _
    · split at h
      · cases h
        exact recordFailure_later (by decide) _
      · cases h
        exact Or.inl rfl

theorem absorbRemoteResult_later {plan : PlanRead} {result : Json.Fields} {now : String}
    (h : absorbRemoteResult env plan result now = .ok env') : Later env env' := by
  unfold absorbRemoteResult at h
  split at h
  · cases h
  · rcases Absorb.absorbResult_steps h with ⟨env1, env2, artifacts, stageFailed, hprovenance,
      _, _, ⟨base, houtcome, _, hfailed, _⟩, _, _, hphase, _⟩
    have hlater := absorbOutcome_later houtcome
    have hbase : base.failedPhase = env.failedPhase := by
      rw [hfailed, (Absorb.absorbProvenance_phase hprovenance).right,
        Absorb.absorbPhase_failedPhase]
    rw [Later, hbase, ← hphase] at hlater
    exact hlater
  · rcases Fallible.bind_ok h with ⟨env1, hprovenance, h⟩
    rcases Fallible.bind_ok h with ⟨workload, _, h⟩
    rcases Fallible.bind_ok h with ⟨exitCode, _, h⟩
    rcases Fallible.bind_ok h with ⟨signal, _, h⟩
    rcases Fallible.bind_ok h with ⟨exception, _, h⟩
    cases h
    exact Or.inl (Absorb.absorbProvenance_phase hprovenance).right

/-- What absorbing a result, or giving it up with a hint, leaves of a record. -/
structure Absorbed (env env' : JobEnvelope) : Prop where
  later : Later env env'
  offload : env.offload.terminal = true -> env'.offload.terminal = true

theorem Absorbed.trans {env'' : JobEnvelope} (h : Absorbed env env')
    (h' : Absorbed env' env'') : Absorbed env env'' := by
  refine ⟨?_, fun hoff => h'.offload (h.offload hoff)⟩
  have hfirst := h.later
  have hsecond := h'.later
  unfold Later at *
  rcases hsecond with heq | ⟨hnone, hother⟩
  · rw [heq]
    exact hfirst
  · rcases hfirst with heq | ⟨hnone', _⟩
    · exact Or.inr ⟨heq.symm.trans hnone, hother⟩
    · exact Or.inr ⟨hnone', hother⟩

theorem Absorbed.of_onlyHints (h : OnlyHints env env') : Absorbed env env' := by
  refine ⟨Or.inl (h.same JobEnvelope.failedPhase), fun hoff => ?_⟩
  rw [h.same JobEnvelope.offload]
  exact hoff

theorem absorbRemoteResult_absorbed {plan : PlanRead} {result : Json.Fields} {now : String}
    (h : absorbRemoteResult env plan result now = .ok env') : Absorbed env env' := by
  refine ⟨absorbRemoteResult_later h, fun hopen => ?_⟩
  rcases (absorbRemoteResult_spec h).2.2 with ⟨_, _, hoff⟩ | ⟨_, hoff⟩
  · exact hoff
  · rw [hoff]
    exact hopen

theorem recoverOffVmResult_absorbed {answer : OffVm} {r : Bool × JobEnvelope}
    (h : recoverOffVmResult answer env = .ok r) : Absorbed env r.2 := by
  unfold recoverOffVmResult at h
  split at h
  · cases h
  · cases h
    refine Absorbed.of_onlyHints ?_
    simp only
    split
    · exact addHint_onlyHints env _
    · exact OnlyHints.refl env
  · split at h
    · next habsorb =>
        cases h
        exact absorbRemoteResult_absorbed habsorb
    · cases h
      exact Absorbed.of_onlyHints (addHint_onlyHints env _)

theorem workload_value_inj {w w' : Workload} (h : w.value = w'.value) : w = w' := by
  cases w <;> cases w' <;> first | rfl | exact absurd h (by decide)

theorem isTerminalValue_true {result : Json.Fields} {workload : Workload}
    (h : isTerminalValue (result.get "workload") = .ok true)
    (hvalue : Absorb.workloadOf result = .ok workload) : workload.terminal = true := by
  unfold isTerminalValue at h
  split at h
  · rw [Except.ok.injEq, List.any_eq_true] at h
    rcases h with ⟨w, _, hw⟩
    rw [Bool.and_eq_true, decide_eq_true_eq] at hw
    have hlookup : result.getD "workload" (.str "unknown") = .str w.value := by
      have hget := hw.right
      unfold Json.Fields.get at hget
      unfold Json.Fields.getD
      cases hfound : result.lookup "workload" with
      | none =>
          rw [hfound] at hget
          cases hget
      | some value =>
          rw [hfound] at hget
          cases value with
          | str s => exact congrArg Json.str (Option.some.inj hget)
          | _ => cases hget
    have hsame := (Absorb.workloadOf_value hvalue).symm.trans hlookup
    rw [Json.str.injEq] at hsame
    rw [workload_value_inj hsame]
    exact hw.left
  · cases h

theorem readOffVmResult_terminal {answer : OffVm} {result : Json.Fields}
    {problem : Option String} {workload : Workload}
    (h : readOffVmResult answer = .ok (some result, problem))
    (hvalue : Absorb.workloadOf result = .ok workload) : workload.terminal = true := by
  unfold readOffVmResult at h
  split at h
  · cases h
  · cases h
  · split at h
    · cases h
    · split at h
      · cases h
      · simp only at h
        split at h
        · cases h
        · next hterminal =>
            cases h
            exact isTerminalValue_true hterminal hvalue
        · cases h

theorem recoverOffVmResult_terminal {answer : OffVm} {r : Bool × JobEnvelope}
    (h : recoverOffVmResult answer env = .ok r) (hwork : env.workload.terminal = true) :
    r.2.workload.terminal = true := by
  unfold recoverOffVmResult at h
  split at h
  · cases h
  · cases h
    simp only
    split <;> exact hwork
  · next hread =>
      split at h
      · next habsorb =>
          cases h
          exact readOffVmResult_terminal hread (absorbRemoteResult_spec habsorb).2.1
      · cases h
        exact hwork

/-!
## `destroy`
-/

section Destroying

variable (args : Destroy.Args) (a : Destroy.Answers)

/-- What `destroy` reads of the result: the record with it, if no step before raises. -/
def destroyReads (env : JobEnvelope) : Except String (Bool × JobEnvelope) := do
  let _ ← a.plan.mapError PlanError.text
  let transport ← Destroy.openTransport a env
  let env ← Destroy.recover a (Destroy.reconcile a transport env)
  return (transport, env)

/-- The reason that a `--cancel-only` which keeps the VM puts in where there is none. -/
def withReason (env : JobEnvelope) : JobEnvelope :=
  { env with
    reason := some ((nonempty env.reason).getD "workload already terminal; VM left running") }

/-- A `--cancel-only` whose credential file is removed. -/
def keepsVm (transport : Bool) (env : JobEnvelope) : Bool :=
  args.cancelOnly && (Destroy.removeSecret a transport env).1

/-- What `destroy` reads of the result brings the verdict that is there, and a
`--cancel-only` finds a reason. -/
def DestroySpares (env : JobEnvelope) : Prop :=
  a.envelope = none -> forall transport env', destroyReads a env = .ok (transport, env') ->
    SameVerdict env (if keepsVm args a transport env' then withReason env' else env')

/-- Where the result read is that of a run that has ended. -/
def ReadsEnd (env : JobEnvelope) : Prop :=
  forall transport env', destroyReads a env = .ok (transport, env') ->
    env'.workload.terminal = true

theorem reconcile_absorbed (transport : Bool) (env : JobEnvelope) :
    Absorbed env (Destroy.reconcile a transport env) := by
  unfold Destroy.reconcile
  cases transport with
  | false => exact Absorbed.of_onlyHints (OnlyHints.refl env)
  | true =>
      simp only [Bool.not_true, Bool.false_eq_true, if_false]
      split
      · exact Absorbed.of_onlyHints (addHint_onlyHints env _)
      · split
        · split
          · next h =>
              have habsorbed := absorbRemoteResult_absorbed h
              exact ⟨habsorbed.later, habsorbed.offload⟩
          · exact Absorbed.of_onlyHints (addHint_onlyHints env _)
        · split
          · exact Absorbed.of_onlyHints (OnlyHints.refl env)
          · exact Absorbed.of_onlyHints (addHint_onlyHints env _)

variable {a} in
theorem recover_absorbed (h : Destroy.recover a env = .ok env') : Absorbed env env' := by
  unfold Destroy.recover at h
  split at h
  · cases h
    exact Absorbed.of_onlyHints (OnlyHints.refl env)
  · cases hrecover : recoverOffVmResult a.offVm env with
    | error text =>
        rw [hrecover] at h
        cases h
    | ok r =>
        have habsorbed := recoverOffVmResult_absorbed hrecover
        rcases r with ⟨found, recovered⟩
        rw [hrecover] at h
        cases found with
        | true =>
            cases h
            exact ⟨habsorbed.later, habsorbed.offload⟩
        | false =>
            cases h
            exact habsorbed

variable {a} in
theorem destroyReads_ok {transport : Bool}
    (h : destroyReads a env = .ok (transport, env')) :
    exists plan, a.plan = .ok plan ∧ Destroy.openTransport a env = .ok transport ∧
      Destroy.recover a (Destroy.reconcile a transport env) = .ok env' := by
  unfold destroyReads at h
  rcases Fallible.bind_ok h with ⟨plan, hplan, h⟩
  rcases Fallible.bind_ok h with ⟨opened, hopen, h⟩
  rcases Fallible.bind_ok h with ⟨recovered, hrecover, h⟩
  cases h
  cases hread : a.plan with
  | error error =>
      rw [hread] at hplan
      cases hplan
  | ok plan => exact ⟨plan, rfl, hopen, hrecover⟩

theorem cancelOnlyVerdict_same (note : Option String) (confirmed : Bool)
    (h : env.workload.terminal = true) :
    SameVerdict (withReason env) (Destroy.cancelOnlyVerdict note confirmed env) := by
  unfold Destroy.cancelOnlyVerdict withReason
  simp only [h, if_true]
  exact ⟨rfl, rfl⟩

/-- From a record with a verdict, the command ends with that verdict, or with the reason
that its `--cancel-only` puts in. -/
theorem conclude_tells {s : Desk} (plan : Option Plan) (transport : Bool)
    (hjudged : Judged s.env) (hlog : s.log = []) :
    Kept (Says (ReleaseFailed a.release.assignment)
        (if keepsVm args a transport s.env then withReason s.env else s.env))
      (Destroy.conclude args a plan transport s).2 := by
  have hstart : Kept (Says (ReleaseFailed a.release.assignment) s.env) s := by
    refine ⟨says_self, ?_⟩
    rw [hlog]
    exact wrote_nil
  have hclosed := says_closed a.release s.env
  unfold Destroy.conclude keepsVm
  rw [Prog.bind_run_ok (Prog.get_run s)]
  simp only
  cases hcancel : args.cancelOnly with
  | false =>
      simp only [Bool.false_and, Bool.false_eq_true, if_false]
      rw [Prog.bind_run_ok (DoneFinal.await_settled args a transport _ hjudged.left)]
      exact hclosed.releaseAndRecord plan transport _ _ none (fun _ env h =>
        says_same h (destroyedVerdict_same plan _ _ none (says_judged h hjudged))) s hstart
  | true =>
      cases hremoved : (Destroy.removeSecret a transport s.env).1 with
      | false =>
          simp only [Bool.and_false, Bool.false_eq_true, if_false, Bool.not_false,
            Bool.and_true, if_true]
          exact hclosed.releaseForced transport _ (fun _ env text h =>
            says_same h (destroyForced_same text (says_judged h hjudged))) s hstart
      | true =>
          simp only [Bool.and_true, if_true, Bool.not_true, Bool.and_false,
            Bool.false_eq_true, if_false]
          unfold Destroy.leaveRunning
          rw [Prog.bind_run_ok (Command.modifyEnv_run _ _)]
          refine Prog.Keeps.bind (kept_write (says_closed a.release (withReason s.env)).write _)
            (fun _ => kept_still fun t => ?_) _ ⟨?_, ?_⟩
          · cases a.emit with
            | some text => rfl
            | none =>
                simp only [Command.attempted_none, Prog.bind_run, Prog.pure_run, Prog.get_run]
                split <;> rfl
          · exact says_same says_self (cancelOnlyVerdict_same _ _ hjudged.left)
          · rw [hlog]
            exact wrote_nil

/-- Where the result read is that of a run that has ended, `destroy` ends with what it
read. -/
theorem destroy_tells {transport : Bool} (hread : a.envelope = none)
    (hreads : destroyReads a env = .ok (transport, env')) (hjudged : Judged env') :
    Kept (Says (ReleaseFailed a.release.assignment)
        (if keepsVm args a transport env' then withReason env' else env'))
      (Destroy.destroy args a (desk (some env))).2 := by
  rcases destroyReads_ok hreads with ⟨plan, hplan, hopen, hrecover⟩
  unfold Destroy.destroy
  rw [hread, Prog.bind_run_ok (Command.readEnvelope_none _)]
  simp only [desk]
  rw [hplan, Except.mapError, Command.lift_ok, Prog.bind_run_ok (Prog.pure_run _ _), hopen,
    Command.lift_ok, Prog.bind_run_ok (Prog.pure_run _ _), hrecover, Command.lift_ok,
    Prog.bind_run_ok (Prog.pure_run _ _), Prog.bind_run_ok (Command.modifyEnv_run _ _)]
  exact conclude_tells (s := ⟨env', some env, []⟩) args a plan transport hjudged rfl

theorem destroy_raises
    (h : a.envelope = none -> forall transport env', destroyReads a env ≠ .ok (transport, env')) :
    Kept (Says (ReleaseFailed a.release.assignment) env)
      (Destroy.destroy args a (desk (some env))).2 := by
  have hstart : Kept (Says (ReleaseFailed a.release.assignment) env) (desk (some env)) :=
    ⟨says_self, wrote_nil⟩
  unfold Destroy.destroy
  cases hread : a.envelope with
  | some text => exact hstart
  | none =>
      rw [Prog.bind_run_ok (Command.readEnvelope_none _)]
      simp only [desk]
      cases hplan : a.plan with
      | error error => exact hstart
      | ok plan =>
          rw [Except.mapError, Command.lift_ok, Prog.bind_run_ok (Prog.pure_run _ _)]
          cases hopen : Destroy.openTransport a env with
          | error text => exact hstart
          | ok transport =>
              rw [Command.lift_ok, Prog.bind_run_ok (Prog.pure_run _ _)]
              cases hrecover : Destroy.recover a (Destroy.reconcile a transport env) with
              | error text => exact hstart
              | ok env' =>
                  refine absurd ?_ (h hread transport env')
                  simp [destroyReads, hplan, hopen, hrecover, Except.mapError, bind, Except.bind,
                    pure, Except.pure]

theorem destroy_kept (hjudged : Judged env) (h : DestroySpares args a env) :
    Kept (Says (ReleaseFailed a.release.assignment) env)
      (Destroy.destroy args a (desk (some env))).2 := by
  by_cases hreads : a.envelope = none ∧
      exists transport env', destroyReads a env = .ok (transport, env')
  · rcases hreads with ⟨hread, transport, env', hreads⟩
    have hsame := h hread transport env' hreads
    have hjudged' : Judged env' := by
      have hboth := hsame.judged hjudged
      split at hboth <;> exact hboth
    exact kept_of hsame (destroy_tells args a hread hreads hjudged')
  · refine destroy_raises args a fun hread transport env' hok => hreads ?_
    exact ⟨hread, transport, env', hok⟩

theorem destroy_spares (hjudged : Judged env) (hend : ReadsEnd a env)
    (h : Kept (Says (ReleaseFailed a.release.assignment) env)
      (Destroy.destroy args a (desk (some env))).2) : DestroySpares args a env := by
  intro hread transport env' hreads
  rcases destroyReads_ok hreads with ⟨plan, _, _, hrecover⟩
  have habsorbed := (reconcile_absorbed a transport env).trans (recover_absorbed hrecover)
  have hjudged' : Judged env' :=
    ⟨hend transport env' hreads, habsorbed.offload hjudged.right⟩
  have hsays := destroy_tells args a hread hreads hjudged'
  refine sameVerdict_of_tells ?_ hsays.env h.env
  split
  · exact habsorbed.later
  · exact habsorbed.later

end Destroying

/-!
## `status`
-/

section Asking

variable (args : Status.Args) (a : Status.Answers)

/-- What a `status` of a job that has a verdict comes to. -/
inductive Turnout where
  /-- No release, or the run ends before one. -/
  | asIs (env : JobEnvelope)
  /-- A release because the credential file may still be on the VM. -/
  | forced (env : JobEnvelope)
  /-- The end of an orphan. -/
  | ended (env : JobEnvelope)

def sessionTurnout (orphan : Bool) (env : JobEnvelope) : Turnout :=
  match Status.ensureKeepAlive a.keepAlive env with
  | .error _ => .asIs env
  | .ok env =>
      if a.transport.isSome then .asIs env
      else if Status.mustScrub orphan env && !(scrubReport a.scrub).1 then .forced env
      else if orphan then .ended env
      else .asIs env

def turnout (env : JobEnvelope) : Turnout :=
  match a.envelope, a.supervisorAlive with
  | none, .ok alive =>
      let env := Status.noteSupervisor alive env
      let orphan := Status.orphaned alive env
      if (nonempty env.session).isSome && Status.cleanupPending env then
        match a.session with
        | .error _ => .asIs env
        | .ok true => sessionTurnout a orphan env
        | .ok false => if Status.mustScrub orphan env then .forced env else .asIs env
      else .asIs env
  | _, _ => .asIs env

/-- The record with the result at `control.result`, if there is one to absorb. -/
def recovered (env : JobEnvelope) : JobEnvelope :=
  match Status.recover a.offVm env with
  | .ok env => env
  | .error _ => env

def keptUp (env : JobEnvelope) : JobEnvelope :=
  match Status.keepSpec a.keepPlan with
  | .ok spec => if keepVm env spec true then recordVmKept env env.jobId else env
  | .error _ => env

/-- The supervisor is not found gone, or that is the reason already; `control.result` is
not absorbed once more, or brings the verdict there is; and no VM is kept with descendants
on it, or there is a failure, a reason and a class already. -/
def StatusSpares (env : JobEnvelope) : Prop :=
  match turnout a env with
  | .asIs env' => SameVerdict env env'
  | .forced env' => SameVerdict env (recovered a env')
  | .ended env' => SameVerdict env (keptUp a env')

def Ends (turnout : Turnout) (s : Desk) : Prop :=
  match turnout with
  | .asIs env => Kept (Says (ReleaseFailed a.release.assignment) env) s
  | .forced env => Kept (Says (ReleaseFailed a.release.assignment) (recovered a env)) s
  | .ended env =>
      Kept (Says (ReleaseFailed a.release.assignment) (keptUp a env)) s ∧
        (keptUp a env ≠ env -> ¬ReleaseFailed a.release.assignment s.log)

theorem kept_start {s : Desk} (hlog : s.log = []) : Kept (Says failed s.env) s := by
  refine ⟨says_self, ?_⟩
  rw [hlog]
  exact wrote_nil

theorem forceRelease_tells {s : Desk} (transport : Bool) (cause : Option String)
    (hjudged : Judged s.env) (hlog : s.log = []) :
    Kept (Says (ReleaseFailed a.release.assignment) s.env)
      (Status.forceReleaseUnconfirmedSecret a transport cause s).2 :=
  (says_closed a.release s.env).forceRelease transport (fun _ _ h =>
    says_same h (statusForced_same cause (says_judged h hjudged))) s (kept_start hlog)

variable {a} in
theorem statusRecover_absorbed (h : Status.recover a.offVm env = .ok env') :
    Absorbed env env' ∧ (env.workload.terminal = true -> env'.workload.terminal = true) := by
  unfold Status.recover at h
  cases hrecover : recoverOffVmResult a.offVm env with
  | error text =>
      rw [hrecover] at h
      cases h
  | ok r =>
      rw [hrecover] at h
      cases h
      exact ⟨recoverOffVmResult_absorbed hrecover, recoverOffVmResult_terminal hrecover⟩

theorem recovered_absorbed (hjudged : Judged env) :
    Later env (recovered a env) ∧ Judged (recovered a env) := by
  unfold recovered
  cases hrecover : Status.recover a.offVm env with
  | error text => exact ⟨Or.inl rfl, hjudged⟩
  | ok env' =>
      rcases statusRecover_absorbed hrecover with ⟨habsorbed, hterminal⟩
      exact ⟨habsorbed.later, hterminal hjudged.left, habsorbed.offload hjudged.right⟩

theorem recoverAndForce_tells {s : Desk} {transport : Bool}
    {cause : JobEnvelope -> Option String} (hjudged : Judged s.env) (hlog : s.log = []) :
    Kept (Says (ReleaseFailed a.release.assignment) (recovered a s.env))
      ((do
        let env ← Command.lift (Status.recover a.offVm s.env)
        Command.modifyEnv fun _ => env
        Status.forceReleaseUnconfirmedSecret a transport (cause env)) s).2 := by
  have hrecovered := (recovered_absorbed a hjudged).right
  unfold recovered at *
  cases hrecover : Status.recover a.offVm s.env with
  | error text => exact kept_start hlog
  | ok env' =>
      rw [hrecover] at hrecovered
      rw [Command.lift_ok, Prog.bind_run_ok (Prog.pure_run _ _),
        Prog.bind_run_ok (Command.modifyEnv_run _ _)]
      exact forceRelease_tells (s := { s with env := env' }) a transport _ hrecovered hlog

theorem statusConclude_tells (t : JobEnvelope) (consulted : Bool) :
    Prog.Keeps (Kept (Says (ReleaseFailed a.release.assignment) t))
      (Status.conclude args a consulted) :=
  (says_closed a.release t).statusConclude args consulted

theorem releaseOrphanedJob_ends {s : Desk} (hjudged : Judged s.env) (hlog : s.log = []) :
    Ends a (.ended s.env) (Status.releaseOrphanedJob a s).2 := by
  unfold Ends keptUp Status.releaseOrphanedJob
  cases Status.keepSpec a.keepPlan with
  | error text => exact ⟨kept_start hlog, fun h => absurd rfl h⟩
  | ok spec =>
      rw [Command.lift_ok, Prog.bind_run_ok (Prog.pure_run _ _), Prog.bind_run_ok (Prog.get_run s)]
      simp only
      cases keepVm s.env spec true with
      | true =>
          simp only [if_true]
          rw [Prog.bind_run_ok (Command.modifyEnv_run _ _)]
          have hwrite := kept_write (says_closed a.release (recordVmKept s.env s.env.jobId)).write
            a.write { s with env := { recordVmKept s.env s.env.jobId with supervisor := .finished } }
            ⟨⟨rfl, Or.inl rfl⟩, by rw [hlog]; exact wrote_nil⟩
          refine ⟨hwrite, fun _ hfailed => ?_⟩
          rcases hfailed with ⟨endpoint, hmem, _⟩
          rw [Command.writeEnvelope_run] at hmem
          split at hmem <;> simp [hlog] at hmem
      | false =>
          simp only [Bool.false_eq_true, if_false]
          have hclosed := says_closed a.release s.env
          refine ⟨?_, fun h => absurd rfl h⟩
          refine Prog.Keeps.bind (hclosed.edit (copyBeforeRelease_onlyHints _ _)) (fun _ => ?_)
            s (kept_start hlog)
          apply Prog.Keeps.bind (kept_attempted a.stopKeepAlive)
          intro _
          apply Prog.Keeps.bind (hclosed.releaseVm _)
          intro _
          apply Prog.Keeps.bind (hclosed.edit (forgetSession_onlyHints _))
          intro _
          apply Prog.Keeps.bind (kept_modifyEnv fun _ _ h =>
            says_same h (orphanVerdict_same (says_judged h hjudged)))
          intro _
          exact kept_write hclosed.write _

/-- With a verdict there is nothing to ask the VM, and with a supervisor nothing to
release. -/
theorem superviseVm_tells {s : Desk} (hjudged : Judged s.env) (hlog : s.log = []) :
    Kept (Says (ReleaseFailed a.release.assignment) s.env)
      (Status.superviseVm args a false s).2 := by
  unfold Status.superviseVm
  rw [Prog.bind_run_ok (DoneFinal.consultVm_settled args a false hjudged.left),
    Prog.bind_run_ok (Prog.get_run s)]
  simp only [Bool.false_and, Bool.false_eq_true, if_false]
  exact Prog.Keeps.bind (kept_write (says_closed a.release s.env).write a.write)
    (fun _ => statusConclude_tells args a s.env true) s (kept_start hlog)

theorem scrubbed_ends {s : Desk} (orphan : Bool) (hjudged : Judged s.env) (hlog : s.log = []) :
    Ends a (if orphan then .ended s.env else .asIs s.env)
      ((if orphan && s.env.workload.terminal then do
          Status.releaseOrphanedJob a
          Command.attempted a.emit
        else Status.superviseVm args a orphan) s).2 := by
  cases orphan with
  | true =>
      simp only [hjudged.left, Bool.and_self, if_true]
      rw [Prog.bind_still fun _ => Command.attempted_still a.emit]
      exact releaseOrphanedJob_ends a hjudged hlog
  | false =>
      simp only [Bool.false_and, Bool.false_eq_true, if_false]
      exact superviseVm_tells args a hjudged hlog

theorem withSession_ends {s : Desk} (orphan : Bool) (hjudged : Judged s.env)
    (hlog : s.log = []) :
    Ends a (sessionTurnout a orphan s.env) (Status.withSession args a orphan s).2 := by
  unfold sessionTurnout Status.withSession
  rw [Prog.bind_run_ok (Prog.get_run s)]
  cases hensure : Status.ensureKeepAlive a.keepAlive s.env with
  | error text => exact kept_start hlog
  | ok env =>
      have hjudged' : Judged env :=
        (SameVerdict.of_onlyHints (Status.ensureKeepAlive_onlyHints hensure)).judged hjudged
      rw [Command.lift_ok, Prog.bind_run_ok (Prog.pure_run _ _),
        Prog.bind_run_ok (Command.modifyEnv_run _ _)]
      cases a.transport with
      | some text => exact kept_start (s := { s with env }) hlog
      | none =>
          rw [Command.attempted_none, Prog.bind_run_ok (Prog.pure_run _ _)]
          simp only [Option.isSome_none, Bool.false_eq_true, if_false]
          have hscrubbed := scrubbed_ends (s := { s with env }) args a orphan hjudged' hlog
          cases Status.mustScrub orphan env with
          | false => simpa using hscrubbed
          | true =>
              rcases scrubReport a.scrub with ⟨removed, problem⟩
              cases removed with
              | true => simpa using hscrubbed
              | false =>
                  simp only [Bool.not_false, Bool.and_self, if_true]
                  exact recoverAndForce_tells (s := { s with env }) a hjudged' hlog

theorem withoutSession_ends {s : Desk} (orphan : Bool) (hjudged : Judged s.env)
    (hlog : s.log = []) :
    Ends a (if Status.mustScrub orphan s.env then .forced s.env else .asIs s.env)
      (Status.withoutSession args a orphan s).2 := by
  unfold Status.withoutSession
  rw [Prog.bind_run_ok (Prog.get_run s)]
  cases Status.mustScrub orphan s.env with
  | true =>
      simp only [if_true]
      exact recoverAndForce_tells a hjudged hlog
  | false =>
      simp only [Bool.false_eq_true, if_false]
      have hclosed := says_closed a.release s.env
      exact Prog.Keeps.bind (hclosed.edit fun env => addHint_onlyHints env _)
        (fun _ => statusConclude_tells args a s.env true) s (kept_start hlog)

theorem noteSupervisor_judged (alive : Bool) (hjudged : Judged env) :
    Judged (Status.noteSupervisor alive env) := by
  unfold Status.noteSupervisor
  split <;> exact hjudged

/-- A `status` of a job with a verdict ends with the verdict of the record it comes to. -/
theorem status_ends (hjudged : Judged env) :
    Ends a (turnout a env) (Status.status args a (desk (some env))).2 := by
  have hstart : Kept (Says (ReleaseFailed a.release.assignment) env) (desk (some env)) :=
    ⟨says_self, wrote_nil⟩
  unfold turnout Status.status
  cases a.envelope with
  | some text => exact hstart
  | none =>
      rw [Prog.bind_run_ok (Command.readEnvelope_none _)]
      simp only [desk]
      cases a.supervisorAlive with
      | error text => exact hstart
      | ok alive =>
          rw [Command.lift_ok, Prog.bind_run_ok (Prog.pure_run _ _),
            Prog.bind_run_ok (Command.modifyEnv_run _ _)]
          have hnoted := noteSupervisor_judged alive hjudged
          have hkept : Kept
              (Says (ReleaseFailed a.release.assignment) (Status.noteSupervisor alive env))
              ⟨Status.noteSupervisor alive env, some env, []⟩ := ⟨says_self, wrote_nil⟩
          simp only
          split
          · cases a.session with
            | error text => exact hkept
            | ok present =>
                rw [Command.lift_ok, Prog.bind_run_ok (Prog.pure_run _ _)]
                cases present with
                | true =>
                    exact withSession_ends (s := ⟨_, some env, []⟩) args a _ hnoted rfl
                | false =>
                    exact withoutSession_ends (s := ⟨_, some env, []⟩) args a _ hnoted rfl
          · exact statusConclude_tells args a _ false _ hkept

/-- The record that a `status` comes to. -/
def Turnout.record : Turnout -> JobEnvelope
  | .asIs env | .forced env | .ended env => env

theorem turnout_record (hjudged : Judged env) :
    (turnout a env).record.failedPhase = env.failedPhase ∧ Judged (turnout a env).record := by
  have hnoted : forall alive, (Status.noteSupervisor alive env).failedPhase = env.failedPhase ∧
      Judged (Status.noteSupervisor alive env) := by
    intro alive
    refine ⟨?_, noteSupervisor_judged alive hjudged⟩
    unfold Status.noteSupervisor
    split <;> rfl
  unfold turnout
  split
  · next alive _ _ =>
      simp only
      split
      · split
        · exact hnoted alive
        · unfold sessionTurnout
          split
          · exact hnoted alive
          · next hensure =>
              have hsame := SameVerdict.of_onlyHints (Status.ensureKeepAlive_onlyHints hensure)
              have hboth := And.intro (hsame.failedPhase.trans (hnoted alive).left)
                (hsame.judged (hnoted alive).right)
              split
              · exact hboth
              · split
                · exact hboth
                · split <;> exact hboth
        · split <;> exact hnoted alive
      · exact hnoted alive
  · exact ⟨rfl, hjudged⟩

theorem status_kept_iff (hjudged : Judged env) :
    Kept (Says (ReleaseFailed a.release.assignment) env)
        (Status.status args a (desk (some env))).2 <-> StatusSpares a env := by
  have hends := status_ends args a hjudged
  rcases turnout_record a hjudged with ⟨hphase, hjudged'⟩
  unfold StatusSpares
  cases hturnout : turnout a env with
  | asIs env' =>
      rw [hturnout] at hends hphase
      exact ⟨fun h => sameVerdict_of_tells (Or.inl hphase) hends.env h.env,
        fun h => kept_of h hends⟩
  | forced env' =>
      rw [hturnout] at hends hphase hjudged'
      have hlater := (recovered_absorbed a hjudged').left
      rw [Later, hphase] at hlater
      exact ⟨fun h => sameVerdict_of_tells hlater hends.env h.env, fun h => kept_of h hends⟩
  | ended env' =>
      rw [hturnout] at hends hphase
      rcases hends with ⟨hends, hnone⟩
      refine ⟨fun h => ?_, fun h => kept_of h hends⟩
      change SameVerdict env (keptUp a env')
      by_cases hsame : keptUp a env' = env'
      · rw [hsame] at hends ⊢
        exact sameVerdict_of_tells (Or.inl hphase) hends.env h.env
      · exact sameVerdict_of_not (hnone hsame) hends.env h.env

end Asking

/-!
## Apply's cleanup
-/

section Cleaning

open Apply

variable (a : CleanupHit) (jobId : String) (leaveUp : Bool)

/-- The record in hand and those written are good. -/
structure KeptBy (good : List Deed -> JobEnvelope -> Prop) (s : Proc) : Prop where
  env : good s.log s.env
  wrote : Wrote good s.log

theorem keptBy_tidy {good : List Deed -> JobEnvelope -> Prop}
    (hhints : forall log env env', OnlyHints env env' -> good log env -> good log env')
    (hphase : forall log env phase, good log env -> good log { env with phase })
    (hsteady : Steady good) : Tidy (KeptBy good) where
  own s t henv _ hlog _ hs := by
    refine ⟨?_, ?_⟩
    · rw [henv, hlog]
      exact hs.env
    · rw [hlog]
      exact hs.wrote
  hints s env h hs := ⟨hhints _ _ _ h hs.env, hs.wrote⟩
  phase s phase hs := ⟨hphase _ _ _ hs.env, hs.wrote⟩
  write s hs := by
    refine ⟨hsteady _ _ hs.env, fun newer env older hlog => ?_⟩
    cases newer with
    | nil =>
        cases hlog
        exact hs.env
    | cons deed newer => exact hs.wrote newer env older (List.cons.inj hlog).right

/-- A release that was not confirmed. -/
def Unconfirmed (log : List Deed) : Prop :=
  exists endpoint, .release endpoint ∈ log ∧ .absent endpoint ∉ log

theorem unconfirmed_write (h : Unconfirmed log) (env : JobEnvelope) :
    Unconfirmed (.wrote env :: log) := by
  rcases h with ⟨endpoint, hmem, habsent⟩
  exact ⟨endpoint, List.mem_cons_of_mem _ hmem, by simpa using habsent⟩

theorem says_tidy (t : JobEnvelope) : Tidy (KeptBy (Says Unconfirmed t)) := by
  refine keptBy_tidy (fun _ _ _ hhints h => says_same h (SameVerdict.of_onlyHints hhints))
    (fun _ _ _ h => says_same h ⟨rfl, rfl⟩) fun log env h => ?_
  exact ⟨h.left, h.right.imp id fun hfailed =>
    ⟨hfailed.1, hfailed.2.1, unconfirmed_write hfailed.2.2 env⟩⟩

/-- The first steps of `cleanup`. -/
def opening : Program Unit := do
  closeRuntime a.close
  setPhase a.phase .cleanup

/-- The steps of `cleanup` before it records that the VM is kept. -/
def beforeKept : Program Unit := do
  opening a
  arrive (a.gaps 0)

/-- Where `cleanup` records that the VM is kept. -/
def ReachesKept (s : Proc) : Prop :=
  leaveUp = true ∧ (nonempty s.env.endpoint).isSome = true ∧
    exists t, beforeKept a s = (.ok (), t)

/-- A VM kept with descendants on it finds a failure, a reason and a class already. -/
def CleanupSpares (s : Proc) : Prop :=
  ReachesKept a leaveUp s -> s.env.survivingDescendants ≠ [] ->
    s.env.failedPhase ≠ none ∧ s.env.reason ≠ none ∧ s.env.retryClass ≠ none

def Dressed (base : JobEnvelope) (s : Proc) : Prop :=
  (exists hints phase, s.env = { base with hints, phase }) ∧
    (forall endpoint, .release endpoint ∉ s.log ∧ .absent endpoint ∉ s.log) ∧
    forall env, .wrote env ∈ s.log -> SameVerdict base env

theorem dressed_tidy (base : JobEnvelope) : Tidy (Dressed base) where
  own s t henv _ hlog _ hs := by
    unfold Dressed
    rw [henv, hlog]
    exact hs
  hints s env hhints hs := by
    rcases hs with ⟨⟨hints, phase, heq⟩, hrest⟩
    rcases hhints with ⟨hints', heq'⟩
    refine ⟨⟨hints', phase, ?_⟩, hrest⟩
    rw [show ({ s with env } : Proc).env = env from rfl, heq', heq]
  phase s phase hs := by
    rcases hs with ⟨⟨hints, phase', heq⟩, hrest⟩
    refine ⟨⟨hints, phase, ?_⟩, hrest⟩
    rw [show ({ s with env := { s.env with phase } } : Proc).env = { s.env with phase } from rfl,
      heq]
  write s hs := by
    rcases hs with ⟨hdress, hlog, hwrote⟩
    refine ⟨hdress, fun endpoint => by simpa using hlog endpoint, fun env hmem => ?_⟩
    rcases List.mem_cons.mp hmem with heq | hmem
    · rcases hdress with ⟨hints, phase, hdress⟩
      cases heq
      rw [hdress]
      exact ⟨rfl, rfl⟩
    · exact hwrote env hmem

theorem dressed_same {base : JobEnvelope} {s : Proc} (h : Dressed base s) :
    SameVerdict base s.env := by
  rcases h with ⟨⟨hints, phase, heq⟩, _⟩
  rw [heq]
  exact ⟨rfl, rfl⟩

theorem says_sameVerdict (h : SameVerdict t env) : Says failed t log env :=
  ⟨h.said, Or.inl h.failedPhase⟩

theorem kept_of_same {base : JobEnvelope} {s : Proc} (henv : SameVerdict base s.env)
    (hwrote : forall env, .wrote env ∈ s.log -> SameVerdict base env) :
    KeptBy (Says Unconfirmed base) s := by
  refine ⟨says_sameVerdict henv, fun newer env older hlog => ?_⟩
  exact says_sameVerdict (hwrote env (by rw [hlog]; simp))

theorem dressed_kept {base : JobEnvelope} {s : Proc} (h : Dressed base s) :
    KeptBy (Says Unconfirmed base) s := kept_of_same (dressed_same h) h.2.2

theorem recordVmKept_dressed {base : JobEnvelope} {s : Proc} (h : Dressed base s) :
    SameVerdict (recordVmKept base jobId) (recordVmKept s.env jobId) := by
  rcases h with ⟨⟨hints, phase, heq⟩, _⟩
  rw [heq]
  unfold recordVmKept
  split <;> exact ⟨rfl, rfl⟩

theorem recordVmKept_same (h : env.survivingDescendants ≠ [] ->
      env.failedPhase ≠ none ∧ env.reason ≠ none ∧ env.retryClass ≠ none) :
    SameVerdict env (recordVmKept env jobId) := by
  unfold recordVmKept
  split
  · exact ⟨rfl, rfl⟩
  · next hsurvivors =>
      rcases h (fun h => hsurvivors (by rw [h]; rfl)) with ⟨hphase, hreason, hretry⟩
      rcases Option.ne_none_iff_exists'.mp hphase with ⟨phase, hphase⟩
      rcases Option.ne_none_iff_exists'.mp hreason with ⟨reason, hreason⟩
      rcases Option.ne_none_iff_exists'.mp hretry with ⟨retry, hretry⟩
      constructor
      · simp [ending, hreason, hretry, JobEnvelope.addHint, JobEnvelope.recordFailure]
      · simp [hphase, JobEnvelope.addHint, JobEnvelope.recordFailure]

/-- A VM kept with descendants on it gets the failure, the reason and the class that are
not there. -/
theorem recordVmKept_same_iff (hsurvivors : env.survivingDescendants ≠ []) :
    SameVerdict env (recordVmKept env jobId) <->
      env.failedPhase ≠ none ∧ env.reason ≠ none ∧ env.retryClass ≠ none := by
  refine ⟨fun h => ?_, fun h => recordVmKept_same jobId fun _ => h⟩
  have hsome : (recordVmKept env jobId).failedPhase ≠ none ∧
      (recordVmKept env jobId).reason ≠ none ∧ (recordVmKept env jobId).retryClass ≠ none := by
    unfold recordVmKept
    rw [if_neg (by simpa using hsurvivors)]
    cases env.failedPhase <;> cases env.reason <;> cases env.retryClass <;>
      simp [JobEnvelope.addHint, JobEnvelope.recordFailure]
  have hreason : (recordVmKept env jobId).reason = env.reason :=
    congrArg (fun e => e.2.2.2.2) h.said
  have hretry : (recordVmKept env jobId).retryClass = env.retryClass :=
    congrArg (fun e => e.2.2.2.1) h.said
  rw [h.failedPhase, hreason, hretry] at hsome
  exact hsome

theorem afterUnassign_same (hit : ReleaseHit) (endpoint : String) (s : Proc) :
    (afterUnassign hit endpoint s).env = s.env ∧
      (afterUnassign hit endpoint s).log = .release endpoint :: s.log := by
  unfold afterUnassign
  split <;> exact ⟨rfl, rfl⟩

/-- A release leaves the verdict alone, and one that comes out as failed is not
confirmed. -/
theorem releaseAssignment_tells {base : JobEnvelope} {s : Proc} (hit : ReleaseHit)
    (endpoint : String) (hs : Dressed base s) :
    KeptBy (Says Unconfirmed base) (Apply.releaseAssignment hit endpoint s).2 ∧
      forall outcome t, Apply.releaseAssignment hit endpoint s = (.ok outcome, t) ->
        outcome.1 = .failed -> Unconfirmed t.log := by
  rcases afterUnassign_same hit endpoint s with ⟨henv, hlog⟩
  have hsent : KeptBy (Says Unconfirmed base) (afterUnassign hit endpoint s) := by
    refine kept_of_same ?_ fun env hmem => hs.2.2 env ?_
    · rw [henv]
      exact dressed_same hs
    · rw [hlog] at hmem
      simpa using hmem
  have hknown : forall outcome : Cleanup, KeptBy (Says Unconfirmed base)
      (confirmed endpoint outcome (afterUnassign hit endpoint s)) := by
    intro outcome
    refine confirmed_keeps outcome hsent (kept_of_same ?_ fun env hmem => hs.2.2 env ?_)
    · change SameVerdict base (afterUnassign hit endpoint s).env
      rw [henv]
      exact dressed_same hs
    · change _ ∈ .absent endpoint :: (afterUnassign hit endpoint s).log at hmem
      rw [hlog] at hmem
      simpa using hmem
  rcases releaseAssignment_cases hit endpoint s with ⟨u, e, ignored, hu, hrun⟩ | hrun
  · rw [hrun]
    refine ⟨(says_tidy base).own u _ rfl rfl rfl rfl ?_, fun _ _ h => by cases h⟩
    rcases hu with rfl | rfl | rfl
    · exact dressed_kept hs
    · exact hsent
    · exact hknown _
  · rw [hrun]
    refine ⟨hknown _, ?_⟩
    intro outcome t h hfailed
    cases h
    refine ⟨endpoint, ?_, ?_⟩
    · rw [confirmed, if_pos hfailed, hlog]
      exact List.mem_cons_self
    · rw [confirmed, if_pos hfailed, hlog]
      simpa using (hs.2.1 endpoint).right

def Accounted (base : JobEnvelope) (s : Proc) : Prop :=
  KeptBy (Says Unconfirmed base) s ∧ (s.env.cleanup = .failed -> Unconfirmed s.log)

theorem accounted_tidy (base : JobEnvelope) : Tidy (Accounted base) where
  own s t henv hdisk hlog hlive hs := by
    refine ⟨(says_tidy base).own s t henv hdisk hlog hlive hs.left, ?_⟩
    rw [henv, hlog]
    exact hs.right
  hints s env h hs := by
    refine ⟨(says_tidy base).hints s env h hs.left, fun hfailed => hs.right ?_⟩
    rw [← h.same JobEnvelope.cleanup]
    exact hfailed
  phase s phase hs := ⟨(says_tidy base).phase s phase hs.left, hs.right⟩
  write s hs := ⟨(says_tidy base).write s hs.left, fun h => unconfirmed_write (hs.right h) _⟩

theorem recordFailure_recorded {base : JobEnvelope} :
    Prog.Keeps (Accounted base) (modifyEnv fun env =>
      if env.cleanup = .failed then env.recordFailure .cleanup else env) := by
  intro s hs
  have hrun : (modifyEnv (fun env =>
      if env.cleanup = .failed then env.recordFailure .cleanup else env) s).2 =
      { s with env :=
        if s.env.cleanup = .failed then s.env.recordFailure .cleanup else s.env } := rfl
  rw [hrun]
  by_cases hcleanup : s.env.cleanup = .failed
  · rw [if_pos hcleanup]
    rcases hs with ⟨⟨⟨hsaid, hphase⟩, hwrote⟩, hfailed⟩
    refine ⟨⟨⟨hsaid, ?_⟩, hwrote⟩, hfailed⟩
    rcases hphase with hsame | hrecorded
    · change s.env.failedPhase.or (some .cleanup) = _ ∨ _
      rw [hsame]
      cases hbase : base.failedPhase with
      | none =>
          refine Or.inr ⟨rfl, ?_, hfailed hcleanup⟩
          change s.env.failedPhase.or (some .cleanup) = _
          rw [hsame, hbase]
          rfl
      | some phase => exact Or.inl rfl
    · refine Or.inr ⟨hrecorded.1, ?_, hrecorded.2.2⟩
      change s.env.failedPhase.or (some .cleanup) = _
      rw [hrecorded.2.1]
      rfl
  · rw [if_neg hcleanup]
    exact hs

theorem recordRelease_tells {base : JobEnvelope} {s : Proc} (endpoint : String)
    (outcome : Cleanup × Option String) (hs : KeptBy (Says Unconfirmed base) s)
    (hfailed : outcome.1 = .failed -> Unconfirmed s.log) :
    KeptBy (Says Unconfirmed base) (recordRelease a jobId endpoint outcome s).2 := by
  have htidy := accounted_tidy base
  unfold recordRelease
  have hpre : Tidy fun t => KeptBy (Says Unconfirmed base) t ∧
      (outcome.1 = .failed -> Unconfirmed t.log) := by
    refine ⟨?_, ?_, ?_, ?_⟩
    · intro s t henv hdisk hlog hlive hs
      exact ⟨(says_tidy base).own s t henv hdisk hlog hlive hs.left, by rw [hlog]; exact hs.right⟩
    · exact fun s env h hs => ⟨(says_tidy base).hints s env h hs.left, hs.right⟩
    · exact fun s phase hs => ⟨(says_tidy base).phase s phase hs.left, hs.right⟩
    · exact fun s hs => ⟨(says_tidy base).write s hs.left,
        fun h => unconfirmed_write (hs.right h) _⟩
  refine Prog.Keeps.before (hpre.arrive a.outcome) ⟨hs, hfailed⟩ (fun _ h => h.left) ?_
  intro _ t ht
  have haccounted : Accounted base { t with env := { t.env with cleanup := outcome.1 } } :=
    ⟨⟨says_same ht.left.env ⟨rfl, rfl⟩, ht.left.wrote⟩, ht.right⟩
  refine (Prog.Keeps.bind (htidy.computeUnits a.units "release") (fun reading => ?_) _
    haccounted).left
  refine Prog.Keeps.bind (fun u hu => ?_) fun _ => ?_
  · exact ⟨⟨says_same hu.left.env ⟨rfl, rfl⟩, hu.left.wrote⟩, hu.right⟩
  · refine updates_keeps htidy.arrive _ _ fun f hf => ?_
    rcases List.mem_cons.mp hf with rfl | hf
    · exact recordFailure_recorded
    · rw [List.mem_singleton.mp hf]
      cases nonempty outcome.2 with
      | none => exact fun _ h => h
      | some detail => exact htidy.addHint _

theorem releaseAndRecord_tells {base : JobEnvelope} {s : Proc} (endpoint : String)
    (hs : Dressed base s) :
    KeptBy (Says Unconfirmed base) (releaseAndRecord a jobId endpoint s).2 := by
  have htidy := says_tidy base
  unfold releaseAndRecord
  refine Prog.Keeps.after_ensure ?_
    (Prog.Keeps.bind (htidy.dropSession _ _) fun _ => htidy.persist _)
  rcases releaseAssignment_tells a.release endpoint hs with ⟨hkept, hfailed⟩
  rw [Prog.bind_run]
  rcases hrun : Apply.releaseAssignment a.release endpoint s with ⟨o, t⟩
  rw [hrun] at hkept
  cases o with
  | ok outcome => exact recordRelease_tells a jobId endpoint outcome hkept (hfailed outcome t hrun)
  | raised e => exact hkept
  | ended => exact hkept

/-- The steps of `cleanup` after the first ones. -/
def afterOpening : Program Unit := do
  let s ← Prog.get
  match nonempty s.env.endpoint with
  | none => cleanupAbsent a jobId
  | some endpoint =>
      if leaveUp then cleanupKept a jobId
      else
        copyRecordsBeforeRelease a
        stopKeepAlive a.keepAlive
        releaseAndRecord a jobId endpoint

theorem cleanup_opens (s : Proc) :
    cleanup a jobId leaveUp s = (do opening a; afterOpening a jobId leaveUp : Program Unit) s := by
  unfold cleanup opening
  rw [Prog.bind_run, Prog.bind_run, Prog.bind_run]
  rcases closeRuntime a.close s with ⟨o, t⟩
  cases o with
  | ok _ => rfl
  | raised e => rfl
  | ended => rfl

theorem opening_dressed {s : Proc} (hlog : s.log = []) :
    Dressed s.env (opening a s).2 := by
  have htidy := dressed_tidy s.env
  refine Prog.Keeps.bind (htidy.closeRuntime _) (fun _ => htidy.setPhase _ _) s ?_
  exact ⟨⟨s.env.hints, s.env.phase, rfl⟩, by simp [hlog], by simp [hlog]⟩

theorem cleanupKept_run {t u : Proc} (harrive : arrive (a.gaps 0) t = (.ok (), u)) :
    cleanupKept a jobId t =
      (do arrive (a.gaps 1); persist a.write : Program Unit)
        { u with env := recordVmKept u.env jobId } := by
  unfold cleanupKept updates updates
  rw [Prog.bind_run, Prog.bind_run_ok harrive]
  rfl

theorem cleanupKept_tells {base : JobEnvelope} {t : Proc} (ht : Dressed base t)
    (hspares : forall u, arrive (a.gaps 0) t = (.ok (), u) ->
      SameVerdict base (recordVmKept base jobId)) :
    KeptBy (Says Unconfirmed base) (cleanupKept a jobId t).2 := by
  have htidy := says_tidy base
  have hkept := (dressed_tidy base).arrive (a.gaps 0) t ht
  rcases harrive : arrive (a.gaps 0) t with ⟨o, u⟩
  rw [harrive] at hkept
  cases o with
  | ok _ =>
      rw [cleanupKept_run a jobId harrive]
      refine Prog.Keeps.bind (htidy.arrive _) (fun _ => htidy.persist _) _ ⟨?_, ?_⟩
      · exact says_of (hspares u harrive) (says_sameVerdict (recordVmKept_dressed jobId hkept))
      · exact (dressed_kept hkept).wrote
  | raised e =>
      unfold cleanupKept updates
      rw [Prog.bind_run_raised (Prog.bind_run_raised harrive)]
      exact dressed_kept hkept
  | ended =>
      unfold cleanupKept updates
      rw [Prog.bind_run, Prog.bind_run, harrive]
      exact dressed_kept hkept

/-- `cleanup` leaves the verdict alone where it keeps no descendants, or they are told
already. -/
theorem cleanup_kept {s : Proc} (hlog : s.log = []) (h : CleanupSpares a leaveUp s) :
    KeptBy (Says Unconfirmed s.env) (cleanup a jobId leaveUp s).2 := by
  have htidy := says_tidy s.env
  have hopen := opening_dressed a hlog
  rw [cleanup_opens, Prog.bind_run]
  rcases hrun : opening a s with ⟨o, t⟩
  rw [hrun] at hopen
  cases o with
  | raised e => exact dressed_kept hopen
  | ended => exact dressed_kept hopen
  | ok _ =>
      have hendpoint : t.env.endpoint = s.env.endpoint := by
        rcases hopen.left with ⟨hints, phase, heq⟩
        rw [heq]
      simp only
      unfold afterOpening
      rw [Prog.bind_run_ok (Prog.get_run t), hendpoint]
      cases hend : nonempty s.env.endpoint with
      | none =>
          refine Prog.Keeps.bind (htidy.stopKeepAlive _) (fun _ => ?_) t (dressed_kept hopen)
          refine Prog.Keeps.bind (htidy.dropSession _ _) fun _ => ?_
          refine Prog.Keeps.bind (updates_keeps htidy.arrive _ _ fun f hf => ?_)
            fun _ => htidy.persist _
          rw [List.mem_singleton.mp hf]
          exact fun u hu => ⟨says_same hu.env ⟨rfl, rfl⟩, hu.wrote⟩
      | some endpoint =>
          cases hleave : leaveUp with
          | true =>
              simp only [if_true]
              refine cleanupKept_tells a jobId hopen fun u harrive => ?_
              refine recordVmKept_same jobId (h ⟨hleave, ?_, u, ?_⟩)
              · rw [hend]
                rfl
              · rw [beforeKept, Prog.bind_run_ok hrun]
                exact harrive
          | false =>
              simp only [Bool.false_eq_true, if_false]
              have hdressed := dressed_tidy s.env
              refine Prog.Keeps.before (hdressed.copyRecordsBeforeRelease a) hopen
                (fun _ => dressed_kept) fun _ u hu => ?_
              exact Prog.Keeps.before (hdressed.stopKeepAlive _) hu (fun _ => dressed_kept)
                fun _ v hv => releaseAndRecord_tells a jobId endpoint hv

def Plain (t : JobEnvelope) (s : Proc) : Prop :=
  SameVerdict t s.env ∧ forall endpoint, .release endpoint ∉ s.log

theorem plain_tidy (t : JobEnvelope) : Tidy (Plain t) where
  own s u henv _ hlog _ hs := by
    unfold Plain
    rw [henv, hlog]
    exact hs
  hints s env h hs := ⟨hs.left.trans (SameVerdict.of_onlyHints h), hs.right⟩
  phase s phase hs := ⟨hs.left.trans ⟨rfl, rfl⟩, hs.right⟩
  write s hs := ⟨hs.left, fun endpoint => by simpa using hs.right endpoint⟩

theorem cleanup_spares {s : Proc} (hlog : s.log = [])
    (h : KeptBy (Says Unconfirmed s.env) (cleanup a jobId leaveUp s).2) :
    CleanupSpares a leaveUp s := by
  rintro ⟨hleave, hend, u, hbefore⟩ hsurvivors
  rcases Prog.bind_eq_ok hbefore with ⟨_, t, hopening, harrive⟩
  have hopen := opening_dressed a hlog
  rw [hopening] at hopen
  have hkept := (dressed_tidy s.env).arrive (a.gaps 0) t hopen
  rw [harrive] at hkept
  have hendpoint : t.env.endpoint = s.env.endpoint := by
    rcases hopen.left with ⟨hints, phase, heq⟩
    rw [heq]
  rcases Option.isSome_iff_exists.mp hend with ⟨endpoint, hend⟩
  have hrun : cleanup a jobId leaveUp s = (do arrive (a.gaps 1); persist a.write : Program Unit)
      { u with env := recordVmKept u.env jobId } := by
    rw [cleanup_opens, Prog.bind_run_ok hopening, afterOpening, Prog.bind_run_ok (Prog.get_run t),
      hendpoint, hend, hleave]
    exact cleanupKept_run a jobId harrive
  have htidy := plain_tidy (recordVmKept s.env jobId)
  have hplain : Plain (recordVmKept s.env jobId) (cleanup a jobId leaveUp s).2 := by
    rw [hrun]
    exact Prog.Keeps.bind (htidy.arrive _) (fun _ => htidy.persist _) _
      ⟨recordVmKept_dressed jobId hkept, fun e => (hkept.2.1 e).left⟩
  have hnone : ¬Unconfirmed (cleanup a jobId leaveUp s).2.log :=
    fun ⟨e, hmem, _⟩ => hplain.right e hmem
  exact (recordVmKept_same_iff jobId hsurvivors).mp
    (sameVerdict_of_not hnone (says_sameVerdict hplain.left) h.env)

end Cleaning

/-!
## The three of them
-/

/-- `destroy`, `status` and apply's cleanup leave the verdict of a job that has one alone
exactly under their conditions. -/
theorem teardown_keeps_verdict (env : JobEnvelope) (hjudged : Judged env) :
    (forall args a, DestroySpares args a env ->
      Kept (Says (ReleaseFailed a.release.assignment) env)
        (Destroy.destroy args a (desk (some env))).2) ∧
    (forall args a, ReadsEnd a env ->
      (Kept (Says (ReleaseFailed a.release.assignment) env)
        (Destroy.destroy args a (desk (some env))).2 <-> DestroySpares args a env)) ∧
    (forall args a,
      Kept (Says (ReleaseFailed a.release.assignment) env)
        (Status.status args a (desk (some env))).2 <-> StatusSpares a env) ∧
    forall a jobId leaveUp (s : Apply.Proc), s.env = env -> s.log = [] ->
      (KeptBy (Says Unconfirmed env) (Apply.cleanup a jobId leaveUp s).2 <->
        CleanupSpares a leaveUp s) := by
  refine ⟨fun args a => destroy_kept args a hjudged, fun args a hend => ?_,
    fun args a => status_kept_iff args a hjudged, fun a jobId leaveUp s henv hlog => ?_⟩
  · exact ⟨destroy_spares args a hjudged hend, destroy_kept args a hjudged⟩
  · rw [← henv]
    exact ⟨cleanup_spares a jobId leaveUp hlog, cleanup_kept a jobId leaveUp hlog⟩

/-- A job that ran past its deadline and was cancelled, and whose VM could not be
released. -/
def timedOut : JobEnvelope :=
  { jobId := "j", workload := .succeeded, offload := .notRequired, cleanup := .failed
    supervisor := .finished, failedPhase := some .run, exitCode := some 0
    retryClass := some .retrySame, reason := some "no verdict within 4200s of launch"
    session := some "job-j", endpoint := some "e" }

/-- A VM that cannot be reached: nothing is absorbed, and the verdict stays. -/
theorem teardown_keeps_verdict_unreachable :
    Kept (Says (ReleaseFailed ⟨.ok (), .error ""⟩) timedOut)
      (Destroy.destroy ⟨"j", false, 300⟩ (Destroy.allGuardedFail (.ok none))
        (desk (some timedOut))).2 := by
  refine (teardown_keeps_verdict timedOut ⟨rfl, rfl⟩).1 ⟨"j", false, 300⟩
    (Destroy.allGuardedFail (.ok none)) fun _ transport env' hreads => ?_
  have hread : destroyReads (Destroy.allGuardedFail (.ok none)) timedOut = .ok (true,
      timedOut.addHint
        "the remote result could not be reconciled before destroy (ConnectionError: refused)") :=
    rfl
  rw [hread] at hreads
  cases hreads
  exact ⟨rfl, rfl⟩

/-- The VM is still up and serves its `result.json`, which `destroy` absorbs once more. -/
def servingResult : Destroy.Answers :=
  { Destroy.allGuardedFail (.ok none) with
    result := .ok (some [("workload", .str "succeeded"), ("exit_code", .int 0)], .ok)
    absorb := ⟨.ok (some
      { jobId := "j", spec := { name := "n", code := { entry := "main.py" } } }), "now"⟩ }

/-- The reason and the class of the deadline are lost. -/
theorem verdict_rewritten :
    Judged timedOut ∧
      (Destroy.destroy ⟨"j", false, 300⟩ servingResult (desk (some timedOut))).2.env.reason =
        none ∧
      ¬Kept (Says (ReleaseFailed servingResult.release.assignment) timedOut)
        (Destroy.destroy ⟨"j", false, 300⟩ servingResult (desk (some timedOut))).2 := by
  have hlost : (Destroy.destroy ⟨"j", false, 300⟩ servingResult
      (desk (some timedOut))).2.env.reason = none := by decide
  refine ⟨⟨rfl, rfl⟩, hlost, fun h => ?_⟩
  have hreason := congrArg (fun e => e.2.2.2.2) h.env.left
  exact absurd (hlost.symm.trans hreason) nofun

end Teardown
end Job
end MightyColab
