import MightyColab.Job.ApplySuccess

/-!
# What a success carries

A record that says that its job succeeded says nothing of a failure, over any sequence of
commands on the job. The guard names what must not happen: a success that is seen only after a
deadline, a success seen by a record that already has a failure, a disk that does not take the
record of a result, credentials that may still be on the VM of a job that succeeded, and a
failed release of such a VM.
-/

namespace MightyColab
namespace Job

open Lib
open Absorb (Clean)

theorem standing_workload {env env' : JobEnvelope} (h : standing env' = standing env) :
    env'.workload = env.workload := congrArg (fun s => s.1) h

theorem Faultless.of_standing {env env' : JobEnvelope} (heq : standing env' = standing env)
    (h : Faultless env) : Faultless env' := by
  simp only [standing, Prod.mk.injEq] at heq
  exact ⟨heq.2.2.2.1.trans h.left, heq.2.2.2.2.trans h.right⟩

theorem faultless_of_ok {env : JobEnvelope} (h : Fair env) (hok : env.ok = true) :
    Faultless env := by
  unfold JobEnvelope.ok at hok
  simp only [Bool.and_eq_true, Bool.or_eq_true, decide_eq_true_eq] at hok
  rcases hok with ⟨⟨hwork, hoff⟩, hgone⟩
  refine h (fun hfailed => ?_) ⟨hwork, hoff⟩
  rw [hfailed] at hgone
  rcases hgone with hgone | hgone
  · cases hgone
  · cases hgone

/-!
## Results that another command absorbs
-/

theorem absorbProvenance_retryClass {env env' : JobEnvelope} {result : Json.Fields}
    (h : Absorb.absorbProvenance env result = .ok env') : env'.retryClass = env.retryClass := by
  unfold Absorb.absorbProvenance at h
  simp only at h
  split at h
  · cases h
    rfl
  · rcases Fallible.bind_ok h with ⟨cliVersion, _, h⟩
    rcases Fallible.bind_ok h with ⟨payloadVersion, _, h⟩
    cases h
    rfl
  · split at h <;> cases h

/-- With or without a plan, a success that is absorbed into a record without a failure leaves
none. -/
theorem absorbRemoteResult_unmixed {env env' : JobEnvelope} {plan : PlanRead}
    {result : Json.Fields} {now : String}
    (h : absorbRemoteResult env plan result now = .ok env')
    (hfresh : Succeeds result -> Faultless env) : Unmixed env' := by
  intro hclean
  have hwork := (absorbRemoteResult_spec h).2.1
  rw [hclean.left] at hwork
  rcases hfresh hwork with ⟨hfailed, hretry⟩
  unfold absorbRemoteResult at h
  split at h
  · cases h
  · exact absorbResult_unmixed h hfailed hclean
  · rcases Fallible.bind_ok h with ⟨env1, hprovenance, h⟩
    rcases Fallible.bind_ok h with ⟨workload, _, h⟩
    rcases Fallible.bind_ok h with ⟨exitCode, _, h⟩
    rcases Fallible.bind_ok h with ⟨signal, _, h⟩
    rcases Fallible.bind_ok h with ⟨exception, _, h⟩
    cases h
    exact ⟨(Absorb.absorbProvenance_phase hprovenance).right.trans hfailed,
      (absorbProvenance_retryClass hprovenance).trans hretry⟩

theorem recoverOffVmResult_unmixed {env : JobEnvelope} {answer : OffVm} {r : Bool × JobEnvelope}
    (h : recoverOffVmResult answer env = .ok r) (hfresh : forall result problem,
      readOffVmResult answer = .ok (some result, problem) -> Succeeds result -> Faultless env) :
    standing r.2 = standing env ∨ r.1 = true ∧ Unmixed r.2 := by
  unfold recoverOffVmResult at h
  split at h
  · cases h
  · cases h
    refine Or.inl ?_
    simp only
    split <;> rfl
  · next result problem hread =>
      split at h
      · next hrecovered =>
          cases h
          exact Or.inr ⟨rfl, absorbRemoteResult_unmixed hrecovered (hfresh result problem hread)⟩
      · cases h
        exact Or.inl rfl

/-!
## Releases
-/

theorem release_fair {answer : Release} {failure : String} {env : JobEnvelope}
    (h : Unmixed env) : Fair (release answer failure env) := by
  unfold release
  cases nonempty env.endpoint with
  | none => exact fun _ => h
  | some endpoint =>
      simp only
      have hread := readComputeUnits_onlyHints answer.units "release"
        { env with cleanup := (releaseAssignment answer.assignment endpoint).1 }
      have hsame : standing (readComputeUnits answer.units "release"
          { env with cleanup := (releaseAssignment answer.assignment endpoint).1 }).2 =
          standing { env with cleanup := (releaseAssignment answer.assignment endpoint).1 } :=
        standing_of_onlyHints hread
      have hunmixed : Unmixed (readComputeUnits answer.units "release"
          { env with cleanup := (releaseAssignment answer.assignment endpoint).1 }).2 :=
        Unmixed.of_standing hsame h
      by_cases hfailed : (releaseAssignment answer.assignment endpoint).1 = .failed
      · refine fun hnot => absurd ?_ hnot
        have hclean := congrArg (fun s => s.2.2.1) hsame
        simp only [standing] at hclean
        rw [if_pos hfailed]
        split <;> exact hclean.trans hfailed
      · rw [if_neg hfailed]
        split <;> exact fun _ => hunmixed

section Released

variable {env : JobEnvelope}

theorem copyBeforeRelease_standing (transport : Bool) (answer : CopyAnswer) (env : JobEnvelope) :
    standing (copyBeforeRelease transport answer env) = standing env := by
  unfold copyBeforeRelease
  split
  · rfl
  · split <;> rfl

theorem forgetSession_standing (failure : Option String) (env : JobEnvelope) :
    standing (forgetSession failure env) = standing env := by
  unfold forgetSession
  split
  · split <;> rfl
  · rfl

theorem statusReleased_fair {a : Status.Answers} {failure : String} {transport : Bool}
    (h : Unmixed env) : Fair (Records.statusReleased a failure transport env) :=
  (release_fair (h.of_standing (copyBeforeRelease_standing _ _ _))).of_standing
    (forgetSession_standing _ _)

theorem destroyReleased_fair {a : Destroy.Answers} {failure : String} {transport : Bool}
    (h : Unmixed env) : Fair (Records.destroyReleased a failure transport env) :=
  (release_fair (h.of_standing (copyBeforeRelease_standing _ _ _))).of_standing
    (forgetSession_standing _ _)

theorem fair_of_unknown (h : env.workload = .unknown) : Fair env :=
  (unmixed_of_workload (by rw [h]; simp)).fair

theorem statusForced_fair (cause : Option String) (h : Fair env) :
    Fair (Status.forcedVerdict cause env) := by
  unfold Status.forcedVerdict
  simp only
  split
  · exact h.of_standing rfl
  · exact fair_of_unknown rfl

theorem destroyForced_fair (problem : String) (h : Fair env) :
    Fair (Destroy.forcedVerdict problem env) := by
  unfold Destroy.forcedVerdict finalizeHints
  simp only
  split
  · exact h.of_standing rfl
  · exact fair_of_unknown rfl

theorem destroyedVerdict_fair (plan : Option Plan) (note : Option String) (confirmed : Bool)
    (outcome : Option String) (h : Fair env) :
    Fair (Destroy.destroyedVerdict plan note confirmed outcome env) := by
  unfold Destroy.destroyedVerdict finalizeHints
  simp only
  split
  · exact h.of_standing rfl
  · exact fair_of_unknown rfl

theorem orphanVerdict_fair (h : Fair env) : Fair (Status.orphanVerdict env) := by
  intro hcleanup hclean
  refine h hcleanup ⟨hclean.left, ?_⟩
  have hoff := hclean.right
  unfold Status.orphanVerdict at hoff
  simp only at hoff
  split at hoff
  · exact hoff
  · rcases hoff with hoff | hoff <;> cases hoff

end Released

/-!
## `status`
-/

open Records

/-- A result that a `status` may absorb. -/
inductive StatusFinds (a : Status.Answers) (result : Json.Fields) : Prop where
  | observed {p : Status.Pass} : p ∈ a.passes -> observeRemote p.look = .ok (.result result) ->
      StatusFinds a result
  | recovered {p : Status.Pass} {problem : Option String} : p ∈ a.passes ->
      readOffVmResult p.offVm = .ok (some result, problem) -> StatusFinds a result
  | forced {problem : Option String} : readOffVmResult a.offVm = .ok (some result, problem) ->
      StatusFinds a result

/-- What a `status` must not meet. -/
structure StatusCareful (a : Status.Answers) (copy : JobEnvelope) : Prop where
  /-- The VM of a job that succeeded is not there after a failed release. -/
  released : copy.cleanup = .failed -> Unmixed copy
  finds : forall result, StatusFinds a result -> Succeeds result -> Faultless copy
  /-- No success is seen after the deadline. -/
  late : forall p, p ∈ a.passes -> forall result,
    awaitRunnerResult p.cancel.looks runnerStopWaitSeconds = .ok result -> ¬Succeeds result

theorem unmixed_of_careful {copy : JobEnvelope} (h : Fair copy)
    (hreleased : copy.cleanup = .failed -> Unmixed copy) : Unmixed copy := by
  by_cases hfailed : copy.cleanup = .failed
  · exact hreleased hfailed
  · exact h hfailed

section Asking

variable {args : Status.Args} {a : Status.Answers} {copy env env' last : JobEnvelope}
  {orphan : Bool}

theorem noted_standing (h : Noted a copy orphan env) : standing env = standing copy := by
  rcases h with ⟨alive, _, rfl, _⟩
  unfold Status.noteSupervisor
  split <;> rfl

theorem asked_standing (h : Asked a copy orphan env) : standing env = standing copy := by
  rcases h with ⟨noted, hnoted, _, hkeep⟩
  exact (standing_of_onlyHints (Status.ensureKeepAlive_onlyHints hkeep)).trans
    (noted_standing hnoted)

theorem undecided_standing (p : Status.Pass) (staleness : WatchdogStaleness) (env : JobEnvelope)
    (observation : Observation) :
    standing (Status.undecided p staleness env observation).2 = standing env := by
  unfold Status.undecided
  split
  · rfl
  · rfl
  · next record =>
      exact (standing_of_onlyHints (replaceHint_onlyHints watchdogStalledLead
        (staleness.observe p.clock record).1 env) :)
  · rfl

theorem cancelOrphan_unwon {answer : Status.CancelAnswer} {passed : String}
    (hopen : env.workload.terminal = false)
    (hlate : forall result, awaitRunnerResult answer.looks runnerStopWaitSeconds = .ok result ->
      ¬Succeeds result) :
    (Status.cancelOrphanAfterDeadline answer passed env).workload ≠ .succeeded := by
  have hunwon : env.workload ≠ .succeeded := fun heq => by
    rw [heq] at hopen
    cases hopen
  unfold Status.cancelOrphanAfterDeadline
  rcases requestCancel answer.write with ⟨note, confirmed⟩
  cases hawait : awaitRunnerResult answer.looks runnerStopWaitSeconds with
  | error why => simp [JobEnvelope.recordFailure]
  | ok result =>
      cases habsorb : absorbRemoteResult env answer.absorb.plan result answer.absorb.now with
      | error text =>
          simp only [habsorb]
          exact hunwon
      | ok absorbed =>
          simp only [habsorb]
          intro heq
          have hwork := (absorbRemoteResult_spec habsorb).2.1
          rw [show absorbed.workload = .succeeded from heq] at hwork
          exact hlate result hawait hwork

theorem absorbPayload_unmixed {answer : Absorption} {result : Json.Fields}
    (hfresh : Succeeds result -> Faultless env) :
    Unmixed (Status.absorbPayload orphan answer result env) := by
  unfold Status.absorbPayload
  cases habsorb : absorbRemoteResult env answer.plan result answer.now with
  | ok absorbed =>
      have habsorbed : Unmixed absorbed := absorbRemoteResult_unmixed habsorb hfresh
      cases orphan with
      | false => exact habsorbed
      | true => exact habsorbed
  | error error =>
      have habsorbed : Unmixed (Status.unabsorbedVerdict error result env) :=
        unmixed_of_workload (by simp [Status.unabsorbedVerdict, JobEnvelope.recordFailure])
      cases orphan with
      | false => exact habsorbed
      | true => exact habsorbed

/-- A pass leaves what the record says of the end, or ends the job without a mixed verdict. -/
theorem pass_unmixed {p : Status.Pass} {deadline : Option (Rat × String)}
    {staleness : WatchdogStaleness} {turn : Status.Turn} (hcareful : StatusCareful a copy)
    (hp : p ∈ a.passes) (hsame : standing env = standing copy)
    (hopen : copy.workload.terminal = false)
    (h : Status.pass args orphan deadline p staleness env = .ok turn) :
    (exists env', turn = .break env' ∧ Unmixed env') ∨
      exists staleness' env', turn = .again staleness' env' ∧ standing env' = standing copy := by
  rcases Status.pass_cases h with ⟨hcancelled, rfl⟩ | ⟨_, hinted, observation, hhints, hobserve,
    hdecide⟩
  · refine Or.inl ⟨_, rfl, ?_⟩
    refine unmixed_of_workload ?_
    unfold Status.checkDeadline at hcancelled ⊢
    cases deadline with
    | none => cases hcancelled
    | some until_ =>
        simp only at hcancelled ⊢
        split at hcancelled
        · split at hcancelled
          · next hlate hpoll =>
              rw [if_pos hlate, if_pos hpoll]
              refine cancelOrphan_unwon ?_ (hcareful.late p hp)
              have hwork : (replaceHint Status.pastDeadlineLead none env).workload = env.workload :=
                rfl
              rw [hwork, standing_workload hsame]
              exact hopen
          · cases hcancelled
        · cases hcancelled
  · have hstanding : standing hinted = standing copy := (standing_of_onlyHints hhints).trans hsame
    rcases Status.decide_cases hdecide with ⟨result, rfl, rfl⟩ |
      ⟨reason, recovered, _, hrecover, rfl⟩ | ⟨_, _, rfl⟩
    · exact Or.inl ⟨_, rfl, absorbPayload_unmixed fun hsucceeds =>
        (hcareful.finds result (.observed hp hobserve) hsucceeds).of_standing hstanding⟩
    · refine Or.inl ⟨_, rfl, ?_⟩
      have hrecovered := recoverOffVmResult_unmixed hrecover fun result problem hread hsucceeds =>
        (hcareful.finds result (.recovered hp hread) hsucceeds).of_standing hstanding
      rcases recovered with ⟨found, env'⟩
      cases found with
      | false => exact unmixed_of_workload (by simp [Status.endedEnv, Status.lostVerdict,
          JobEnvelope.recordFailure])
      | true =>
          rcases hrecovered with heq | ⟨_, hunmixed⟩
          · refine unmixed_of_workload fun hwon => ?_
            have hwork := standing_workload (heq.trans hstanding)
            rw [show env'.workload = .succeeded from hwon] at hwork
            rw [← hwork] at hopen
            cases hopen
          · exact hunmixed
    · exact Or.inr ⟨_, _, rfl, (undecided_standing _ _ _ _).trans hstanding⟩

theorem loopEnv_unmixed {deadline : Option (Rat × String)} (hcareful : StatusCareful a copy)
    (hcopy : Unmixed copy) (hopen : copy.workload.terminal = false) :
    forall (passes : List Status.Pass) (staleness : WatchdogStaleness) (env : JobEnvelope),
      (forall p, p ∈ passes -> p ∈ a.passes) -> standing env = standing copy ->
        forall env', loopEnv args orphan deadline passes staleness env = some env' ->
          Unmixed env' := by
  intro passes
  induction passes with
  | nil => exact fun _ _ _ _ env' h => by cases h
  | cons p rest ih =>
      intro staleness env hmem hsame env' h
      unfold loopEnv at h
      cases hpass : Status.pass args orphan deadline p staleness env with
      | error text =>
          rw [hpass] at h
          cases h
      | ok turn =>
          rw [hpass] at h
          rcases pass_unmixed hcareful (hmem p List.mem_cons_self) hsame hopen hpass with
            ⟨env1, rfl, hunmixed⟩ | ⟨staleness1, env1, rfl, hstanding⟩
          · cases h
            exact hunmixed
          · simp only at h
            split at h
            · exact ih _ _ (fun q hq => hmem q (List.mem_cons_of_mem _ hq)) hstanding env' h
            · cases h
              exact hcopy.of_standing hstanding

theorem looked_unmixed (hcareful : StatusCareful a copy) (hcopy : Unmixed copy)
    (hasked : Asked a copy orphan env) (h : Looked args a orphan env env') : Unmixed env' := by
  have hsame := asked_standing hasked
  rcases h with ⟨_, rfl⟩ | ⟨hopen, deadline, _, _, hloop⟩
  · exact hcopy.of_standing hsame
  · rw [standing_workload hsame] at hopen
    exact loopEnv_unmixed hcareful hcopy hopen a.passes {} env (fun _ h => h) hsame env' hloop

theorem ended_fair (h : Unmixed env) (hended : Ended a env last) : Fair last := by
  cases hended with
  | kept spec _ _ =>
      exact (Apply.recordVmKept_fair env.jobId h).of_standing rfl
  | released spec _ _ => exact orphanVerdict_fair (statusReleased_fair h)

theorem last_fair (jobId : String) (consulted : Bool) (h : Fair env) :
    Fair (finalizeHints (Status.notConsulted jobId consulted env)) := by
  refine Fair.of_standing ?_ h
  exact (standing_of_onlyHints (Concurrent.notConsulted_onlyHints jobId consulted env) :)

theorem first_fair (hcareful : StatusCareful a copy) (hcopy : Unmixed copy)
    (h : First args a copy env) : Fair env := by
  cases h with
  | looked hasked hlooked _ => exact (looked_unmixed hcareful hcopy hasked hlooked).fair
  | finished hasked hlooked _ hended =>
      exact ended_fair (looked_unmixed hcareful hcopy hasked hlooked) hended

theorem statusWrites_fair (hcareful : StatusCareful a copy) (hfair : Fair copy)
    (h : StatusWrites args a copy env) : Fair env := by
  have hcopy : Unmixed copy := unmixed_of_careful hfair hcareful.released
  cases h with
  | apart hnoted _ => exact last_fair _ _ (hfair.of_standing (noted_standing hnoted))
  | missing hint hnoted _ _ =>
      have hsame := noted_standing hnoted
      exact last_fair _ _ (Fair.of_standing (show standing (JobEnvelope.addHint _ hint) = _ from
        hsame) hfair)
  | forced transport cause hnoted _ hhints _ _ hrecover =>
      have hsame := (standing_of_onlyHints hhints).trans (noted_standing hnoted)
      refine statusForced_fair cause (statusReleased_fair ?_)
      unfold Status.recover at hrecover
      rcases hoff : recoverOffVmResult a.offVm _ with text | recovered
      · rw [hoff] at hrecover
        cases hrecover
      · rw [hoff] at hrecover
        cases hrecover
        rcases recoverOffVmResult_unmixed hoff (fun result problem hread hsucceeds =>
          (hcareful.finds result (.forced hread) hsucceeds).of_standing hsame) with heq |
            ⟨_, hunmixed⟩
        · exact hcopy.of_standing (heq.trans hsame)
        · exact hunmixed
  | ended hasked _ hended => exact ended_fair (hcopy.of_standing (asked_standing hasked)) hended
  | first hfirst => exact first_fair hcareful hcopy hfirst
  | last hfirst => exact last_fair _ _ (first_fair hcareful hcopy hfirst)

end Asking

/-!
## `destroy`
-/

/-- A result that a `destroy` may absorb. -/
inductive DestroyFinds (args : Destroy.Args) (a : Destroy.Answers) (result : Json.Fields) :
    Prop where
  | read {read : Option Json.Fields × Transport.ReadStatus} : a.result = .ok read ->
      okRecord read = some result -> DestroyFinds args a result
  | recovered {problem : Option String} : readOffVmResult a.offVm = .ok (some result, problem) ->
      DestroyFinds args a result
  | awaited : awaitRunnerResult a.looks args.wait = .ok result -> DestroyFinds args a result

/-- What a `destroy` must not meet. -/
structure DestroyCareful (args : Destroy.Args) (a : Destroy.Answers) (copy : JobEnvelope) :
    Prop where
  released : copy.cleanup = .failed -> Unmixed copy
  finds : forall result, DestroyFinds args a result -> Succeeds result -> Faultless copy
  /-- Results are those of runs that have ended. -/
  concludes : forall result, DestroyFinds args a result -> Concludes result

section Destroying

variable {args : Destroy.Args} {a : Destroy.Answers} {copy env : JobEnvelope} {transport : Bool}

def AsRead (copy env : JobEnvelope) : Prop :=
  standing env = standing copy ∨ env.workload.terminal = true ∧ Unmixed env

theorem AsRead.unmixed (hcopy : Unmixed copy) (h : AsRead copy env) : Unmixed env := by
  rcases h with hsame | ⟨_, hunmixed⟩
  · exact hcopy.of_standing hsame
  · exact hunmixed

theorem reconcile_asRead (hcareful : DestroyCareful args a copy) (transport : Bool) :
    AsRead copy (Destroy.reconcile a transport copy) := by
  unfold Destroy.reconcile
  simp only
  split
  · exact Or.inl rfl
  · cases hresult : a.result with
    | error text => exact Or.inl rfl
    | ok read =>
        simp only
        cases hrecord : okRecord read with
        | none =>
            simp only
            split
            · exact Or.inl rfl
            · exact Or.inl rfl
        | some result =>
            have hfinds : DestroyFinds args a result := .read hresult hrecord
            simp only
            split
            · next absorbed habsorb =>
                have hunmixed : Unmixed absorbed :=
                  absorbRemoteResult_unmixed habsorb (hcareful.finds result hfinds)
                refine Or.inr ⟨?_, hunmixed.of_standing rfl⟩
                exact hcareful.concludes result hfinds absorbed.workload
                  (absorbRemoteResult_spec habsorb).2.1
            · exact Or.inl rfl

theorem read_asRead (hcareful : DestroyCareful args a copy) (h : Read a copy transport env) :
    AsRead copy env := by
  have hread := reconcile_asRead hcareful transport
  have hrecover := h.right
  generalize Destroy.reconcile a transport copy = read at hread hrecover
  unfold Destroy.recover at hrecover
  split at hrecover
  · cases hrecover
    exact hread
  · next hopen =>
      rcases hread with hsame | ⟨hterminal, _⟩
      · split at hrecover
        · cases hrecover
        · next recovered hoff =>
            cases hrecover
            rcases recoverOffVmResult_unmixed hoff (fun result problem hresult hsucceeds =>
              (hcareful.finds result (.recovered hresult) hsucceeds).of_standing hsame) with heq |
                ⟨_, hunmixed⟩
            · exact Or.inl (show standing recovered = _ from heq.trans hsame)
            · refine Or.inr ⟨?_, hunmixed⟩
              unfold recoverOffVmResult at hoff
              split at hoff
              · cases hoff
              · cases hoff
              · next result problem hresult =>
                  split at hoff
                  · next habsorb =>
                      cases hoff
                      exact hcareful.concludes result (.recovered hresult) _
                        (absorbRemoteResult_spec habsorb).2.1
                  · cases hoff
        · next recovered hoff =>
            cases hrecover
            rcases recoverOffVmResult_unmixed hoff (fun result problem hresult hsucceeds =>
              (hcareful.finds result (.recovered hresult) hsucceeds).of_standing hsame) with heq |
                ⟨hfound, _⟩
            · exact Or.inl (heq.trans hsame)
            · cases hfound
      · exact absurd hterminal hopen

theorem takeOver_standing {current : Option JobEnvelope}
    {latest : Except String (Option JobEnvelope)}
    (hlatest : forall env', latest = .ok env' -> env' = some copy) :
    standing (Destroy.takeOver args current latest env) = standing copy ∨
      standing (Destroy.takeOver args current latest env) = standing env := by
  unfold Destroy.takeOver
  cases latest with
  | error text => cases current <;> exact Or.inr rfl
  | ok latest =>
      rw [hlatest latest rfl]
      cases current <;> exact Or.inl rfl

theorem before_unmixed (hcareful : DestroyCareful args a copy) (hcopy : Unmixed copy)
    (h : Before args a copy transport env) : Unmixed env := by
  cases h with
  | read hread _ => exact (read_asRead hcareful hread).unmixed hcopy
  | @awaited env hread hwaits _ =>
      have hasRead := read_asRead hcareful hread
      unfold Destroy.absorbAwaited
      cases hawait : awaitRunnerResult a.looks args.wait with
      | error why => exact (hasRead.unmixed hcopy).of_standing rfl
      | ok result =>
          simp only
          split
          · next absorbed habsorb =>
              refine @Unmixed.of_standing absorbed _ rfl ?_
              refine absorbRemoteResult_unmixed habsorb fun hsucceeds => ?_
              rcases hasRead with hsame | ⟨hterminal, _⟩
              · exact (hcareful.finds result (.awaited hawait) hsucceeds).of_standing hsame
              · rw [waits, hterminal] at hwaits
                cases hwaits
          · exact (hasRead.unmixed hcopy).of_standing rfl
  | @tookOver env current latest hread _ _ hlatest =>
      rcases @takeOver_standing args _ env current _ hlatest with hsame | hsame
      · exact hcopy.of_standing hsame
      · exact ((read_asRead hcareful hread).unmixed hcopy).of_standing hsame

theorem destroyWrites_fair (hcareful : DestroyCareful args a copy) (hfair : Fair copy)
    (h : DestroyWrites args a copy env) : Fair env := by
  have hcopy : Unmixed copy := unmixed_of_careful hfair hcareful.released
  cases h with
  | forced problem _ hread _ =>
      exact destroyForced_fair problem
        (destroyReleased_fair ((read_asRead hcareful hread).unmixed hcopy))
  | left note confirmed _ hread =>
      exact ((read_asRead hcareful hread).unmixed hcopy).fair.of_standing rfl
  | released plan note confirmed outcome _ hbefore =>
      exact destroyedVerdict_fair plan note confirmed outcome
        (destroyReleased_fair (before_unmixed hcareful hcopy hbefore))

end Destroying

/-!
## Any sequence of commands
-/

namespace Sequence

variable {s next : State} {action : Action} {env : JobEnvelope}

/-- What a command must not meet, in the state that it begins in. -/
def Undisturbed (s : State) : Action -> Prop
  | .apply _ a => a.body.Careful
  | .finish => forall w, s.applying = some w -> Clean w.proc.env ->
      ¬Apply.SecretKept w.answers.finally_ w.proc
  | .status _ a => forall copy, s.disk = some copy -> StatusCareful a copy
  | .destroy args a => forall copy, s.disk = some copy -> DestroyCareful args (alone a) copy

/-- The records that a command puts on disk. -/
def Writes (s : State) : Action -> JobEnvelope -> Prop
  | .apply args a, env => .wrote env ∈ (Apply.supervised args a (Apply.start args s.disk)).2.log
  | .finish, env => exists w, s.applying = some w ∧
      .wrote env ∈ (Apply.finallyBlock w.args.plan w.answers.finally_ w.proc).2.log
  | .status args a, env => .wrote env ∈ (Status.status args a (Concurrent.desk s.disk)).2.log
  | .destroy args a, env =>
      .wrote env ∈ (Destroy.destroy args (alone a) (Concurrent.desk s.disk)).2.log

/-- The record on disk is fair, and so is all of an apply that has come to its `finally`
block. -/
structure Earned (s : State) : Prop where
  disk : forall env, s.disk = some env -> Fair env
  applying : forall w, s.applying = some w -> Apply.Filed Apply.Open Fair w.proc

theorem start_filed (args : Apply.Args) (hdisk : forall env, s.disk = some env -> Fair env) :
    Apply.Filed Apply.Undecided Fair (Apply.start args s.disk) := by
  refine ⟨⟨by simp [Apply.start, Apply.newEnvelope], rfl, rfl, rfl, rfl⟩, fun env hmem => ?_,
    hdisk⟩
  cases hmem

theorem writes_fair (hs : Earned s) (hcareful : Undisturbed s action) (h : Writes s action env) :
    Fair env := by
  cases action with
  | apply args a =>
      exact (Apply.supervised_open args hcareful (start_filed args hs.disk)).wrote env h
  | finish =>
      rcases h with ⟨w, hw, hwrote⟩
      exact (Apply.finallyBlock_fair w.args.plan w.answers.finally_ (hs.applying w hw)
        (hcareful w hw)).wrote env hwrote
  | status args a =>
      cases hdisk : s.disk with
      | none =>
          rw [Writes, hdisk, status_none] at h
          cases h
      | some copy =>
          rw [Writes, hdisk] at h
          exact statusWrites_fair (hcareful copy hdisk) (hs.disk copy hdisk)
            ((status_only args a copy).left env h)
  | destroy args a =>
      cases hdisk : s.disk with
      | none =>
          rw [Writes, hdisk, destroy_none] at h
          cases h
      | some copy =>
          rw [Writes, hdisk] at h
          exact destroyWrites_fair (hcareful copy hdisk) (hs.disk copy hdisk)
            ((destroy_only args (alone_alone a) copy).left env h)

theorem Earned.exit {next : State} {writes : JobEnvelope -> JobEnvelope -> Prop}
    (hs : Earned s) (hidle : next.applying = none)
    (hdisk : next.disk = s.disk ∨ exists copy env, s.disk = some copy ∧ next.disk = some env ∧
      writes copy env)
    (hfair : forall copy env, s.disk = some copy -> writes copy env -> Fair env) :
    Earned next where
  disk env henv := by
    rcases hdisk with hsame | ⟨copy, written, hcopy, hnext, hwrites⟩
    · exact hs.disk env (hsame.symm.trans henv)
    · rw [hnext] at henv
      rw [← Option.some.inj henv]
      exact hfair copy written hcopy hwrites
  applying w hw := by
    rw [hidle] at hw
    cases hw

theorem undisturbed_preserved : machine.Preserved Undisturbed Earned := by
  intro s action next hs hcareful hstep
  cases action with
  | apply args a =>
      rcases apply_cases hstep with ⟨_, rfl | ⟨_, rfl⟩⟩
      · exact hs
      · have hopen := Apply.supervised_open args hcareful (start_filed args hs.disk)
        refine ⟨hopen.disk, fun w hw => ?_⟩
        cases hw
        exact hopen
  | finish =>
      rcases finish_cases hstep with ⟨w, hw, rfl⟩
      have hfair := Apply.finallyBlock_fair w.args.plan w.answers.finally_ (hs.applying w hw)
        (hcareful w hw)
      exact ⟨hfair.disk, fun w hw => by cases hw⟩
  | status args a =>
      rcases status_cases hstep with ⟨_, hidle, hdisk⟩
      exact hs.exit hidle hdisk fun copy _ hcopy =>
        statusWrites_fair (hcareful copy hcopy) (hs.disk copy hcopy)
  | destroy args a =>
      rcases destroy_cases hstep with ⟨_, hidle, hdisk⟩
      exact hs.exit hidle hdisk fun copy _ hcopy =>
        destroyWrites_fair (hcareful copy hcopy) (hs.disk copy hcopy)

theorem undisturbed_earned (h : machine.Reaches Undisturbed s) : Earned s := by
  refine Machine.reaches_invariant (fun s hs => ?_) undisturbed_preserved h
  rw [show s = { disk := none } from hs]
  refine ⟨fun env henv => ?_, fun w hw => ?_⟩
  · cases henv
  · cases hw

/-- In undisturbed runs a job that is recorded as succeeded has no failed phase and nothing to
retry, in every record that any of its commands writes. -/
theorem success_faultless (h : machine.Reaches Undisturbed s) (hcareful : Undisturbed s action)
    (hwrites : Writes s action env) (hok : env.ok = true) : Faultless env :=
  faultless_of_ok (writes_fair (undisturbed_earned h) hcareful hwrites) hok

def successResult : Json.Fields :=
  [("schema_version", .str "1"), ("workload", .str "succeeded"), ("offload", .str "not_required")]

/-- An `apply` whose first pass finds it. -/
def succeeding : Apply.Answers :=
  { body := {
      provision := { candidates := fun _ =>
        { outcome := .granted ⟨⟨"e", Apply.e_nonempty⟩, some "T4"⟩ } }
      ticks := [{ time := 0, result := { read := .ok (some successResult, .ok) } }] } }

theorem succeeding_careful : succeeding.body.Careful where
  lands t ht := by
    rw [List.mem_singleton.mp ht]
    exact ⟨rfl, fun e he => by cases he⟩
  cancel := by
    refine ⟨fun result hresult => ?_, fun e he => by cases he⟩
    have hnone : (awaitRunnerResult succeeding.body.cancel.looks runnerStopWaitSeconds).isOk =
        false := by decide
    rw [hresult] at hnone
    cases hnone

def lastWritten : List Deed -> Option JobEnvelope
  | .wrote env :: _ => some env
  | _ => none

theorem lastWritten_mem {log : List Deed} (h : lastWritten log = some env) :
    .wrote env ∈ log := by
  unfold lastWritten at h
  split at h
  · cases h
    exact List.mem_cons_self
  · cases h

theorem success_faultless_first : exists s env, machine.Reaches Undisturbed s ∧
    Undisturbed s .finish ∧ Writes s .finish env ∧ env.ok = true ∧ env.done = true ∧
      Faultless env := by
  let start : State := { disk := none }
  let run : List Action := [.apply Apply.t4Job succeeding]
  have hrun : ((machine.exec start run).bind fun s => s.applying.bind fun w =>
      (lastWritten (Apply.finallyBlock w.args.plan w.answers.finally_ w.proc).2.log).map
        fun env => (env.ok, env.done, (Apply.beforeVm w.answers.finally_ w.proc).1)) =
      some (true, true, .ok true) := by decide +kernel
  rcases Option.bind_eq_some_iff.mp hrun with ⟨s, hexec, hrun⟩
  rcases Option.bind_eq_some_iff.mp hrun with ⟨w, hw, hrun⟩
  rcases Option.map_eq_some_iff.mp hrun with ⟨env, hwritten, hfields⟩
  rcases Prod.mk.inj hfields with ⟨hok, hfields⟩
  rcases Prod.mk.inj hfields with ⟨hdone, hremoved⟩
  have hreach : machine.Reaches Undisturbed s :=
    ⟨start, run, rfl, ⟨succeeding_careful, fun _ _ => trivial⟩, hexec⟩
  have hfinish : Undisturbed s .finish := by
    rintro w' hw' _ ⟨t, hkept⟩
    rw [hw] at hw'
    cases hw'
    rw [hkept] at hremoved
    cases hremoved
  have hwrites : Writes s .finish env := ⟨w, hw, lastWritten_mem hwritten⟩
  exact ⟨s, env, hreach, hfinish, hwrites, hok, hdone,
    success_faultless hreach hfinish hwrites hok⟩

end Sequence

end Job
end MightyColab
