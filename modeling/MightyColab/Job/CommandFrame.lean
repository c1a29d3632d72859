import MightyColab.Job.Concurrent
import MightyColab.Job.DestroyRelease
import MightyColab.Job.StatusPass

/-!
# What `status` and `destroy` leave alone

Every step of the two commands but a release leaves the VM's fields of the record as they
are. So the records that a command writes name the VM of the record it works from, and
say that it is gone only where a release has confirmed it.
-/

namespace MightyColab
namespace Job

open Lib

namespace Concurrent

def SameCleanup (env env' : JobEnvelope) : Prop :=
  env'.endpoint = env.endpoint ∧ env'.cleanup = env.cleanup

variable {env env' env'' : JobEnvelope}

namespace SameCleanup

theorem refl (env : JobEnvelope) : SameCleanup env env := ⟨rfl, rfl⟩

theorem trans (h : SameCleanup env env') (h' : SameCleanup env' env'') :
    SameCleanup env env'' :=
  ⟨h'.left.trans h.left, h'.right.trans h.right⟩

theorem of_onlyHints (h : OnlyHints env env') : SameCleanup env env' :=
  ⟨h.same JobEnvelope.endpoint, h.same JobEnvelope.cleanup⟩

theorem of_sameVm (h : Absorb.SameVm env env') : SameCleanup env env' :=
  ⟨h.endpoint, h.cleanup⟩

end SameCleanup

/-!
## Hints and results
-/

theorem hintOnce_onlyHints (env : JobEnvelope) (hint : String) :
    OnlyHints env (if hint ∈ env.hints then env else env.addHint hint) := by
  split
  · exact OnlyHints.refl env
  · exact addHint_onlyHints env hint

theorem notConsulted_onlyHints (jobId : String) (consulted : Bool) (env : JobEnvelope) :
    OnlyHints env (Status.notConsulted jobId consulted env) := by
  unfold Status.notConsulted
  split
  · exact OnlyHints.refl env
  · exact hintOnce_onlyHints env _

theorem recoverOffVmResult_cases {answer : OffVm} {r : Bool × JobEnvelope}
    (h : recoverOffVmResult answer env = .ok r) :
    OnlyHints env r.2 ∨ r.1 = true ∧ Absorb.SameVm env r.2 := by
  unfold recoverOffVmResult at h
  split at h
  · cases h
  · cases h
    refine Or.inl ?_
    simp only
    split
    · exact addHint_onlyHints env _
    · exact OnlyHints.refl env
  · split at h
    · next habsorb =>
        cases h
        exact Or.inr ⟨rfl, (absorbRemoteResult_spec habsorb).left⟩
    · cases h
      exact Or.inl (addHint_onlyHints env _)

theorem recoverOffVmResult_same {answer : OffVm} {r : Bool × JobEnvelope}
    (h : recoverOffVmResult answer env = .ok r) : SameCleanup env r.2 := by
  rcases recoverOffVmResult_cases h with honly | ⟨_, hvm⟩
  · exact SameCleanup.of_onlyHints honly
  · exact SameCleanup.of_sameVm hvm

/-!
## The passes of `status`
-/

theorem noteSupervisor_same (alive : Bool) (env : JobEnvelope) :
    SameCleanup env (Status.noteSupervisor alive env) := by
  unfold Status.noteSupervisor
  split <;> exact ⟨rfl, rfl⟩

theorem statusRecover_same {answer : OffVm} (h : Status.recover answer env = .ok env') :
    SameCleanup env env' := by
  unfold Status.recover at h
  cases hrecover : recoverOffVmResult answer env with
  | error text =>
      rw [hrecover] at h
      cases h
  | ok r =>
      rw [hrecover] at h
      cases h
      exact recoverOffVmResult_same hrecover

theorem cancelOrphan_same (answer : Status.CancelAnswer) (passed : String)
    (env : JobEnvelope) :
    SameCleanup env (Status.cancelOrphanAfterDeadline answer passed env) := by
  unfold Status.cancelOrphanAfterDeadline
  simp only
  cases awaitRunnerResult answer.looks runnerStopWaitSeconds with
  | error why => exact ⟨rfl, rfl⟩
  | ok result =>
      simp only
      cases habsorb : absorbRemoteResult env answer.absorb.plan result answer.absorb.now with
      | error error => exact ⟨rfl, rfl⟩
      | ok env' =>
          have hvm := (absorbRemoteResult_spec habsorb).left
          exact ⟨hvm.endpoint, hvm.cleanup⟩

theorem checkDeadline_same (args : Status.Args) (deadline : Option (Rat × String))
    (pass : Status.Pass) (env : JobEnvelope) :
    SameCleanup env (Status.checkDeadline args deadline pass env).2 := by
  unfold Status.checkDeadline
  split
  · exact SameCleanup.refl env
  · split
    · split
      · exact SameCleanup.trans (SameCleanup.of_onlyHints (replaceHint_onlyHints _ _ env))
          (cancelOrphan_same _ _ _)
      · exact SameCleanup.of_onlyHints (replaceHint_onlyHints _ _ env)
    · exact SameCleanup.refl env

theorem absorbPayload_same (orphan : Bool) (answer : Absorption) (result : Json.Fields)
    (env : JobEnvelope) : SameCleanup env (Status.absorbPayload orphan answer result env) := by
  unfold Status.absorbPayload
  cases habsorb : absorbRemoteResult env answer.plan result answer.now with
  | error error => cases orphan <;> exact ⟨rfl, rfl⟩
  | ok env' =>
      have hvm := (absorbRemoteResult_spec habsorb).left
      cases orphan <;> exact ⟨hvm.endpoint, hvm.cleanup⟩

theorem undecided_same (pass : Status.Pass) (staleness : WatchdogStaleness)
    (env : JobEnvelope) (observation : Observation) :
    SameCleanup env (Status.undecided pass staleness env observation).2 := by
  unfold Status.undecided
  split
  · exact ⟨rfl, rfl⟩
  · exact ⟨rfl, rfl⟩
  · exact ⟨rfl, rfl⟩
  · exact SameCleanup.refl env

def turnEnv : Status.Turn -> JobEnvelope
  | .break env => env
  | .again _ env => env

theorem decide_same {orphan : Bool} {pass : Status.Pass} {staleness : WatchdogStaleness}
    {observation : Observation} {turn : Status.Turn}
    (h : Status.decide_ orphan pass staleness env observation = .ok turn) :
    SameCleanup env (turnEnv turn) := by
  rcases Status.decide_cases h with ⟨result, _, rfl⟩ | ⟨reason, recovered, _, hrecover, rfl⟩ |
    ⟨_, _, rfl⟩
  · exact absorbPayload_same _ _ _ _
  · have hsame := recoverOffVmResult_same hrecover
    rcases recovered with ⟨found, env'⟩
    cases found <;> exact hsame
  · exact undecided_same _ _ _ _

theorem pass_same {args : Status.Args} {orphan : Bool} {deadline : Option (Rat × String)}
    {pass : Status.Pass} {staleness : WatchdogStaleness} {turn : Status.Turn}
    (h : Status.pass args orphan deadline pass staleness env = .ok turn) :
    SameCleanup env (turnEnv turn) := by
  rcases Status.pass_cases h with ⟨_, rfl⟩ | ⟨_, hinted, observation, hhints, _, hdecide⟩
  · exact checkDeadline_same args deadline pass env
  · exact (SameCleanup.of_onlyHints hhints).trans (decide_same hdecide)

/-!
## The steps of `destroy`
-/

theorem reconcile_same (a : Destroy.Answers) (transport : Bool) (env : JobEnvelope) :
    SameCleanup env (Destroy.reconcile a transport env) := by
  unfold Destroy.reconcile
  cases transport with
  | false => exact SameCleanup.refl env
  | true =>
      simp only [Bool.not_true, Bool.false_eq_true, if_false]
      split
      · exact ⟨rfl, rfl⟩
      · split
        · split
          · next h =>
              have hvm := (absorbRemoteResult_spec h).left
              exact ⟨hvm.endpoint, hvm.cleanup⟩
          · exact ⟨rfl, rfl⟩
        · split <;> exact ⟨rfl, rfl⟩

theorem destroyRecover_same {a : Destroy.Answers}
    (h : Destroy.recover a env = .ok env') : SameCleanup env env' := by
  unfold Destroy.recover at h
  split at h
  · cases h
    exact SameCleanup.refl env
  · cases hrecover : recoverOffVmResult a.offVm env with
    | error text =>
        rw [hrecover] at h
        cases h
    | ok r =>
        have hsame := recoverOffVmResult_same hrecover
        rcases r with ⟨found, recovered⟩
        rw [hrecover] at h
        cases found <;> cases h <;> exact hsame

theorem absorbAwaited_same (a : Destroy.Answers) (wait : Nat) (env : JobEnvelope) :
    SameCleanup env (Destroy.absorbAwaited a wait env).2 := by
  unfold Destroy.absorbAwaited
  split
  · split
    · next h =>
        have hvm := (absorbRemoteResult_spec h).left
        exact ⟨hvm.endpoint, hvm.cleanup⟩
    · exact ⟨rfl, rfl⟩
  · exact ⟨rfl, rfl⟩

theorem takesOver_iff {args : Destroy.Args} {a : Destroy.Answers} {copy : JobEnvelope} :
    takesOver args a copy = true <->
      exists env, Destroy.openTransport a copy = .ok true ∧
        Destroy.recover a (Destroy.reconcile a true copy) = .ok env ∧
        args.cancelOnly = false ∧ env.workload.terminal = false ∧
        (Destroy.cancelRunner a true env).2 = true ∧ 0 < args.wait ∧
        a.supervisorAlive = .ok true ∧ a.latest.fault = none := by
  constructor
  · intro h
    unfold takesOver at h
    split at h
    · cases h
    · next transport hopen =>
        split at h
        · cases h
        · next env hrecover =>
            simp only [Bool.and_eq_true, Bool.not_eq_true', decide_eq_true_eq,
              Option.isNone_iff_eq_none] at h
            rcases h with ⟨⟨⟨⟨⟨⟨hfull, hopen'⟩, rfl⟩, hconfirmed⟩, hwait⟩, hmatches⟩, hfault⟩
            have halive : a.supervisorAlive = .ok true := by
              cases h : a.supervisorAlive with
              | error text => simp [h] at hmatches
              | ok alive => cases alive <;> simp_all
            exact ⟨env, hopen, hrecover, hfull, hopen', hconfirmed, hwait, halive, hfault⟩
  · rintro ⟨env, hopen, hrecover, hfull, hopen', hconfirmed, hwait, halive, hfault⟩
    simp [takesOver, hopen, hrecover, hfull, hopen', hconfirmed, hwait, halive, hfault]

/-!
## Records that stay good

The ends of the two commands, for any predicate on records that hints, a write and a
release keep, and with it the verdict that the end records.
-/

structure Closed (answer : Release) (good : List Deed -> JobEnvelope -> Prop) : Prop where
  hints : forall log env env', OnlyHints env env' -> good log env -> good log env'
  write : Steady good
  release : forall failure log env, good log env ->
    good (((nonempty env.endpoint).map Deed.release).toList ++ log)
      (release answer failure env)

namespace Closed

variable {answer : Release} {good : List Deed -> JobEnvelope -> Prop}

theorem edit (h : Closed answer good) {f : JobEnvelope -> JobEnvelope}
    (hf : forall env, OnlyHints env (f env)) :
    Prog.Keeps (Kept good) (Command.modifyEnv f) :=
  kept_modifyEnv fun log env => h.hints log env (f env) (hf env)

theorem releaseVm (h : Closed answer good) (failure : String) :
    Prog.Keeps (Kept good) (Command.releaseVm answer failure) :=
  kept_release (h.release failure)

theorem replace {s : Desk} (hs : Kept good s) (hgood : good s.log env) :
    Kept good { s with env } := ⟨hgood, hs.wrote⟩

section Status

variable {a : Status.Answers} (h : Closed a.release good) (args : Status.Args)

include h

theorem statusConclude (consulted : Bool) :
    Prog.Keeps (Kept good) (Status.conclude args a consulted) := by
  unfold Status.conclude
  apply Prog.Keeps.bind (kept_modifyEnv fun log env hs => h.hints log _ _
    (finalizeHints_onlyHints _) (h.hints log env _ (notConsulted_onlyHints _ _ _) hs))
  intro _
  exact Prog.Keeps.bind (kept_write h.write _) fun _ => kept_attempted a.emit

theorem forceRelease (transport : Bool) {cause : Option String}
    (hforced : forall log env, good log env -> good log (Status.forcedVerdict cause env)) :
    Prog.Keeps (Kept good) (Status.forceReleaseUnconfirmedSecret a transport cause) := by
  unfold Status.forceReleaseUnconfirmedSecret
  apply Prog.Keeps.bind (h.edit (copyBeforeRelease_onlyHints _ _))
  intro _
  apply Prog.Keeps.bind (h.releaseVm _)
  intro _
  apply Prog.Keeps.bind (h.edit (forgetSession_onlyHints _))
  intro _
  apply Prog.Keeps.bind (kept_modifyEnv hforced)
  intro _
  apply Prog.Keeps.bind (kept_write h.write _)
  intro _
  exact Prog.Keeps.bind (kept_attempted a.emit) fun _ => Prog.Keeps.raise _

theorem releaseOrphanedJob
    (hkept : forall log env jobId, good log env ->
      good log { recordVmKept env jobId with supervisor := .finished })
    (horphan : forall log env, good log env -> good log (Status.orphanVerdict env)) :
    Prog.Keeps (Kept good) (Status.releaseOrphanedJob a) := by
  unfold Status.releaseOrphanedJob
  apply Command.keeps_lift_bind
  intro spec _
  apply Prog.Keeps.get_bind
  intro s hs
  split
  · refine Prog.Keeps.bind (kept_modifyEnv fun log env => hkept log env _) (fun _ => ?_) s hs
    exact kept_write h.write _
  · refine Prog.Keeps.bind (h.edit (copyBeforeRelease_onlyHints _ _)) (fun _ => ?_) s hs
    apply Prog.Keeps.bind (kept_attempted a.stopKeepAlive)
    intro _
    apply Prog.Keeps.bind (h.releaseVm _)
    intro _
    apply Prog.Keeps.bind (h.edit (forgetSession_onlyHints _))
    intro _
    apply Prog.Keeps.bind (kept_modifyEnv horphan)
    intro _
    exact kept_write h.write _

end Status

section Destroy

variable {a : Destroy.Answers} (h : Closed a.release good)

include h

theorem releaseAndRecord (plan : Option Plan) (transport : Bool) (note : Option String)
    (confirmed : Bool) (outcome : Option String)
    (hdestroyed : forall log env, good log env ->
      good log (Destroy.destroyedVerdict plan note confirmed outcome env)) :
    Prog.Keeps (Kept good)
      (Destroy.releaseAndRecord a plan transport note confirmed outcome) := by
  unfold Destroy.releaseAndRecord
  apply Prog.Keeps.bind (h.edit (copyBeforeRelease_onlyHints _ _))
  intro _
  apply Prog.Keeps.bind (kept_attempted a.keepAlive)
  intro _
  apply Prog.Keeps.bind (h.releaseVm _)
  intro _
  apply Prog.Keeps.bind (h.edit (forgetSession_onlyHints _))
  intro _
  apply Prog.Keeps.bind (kept_modifyEnv hdestroyed)
  intro _
  apply Prog.Keeps.bind (kept_write h.write _)
  intro _
  exact kept_still (Destroy.report_still a)

theorem releaseForced (transport : Bool) (problem : Option String)
    (hforced : forall log env text, good log env ->
      good log (Destroy.forcedVerdict text env)) :
    Prog.Keeps (Kept good) (Destroy.releaseForced a transport problem) := by
  unfold Destroy.releaseForced
  apply Prog.Keeps.bind (h.edit (copyBeforeRelease_onlyHints _ _))
  intro _
  apply Prog.Keeps.bind (kept_attempted a.keepAlive)
  intro _
  apply Prog.Keeps.bind (h.releaseVm _)
  intro _
  apply Prog.Keeps.bind (h.edit (forgetSession_onlyHints _))
  intro _
  apply Prog.Keeps.bind (kept_modifyEnv fun log env => hforced log env _)
  intro _
  apply Prog.Keeps.bind (kept_write h.write _)
  intro _
  exact Prog.Keeps.bind (kept_attempted a.emit) fun _ => Prog.Keeps.raise _

theorem leaveRunning (note : Option String) (confirmed : Bool)
    (hcancel : forall log env, good log env ->
      good log (Destroy.cancelOnlyVerdict note confirmed env)) :
    Prog.Keeps (Kept good) (Destroy.leaveRunning a note confirmed) := by
  unfold Destroy.leaveRunning
  apply Prog.Keeps.bind (kept_modifyEnv hcancel)
  intro _
  apply Prog.Keeps.bind (kept_write h.write _)
  intro _
  apply Prog.Keeps.bind (kept_attempted a.emit)
  intro _
  apply Prog.Keeps.get_bind
  intro s hs
  split <;> exact hs

/-- After its wait, a `destroy` that takes over goes on from the record it reads then, or
releases nothing. -/
theorem await_takesOver {args : Destroy.Args} {late : JobEnvelope} {s : Desk}
    (hgood : good [] late) (hlog : s.log = []) (hopen : s.env.workload.terminal = false)
    (hwait : 0 < args.wait) (halive : a.supervisorAlive = .ok true)
    (hfault : a.latest.fault = none) (hlate : a.latest.written = some late) :
    let r := Destroy.await args a true true s
    (r.1 = .ok (.release none) ∧ Kept good r.2) ∨
      (r.2.log = [] ∧ forall outcome, r.1 ≠ .ok (.release outcome)) := by
  intro r
  have hr : r = Destroy.waitForApply args a s := by
    simp [r, Destroy.await, Prog.bind_run, hopen, hwait, halive]
  rw [hr, Destroy.waitForApply]
  cases a.echo with
  | some text => exact Or.inr ⟨hlog, fun _ h => by cases h⟩
  | none =>
      rw [Command.attempted_none, Prog.bind_run_ok (Prog.pure_run _ _),
        Prog.bind_run_ok (Prog.get_run s)]
      simp only
      rw [Prog.bind_run_ok (Prog.modify_run _ s)]
      rcases Destroy.awaitSupervisorCleanup a.awaits (waitPolls args.wait)
        (waitPolls args.wait) s.disk with ⟨current, disk⟩
      cases current with
      | error text => exact Or.inr ⟨hlog, fun _ h => by cases h⟩
      | ok current =>
          rw [Command.lift_ok, Prog.bind_run_ok (Prog.pure_run _ _)]
          split
          · refine Or.inr ⟨?_, ?_⟩
            · cases a.emit <;> exact hlog
            · cases a.emit <;> exact fun _ h => by cases h
          · have hread : Destroy.reread a.latest disk = (.ok (some late), some late) := by
              simp [Destroy.reread, hfault, hlate]
            rw [hread]
            simp only
            rw [Prog.bind_run_ok (Prog.modify_run _ _)]
            have hover : OnlyHints late
                (Destroy.takeOver args current (.ok (some late)) s.env) := by
              unfold Destroy.takeOver
              cases current <;> exact addHint_onlyHints late _
            refine Or.inl ⟨rfl, ?_, ?_⟩
            · rw [show (_ : Desk).log = s.log from rfl, hlog]
              exact h.hints [] late _ hover hgood
            · rw [show (_ : Desk).log = s.log from rfl, hlog]
              exact wrote_nil

/-- A `destroy` that takes over from a live `job apply` writes records that are good if the
one it reads after its wait is. -/
theorem destroy_takesOver {args : Destroy.Args} {copy late : JobEnvelope}
    (htakes : takesOver args a copy = true) (hlate : a.latest.written = some late)
    (hgood : good [] late)
    (hdestroyed : forall plan note confirmed outcome log env, good log env ->
      good log (Destroy.destroyedVerdict plan note confirmed outcome env)) :
    Wrote good (Destroy.destroy args a (desk (some copy))).2.log := by
  rcases takesOver_iff.mp htakes with
    ⟨env, hopen, hrecover, hfull, hopen', hconfirmed, hwait, halive, hfault⟩
  unfold Destroy.destroy
  cases hread : a.envelope with
  | some text => exact wrote_nil
  | none =>
      rw [Prog.bind_run_ok (Command.readEnvelope_none _)]
      simp only [desk]
      cases hplan : a.plan with
      | error error => exact wrote_nil
      | ok plan =>
          rw [Except.mapError, Command.lift_ok, Prog.bind_run_ok (Prog.pure_run _ _), hopen,
            Command.lift_ok, Prog.bind_run_ok (Prog.pure_run _ _), hrecover,
            Command.lift_ok, Prog.bind_run_ok (Prog.pure_run _ _),
            Prog.bind_run_ok (Command.modifyEnv_run _ _), Destroy.conclude,
            Prog.bind_run_ok (Prog.get_run _)]
          simp only [hfull, Bool.false_and, Bool.false_eq_true, if_false]
          rw [hconfirmed, Prog.bind_run]
          have hawait := h.await_takesOver (s := ⟨env, some copy, []⟩) hgood rfl hopen' hwait
            halive hfault hlate
          rcases hrun : Destroy.await args a true true ⟨env, some copy, []⟩ with ⟨o, t⟩
          rw [hrun] at hawait
          rcases hawait with ⟨hok, hkept⟩ | ⟨hlog, hnot⟩
          · cases hok
            exact (h.releaseAndRecord plan true _ _ none
              (hdestroyed plan _ _ none) t hkept).wrote
          · have hnone : Wrote good t.log := by
              rw [hlog]
              exact wrote_nil
            cases o with
            | ok waited =>
                cases waited with
                | released => exact hnone
                | release outcome => exact absurd rfl (hnot outcome)
            | raised e => exact hnone
            | ended => exact hnone

end Destroy

end Closed
end Concurrent
end Job
end MightyColab
