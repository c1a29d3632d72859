import MightyColab.Job.Concluding
import MightyColab.Job.LeftRecord

/-!
# A job whose VM is gone is settled

What a sequence of `job apply`, `job status` and `job destroy` leaves on disk when it says
that the VM is gone. Each of the ways to a release has to close the workload, the offload and
the supervisor, or to find them closed.
-/

namespace MightyColab
namespace Job

open Lib

namespace Sequence

open Concurrent Records

/-!
## The records of `status` and `destroy`
-/

def Sound (env : JobEnvelope) : Prop := env.cleanup.gone = true -> env.Settled

def ReleasedOpen (answer : ReleaseAnswer) (env : JobEnvelope) : Prop :=
  env.offload.terminal = false ∧ (releaseOutcome answer env).gone = true

variable {env env' copy : JobEnvelope}

theorem sound_same (h : Apply.decided env' = Apply.decided env) (hsound : Sound env) :
    Sound env' := by
  have hclean : env'.cleanup = env.cleanup := congrArg (fun d => d.2.2.2) h
  intro hgone
  rw [hclean] at hgone
  exact Apply.decides_settled env env' h (hsound hgone)

theorem sound_ungone (h : env.cleanup.gone = false) : Sound env := by
  intro hgone
  rw [h] at hgone
  cases hgone

theorem sound_finalizeHints (h : Sound env) : Sound (finalizeHints env) :=
  sound_same ((finalizeHints_onlyHints env).same Apply.decided) h

theorem released_decided (answer : Release) (failure : String) (forget : Option String)
    (transport : Bool) (files : CopyAnswer) (env : JobEnvelope) :
    Apply.decided (forgetSession forget
        (release answer failure (copyBeforeRelease transport files env))) =
      (env.workload, env.offload, env.supervisor, releaseOutcome answer.assignment env) := by
  have hcopy := copyBeforeRelease_onlyHints transport files env
  have hdecided : Apply.decided (copyBeforeRelease transport files env) = Apply.decided env :=
    hcopy.same Apply.decided
  have houtcome : releaseOutcome answer.assignment (copyBeforeRelease transport files env) =
      releaseOutcome answer.assignment env := hcopy.same (releaseOutcome answer.assignment)
  rw [(forgetSession_onlyHints forget _).same Apply.decided]
  rcases release_eq answer failure (copyBeforeRelease transport files env) with
    ⟨units, failed, hints, heq⟩
  rw [heq]
  unfold Apply.decided at hdecided ⊢
  simp only
  rw [houtcome]
  rcases Prod.mk.inj hdecided with ⟨hwork, hdecided⟩
  rcases Prod.mk.inj hdecided with ⟨hoff, hdecided⟩
  rw [hwork, hoff, (Prod.mk.inj hdecided).left]

theorem released_open {answer : Release} {env env' : JobEnvelope}
    (h : Apply.decided env' =
      (env.workload, env.offload, env.supervisor, releaseOutcome answer.assignment env))
    (hopen : ¬ReleasedOpen answer.assignment env) :
    env'.cleanup.gone = true -> env'.offload.terminal = true := by
  have hoff : env'.offload = env.offload := congrArg (fun d => d.2.1) h
  have hclean : env'.cleanup = releaseOutcome answer.assignment env := congrArg (fun d => d.2.2.2) h
  rw [hoff, hclean]
  intro hgone
  by_contra hterminal
  exact hopen ⟨by simpa using hterminal, hgone⟩

theorem statusForced_sound (cause : Option String)
    (h : env.cleanup.gone = true -> env.offload.terminal = true) :
    Sound (Status.forcedVerdict cause env) := by
  unfold Sound Status.forcedVerdict
  simp only
  split
  · next hterminal => exact fun hgone => ⟨hterminal, h hgone, rfl⟩
  · split <;> exact fun hgone => ⟨rfl, h hgone, rfl⟩

theorem destroyForced_sound (problem : String)
    (h : env.cleanup.gone = true -> env.offload.terminal = true) :
    Sound (Destroy.forcedVerdict problem env) := by
  apply sound_finalizeHints
  split
  · next hterminal => exact fun hgone => ⟨hterminal, h hgone, rfl⟩
  · split <;> exact fun hgone => ⟨rfl, h hgone, rfl⟩

theorem destroyedVerdict_sound (plan : Option Plan) (note : Option String) (confirmed : Bool)
    (outcome : Option String) (h : env.workload.terminal = true -> env.cleanup.gone = true ->
      env.offload.terminal = true) :
    Sound (Destroy.destroyedVerdict plan note confirmed outcome env) := by
  apply sound_finalizeHints
  split
  · next hterminal => exact fun hgone => ⟨hterminal, h hterminal hgone, rfl⟩
  · refine fun hgone => ⟨rfl, ?_, rfl⟩
    simp only
    split
    · next hoff => exact hoff
    · split <;> rfl

theorem orphanVerdict_settled (h : env.workload.terminal = true) :
    (Status.orphanVerdict env).Settled := by
  refine ⟨h, ?_, rfl⟩
  unfold Status.orphanVerdict
  simp only
  split
  · next hoff => exact hoff
  · rfl

section Asking

variable {args : Status.Args} {a : Status.Answers}

/-- The record that a `status` has recovered, where it forces the release. -/
def StatusForces (a : Status.Answers) (copy recovered : JobEnvelope) : Prop :=
  exists orphan noted env, Noted a copy orphan noted ∧ consults noted = true ∧
    OnlyHints noted env ∧ Status.mustScrub orphan env = true ∧ Unscrubbed a ∧
      Status.recover a.offVm env = .ok recovered

theorem consults_ungone (h : consults env = true) : env.cleanup.gone = false := by
  unfold consults Status.cleanupPending at h
  simp only [Bool.and_eq_true, Bool.not_eq_true', Bool.or_eq_false_iff] at h
  exact h.right.left

theorem noteSupervisor_sound (alive : Bool) (h : Sound env) :
    Sound (Status.noteSupervisor alive env) := by
  unfold Status.noteSupervisor
  split
  · exact fun hgone => ⟨(h hgone).left, (h hgone).right.left, rfl⟩
  · exact h

theorem notConsulted_sound (jobId : String) (consulted : Bool) (h : Sound env) :
    Sound (finalizeHints (Status.notConsulted jobId consulted env)) :=
  sound_finalizeHints
    (sound_same ((notConsulted_onlyHints jobId consulted env).same Apply.decided) h)

theorem asked_ungone {orphan : Bool} (h : Asked a copy orphan env) :
    env.cleanup.gone = false := by
  rcases h with ⟨noted, _, hconsults, hkeep⟩
  rw [(Status.ensureKeepAlive_onlyHints hkeep).same JobEnvelope.cleanup]
  exact consults_ungone hconsults

theorem loopEnv_same {orphan : Bool} {deadline : Option (Rat × String)} :
    forall (passes : List Status.Pass) (staleness : WatchdogStaleness) (env : JobEnvelope),
      loopEnv args orphan deadline passes staleness env = some env' -> SameCleanup env env' := by
  intro passes
  induction passes with
  | nil =>
      intro staleness env h
      cases h
  | cons p rest ih =>
      intro staleness env h
      unfold loopEnv at h
      cases hpass : Status.pass args orphan deadline p staleness env with
      | error text =>
          rw [hpass] at h
          cases h
      | ok turn =>
          have hsame := pass_same hpass
          rw [hpass] at h
          cases turn with
          | «break» next =>
              cases h
              exact hsame
          | again staleness next =>
              simp only at h
              split at h
              · exact hsame.trans (ih staleness next h)
              · cases h
                exact hsame

theorem looked_same {orphan : Bool} (h : Looked args a orphan env env') :
    SameCleanup env env' := by
  rcases h with ⟨_, rfl⟩ | ⟨_, deadline, _, _, hloop⟩
  · exact SameCleanup.refl _
  · exact loopEnv_same a.passes {} env hloop

theorem ended_sound {last : JobEnvelope} (h : Ended a env last)
    (hterminal : env.workload.terminal = true) : Sound last := by
  cases h with
  | kept spec _ _ => exact sound_ungone (Apply.recordVmKept_ungone env env.jobId)
  | released spec _ _ =>
      refine fun _ => orphanVerdict_settled ?_
      have hwork := congrArg Prod.fst (released_decided a.release "recovery teardown failed"
        a.forget true a.copy env)
      exact (congrArg Workload.terminal hwork).trans hterminal

theorem first_sound (h : First args a copy env) : Sound env := by
  cases h with
  | looked hasked hlooked _ =>
      refine sound_ungone ?_
      rw [(looked_same hlooked).right]
      exact asked_ungone hasked
  | finished _ _ hterminal hended => exact ended_sound hended hterminal

theorem status_sound (h : StatusWrites args a copy env) (hcopy : Sound copy)
    (hforces : forall recovered, StatusForces a copy recovered ->
      ¬ReleasedOpen a.release.assignment recovered) : Sound env := by
  cases h with
  | apart hnoted _ =>
      rcases hnoted with ⟨alive, _, rfl, _⟩
      exact notConsulted_sound _ _ (noteSupervisor_sound alive hcopy)
  | missing hint hnoted hconsults _ =>
      exact notConsulted_sound _ _ (sound_ungone (consults_ungone hconsults))
  | forced transport cause hnoted hconsults hhints hmust hunscrubbed hrecover =>
      refine statusForced_sound cause (released_open (released_decided a.release
        "forced unassign failed" a.forget transport a.copy _) (hforces _ ?_))
      exact ⟨_, _, _, hnoted, hconsults, hhints, hmust, hunscrubbed, hrecover⟩
  | ended _ hterminal hended => exact ended_sound hended hterminal
  | first hfirst => exact first_sound hfirst
  | last hfirst => exact notConsulted_sound _ _ (first_sound hfirst)

end Asking

section Destroying

variable {args : Destroy.Args} {a : Destroy.Answers}

theorem reconcile_settled (transport : Bool)
    (hresult : transport = true -> ReadConcludes a.result) (h : env.Settled) :
    (Destroy.reconcile a transport env).Settled := by
  unfold Destroy.reconcile
  cases transport with
  | false => exact h
  | true =>
      simp only [Bool.not_true, Bool.false_eq_true, if_false]
      split
      · exact h
      · next read hread =>
          split
          · next result hrecord =>
              split
              · next env' habsorb =>
                  rcases absorbRemoteResult_spec habsorb with ⟨_, hwork, hoff⟩
                  refine ⟨hresult rfl read result hread hrecord _ hwork, ?_, rfl⟩
                  rcases hoff with ⟨_, _, hoff⟩ | ⟨_, hoff⟩
                  · exact hoff
                  · rw [hoff]
                    exact h.right.left
              · exact h
          · split <;> exact h

theorem read_settled {transport : Bool} (hread : Read a copy transport env)
    (hresult : Destroy.openTransport a copy = .ok true -> ReadConcludes a.result)
    (h : copy.Settled) : env.Settled := by
  have hreconciled := reconcile_settled (a := a) transport
    (fun heq => hresult (by rw [hread.left, heq])) h
  have hrecover := hread.right
  unfold Destroy.recover at hrecover
  rw [if_pos hreconciled.left] at hrecover
  cases hrecover
  exact hreconciled

theorem read_same {transport : Bool} (hread : Read a copy transport env) :
    SameCleanup copy env :=
  (reconcile_same a transport copy).trans (destroyRecover_same hread.right)

/-- What `destroy` may meet: no release is forced with the offload open, nor made for a
workload that has a verdict, and a `--cancel-only` reads no running workload for a job whose
VM is gone. -/
structure DestroyCloses (args : Destroy.Args) (a : Destroy.Answers) (copy : JobEnvelope) :
    Prop where
  forced : forall transport env, args.cancelOnly = true -> Read a copy transport env ->
    (Destroy.removeSecret a transport env).1 = false -> ¬ReleasedOpen a.release.assignment env
  judged : forall transport env, args.cancelOnly = false -> Before args a copy transport env ->
    env.workload.terminal = true -> ¬ReleasedOpen a.release.assignment env
  left : args.cancelOnly = true -> copy.cleanup.gone = true ->
    Destroy.openTransport a copy = .ok true -> ReadConcludes a.result

theorem destroy_sound (h : DestroyWrites args a copy env) (hcopy : Sound copy)
    (hcloses : DestroyCloses args a copy) : Sound env := by
  cases h with
  | forced problem hcancel hread hremoved =>
      exact destroyForced_sound problem (released_open (released_decided a.release
        "forced unassign failed" a.forget _ a.copy _) (hcloses.forced _ _ hcancel hread hremoved))
  | left note confirmed hcancel hread =>
      refine sound_finalizeHints fun hgone => ?_
      have hcleanup := (read_same hread).right
      have hgone' : copy.cleanup.gone = true := (congrArg Cleanup.gone hcleanup).symm.trans hgone
      have hsettled := read_settled hread (hcloses.left hcancel hgone') (hcopy hgone')
      exact hsettled
  | released plan note confirmed outcome hcancel hbefore =>
      have hdecided := released_decided a.release "unassign failed" a.forget
      refine destroyedVerdict_sound plan note confirmed outcome fun hterminal => ?_
      refine released_open (hdecided _ a.copy _) (hcloses.judged _ _ hcancel hbefore ?_)
      exact (congrArg (fun d => d.1.terminal) (hdecided _ a.copy _)).symm.trans hterminal

end Destroying

/-!
## Every sequence of commands
-/

/-- An `apply` whose fields may be open in its `finally` block: it has absorbed the result of
a run that has not ended, or raises again, or was interrupted. -/
def Applying.Exposed (w : Applying) : Prop :=
  w.answers.body.Concludes -> w.outcome = .ok () -> w.proc.env.supervisor = .interrupted

/-- What the next command may meet. -/
def Careful (s : State) : Action -> Prop
  | .apply _ _ => True
  | .finish => forall w, s.applying = some w -> w.Exposed -> ¬w.proc.env.Settled ->
      Apply.Spares w.args.plan w.answers.finally_ w.proc
  | .status _ a => forall copy recovered, s.disk = some copy ->
      StatusForces a copy recovered -> ¬ReleasedOpen a.release.assignment recovered
  | .destroy args a => forall copy, s.disk = some copy -> DestroyCloses args (alone a) copy

/-- The record on disk is sound, and an `apply` under way has released nothing. -/
structure Inv (s : State) : Prop where
  sound : forall env, s.disk = some env -> Sound env
  disk : forall w, s.applying = some w -> w.proc.disk = s.disk
  pending : forall w, s.applying = some w -> w.proc.env.cleanup = .pending
  handled : forall w, s.applying = some w -> w.answers.body.Concludes -> w.outcome = .ok () ->
    Apply.Handled w.proc.env

variable {s next : State}

theorem inv_idle {disk : Option JobEnvelope} (h : forall env, disk = some env -> Sound env) :
    Inv { disk } where
  sound := h
  disk w hw := by cases hw
  pending w hw := by cases hw
  handled w hw := by cases hw

theorem loose_pending (disk : Option JobEnvelope) :
    Apply.Loose (Apply.Stored (fun env => env.cleanup = .pending) disk) where
  vm s t hclean hdisk hs := by
    refine ⟨hclean.trans hs.left, ?_⟩
    rw [hdisk]
    exact hs.right
  write s hs := Apply.stored_write hs

theorem inv_apply {args : Apply.Args} {a : Apply.Answers} (hs : Inv s)
    (hstep : step s (.apply args a) = some next) : Inv next := by
  rcases apply_cases hstep with ⟨hidle, rfl | ⟨_, rfl⟩⟩
  · exact hs
  · have hstored := (loose_pending s.disk).supervised args a (Apply.start args s.disk)
      ⟨rfl, Or.inl rfl⟩
    refine ⟨fun env henv => ?_, fun w hw => ?_, fun w hw => ?_, fun w hw hends hok => ?_⟩
    · rcases hstored.right with hsame | ⟨env', henv', hpending⟩
      · exact hs.sound env (hsame.symm.trans henv)
      · rw [henv'] at henv
        cases henv
        exact sound_ungone (by rw [hpending]; rfl)
    · cases hw
      rfl
    · cases hw
      exact hstored.left
    · cases hw
      have hreturns : Apply.Returns (fun _ => True) (Apply.supervised args a)
          fun _ => Apply.InHand Apply.Handled := Apply.supervised_returns args hends
      exact hreturns.run trivial (Prod.ext hok rfl)

theorem inv_finish (hs : Inv s) (hcareful : Careful s .finish)
    (hstep : step s .finish = some next) : Inv next := by
  rcases finish_cases hstep with ⟨w, hw, rfl⟩
  refine inv_idle fun env henv => ?_
  by_cases hsettled : w.proc.env.Settled
  · have hstart : Apply.Stored JobEnvelope.Settled s.disk w.proc :=
      ⟨hsettled, Or.inl (hs.disk w hw)⟩
    have hstored := Apply.settled_finallyBlock w.args.plan w.answers.finally_ w.proc hstart
    rcases hstored.right with hsame | ⟨env', henv', hgood⟩
    · exact hs.sound env (hsame.symm.trans henv)
    · rw [henv'] at henv
      cases henv
      exact fun _ => hgood
  · have hexposed : w.Exposed := by
      intro hends hok
      by_contra hnot
      exact hsettled (Apply.handled_settled (hs.handled w hw hends hok) hnot)
    have hpending := hs.pending w hw
    have hstart : Apply.Stored Apply.Ungone s.disk w.proc := by
      refine ⟨?_, Or.inl (hs.disk w hw)⟩
      rw [Apply.Ungone, hpending]
      rfl
    have hstored := Apply.finallyBlock_ungone w.args.plan w.answers.finally_ hpending hstart
      (hcareful w hw hexposed hsettled)
    rcases hstored.right with hsame | ⟨env', henv', hgood⟩
    · exact hs.sound env (hsame.symm.trans henv)
    · rw [henv'] at henv
      cases henv
      exact sound_ungone hgood

theorem inv_status {args : Status.Args} {a : Status.Answers} (hs : Inv s)
    (hcareful : Careful s (.status args a)) (hstep : step s (.status args a) = some next) :
    Inv next := by
  rcases status_cases hstep with ⟨_, hnext, hdisk⟩
  have hsound : forall env, next.disk = some env -> Sound env := by
    intro env henv
    rcases hdisk with hsame | ⟨copy, env', hcopy, henv', hwrites⟩
    · exact hs.sound env (hsame.symm.trans henv)
    · rw [henv'] at henv
      cases henv
      exact status_sound hwrites (hs.sound copy hcopy) fun recovered hforces =>
        hcareful copy recovered hcopy hforces
  rcases next with ⟨disk, applying⟩
  cases hnext
  exact inv_idle hsound

theorem inv_destroy {args : Destroy.Args} {a : Destroy.Answers} (hs : Inv s)
    (hcareful : Careful s (.destroy args a)) (hstep : step s (.destroy args a) = some next) :
    Inv next := by
  rcases destroy_cases hstep with ⟨_, hnext, hdisk⟩
  have hsound : forall env, next.disk = some env -> Sound env := by
    intro env henv
    rcases hdisk with hsame | ⟨copy, env', hcopy, henv', hwrites⟩
    · exact hs.sound env (hsame.symm.trans henv)
    · rw [henv'] at henv
      cases henv
      exact destroy_sound hwrites (hs.sound copy hcopy) (hcareful copy hcopy)
  rcases next with ⟨disk, applying⟩
  cases hnext
  exact inv_idle hsound

theorem inv_preserved : machine.Preserved Careful Inv := by
  intro s act next hs hcareful hstep
  cases act with
  | apply args a => exact inv_apply hs hstep
  | finish => exact inv_finish hs hcareful hstep
  | status args a => exact inv_status hs hcareful hstep
  | destroy args a => exact inv_destroy hs hcareful hstep

theorem inv_start (h : machine.start s) : Inv s := by
  rw [show s = { disk := none } from h]
  exact inv_idle fun env henv => by cases henv

/-- In every sequence of commands that meet nothing of this, a record on disk that says that
the VM is gone is settled, and the job is done. -/
theorem gone_settled (hreach : machine.Reaches Careful s) {env : JobEnvelope}
    (hdisk : s.disk = some env) (hgone : env.cleanup.gone = true) :
    env.Settled ∧ env.done = true := by
  have hsettled := (Machine.reaches_invariant (fun _ => inv_start) inv_preserved hreach).sound
    env hdisk hgone
  exact ⟨hsettled, JobEnvelope.done_of_settled hsettled hgone⟩

/-!
## Two runs
-/

def leftBy (run : List Action) : Option JobEnvelope :=
  (machine.exec { disk := none } run).bind fun s => if s.applying.isNone then s.disk else none

theorem leftBy_some {run : List Action} {env : JobEnvelope} (h : leftBy run = some env) :
    exists s, machine.exec { disk := none } run = some s ∧ s.applying = none ∧
      s.disk = some env := by
  rcases Option.bind_eq_some_iff.mp h with ⟨s, hexec, hdisk⟩
  split at hdisk
  · next hidle => exact ⟨s, hexec, Option.isNone_iff_eq_none.mp hidle, hdisk⟩
  · cases hdisk

/-- An `apply` that is granted a VM and cannot write its record then. -/
def failedApply : List Action := [.apply Apply.t4Job (Apply.unwritten {}), .finish]

theorem unwritten_concludes : (Apply.unwritten {}).body.Concludes where
  ticks t ht := by cases ht
  cancel result hresult := by
    have hnone : (awaitRunnerResult (Apply.unwritten {}).body.cancel.looks
        runnerStopWaitSeconds).toOption.isSome = false := by decide
    rw [hresult] at hnone
    cases hnone

theorem failedApply_guarded : machine.Guarded Careful { disk := none } failedApply := by
  refine ⟨trivial, fun next hstep => ⟨fun w hw hexposed _ => ?_, fun _ _ => trivial⟩⟩
  have happly : step { disk := none } (.apply Apply.t4Job (Apply.unwritten {})) = some next := hstep
  rcases apply_cases happly with ⟨_, rfl | ⟨_, rfl⟩⟩
  · cases hw
  · cases hw
    have hok : (Apply.supervised Apply.t4Job (Apply.unwritten {})
        (Apply.start Apply.t4Job none)).1 = .ok () := by decide
    have hfinished : (Apply.supervised Apply.t4Job (Apply.unwritten {})
        (Apply.start Apply.t4Job none)).2.env.supervisor = .finished := by decide
    have hnot := hexposed unwritten_concludes hok
    simp only at hnot
    rw [hfinished] at hnot
    cases hnot

theorem gone_settled_failed : exists s env, machine.Reaches Careful s ∧ s.disk = some env ∧
    env.cleanup.gone = true ∧ env.Settled ∧ env.done = true := by
  have hleft : (leftBy failedApply).map (fun env => env.cleanup.gone) = some true := by
    decide
  rcases Option.map_eq_some_iff.mp hleft with ⟨env, henv, hgone⟩
  rcases leftBy_some henv with ⟨s, hexec, _, hdisk⟩
  have hreach : machine.Reaches Careful s :=
    ⟨{ disk := none }, failedApply, rfl, failedApply_guarded, hexec⟩
  exact ⟨s, env, hreach, hdisk, hgone, gone_settled hreach hdisk hgone⟩

/-- A poll on a machine that has no session record for the job: it cannot see that the
credential file is gone, and is granted the release. -/
def pollElsewhere : Status.Answers where
  envelope := none
  supervisorAlive := .ok false
  session := .ok false
  transport := none
  keepAlive := .ok none
  scrub := .ok .ok
  offVm := ⟨.ok none, .error "", .ok none, ""⟩
  deadlinePlan := .ok none
  launched := none
  passes := []
  keepPlan := .ok none
  copy := ⟨0, "", fun _ => ⟨0, .ok (none, .notFound), none⟩⟩
  stopKeepAlive := none
  release := ⟨⟨.ok (), .ok []⟩, .error ""⟩
  forget := none
  write := {}
  lastWrite := {}
  emit := none

/-- An `apply` that Ctrl-C ends once its runner is launched, and that poll. -/
def polledElsewhere : List Action :=
  [.apply Apply.t4Job
    { body := {
        provision := { candidates := fun _ =>
          { outcome := .granted ⟨⟨"e", Apply.e_nonempty⟩, some "T4"⟩ } }
        handoff := some .sigint } },
    .finish, .status { jobId := "j", poll := true } pollElsewhere]

/-- The VM is released, and the record waits for an offload that no VM can make. -/
theorem gone_unsettled : exists s env, machine.Reaches Machine.Free s ∧ s.applying = none ∧
    s.disk = some env ∧ env.cleanup.gone = true ∧ env.offload = .pending ∧ env.done = false := by
  have hleft : (leftBy polledElsewhere).map
      (fun env => (env.cleanup.gone, env.offload, env.done)) = some (true, .pending, false) := by
    decide +kernel
  rcases Option.map_eq_some_iff.mp hleft with ⟨env, henv, hfields⟩
  rcases leftBy_some henv with ⟨s, hexec, hidle, hdisk⟩
  rcases Prod.mk.inj hfields with ⟨hgone, hfields⟩
  exact ⟨s, env, ⟨_, polledElsewhere, rfl, Machine.guarded_free machine _ _, hexec⟩, hidle, hdisk,
    hgone, Prod.mk.inj hfields⟩

end Sequence

end Job
end MightyColab
