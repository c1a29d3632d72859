import MightyColab.Lib.Runs
import MightyColab.Lib.Slots
import MightyColab.Job.CommandFrame

/-!
# Done is final

Any number of processes on one job, and the record they share. Nothing locks the record:
a command that read it before the job was done writes its own copy over the verdict.
-/

namespace MightyColab
namespace Job

open Lib

namespace DoneFinal

open Concurrent

/-!
## The machine
-/

/-- What the record says of the run and of its artifacts. -/
def verdict (env : JobEnvelope) : Workload × Offload := (env.workload, env.offload)

structure State where
  /-- `envelope.json`. -/
  disk : Option JobEnvelope
  work : Nat -> Option Work
  /-- The verdict with which the record first was `done`. -/
  settled : Option (Workload × Offload)

inductive Action where
  /-- A process starts: it reads the record. -/
  | begin (p : Nat) (task : Task)
  /-- A `destroy` that has waited for a live `job apply` reads the record again. -/
  | reread (p : Nat)
  /-- A process does its next deed. -/
  | act (p : Nat)

def settles (env : JobEnvelope) : Option (Workload × Offload) :=
  if env.done then some (verdict env) else none

def afterDeed (s : State) (work : Nat -> Option Work) : Deed -> State
  | .wrote env => { disk := some env, work, settled := s.settled.or (settles env) }
  | _ => { s with work }

def step (s : State) : Action -> Option State
  | .begin p task =>
      some { s with
        work := Function.update s.work p (some { task, copy := s.disk }) }
  | .reread p =>
      match s.work p with
      | some ⟨.destroy args a, copy, _, 0⟩ =>
          some { s with
            work := Function.update s.work p (some ⟨.destroy args a, copy, s.disk, 0⟩) }
      | _ => none
  | .act p =>
      match s.work p with
      | none => none
      | some w =>
          match w.deeds[w.next]? with
          | none => none
          | some deed =>
              some (afterDeed s
                (Function.update s.work p (some { w with next := w.next + 1 })) deed)

/-- No process runs yet, and earlier commands have left some record or none. -/
def machine : Machine State Action where
  start s := (forall p, s.work p = none) ∧ s.settled = s.disk.bind settles
  step := step

/-- Once the record has been done, it is done with that verdict. -/
def IsFinal (s : State) : Prop :=
  forall v, s.settled = some v ->
    exists env, s.disk = some env ∧ env.done = true ∧ verdict env = v

/-!
## When a write is of a record that was done
-/

/-- A result at `control.result` that `status` absorbs again brings the verdict there is.
It looks for one where the release failed and the credential file cannot be confirmed
removed. -/
def StatusAgrees (a : Status.Answers) (copy : JobEnvelope) : Prop :=
  copy.cleanup = .failed -> (nonempty copy.session).isSome = true ->
    (a.session = .ok false ∨ (scrubReport a.scrub).1 = false) ->
      forall env env', OnlyHints copy env ->
        recoverOffVmResult a.offVm env = .ok (true, env') -> verdict env' = verdict copy

/-- A `result.json` that `destroy` absorbs again brings the verdict there is. -/
def DestroyAgrees (a : Destroy.Answers) (copy : JobEnvelope) : Prop :=
  Destroy.openTransport a copy = .ok true ->
    forall read result env', a.result = .ok read -> okRecord read = some result ->
      absorbRemoteResult copy a.absorb.plan result a.absorb.now = .ok env' ->
        verdict env' = verdict copy

/-- The process works from a record that was done when it read it, and what it absorbs
into that record again agrees with it. No `job apply` does. -/
def Current (w : Work) : Prop :=
  match w.task, w.copy with
  | .status _ a, some copy => copy.done = true ∧ StatusAgrees a copy
  | .destroy args a, some copy =>
      if takesOver args a copy then w.late.any JobEnvelope.done = true
      else copy.done = true ∧ DestroyAgrees a copy
  | _, _ => False

/-- The condition on a step: once the job is done, only such processes write. -/
def OnlyCurrentWrite (s : State) : Action -> Prop
  | .act p =>
      s.settled.isSome = true -> forall w env, s.work p = some w ->
        w.deeds[w.next]? = some (.wrote env) -> Current w
  | _ => True

/-!
## What a command makes of a done record
-/

def Final (v : Workload × Offload) (env : JobEnvelope) : Prop :=
  env.done = true ∧ verdict env = v

variable {v : Workload × Offload} {env env' : JobEnvelope}

theorem final_self (h : env.done = true) : Final (verdict env) env := ⟨h, rfl⟩

theorem final_fields (h : Final v env) :
    env.workload.terminal = true ∧ env.offload.terminal = true ∧
      env.cleanup.terminal = true ∧ env.supervisor.terminal = true := by
  have hdone := h.left
  simp only [JobEnvelope.done, Bool.and_eq_true] at hdone
  exact ⟨hdone.1.1.1, hdone.1.1.2, hdone.1.2, hdone.2⟩

theorem final_of_same (h : Final v env) (hverdict : verdict env' = verdict env)
    (hcleanup : env'.cleanup.terminal = true)
    (hsupervisor : env'.supervisor.terminal = true) : Final v env' := by
  rcases final_fields h with ⟨hwork, hoff, _, _⟩
  have hw : env'.workload = env.workload := congrArg Prod.fst hverdict
  have ho : env'.offload = env.offload := congrArg Prod.snd hverdict
  refine ⟨?_, hverdict.trans h.right⟩
  simp [JobEnvelope.done, hw, ho, hwork, hoff, hcleanup, hsupervisor]

theorem final_onlyHints (hhints : OnlyHints env env') (h : Final v env) :
    Final v env' :=
  ⟨(hhints.same JobEnvelope.done).trans h.left, (hhints.same verdict).trans h.right⟩

theorem releaseOutcome_terminal (answer : ReleaseAnswer) (env : JobEnvelope) :
    (releaseOutcome answer env).terminal = true := by
  unfold releaseOutcome
  split
  · rfl
  · exact releaseAssignment_terminal answer _

theorem final_release (answer : Release) (failure : String) (h : Final v env) :
    Final v (release answer failure env) := by
  refine final_of_same h (release_same answer failure env verdict) ?_ ?_
  · rw [release_cleanup]
    exact releaseOutcome_terminal answer.assignment env
  · rw [release_same answer failure env JobEnvelope.supervisor]
    exact (final_fields h).2.2.2

theorem final_closed (answer : Release) (v : Workload × Offload) :
    Closed answer fun _ => Final v where
  hints _ _ _ hhints h := final_onlyHints hhints h
  write _ _ h := h
  release failure _ _ h := final_release answer failure h

theorem final_finished (h : Final v env) :
    Final v { env with supervisor := .finished } :=
  final_of_same h rfl (final_fields h).2.2.1 rfl

theorem final_destroyedVerdict (plan : Option Plan) (note : Option String) (confirmed : Bool)
    (outcome : Option String) (h : Final v env) :
    Final v (Destroy.destroyedVerdict plan note confirmed outcome env) := by
  unfold Destroy.destroyedVerdict
  simp only [(final_fields h).1, if_true]
  exact final_onlyHints (finalizeHints_onlyHints _) (final_finished h)

theorem final_destroyForced (problem : String) (h : Final v env) :
    Final v (Destroy.forcedVerdict problem env) := by
  unfold Destroy.forcedVerdict
  simp only [(final_fields h).1, if_true]
  exact final_onlyHints (finalizeHints_onlyHints _)
    (final_finished (final_onlyHints (addHint_onlyHints _ _) h))

theorem final_cancelOnly (note : Option String) (confirmed : Bool) (h : Final v env) :
    Final v (Destroy.cancelOnlyVerdict note confirmed env) :=
  final_of_same h rfl (final_fields h).2.2.1 (final_fields h).2.2.2

theorem final_statusForced (cause : Option String) (h : Final v env) :
    Final v (Status.forcedVerdict cause env) := by
  unfold Status.forcedVerdict
  simp only [(final_fields h).1, if_true]
  exact final_finished (final_onlyHints (addHint_onlyHints _ _) h)

theorem final_orphan (h : Final v env) : Final v (Status.orphanVerdict env) := by
  unfold Status.orphanVerdict
  simp only [(final_fields h).2.1, if_true]
  exact final_finished h

theorem final_kept (jobId : String) (h : Final v env) :
    Final v { recordVmKept env jobId with supervisor := .finished } := by
  refine final_of_same h ?_ ?_ rfl
  · unfold recordVmKept
    split <;> rfl
  · unfold recordVmKept
    split <;> rfl

theorem noteSupervisor_done (alive : Bool) (h : env.done = true) :
    Status.noteSupervisor alive env = env := by
  have hsup := (final_fields (final_self h)).2.2.2
  unfold Status.noteSupervisor
  rw [if_neg]
  rintro ⟨hrunning, _⟩
  rw [hrunning] at hsup
  cases hsup

/-!
## `destroy`
-/

section Destroying

variable (args : Destroy.Args) (a : Destroy.Answers) (plan : Option Plan)
  (transport confirmed : Bool) (note : Option String)

theorem releaseAndRecord_final (outcome : Option String) :
    Prog.Keeps (Kept fun _ => Final v)
      (Destroy.releaseAndRecord a plan transport note confirmed outcome) :=
  (final_closed a.release v).releaseAndRecord plan transport note confirmed outcome
    fun _ _ h => final_destroyedVerdict plan note confirmed outcome h

theorem await_settled {s : Desk} (h : s.env.workload.terminal = true) :
    Destroy.await args a transport confirmed s = (.ok (.release none), s) := by
  simp [Destroy.await, Prog.bind_run, h]

theorem conclude_final :
    Prog.Keeps (Kept fun _ => Final v) (Destroy.conclude args a plan transport) := by
  unfold Destroy.conclude
  apply Prog.Keeps.get_bind
  intro s hs
  simp only
  split
  · exact (final_closed a.release v).releaseForced transport _
      (fun _ _ text h => final_destroyForced text h) s hs
  · split
    · exact (final_closed a.release v).leaveRunning _ _
        (fun _ _ h => final_cancelOnly _ _ h) s hs
    · rw [Prog.bind_run_ok (await_settled args a transport _ (final_fields hs.env).1)]
      exact releaseAndRecord_final a plan transport _ _ none s hs

theorem reconcile_final (hdone : env.done = true) (hagrees : DestroyAgrees a env)
    (hopen : Destroy.openTransport a env = .ok transport) :
    Final (verdict env) (Destroy.reconcile a transport env) := by
  have hself := final_self hdone
  unfold Destroy.reconcile
  cases transport with
  | false => exact hself
  | true =>
      simp only [Bool.not_true, Bool.false_eq_true, if_false]
      split
      · exact final_onlyHints (addHint_onlyHints _ _) hself
      · next read hread =>
          split
          · next result hresult =>
              split
              · next env' habsorb =>
                  have hvm := (absorbRemoteResult_spec habsorb).left
                  refine final_of_same hself
                    (hagrees hopen read result env' hread hresult habsorb) ?_ rfl
                  rw [hvm.cleanup]
                  exact (final_fields hself).2.2.1
              · exact final_onlyHints (addHint_onlyHints _ _) hself
          · split
            · exact hself
            · exact final_onlyHints (addHint_onlyHints _ _) hself

theorem destroy_done (copy : JobEnvelope) (hdone : copy.done = true)
    (hagrees : DestroyAgrees a copy) :
    Wrote (fun _ => Final (verdict copy)) (Destroy.destroy args a (desk (some copy))).2.log := by
  have hstart : Kept (fun _ => Final (verdict copy)) (desk (some copy)) :=
    ⟨final_self hdone, wrote_nil⟩
  suffices h :
      Kept (fun _ => Final (verdict copy)) (Destroy.destroy args a (desk (some copy))).2 from
    h.wrote
  unfold Destroy.destroy
  cases a.envelope with
  | some text => exact hstart
  | none =>
      rw [Prog.bind_run_ok (Command.readEnvelope_none _)]
      apply Command.keeps_lift_bind _ _ hstart
      intro plan _
      apply Command.keeps_lift_bind
      intro transport hopen
      apply Command.keeps_lift_bind
      intro env hrecover
      have hreconciled := reconcile_final a transport hdone hagrees hopen
      have henv : Destroy.reconcile a transport copy = env := by
        unfold Destroy.recover at hrecover
        rw [if_pos (final_fields hreconciled).1] at hrecover
        exact Except.ok.inj hrecover
      rw [henv] at hreconciled
      apply Prog.Keeps.bind (kept_modifyEnv fun _ _ _ => hreconciled)
      intro _
      exact conclude_final args a plan transport

/-- `destroy` that takes over from a live `job apply`, with a second read that finds the
job done. -/
theorem destroy_takenOver {copy late : JobEnvelope} (hdone : late.done = true)
    (htakes : takesOver args a copy = true) (hlate : a.latest.written = some late) :
    Wrote (fun _ => Final (verdict late)) (Destroy.destroy args a (desk (some copy))).2.log :=
  (final_closed a.release (verdict late)).destroy_takesOver htakes hlate (final_self hdone)
    fun _ _ _ _ _ _ h => final_destroyedVerdict _ _ _ _ h

end Destroying

/-!
## `status`
-/

section Asking

variable (args : Status.Args) (a : Status.Answers) (orphan : Bool)

theorem statusConclude_final (consulted : Bool) :
    Prog.Keeps (Kept fun _ => Final v) (Status.conclude args a consulted) :=
  (final_closed a.release v).statusConclude args consulted

theorem forceRelease_final (transport : Bool) (cause : Option String) :
    Prog.Keeps (Kept fun _ => Final v)
      (Status.forceReleaseUnconfirmedSecret a transport cause) :=
  (final_closed a.release v).forceRelease transport fun _ _ h => final_statusForced cause h

theorem releaseOrphanedJob_final :
    Prog.Keeps (Kept fun _ => Final v) (Status.releaseOrphanedJob a) :=
  (final_closed a.release v).releaseOrphanedJob (fun _ _ jobId h => final_kept jobId h)
    fun _ _ h => final_orphan h

theorem consultVm_settled {s : Desk} (h : s.env.workload.terminal = true) :
    Status.consultVm args a orphan s = (.ok (), s) := by
  simp [Status.consultVm, Prog.bind_run, h]

theorem superviseVm_final :
    Prog.Keeps (Kept fun _ => Final v) (Status.superviseVm args a orphan) := by
  intro s hs
  unfold Status.superviseVm
  rw [Prog.bind_run_ok (consultVm_settled args a orphan (final_fields hs.env).1),
    Prog.bind_run_ok (Prog.get_run s)]
  have hconclude := statusConclude_final (v := v) args a true
  split
  · exact Prog.Keeps.bind (releaseOrphanedJob_final a) (fun _ => hconclude) s hs
  · exact Prog.Keeps.bind (kept_write (final_closed a.release v).write a.write)
      (fun _ => hconclude) s hs

theorem recover_final {copy : JobEnvelope} (hdone : copy.done = true)
    (hsame : forall env env', OnlyHints copy env ->
      recoverOffVmResult a.offVm env = .ok (true, env') -> verdict env' = verdict copy)
    (hhints : OnlyHints copy env) (h : Status.recover a.offVm env = .ok env') :
    Final (verdict copy) env' := by
  have henv : Final (verdict copy) env :=
    final_onlyHints hhints (final_self hdone)
  unfold Status.recover at h
  cases hrecover : recoverOffVmResult a.offVm env with
  | error text =>
      rw [hrecover] at h
      cases h
  | ok r =>
      rw [hrecover] at h
      cases h
      rcases recoverOffVmResult_cases hrecover with honly | ⟨hfound, hvm⟩
      · exact final_onlyHints honly henv
      · rcases r with ⟨found, recovered⟩
        subst hfound
        have hverdict := (hsame env recovered hhints hrecover).trans (hhints.same verdict).symm
        rw [← henv.right]
        refine final_of_same (final_self henv.left) hverdict ?_ ?_
        · rw [hvm.cleanup]
          exact (final_fields henv).2.2.1
        · rw [hvm.supervisor]
          exact (final_fields henv).2.2.2

def Holding (copy : JobEnvelope) (s : Desk) : Prop := s.env = copy ∧ s.log = []

theorem holding_kept {copy : JobEnvelope} {s : Desk} (hdone : copy.done = true)
    (hs : Holding copy s) : Kept (fun _ => Final (verdict copy)) s := by
  rcases hs with ⟨henv, hlog⟩
  refine ⟨?_, ?_⟩
  · rw [henv]
    exact final_self hdone
  · rw [hlog]
    exact wrote_nil

theorem withSession_final {copy : JobEnvelope} {s : Desk} (hdone : copy.done = true)
    (hs : Holding copy s)
    (hsame : orphan = true ∨ copy.cleanup = .failed -> (scrubReport a.scrub).1 = false ->
      forall env env', OnlyHints copy env ->
        recoverOffVmResult a.offVm env = .ok (true, env') -> verdict env' = verdict copy) :
    Kept (fun _ => Final (verdict copy)) (Status.withSession args a orphan s).2 := by
  have hkept := holding_kept hdone hs
  unfold Status.withSession
  rw [Prog.bind_run_ok (Prog.get_run s), hs.left]
  apply Command.keeps_lift_bind _ _ hkept
  intro env hensure
  have hhints := Status.ensureKeepAlive_onlyHints hensure
  apply Prog.Keeps.bind (kept_modifyEnv fun _ _ _ =>
    final_onlyHints hhints (final_self hdone))
  intro _
  apply Prog.Keeps.bind (kept_attempted a.transport)
  intro _
  have hcleanup : env.cleanup = copy.cleanup := hhints.same JobEnvelope.cleanup
  cases hscrub : Status.mustScrub orphan env with
  | false =>
      simp only [Bool.false_eq_true, if_false, Bool.not_true]
      split
      · exact Prog.Keeps.bind (releaseOrphanedJob_final a) fun _ => kept_attempted a.emit
      · exact superviseVm_final args a orphan
  | true =>
      simp only [if_true]
      cases hremoved : (scrubReport a.scrub).1 with
      | true =>
          simp only [Bool.not_true, Bool.false_eq_true, if_false]
          split
          · exact Prog.Keeps.bind (releaseOrphanedJob_final a) fun _ => kept_attempted a.emit
          · exact superviseVm_final args a orphan
      | false =>
          simp only [Bool.not_false, if_true]
          have hmust : orphan = true ∨ copy.cleanup = .failed := by
            simpa [Status.mustScrub, hcleanup] using hscrub
          apply Command.keeps_lift_bind
          intro recovered hrecover
          apply Prog.Keeps.bind (kept_modifyEnv fun _ _ _ =>
            recover_final a hdone (hsame hmust hremoved) hhints hrecover)
          intro _
          exact forceRelease_final a true _

theorem withoutSession_final {copy : JobEnvelope} {s : Desk} (hdone : copy.done = true)
    (hs : Holding copy s)
    (hsame : orphan = true ∨ copy.cleanup = .failed ->
      forall env env', OnlyHints copy env ->
        recoverOffVmResult a.offVm env = .ok (true, env') -> verdict env' = verdict copy) :
    Kept (fun _ => Final (verdict copy)) (Status.withoutSession args a orphan s).2 := by
  have hkept := holding_kept hdone hs
  unfold Status.withoutSession
  rw [Prog.bind_run_ok (Prog.get_run s), hs.left]
  split
  · next hscrub =>
      have hmust : orphan = true ∨ copy.cleanup = .failed := by
        simpa [Status.mustScrub] using hscrub
      apply Command.keeps_lift_bind _ _ hkept
      intro recovered hrecover
      apply Prog.Keeps.bind (kept_modifyEnv fun _ _ _ =>
        recover_final a hdone (hsame hmust) (OnlyHints.refl copy) hrecover)
      intro _
      exact forceRelease_final a false _
  · refine Prog.Keeps.bind (kept_modifyEnv fun _ _ h => ?_) (fun _ => ?_) s hkept
    · exact final_onlyHints (addHint_onlyHints _ _) h
    · exact statusConclude_final args a true

theorem status_done (copy : JobEnvelope) (hdone : copy.done = true)
    (hagrees : StatusAgrees a copy) :
    Wrote (fun _ => Final (verdict copy)) (Status.status args a (desk (some copy))).2.log := by
  have hstart : Kept (fun _ => Final (verdict copy)) (desk (some copy)) :=
    ⟨final_self hdone, wrote_nil⟩
  suffices h : Kept (fun _ => Final (verdict copy)) (Status.status args a (desk (some copy))).2 from
    h.wrote
  unfold Status.status
  cases a.envelope with
  | some text => exact hstart
  | none =>
      rw [Prog.bind_run_ok (Command.readEnvelope_none _)]
      simp only [desk]
      cases a.supervisorAlive with
      | error text => exact hstart
      | ok alive =>
          rw [Command.lift_ok, Prog.bind_run_ok (Prog.pure_run _ _),
            noteSupervisor_done alive hdone, Prog.bind_run_ok (Command.modifyEnv_run _ _)]
          have hholding : Holding copy ⟨copy, some copy, []⟩ := ⟨rfl, rfl⟩
          split
          · next hconsult =>
              simp only [Bool.and_eq_true] at hconsult
              have hfailed : copy.cleanup = .failed := by
                have hterminal := (final_fields (final_self hdone)).2.2.1
                have hpending := hconsult.right
                unfold Status.cleanupPending at hpending
                cases hc : copy.cleanup <;> simp_all [Cleanup.gone, Cleanup.terminal]
              cases hsession : a.session with
              | error text => exact hstart
              | ok present =>
                  rw [Command.lift_ok, Prog.bind_run_ok (Prog.pure_run _ _)]
                  cases present with
                  | true =>
                      exact withSession_final args a _ hdone hholding fun _ hunscrubbed =>
                        hagrees hfailed hconsult.left (Or.inr hunscrubbed)
                  | false =>
                      exact withoutSession_final args a _ hdone hholding fun _ =>
                        hagrees hfailed hconsult.left (Or.inl hsession)
          · exact statusConclude_final args a false _ hstart

end Asking

/-!
## Every run
-/

/-- What a process writes from a record that was done, is done with the same verdict. -/
theorem current_writes {w : Work} {k : Nat} {env : JobEnvelope} (hcurrent : Current w)
    (hk : w.deeds[k]? = some (.wrote env)) :
    exists basis, w.basis = some basis ∧ basis.done = true ∧ env.done = true ∧
      verdict env = verdict basis := by
  rcases w with ⟨task, copy, late, next⟩
  cases task with
  | apply args a => exact False.elim hcurrent
  | status args a =>
      cases copy with
      | none => exact False.elim hcurrent
      | some copy =>
          rcases hcurrent with ⟨hdone, hagrees⟩
          have hfinal := wrote_deeds (status_done args a copy hdone hagrees) hk
          exact ⟨copy, rfl, hdone, hfinal.left, hfinal.right⟩
  | destroy args a =>
      cases copy with
      | none => exact False.elim hcurrent
      | some copy =>
          unfold Current at hcurrent
          simp only at hcurrent
          split at hcurrent
          · next htakes =>
              cases late with
              | none => cases hcurrent
              | some late =>
                  have hfinal := wrote_deeds (destroy_takenOver args
                    (readingLate a (some late)) hcurrent htakes rfl) hk
                  exact ⟨late, if_pos htakes, hcurrent, hfinal.left, hfinal.right⟩
          · next htakes =>
              rcases hcurrent with ⟨hdone, hagrees⟩
              have hagrees' : DestroyAgrees (readingLate a late) copy := by
                cases late <;> exact hagrees
              have hfinal := wrote_deeds
                (destroy_done args (readingLate a late) copy hdone hagrees') hk
              exact ⟨copy, if_neg htakes, hdone, hfinal.left, hfinal.right⟩

/-- Every done record, on disk or in a process, has the verdict with which the record on
disk first was done, and that one still is. -/
structure Settled (s : State) : Prop where
  disk : forall env, s.disk = some env -> env.done = true -> s.settled = some (verdict env)
  read : forall p w env, s.work p = some w -> w.copy = some env ∨ w.late = some env ->
    env.done = true -> s.settled = some (verdict env)
  isFinal : IsFinal s

theorem basis_read {w : Work} {env : JobEnvelope} (h : w.basis = some env) :
    w.copy = some env ∨ w.late = some env := by
  unfold Work.basis at h
  split at h
  · next hcopy =>
      split at h
      · rcases Option.or_eq_some_iff.mp h with hlate | ⟨_, hsome⟩
        · exact Or.inr hlate
        · exact Or.inl (hcopy.trans hsome)
      · exact Or.inl (hcopy.trans h)
  · exact Or.inl h

variable {s next : State}

theorem settled_read {p : Nat} {w : Work} (hs : Settled s)
    (hw : forall env, w.copy = some env ∨ w.late = some env -> env.done = true ->
      s.settled = some (verdict env)) :
    Settled { s with work := Function.update s.work p (some w) } where
  disk := hs.disk
  read q w' env hw' hread hdone := by
    rcases update_cases hw' with ⟨_, heq⟩ | ⟨_, hold⟩
    · rw [heq] at hread
      exact hw env hread hdone
    · exact hs.read q w' env hold hread hdone
  isFinal := hs.isFinal

theorem settled_write {env : JobEnvelope} (hs : Settled s)
    (hwrite : forall v, s.settled = some v -> env.done = true ∧ verdict env = v) :
    Settled { s with disk := some env, settled := s.settled.or (settles env) } := by
  cases hsettled : s.settled with
  | none =>
      refine ⟨?_, ?_, ?_⟩
      · intro env' henv hdone
        cases henv
        simp [settles, hdone]
      · intro p w env' hw hread hdone
        have hsome := hs.read p w env' hw hread hdone
        rw [hsettled] at hsome
        cases hsome
      · intro v hv
        simp only [settles, Option.none_or] at hv
        split at hv
        · next hdone => exact ⟨env, rfl, hdone, Option.some.inj hv⟩
        · cases hv
  | some v =>
      rcases hwrite v hsettled with ⟨hdone, hverdict⟩
      refine ⟨?_, ?_, ?_⟩
      · intro env' henv _
        cases henv
        simp [hverdict]
      · intro p w env' hw hread hdone'
        have hsome := hs.read p w env' hw hread hdone'
        rw [hsettled] at hsome
        exact hsome
      · intro v' hv'
        cases hv'
        exact ⟨env, rfl, hdone, hverdict⟩

theorem settled_begin {p : Nat} {task : Task} (hs : Settled s)
    (hstep : step s (.begin p task) = some next) : Settled next := by
  cases hstep
  apply settled_read hs
  intro env hread hdone
  rcases hread with hcopy | hlate
  · exact hs.disk env hcopy hdone
  · cases hlate

theorem settled_reread {p : Nat} (hs : Settled s)
    (hstep : step s (.reread p) = some next) : Settled next := by
  simp only [step] at hstep
  split at hstep
  · next hw =>
      cases hstep
      apply settled_read hs
      intro env hread hdone
      rcases hread with hcopy | hlate
      · exact hs.read p _ env hw (Or.inl hcopy) hdone
      · exact hs.disk env hlate hdone
  · cases hstep

theorem settled_act {p : Nat} (hs : Settled s) (hcurrent : OnlyCurrentWrite s (.act p))
    (hstep : step s (.act p) = some next) : Settled next := by
  simp only [step] at hstep
  split at hstep
  · cases hstep
  · next w hw =>
      split at hstep
      · cases hstep
      · next deed hdeed =>
          have hmoved : Settled { s with
              work := Function.update s.work p (some { w with next := w.next + 1 }) } :=
            settled_read hs fun env hread hdone => hs.read p w env hw hread hdone
          cases deed with
          | wrote env =>
              cases hstep
              apply settled_write hmoved
              intro v hv
              have hsettled : s.settled = some v := hv
              have hnow := hcurrent (by rw [hsettled]; rfl) w env hw hdeed
              rcases current_writes hnow hdeed with
                ⟨basis, hbasis, hdone, hdone', hverdict⟩
              have hread := hs.read p w basis hw (basis_read hbasis) hdone
              rw [hsettled] at hread
              exact ⟨hdone', hverdict.trans (Option.some.inj hread).symm⟩
          | release endpoint =>
              cases hstep
              exact hmoved
          | assigned endpoint =>
              cases hstep
              exact hmoved
          | absent endpoint =>
              cases hstep
              exact hmoved

theorem settled_preserved : machine.Preserved OnlyCurrentWrite Settled := by
  intro s a next hs hcurrent hstep
  cases a with
  | begin p task => exact settled_begin hs hstep
  | reread p => exact settled_reread hs hstep
  | act p => exact settled_act hs hcurrent hstep

theorem settled_start (h : machine.start s) : Settled s := by
  rcases h with ⟨hidle, hsettled⟩
  refine ⟨?_, ?_, ?_⟩
  · intro env henv hdone
    simp [hsettled, henv, settles, hdone]
  · intro p w env hw
    rw [hidle p] at hw
    cases hw
  · intro v hv
    rw [hsettled] at hv
    rcases Option.bind_eq_some_iff.mp hv with ⟨env, henv, hsettles⟩
    unfold settles at hsettles
    split at hsettles
    · next hdone => exact ⟨env, henv, hdone, Option.some.inj hsettles⟩
    · cases hsettles

/-- In every run in which, once the job is done, only a `status` or a `destroy` writes that
works from a record that was done when it read it, the job stays done with the verdict it
first had. -/
theorem done_final (h : machine.Reaches OnlyCurrentWrite s) : IsFinal s :=
  (Machine.reaches_invariant (fun _ => settled_start) settled_preserved h).isFinal

/-!
## Two runs
-/

/-- The answers of a `status` that finds the runner alive and a supervisor that is too. -/
def runnerAlive : Status.Answers where
  envelope := none
  supervisorAlive := .ok true
  session := .ok true
  transport := none
  keepAlive := .ok none
  scrub := .ok .ok
  offVm := ⟨.ok none, .error "", .ok none, "now"⟩
  deadlinePlan := .ok none
  launched := none
  passes := [{
    time := 0
    clock := 0
    cancel := ⟨.ok .ok, fun _ => ⟨.error "", .error "", .error ""⟩, ⟨.ok none, "now"⟩, "now"⟩
    keepAlive := .ok none
    look :=
      { result := .ok (none, .notFound)
        launch := .ok (some [("pid", .int 1), ("starttime", .str "1"), ("boot_id", .str "b")],
          .ok)
        watchdog := .ok (none, .notFound) }
    absorb := ⟨.ok none, "now"⟩
    offVm := ⟨.ok none, .error "", .ok none, "now"⟩
    note := {} }]
  keepPlan := .ok none
  copy := ⟨0, "jobs/j", fun _ => ⟨0, .ok (none, .notFound), none⟩⟩
  stopKeepAlive := none
  release := ⟨⟨.ok (), .ok []⟩, .error "HTTPError: 503"⟩
  forget := none
  write := {}
  lastWrite := {}
  emit := none

def idle (env : JobEnvelope) : State where
  disk := some env
  work := fun _ => none
  settled := settles env

theorem idle_start (env : JobEnvelope) : machine.start (idle env) := ⟨fun _ => rfl, rfl⟩

/-- `destroy` of a VM that was left up, after the job was done. -/
def leftUp : JobEnvelope :=
  { jobId := "j", workload := .succeeded, offload := .ok, cleanup := .leftUp
    supervisor := .finished, session := some "job-j", endpoint := some "e" }

def destroyTask : Task :=
  .destroy ⟨"j", false, 300⟩ (Destroy.allGuardedFail (.ok none))

/-- A run that meets the condition: the VM left up is released, and the verdict stays. -/
theorem done_final_leftUp :
    exists s, machine.Reaches OnlyCurrentWrite s ∧
      s.disk.map JobEnvelope.cleanup = some .released ∧ IsFinal s := by
  let run : List Action := [.begin 0 destroyTask, .act 0, .act 0]
  have hruns : ((machine.exec (idle leftUp) run).any fun s =>
      decide (s.disk.map JobEnvelope.cleanup = some .released)) = true := by decide
  have hcurrent : forall next, Current ⟨destroyTask, some leftUp, none, next⟩ := by
    intro next
    have hnot : takesOver ⟨"j", false, 300⟩ (Destroy.allGuardedFail (.ok none)) leftUp =
        false := by decide
    simp only [Current, destroyTask, hnot]
    exact ⟨rfl, fun _ read result env' hread => nomatch hread⟩
  have hguard : machine.Guarded OnlyCurrentWrite (idle leftUp) run := by
    refine ⟨trivial, fun s1 h1 => ⟨?_, fun s2 h2 => ⟨?_, fun _ _ => trivial⟩⟩⟩
    · cases h1
      intro _ w env hw _
      cases hw
      exact hcurrent 0
    · cases h1
      intro _ w env hw _
      have hnext : s2.work 0 = some ⟨destroyTask, some leftUp, none, 1⟩ := by
        simp only [machine, step, Function.update_self] at h2
        split at h2
        · cases h2
        · next deed _ =>
            cases h2
            cases deed <;> rfl
      rw [hnext] at hw
      cases hw
      exact hcurrent 1
  rcases Option.any_eq_true_iff_get _ _ |>.mp hruns with ⟨hsome, hreleased⟩
  have hreach : machine.Reaches OnlyCurrentWrite ((machine.exec (idle leftUp) run).get hsome) :=
    ⟨idle leftUp, run, idle_start leftUp, hguard, (Option.some_get hsome).symm⟩
  exact ⟨_, hreach, of_decide_eq_true hreleased, done_final hreach⟩

/-- A `status` without `--poll` reads the record of a running job, `destroy` ends the job,
and `status` writes its copy back. -/
theorem done_not_final : exists s, machine.Reaches Machine.Free s ∧ ¬IsFinal s := by
  let run : List Action :=
    [.begin 0 (.status ⟨"j", false⟩ runnerAlive), .begin 1 destroyTask, .act 1, .act 1, .act 0]
  have hruns : ((machine.exec (idle Destroy.launched) run).any fun s =>
      s.settled.isSome && !s.disk.any JobEnvelope.done) = true := by decide
  rcases Option.any_eq_true_iff_get _ _ |>.mp hruns with ⟨hsome, hlost⟩
  refine ⟨(machine.exec (idle Destroy.launched) run).get hsome,
    ⟨idle Destroy.launched, run, idle_start _, Machine.guarded_free machine run _,
      (Option.some_get hsome).symm⟩, ?_⟩
  intro hfinal
  simp only [Bool.and_eq_true, Bool.not_eq_true'] at hlost
  rcases Option.isSome_iff_exists.mp hlost.left with ⟨v, hv⟩
  rcases hfinal v hv with ⟨env, hdisk, hdone, _⟩
  have hnot := hlost.right
  rw [hdisk] at hnot
  simp [hdone] at hnot

end DoneFinal
end Job
end MightyColab
