import MightyColab.Job.Provision

/-!
# A VM that outlives apply is on disk

Between the server's grant and the first envelope write that names it, a VM is known to
this process alone. One invariant says what the process knows of the VMs it was granted,
and that no envelope calls a VM gone that is there; a second says that the envelope on
disk knows as much. The phases keep both, whatever signals arrive, except in the window
of the grant.
-/

namespace MightyColab
namespace Job

open Lib

/-- The values of cleanup under which a later `status --poll` or `destroy` reaches the
VM. -/
def Cleanup.Standing (c : Cleanup) : Prop := c = .pending ∨ c = .leftUp ∨ c = .failed

instance (c : Cleanup) : Decidable c.Standing := by
  unfold Cleanup.Standing
  infer_instance

namespace Apply

/-!
## What is known of a live VM
-/

def LeadsTo (endpoint : String) (env : JobEnvelope) : Prop :=
  nonempty env.endpoint = some endpoint ∧ env.cleanup.Standing

/-- Every live VM is reached from the envelope in memory, and none was recorded as gone;
with `durable`, every live VM is reached from the envelope on disk. -/
structure Held (durable : Prop) (s : Proc) : Prop where
  known : forall e, e ∈ s.live -> LeadsTo e s.env
  truthful : forall env, .wrote env ∈ s.log -> env.cleanup.Standing ∨ s.live = []
  onDisk : durable -> forall e, e ∈ s.live ->
    exists env, s.disk = some env ∧ LeadsTo e env

variable {durable : Prop} {s t : Proc} {endpoint : String}

theorem held_of_none (h : s.live = []) : Held durable s where
  known e he := by simp [h] at he
  truthful _ _ := Or.inr h
  onDisk _ e he := by simp [h] at he

theorem robust_held (durable : Prop) : Robust (Held durable) where
  own s t henv hdisk hlog hlive hs := by
    refine ⟨?_, ?_, ?_⟩
    · rw [hlive, henv]
      exact hs.known
    · rw [hlive, hlog]
      exact hs.truthful
    · rw [hlive, hdisk]
      exact hs.onDisk
  edit s env hend hclean hs := by
    refine ⟨fun e he => ?_, hs.truthful, hs.onDisk⟩
    rw [LeadsTo, hend, hclean]
    exact hs.known e he
  write s hs := by
    refine ⟨hs.known, fun env henv => ?_, fun _ e he => ⟨s.env, rfl, hs.known e he⟩⟩
    rcases List.mem_cons.mp henv with henv | henv
    · cases henv
      cases hlive : s.live with
      | nil => exact Or.inr rfl
      | cons e rest =>
          exact Or.inl (hs.known e (by rw [hlive]; exact List.mem_cons_self)).right
    · exact hs.truthful env henv

theorem persist_durable (hs : Held durable s) {hit : WriteHit} (hquiet : Quiet s hit.before)
    (hlands : hit.write.lands = true) : Held True (persist hit s).2 := by
  rw [persist, Prog.bind_run_ok (arrive_quiet hquiet)]
  refine Prog.Keeps.after_bind ?_ fun _ => (robust_held True).arrive _
  rw [writeEnvelope_state, if_pos hlands]
  have hwritten := (robust_held durable).write s hs
  exact ⟨hwritten.known, hwritten.truthful, fun _ e he => ⟨s.env, rfl, hs.known e he⟩⟩

/-!
## Release
-/

theorem Held.ignored (hs : Held durable s) (ignored : List StopSignal) :
    Held durable { s with ignored } :=
  (robust_held durable).own s _ rfl rfl rfl rfl hs

variable (endpoint) in
theorem afterUnassign_held (hit : ReleaseHit) (hs : Held durable s) :
    Held durable (afterUnassign hit endpoint s) := by
  have hsent : Held durable { s with log := .release endpoint :: s.log } :=
    { hs with truthful := fun env henv => hs.truthful env (by simpa using henv) }
  unfold afterUnassign
  simp only
  split
  · refine ⟨fun e he => hsent.known e (List.mem_filter.mp he).left, fun env henv => ?_,
      fun hd e he => hsent.onDisk hd e (List.mem_filter.mp he).left⟩
    rcases hsent.truthful env henv with hstanding | hnone
    · exact Or.inl hstanding
    · have hnone' : s.live = [] := hnone
      exact Or.inr (by simp [hnone'])
  · exact hsent

variable (endpoint) in
theorem confirmed_held (outcome : Cleanup) (hs : Held durable s) :
    Held durable (confirmed endpoint outcome s) :=
  confirmed_keeps outcome hs
    { hs with truthful := fun env henv => hs.truthful env (by simpa using henv) }

theorem confirmed_env (outcome : Cleanup) (s : Proc) :
    (confirmed endpoint outcome s).env = s.env := by
  unfold confirmed
  split <;> rfl

theorem confirmed_live (outcome : Cleanup) (s : Proc) :
    (confirmed endpoint outcome s).live = s.live := by
  unfold confirmed
  split <;> rfl

variable (endpoint) in
theorem releaseAssignment_held (hit : ReleaseHit) (hs : Held durable s) :
    Held durable (releaseAssignment hit endpoint s).2 ∧
      (releaseAssignment hit endpoint s).2.env = s.env ∧
      forall outcome t, releaseAssignment hit endpoint s = (.ok outcome, t) ->
        outcome.1 ≠ .failed -> endpoint ∉ t.live := by
  have hsent := afterUnassign_held endpoint hit hs
  have hknown := fun outcome => confirmed_held endpoint outcome hsent
  have henv : forall outcome, (confirmed endpoint outcome
      (afterUnassign hit endpoint s)).env = s.env := fun outcome =>
    (confirmed_env outcome _).trans (afterUnassign_env hit endpoint s)
  rcases releaseAssignment_cases hit endpoint s with ⟨u, e, ignored, hu, hrun⟩ | hrun
  · rw [hrun]
    refine ⟨Held.ignored ?_ ignored, ?_, fun _ _ hok => by cases hok⟩
    · rcases hu with rfl | rfl | rfl
      · exact hs
      · exact hsent
      · exact hknown _
    · rcases hu with rfl | rfl | rfl
      · rfl
      · exact afterUnassign_env hit endpoint s
      · exact henv _
  · rw [hrun]
    refine ⟨hknown _, henv _, fun outcome t hok hfailed => ?_⟩
    cases hok
    rw [confirmed_live]
    exact outcome_truthful hit endpoint s hfailed

/-!
## The `finally` block
-/

theorem robust_idle : Robust fun s => s.live = [] where
  own _ _ _ _ _ hlive hs := hlive.trans hs
  edit _ _ _ _ hs := hs
  write _ hs := hs

theorem idle_updates (gaps : Gaps) (fs : List (JobEnvelope -> JobEnvelope)) :
    Prog.Keeps (fun s => s.live = []) (updates gaps fs) :=
  updates_keeps robust_idle.arrive fs gaps fun _ _ _ hs => hs

theorem recordVmKept_standing (env : JobEnvelope) (jobId : String) :
    (recordVmKept env jobId).cleanup.Standing := by
  unfold recordVmKept
  split
  · exact Or.inr (Or.inl rfl)
  · exact Or.inr (Or.inr rfl)

theorem Held.mark (hs : Held durable s) {env : JobEnvelope}
    (hend : env.endpoint = s.env.endpoint) (hstanding : env.cleanup.Standing) :
    Held durable { s with env } where
  known e he := ⟨by rw [hend]; exact (hs.known e he).left, hstanding⟩
  truthful := hs.truthful
  onDisk := hs.onDisk

theorem Held.only (hs : Held durable s) (hendpoint : nonempty s.env.endpoint = some endpoint)
    (hgone : endpoint ∉ s.live) : s.live = [] := by
  refine List.eq_nil_iff_forall_not_mem.mpr fun e he => hgone ?_
  have hknown := (hs.known e he).left
  rw [hendpoint] at hknown
  cases hknown
  exact he

theorem releaseAndRecord_held (a : CleanupHit) (jobId : String) (hs : Held durable s)
    (hendpoint : nonempty s.env.endpoint = some endpoint) :
    Held durable (releaseAndRecord a jobId endpoint s).2 := by
  have hrobust := robust_held durable
  refine Prog.Keeps.after_ensure ?_
    (Prog.Keeps.bind (hrobust.dropSession _ _) fun _ => hrobust.persist _)
  rcases releaseAssignment_held endpoint a.release hs with ⟨ht, henv, hgone⟩
  rcases hrelease : releaseAssignment a.release endpoint s with ⟨o, t⟩
  rw [hrelease] at ht henv
  cases o with
  | raised e =>
      rw [Prog.bind_run_raised hrelease]
      exact ht
  | ended =>
      rw [Prog.bind_run, hrelease]
      exact ht
  | ok outcome =>
      rw [Prog.bind_run_ok hrelease]
      refine recordRelease_after hrobust a jobId outcome ht ?_
      by_cases hfailed : outcome.1 = .failed
      · exact ht.mark rfl (Or.inr (Or.inr hfailed))
      · refine held_of_none (ht.only ?_ (hgone outcome t hrelease hfailed))
        exact (congrArg (fun env => nonempty env.endpoint) henv).trans hendpoint

def HeldAt (durable : Prop) (endpoint : String) (s : Proc) : Prop :=
  Held durable s ∧ nonempty s.env.endpoint = some endpoint

theorem robust_heldAt (durable : Prop) (endpoint : String) :
    Robust (HeldAt durable endpoint) where
  own s t henv hdisk hlog hlive hs :=
    ⟨(robust_held durable).own s t henv hdisk hlog hlive hs.left, by
      rw [henv]
      exact hs.right⟩
  edit s env hend hclean hs :=
    ⟨(robust_held durable).edit s env hend hclean hs.left, by
      rw [hend]
      exact hs.right⟩
  write s hs := ⟨(robust_held durable).write s hs.left, hs.right⟩

theorem settled_held (a : CleanupHit) (jobId : String) (leaveUp : Bool) :
    Prog.Keeps (Held durable) (do
      let s ← Prog.get
      match nonempty s.env.endpoint with
      | none => cleanupAbsent a jobId
      | some endpoint =>
          if leaveUp then cleanupKept a jobId
          else
            copyRecordsBeforeRelease a
            stopKeepAlive a.keepAlive
            releaseAndRecord a jobId endpoint) := by
  have hrobust := robust_held durable
  intro s hs
  rw [Prog.bind_run_ok (Prog.get_run s)]
  cases hendpoint : nonempty s.env.endpoint with
  | none =>
      refine held_of_none (Prog.Keeps.bind (robust_idle.stopKeepAlive _) (fun _ =>
        Prog.Keeps.bind (robust_idle.dropSession _ _) fun _ =>
          Prog.Keeps.bind (idle_updates _ _) fun _ => robust_idle.persist _) s ?_)
      refine List.eq_nil_iff_forall_not_mem.mpr fun e he => ?_
      have hknown := (hs.known e he).left
      rw [hendpoint] at hknown
      cases hknown
  | some endpoint =>
      cases leaveUp with
      | true =>
          refine Prog.Keeps.bind (updates_keeps hrobust.arrive _ _ fun f hf t ht => ?_)
            (fun _ => hrobust.persist _) s hs
          rw [List.mem_singleton.mp hf]
          exact ht.mark (Late.recordVmKept_endpoint _ _) (recordVmKept_standing _ _)
      | false =>
          have hat := robust_heldAt durable endpoint
          refine Prog.Keeps.before (hat.copyRecordsBeforeRelease a) ⟨hs, hendpoint⟩
            (fun _ ht => ht.left) fun _ t ht => ?_
          exact Prog.Keeps.before (hat.stopKeepAlive _) ht (fun _ ht => ht.left)
            fun _ t ht => releaseAndRecord_held a jobId ht.left ht.right

theorem cleanup_held (a : CleanupHit) (jobId : String) (leaveUp : Bool) :
    Prog.Keeps (Held durable) (cleanup a jobId leaveUp) :=
  Prog.Keeps.bind ((robust_held durable).closeRuntime _) fun _ =>
    Prog.Keeps.bind ((robust_held durable).setPhase _ _) fun _ =>
      settled_held a jobId leaveUp

theorem finallyBlock_held (plan : Plan) (a : FinallyHit) :
    Prog.Keeps (Held durable) (finallyBlock plan a) :=
  (robust_held durable).finallyBlock plan a fun leaveUp =>
    cleanup_held a.cleanup plan.jobId leaveUp

/-!
## The first write of the `finally` block
-/

/-- `detach` reaches its write, which puts the envelope in place. -/
def FinallyHit.DetachWrites (s : Proc) (a : FinallyHit) : Prop :=
  (s.runtime = true -> a.close.Survives s) ∧ Quiet s a.write.before ∧
    a.write.write.lands = true

/-- Cleanup reaches the write of its phase, which puts the envelope in place. -/
def CleanupHit.Writes (s : Proc) (a : CleanupHit) : Prop :=
  (s.runtime = true -> a.close.Survives s) ∧ Quiet s a.phase.start ∧
    a.phase.event.Passes s ∧ Quiet s a.phase.write.before ∧
    a.phase.write.write.lands = true

/-- The `finally` block puts the envelope in place once. -/
def FinallyHit.Writes (s : Proc) (a : FinallyHit) : Prop :=
  Quiet s a.start ∧ exists removed t, removeSecret a.secret s = (.ok removed, t) ∧
    (removed = false -> forall i, i ≤ 3 -> Quiet t (a.gaps i)) ∧
    if t.env.supervisor = .interrupted ∧ removed = true then a.DetachWrites t
    else a.cleanup.Writes t

theorem durable_bind {result : Type} {p : Program result} {f : result -> Program Unit}
    {c : Prop} {good : result -> Proc -> Prop} (hp : Prog.ReturnsIff p s c good) (hc : c)
    (hkeeps : Prog.Keeps (Held durable) p) (hs : Held durable s)
    (hf : forall a t, good a t -> Held durable t -> Held True (f a t).2) :
    Held True ((p >>= f) s).2 := by
  rcases hp.left hc with ⟨a, t, hrun, hgood⟩
  have ht := hkeeps s hs
  rw [hrun] at ht
  rw [Prog.bind_run_ok hrun]
  exact hf a t hgood ht

theorem detach_durable {base : Proc} (h : Calm base s) (a : FinallyHit)
    (hwrites : a.DetachWrites base) (hs : Held durable s) :
    Held True (detach a s).2 := by
  refine durable_bind (closeRuntime_returnsIff h a.close) hwrites.1
    ((robust_held durable).closeRuntime _) hs fun _ t ht hheld => ?_
  exact persist_durable hheld ((ht.quiet _).mpr hwrites.2.1) hwrites.2.2

theorem setPhase_durable {base : Proc} (h : Calm base s) (hit : PhaseHit) (phase : Phase)
    (hstart : Quiet base hit.start) (hevent : hit.event.Passes base)
    (hbefore : Quiet base hit.write.before) (hlands : hit.write.write.lands = true)
    (hs : Held durable s) : Held True (setPhase hit phase s).2 := by
  have hrobust := robust_held durable
  have hphase : Mild fun env => { env with phase := phase } := fun _ => ⟨rfl, rfl⟩
  refine durable_bind (arrive_returnsIff h _) hstart (hrobust.arrive _) hs
    fun _ s1 h1 hs1 => ?_
  refine durable_bind (modifyEnv_returnsIff h1 hphase) trivial (hrobust.modifyEnv hphase) hs1
    fun _ s2 h2 hs2 => ?_
  refine durable_bind (step_returnsIff h2 _) hevent (hrobust.step _) hs2
    fun _ s3 h3 hs3 => ?_
  exact Prog.Keeps.after_bind (persist_durable hs3 ((h3.quiet _).mpr hbefore) hlands)
    fun _ => (robust_held True).step _

theorem cleanup_durable {base : Proc} (h : Calm base s) (a : CleanupHit) (jobId : String)
    (leaveUp : Bool) (hwrites : a.Writes base) (hs : Held durable s) :
    Held True (cleanup a jobId leaveUp s).2 := by
  rcases hwrites with ⟨hclose, hstart, hevent, hbefore, hlands⟩
  refine durable_bind (closeRuntime_returnsIff h a.close) hclose
    ((robust_held durable).closeRuntime _) hs fun _ t ht hheld => ?_
  exact Prog.Keeps.after_bind
    (setPhase_durable ht a.phase .cleanup hstart hevent hbefore hlands hheld)
    fun _ => settled_held a jobId leaveUp

theorem finallyBlock_durable (plan : Plan) (a : FinallyHit) (hwrites : a.Writes s)
    (hs : Held durable s) : Held True (finallyBlock plan a s).2 := by
  rcases hwrites with ⟨hstart, removed, t, hsecret, hgaps, hwrites⟩
  have hrobust := robust_held durable
  have ht : Held durable t := by
    have := hrobust.removeSecret a.secret s hs
    rwa [hsecret] at this
  rw [finallyBlock, Prog.bind_run_ok (arrive_quiet hstart), Prog.bind_run_ok hsecret]
  refine Prog.Keeps.after_bind ?_ fun _ => (robust_held True).letGo plan a
  rw [settleVm, Prog.bind_run_ok (Prog.get_run t)]
  refine durable_bind (secretKept_returnsIff (Calm.refl t) removed a.gaps _) hgaps
    (Prog.Keeps.ite (Prog.Keeps.pure _)
      (hrobust.updates _ fun _ hf => Robust.secretKeptVerdict_mild hf)) ht
    fun _ u hu hheld => ?_
  split at hwrites
  · rw [if_pos (by rwa [Bool.and_eq_true, decide_eq_true_eq])]
    exact detach_durable hu a hwrites hheld
  · rw [if_neg (by rwa [Bool.and_eq_true, decide_eq_true_eq])]
    exact cleanup_durable hu a.cleanup plan.jobId _ hwrites hheld

/-!
## The whole run
-/

theorem accounted_held (h : Accounted s) : Held False s := by
  rcases h with hnone | ⟨e, hone, hend⟩
  · exact held_of_none (List.eq_nil_iff_forall_not_mem.mpr fun e he =>
      List.not_mem_nil (hnone.live e he))
  · refine ⟨fun e' he' => ?_, fun env henv => Or.inl (Or.inl (hone.unsettled.right env henv)),
      fun h => h.elim⟩
    rw [List.mem_singleton.mp (hone.live e' he')]
    exact ⟨hend, Or.inl hone.unsettled.left⟩

theorem atFinally_held (args : Args) (a : Answers) (disk : Option JobEnvelope)
    (hseen : AllSeen (candidates args.plan.spec) a.body.provision.candidates) :
    Held False (atFinally args a disk) := by
  have hrobust := robust_held False
  have hprovision := provision_leaves args.plan a.body.provision hseen
    (start_waiting args disk)
  exact Prog.Keeps.after_attempt
    (hrobust.afterProvision args a.body (accounted_held hprovision))
    fun e => hrobust.handle args a.handler e

/-- Every live VM is reached from the envelope on disk. -/
def OnDisk (s : Proc) : Prop :=
  forall e, e ∈ s.live -> exists env, s.disk = some env ∧ LeadsTo e env

/-- A run of apply whose grants are seen, and whose VM is on disk before the `finally`
block or written there, leaves every VM that is still assigned on disk, and has recorded
none of them as gone. -/
theorem apply_loses_no_vm (args : Args) (a : Answers) (disk : Option JobEnvelope)
    (hsurvived : Survived args a disk)
    (hseen : AllSeen (candidates args.plan.spec) a.body.provision.candidates)
    (hwritten : OnDisk (atFinally args a disk) ∨
      a.finally_.Writes (atFinally args a disk)) :
    let s := (apply args a disk).2
    OnDisk s ∧ forall env, .wrote env ∈ s.log ->
      env.cleanup = .released ∨ env.cleanup = .alreadyAbsent -> s.live = [] := by
  have hentry := atFinally_held args a disk hseen
  have hfinal : Held True (finallyBlock args.plan a.finally_ (atFinally args a disk)).2 := by
    rcases hwritten with hondisk | hwrites
    · exact finallyBlock_held args.plan a.finally_ _
        { hentry with onDisk := fun _ => hondisk }
    · exact finallyBlock_durable args.plan a.finally_ hwrites hentry
  have hstate : Held True (apply args a disk).2 := by
    rcases apply_cases hsurvived with hrefused | hrun
    · rw [hrefused]
      exact held_of_none rfl
    · rw [hrun]
      exact hfinal
  intro s
  refine ⟨hstate.onDisk trivial, fun env henv hgone => ?_⟩
  rcases hstate.truthful env henv with hstanding | hnone
  · rcases hgone with hgone | hgone <;> simp [Cleanup.Standing, hgone] at hstanding
  · exact hnone

/-- A run stopped by SIGTERM between the grant and the first write that names it, and by
SIGHUP once cleanup has written the envelope: the release is never requested. -/
def stoppedTwice : Answers where
  body := { provision := { candidates := fun _ =>
    { outcome := .granted ⟨⟨"e", e_nonempty⟩, some "T4"⟩
      session := { before := some (.stop .sigterm) } } } }
  finally_ := { cleanup := {
    phase := { write := { after := some (.stop .sighup) } } } }

theorem apply_loses_no_vm_stopped :
    (apply t4Job stoppedTwice none).2.live = ["e"] ∧
      OnDisk (apply t4Job stoppedTwice none).2 := by
  refine ⟨by decide, (apply_loses_no_vm t4Job stoppedTwice none (by unfold Survived; decide)
    ⟨⟨rfl, rfl, rfl, rfl⟩, fun hmore => by cases hmore.left⟩ (Or.inr ⟨trivial, true, _,
      removeSecret_unprepared (by decide) _, by simp, ?_⟩)).left⟩
  rw [if_neg (by decide)]
  exact ⟨fun _ => ⟨trivial, fun _ => trivial⟩, trivial, ⟨trivial, rfl, trivial⟩, trivial, rfl⟩

/-- SIGINT arrives inside the assign request, once the server has granted the VM: the
envelope on disk has no endpoint and says that the VM is absent. -/
theorem apply_loses_a_vm :
    exists args a disk, Survived args a disk ∧
      (forall n, (a.body.provision.candidates n).outcome =
        .granted ⟨⟨"e", by decide⟩, some "T4"⟩) ∧
      (apply args a disk).2.live = ["e"] ∧ ¬OnDisk (apply args a disk).2 ∧
      exists env, (apply args a disk).2.disk = some env ∧ env.endpoint = none ∧
        env.cleanup = .alreadyAbsent := by
  let a : Answers :=
    { body := { provision := { candidates := fun _ =>
        { outcome := .granted ⟨⟨"e", by decide⟩, some "T4"⟩, during := some .sigint } } } }
  have hlive : (apply t4Job a none).2.live = ["e"] := by decide
  have hdisk : exists env, (apply t4Job a none).2.disk = some env ∧ env.endpoint = none ∧
      env.cleanup = .alreadyAbsent := ⟨_, rfl, rfl, rfl⟩
  refine ⟨t4Job, a, none, by unfold Survived; decide, fun _ => rfl, hlive, ?_, hdisk⟩
  intro hon
  rcases hdisk with ⟨env, henv, hend, _⟩
  rcases hon "e" (by rw [hlive]; exact List.mem_cons_self) with ⟨env', henv', hleads⟩
  rw [henv] at henv'
  cases henv'
  rw [LeadsTo, hend] at hleads
  cases hleads.left

end Apply
end Job
end MightyColab
