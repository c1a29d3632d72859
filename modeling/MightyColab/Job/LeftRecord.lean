import MightyColab.Job.Provision

/-!
# What the `finally` block leaves on disk

The block edits the record of its run in few ways. It does not touch the verdict, and it says
that the VM is gone only where it comes to a release that is not refused.
-/

namespace MightyColab
namespace Job

open Lib

namespace Apply

def Stored (good : JobEnvelope -> Prop) (disk : Option JobEnvelope) (s : Proc) : Prop :=
  good s.env ∧ (s.disk = disk ∨ exists env, s.disk = some env ∧ good env)

section Elementary

variable {good : JobEnvelope -> Prop} {disk : Option JobEnvelope}

theorem stored_own {s t : Proc} (h : Stored good disk s) (henv : t.env = s.env)
    (hdisk : t.disk = s.disk) : Stored good disk t := by
  unfold Stored
  rw [henv, hdisk]
  exact h

theorem stored_write {s : Proc} (h : Stored good disk s) :
    Stored good disk { s with disk := some s.env, log := .wrote s.env :: s.log } :=
  ⟨h.left, Or.inr ⟨s.env, rfl, h.left⟩⟩

theorem stored_modifyEnv {f : JobEnvelope -> JobEnvelope}
    (hf : forall env, good env -> good (f env)) :
    Prog.Keeps (Stored good disk) (modifyEnv f) :=
  fun s hs => ⟨hf s.env hs.left, hs.right⟩

end Elementary

/-!
## The steps of the `finally` block
-/

def decided (env : JobEnvelope) : Workload × Offload × Supervisor × Cleanup :=
  (env.workload, env.offload, env.supervisor, env.cleanup)

def Decides (good : JobEnvelope -> Prop) : Prop :=
  forall env env', decided env' = decided env -> good env -> good env'

theorem decides_settled : Decides JobEnvelope.Settled := by
  intro env env' heq h
  rcases Prod.mk.inj heq with ⟨hwork, heq⟩
  rcases Prod.mk.inj heq with ⟨hoff, heq⟩
  rcases Prod.mk.inj heq with ⟨hsup, _⟩
  unfold JobEnvelope.Settled
  rw [hwork, hoff, hsup]
  exact h

def Ungone (env : JobEnvelope) : Prop := env.cleanup.gone = false

theorem decides_ungone : Decides Ungone := by
  intro env env' heq h
  have hclean : env'.cleanup = env.cleanup := congrArg (fun d => d.2.2.2) heq
  unfold Ungone
  rw [hclean]
  exact h

section Finally

variable {good : JobEnvelope -> Prop} {disk : Option JobEnvelope} (h : Decides good)

include h

theorem stored_tidy : Tidy (Stored good disk) where
  own s t henv hdisk _ _ hs := stored_own hs henv hdisk
  hints s env hhints hs := ⟨h s.env env (hhints.same decided) hs.left, hs.right⟩
  phase s phase hs := ⟨h s.env { s.env with phase } rfl hs.left, hs.right⟩
  write s hs := stored_write hs

theorem stored_updates (gaps : Gaps) {fs : List (JobEnvelope -> JobEnvelope)}
    (hfs : forall f, f ∈ fs -> forall env, good env -> good (f env)) :
    Prog.Keeps (Stored good disk) (updates gaps fs) :=
  updates_keeps (stored_tidy h).arrive fs gaps fun f hf => stored_modifyEnv (hfs f hf)

theorem stored_secretKept (gaps : Gaps) (problem : Option String) :
    Prog.Keeps (Stored good disk) (updates gaps (secretKeptVerdict problem)) := by
  refine stored_updates h _ fun f hf env => ?_
  simp only [secretKeptVerdict, List.mem_cons, List.not_mem_nil, or_false] at hf
  rcases hf with rfl | rfl | rfl <;> exact h env _ rfl

theorem stored_releaseAssignment (hit : ReleaseHit) (endpoint : String) :
    Prog.Keeps (Stored good disk) (releaseAssignment hit endpoint) := by
  refine releaseAssignment_keeps hit endpoint (stored_tidy h).arrive (fun s hs => ?_)
    fun s hs => hs
  unfold afterUnassign
  split <;> exact hs

theorem stored_recordRelease (a : CleanupHit) (jobId endpoint : String)
    (outcome : Cleanup × Option String)
    (hset : forall env, good env -> good { env with cleanup := outcome.1 }) :
    Prog.Keeps (Stored good disk) (recordRelease a jobId endpoint outcome) := by
  refine Prog.Keeps.bind ((stored_tidy h).arrive _) fun _ =>
    Prog.Keeps.bind (stored_modifyEnv hset) fun _ =>
      Prog.Keeps.bind ((stored_tidy h).computeUnits _ _) fun _ =>
        Prog.Keeps.bind (stored_modifyEnv fun env => h env _ rfl) fun _ =>
          stored_updates h _ fun f hf env => ?_
  simp only [List.mem_cons, List.not_mem_nil, or_false] at hf
  rcases hf with rfl | rfl
  · simp only
    split <;> exact h env _ rfl
  · simp only
    split <;> exact h env _ rfl

theorem stored_afterRelease (a : CleanupHit) (jobId : String) :
    Prog.Keeps (Stored good disk) (do
      dropSession a.drop jobId
      persist a.write) :=
  Prog.Keeps.bind ((stored_tidy h).dropSession _ _) fun _ => (stored_tidy h).persist _

end Finally

/-!
## A record that is settled
-/

theorem recordVmKept_settled {env : JobEnvelope} (jobId : String) (h : env.Settled) :
    (recordVmKept env jobId).Settled := by
  unfold recordVmKept
  split <;> exact h

theorem settled_cleanup {disk : Option JobEnvelope} (a : CleanupHit) (jobId : String)
    (leaveUp : Bool) : Prog.Keeps (Stored JobEnvelope.Settled disk) (cleanup a jobId leaveUp) := by
  have h := decides_settled
  refine (stored_tidy h).cleanup a jobId leaveUp (stored_updates h _ fun f hf env henv => ?_)
    (stored_updates h _ fun f hf env henv => ?_) fun endpoint =>
      Prog.Keeps.bind (stored_releaseAssignment h _ _) fun outcome =>
        stored_recordRelease h a jobId endpoint outcome fun _ henv => henv
  · rw [List.mem_singleton.mp hf]
    exact henv
  · rw [List.mem_singleton.mp hf]
    exact recordVmKept_settled jobId henv

theorem settled_finallyBlock {disk : Option JobEnvelope} (plan : Plan) (a : FinallyHit) :
    Prog.Keeps (Stored JobEnvelope.Settled disk) (finallyBlock plan a) :=
  (stored_tidy decides_settled).finallyBlock plan a (stored_secretKept decides_settled _)
    fun leaveUp => settled_cleanup a.cleanup plan.jobId leaveUp

/-!
## A VM that is not released
-/

/-- The VM is there, with its endpoint in the record, and no record says that it is gone. -/
def There (disk : Option JobEnvelope) (endpoint : Option String) (live : List String)
    (s : Proc) : Prop :=
  Stored Ungone disk s ∧ s.env.endpoint = endpoint ∧ s.live = live

theorem robust_there (disk : Option JobEnvelope) (endpoint : Option String)
    (live : List String) : Robust (There disk endpoint live) where
  own s t henv hdisk _ hlive hs := by
    refine ⟨stored_own hs.left henv hdisk, ?_, hlive.trans hs.right.right⟩
    rw [henv]
    exact hs.right.left
  edit s env hend hclean hs := by
    refine ⟨⟨?_, hs.left.right⟩, hend.trans hs.right.left, hs.right.right⟩
    unfold Ungone
    rw [hclean]
    exact hs.left.left
  write s hs := ⟨stored_write hs.left, hs.right⟩

/-- `release_assignment` fails: what the server says does not show that the VM is gone. -/
def ReleaseHit.Refused (hit : ReleaseHit) (endpoint : String) (s : Proc) : Prop :=
  (hit.outcome (afterUnassign hit endpoint s).live endpoint).1 = .failed

variable {disk : Option JobEnvelope} {base s : Proc} {endpoint : String}

theorem refused_of_live {t : Proc} {hit : ReleaseHit} (h : hit.Refused endpoint s)
    (hlive : t.live = s.live) : hit.Refused endpoint t := by
  have hsent : (afterUnassign hit endpoint t).live = (afterUnassign hit endpoint s).live := by
    unfold afterUnassign
    split
    · exact congrArg (List.filter (· ≠ endpoint)) hlive
    · exact hlive
  unfold ReleaseHit.Refused
  rw [hsent]
  exact h

theorem releaseAndRecord_ungone (a : CleanupHit) (jobId : String) (hs : Stored Ungone disk s)
    (hrefused : Quiet s a.release.before -> a.release.Refused endpoint s) :
    Stored Ungone disk (releaseAndRecord a jobId endpoint s).2 := by
  refine Prog.Keeps.after_ensure ?_ (stored_afterRelease decides_ungone a jobId)
  have ht := stored_releaseAssignment decides_ungone a.release endpoint s hs
  by_cases hquiet : Quiet s a.release.before
  · rcases releaseAssignment_cases a.release endpoint s with ⟨u, e, ignored, _, hrun⟩ | hrun
    · rw [hrun] at ht
      rw [Prog.bind_run_raised hrun]
      exact ht
    · rw [hrun] at ht
      rw [Prog.bind_run_ok hrun]
      refine stored_recordRelease decides_ungone a jobId endpoint _ (fun env _ => ?_) _ ht
      unfold Ungone
      rw [hrefused hquiet]
      rfl
  · rcases arrive_loud hquiet with ⟨e, t, harrive, _⟩
    have hrun : releaseAssignment a.release endpoint s = (.raised e, t) :=
      Prog.bind_run_raised harrive
    rw [hrun] at ht
    rw [Prog.bind_run_raised hrun]
    exact ht

theorem recordVmKept_ungone (env : JobEnvelope) (jobId : String) :
    Ungone (recordVmKept env jobId) := by
  unfold Ungone recordVmKept
  split <;> rfl

theorem cleanup_kept_ungone (a : CleanupHit) (jobId : String)
    (hs : There disk (some endpoint) base.live s) (hend : endpoint ≠ "") :
    Stored Ungone disk (cleanup a jobId true s).2 := by
  have hthere := robust_there disk (some endpoint) base.live
  refine Prog.Keeps.before (hthere.closeRuntime _) hs (fun _ => And.left) fun _ t ht => ?_
  refine Prog.Keeps.before (hthere.setPhase _ _) ht (fun _ => And.left) fun _ u hu => ?_
  have hnamed : nonempty u.env.endpoint = some endpoint := by
    rw [hu.right.left]
    simp [nonempty, hend]
  rw [Prog.bind_run_ok (Prog.get_run u), hnamed]
  refine Prog.Keeps.bind (stored_updates decides_ungone _ fun f hf env _ => ?_)
    (fun _ => (stored_tidy decides_ungone).persist _) u hu.left
  rw [List.mem_singleton.mp hf]
  exact recordVmKept_ungone env jobId

theorem cleanup_ungone (h : Calm base s) (a : CleanupHit) (jobId : String)
    (hpending : base.env.cleanup = .pending)
    (hendpoint : nonempty base.env.endpoint = some endpoint)
    (hs : There disk base.env.endpoint base.live s)
    (hrefused : a.Reaches base -> a.release.Refused endpoint base) :
    Stored Ungone disk (cleanup a jobId false s).2 := by
  have hthere := robust_there disk base.env.endpoint base.live
  have hpending' : ({ base with runtime := false } : Proc).env.cleanup = .pending := hpending
  refine Prog.Keeps.returning (closeRuntime_returnsIff h _) (hthere.closeRuntime _) hs
    (fun _ => And.left) fun hclose _ s1 h1 hs1 => ?_
  refine Prog.Keeps.returning (setPhase_returnsIff hpending' h1 a.phase .cleanup)
    (hthere.setPhase _ _) hs1 (fun _ => And.left) fun hphase _ s2 h2 hs2 => ?_
  have hend : nonempty s2.env.endpoint = some endpoint := by rw [h2.endpoint, ← hendpoint]
  rw [Prog.bind_run_ok (Prog.get_run s2), hend]
  refine Prog.Keeps.returning (copyRecords_returnsIff h2 a) (hthere.copyRecordsBeforeRelease a) hs2
    (fun _ => And.left) fun hcopy _ s3 h3 hs3 => ?_
  rcases h3 with ⟨made, h3⟩
  refine Prog.Keeps.returning (stopKeepAlive_returnsIff h3 a.keepAlive) (hthere.stopKeepAlive _) hs3
    (fun _ => And.left) fun hpid _ s4 h4 hs4 => ?_
  refine releaseAndRecord_ungone a jobId hs4.left fun hquiet => ?_
  have hreaches : a.Reaches base := ⟨hclose, hphase, hcopy, hpid, (h4.quiet _).mp hquiet⟩
  exact refused_of_live (hrefused hreaches) hs4.right.right

/-- The `finally` block leaves the VM: the job is handed over, or the VM is kept, or its
release is not called, or refused. -/
def Spares (plan : Plan) (a : FinallyHit) (s : Proc) : Prop :=
  HandedOff a s ∨ exists endpoint, nonempty s.env.endpoint = some endpoint ∧
    (Kept plan a s ∨ (a.Reaches s -> a.cleanup.release.Refused endpoint s))

def SparesAfter (plan : Plan) (a : FinallyHit) (removed : Bool) (s : Proc) : Prop :=
  s.env.supervisor = .interrupted ∧ removed = true ∨
    exists endpoint, nonempty s.env.endpoint = some endpoint ∧
      (keepVm s.env (some plan.spec) removed = true ∨
        ((removed = false -> forall i, i ≤ 3 -> Quiet s (a.gaps i)) -> a.cleanup.Reaches s ->
          a.cleanup.release.Refused endpoint s))

theorem settleVm_ungone (plan : Plan) (a : FinallyHit) (removed : Bool)
    (hpending : s.env.cleanup = .pending) (hs : Stored Ungone disk s)
    (hspares : SparesAfter plan a removed s) :
    Stored Ungone disk (settleVm plan a removed s).2 := by
  have hthere := robust_there disk s.env.endpoint s.live
  have hkeeps : Prog.Keeps (There disk s.env.endpoint s.live) (if removed then pure () else
      updates a.gaps (secretKeptVerdict s.secretProblem) : Program Unit) :=
    Prog.Keeps.ite (Prog.Keeps.pure _) (hthere.updates _ fun _ hf =>
      Robust.secretKeptVerdict_mild hf)
  rw [settleVm, Prog.bind_run_ok (Prog.get_run s)]
  by_cases hhanded : s.env.supervisor = .interrupted ∧ removed = true
  · simp only [hhanded, decide_true, Bool.and_self, if_true]
    exact Prog.Keeps.bind (Prog.Keeps.pure _) (fun _ =>
      (stored_tidy decides_ungone).detach a) s hs
  · rcases hspares with hspares | ⟨endpoint, hendpoint, hspares⟩
    · exact absurd hspares hhanded
    · have hgoes : (decide (s.env.supervisor = .interrupted) && removed) = false := by
        simpa using hhanded
      simp only [hgoes, Bool.false_eq_true, if_false]
      refine Prog.Keeps.returning (secretKept_returnsIff (Calm.refl s) removed a.gaps _) hkeeps
        ⟨hs, rfl, rfl⟩ (fun _ => And.left) fun hgaps _ t ht hmid => ?_
      cases hkept : keepVm s.env (some plan.spec) removed with
      | true =>
          have hend : endpoint ≠ "" := by
            have := Option.filter_eq_some_iff.mp hendpoint
            simpa using this.right
          rw [nonempty_eq_some hendpoint] at hmid
          exact cleanup_kept_ungone a.cleanup plan.jobId hmid hend
      | false =>
          rcases hspares with hkeep | hrefused
          · rw [hkept] at hkeep
            cases hkeep
          · exact cleanup_ungone ht a.cleanup plan.jobId hpending hendpoint hmid (hrefused hgaps)

theorem finallyBlock_ungone (plan : Plan) (a : FinallyHit) (hpending : s.env.cleanup = .pending)
    (hs : Stored Ungone disk s) (hspares : Spares plan a s) :
    Stored Ungone disk (finallyBlock plan a s).2 := by
  by_cases hstart : Quiet s a.start
  · rw [finallyBlock, Prog.bind_run_ok (arrive_quiet hstart)]
    have hmid := (robust_there disk s.env.endpoint s.live).removeSecret a.secret s ⟨hs, rfl, rfl⟩
    have hvm := (robust_sameVm s.env).removeSecret a.secret s ⟨rfl, rfl⟩
    rcases hsecret : removeSecret a.secret s with ⟨o, t⟩
    rw [hsecret] at hmid hvm
    cases o with
    | ok removed =>
        rw [Prog.bind_run_ok hsecret]
        refine Prog.Keeps.after_bind (settleVm_ungone plan a removed (hvm.right.trans hpending)
          hmid.left ?_) fun _ => (stored_tidy decides_ungone).letGo plan a
        rcases hspares with ⟨u, hremove, hinterrupted⟩ | ⟨endpoint, hendpoint, hspares⟩
        · rw [hsecret] at hremove
          cases hremove
          exact Or.inl ⟨hinterrupted, rfl⟩
        · refine Or.inr ⟨endpoint, by rw [hvm.left, hendpoint], ?_⟩
          rcases hspares with ⟨removed', u, hremove, hkept⟩ | hrefused
          · rw [hsecret] at hremove
            cases hremove
            exact Or.inl hkept
          · exact Or.inr fun hgaps hreaches => refused_of_live
              (hrefused ⟨hstart, removed, t, hsecret, hgaps, hreaches⟩) hmid.right.right
    | raised e =>
        rw [Prog.bind_run_raised hsecret]
        exact hmid.left
    | ended =>
        rw [Prog.bind_run, hsecret]
        exact hmid.left
  · rcases arrive_loud hstart with ⟨e, t, harrive, _⟩
    have ht := (stored_tidy decides_ungone).arrive a.start s hs
    rw [harrive] at ht
    rw [finallyBlock, Prog.bind_run_raised harrive]
    exact ht

end Apply

end Job
end MightyColab
