import MightyColab.Job.CommandFrame
import MightyColab.Job.ApplyTrace

/-!
# What a command writes back

The records that `status` and `destroy` write are copies of one that they have read. Each
names the VM of that one, and says that the VM is gone only with a reason.
-/

namespace MightyColab
namespace Job

open Lib

namespace Concurrent

def isApply : Task -> Bool
  | .apply .. => true
  | _ => false

/-- A release that is confirmed has left no such VM. What an apply confirms is a deed of
its own. -/
def confirms : Task -> String -> Bool
  | .status _ a, endpoint => (releaseAssignment a.release.assignment endpoint).1.gone
  | .destroy _ a, endpoint => (releaseAssignment a.release.assignment endpoint).1.gone
  | .apply .., _ => false

/-- The record names the VM of the one it is made from, and says that it is gone only if
that one did, or names none, or the release has been confirmed. -/
def Follows (basis : JobEnvelope) (confirmed : String -> Bool) (log : List Deed)
    (env : JobEnvelope) : Prop :=
  env.endpoint = basis.endpoint ∧
    (env.cleanup.gone = true ->
      basis.cleanup.gone = true ∨ nonempty basis.endpoint = none ∨
        exists e, nonempty basis.endpoint = some e ∧ .release e ∈ log ∧ confirmed e = true)

variable {basis env env' : JobEnvelope} {log : List Deed} {confirmed : String -> Bool}

theorem follows_self (basis : JobEnvelope) (confirmed : String -> Bool) (log : List Deed) :
    Follows basis confirmed log basis := ⟨rfl, fun h => Or.inl h⟩

theorem follows_same (hsame : SameCleanup env env') (h : Follows basis confirmed log env) :
    Follows basis confirmed log env' := by
  refine ⟨hsame.left.trans h.left, ?_⟩
  rw [hsame.right]
  exact h.right

theorem follows_of_same (hsame : SameCleanup basis env) : Follows basis confirmed log env :=
  follows_same hsame (follows_self basis confirmed log)

theorem follows_stays (hend : env'.endpoint = env.endpoint)
    (hstays : env'.cleanup.gone = false) (h : Follows basis confirmed log env) :
    Follows basis confirmed log env' := by
  refine ⟨hend.trans h.left, fun hgone => ?_⟩
  rw [hstays] at hgone
  cases hgone

theorem follows_later {log' : List Deed} (hsub : forall d, d ∈ log -> d ∈ log')
    (h : Follows basis confirmed log env) : Follows basis confirmed log' env := by
  refine ⟨h.left, fun hgone => ?_⟩
  rcases h.right hgone with hbasis | hnone | ⟨e, hend, hmem, hconfirmed⟩
  · exact Or.inl hbasis
  · exact Or.inr (Or.inl hnone)
  · exact Or.inr (Or.inr ⟨e, hend, hsub _ hmem, hconfirmed⟩)

theorem follows_closed (basis : JobEnvelope) (answer : Release) :
    Closed answer (Follows basis fun e => (releaseAssignment answer.assignment e).1.gone) where
  hints _ _ _ hhints h := follows_same (SameCleanup.of_onlyHints hhints) h
  write _ _ h := follows_later (fun _ hd => List.mem_cons_of_mem _ hd) h
  release failure log env h := by
    refine ⟨(release_same answer failure env JobEnvelope.endpoint).trans h.left, ?_⟩
    rw [release_cleanup, releaseOutcome, h.left]
    cases hend : nonempty basis.endpoint with
    | none => exact fun _ => Or.inr (Or.inl rfl)
    | some e =>
        intro hgone
        exact Or.inr (Or.inr ⟨e, rfl, by simp, hgone⟩)

section Status

variable (basis) (args : Status.Args) (a : Status.Answers) (orphan : Bool)

def outcomes (answer : Release) (e : String) : Bool :=
  (releaseAssignment answer.assignment e).1.gone

theorem statusForced_same (cause : Option String) (env : JobEnvelope) :
    SameCleanup env (Status.forcedVerdict cause env) := by
  unfold Status.forcedVerdict
  simp only
  split
  · exact ⟨rfl, rfl⟩
  · split <;> exact ⟨rfl, rfl⟩

theorem statusConclude_follows (consulted : Bool) :
    Prog.Keeps (Kept (Follows basis (outcomes a.release))) (Status.conclude args a consulted) :=
  (follows_closed basis a.release).statusConclude args consulted

theorem forceRelease_follows (transport : Bool) (cause : Option String) :
    Prog.Keeps (Kept (Follows basis (outcomes a.release)))
      (Status.forceReleaseUnconfirmedSecret a transport cause) :=
  (follows_closed basis a.release).forceRelease transport fun _ env h =>
    follows_same (statusForced_same cause env) h

theorem releaseOrphanedJob_follows :
    Prog.Keeps (Kept (Follows basis (outcomes a.release))) (Status.releaseOrphanedJob a) :=
  (follows_closed basis a.release).releaseOrphanedJob
    (fun _ env jobId h => follows_stays (Apply.Late.recordVmKept_endpoint env jobId)
      (Apply.recordVmKept_stays env jobId) h)
    fun _ _ h => follows_same ⟨rfl, rfl⟩ h

theorem loop_follows (deadline : Option (Rat × String)) :
    forall (passes : List Status.Pass) (staleness : WatchdogStaleness),
      Prog.Keeps (Kept (Follows basis (outcomes a.release)))
        (Status.loop args orphan deadline passes staleness) := by
  intro passes
  induction passes with
  | nil => exact fun _ _ hs => hs
  | cons p rest ih =>
      intro staleness
      apply Prog.Keeps.get_bind
      intro s hs
      cases hpass : Status.pass args orphan deadline p staleness s.env with
      | error text => exact hs
      | ok turn =>
          have hgood := follows_same (pass_same hpass) hs.env
          rw [Command.lift_ok, Prog.bind_run_ok (Prog.pure_run _ _)]
          cases turn with
          | «break» env => exact Closed.replace hs hgood
          | again staleness env =>
              simp only
              rw [Prog.bind_run_ok (Command.modifyEnv_run _ _)]
              have hnext := Closed.replace hs hgood
              split
              · exact ih staleness _ hnext
              · exact hnext

theorem consultVm_follows :
    Prog.Keeps (Kept (Follows basis (outcomes a.release)))
      (Status.consultVm args a orphan) := by
  apply Prog.Keeps.get_bind
  intro s hs
  split
  · exact hs
  · refine Prog.Keeps.bind ?_ (fun deadline => loop_follows basis args a orphan deadline _ _)
      s hs
    split
    · exact kept_lift _
    · exact Prog.Keeps.pure _

theorem superviseVm_follows :
    Prog.Keeps (Kept (Follows basis (outcomes a.release)))
      (Status.superviseVm args a orphan) := by
  apply Prog.Keeps.bind (consultVm_follows basis args a orphan)
  intro _
  apply Prog.Keeps.get_bind
  intro s hs
  have hconclude := statusConclude_follows basis args a true
  split
  · exact Prog.Keeps.bind (releaseOrphanedJob_follows basis a) (fun _ => hconclude) s hs
  · exact Prog.Keeps.bind (kept_write (follows_closed basis a.release).write _)
      (fun _ => hconclude) s hs

theorem withSession_follows {s : Desk} (hs : Kept (Follows basis (outcomes a.release)) s)
    (hsame : SameCleanup basis s.env) :
    Kept (Follows basis (outcomes a.release)) (Status.withSession args a orphan s).2 := by
  unfold Status.withSession
  rw [Prog.bind_run_ok (Prog.get_run s)]
  apply Command.keeps_lift_bind _ _ hs
  intro env hensure
  have henv := hsame.trans (SameCleanup.of_onlyHints (Status.ensureKeepAlive_onlyHints hensure))
  apply Prog.Keeps.bind (kept_modifyEnv fun _ _ _ => follows_of_same henv)
  intro _
  apply Prog.Keeps.bind (kept_attempted a.transport)
  intro _
  rcases if Status.mustScrub orphan env then scrubReport a.scrub else (true, none) with
    ⟨scrubbed, problem⟩
  cases scrubbed with
  | false =>
    apply Command.keeps_lift_bind
    intro recovered hrecover
    apply Prog.Keeps.bind (kept_modifyEnv fun _ _ _ =>
      follows_of_same (henv.trans (statusRecover_same hrecover)))
    intro _
    exact forceRelease_follows basis a true _
  | true =>
    simp only [Bool.not_true, Bool.false_eq_true, if_false]
    split
    · exact Prog.Keeps.bind (releaseOrphanedJob_follows basis a) fun _ => kept_attempted a.emit
    · exact superviseVm_follows basis args a orphan

theorem withoutSession_follows {s : Desk}
    (hs : Kept (Follows basis (outcomes a.release)) s) (hsame : SameCleanup basis s.env) :
    Kept (Follows basis (outcomes a.release)) (Status.withoutSession args a orphan s).2 := by
  unfold Status.withoutSession
  rw [Prog.bind_run_ok (Prog.get_run s)]
  split
  · apply Command.keeps_lift_bind _ _ hs
    intro recovered hrecover
    apply Prog.Keeps.bind (kept_modifyEnv fun _ _ _ =>
      follows_of_same (hsame.trans (statusRecover_same hrecover)))
    intro _
    exact forceRelease_follows basis a false _
  · refine Prog.Keeps.bind (kept_modifyEnv fun _ env h => ?_) (fun _ => ?_) s hs
    · exact follows_same (SameCleanup.of_onlyHints (addHint_onlyHints env _)) h
    · exact statusConclude_follows basis args a true

theorem status_follows (copy : JobEnvelope) :
    Wrote (Follows copy (outcomes a.release))
      (Status.status args a (desk (some copy))).2.log := by
  have hstart : Kept (Follows copy (outcomes a.release)) (desk (some copy)) :=
    ⟨follows_self copy _ _, wrote_nil⟩
  suffices h : Kept (Follows copy (outcomes a.release))
      (Status.status args a (desk (some copy))).2 from h.wrote
  unfold Status.status
  cases a.envelope with
  | some text => exact hstart
  | none =>
      rw [Prog.bind_run_ok (Command.readEnvelope_none _)]
      simp only [desk]
      apply Command.keeps_lift_bind _ _ hstart
      intro alive _ s hs
      have hsame := noteSupervisor_same alive copy
      rw [Prog.bind_run_ok (Command.modifyEnv_run _ _)]
      have hnoted : Kept (Follows copy (outcomes a.release))
          { s with env := Status.noteSupervisor alive copy } :=
        Closed.replace hs (follows_of_same hsame)
      split
      · cases a.session with
        | error text => exact hnoted
        | ok present =>
            rw [Command.lift_ok, Prog.bind_run_ok (Prog.pure_run _ _)]
            cases present with
            | true => exact withSession_follows copy args a _ hnoted hsame
            | false => exact withoutSession_follows copy args a _ hnoted hsame
      · exact statusConclude_follows copy args a false _ hnoted

end Status

section Destroy

variable (basis) (args : Destroy.Args) (a : Destroy.Answers)

theorem destroyed_same (plan : Option Plan) (note : Option String) (confirmed : Bool)
    (outcome : Option String) (env : JobEnvelope) :
    SameCleanup env (Destroy.destroyedVerdict plan note confirmed outcome env) := by
  unfold Destroy.destroyedVerdict
  simp only
  split <;> exact ⟨rfl, rfl⟩

theorem destroyForced_same (problem : String) (env : JobEnvelope) :
    SameCleanup env (Destroy.forcedVerdict problem env) := by
  unfold Destroy.forcedVerdict
  simp only
  split
  · exact ⟨rfl, rfl⟩
  · split <;> exact ⟨rfl, rfl⟩

/-- A `destroy` that waits for a live `job apply`, and cannot read the record then, goes on
from its own. -/
theorem waitForApply_follows {text : String} (hfault : a.latest.fault = some text) :
    Prog.Keeps (Kept (Follows basis (outcomes a.release))) (Destroy.waitForApply args a) := by
  unfold Destroy.waitForApply
  apply Prog.Keeps.bind (kept_attempted a.echo)
  intro _
  apply Prog.Keeps.get_bind
  intro s hs
  simp only
  refine Prog.Keeps.bind (Prog.Keeps.modify fun t ht => ⟨ht.env, ht.wrote⟩) (fun _ => ?_) s hs
  apply Command.keeps_lift_bind
  intro current _
  split
  · exact Prog.Keeps.bind (kept_attempted a.emit) fun _ => Prog.Keeps.pure _
  · refine Prog.Keeps.bind (Prog.Keeps.modify fun t ht => ⟨?_, ht.wrote⟩) fun _ =>
      Prog.Keeps.pure _
    simp only [Destroy.reread, hfault, Destroy.takeOver]
    cases current <;> exact follows_same ⟨rfl, rfl⟩ ht.env

theorem waitForRunner_follows :
    Prog.Keeps (Kept (Follows basis (outcomes a.release))) (Destroy.waitForRunner args a) := by
  unfold Destroy.waitForRunner
  apply Prog.Keeps.bind (kept_attempted a.echo)
  intro _
  apply Prog.Keeps.get_bind
  intro s hs
  exact Closed.replace hs (follows_same (absorbAwaited_same a args.wait s.env) hs.env)

theorem await_follows {transport confirmed : Bool} {s : Desk}
    (hs : Kept (Follows basis (outcomes a.release)) s)
    (hnot : s.env.workload.terminal = false -> transport = true -> confirmed = true ->
      0 < args.wait -> a.supervisorAlive = .ok true -> a.latest.fault ≠ none) :
    Kept (Follows basis (outcomes a.release))
      (Destroy.await args a transport confirmed s).2 := by
  unfold Destroy.await
  rw [Prog.bind_run_ok (Prog.get_run s)]
  split
  · next hwaits =>
      simp only [Bool.and_eq_true, Bool.not_eq_true', decide_eq_true_eq] at hwaits
      rcases hwaits with ⟨⟨⟨hopen, htransport⟩, hconfirmed⟩, hwait⟩
      apply Command.keeps_lift_bind _ _ hs
      intro alive halive
      cases alive with
      | true =>
          cases hfault : a.latest.fault with
          | none => exact absurd hfault (hnot hopen htransport hconfirmed hwait halive)
          | some text => exact waitForApply_follows basis args a hfault
      | false => exact waitForRunner_follows basis args a
  · exact hs

/-- What `destroy` writes follows the record that it reads first, if it does not take
over. -/
theorem destroy_follows (copy : JobEnvelope) (hnot : takesOver args a copy = false) :
    Wrote (Follows copy (outcomes a.release))
      (Destroy.destroy args a (desk (some copy))).2.log := by
  have hstart : Kept (Follows copy (outcomes a.release)) (desk (some copy)) :=
    ⟨follows_self copy _ _, wrote_nil⟩
  have hclosed := follows_closed copy a.release
  suffices h : Kept (Follows copy (outcomes a.release))
      (Destroy.destroy args a (desk (some copy))).2 from h.wrote
  unfold Destroy.destroy
  cases a.envelope with
  | some text => exact hstart
  | none =>
      rw [Prog.bind_run_ok (Command.readEnvelope_none _)]
      simp only [desk]
      apply Command.keeps_lift_bind _ _ hstart
      intro plan _
      apply Command.keeps_lift_bind
      intro transport hopen
      apply Command.keeps_lift_bind
      intro env hrecover s hs
      have hsame := (reconcile_same a transport copy).trans (destroyRecover_same hrecover)
      rw [Prog.bind_run_ok (Command.modifyEnv_run _ _)]
      have henv := Closed.replace hs (follows_of_same hsame)
      unfold Destroy.conclude
      rw [Prog.bind_run_ok (Prog.get_run _)]
      simp only
      split
      · exact hclosed.releaseForced transport _
          (fun _ env text h => follows_same (destroyForced_same text env) h) _ henv
      · next hfull =>
          split
          · exact hclosed.leaveRunning _ _ (fun _ _ h => follows_same ⟨rfl, rfl⟩ h) _ henv
          · next hall =>
              refine Prog.Keeps.after_bind (await_follows copy args a henv ?_) fun waited => ?_
              · intro hopen' htransport hconfirmed hwait halive hfault
                subst htransport
                have hcancelOnly : args.cancelOnly = false := by simpa using hall
                have htakes := takesOver_iff.mpr ⟨env, hopen, hrecover, hcancelOnly, hopen',
                  hconfirmed, hwait, halive, hfault⟩
                rw [hnot] at htakes
                cases htakes
              · cases waited with
                | released => exact Prog.Keeps.pure _
                | release outcome =>
                    exact hclosed.releaseAndRecord plan transport _ _ outcome
                      fun _ env h => follows_same (destroyed_same plan _ _ outcome env) h

end Destroy

theorem destroyWork_follows (args : Destroy.Args) (a : Destroy.Answers) (copy : JobEnvelope)
    (late : Option JobEnvelope) :
    let from_ := if takesOver args a copy then late.getD copy else copy
    Wrote (Follows from_ (outcomes a.release))
      (Destroy.destroy args (readingLate a late) (desk (some copy))).2.log := by
  intro from_
  cases late with
  | none =>
      have hfrom : from_ = copy := by simp [from_]
      have hnot : takesOver args (readingLate a none) copy = false := by
        cases htakes : takesOver args (readingLate a none) copy with
        | false => rfl
        | true =>
            rcases takesOver_iff.mp htakes with ⟨_, _, _, _, _, _, _, _, hfault⟩
            cases hfault
      rw [hfrom]
      exact destroy_follows args (readingLate a none) copy hnot
  | some late =>
      cases htakes : takesOver args a copy with
      | true =>
          have hfrom : from_ = late := by simp [from_, htakes]
          rw [hfrom]
          have hclosed := follows_closed late (readingLate a (some late)).release
          exact hclosed.destroy_takesOver htakes rfl (follows_self late _ _)
            fun plan note confirmed outcome _ env h =>
              follows_same (destroyed_same plan note confirmed outcome env) h
      | false =>
          have hfrom : from_ = copy := by simp [from_, htakes]
          rw [hfrom]
          exact destroy_follows args (readingLate a (some late)) copy htakes

theorem work_follows {w : Work} {k : Nat} (hcommand : isApply w.task = false)
    (hk : w.deeds[k]? = some (.wrote env)) :
    exists basis, w.basis = some basis ∧
      Follows basis (confirms w.task) (w.deeds.take k).reverse env := by
  rcases w with ⟨task, copy, late, next⟩
  cases task with
  | apply args a => cases hcommand
  | status args a =>
      cases copy with
      | none =>
          have hnone : (Status.status args a (desk none)).2.log = [] := by
            unfold Status.status
            cases a.envelope <;> rfl
          simp [Work.deeds, hnone] at hk
      | some copy => exact ⟨copy, rfl, wrote_deeds (status_follows args a copy) hk⟩
  | destroy args a =>
      cases copy with
      | none =>
          have hnone : (Destroy.destroy args (readingLate a late) (desk none)).2.log = [] := by
            unfold Destroy.destroy
            cases (readingLate a late).envelope <;> rfl
          simp [Work.deeds, hnone] at hk
      | some copy =>
          refine ⟨_, ?_, wrote_deeds (destroyWork_follows args a copy late) hk⟩
          cases late <;> simp only [Work.basis] <;> split <;> rfl

end Concurrent
end Job
end MightyColab
