import MightyColab.Job.Provision

/-!
# Provision holds at most one VM

Provision over every sequence of replies of the server and of failing steps, with no
signal: it never holds two VMs, and leaves the one it holds in the envelope, unless
`client.assign` returns an `Assignment`.
-/

namespace MightyColab
namespace Job

open Lib

namespace Apply

/-- What `client.assign` does: it returns one of its result types, or raises with nothing
assigned. -/
inductive AssignReply where
  | granted (grant : Grant)
  | failed (error : AssignError)
  deriving DecidableEq, Repr

/-- The replies to one `release_assignment`. -/
structure ReleaseReply where
  reclaimed : Bool := false
  failure : Option (ApiError × Bool) := none
  listing : Except String (List (Option String)) := .ok []

def ReleaseReply.hit (r : ReleaseReply) : ReleaseHit where
  reclaimed := r.reclaimed
  failure := r.failure
  listing := r.listing

/-- The replies for one candidate, and what its other steps raise. -/
structure Reply where
  assign : AssignReply
  /-- The release of a CPU machine granted for a GPU request. -/
  refusal : ReleaseReply := {}
  ping : Ping := .accepted
  /-- The release after a ping that found a scope missing. -/
  scope : ReleaseReply := {}
  spawn : Option String := none
  add : Option String := none
  addAgain : Option String := none
  session : Option String := none
  write : Write := {}
  units : Except String ComputeUnitReading := .error ""
  emit : Option String := none

def Reply.candidate (r : Reply) : Candidate where
  outcome := match r.assign with
    | .granted grant => .granted grant
    | .failed error => .failed error none
  release := r.refusal.hit
  emit := { fault := r.emit }
  session := { fault := r.session }
  write := { write := r.write }
  keepAlive := {
    ping := r.ping
    release := r.scope.hit
    add := { fault := r.add }
    spawn := { fault := r.spawn }
    addAgain := { fault := r.addAgain } }
  units := { answer := r.units }

/-- The loop comes to a reply that is an `Assignment`. -/
def MeetsAssignment : List String -> (Nat -> Reply) -> Prop
  | [], _ => False
  | want :: rest, replies =>
      (exists grant, (replies 0).assign = .granted grant ∧ grant.accelerator = none) ∨
        ((replies 0).candidate.Continues want ∧
          MeetsAssignment rest fun n => replies (n + 1))

/-- The VM held, if there is one, is the envelope's endpoint, and no moment had two. -/
def HoldsAtMostOne (s : Proc) : Prop :=
  AtMostOne s.log ∧ forall e, e ∈ held s.log ∨ e ∈ s.live -> s.env.endpoint = some e

variable {s : Proc} {endpoint : String}

theorem accounted_holds (h : Accounted s) : HoldsAtMostOne s := by
  rcases h with hnone | ⟨vm, hone, hend⟩
  · refine ⟨hnone.single, fun e he => ?_⟩
    rw [hnone.held] at he
    rcases he with he | he
    · exact False.elim (List.not_mem_nil he)
    · exact False.elim (List.not_mem_nil (hnone.live e he))
  · refine ⟨hone.single, fun e he => ?_⟩
    have hvm : e = vm := by
      rw [hone.held] at he
      rcases he with he | he
      · exact List.mem_singleton.mp he
      · exact List.mem_singleton.mp (hone.live e he)
    rw [hvm]
    exact nonempty_eq_some hend

theorem granted_not_holds (h : Granted endpoint s) : ¬HoldsAtMostOne s := by
  intro hholds
  have hend := hholds.right endpoint (Or.inl (by simp [h.left.held]))
  rw [h.right.right] at hend
  cases hend

theorem candidate_granted {r : Reply} {grant : Grant} (h : r.assign = .granted grant) :
    r.candidate.outcome = .granted grant := by
  simp [Reply.candidate, h]

theorem candidate_failed {r : Reply} {error : AssignError} (h : r.assign = .failed error) :
    r.candidate.outcome = .failed error none := by
  simp [Reply.candidate, h]

theorem allSeen_of_not_meets :
    forall (wants : List String) (replies : Nat -> Reply),
      ¬MeetsAssignment wants replies -> AllSeen wants fun n => (replies n).candidate
  | [], _, _ => trivial
  | want :: rest, replies, hmeets => by
      refine ⟨?_, fun hmore => allSeen_of_not_meets rest _ fun hrest =>
        hmeets (Or.inr ⟨hmore, hrest⟩)⟩
      cases hassign : (replies 0).assign with
      | failed error => rw [Candidate.Seen, candidate_failed hassign]
      | granted grant =>
          rw [Candidate.Seen, candidate_granted hassign]
          refine ⟨?_, rfl, rfl, rfl⟩
          cases haccelerator : grant.accelerator with
          | some granted => rfl
          | none => exact absurd (Or.inl ⟨grant, hassign, haccelerator⟩) hmeets

/-!
## A reply that is an `Assignment`
-/

theorem start_run (r : Reply) (s : Proc) : arrive r.candidate.start s = (.ok (), s) := rfl

theorem forget_run (r : Reply) (f : JobEnvelope -> JobEnvelope) (s : Proc) :
    updates r.candidate.gaps [f] s = (.ok (), { s with env := f s.env }) := rfl

theorem refusal_run (r : Reply) (endpoint : String) (s : Proc) :
    releaseAssignment r.candidate.release endpoint s =
      let sent := afterUnassign r.candidate.release endpoint s
      let outcome := r.candidate.release.outcome sent.live endpoint
      (.ok outcome, confirmed endpoint outcome.1 sent) := rfl

theorem assign_granted {r : Reply} {grant : Grant} (h : r.assign = .granted grant)
    (s : Proc) : assign r.candidate s = (.ok (.ok grant), assigned grant s) := by
  simp only [assign, Reply.candidate, h]
  rfl

theorem assign_failed {r : Reply} {error : AssignError} (h : r.assign = .failed error)
    (s : Proc) : assign r.candidate s = (.ok (.error error), s) := by
  simp only [assign, Reply.candidate, h]
  rfl

theorem forget_waiting {s : Proc} (hs : Tracked [] s) :
    Waiting { s with env := { s.env with endpoint := none } } :=
  ⟨⟨hs.live, hs.held, hs.single, hs.unsettled⟩, rfl⟩

theorem setPhase_waiting {s : Proc} (hs : Waiting s) :
    Waiting (setPhase {} .provision s).2 :=
  robust_waiting.setPhase {} .provision s hs

theorem meets_granted (jobId : String) (all : List String) :
    forall (wants : List String) (replies : Nat -> Reply)
      (attempts : List ProvisionAttempt) (s : Proc), MeetsAssignment wants replies ->
      Waiting s -> exists e, Granted e (tryCandidates jobId all wants
        (fun n => (replies n).candidate) attempts s).2 := by
  intro wants
  induction wants with
  | nil =>
      intro replies attempts s hmeets
      exact False.elim hmeets
  | cons want rest ih =>
      intro replies attempts s hmeets hs
      let asked : Proc := { s with env := { s.env with requestedAccelerator := some want } }
      have hask : modifyEnv (fun env => { env with requestedAccelerator := some want }) s =
          (.ok (), asked) := rfl
      have hasked : Waiting asked :=
        robust_waiting.edit s { s.env with requestedAccelerator := some want } rfl rfl hs
      cases hassign : (replies 0).assign with
      | failed error =>
          have hmore : (replies 0).candidate.Continues want ∧
              MeetsAssignment rest fun n => replies (n + 1) := by
            rcases hmeets with ⟨grant, hgranted, _⟩ | hmore
            · rw [hassign] at hgranted
              cases hgranted
            · exact hmore
          have hgoesOn := hmore.left
          rw [Candidate.Continues, candidate_failed hassign] at hgoesOn
          have hfault : (replies 0).candidate.emit.fault = none := hgoesOn.right
          have hemit : step (replies 0).candidate.emit asked = (.ok (), asked) := by
            simp only [Reply.candidate] at hfault
            simp [step, Reply.candidate, hfault, attempted, arrive, Prog.bind_run]
          have hrun : tryCandidates jobId all (want :: rest)
              (fun n => (replies n).candidate) attempts s =
                tryCandidates jobId all rest (fun n => (replies (n + 1)).candidate)
                  (attempts ++ [failedAssign want error]) asked := by
            rw [tryCandidates, Prog.bind_run_ok (start_run _ s), Prog.bind_run_ok hask,
              Prog.bind_run_ok (assign_failed hassign asked)]
            simp only [hgoesOn.left, Bool.false_eq_true, ↓reduceIte]
            exact Prog.bind_run_ok hemit
          rw [hrun]
          exact ih _ _ asked hmore.right hasked
      | granted grant =>
          have hgranted := assigned_granted grant hasked
          rw [tryCandidates, Prog.bind_run_ok (start_run _ s), Prog.bind_run_ok hask,
            Prog.bind_run_ok (assign_granted hassign asked)]
          cases haccelerator : grant.accelerator with
          | none =>
              simp only [haccelerator]
              exact ⟨_, hgranted⟩
          | some granted =>
              have hmore : (replies 0).candidate.Continues want ∧
                  MeetsAssignment rest fun n => replies (n + 1) := by
                rcases hmeets with ⟨other, hother, hnone⟩ | hmore
                · rw [hassign] at hother
                  cases hother
                  rw [haccelerator] at hnone
                  cases hnone
                · exact hmore
              have hgoesOn := hmore.left
              rw [Candidate.Continues, candidate_granted hassign] at hgoesOn
              simp only [haccelerator, Option.all_some] at hgoesOn
              let recorded : Proc :=
                { assigned grant asked with
                  env := { asked.env with
                    actualAccelerator := some granted
                    endpoint := some grant.endpoint.val } }
              have hrecord : updates (replies 0).candidate.record
                  [fun env => { env with actualAccelerator := some granted },
                    fun env => { env with endpoint := some grant.endpoint.val }]
                  (assigned grant asked) = (.ok (), recorded) := rfl
              have hfresh : Fresh grant.endpoint.val recorded :=
                ⟨⟨⟨hgranted.left.live, hgranted.left.held, hgranted.left.single,
                  hgranted.left.unsettled⟩, by simp [recorded, nonempty, grant.endpoint.property]⟩,
                  hgranted.right.left⟩
              simp only [haccelerator]
              rw [Prog.bind_run_ok hrecord, if_pos hgoesOn.left,
                Prog.bind_run_ok (refusal_run _ _ recorded)]
              have hrelease := releaseGrant_leaves (replies 0).candidate.release
                grant.endpoint.val recorded hfresh
              rw [refusal_run] at hrelease
              rcases hrelease with ⟨hofGrant, hrelease⟩
              have hreleased : ((replies 0).candidate.release.outcome (afterUnassign
                  (replies 0).candidate.release grant.endpoint.val recorded).live
                    grant.endpoint.val).1 ≠ .failed := by
                rw [hofGrant]
                exact hgoesOn.right
              rw [if_neg hreleased] at hrelease
              rw [if_neg hreleased, Prog.bind_run_ok (forget_run _ _ _)]
              exact ih _ _ _ hmore.right (forget_waiting hrelease)

theorem provision_meets (plan : Plan) {replies : Nat -> Reply} (args : Args)
    (disk : Option JobEnvelope) (hmeets : MeetsAssignment (candidates plan.spec) replies) :
    ¬HoldsAtMostOne (provision plan { candidates := fun n => (replies n).candidate }
      (start args disk)).2 := by
  intro hholds
  rcases meets_granted plan.jobId (candidates plan.spec) (candidates plan.spec) replies []
    _ hmeets (setPhase_waiting (start_waiting args disk)) with ⟨e, hgranted⟩
  exact granted_not_holds hgranted hholds

/-- Provision, from a process that holds no VM: it never holds two, and its envelope names
the one it holds, exactly when the loop comes to no `Assignment`. -/
theorem provision_holds_iff (plan : Plan) (replies : Nat -> Reply) (args : Args)
    (disk : Option JobEnvelope) :
    HoldsAtMostOne (provision plan { candidates := fun n => (replies n).candidate }
        (start args disk)).2 <->
      ¬MeetsAssignment (candidates plan.spec) replies := by
  constructor
  · intro hholds hmeets
    exact provision_meets plan args disk hmeets hholds
  · intro hmeets
    exact accounted_holds (provision_leaves plan _ (allSeen_of_not_meets _ _ hmeets)
      (start_waiting args disk))

/-- The first request for a T4 is answered with an `Assignment`. -/
theorem provision_loses_assignment :
    ¬HoldsAtMostOne (provision t4Job.plan
      { candidates := fun _ =>
          Reply.candidate { assign := .granted ⟨⟨"e", by decide⟩, none⟩ } }
      (start t4Job none)).2 :=
  provision_meets t4Job.plan t4Job none (Or.inl ⟨_, rfl, rfl⟩)

end Apply
end Job
end MightyColab
