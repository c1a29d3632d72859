import MightyColab.Job.ApplyRelease

/-!
# What provision holds

The VMs that provision is assigned and has not seen confirmed as gone, read off the log,
and what the envelope says of them. At the head of the loop over the candidates there is
none; a candidate's grant makes one, which stays the only one until its release is
confirmed.
-/

namespace MightyColab
namespace Job

open Lib

namespace Apply

/-!
## The VMs held
-/

def held : List Deed -> List String
  | [] => []
  | .assigned e :: older => e :: held older
  | .absent e :: older => (held older).filter (· ≠ e)
  | .release _ :: older => held older
  | .wrote _ :: older => held older

/-- At no moment was more than one VM held. -/
def AtMostOne (log : List Deed) : Prop := forall l, l <:+ log -> (held l).length ≤ 1

theorem atMostOne_cons {deed : Deed} {log : List Deed} (h : AtMostOne log)
    (hnow : (held (deed :: log)).length ≤ 1) : AtMostOne (deed :: log) := by
  intro l hl
  rcases List.suffix_cons_iff.mp hl with rfl | hl
  · exact hnow
  · exact h l hl

def Unsettled (s : Proc) : Prop :=
  s.env.cleanup = .pending ∧ forall env, .wrote env ∈ s.log -> env.cleanup = .pending

structure Tracked (vms : List String) (s : Proc) : Prop where
  live : forall e, e ∈ s.live -> e ∈ vms
  held : held s.log = vms
  single : AtMostOne s.log
  unsettled : Unsettled s

def Waiting (s : Proc) : Prop := Tracked [] s ∧ s.env.endpoint = none

def Granted (endpoint : String) (s : Proc) : Prop :=
  Tracked [endpoint] s ∧ s.live = [endpoint] ∧ s.env.endpoint = none

def Owned (endpoint : String) (s : Proc) : Prop :=
  Tracked [endpoint] s ∧ nonempty s.env.endpoint = some endpoint

def Accounted (s : Proc) : Prop := Tracked [] s ∨ exists e, Owned e s

variable {vms : List String} {s t : Proc} {endpoint : String}

/-!
## A release
-/

def ReleaseHit.answer (hit : ReleaseHit) (live : List String) : ReleaseAnswer where
  unassign := match hit.failure with
    | none => .ok ()
    | some (error, _) => .error error
  listing := hit.listing.map fun others => live.map some ++ others

/-- What `release_assignment` returns. -/
def ReleaseHit.outcome (hit : ReleaseHit) (live : List String) (endpoint : String) :
    Cleanup × Option String :=
  Job.releaseAssignment (hit.answer live) endpoint

theorem outcome_truthful (hit : ReleaseHit) (endpoint : String) (s : Proc)
    (houtcome : (hit.outcome (afterUnassign hit endpoint s).live endpoint).1 ≠ .failed) :
    endpoint ∉ (afterUnassign hit endpoint s).live := by
  by_cases hreleased : (hit.reclaimed || hit.failure.all fun failure => failure.2) = true
  · unfold afterUnassign
    simp [hreleased]
  · intro hlive
    apply houtcome
    cases hfailure : hit.failure with
    | none => simp [hfailure] at hreleased
    | some failure =>
        simp only [ReleaseHit.outcome, Job.releaseAssignment, ReleaseHit.answer, hfailure]
        split
        · cases hlisting : hit.listing with
          | error text => rfl
          | ok others => simp [Except.map, hlive]
        · rfl

/-- How a release ends: before its request, once the server has acted, once its outcome
is known, or with that outcome. -/
theorem releaseAssignment_cases (hit : ReleaseHit) (endpoint : String) (s : Proc) :
    let sent := afterUnassign hit endpoint s
    let outcome := hit.outcome sent.live endpoint
    let known := confirmed endpoint outcome.1 sent
    (exists u e ignored, (u = s ∨ u = sent ∨ u = known) ∧
        releaseAssignment hit endpoint s = (.raised e, { u with ignored })) ∨
      releaseAssignment hit endpoint s = (.ok outcome, known) := by
  intro sent outcome known
  have hloud : forall {signal : Option Signal} {u : Proc}, ¬Quiet u signal ->
      exists e ignored, arrive signal u = (.raised e, { u with ignored }) := by
    intro signal u hn
    rcases arrive_loud hn with ⟨e, u', harrive, _⟩
    rcases arrive_state signal u with ⟨ignored, hstate⟩
    rw [harrive] at hstate
    exact ⟨e, ignored, harrive.trans (congrArg (Prod.mk _) hstate)⟩
  by_cases hbefore : Quiet s hit.before
  · have hsent : releaseAssignment hit endpoint s = (do
        arrive hit.during
        let s ← (Prog.get : Program Proc)
        let outcome := hit.outcome s.live endpoint
        Prog.modify (confirmed endpoint outcome.1)
        arrive hit.after
        return outcome : Program (Cleanup × Option String)) sent := by
      rw [releaseAssignment, Prog.bind_run_ok (arrive_quiet hbefore)]
      rfl
    by_cases hduring : Quiet sent hit.during
    · rw [Prog.bind_run_ok (arrive_quiet hduring), Prog.bind_run_ok (Prog.get_run sent),
        Prog.bind_run_ok (Prog.modify_run _ sent)] at hsent
      by_cases hafter : Quiet known hit.after
      · exact Or.inr (hsent.trans (Prog.bind_run_ok (arrive_quiet hafter)))
      · rcases hloud hafter with ⟨e, ignored, harrive⟩
        exact Or.inl ⟨known, e, ignored, Or.inr (Or.inr rfl),
          hsent.trans (Prog.bind_run_raised harrive)⟩
    · rcases hloud hduring with ⟨e, ignored, harrive⟩
      exact Or.inl ⟨sent, e, ignored, Or.inr (Or.inl rfl),
        hsent.trans (Prog.bind_run_raised harrive)⟩
  · rcases hloud hbefore with ⟨e, ignored, harrive⟩
    exact Or.inl ⟨s, e, ignored, Or.inl rfl, Prog.bind_run_raised harrive⟩

/-!
## What mild steps keep
-/

theorem waiting_accounted (h : Waiting s) : Accounted s := Or.inl h.left

theorem owned_accounted (h : Owned endpoint s) : Accounted s := Or.inr ⟨endpoint, h⟩

theorem robust_unsettled : Robust Unsettled where
  own _ _ henv _ hlog _ hs := by
    rw [Unsettled, henv, hlog]
    exact hs
  edit _ _ _ hclean hs := ⟨hclean.trans hs.left, hs.right⟩
  write s hs := by
    refine ⟨hs.left, fun env henv => ?_⟩
    rcases List.mem_cons.mp henv with henv | henv
    · cases henv
      exact hs.left
    · exact hs.right env henv

theorem robust_tracked (vms : List String) : Robust (Tracked vms) where
  own s t henv hdisk hlog hlive hs := by
    refine ⟨?_, ?_, ?_, robust_unsettled.own s t henv hdisk hlog hlive hs.unsettled⟩
    · rw [hlive]
      exact hs.live
    · rw [hlog]
      exact hs.held
    · rw [hlog]
      exact hs.single
  edit s env hend hclean hs :=
    { hs with unsettled := robust_unsettled.edit s env hend hclean hs.unsettled }
  write s hs :=
    { live := hs.live
      held := hs.held
      single := atMostOne_cons hs.single (hs.single s.log List.suffix_rfl)
      unsettled := robust_unsettled.write s hs.unsettled }

theorem robust_endpoint (p : Option String -> Prop) : Robust fun s => p s.env.endpoint where
  own _ _ henv _ _ _ hs := by
    rw [henv]
    exact hs
  edit _ _ hend _ hs := by
    rw [hend]
    exact hs
  write _ hs := hs

theorem robust_live (p : List String -> Prop) : Robust fun s => p s.live where
  own _ _ _ _ _ hlive hs := by
    rw [hlive]
    exact hs
  edit _ _ _ _ hs := hs
  write _ hs := hs

theorem robust_and {inv inv' : Proc -> Prop} (h : Robust inv) (h' : Robust inv') :
    Robust fun s => inv s ∧ inv' s where
  own s t henv hdisk hlog hlive hs :=
    ⟨h.own s t henv hdisk hlog hlive hs.left, h'.own s t henv hdisk hlog hlive hs.right⟩
  edit s env hend hclean hs :=
    ⟨h.edit s env hend hclean hs.left, h'.edit s env hend hclean hs.right⟩
  write s hs := ⟨h.write s hs.left, h'.write s hs.right⟩

theorem robust_waiting : Robust Waiting :=
  robust_and (robust_tracked []) (robust_endpoint (· = none))

theorem robust_owned (endpoint : String) : Robust (Owned endpoint) :=
  robust_and (robust_tracked [endpoint]) (robust_endpoint (nonempty · = some endpoint))

/-- The VM in the envelope, as it was granted. -/
def Fresh (endpoint : String) (s : Proc) : Prop := Owned endpoint s ∧ s.live = [endpoint]

theorem robust_fresh (endpoint : String) : Robust (Fresh endpoint) :=
  robust_and (robust_owned endpoint) (robust_live (· = [endpoint]))

/-!
## Steps that leave the process in order
-/

/-- A step leaves the process as `m` says if it returns, and with every VM accounted for
if it does not. -/
def Leaves {result : Type} (m : result -> Proc -> Prop) : Outcome Raise result -> Proc -> Prop
  | .ok a, t => m a t
  | .raised _, t => Accounted t
  | .ended, t => Accounted t

variable {pre : Proc -> Prop}

theorem leaves_bind {result result' : Type} {m : result -> Proc -> Prop}
    {m' : result' -> Proc -> Prop} {p : Program result} {f : result -> Program result'}
    (hp : Prog.Triple pre p (Leaves m)) (hf : forall a, Prog.Triple (m a) (f a) (Leaves m')) :
    Prog.Triple pre (p >>= f) (Leaves m') := by
  refine Prog.Triple.bind (hp.conseq (fun _ => id) fun o t h => ?_) hf
  cases o <;> exact h

theorem leaves_raise {result : Type} {m : result -> Proc -> Prop}
    (hweak : forall s, pre s -> Accounted s) (e : Raise) :
    Prog.Triple pre (Prog.raise e : Program result) (Leaves m) :=
  Prog.Triple.raise hweak

theorem leaves_of_keeps {result : Type} {p : Program result} (hp : Prog.Keeps pre p)
    (hweak : forall s, pre s -> Accounted s) : Prog.Triple pre p (Leaves fun _ => pre) := by
  intro s hs
  have ht := hp s hs
  rcases hrun : p s with ⟨o, t⟩
  rw [hrun] at ht
  cases o with
  | ok a => exact ht
  | raised e => exact hweak t ht
  | ended => exact hweak t ht

theorem leaves_weaken {result : Type} {m m' : result -> Proc -> Prop} {p : Program result}
    (hp : Prog.Triple pre p (Leaves m)) (hm : forall a s, m a s -> m' a s) :
    Prog.Triple pre p (Leaves m') := by
  refine hp.conseq (fun _ => id) fun o t h => ?_
  cases o with
  | ok a => exact hm a t h
  | raised e => exact h
  | ended => exact h

/-!
## The steps of provision
-/

theorem afterUnassign_tracked (hit : ReleaseHit) (hs : Tracked vms s) :
    Tracked vms (afterUnassign hit endpoint s) := by
  have hsingle : AtMostOne (.release endpoint :: s.log) :=
    atMostOne_cons hs.single (hs.single s.log List.suffix_rfl)
  have hunsettled : Unsettled { s with log := .release endpoint :: s.log } :=
    ⟨hs.unsettled.left, fun env henv => hs.unsettled.right env (by simpa using henv)⟩
  unfold afterUnassign
  simp only
  split
  · exact ⟨fun e he => hs.live e (List.mem_filter.mp he).left, hs.held, hsingle, hunsettled⟩
  · exact ⟨hs.live, hs.held, hsingle, hunsettled⟩

theorem afterUnassign_env (hit : ReleaseHit) (endpoint : String) (s : Proc) :
    (afterUnassign hit endpoint s).env = s.env := by
  unfold afterUnassign
  simp only
  split <;> rfl

theorem confirmed_tracked (hs : Tracked [endpoint] s) (hgone : endpoint ∉ s.live) :
    Tracked [] { s with log := .absent endpoint :: s.log } where
  live e he := by
    have he' := hs.live e he
    rw [List.mem_singleton.mp he'] at he
    exact absurd he hgone
  held := by simp [held, hs.held]
  single := atMostOne_cons hs.single (by simp [held, hs.held])
  unsettled := ⟨hs.unsettled.left, fun env henv =>
    hs.unsettled.right env (by simpa using henv)⟩

theorem accounted_ignored (h : Accounted s) (ignored : List StopSignal) :
    Accounted { s with ignored } := by
  rcases h with hnone | ⟨e, howned⟩
  · exact Or.inl ((robust_tracked []).own s _ rfl rfl rfl rfl hnone)
  · exact Or.inr ⟨e, (robust_owned e).own s _ rfl rfl rfl rfl howned⟩

theorem releaseAssignment_run (hit : ReleaseHit) (hs : Owned endpoint s) :
    Leaves (fun outcome t =>
        outcome = hit.outcome (afterUnassign hit endpoint s).live endpoint ∧
          if outcome.1 = .failed then Owned endpoint t else Tracked [] t)
      (releaseAssignment hit endpoint s).1 (releaseAssignment hit endpoint s).2 := by
  let sent := afterUnassign hit endpoint s
  let outcome := hit.outcome sent.live endpoint
  have hsent : Owned endpoint sent :=
    ⟨afterUnassign_tracked hit hs.left, by rw [afterUnassign_env]; exact hs.right⟩
  have hknown : if outcome.1 = .failed then Owned endpoint (confirmed endpoint outcome.1 sent)
      else Tracked [] (confirmed endpoint outcome.1 sent) := by
    unfold confirmed
    split
    · exact hsent
    · rename_i hfailed
      exact confirmed_tracked hsent.left (outcome_truthful hit endpoint s hfailed)
  have haccounted : Accounted (confirmed endpoint outcome.1 sent) := by
    split at hknown
    · exact owned_accounted hknown
    · exact Or.inl hknown
  rcases releaseAssignment_cases hit endpoint s with ⟨u, e, ignored, hu, hrun⟩ | hrun
  · rw [hrun]
    refine accounted_ignored ?_ ignored
    rcases hu with rfl | rfl | rfl
    · exact owned_accounted hs
    · exact owned_accounted hsent
    · exact haccounted
  · rw [hrun]
    exact ⟨rfl, hknown⟩

theorem releaseAssignment_leaves (hit : ReleaseHit) (endpoint : String) :
    Prog.Triple (Owned endpoint) (releaseAssignment hit endpoint)
      (Leaves fun outcome t =>
        if outcome.1 = .failed then Owned endpoint t else Tracked [] t) :=
  leaves_weaken (m := fun outcome t => True ∧
      if outcome.1 = .failed then Owned endpoint t else Tracked [] t)
    (fun s hs => by
      have hrun := releaseAssignment_run hit hs
      rcases hr : releaseAssignment hit endpoint s with ⟨o, t⟩
      rw [hr] at hrun
      cases o with
      | ok outcome => exact ⟨trivial, hrun.right⟩
      | raised e => exact hrun
      | ended => exact hrun)
    fun _ _ h => h.right

def ReleaseHit.ofGrant (hit : ReleaseHit) (endpoint : String) : Cleanup :=
  let released := hit.reclaimed || (hit.failure.all fun failure => failure.2)
  (hit.outcome (if released then [] else [endpoint]) endpoint).1

theorem releaseGrant_leaves (hit : ReleaseHit) (endpoint : String) :
    Prog.Triple (Fresh endpoint) (releaseAssignment hit endpoint)
      (Leaves fun outcome t => outcome.1 = hit.ofGrant endpoint ∧
        if outcome.1 = .failed then Owned endpoint t else Tracked [] t) := by
  intro s hs
  have hrun := releaseAssignment_run hit hs.left
  rcases hr : releaseAssignment hit endpoint s with ⟨o, t⟩
  rw [hr] at hrun
  cases o with
  | raised e => exact hrun
  | ended => exact hrun
  | ok outcome =>
      refine ⟨?_, hrun.right⟩
      have hlive : (afterUnassign hit endpoint s).live =
          if hit.reclaimed || (hit.failure.all fun failure => failure.2) then []
          else [endpoint] := by
        unfold afterUnassign
        simp only
        split <;> simp [hs.right]
      rw [hrun.left, hlive]
      rfl

/-- How the loop over the candidates goes on after one of them: its grant was a CPU
machine, and was released, or its request failed. -/
def Candidate.Continues (c : Candidate) (want : String) : Prop :=
  match c.outcome with
  | .granted grant =>
      (grant.accelerator.all fun granted => cpuOnly want granted) = true ∧
        c.release.ofGrant grant.endpoint.val ≠ .failed
  | .failed error _ => error.tooMany = false ∧ c.emit.fault = none

/-- The candidate's grant is seen: it names its accelerator, no response is lost, and no
signal ends the request once the server has granted a VM, or comes before its endpoint is
in the envelope. -/
def Candidate.Seen (c : Candidate) : Prop :=
  match c.outcome with
  | .granted grant =>
      grant.accelerator.isSome = true ∧ c.during = none ∧ c.record 0 = none ∧
        c.record 1 = none
  | .failed _ lost => lost = none

/-- Every grant that the loop comes to is seen. -/
def AllSeen : List String -> (Nat -> Candidate) -> Prop
  | [], _ => True
  | want :: rest, answers =>
      (answers 0).Seen ∧
        ((answers 0).Continues want -> AllSeen rest fun n => answers (n + 1))

theorem assigned_granted (grant : Grant) (h : Waiting s) :
    Granted grant.endpoint.val (assigned grant s) := by
  have hlive : s.live = [] :=
    List.eq_nil_iff_forall_not_mem.mpr fun e he => List.not_mem_nil (h.left.live e he)
  refine ⟨⟨?_, ?_, ?_, ?_⟩, ?_, h.right⟩
  · simp [assigned, hlive]
  · simp [assigned, held, h.left.held]
  · exact atMostOne_cons h.left.single (by simp [held, h.left.held])
  · exact ⟨h.left.unsettled.left, fun env henv =>
      h.left.unsettled.right env (by simpa [assigned] using henv)⟩
  · simp [assigned, hlive]

theorem assign_leaves {c : Candidate} (hseen : c.Seen) :
    Prog.Triple Waiting (assign c) (Leaves fun reply t =>
      match reply with
      | .ok grant => c.outcome = .granted grant ∧ Granted grant.endpoint.val t
      | .error error => (exists lost, c.outcome = .failed error lost) ∧ Waiting t) := by
  intro s hs
  unfold assign
  by_cases hbefore : Quiet s c.before
  · rw [Prog.bind_run_ok (arrive_quiet hbefore)]
    cases houtcome : c.outcome with
    | granted grant =>
        rw [Candidate.Seen, houtcome] at hseen
        rw [hseen.right.left]
        exact ⟨rfl, assigned_granted grant hs⟩
    | failed error lost =>
        rw [Candidate.Seen, houtcome] at hseen
        cases hseen
        have hafter := robust_waiting.arrive c.during s hs
        simp only
        rw [Prog.bind_run_ok (Prog.modify_run _ s), Prog.bind_run]
        rcases harrive : arrive c.during s with ⟨o, t⟩
        rw [harrive] at hafter
        cases o with
        | ok _ => exact ⟨⟨none, rfl⟩, hafter⟩
        | raised e => exact waiting_accounted hafter
        | ended => exact waiting_accounted hafter
  · rcases arrive_loud hbefore with ⟨e, t, harrive, _⟩
    have ht := robust_waiting.arrive c.before s hs
    rw [harrive] at ht
    rw [Prog.bind_run_raised harrive]
    exact waiting_accounted ht

theorem fresh_accounted (h : Fresh endpoint s) : Accounted s := owned_accounted h.left

theorem record_leaves {c : Candidate} {grant : Grant} (granted : String)
    (hseen : c.record 0 = none) (hseen' : c.record 1 = none) :
    Prog.Triple (Granted grant.endpoint.val)
      (updates c.record
        [fun env => { env with actualAccelerator := some granted },
          fun env => { env with endpoint := some grant.endpoint.val }])
      (Leaves fun _ => Fresh grant.endpoint.val) := by
  intro s hs
  have hend : nonempty (some grant.endpoint.val) = some grant.endpoint.val := by
    simp [nonempty, grant.endpoint.property]
  simp only [updates, hseen, hseen']
  refine leaves_of_keeps ((robust_fresh grant.endpoint.val).arrive _)
    (fun _ => fresh_accounted) _ ?_
  exact ⟨⟨⟨hs.left.live, hs.left.held, hs.left.single, hs.left.unsettled⟩, hend⟩,
    hs.right.left⟩

theorem tracked_updates (vms : List String) (gaps : Gaps)
    {fs : List (JobEnvelope -> JobEnvelope)}
    (hfs : forall f, f ∈ fs -> forall env, (f env).cleanup = env.cleanup) :
    Prog.Keeps (Tracked vms) (updates gaps fs) :=
  updates_keeps (robust_tracked vms).arrive fs gaps fun f hf s hs =>
    { hs with unsettled := ⟨(hfs f hf s.env).trans hs.unsettled.left, hs.unsettled.right⟩ }

theorem forget_leaves (gaps : Gaps) :
    Prog.Triple (Tracked []) (updates gaps [fun env => { env with endpoint := none }])
      (Leaves fun _ => Waiting) := by
  have htracked := robust_tracked []
  refine leaves_bind (leaves_of_keeps (htracked.arrive _) fun _ => Or.inl) fun _ => ?_
  refine leaves_bind (m := fun _ => Waiting) (fun s hs => ?_) fun _ =>
    leaves_of_keeps (robust_waiting.arrive _) fun _ => waiting_accounted
  exact ⟨⟨hs.live, hs.held, hs.single, hs.unsettled⟩, rfl⟩

theorem releaseForScope_leaves (hit : KeepAliveHit) (endpoint : String) :
    Prog.Triple (Owned endpoint) (releaseForScope hit endpoint)
      (Leaves fun _ _ => False) := by
  refine leaves_bind (releaseAssignment_leaves hit.release endpoint) fun outcome => ?_
  rcases outcome with ⟨outcome, detail⟩
  simp only
  split
  · refine leaves_bind (m := fun _ => Owned endpoint) (leaves_of_keeps
      ((robust_owned endpoint).updates _ fun f hf => ?_) fun _ => owned_accounted) fun _ =>
        leaves_raise (fun _ => owned_accounted) _
    rw [List.mem_singleton.mp hf]
    exact mild_addHint _
  · refine leaves_bind (m := fun _ => Tracked []) (leaves_of_keeps
      (tracked_updates [] _ fun f hf env => ?_) fun _ => Or.inl) fun _ =>
        leaves_bind (leaves_of_keeps ((robust_tracked []).modify
          fun _ => ⟨rfl, rfl, rfl, rfl⟩) fun _ => Or.inl) fun _ =>
            leaves_raise (fun _ => Or.inl) _
    simp only [List.mem_cons, List.not_mem_nil, or_false] at hf
    rcases hf with rfl | rfl <;> rfl

theorem preflight_leaves (hit : KeepAliveHit) (endpoint : String) :
    Prog.Triple (Owned endpoint) (preflight hit endpoint)
      (Leaves fun _ => Owned endpoint) := by
  have hrobust := robust_owned endpoint
  have harrive := fun signal => leaves_of_keeps (hrobust.arrive signal) fun _ => owned_accounted
  refine leaves_bind (harrive _) fun _ => leaves_bind (harrive _) fun _ => ?_
  cases hit.ping with
  | accepted => exact leaves_of_keeps (Prog.Keeps.pure _) fun _ => owned_accounted
  | tolerated hint =>
      exact leaves_of_keeps (hrobust.modifyEnv (mild_addHint hint)) fun _ => owned_accounted
  | scope => exact leaves_weaken (releaseForScope_leaves hit endpoint) fun _ _ => False.elim

theorem startKeepAlive_leaves (hit : KeepAliveHit) (endpoint : String) :
    Prog.Triple (Owned endpoint) (startKeepAlive hit endpoint)
      (Leaves fun _ => Owned endpoint) := by
  have hrobust := robust_owned endpoint
  have hstep := fun hit => leaves_of_keeps (hrobust.step hit) fun _ => owned_accounted
  refine Prog.Triple.get_bind fun s hs => ?_
  split
  · exact (hstep hit.add).conseq (fun t ht => ht ▸ hs) fun _ _ => id
  · refine Prog.Triple.conseq (P := Owned endpoint) ?_ (fun t ht => ht ▸ hs)
      fun _ _ => id
    exact leaves_bind (preflight_leaves hit endpoint) fun _ =>
      leaves_bind (hstep _) fun _ => leaves_bind (leaves_of_keeps (catching_keeps
        (hrobust.step _) fun _ => Prog.Keeps.raise _) fun _ => owned_accounted) fun _ =>
        leaves_bind (leaves_of_keeps (hrobust.modify fun _ => ⟨rfl, rfl, rfl, rfl⟩)
          fun _ => owned_accounted) fun _ => hstep _

theorem useGrant_leaves (jobId : String) (c : Candidate) (want : String) (grant : Grant)
    (attempts : List ProvisionAttempt) :
    Prog.Triple (Owned grant.endpoint.val) (useGrant jobId c want grant attempts)
      (Leaves fun _ => Owned grant.endpoint.val) := by
  have hrobust := robust_owned grant.endpoint.val
  have hkeeps : forall {result : Type} {p : Program result},
      Prog.Keeps (Owned grant.endpoint.val) p ->
        Prog.Triple (Owned grant.endpoint.val) p
          (Leaves fun _ => Owned grant.endpoint.val) :=
    fun hp => leaves_of_keeps hp fun _ => owned_accounted
  refine leaves_bind (hkeeps (hrobust.step _)) fun _ =>
    leaves_bind (hkeeps (hrobust.modify fun _ => ⟨rfl, rfl, rfl, rfl⟩)) fun _ =>
      leaves_bind (hkeeps (hrobust.updates _ fun f hf => ?_)) fun _ =>
        leaves_bind (hkeeps (hrobust.persist _)) fun _ =>
          leaves_bind (startKeepAlive_leaves _ _) fun _ => hkeeps ?_
  · rw [List.mem_singleton.mp hf]
    exact fun _ => ⟨rfl, rfl⟩
  · exact Prog.Keeps.bind (hrobust.computeUnits _ _) fun _ =>
      Prog.Keeps.bind (hrobust.modifyEnv fun _ => ⟨rfl, rfl⟩) fun _ => hrobust.step _

theorem step_fails {hit : Hit} {text : String} (h : Robust pre)
    (hweak : forall s, pre s -> Accounted s) (hfault : hit.fault = some text) :
    Prog.Triple pre (step hit) (Leaves fun _ _ => False) := by
  refine leaves_bind (leaves_of_keeps (h.arrive _) hweak) fun _ => ?_
  rw [hfault]
  exact leaves_bind (leaves_raise hweak _) fun _ _ => False.elim

theorem tryCandidates_leaves (jobId : String) (all : List String) :
    forall (wants : List String) (answers : Nat -> Candidate)
      (attempts : List ProvisionAttempt), AllSeen wants answers ->
      Prog.Triple Waiting (tryCandidates jobId all wants answers attempts)
        (Leaves fun _ => Accounted) := by
  intro wants
  induction wants with
  | nil =>
      intro answers attempts _
      exact leaves_bind (leaves_of_keeps (robust_waiting.modifyEnv fun _ => ⟨rfl, rfl⟩)
        fun _ => waiting_accounted) fun _ => leaves_raise (fun _ => waiting_accounted) _
  | cons want rest ih =>
      intro answers attempts hseen
      have hwaiting : forall {result : Type} {p : Program result}, Prog.Keeps Waiting p ->
          Prog.Triple Waiting p (Leaves fun _ => Waiting) :=
        fun hp => leaves_of_keeps hp fun _ => waiting_accounted
      refine leaves_bind (hwaiting (robust_waiting.arrive _)) fun _ =>
        leaves_bind (hwaiting (robust_waiting.modifyEnv fun _ => ⟨rfl, rfl⟩)) fun _ =>
          leaves_bind (assign_leaves hseen.left) fun reply => ?_
      intro s hs
      cases reply with
      | error error =>
          rcases hs with ⟨⟨lost, houtcome⟩, hs⟩
          refine (?_ : Prog.Triple Waiting _ (Leaves fun _ => Accounted)) s hs
          simp only
          split
          · exact leaves_bind (hwaiting (robust_waiting.modifyEnv fun _ => ⟨rfl, rfl⟩))
              fun _ => leaves_raise (fun _ => waiting_accounted) _
          · rename_i htooMany
            cases hfault : (answers 0).emit.fault with
            | some text =>
                exact leaves_bind (step_fails robust_waiting (fun _ => waiting_accounted)
                  hfault) fun _ _ => False.elim
            | none =>
                refine leaves_bind (hwaiting (robust_waiting.step _)) fun _ =>
                  ih _ _ (hseen.right ?_)
                rw [Candidate.Continues, houtcome]
                exact ⟨by simpa using htooMany, hfault⟩
      | ok grant =>
          rcases hs with ⟨houtcome, hs⟩
          have hgrant := hseen.left
          rw [Candidate.Seen, houtcome] at hgrant
          rcases hgrant with ⟨hsome, _, hrecord, hrecord'⟩
          refine (?_ : Prog.Triple (Granted grant.endpoint.val) _
            (Leaves fun _ => Accounted)) s hs
          cases haccelerator : grant.accelerator with
          | none =>
              rw [haccelerator] at hsome
              cases hsome
          | some granted =>
              simp only [haccelerator]
              refine leaves_bind (record_leaves granted hrecord hrecord') fun _ => ?_
              split
              · rename_i hcpu
                refine leaves_bind (releaseGrant_leaves _ _) fun outcome t ht => ?_
                rcases outcome with ⟨outcome, detail⟩
                rcases ht with ⟨hofGrant, ht⟩
                simp only at hofGrant ht ⊢
                split
                · rename_i hfailed
                  rw [if_pos hfailed] at ht
                  exact owned_accounted ht
                · rename_i hfailed
                  rw [if_neg hfailed] at ht
                  refine leaves_bind (forget_leaves _) (fun _ =>
                    ih _ _ (hseen.right ?_)) t ht
                  rw [Candidate.Continues, houtcome]
                  refine ⟨by rw [haccelerator]; exact hcpu, ?_⟩
                  rw [← hofGrant]
                  exact hfailed
              · exact leaves_weaken (fun t ht => useGrant_leaves _ _ _ _ _ t ht.left)
                  fun _ _ => owned_accounted

/-- From a process that holds no VM, provision leaves every VM it holds in the envelope,
and never holds two. -/
theorem provision_leaves (plan : Plan) (a : Provision)
    (hseen : AllSeen (candidates plan.spec) a.candidates) (hs : Waiting s) :
    Accounted (provision plan a s).2 := by
  have hleaves := leaves_bind
    (leaves_of_keeps (robust_waiting.setPhase a.phase .provision) fun _ => waiting_accounted)
    (fun _ => tryCandidates_leaves plan.jobId (candidates plan.spec) (candidates plan.spec)
      a.candidates [] hseen) s hs
  rcases hrun : provision plan a s with ⟨o, t⟩
  rw [provision] at hrun
  rw [hrun] at hleaves
  cases o <;> exact hleaves

theorem start_waiting (args : Args) (disk : Option JobEnvelope) :
    Waiting (start args disk) := by
  refine ⟨⟨fun e he => he, rfl, fun l hl => ?_, rfl, fun env henv => ?_⟩, rfl⟩
  · rw [List.suffix_nil.mp hl]
    exact Nat.zero_le 1
  · exact False.elim (List.not_mem_nil henv)

end Apply
end Job
end MightyColab
