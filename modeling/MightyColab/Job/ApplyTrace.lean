import MightyColab.Job.Interrupts

/-!
# The order of what apply does

The log of an apply whose grants are seen, at every moment of it and not only at its end:
a VM is assigned only once a record is on disk that says nothing of any VM; each record
written names every VM held then and none other, and says that no VM is left only when
none is held.
-/

namespace MightyColab
namespace Job

open Lib

namespace Apply

/-!
## Ordered logs
-/

/-- Nothing written says anything of a VM. -/
def Unnamed (log : List Deed) : Prop :=
  forall env, .wrote env ∈ log -> env.cleanup = .pending ∧ nonempty env.endpoint = none

/-- Something has been written. -/
def Written (log : List Deed) : Prop := exists env, .wrote env ∈ log

structure Sayable (older : List Deed) (env : JobEnvelope) : Prop where
  names : forall e, e ∈ held older -> nonempty env.endpoint = some e
  gone : env.cleanup.gone = true -> held older = []
  /-- It names no other VM than the records before it. -/
  same : forall env' e, .wrote env' ∈ older -> nonempty env'.endpoint = some e ->
    nonempty env.endpoint = some e ∨ nonempty env.endpoint = none

/-- Every deed comes where it may, newest first. -/
def Ordered : List Deed -> Prop
  | [] => True
  | .assigned _ :: older => (Written older ∧ Unnamed older) ∧ Ordered older
  | .wrote env :: older => Sayable older env ∧ Ordered older
  | .release _ :: older => Ordered older
  | .absent _ :: older => Ordered older

theorem ordered_older {deed : Deed} {older : List Deed} (h : Ordered (deed :: older)) :
    Ordered older := by
  cases deed with
  | assigned e => exact h.right
  | wrote env => exact h.right
  | release e => exact h
  | absent e => exact h

theorem ordered_suffix {log older : List Deed} (h : Ordered log) (hsuffix : older <:+ log) :
    Ordered older := by
  induction log with
  | nil =>
      rw [List.suffix_nil.mp hsuffix]
      trivial
  | cons deed log ih =>
      rcases List.suffix_cons_iff.mp hsuffix with rfl | hsuffix
      · exact h
      · exact ih (ordered_older h) hsuffix

theorem ordered_names {log : List Deed} {env : JobEnvelope} {e : String}
    (h : Ordered log) (hwrote : .wrote env ∈ log) (hnames : nonempty env.endpoint = some e) :
    forall e', e' ∈ held log -> e' = e := by
  induction log with
  | nil => cases hwrote
  | cons deed log ih =>
      have holder := ordered_older h
      intro e' he'
      cases deed with
      | assigned new =>
          have hunnamed := h.left.right env (by simpa using hwrote)
          rw [hunnamed.right] at hnames
          cases hnames
      | wrote env' =>
          rcases List.mem_cons.mp hwrote with heq | hwrote
          · cases heq
            have hnamed := h.left.names e' he'
            rw [hnames] at hnamed
            exact (Option.some.inj hnamed).symm
          · exact ih holder hwrote e' he'
      | release gone => exact ih holder (by simpa using hwrote) e' he'
      | absent gone =>
          exact ih holder (by simpa using hwrote) e' (List.mem_filter.mp he').left

theorem leaves_exits {result : Type} {pre : Proc -> Prop} {m : result -> Proc -> Prop}
    {p : Program result} (h : Prog.Triple pre p (Leaves m)) :
    Prog.Triple pre p (Prog.Exits Accounted m) :=
  h.conseq (fun _ => id) fun o _ ho => by cases o <;> exact ho

/-!
## Before the first record of a VM
-/

def Before (s : Proc) : Prop := Ordered s.log ∧ Unnamed s.log ∧ Written s.log

def Ready (s : Proc) : Prop := Sayable s.log s.env ∧ Ordered s.log

variable {s t : Proc} {endpoint : String}

theorem before_arrive (signal : Option Signal) : Prog.Keeps Before (arrive signal) := by
  intro s hs
  rcases arrive_state signal s with ⟨ignored, harrive⟩
  rw [harrive]
  exact hs

theorem before_modifyEnv (f : JobEnvelope -> JobEnvelope) :
    Prog.Keeps Before (modifyEnv f) := fun _ hs => hs

theorem before_updates (gaps : Gaps) (fs : List (JobEnvelope -> JobEnvelope)) :
    Prog.Keeps Before (updates gaps fs) :=
  updates_keeps before_arrive fs gaps fun f _ => before_modifyEnv f

theorem before_step (hit : Hit) : Prog.Keeps Before (step hit) :=
  Prog.Keeps.bind (before_arrive _) fun _ =>
    Prog.Keeps.bind (attempted_keeps _) fun _ => before_arrive _

theorem before_deed (deed : Deed) (hdeed : forall env, deed ≠ .wrote env)
    (hordered : Ordered (deed :: s.log)) (hs : Before s) :
    Before { s with log := deed :: s.log } := by
  refine ⟨hordered, fun env henv => ?_, ?_⟩
  · rcases List.mem_cons.mp henv with heq | henv
    · exact absurd heq.symm (hdeed env)
    · exact hs.2.1 env henv
  · rcases hs.2.2 with ⟨env, henv⟩
    exact ⟨env, List.mem_cons_of_mem _ henv⟩

theorem before_assigned (grant : Grant) (hs : Before s) : Before (assigned grant s) :=
  before_deed (s := s) (.assigned grant.endpoint.val) (fun _ => nofun) ⟨⟨hs.2.2, hs.2.1⟩, hs.1⟩ hs

theorem before_assign (c : Candidate) : Prog.Keeps Before (assign c) := by
  refine Prog.Keeps.bind (before_arrive _) fun _ => ?_
  cases c.outcome with
  | granted grant =>
      refine Prog.Keeps.bind (fun s hs => before_assigned grant hs) fun _ => ?_
      exact Prog.Keeps.bind (before_arrive _) fun _ => Prog.Keeps.pure _
  | failed error lost =>
      refine Prog.Keeps.bind (Prog.Keeps.modify fun s hs => ?_) fun _ => ?_
      · cases lost with
        | none => exact hs
        | some grant => exact before_assigned grant hs
      · exact Prog.Keeps.bind (before_arrive _) fun _ => Prog.Keeps.pure _

theorem before_release (hit : ReleaseHit) (endpoint : String) :
    Prog.Keeps Before (releaseAssignment hit endpoint) := by
  refine releaseAssignment_keeps hit endpoint before_arrive (fun s hs => ?_) fun s hs => ?_
  · have hsent := before_deed (.release endpoint) (fun _ => nofun) hs.1 hs
    unfold afterUnassign
    simp only
    split <;> exact hsent
  · exact before_deed (.absent endpoint) (fun _ => nofun) hs.1 hs

/-- Where every VM held is in the envelope, the record in hand may be the first to name
it. -/
theorem accounted_ready (h : Accounted s) (hs : Before s) : Ready s := by
  refine ⟨⟨?_, ?_, fun env' e henv' hnames => ?_⟩, hs.1⟩
  · intro e he
    rcases h with hnone | ⟨vm, hone, hend⟩
    · rw [hnone.held] at he
      cases he
    · rw [hone.held] at he
      rw [List.mem_singleton.mp he]
      exact hend
  · intro hgone
    rcases h with hnone | ⟨vm, hone, _⟩
    · exact hnone.held
    · rw [hone.unsettled.left] at hgone
      cases hgone
  · rw [(hs.2.1 env' henv').right] at hnames
    cases hnames

/-!
## From the first record of a VM on
-/

theorem robust_ready : Robust Ready where
  own s t henv _ hlog _ hs := by
    rw [Ready, henv, hlog]
    exact hs
  edit s env hend hclean hs := by
    refine ⟨⟨fun e he => ?_, fun hgone => ?_, fun env' e henv' hnames => ?_⟩, hs.right⟩
    · rw [hend]
      exact hs.left.names e he
    · rw [hclean] at hgone
      exact hs.left.gone hgone
    · rw [hend]
      exact hs.left.same env' e henv' hnames
  write s hs := by
    refine ⟨⟨hs.left.names, hs.left.gone, fun env' e henv' hnames => ?_⟩, hs⟩
    rcases List.mem_cons.mp henv' with heq | henv'
    · cases heq
      exact Or.inl hnames
    · exact hs.left.same env' e henv' hnames

theorem ready_deed (deed : Deed) (hdeed : forall env, deed ≠ .wrote env)
    (hheld : forall e, e ∈ held (deed :: s.log) -> e ∈ held s.log)
    (hordered : Ordered (deed :: s.log)) (hs : Ready s) :
    Ready { s with log := deed :: s.log } := by
  refine ⟨⟨fun e he => hs.left.names e (hheld e he), fun hgone => ?_,
    fun env' e henv' hnames => ?_⟩, hordered⟩
  · refine List.eq_nil_iff_forall_not_mem.mpr fun e he => ?_
    have hmem := hheld e he
    rw [hs.left.gone hgone] at hmem
    cases hmem
  · rcases List.mem_cons.mp henv' with heq | henv'
    · exact absurd heq.symm (hdeed env')
    · exact hs.left.same env' e henv' hnames

theorem ready_absent (endpoint : String) (hs : Ready s) :
    Ready { s with log := .absent endpoint :: s.log } :=
  ready_deed (.absent endpoint) (fun _ => nofun) (fun _ he => (List.mem_filter.mp he).left) hs.right hs

theorem ready_sent (hit : ReleaseHit) (endpoint : String) (hs : Ready s) :
    Ready (afterUnassign hit endpoint s) := by
  have hsent := ready_deed (.release endpoint) (fun _ => nofun) (fun _ he => he)
    hs.right hs
  unfold afterUnassign
  simp only
  split <;> exact hsent

theorem ready_release (hit : ReleaseHit) (endpoint : String) :
    Prog.Keeps Ready (releaseAssignment hit endpoint) :=
  releaseAssignment_keeps hit endpoint robust_ready.arrive
    (fun _ hs => ready_sent hit endpoint hs) fun _ hs => ready_absent endpoint hs

/-- No VM is held, so the envelope may forget its endpoint. -/
def Released (s : Proc) : Prop := held s.log = [] ∧ Ready s

theorem robust_released : Robust Released where
  own s t henv hdisk hlog hlive hs := by
    refine ⟨?_, robust_ready.own s t henv hdisk hlog hlive hs.right⟩
    rw [hlog]
    exact hs.left
  edit s env hend hclean hs := ⟨hs.left, robust_ready.edit s env hend hclean hs.right⟩
  write s hs := ⟨hs.left, robust_ready.write s hs.right⟩

theorem released_forget {env : JobEnvelope} (hs : Released s) (hend : env.endpoint = none) :
    Released { s with env } := by
  refine ⟨hs.left, ⟨fun e he => ?_, fun _ => hs.left, fun env' e _ _ => ?_⟩, hs.right.right⟩
  · rw [hs.left] at he
    cases he
  · rw [hend]
    exact Or.inr rfl

def OwnedReady (endpoint : String) (s : Proc) : Prop := Owned endpoint s ∧ Ready s

theorem robust_ownedReady (endpoint : String) : Robust (OwnedReady endpoint) :=
  robust_and (robust_owned endpoint) robust_ready

theorem owned_exits {result : Type} {p : Program result}
    (hp : Prog.Keeps (OwnedReady endpoint) p) :
    Prog.Triple (OwnedReady endpoint) p
      (Prog.Exits Ready fun _ => OwnedReady endpoint) :=
  hp.exits fun _ h => h.right

theorem releaseForScope_trace (hit : KeepAliveHit) (endpoint : String) :
    Prog.Triple (OwnedReady endpoint) (releaseForScope hit endpoint)
      (Prog.Exits Ready fun _ _ => False) := by
  refine Prog.Exits.bind ((ready_release hit.release endpoint).exits_and
    (leaves_exits (releaseAssignment_leaves hit.release endpoint)) fun _ _ h => h)
    fun outcome => ?_
  rcases outcome with ⟨outcome, detail⟩
  simp only
  split
  · refine Prog.Exits.bind (m := fun _ => Ready) (Prog.Triple.conseq
      ((robust_ready.updates _ fun f hf => ?_).exits fun _ h => h) (fun _ h => h.right)
      fun _ _ h => h) fun _ => Prog.Exits.raise (fun _ h => h) _
    rw [List.mem_singleton.mp hf]
    exact mild_addHint _
  · refine Prog.Exits.bind (m := fun _ => Released) (Prog.Triple.conseq (P := Released)
      (Prog.Keeps.exits ?_ fun _ h => h.right) (fun _ h => ⟨h.left.held, h.right⟩)
      fun _ _ h => h) fun _ => ?_
    · -- the session is forgotten only after the endpoint
      refine updates_keeps robust_released.arrive _ _ fun f hf s hs => ?_
      simp only [List.mem_cons, List.not_mem_nil, or_false] at hf
      rcases hf with rfl | rfl
      · exact released_forget hs rfl
      · exact robust_released.edit s _ rfl rfl hs
    · refine Prog.Exits.bind (m := fun _ => Released) (Prog.Keeps.exits ?_ fun _ h => h.right)
        fun _ => Prog.Exits.raise (fun _ h => h.right) _
      exact robust_released.modify fun _ => ⟨rfl, rfl, rfl, rfl⟩

theorem preflight_trace (hit : KeepAliveHit) (endpoint : String) :
    Prog.Triple (OwnedReady endpoint) (preflight hit endpoint)
      (Prog.Exits Ready fun _ => OwnedReady endpoint) := by
  have hrobust := robust_ownedReady endpoint
  refine Prog.Exits.bind (owned_exits (hrobust.arrive _)) fun _ =>
    Prog.Exits.bind (owned_exits (hrobust.arrive _)) fun _ => ?_
  cases hit.ping with
  | accepted => exact owned_exits (Prog.Keeps.pure _)
  | tolerated hint => exact owned_exits (hrobust.modifyEnv (mild_addHint hint))
  | scope => exact Prog.Exits.weaken (releaseForScope_trace hit endpoint) fun _ _ => False.elim

theorem startKeepAlive_trace (hit : KeepAliveHit) (endpoint : String) :
    Prog.Triple (OwnedReady endpoint) (startKeepAlive hit endpoint)
      (Prog.Exits Ready fun _ => OwnedReady endpoint) := by
  have hrobust := robust_ownedReady endpoint
  refine Prog.Triple.get_bind fun s hs => ?_
  split
  · exact (owned_exits (hrobust.step hit.add)).conseq (fun t ht => ht ▸ hs) fun _ _ => id
  · refine Prog.Triple.conseq (P := OwnedReady endpoint) ?_ (fun t ht => ht ▸ hs)
      fun _ _ => id
    exact Prog.Exits.bind (preflight_trace hit endpoint) fun _ =>
      Prog.Exits.bind (owned_exits (hrobust.step _)) fun _ =>
        Prog.Exits.bind (owned_exits (catching_keeps (hrobust.step _) fun _ =>
          Prog.Keeps.raise _)) fun _ =>
          Prog.Exits.bind (owned_exits (hrobust.modify fun _ => ⟨rfl, rfl, rfl, rfl⟩))
            fun _ => owned_exits (hrobust.step _)

theorem useGrant_trace (jobId : String) (c : Candidate) (want : String) (grant : Grant)
    (attempts : List ProvisionAttempt) :
    Prog.Triple (OwnedReady grant.endpoint.val) (useGrant jobId c want grant attempts)
      (Prog.Exits Ready fun _ => OwnedReady grant.endpoint.val) := by
  have hrobust := robust_ownedReady grant.endpoint.val
  refine Prog.Exits.bind (owned_exits (hrobust.step _)) fun _ =>
    Prog.Exits.bind (owned_exits (hrobust.modify fun _ => ⟨rfl, rfl, rfl, rfl⟩)) fun _ =>
      Prog.Exits.bind (owned_exits (hrobust.updates _ fun f hf => ?_)) fun _ =>
        Prog.Exits.bind (owned_exits (hrobust.persist _)) fun _ =>
          Prog.Exits.bind (startKeepAlive_trace _ _) fun _ => owned_exits ?_
  · rw [List.mem_singleton.mp hf]
    exact fun _ => ⟨rfl, rfl⟩
  · exact Prog.Keeps.bind (hrobust.computeUnits _ _) fun _ =>
      Prog.Keeps.bind (hrobust.modifyEnv fun _ => ⟨rfl, rfl⟩) fun _ => hrobust.step _

/-!
## The loop over the candidates
-/

/-- A step before the first record of a VM leaves it as it should be when it returns, and
the record in hand fit to be written when it does not. -/
theorem before_exits {result : Type} {pre : Proc -> Prop} {m : result -> Proc -> Prop}
    {p : Program result} (hp : Prog.Triple pre p (Leaves m)) (hkeeps : Prog.Keeps Before p) :
    Prog.Triple (fun s => pre s ∧ Before s) p
      (Prog.Exits Ready fun a s => m a s ∧ Before s) :=
  hkeeps.exits_and (leaves_exits hp) fun _ => accounted_ready

def Trying (s : Proc) : Prop := Waiting s ∧ Before s

theorem trying_ready (hs : Trying s) : Ready s :=
  accounted_ready (waiting_accounted hs.left) hs.right

theorem trying_exits {result : Type} {p : Program result} (hp : Prog.Keeps Waiting p)
    (hkeeps : Prog.Keeps Before p) :
    Prog.Triple Trying p (Prog.Exits Ready fun _ => Trying) :=
  before_exits (leaves_of_keeps hp fun _ => waiting_accounted) hkeeps

theorem tryCandidates_trace (jobId : String) (all : List String) :
    forall (wants : List String) (answers : Nat -> Candidate)
      (attempts : List ProvisionAttempt), AllSeen wants answers ->
      Prog.Triple Trying (tryCandidates jobId all wants answers attempts)
        (Prog.Exits Ready fun _ => Ready) := by
  intro wants
  induction wants with
  | nil =>
      intro answers attempts _
      exact Prog.Exits.bind (trying_exits (robust_waiting.modifyEnv fun _ => ⟨rfl, rfl⟩)
        (before_modifyEnv _)) fun _ => Prog.Exits.raise (fun _ => trying_ready) _
  | cons want rest ih =>
      intro answers attempts hseen
      refine Prog.Exits.bind (trying_exits (robust_waiting.arrive _) (before_arrive _))
        fun _ => Prog.Exits.bind (trying_exits
          (robust_waiting.modifyEnv fun _ => ⟨rfl, rfl⟩) (before_modifyEnv _)) fun _ =>
          Prog.Exits.bind (before_exits (assign_leaves hseen.left) (before_assign _))
            fun reply => ?_
      intro s hs
      cases reply with
      | error error =>
          rcases hs with ⟨⟨⟨lost, houtcome⟩, hwaiting⟩, hbefore⟩
          refine (?_ : Prog.Triple Trying _ (Prog.Exits Ready fun _ => Ready)) s
            ⟨hwaiting, hbefore⟩
          simp only
          split
          · exact Prog.Exits.bind (trying_exits
              (robust_waiting.modifyEnv fun _ => ⟨rfl, rfl⟩) (before_modifyEnv _))
              fun _ => Prog.Exits.raise (fun _ => trying_ready) _
          · rename_i htooMany
            cases hfault : (answers 0).emit.fault with
            | some text =>
                refine Prog.Exits.bind (before_exits (m := fun _ _ => False) (step_fails
                  robust_waiting (fun _ => waiting_accounted) hfault) (before_step _))
                  fun _ s hs => hs.left.elim
            | none =>
                refine Prog.Exits.bind (trying_exits (robust_waiting.step _)
                  (before_step _)) fun _ => ih _ _ (hseen.right ?_)
                rw [Candidate.Continues, houtcome]
                exact ⟨by simpa using htooMany, hfault⟩
      | ok grant =>
          rcases hs with ⟨⟨houtcome, hgranted⟩, hbefore⟩
          have hgrant := hseen.left
          rw [Candidate.Seen, houtcome] at hgrant
          rcases hgrant with ⟨hsome, _, hrecord, hrecord'⟩
          cases haccelerator : grant.accelerator with
          | none =>
              rw [haccelerator] at hsome
              cases hsome
          | some granted =>
              refine (?_ : Prog.Triple (fun s => Granted grant.endpoint.val s ∧ Before s) _
                (Prog.Exits Ready fun _ => Ready)) s ⟨hgranted, hbefore⟩
              simp only [haccelerator]
              refine Prog.Exits.bind (before_exits (record_leaves granted hrecord hrecord')
                (before_updates _ _)) fun _ => ?_
              split
              · rename_i hcpu
                refine Prog.Exits.bind (before_exits (releaseGrant_leaves _ _)
                  (before_release _ _)) fun outcome t ht => ?_
                rcases outcome with ⟨outcome, detail⟩
                rcases ht with ⟨⟨hofGrant, ht⟩, hbefore⟩
                simp only at hofGrant ht ⊢
                split
                · rename_i hfailed
                  rw [if_pos hfailed] at ht
                  exact accounted_ready (owned_accounted ht) hbefore
                · rename_i hfailed
                  rw [if_neg hfailed] at ht
                  refine Prog.Exits.bind (before_exits (forget_leaves _)
                    (before_updates _ _)) (fun _ => ih _ _ (hseen.right ?_)) t ⟨ht, hbefore⟩
                  rw [Candidate.Continues, houtcome]
                  refine ⟨by rw [haccelerator]; exact hcpu, ?_⟩
                  rw [← hofGrant]
                  exact hfailed
              · refine Prog.Triple.conseq (useGrant_trace _ _ _ _ _) (fun t ht => ?_)
                  fun o t h => ?_
                · exact ⟨ht.left.left,
                    accounted_ready (fresh_accounted ht.left) ht.right⟩
                · cases o with
                  | ok _ => exact h.right
                  | raised e => exact h
                  | ended => exact h

def Opening (s : Proc) : Prop := Waiting s ∧ Ordered s.log ∧ Unnamed s.log

theorem opening_ready (hs : Opening s) : Ready s := by
  refine ⟨⟨fun e he => ?_, fun _ => hs.left.left.held, fun env' e henv' hnames => ?_⟩,
    hs.right.left⟩
  · rw [hs.left.left.held] at he
    cases he
  · rw [(hs.right.right env' henv').right] at hnames
    cases hnames

theorem robust_opening : Robust Opening where
  own s t henv hdisk hlog hlive hs := by
    refine ⟨robust_waiting.own s t henv hdisk hlog hlive hs.left, ?_⟩
    rw [hlog]
    exact hs.right
  edit s env hend hclean hs := ⟨robust_waiting.edit s env hend hclean hs.left, hs.right⟩
  write s hs := by
    refine ⟨robust_waiting.write s hs.left, ⟨(opening_ready hs).left, hs.right.left⟩,
      fun env henv => ?_⟩
    rcases List.mem_cons.mp henv with heq | henv
    · cases heq
      refine ⟨hs.left.left.unsettled.left, ?_⟩
      rw [hs.left.right]
      rfl
    · exact hs.right.right env henv

theorem writeEnvelope_written (answer : Write) (s : Proc) (t : Proc)
    (h : writeEnvelope answer s = (.ok (), t)) : Written t.log := by
  unfold writeEnvelope at h
  cases hfile : answer.file with
  | some text => simp [Write.perform, hfile] at h
  | none =>
      simp only [Write.perform, hfile, Write.lands, Option.isNone_none, if_true] at h
      split at h
      · cases h
        exact ⟨s.env, List.mem_cons_self⟩
      · cases h

theorem robust_written : Robust fun s => Written s.log where
  own s t _ _ hlog _ hs := by
    rw [hlog]
    exact hs
  edit _ _ _ _ hs := hs
  write s _ := ⟨s.env, List.mem_cons_self⟩

theorem setPhase_written (hit : PhaseHit) (phase : Phase) :
    Prog.Triple (fun _ => True) (setPhase hit phase)
      (Prog.Exits (fun _ => True) fun _ s => Written s.log) := by
  have hany : forall {result : Type} (p : Program result),
      Prog.Triple (fun _ => True) p (Prog.Exits (fun _ => True) fun _ _ => True) :=
    fun p => Prog.Keeps.exits (fun _ h => h) fun _ h => h
  have hkeep : forall {p : Program Unit}, Prog.Keeps (fun s => Written s.log) p ->
      Prog.Triple (fun s => Written s.log) p
        (Prog.Exits (fun _ => True) fun _ s => Written s.log) :=
    fun hp => hp.exits fun _ _ => trivial
  refine Prog.Exits.bind (hany _) fun _ => Prog.Exits.bind (hany _) fun _ =>
    Prog.Exits.bind (hany _) fun _ => Prog.Exits.bind ?_ fun _ =>
      hkeep (robust_written.step _)
  refine Prog.Exits.bind (hany _) fun _ => Prog.Exits.bind ?_ fun _ =>
    hkeep (robust_written.arrive _)
  intro s _
  rcases hrun : writeEnvelope hit.write.write s with ⟨o, t⟩
  cases o with
  | ok _ => exact writeEnvelope_written _ s t hrun
  | raised e => trivial
  | ended => trivial

theorem provision_trace (plan : Plan) (a : Provision)
    (hseen : AllSeen (candidates plan.spec) a.candidates) :
    Prog.Triple Opening (provision plan a) (Prog.Exits Ready fun _ => Ready) := by
  have hkeeps := robust_opening.setPhase a.phase .provision
  have hphase : Prog.Triple Opening (setPhase a.phase .provision)
      (Prog.Exits Ready fun _ => Trying) := by
    have hboth := hkeeps.exits_and (setPhase_written a.phase .provision)
      fun _ _ h => opening_ready h
    refine hboth.conseq (fun _ hs => ⟨trivial, hs⟩) fun o s h => ?_
    cases o with
    | ok _ => exact ⟨h.right.left, h.right.right.left, h.right.right.right, h.left⟩
    | raised e => exact h
    | ended => exact h
  exact Prog.Exits.bind hphase fun _ => tryCandidates_trace _ _ _ _ _ hseen

/-!
## The `finally` block
-/

/-- A record that says of no VM that it is gone may be written where the one in hand
may. -/
theorem ready_mark {env : JobEnvelope} (hs : Ready s) (hend : env.endpoint = s.env.endpoint)
    (hgone : env.cleanup.gone = true -> held s.log = []) : Ready { s with env } := by
  refine ⟨⟨fun e he => ?_, hgone, fun env' e henv' hnames => ?_⟩, hs.right⟩
  · rw [hend]
    exact hs.left.names e he
  · rw [hend]
    exact hs.left.same env' e henv' hnames

theorem releaseAssignment_ready (hit : ReleaseHit) (hs : Ready s)
    (hend : nonempty s.env.endpoint = some endpoint) :
    Ready (releaseAssignment hit endpoint s).2 ∧
      forall outcome t, releaseAssignment hit endpoint s = (.ok outcome, t) ->
        outcome.1 ≠ .failed -> held t.log = [] := by
  refine ⟨ready_release hit endpoint s hs, fun outcome t hrun hfailed => ?_⟩
  rcases releaseAssignment_cases hit endpoint s with ⟨u, e, ignored, _, hraised⟩ | hok
  · rw [hraised] at hrun
    cases hrun
  · rw [hok] at hrun
    cases hrun
    have hlog : (afterUnassign hit endpoint s).log = .release endpoint :: s.log := by
      unfold afterUnassign
      simp only
      split <;> rfl
    rw [confirmed, if_neg hfailed]
    simp only [held, hlog]
    refine List.eq_nil_iff_forall_not_mem.mpr fun e he => ?_
    rcases List.mem_filter.mp he with ⟨he, hne⟩
    have hnamed := hs.left.names e he
    rw [hend] at hnamed
    simp [Option.some.inj hnamed] at hne

theorem releaseAndRecord_ready (a : CleanupHit) (jobId : String) (hs : Ready s)
    (hend : nonempty s.env.endpoint = some endpoint) :
    Ready (releaseAndRecord a jobId endpoint s).2 := by
  refine Prog.Keeps.after_ensure ?_ (Prog.Keeps.bind (robust_ready.dropSession _ _)
    fun _ => robust_ready.persist _)
  rcases releaseAssignment_ready a.release hs hend with ⟨ht, hgone⟩
  rcases hrelease : releaseAssignment a.release endpoint s with ⟨o, t⟩
  rw [hrelease] at ht
  cases o with
  | raised e =>
      rw [Prog.bind_run_raised hrelease]
      exact ht
  | ended =>
      rw [Prog.bind_run, hrelease]
      exact ht
  | ok outcome =>
      rw [Prog.bind_run_ok hrelease]
      refine recordRelease_after robust_ready a jobId outcome ht (ready_mark ht rfl ?_)
      intro hcleanup
      refine hgone outcome t hrelease fun hfailed => ?_
      simp [hfailed, Cleanup.gone] at hcleanup

theorem recordVmKept_stays (env : JobEnvelope) (jobId : String) :
    (recordVmKept env jobId).cleanup.gone = false := by
  unfold recordVmKept
  split <;> rfl

def ReadyAt (endpoint : String) (s : Proc) : Prop :=
  Ready s ∧ nonempty s.env.endpoint = some endpoint

theorem robust_readyAt (endpoint : String) : Robust (ReadyAt endpoint) :=
  robust_and robust_ready (robust_endpoint (nonempty · = some endpoint))

theorem cleanup_ready (a : CleanupHit) (jobId : String) (leaveUp : Bool) :
    Prog.Keeps Ready (cleanup a jobId leaveUp) := by
  refine Prog.Keeps.bind (robust_ready.closeRuntime _) fun _ =>
    Prog.Keeps.bind (robust_ready.setPhase _ _) fun _ => Prog.Keeps.get_bind fun s hs => ?_
  cases hend : nonempty s.env.endpoint with
  | none =>
      -- no VM is held, since the envelope would name it
      have hnone : held s.log = [] := by
        refine List.eq_nil_iff_forall_not_mem.mpr fun e he => ?_
        have hnamed := hs.left.names e he
        rw [hend] at hnamed
        cases hnamed
      have hreleased : Released s := ⟨hnone, hs⟩
      refine (Prog.Keeps.bind (robust_released.stopKeepAlive _) (fun _ =>
        Prog.Keeps.bind (robust_released.dropSession _ _) fun _ =>
          Prog.Keeps.bind (updates_keeps robust_released.arrive _ _ fun f hf t ht => ?_)
            fun _ => robust_released.persist _) s hreleased).right
      rw [List.mem_singleton.mp hf]
      exact ⟨ht.left, ready_mark ht.right rfl fun _ => ht.left⟩
  | some endpoint =>
      cases leaveUp with
      | true =>
          refine Prog.Keeps.bind (updates_keeps robust_ready.arrive _ _ fun f hf t ht => ?_)
            (fun _ => robust_ready.persist _) s hs
          rw [List.mem_singleton.mp hf]
          refine ready_mark ht (Late.recordVmKept_endpoint _ _) fun hgone => ?_
          rw [recordVmKept_stays] at hgone
          cases hgone
      | false =>
          have hat := robust_readyAt endpoint
          refine Prog.Keeps.before (hat.copyRecordsBeforeRelease a) ⟨hs, hend⟩
            (fun _ ht => ht.left) fun _ t ht => ?_
          exact Prog.Keeps.before (hat.stopKeepAlive _) ht (fun _ ht => ht.left)
            fun _ t ht => releaseAndRecord_ready a jobId ht.left ht.right

theorem finallyBlock_ready (plan : Plan) (a : FinallyHit) :
    Prog.Keeps Ready (finallyBlock plan a) :=
  robust_ready.finallyBlock plan a fun leaveUp => cleanup_ready a.cleanup plan.jobId leaveUp

/-!
## The whole run
-/

theorem start_opening (args : Args) (disk : Option JobEnvelope) :
    Opening (start args disk) :=
  ⟨start_waiting args disk, trivial, fun _ henv => False.elim (List.not_mem_nil henv)⟩

theorem apply_ordered (args : Args) (a : Answers) (disk : Option JobEnvelope)
    (hseen : AllSeen (candidates args.plan.spec) a.body.provision.candidates) :
    Ordered (apply args a disk).2.log := by
  have hstart := start_opening args disk
  suffices h : Ready (apply args a disk).2 from h.right
  unfold apply
  split
  · exact opening_ready hstart
  · split
    · exact opening_ready hstart
    · rw [Prog.bind_still fun _ => report_still a]
      refine Prog.Keeps.after_ensure (Prog.Keeps.after_attempt
        (robust_ready.afterProvision args a.body ?_) fun e => robust_ready.handle args _ e)
        (finallyBlock_ready args.plan a.finally_)
      have hprovision := provision_trace args.plan a.body.provision hseen _ hstart
      rcases hrun : provision args.plan a.body.provision (start args disk) with ⟨o, t⟩
      rw [hrun] at hprovision
      cases o <;> exact hprovision

end Apply
end Job
end MightyColab
