import MightyColab.Job.ApplySteps
import MightyColab.Job.Concluding

/-!
# What apply records of a success

The record of an apply that says that the workload and its offload went well carries no failed
phase and no retry class, unless the result came after the deadline, its record could not be
written, or the credential file could not be confirmed removed. Followed through the phases, the
poll, the handlers and the `finally` block, wherever a fault or a signal ends them.
-/

namespace MightyColab
namespace Job

open Lib
open Absorb (Clean)

def Faultless (env : JobEnvelope) : Prop := env.failedPhase = none ∧ env.retryClass = none

def Unmixed (env : JobEnvelope) : Prop := Clean env -> Faultless env

def Fair (env : JobEnvelope) : Prop := env.cleanup ≠ .failed -> Unmixed env

def Succeeds (result : Json.Fields) : Prop := Absorb.workloadOf result = .ok .succeeded

theorem Unmixed.fair {env : JobEnvelope} (h : Unmixed env) : Fair env := fun _ => h

theorem unmixed_of_workload {env : JobEnvelope} (h : env.workload ≠ .succeeded) : Unmixed env :=
  fun hclean => absurd hclean.left h

theorem Unmixed.of_standing {env env' : JobEnvelope} (heq : standing env' = standing env)
    (h : Unmixed env) : Unmixed env' := by
  simp only [standing, Prod.mk.injEq] at heq
  rcases heq with ⟨hwork, hoff, _, hfailed, hretry⟩
  unfold Unmixed Clean Faultless at *
  rw [hwork, hoff, hfailed, hretry]
  exact h

theorem Fair.of_standing {env env' : JobEnvelope} (heq : standing env' = standing env)
    (h : Fair env) : Fair env' := by
  intro hclean
  have hclean' : env'.cleanup = env.cleanup := congrArg (fun s => s.2.2.1) heq
  rw [hclean'] at hclean
  exact (h hclean).of_standing heq

/-- A result that a record without a failure absorbs to a success leaves no failure. -/
theorem absorbResult_unmixed {env env' : JobEnvelope} {spec : JobSpec} {result : Json.Fields}
    {now : String} (h : Absorb.absorbResult env spec result now = .ok env')
    (hfresh : env.failedPhase = none) : Unmixed env' := by
  intro hclean
  rcases Absorb.absorbResult_steps h with ⟨env1, env2, artifacts, stageFailed, hprovenance, hvalue,
    hstage, ⟨base, houtcome, hwork, hfailed, hoff⟩, _, hretry, hphase, hoffload⟩
  obtain rfl : stageFailed = false := by
    rw [hstage, hclean.left]
    simp
  have hbase : base.failedPhase = none := by
    rw [hfailed, (Absorb.absorbProvenance_phase hprovenance).right, Absorb.absorbPhase_failedPhase,
      hfresh]
  have hkept : (Absorb.offloadOf spec false artifacts result).1 ≠ .failed := by
    rw [← hoff, ← (Absorb.absorbOutcome_spec houtcome).2.2, ← hoffload]
    rcases hclean.right with h | h <;> rw [h] <;> decide
  rw [Absorb.absorbOutcome, if_neg Bool.false_ne_true, hoff] at houtcome
  have htold := (Absorb.offloadOf_told spec false artifacts result).left
  rcases Absorb.runOutcome_told houtcome (hvalue.trans (congrArg Except.ok hwork.symm)) htold hbase
    with ⟨_, hclass, _, hnone⟩
  rw [hwork] at hclass hnone
  have hwon : env'.workload = .succeeded ∨ Absorb.CancelledOnRequest env'.workload result :=
    Or.inl hclean.left
  refine ⟨?_, hretry.trans (hclass.mpr ⟨hwon, hkept⟩)⟩
  rw [hphase, hnone hwon, if_neg hkept]

namespace Apply

/-!
## Stages of the record
-/

structure Undecided (env : JobEnvelope) : Prop where
  workload : env.workload ≠ .succeeded
  offload : env.offload = .pending
  cleanup : env.cleanup = .pending
  faultless : Faultless env

structure Unwon (env : JobEnvelope) : Prop where
  workload : env.workload ≠ .succeeded
  cleanup : env.cleanup = .pending

structure Open (env : JobEnvelope) : Prop where
  unmixed : Unmixed env
  cleanup : env.cleanup = .pending

theorem Undecided.unwon {env : JobEnvelope} (h : Undecided env) : Unwon env :=
  ⟨h.workload, h.cleanup⟩

theorem Unwon.opened {env : JobEnvelope} (h : Unwon env) : Open env :=
  ⟨unmixed_of_workload h.workload, h.cleanup⟩

theorem Open.fair {env : JobEnvelope} (h : Open env) : Fair env := h.unmixed.fair

theorem Undecided.of_standing {env env' : JobEnvelope} (heq : standing env' = standing env)
    (h : Undecided env) : Undecided env' := by
  simp only [standing, Prod.mk.injEq] at heq
  rcases heq with ⟨hwork, hoff, hclean, hfailed, hretry⟩
  rcases h with ⟨h1, h2, h3, h4⟩
  refine ⟨?_, ?_, ?_, ?_⟩
  · rwa [hwork]
  · rwa [hoff]
  · rwa [hclean]
  · unfold Faultless
    rwa [hfailed, hretry]

theorem Unwon.of_standing {env env' : JobEnvelope} (heq : standing env' = standing env)
    (h : Unwon env) : Unwon env' := by
  simp only [standing, Prod.mk.injEq] at heq
  exact ⟨by rw [heq.1]; exact h.workload, by rw [heq.2.2.1]; exact h.cleanup⟩

theorem Open.of_standing {env env' : JobEnvelope} (heq : standing env' = standing env)
    (h : Open env) : Open env' := by
  refine ⟨h.unmixed.of_standing heq, ?_⟩
  have hclean : env'.cleanup = env.cleanup := congrArg (fun s => s.2.2.1) heq
  exact hclean.trans h.cleanup

/-- The first fields of a verdict that is being set: until the offload is set the old record is
no success, and from then on only the retry class may be the old one. -/
theorem partlySet_open {k : Nat} {old new : JobEnvelope} (hold : Undecided old)
    (hnew : Open new) : Open (partlySet k old new) := by
  constructor
  · intro hclean
    unfold Clean at hclean
    by_cases hoffload : 7 < k
    · have hset : (partlySet k old new).workload = new.workload ∧
          (partlySet k old new).offload = new.offload ∧
          (partlySet k old new).failedPhase = new.failedPhase := by
        simp only [partlySet, show 5 < k from by omega, show 6 < k from by omega, hoffload,
          if_true, and_self]
      rw [hset.1, hset.2.1] at hclean
      rcases hnew.unmixed hclean with ⟨hfailed, hretry⟩
      refine ⟨hset.2.2.trans hfailed, ?_⟩
      simp only [partlySet]
      split
      · exact hretry
      · exact hold.faultless.right
    · have hpending : (partlySet k old new).offload = .pending := by
        simp only [partlySet, hoffload, if_false]
        exact hold.offload
      rw [hpending] at hclean
      rcases hclean.right with h | h <;> cases h
  · simp only [partlySet]
    split
    · exact hnew.cleanup
    · exact hold.cleanup

theorem partlySet_unwon {k : Nat} {old new : JobEnvelope} (hold : Unwon old)
    (hnew : Unwon new) : Unwon (partlySet k old new) := by
  constructor
  · simp only [partlySet]
    split
    · exact hnew.workload
    · exact hold.workload
  · simp only [partlySet]
    split
    · exact hnew.cleanup
    · exact hold.cleanup

/-!
## How a program leaves the record
-/

variable {result result' : Type}

/-- Where a program returns, this holds; otherwise no success has a failure, and only a signal
finds the job succeeded. -/
def Leaving (m : result -> Proc -> Prop) : Outcome Raise result -> Proc -> Prop
  | .ok a, s => m a s
  | .raised e, s => Filed Open Fair s ∧ (e.IsSignal ∨ s.env.workload ≠ .succeeded)
  | .ended, s => Filed Open Fair s

theorem leaving_bind {pre : Proc -> Prop} {p : Program result} {f : result -> Program result'}
    {m : result -> Proc -> Prop} {n : result' -> Proc -> Prop}
    (hp : Prog.Triple pre p (Leaving m)) (hf : forall a, Prog.Triple (m a) (f a) (Leaving n)) :
    Prog.Triple pre (p >>= f) (Leaving n) := by
  refine Prog.Triple.bind (hp.conseq (fun _ => id) fun o s h => ?_) hf
  cases o <;> exact h

theorem leaving_pure {pre : Proc -> Prop} {m : result -> Proc -> Prop} {a : result}
    (h : forall s, pre s -> m a s) : Prog.Triple pre (pure a : Program result) (Leaving m) :=
  Prog.Triple.pure h

theorem leaving_weaken {pre : Proc -> Prop} {p : Program result}
    {m m' : result -> Proc -> Prop} (hp : Prog.Triple pre p (Leaving m))
    (h : forall a s, m a s -> m' a s) : Prog.Triple pre p (Leaving m') := by
  refine hp.conseq (fun _ => id) fun o s hs => ?_
  cases o with
  | ok a => exact h a s hs
  | raised e => exact hs
  | ended => exact hs

theorem leaving_of_keeps {hand : JobEnvelope -> Prop} {p : Program result}
    (hunwon : forall env, hand env -> Unwon env) (hp : Prog.Keeps (Filed hand Fair) p) :
    Prog.Triple (Filed hand Fair) p (Leaving fun _ => Filed hand Fair) := by
  intro s hs
  have ht := hp s hs
  rcases hrun : p s with ⟨o, t⟩
  rw [hrun] at ht
  cases o with
  | ok a => exact ht
  | raised e => exact ⟨ht.weaken fun h => (hunwon _ h).opened, Or.inr (hunwon _ ht.env).workload⟩
  | ended => exact ht.weaken fun h => (hunwon _ h).opened

theorem leaving_undecided {p : Program result}
    (hp : Made (fun env env' => standing env' = standing env) p) :
    Prog.Triple (Filed Undecided Fair) p (Leaving fun _ => Filed Undecided Fair) :=
  leaving_of_keeps (fun _ => Undecided.unwon) (hp.keeps (fun _ _ => Undecided.of_standing)
    fun _ h => h.unwon.opened.fair)

theorem done_of_pending {env : JobEnvelope} (h : env.cleanup = .pending) : env.done = false := by
  unfold JobEnvelope.done
  rw [h]
  simp [Cleanup.terminal]

theorem leaving_edit {f : JobEnvelope -> JobEnvelope} {hand hand' : JobEnvelope -> Prop}
    (h : forall env, hand env -> hand' (f env)) :
    Prog.Triple (Filed hand Fair) (modifyEnv f) (Leaving fun _ => Filed hand' Fair) :=
  Prog.Triple.modify fun s hs => ⟨h s.env hs.env, hs.wrote, hs.disk⟩

section Opened

variable {hand hand' : JobEnvelope -> Prop} (hopen : forall env, hand env -> Open env)

include hopen

theorem leaving_arrive (signal : Option Signal) :
    Prog.Triple (Filed hand Fair) (arrive signal) (Leaving fun _ => Filed hand Fair) := by
  intro s hs
  by_cases hquiet : Quiet s signal
  · rw [arrive_quiet hquiet]
    exact hs
  · rcases arrive_loud hquiet with ⟨e, t, hrun, hsignal⟩
    rcases arrive_state signal s with ⟨ignored, hstate⟩
    rw [hrun] at hstate ⊢
    rw [show t = { s with ignored } from hstate]
    exact ⟨⟨hopen _ hs.env, hs.wrote, hs.disk⟩, Or.inl hsignal⟩

/-- A record that is written before the VM is released raises nothing once it is in place. -/
theorem leaving_persist {hit : WriteHit} (hlands : hit.write.lands = true) :
    Prog.Triple (Filed hand Fair) (persist hit) (Leaving fun _ => Filed hand Fair) := by
  refine leaving_bind (leaving_arrive hopen _) fun _ => leaving_bind (fun s hs => ?_) fun _ =>
    leaving_arrive hopen _
  have hstate := filed_writeEnvelope (fun _ h => (hopen _ h).fair) hit.write s hs
  have hreturns : (writeEnvelope hit.write s).1 = .ok () := by
    unfold writeEnvelope Write.perform
    cases hfile : hit.write.file with
    | some text =>
        rw [Write.lands, hfile] at hlands
        cases hlands
    | none => simp [done_of_pending (hopen _ hs.env).cleanup]
  rcases hrun : writeEnvelope hit.write s with ⟨o, t⟩
  rw [hrun] at hstate hreturns
  cases hreturns
  exact hstate

end Opened

/-!
## Absorbing
-/

/-- The record once the poll is over: a job that was left at the deadline has not succeeded. -/
structure Polled (env : JobEnvelope) : Prop where
  opened : Open env
  interrupted : env.supervisor = .interrupted -> env.workload ≠ .succeeded

theorem Unwon.polled {env : JobEnvelope} (h : Unwon env) : Polled env :=
  ⟨h.opened, fun _ => h.workload⟩

def absorbedBy : Option String -> JobEnvelope -> Prop
  | some _ => Undecided
  | none => Open

theorem leaving_absorbResult (spec : JobSpec) (hit : AbsorbHit) (result : Json.Fields) :
    Prog.Triple (Filed Undecided Fair) (absorbResult spec hit result)
      (Leaving fun error => Filed (absorbedBy error) Fair) := by
  have hfair : forall env, Undecided env -> Open env := fun _ h => h.unwon.opened
  refine leaving_bind (leaving_arrive hfair _) fun _ => Prog.Triple.get_bind fun s hs => ?_
  cases habsorb : Absorb.absorbResult s.env spec result hit.now with
  | error text =>
      refine leaving_pure fun t ht => ?_
      rw [ht]
      exact hs
  | ok env =>
      have hopened : Open env := by
        refine ⟨absorbResult_unmixed habsorb hs.env.faultless.left, ?_⟩
        exact (Absorb.absorbResult_spec habsorb).1.cleanup.trans hs.env.cleanup
      have hset : Prog.Triple (fun t => t = s) (setPartly hit.during env)
          (Leaving fun _ => Filed Open Fair) := by
        rintro t rfl
        cases hit.during with
        | none => exact hs.weaken (hfair _)
        | some during =>
            exact leaving_bind
              (@leaving_edit _ Undecided Open fun old hold => partlySet_open hold hopened)
              (fun _ => leaving_arrive (fun _ => id) _) t hs
      refine leaving_bind hset fun _ => leaving_bind (@leaving_edit _ _ Open fun _ _ => hopened)
        fun _ => leaving_bind (leaving_arrive (fun _ => id) _) fun _ => leaving_pure fun t ht => ht

theorem leaving_keepAbsorbed {hit : AbsorbHit} (hlands : hit.write.write.lands = true) :
    Prog.Triple (Filed Open Fair) (keepAbsorbed hit) (Leaving fun _ => Filed Polled Fair) := by
  refine leaving_bind (m := fun _ => Filed Polled Fair) ?_ fun _ =>
    leaving_persist (fun _ => Polled.opened) hlands
  refine leaving_bind (leaving_arrive (fun _ => id) _) fun _ =>
    leaving_bind (@leaving_edit _ _ Polled fun env henv => ?_) fun _ =>
      leaving_arrive (fun _ => Polled.opened) _
  refine ⟨⟨henv.unmixed, henv.cleanup⟩, fun h => ?_⟩
  cases h

theorem unwon_edits {p : Program result} (hp : Made (fun env env' => Unwon env -> Unwon env') p) :
    Prog.Keeps (Filed Unwon Fair) p :=
  hp.keeps (fun _ _ h => h) fun _ h => h.opened.fair

theorem unknownVerdict_unwon {spec : JobSpec} {reason now : String}
    {f : JobEnvelope -> JobEnvelope} (hf : f ∈ unknownVerdict spec reason now)
    (env : JobEnvelope) (h : Unwon env) : Unwon (f env) := by
  simp only [unknownVerdict, List.mem_cons, List.not_mem_nil, or_false] at hf
  rcases hf with rfl | rfl | rfl | rfl | rfl | rfl | rfl
  · exact ⟨(by simp), h.cleanup⟩
  all_goals exact ⟨h.workload, h.cleanup⟩

def EndingsLand (endings : List Finish) : Prop :=
  forall e, e ∈ endings -> e.absorb.write.write.lands = true

theorem leaving_finishWithoutResult (spec : JobSpec) : forall (endings : List Finish)
    (reason : String), EndingsLand endings ->
      Prog.Triple (Filed Undecided Fair) (finishWithoutResult spec endings reason)
        (Leaving fun _ => Filed Polled Fair) := by
  intro endings
  induction endings with
  | nil =>
      intro reason _ s hs
      exact ⟨hs.weaken fun h => h.unwon.opened, Or.inr hs.env.workload⟩
  | cons a rest ih =>
      intro reason hlands
      refine leaving_bind (leaving_undecided (Made.recoverControlResult (fun _ _ h => h) spec a))
        fun found => ?_
      cases found with
      | some result =>
          refine leaving_bind (leaving_absorbResult spec a.absorb result) fun error => ?_
          refine leaving_bind (m := fun _ => Filed Polled Fair) ?_ fun _ =>
            leaving_edit fun env henv =>
              ⟨⟨henv.opened.unmixed, henv.opened.cleanup⟩, henv.interrupted⟩
          cases error with
          | some error => exact ih _ fun e he => hlands e (List.mem_cons_of_mem _ he)
          | none => exact leaving_keepAbsorbed (hlands a List.mem_cons_self)
      | none =>
          have hunknown : Prog.Keeps (Filed Unwon Fair) (do
              updates a.gaps (unknownVerdict spec reason a.now)
              arrive a.pull
              persist a.write : Program Unit) := by
            refine unwon_edits ?_
            have hsame : forall env env', standing env' = standing env ->
                Unwon env -> Unwon env' := fun _ _ => Unwon.of_standing
            exact Prog.Built.bind (Made.updates hsame _ fun f hf env => unknownVerdict_unwon hf env)
              fun _ => Prog.Built.bind (Made.arrive hsame _) fun _ => Made.persist hsame _
          refine (leaving_weaken (leaving_of_keeps (fun _ => id) hunknown) fun _ s hs => ?_).conseq
            (fun s hs => hs.weaken Undecided.unwon) fun _ _ h => h
          exact hs.weaken Unwon.polled

theorem leaving_absorbOrKeep (spec : JobSpec) {hit : AbsorbHit} {endings : List Finish}
    (hlands : hit.write.write.lands = true) (hendings : EndingsLand endings)
    (result : Json.Fields) :
    Prog.Triple (Filed Undecided Fair) (absorbOrKeep spec hit endings result)
      (Leaving fun _ => Filed Polled Fair) := by
  refine leaving_bind (leaving_absorbResult spec hit result) fun error => ?_
  cases error with
  | some error => exact leaving_finishWithoutResult spec endings _ hendings
  | none => exact leaving_keepAbsorbed hlands

/-!
## The poll
-/

structure Tick.Lands (t : Tick) : Prop where
  absorb : t.absorb.write.write.lands = true
  endings : EndingsLand t.endings

theorem leaving_settle (spec : JobSpec) {t : Tick} (h : t.Lands) (ending : Evidence.Ending) :
    Prog.Triple (Filed Undecided Fair) (Evidence.settle spec t ending)
      (Leaving fun _ => Filed Polled Fair) := by
  cases ending with
  | result record => exact leaving_absorbOrKeep spec h.absorb h.endings record
  | lost =>
      refine Prog.Triple.get_bind fun s hs => ?_
      refine (leaving_finishWithoutResult spec t.endings _ h.endings).conseq (fun u hu => ?_)
        fun _ _ h => h
      rw [hu]
      exact hs
  | dead record => exact leaving_finishWithoutResult spec t.endings _ h.endings
  | neverStarted since => exact leaving_finishWithoutResult spec t.endings _ h.endings

def passed : Bool -> JobEnvelope -> Prop
  | true => Polled
  | false => Undecided

theorem goesOn_returns (spec : JobSpec) (t : Tick) (healthy : Bool) :
    Returns (fun _ => True) (Evidence.conclude spec t (.goesOn healthy))
      fun ended _ => ended = false := by
  have hwritten : Returns (fun _ => True) (do
      persist t.write
      arrive t.sleep
      return false : Program Bool) fun ended _ => ended = false :=
    Returns.after fun _ => Returns.after fun _ => Returns.pure fun _ _ => rfl
  cases healthy with
  | true => exact Returns.after fun _ => hwritten
  | false => exact hwritten

theorem leaving_tick (spec : JobSpec) {t : Tick} (h : t.Lands) (degraded : Nat) :
    Prog.Triple (Filed Undecided Fair) (tick spec t degraded)
      (Leaving fun ended => Filed (passed ended) Fair) := by
  rw [Evidence.tick_eq]
  refine leaving_bind (leaving_undecided (Made.look (fun _ _ h => h) t degraded))
    fun ⟨_, conclusion⟩ => ?_
  cases conclusion with
  | ends ending =>
      exact leaving_bind (leaving_settle spec h ending) fun _ => leaving_pure fun _ hs => hs
  | goesOn healthy =>
      have hgoes : Prog.Triple (Filed Undecided Fair) (Evidence.conclude spec t (.goesOn healthy))
          (Leaving fun _ => Filed Undecided Fair) :=
        leaving_undecided (Made.goesOn (fun _ _ h => h) spec t healthy)
      have hfalse : forall s u ended,
          Evidence.conclude spec t (.goesOn healthy) s = (.ok ended, u) -> ended = false := by
        intro s u ended hrun
        exact Returns.run (goesOn_returns spec t healthy) trivial hrun
      intro s hs
      have hends := hgoes s hs
      rcases hrun : Evidence.conclude spec t (.goesOn healthy) s with ⟨o, u⟩
      rw [hrun] at hends
      cases o with
      | ok ended =>
          rw [hfalse s u ended hrun]
          exact hends
      | raised e => exact hends
      | ended => exact hends

theorem deadlinePassed_unwon (a : Deadline) :
    Prog.Keeps (Filed Unwon Fair) (deadlinePassed a) := by
  refine unwon_edits ?_
  have hsame : forall env env', standing env' = standing env ->
      Unwon env -> Unwon env' := fun _ _ => Unwon.of_standing
  refine Prog.Built.bind Prog.Built.get fun s => Prog.Built.bind
    (Made.updates hsame _ fun f hf env henv => ?_) fun _ => Made.persist hsame _
  simp only [List.mem_cons, List.not_mem_nil, or_false] at hf
  rcases hf with rfl | rfl | rfl <;> exact ⟨henv.workload, henv.cleanup⟩

theorem leaving_poll (spec : JobSpec) (deadline : Rat) (a : Deadline) : forall (ticks : List Tick)
    (degraded : Nat), (forall t, t ∈ ticks -> t.Lands) ->
      Prog.Triple (Filed Undecided Fair) (poll spec deadline a ticks degraded)
        (Leaving fun _ => Filed Polled Fair) := by
  intro ticks
  induction ticks with
  | nil => exact fun _ _ s hs => hs.weaken fun h => h.unwon.opened
  | cons t rest ih =>
      intro degraded hlands
      unfold poll
      split
      · refine leaving_bind (leaving_tick spec (hlands t List.mem_cons_self) degraded)
          fun ended => ?_
        cases ended with
        | true => exact leaving_pure fun _ hs => hs
        | false => exact ih _ fun t ht => hlands t (List.mem_cons_of_mem _ ht)
      · refine (leaving_weaken (leaving_of_keeps (fun _ => id) (deadlinePassed_unwon a))
          fun _ s hs => ?_).conseq (fun s hs => hs.weaken Undecided.unwon) fun _ _ h => h
        exact hs.weaken Unwon.polled

/-!
## After the deadline
-/

section Late

variable {result : Json.Fields}

theorem absorbResult_unwon (spec : JobSpec) (hit : AbsorbHit) (h : ¬Succeeds result) :
    Prog.Keeps (Filed Unwon Fair) (absorbResult spec hit result) := by
  have hsame : forall env env', standing env' = standing env ->
      Unwon env -> Unwon env' := fun _ _ => Unwon.of_standing
  have harrive : forall signal, Prog.Keeps (Filed Unwon Fair) (arrive signal) := fun signal =>
    unwon_edits (Made.arrive hsame signal)
  refine Prog.Keeps.bind (harrive _) fun _ => Prog.Keeps.get_bind fun s hs => ?_
  cases habsorb : Absorb.absorbResult s.env spec result hit.now with
  | error text => exact hs
  | ok env =>
      rcases Absorb.absorbResult_spec habsorb with ⟨hvm, hwork, _⟩
      have hunwon : Unwon env := by
        refine ⟨fun heq => h ?_, hvm.cleanup.trans hs.env.cleanup⟩
        rw [Succeeds, hwork, heq]
      have hset : Prog.Keeps (Filed Unwon Fair) (setPartly hit.during env) := by
        cases hit.during with
        | none => exact Prog.Keeps.pure _
        | some during =>
            refine Prog.Keeps.bind (fun u hu => ?_) fun _ => harrive _
            exact ⟨partlySet_unwon hu.env hunwon, hu.wrote, hu.disk⟩
      refine Prog.Keeps.bind hset (fun _ => Prog.Keeps.bind (fun u hu => ?_) fun _ =>
        Prog.Keeps.bind (harrive _) fun _ => Prog.Keeps.pure _) s hs
      exact ⟨hunwon, hu.wrote, hu.disk⟩

theorem keepAbsorbed_unwon (hit : AbsorbHit) :
    Prog.Keeps (Filed Unwon Fair) (keepAbsorbed hit) := by
  refine unwon_edits ?_
  have hsame : forall env env', standing env' = standing env ->
      Unwon env -> Unwon env' := fun _ _ => Unwon.of_standing
  refine Prog.Built.bind (Made.updates hsame _ fun f hf env henv => ?_) fun _ =>
    Made.persist hsame _
  rw [List.mem_singleton.mp hf]
  exact ⟨henv.workload, henv.cleanup⟩

theorem recoverControlResult_fetched (spec : JobSpec) (a : Finish) :
    Returns (fun _ => True) (recoverControlResult spec a) fun found _ =>
      forall result, found = some result -> a.fetch = .ok result := by
  unfold recoverControlResult
  split
  · exact Returns.pure fun _ _ _ heq => by cases heq
  · refine Returns.after fun _ => ?_
    split
    · exact Returns.after fun _ => Returns.pure fun _ _ _ heq => by cases heq
    · next fetched hfetch =>
        refine Returns.after fun _ => ?_
        simp only
        split
        · exact Returns.raise _
        · refine Returns.pure fun _ _ result heq => ?_
          cases heq
          exact hfetch
        · exact Returns.after fun _ => Returns.pure fun _ _ _ heq => by cases heq

def EndingsFail (endings : List Finish) : Prop :=
  forall e, e ∈ endings -> forall result, e.fetch = .ok result -> ¬Succeeds result

theorem finishWithoutResult_unwon (spec : JobSpec) : forall (endings : List Finish)
    (reason : String), EndingsFail endings ->
      Prog.Keeps (Filed Unwon Fair) (finishWithoutResult spec endings reason) := by
  have hsame : forall env env', standing env' = standing env ->
      Unwon env -> Unwon env' := fun _ _ => Unwon.of_standing
  intro endings
  induction endings with
  | nil => exact fun _ _ => Prog.Keeps.raise _
  | cons a rest ih =>
      intro reason hfail
      refine Prog.Keeps.bind_ok (unwon_edits (Made.recoverControlResult hsame spec a))
        fun found s t hrun ht => ?_
      cases found with
      | some result =>
          have hresult : ¬Succeeds result :=
            hfail a List.mem_cons_self result
              ((recoverControlResult_fetched spec a).run trivial hrun result rfl)
          refine Prog.Keeps.bind (absorbResult_unwon spec a.absorb hresult) (fun error => ?_) t ht
          refine Prog.Keeps.bind ?_ fun _ =>
            unwon_edits (Made.addHint hsame _)
          cases error with
          | some error => exact ih _ fun e he => hfail e (List.mem_cons_of_mem _ he)
          | none => exact keepAbsorbed_unwon _
      | none =>
          refine unwon_edits ?_ t ht
          exact Prog.Built.bind (Made.updates hsame _ fun f hf env => unknownVerdict_unwon hf env)
            fun _ => Prog.Built.bind (Made.arrive hsame _) fun _ => Made.persist hsame _

structure CancelHit.Fails (a : CancelHit) : Prop where
  awaited : forall result, awaitRunnerResult a.looks runnerStopWaitSeconds = .ok result ->
    ¬Succeeds result
  endings : EndingsFail a.endings

theorem cancelAfterDeadline_unwon (spec : JobSpec) (passed requester : String) {a : CancelHit}
    (h : a.Fails) :
    Prog.Keeps (Filed Unwon Fair) (cancelAfterDeadline spec passed requester a) := by
  have hsame : forall env env', standing env' = standing env ->
      Unwon env -> Unwon env' := fun _ _ => Unwon.of_standing
  have hkeeps : forall {result : Type} {p : Program result},
      Made (fun env env' => Unwon env -> Unwon env') p -> Prog.Keeps (Filed Unwon Fair) p :=
    fun hp => unwon_edits hp
  refine Prog.Keeps.bind (hkeeps (Made.arrive hsame _)) fun _ =>
    Prog.Keeps.bind (hkeeps (Made.arrive hsame _)) fun _ => Prog.Keeps.bind ?_ fun _ =>
      Prog.Keeps.bind (hkeeps (Made.addHint hsame _)) fun _ => hkeeps (Made.persist hsame _)
  unfold cancelOutcome
  simp only
  split
  · next result hresult =>
      refine Prog.Keeps.bind ?_ fun _ => hkeeps (Made.updates hsame _ fun f hf env henv => ?_)
      · refine Prog.Keeps.bind (absorbResult_unwon spec a.absorb (h.awaited result hresult))
          fun error => ?_
        cases error with
        | some error => exact finishWithoutResult_unwon spec _ _ h.endings
        | none => exact keepAbsorbed_unwon _
      · simp only [List.mem_cons, List.not_mem_nil, or_false] at hf
        rcases hf with rfl | rfl | rfl <;> exact ⟨henv.workload, henv.cleanup⟩
  · exact finishWithoutResult_unwon spec _ _ h.endings

end Late

/-!
## The run
-/

/-- What the `try` block sees: no success after the deadline, and a disk that takes the record
of a result. -/
structure Body.Careful (a : Body) : Prop where
  lands : forall t, t ∈ a.ticks -> t.Lands
  cancel : a.cancel.Fails

theorem leaving_body (args : Args) {a : Body} (h : a.Careful) :
    Prog.Triple (Filed Undecided Fair) (body args a) (Leaving fun _ => Filed Open Fair) := by
  have hsame : forall env env', standing env' = standing env ->
      Undecided env -> Undecided env' := fun _ _ => Undecided.of_standing
  have hphase : forall {result : Type} {p : Program result},
      Made (fun env env' => Undecided env -> Undecided env') p ->
        Prog.Triple (Filed Undecided Fair) p (Leaving fun _ => Filed Undecided Fair) :=
    fun hp => leaving_of_keeps (fun _ => Undecided.unwon)
      (hp.keeps (fun _ _ h => h) fun _ h => h.unwon.opened.fair)
  refine leaving_bind (hphase (Made.provision hsame _ _)) fun _ =>
    leaving_bind (hphase (Made.install hsame _ _)) fun _ =>
    leaving_bind (hphase (Made.restart hsame _ _)) fun _ =>
    leaving_bind (hphase (Made.verify hsame _)) fun _ =>
    leaving_bind (hphase (Made.stagePayload hsame _ _)) fun _ =>
    leaving_bind (hphase (Made.sealSecretChannel hsame _)) fun _ =>
    leaving_bind (hphase (Made.launch hsame (fun env henv => ?_) _)) fun launched =>
    leaving_bind (hphase (Made.arrive hsame _)) fun _ =>
    leaving_bind (hphase (Made.own hsame fun _ => ⟨rfl, rfl, rfl⟩)) fun _ =>
    leaving_bind (hphase (Made.jobTransport hsame _)) fun _ =>
    leaving_bind (leaving_poll _ _ _ _ _ h.lands) fun _ => Prog.Triple.get_bind fun s hs => ?_
  · exact ⟨by simp, henv.offload, henv.cleanup, henv.faultless⟩
  · split
    · next hinterrupted =>
        refine (leaving_weaken (leaving_of_keeps (fun _ => id)
          (cancelAfterDeadline_unwon _ _ _ h.cancel)) fun _ t ht =>
            ht.weaken Unwon.opened).conseq (fun t ht => ?_) fun _ _ h => h
        rw [ht]
        exact hs.weaken fun henv => ⟨henv.interrupted hinterrupted, henv.opened.cleanup⟩
    · refine leaving_pure fun t ht => ?_
      rw [ht]
      exact hs.weaken Polled.opened

theorem cancelledVerdict_unwon {spec : JobSpec} {a : Handler} {stop : Stop}
    {f : JobEnvelope -> JobEnvelope} (hf : f ∈ cancelledVerdict spec a stop)
    (env : JobEnvelope) (h : Unwon env) : Unwon (f env) := by
  simp only [cancelledVerdict, List.mem_cons, List.not_mem_nil, or_false] at hf
  rcases hf with rfl | rfl | rfl | rfl | rfl | rfl
  · exact ⟨by simp, h.cleanup⟩
  all_goals exact ⟨h.workload, h.cleanup⟩

theorem interruptedVerdict_open {reason : String} {hints : List String}
    {f : JobEnvelope -> JobEnvelope} (hf : f ∈ interruptedVerdict reason hints)
    (env : JobEnvelope) (h : Open env) : Open (f env) := by
  simp only [interruptedVerdict, List.mem_cons, List.not_mem_nil, or_false] at hf
  rcases hf with rfl | rfl | rfl | rfl
  · exact ⟨h.unmixed, h.cleanup⟩
  · exact ⟨h.unmixed, h.cleanup⟩
  · exact ⟨fun hclean => ⟨(h.unmixed hclean).left, rfl⟩, h.cleanup⟩
  · exact ⟨h.unmixed, h.cleanup⟩

theorem open_edits {p : Program result} (hp : Made (fun env env' => Open env -> Open env') p) :
    Prog.Keeps (Filed Open Fair) p :=
  hp.keeps (fun _ _ h => h) fun _ => Open.fair

theorem runStopped_open (plan : Plan) (a : Handler) (stop : Stop) :
    Prog.Keeps (Filed Open Fair) (runStopped plan a stop) := by
  refine Prog.Keeps.get_bind fun s hs => ?_
  split
  · next hpending =>
      have hunwon : Filed Unwon Fair s := hs.weaken fun henv => by
        refine ⟨?_, henv.cleanup⟩
        rw [hpending]
        simp
      have hkeeps : Prog.Keeps (Filed Unwon Fair)
          (updates a.gaps (cancelledVerdict plan.spec a stop)) :=
        unwon_edits (Made.updates (fun _ _ => Unwon.of_standing) _ fun f hf env =>
          cancelledVerdict_unwon hf env)
      exact (hkeeps s hunwon).weaken Unwon.opened
  · have hsame : forall env env', standing env' = standing env ->
        Open env -> Open env' := fun _ _ => Open.of_standing
    refine open_edits ?_ s hs
    cases stop with
    | signal signal =>
        exact Prog.Built.bind (Made.arrive hsame _) fun _ =>
          Prog.Built.bind (Made.own hsame fun _ => ⟨rfl, rfl, rfl⟩) fun _ =>
            Made.updates hsame _ fun f hf env => interruptedVerdict_open hf env
    | keyboard => exact Made.updates hsame _ fun f hf env => interruptedVerdict_open hf env

theorem phaseFailed_unwon (spec : JobSpec) (a : Handler) (e : PhaseError) :
    Prog.Keeps (Filed Unwon Fair) (phaseFailed spec a e) := by
  refine unwon_edits (Made.updates (fun _ _ => Unwon.of_standing) _ fun f hf env henv => ?_)
  simp only [List.mem_cons, List.not_mem_nil, or_false] at hf
  rcases hf with rfl | rfl | rfl | rfl | rfl | rfl | rfl | rfl | rfl
  · exact ⟨henv.workload, henv.cleanup⟩
  · exact ⟨henv.workload, henv.cleanup⟩
  · exact ⟨by simp, henv.cleanup⟩
  all_goals exact ⟨henv.workload, henv.cleanup⟩

theorem supervisorFailed_unwon (spec : JobSpec) (a : Handler) (text : String) :
    Prog.Keeps (Filed Unwon Fair) (supervisorFailed spec a text) := by
  refine unwon_edits (Made.updates (fun _ _ => Unwon.of_standing) _ fun f hf env henv => ?_)
  simp only [List.mem_cons, List.not_mem_nil, or_false] at hf
  rcases hf with rfl | rfl | rfl | rfl | rfl | rfl | rfl | rfl
  · exact ⟨henv.workload, henv.cleanup⟩
  · exact ⟨henv.workload, henv.cleanup⟩
  · refine ⟨?_, henv.cleanup⟩
    simp only
    split
    · exact henv.workload
    · split <;> simp
  all_goals exact ⟨henv.workload, henv.cleanup⟩

theorem supervised_open (args : Args) {a : Answers} (h : a.body.Careful) {s : Proc}
    (hs : Filed Undecided Fair s) : Filed Open Fair (supervised args a s).2 := by
  have hbody := leaving_body args h s hs
  unfold supervised Prog.attempt
  rcases hrun : body args a.body s with ⟨o, t⟩
  rw [hrun] at hbody
  cases o with
  | ok _ => exact hbody
  | ended => exact hbody
  | raised e =>
      rcases hbody with ⟨hopen, hcause⟩
      have hunwon : ¬e.IsSignal -> Filed Unwon Fair t := fun hnot =>
        hopen.weaken fun henv => ⟨hcause.resolve_left hnot, henv.cleanup⟩
      simp only
      cases e with
      | phase error =>
          exact (phaseFailed_unwon _ _ error t (hunwon (by simp [Raise.IsSignal]))).weaken
            Unwon.opened
      | keyboard => exact runStopped_open _ _ _ t hopen
      | stopped signal => exact runStopped_open _ _ _ t hopen
      | exit code => exact hopen
      | exception text =>
          rw [handle]
          split
          · exact hopen
          · exact (supervisorFailed_unwon _ _ text t
              (hunwon (by simp [Raise.IsSignal]))).weaken Unwon.opened

/-!
## The `finally` block
-/

theorem fair_edits {p : Program result} (hp : Made (fun env env' => Fair env -> Fair env') p) :
    Prog.Keeps (Filed Fair Fair) p :=
  hp.keeps (fun _ _ h => h) fun _ => id

theorem unmixed_before {p : Program result} {f : result -> Program result'} {s : Proc}
    (hp : Made (fun env env' => standing env' = standing env) p) (hs : Filed Unmixed Fair s)
    (hf : forall a t, Filed Unmixed Fair t -> Filed Fair Fair (f a t).2) :
    Filed Fair Fair ((p >>= f) s).2 :=
  Prog.Keeps.before (hp.keeps (fun _ _ => Unmixed.of_standing) fun _ => Unmixed.fair) hs
    (fun _ ht => ht.weaken Unmixed.fair) hf

theorem recordVmKept_fair {env : JobEnvelope} (jobId : String) (h : Unmixed env) :
    Fair (recordVmKept env jobId) := by
  unfold recordVmKept
  split
  · exact fun _ => h
  · exact fun hnot => absurd rfl hnot

theorem recordRelease_fair (a : CleanupHit) (jobId endpoint : String)
    (outcome : Cleanup × Option String) {s : Proc} (hs : Filed Unmixed Fair s) :
    Filed Fair Fair (recordRelease a jobId endpoint outcome s).2 := by
  refine unmixed_before (Made.arrive (fun _ _ h => h) _) hs fun _ t ht => ?_
  rw [Prog.bind_run_ok (show modifyEnv (fun env => { env with cleanup := outcome.1 }) t = _ from rfl)]
  have hset : Filed Fair Fair { t with env := { t.env with cleanup := outcome.1 } } :=
    ⟨fun _ => ht.env, ht.wrote, ht.disk⟩
  have hsame : forall env env', standing env' = standing env ->
      Fair env -> Fair env' := fun _ _ => Fair.of_standing
  refine fair_edits ?_ _ hset
  refine Prog.Built.bind (Made.computeUnits hsame _ _) fun _ =>
    Prog.Built.bind (Made.modifyEnv fun env => hsame _ _ rfl) fun _ =>
      Made.updates hsame _ fun f hf env => ?_
  simp only [List.mem_cons, List.not_mem_nil, or_false] at hf
  rcases hf with rfl | rfl
  · simp only
    split
    · next hfailed => exact fun _ hnot => absurd hfailed hnot
    · exact id
  · simp only
    split
    · exact hsame _ _ rfl
    · exact id

theorem releaseAndRecord_fair (a : CleanupHit) (jobId endpoint : String) {s : Proc}
    (hs : Filed Unmixed Fair s) : Filed Fair Fair (releaseAndRecord a jobId endpoint s).2 := by
  have hsame : forall env env', standing env' = standing env ->
      Fair env -> Fair env' := fun _ _ => Fair.of_standing
  refine Prog.Keeps.after_ensure ?_ (fair_edits
    (Prog.Built.bind (Made.dropSession hsame _ _) fun _ => Made.persist hsame _))
  exact unmixed_before (Made.releaseAssignment (fun _ _ h => h) _ _) hs
    fun outcome t ht => recordRelease_fair a jobId endpoint outcome ht

theorem cleanup_fair (a : CleanupHit) (jobId : String) (leaveUp : Bool) {s : Proc}
    (hs : Filed Unmixed Fair s) : Filed Fair Fair (cleanup a jobId leaveUp s).2 := by
  have hstanding : forall env env' : JobEnvelope, standing env' = standing env ->
      standing env' = standing env := fun _ _ h => h
  have hpersist : forall hit, Prog.Keeps (Filed Fair Fair) (persist hit) := fun hit =>
    fair_edits (Made.persist (fun _ _ => Fair.of_standing) hit)
  refine unmixed_before (Made.closeRuntime hstanding _) hs fun _ t ht =>
    unmixed_before (Made.setPhase hstanding _ _) ht fun _ u hu => ?_
  rw [Prog.bind_run_ok (Prog.get_run u)]
  cases nonempty u.env.endpoint with
  | none =>
      refine unmixed_before (Made.stopKeepAlive hstanding _) hu fun _ v hv =>
        unmixed_before (Made.dropSession hstanding _ _) hv fun _ w hw => ?_
      refine Prog.Keeps.after_bind ?_ fun _ => hpersist _
      have hkeeps : Prog.Keeps (Filed Unmixed Fair)
          (updates a.gaps [fun env => { env with cleanup := .alreadyAbsent }]) :=
        (@Made.updates (fun env env' => Unmixed env -> Unmixed env')
          (fun _ _ => Unmixed.of_standing) _ _ fun f hf env henv => by
            rw [List.mem_singleton.mp hf]
            exact henv).keeps (fun _ _ h => h) fun _ => Unmixed.fair
      exact (hkeeps w hw).weaken Unmixed.fair
  | some endpoint =>
      cases leaveUp with
      | true =>
          refine Prog.Keeps.after_bind ?_ fun _ => hpersist _
          refine unmixed_before (Made.arrive hstanding _) hu fun _ v hv => ?_
          have hkept : Filed Fair Fair { v with env := recordVmKept v.env jobId } :=
            ⟨recordVmKept_fair jobId hv.env, hv.wrote, hv.disk⟩
          exact fair_edits (Made.arrive (fun _ _ => Fair.of_standing) _) _ hkept
      | false =>
          exact unmixed_before (Made.copyRecordsBeforeRelease hstanding _) hu fun _ v hv =>
            unmixed_before (Made.stopKeepAlive hstanding _) hv fun _ w hw =>
              releaseAndRecord_fair _ _ _ hw

def beforeVm (a : FinallyHit) : Program Bool := do
  arrive a.start
  removeSecret a.secret

def SecretKept (a : FinallyHit) (s : Proc) : Prop := exists t, beforeVm a s = (.ok false, t)

theorem settleVm_fair (plan : Plan) (a : FinallyHit) (removed : Bool) {s : Proc}
    (hs : Filed Unmixed Fair s) (hclean : removed = false -> ¬Clean s.env) :
    Filed Fair Fair (settleVm plan a removed s).2 := by
  rw [settleVm, Prog.bind_run_ok (Prog.get_run s)]
  have hrest : forall t : Proc, Filed Unmixed Fair t ->
      Filed Fair Fair ((if (decide (s.env.supervisor = .interrupted) && removed) = true then
        detach a else cleanup a.cleanup plan.jobId (keepVm s.env (some plan.spec) removed) :
          Program Unit) t).2 := by
    intro t ht
    split
    · exact fair_edits (Made.detach (fun _ _ => Fair.of_standing) a) t (ht.weaken Unmixed.fair)
    · exact cleanup_fair _ _ _ ht
  cases removed with
  | true => exact hrest s hs
  | false =>
      have hspoiled : Filed (fun env => ¬Clean env) Fair s := hs.weaken fun _ => hclean rfl
      have hunmixed : forall env, ¬Clean env -> Unmixed env := fun _ h hclean => absurd hclean h
      have hkeeps : Prog.Keeps (Filed (fun env => ¬Clean env) Fair)
          (updates a.gaps (secretKeptVerdict s.secretProblem)) := by
        refine (@Made.updates (fun env env' => ¬Clean env -> ¬Clean env')
          (fun env env' heq h => ?_) _ _ fun f hf env henv => ?_).keeps (fun _ _ h => h)
            fun env h => (hunmixed env h).fair
        · simp only [standing, Prod.mk.injEq] at heq
          unfold Clean at *
          rwa [heq.1, heq.2.1]
        · simp only [secretKeptVerdict, List.mem_cons, List.not_mem_nil, or_false] at hf
          rcases hf with rfl | rfl | rfl <;> exact henv
      have hmid := hkeeps s hspoiled
      simp only [Bool.false_eq_true, if_false]
      rw [Prog.bind_run]
      rcases hrun : updates a.gaps (secretKeptVerdict s.secretProblem) s with ⟨o, t⟩
      rw [hrun] at hmid
      cases o with
      | ok _ => exact hrest t (hmid.weaken (hunmixed _))
      | raised e => exact hmid.weaken fun h => (hunmixed _ h).fair
      | ended => exact hmid.weaken fun h => (hunmixed _ h).fair

/-- The `finally` block adds no failure to a success, unless the credential file may still be
there. -/
theorem finallyBlock_fair (plan : Plan) (a : FinallyHit) {s : Proc} (hs : Filed Open Fair s)
    (hsecret : Clean s.env -> ¬SecretKept a s) :
    Filed Fair Fair (finallyBlock plan a s).2 := by
  have hlast : Prog.Keeps (Filed Fair Fair) (letGo plan a) :=
    fair_edits (Made.letGo (fun _ _ => Fair.of_standing) plan a)
  have hopening : Made (fun env env' => standing env' = standing env) (beforeVm a) :=
    Prog.Built.bind (Made.arrive (fun _ _ h => h) _) fun _ =>
      Made.removeSecret (fun _ _ h => h) _
  have heq : finallyBlock plan a =
      beforeVm a >>= fun removed => settleVm plan a removed >>= fun _ => letGo plan a := by
    rw [beforeVm, Prog.bind_assoc]
    rfl
  rw [heq, Prog.bind_run]
  have hkeeps : Prog.Keeps (Filed (fun env => standing env = standing s.env ∧ Open env) Fair)
      (beforeVm a) :=
    hopening.keeps (fun _ _ h henv => ⟨h.trans henv.left, henv.right.of_standing h⟩)
      fun _ h => h.right.fair
  have hmid := hkeeps s ⟨⟨rfl, hs.env⟩, hs.wrote, hs.disk⟩
  rcases hrun : beforeVm a s with ⟨o, t⟩
  rw [hrun] at hmid
  cases o with
  | raised e => exact hmid.weaken fun h => h.right.fair
  | ended => exact hmid.weaken fun h => h.right.fair
  | ok removed =>
      refine Prog.Keeps.after_bind (settleVm_fair plan a removed
        (hmid.weaken fun h => h.right.unmixed) fun hkept hclean => ?_) fun _ => hlast
      subst hkept
      refine hsecret ?_ ⟨t, hrun⟩
      have hsame := hmid.env.left
      simp only [standing, Prod.mk.injEq] at hsame
      unfold Clean at *
      rwa [← hsame.1, ← hsame.2.1]

end Apply
end Job
end MightyColab
