import MightyColab.Job.Apply

/-!
# What the phases of apply leave alone

Only provision and cleanup touch the VM. Every other step of apply edits the envelope
without its endpoint and its cleanup, writes it, or changes the process's own
variables. A predicate that such steps keep is kept by every phase, the poll, the
handlers and the deadline's cancel, however a fault or a signal ends them.
-/

namespace MightyColab
namespace Job

open Lib

namespace Apply

def Mild (f : JobEnvelope -> JobEnvelope) : Prop :=
  forall env, (f env).endpoint = env.endpoint ∧ (f env).cleanup = env.cleanup

theorem mild_addHint (hint : String) : Mild fun env => env.addHint hint :=
  fun _ => ⟨rfl, rfl⟩

/-- A predicate that changes to the process's own variables, hints, phases and writes keep. -/
structure Tidy (inv : Proc -> Prop) : Prop where
  own : forall s t, t.env = s.env -> t.disk = s.disk -> t.log = s.log ->
    t.live = s.live -> inv s -> inv t
  hints : forall s env, OnlyHints s.env env -> inv s -> inv { s with env }
  phase : forall s phase, inv s -> inv { s with env := { s.env with phase } }
  write : forall s, inv s -> inv { s with disk := some s.env, log := .wrote s.env :: s.log }

variable {inv : Proc -> Prop}

theorem attempted_keeps (fault : Option String) : Prog.Keeps inv (attempted fault) := by
  cases fault with
  | none => exact Prog.Keeps.pure _
  | some text => exact Prog.Keeps.raise _

theorem catching_keeps {result : Type} {p : Program result}
    {handler : String -> Program result} (hp : Prog.Keeps inv p)
    (hh : forall text, Prog.Keeps inv (handler text)) :
    Prog.Keeps inv (catching p handler) := by
  refine Prog.Keeps.attempt hp fun e => ?_
  cases e with
  | exception text => exact hh text
  | phase error => exact hh error.reason
  | keyboard => exact Prog.Keeps.raise _
  | stopped signal => exact Prog.Keeps.raise _
  | exit code => exact Prog.Keeps.raise _

theorem writeEnvelope_state (answer : Write) (s : Proc) :
    (writeEnvelope answer s).2 =
      if answer.lands then { s with disk := some s.env, log := .wrote s.env :: s.log }
      else s := by
  have hdisk := answer.perform_disk s.env s.disk
  unfold writeEnvelope
  rcases hperform : answer.perform s.env s.disk with ⟨disk, error⟩
  rw [hperform] at hdisk
  change disk = _ at hdisk
  rw [hdisk]
  cases error with
  | none => cases answer.lands <;> rfl
  | some text => cases answer.lands <;> rfl

theorem updates_keeps (harrive : forall signal, Prog.Keeps inv (arrive signal)) :
    forall (fs : List (JobEnvelope -> JobEnvelope)) (gaps : Gaps),
      (forall f, f ∈ fs -> Prog.Keeps inv (modifyEnv f)) ->
        Prog.Keeps inv (updates gaps fs)
  | [], _, _ => harrive _
  | f :: rest, _, hfs =>
      Prog.Keeps.bind (harrive _) fun _ =>
        Prog.Keeps.bind (hfs f List.mem_cons_self) fun _ =>
          updates_keeps harrive rest _ fun g hg => hfs g (List.mem_cons_of_mem _ hg)

namespace Tidy

/-!
## Elementary steps
-/

theorem modify (h : Tidy inv) {f : Proc -> Proc}
    (hf : forall s, (f s).env = s.env ∧ (f s).disk = s.disk ∧ (f s).log = s.log ∧
      (f s).live = s.live) : Prog.Keeps inv (Prog.modify f : Program Unit) :=
  fun s hs =>
    h.own s (f s) (hf s).1 (hf s).2.1 (hf s).2.2.1 (hf s).2.2.2 hs

theorem addHint (h : Tidy inv) (hint : String) :
    Prog.Keeps inv (modifyEnv fun env => env.addHint hint) :=
  fun s hs => h.hints s _ (addHint_onlyHints s.env hint) hs

theorem arrive (h : Tidy inv) (signal : Option Signal) :
    Prog.Keeps inv (arrive signal) := by
  unfold Apply.arrive
  cases signal with
  | none => exact Prog.Keeps.pure _
  | some signal =>
      cases signal with
      | sigint => exact Prog.Keeps.raise _
      | stop signal =>
          refine Prog.Keeps.bind Prog.Keeps.get fun s => ?_
          refine Prog.Keeps.ite (Prog.Keeps.pure _) ?_
          exact Prog.Keeps.bind (h.modify fun _ => ⟨rfl, rfl, rfl, rfl⟩) fun _ =>
            Prog.Keeps.raise _

theorem step (h : Tidy inv) (hit : Hit) : Prog.Keeps inv (step hit) :=
  Prog.Keeps.bind (h.arrive _) fun _ =>
    Prog.Keeps.bind (attempted_keeps _) fun _ => h.arrive _

theorem persist (h : Tidy inv) (hit : WriteHit) : Prog.Keeps inv (persist hit) := by
  refine Prog.Keeps.bind (h.arrive _) fun _ => Prog.Keeps.bind ?_ fun _ => h.arrive _
  intro s hs
  rw [writeEnvelope_state]
  split
  · exact h.write s hs
  · exact hs

theorem setPhase (h : Tidy inv) (hit : PhaseHit) (phase : Phase) :
    Prog.Keeps inv (setPhase hit phase) :=
  Prog.Keeps.bind (h.arrive _) fun _ =>
    Prog.Keeps.bind (fun s hs => h.phase s phase hs) fun _ =>
      Prog.Keeps.bind (h.step _) fun _ =>
        Prog.Keeps.bind (h.persist _) fun _ => h.step _

theorem jobTransport (h : Tidy inv) (hit : Hit) : Prog.Keeps inv (jobTransport hit) :=
  Prog.Keeps.bind Prog.Keeps.get fun _ =>
    Prog.Keeps.ite (Prog.Keeps.pure _) (Prog.Keeps.bind (h.step _) fun _ =>
      h.modify fun _ => ⟨rfl, rfl, rfl, rfl⟩)

theorem runtimeHandle (h : Tidy inv) (hit : Hit) :
    Prog.Keeps inv (runtimeHandle hit) :=
  Prog.Keeps.bind Prog.Keeps.get fun _ =>
    Prog.Keeps.ite (Prog.Keeps.pure _) (Prog.Keeps.bind (h.step _) fun _ =>
      h.modify fun _ => ⟨rfl, rfl, rfl, rfl⟩)

theorem executeCode {result : Type} (h : Tidy inv) (call : Kernel result)
    (phase : Phase) (hints : List String) :
    Prog.Keeps inv (executeCode call phase hints) := by
  refine Prog.Keeps.bind (h.runtimeHandle _) fun _ =>
    Prog.Keeps.ensure (Prog.Keeps.bind (h.arrive _) fun _ => ?_) (h.step _)
  cases call.outcome with
  | error failure => exact Prog.Keeps.raise _
  | ok value => exact Prog.Keeps.bind (h.arrive _) fun _ => Prog.Keeps.pure _

theorem computeUnits (h : Tidy inv) (hit : UnitsHit) (moment : String) :
    Prog.Keeps inv (computeUnits hit moment) := by
  refine Prog.Keeps.bind (h.arrive _) fun _ => Prog.Keeps.get_bind fun s hs => ?_
  have hread := readComputeUnits_onlyHints hit.answer moment s.env
  exact Prog.Keeps.bind (h.arrive _) (fun _ => Prog.Keeps.pure _) { s with env := _ }
    (h.hints s _ hread hs)

/-!
## The steps of the `finally` block
-/

theorem stopKeepAlive (h : Tidy inv) (hit : Hit) : Prog.Keeps inv (stopKeepAlive hit) :=
  Prog.Keeps.bind Prog.Keeps.get fun _ =>
    Prog.Keeps.ite (h.step _) (Prog.Keeps.pure _)

theorem dropSession (h : Tidy inv) (hit : Hit) (jobId : String) :
    Prog.Keeps inv (dropSession hit jobId) :=
  Prog.Keeps.bind Prog.Keeps.get fun _ =>
    Prog.Keeps.ite (catching_keeps (h.step _) fun _ =>
      h.addHint _) (Prog.Keeps.pure _)

theorem closeRuntime (h : Tidy inv) (hit : Hit) : Prog.Keeps inv (closeRuntime hit) :=
  Prog.Keeps.bind Prog.Keeps.get fun _ =>
    Prog.Keeps.ite (Prog.Keeps.bind (h.modify fun _ => ⟨rfl, rfl, rfl, rfl⟩)
      fun _ => catching_keeps (h.step _) fun _ => h.addHint _)
      (Prog.Keeps.pure _)

theorem copyRecordsBeforeRelease (h : Tidy inv) (a : CleanupHit) :
    Prog.Keeps inv (copyRecordsBeforeRelease a) := by
  refine Prog.Keeps.bind (catching_keeps (Prog.Keeps.bind (h.jobTransport _)
    fun _ => Prog.Keeps.pure _) fun _ => Prog.Keeps.pure _) fun made => ?_
  cases made with
  | some text => exact h.addHint _
  | none =>
      exact Prog.Keeps.bind (h.arrive _) fun _ =>
        Prog.Keeps.bind (h.addHint _) fun _ => h.arrive _

theorem cleanupSecretChannel (h : Tidy inv) (a : SecretHit) :
    Prog.Keeps inv (cleanupSecretChannel a) := by
  refine Prog.Keeps.bind Prog.Keeps.get fun _ => Prog.Keeps.ite (Prog.Keeps.pure _) ?_
  refine Prog.Keeps.ite (Prog.Keeps.bind (h.modify fun _ => ⟨rfl, rfl, rfl, rfl⟩)
    fun _ => Prog.Keeps.pure _) ?_
  refine Prog.Keeps.bind (catching_keeps (Prog.Keeps.bind (h.executeCode _ _ _)
    fun _ => Prog.Keeps.pure _) fun _ => Prog.Keeps.pure _) fun kernel => ?_
  refine Prog.Keeps.bind (catching_keeps (Prog.Keeps.bind (h.jobTransport _)
    fun _ => Prog.Keeps.bind (h.arrive _) fun _ => ?_) fun _ => Prog.Keeps.pure _)
    fun contents => Prog.Keeps.bind (h.arrive _) fun _ => ?_
  · cases a.remove with
    | error text => exact Prog.Keeps.raise _
    | ok status =>
        exact Prog.Keeps.bind (h.arrive _) fun _ => Prog.Keeps.pure _
  · exact Prog.Keeps.ite
      (Prog.Keeps.bind (h.modify fun _ => ⟨rfl, rfl, rfl, rfl⟩) fun _ =>
        Prog.Keeps.pure _)
      (Prog.Keeps.bind (h.modify fun _ => ⟨rfl, rfl, rfl, rfl⟩) fun _ =>
        Prog.Keeps.pure _)

theorem removeSecret (h : Tidy inv) (a : SecretHit) : Prog.Keeps inv (removeSecret a) :=
  Prog.Keeps.bind Prog.Keeps.get fun _ =>
    Prog.Keeps.ite (Prog.Keeps.pure _) (h.cleanupSecretChannel a)

theorem letGo (h : Tidy inv) (plan : Plan) (a : FinallyHit) :
    Prog.Keeps inv (letGo plan a) := by
  refine Prog.Keeps.bind (h.arrive _) fun _ => Prog.Keeps.bind (h.step _)
    fun _ => Prog.Keeps.bind (Prog.Keeps.bind Prog.Keeps.get fun _ => Prog.Keeps.ite
      (Prog.Keeps.bind (catching_keeps (Prog.Keeps.bind (h.step _) fun _ =>
        Prog.Keeps.pure _) fun _ => Prog.Keeps.pure _) fun failure => ?_)
      (Prog.Keeps.pure _)) fun _ => h.arrive _
  cases failure with
  | none => exact Prog.Keeps.pure _
  | some text =>
      exact Prog.Keeps.bind (h.addHint _) fun _ => h.persist _

theorem detach (h : Tidy inv) (a : FinallyHit) : Prog.Keeps inv (detach a) :=
  Prog.Keeps.bind (h.closeRuntime _) fun _ => h.persist _

theorem cleanup (h : Tidy inv) (a : CleanupHit) (jobId : String) (leaveUp : Bool)
    (habsent : Prog.Keeps inv
      (updates a.gaps [fun env => { env with cleanup := .alreadyAbsent }]))
    (hkept : Prog.Keeps inv (updates a.gaps [fun env => recordVmKept env jobId]))
    (hrelease : forall endpoint, Prog.Keeps inv
      (releaseAssignment a.release endpoint >>= recordRelease a jobId endpoint)) :
    Prog.Keeps inv (cleanup a jobId leaveUp) := by
  refine Prog.Keeps.bind (h.closeRuntime _) fun _ =>
    Prog.Keeps.bind (h.setPhase _ _) fun _ => Prog.Keeps.bind Prog.Keeps.get fun s => ?_
  split
  · exact Prog.Keeps.bind (h.stopKeepAlive _) fun _ =>
      Prog.Keeps.bind (h.dropSession _ _) fun _ =>
        Prog.Keeps.bind habsent fun _ => h.persist _
  · exact Prog.Keeps.ite (Prog.Keeps.bind hkept fun _ => h.persist _)
      (Prog.Keeps.bind (h.copyRecordsBeforeRelease _) fun _ =>
        Prog.Keeps.bind (h.stopKeepAlive _) fun _ => Prog.Keeps.ensure (hrelease _)
          (Prog.Keeps.bind (h.dropSession _ _) fun _ => h.persist _))

theorem finallyBlock (h : Tidy inv) (plan : Plan) (a : FinallyHit)
    (hverdict : forall problem, Prog.Keeps inv (updates a.gaps (secretKeptVerdict problem)))
    (hcleanup : forall leaveUp, Prog.Keeps inv (Apply.cleanup a.cleanup plan.jobId leaveUp)) :
    Prog.Keeps inv (finallyBlock plan a) := by
  refine Prog.Keeps.bind (h.arrive _) fun _ =>
    Prog.Keeps.bind (h.removeSecret _) fun removed =>
      Prog.Keeps.bind (Prog.Keeps.bind Prog.Keeps.get fun s => ?_) fun _ => h.letGo plan a
  exact Prog.Keeps.bind (Prog.Keeps.ite (Prog.Keeps.pure _) (hverdict _)) fun _ =>
    Prog.Keeps.ite (h.detach a) (hcleanup _)

end Tidy

structure Robust (inv : Proc -> Prop) : Prop extends Tidy inv where
  edit : forall s env, env.endpoint = s.env.endpoint -> env.cleanup = s.env.cleanup ->
    inv s -> inv { s with env }
  hints := fun s env h hs =>
    edit s env (h.same JobEnvelope.endpoint) (h.same JobEnvelope.cleanup) hs
  phase := fun s phase hs => edit s { s.env with phase } rfl rfl hs

namespace Robust

/-!
## Elementary steps
-/

theorem modifyEnv (h : Robust inv) {f : JobEnvelope -> JobEnvelope} (hf : Mild f) :
    Prog.Keeps inv (modifyEnv f) :=
  fun s hs => h.edit s (f s.env) (hf s.env).left (hf s.env).right hs

theorem updates (h : Robust inv) (gaps : Gaps) {fs : List (JobEnvelope -> JobEnvelope)}
    (hfs : forall f, f ∈ fs -> Mild f) : Prog.Keeps inv (updates gaps fs) :=
  updates_keeps h.arrive fs gaps fun f hf => h.modifyEnv (hfs f hf)

/-!
## Install to launch
-/

theorem install (h : Robust inv) (spec : JobSpec) (a : Install) :
    Prog.Keeps inv (install spec a) := by
  refine Prog.Keeps.ite (Prog.Keeps.pure _) (Prog.Keeps.bind (h.setPhase _ _) fun _ =>
    Prog.Keeps.bind (h.executeCode _ _ _) fun outcome => ?_)
  cases outcome with
  | error refusal => exact Prog.Keeps.raise _
  | ok hints => exact h.modifyEnv fun _ => ⟨rfl, rfl⟩

theorem restart (h : Robust inv) (spec : JobSpec) (a : Restart) :
    Prog.Keeps inv (restart spec a) := by
  refine Prog.Keeps.ite (Prog.Keeps.pure _) (Prog.Keeps.bind (h.setPhase _ _) fun _ =>
    Prog.Keeps.bind (h.runtimeHandle _) fun _ =>
      Prog.Keeps.ensure (Prog.Keeps.bind (h.arrive _) fun _ => ?_) (h.step _))
  cases a.failure with
  | some failure => exact Prog.Keeps.raise _
  | none => exact h.arrive _

theorem verify (h : Robust inv) (a : Verify) : Prog.Keeps inv (verify a) := by
  refine Prog.Keeps.bind (h.setPhase _ _) fun _ =>
    Prog.Keeps.bind (h.executeCode _ _ _) fun outcome => ?_
  cases outcome with
  | error refusal => exact Prog.Keeps.raise _
  | ok hint =>
      refine Prog.Keeps.bind (h.modifyEnv (mild_addHint hint)) fun _ => ?_
      cases a.checks with
      | some refusal => exact Prog.Keeps.raise _
      | none => exact h.persist _

theorem prepareSecretChannel (h : Robust inv) (call : Kernel (Option String)) :
    Prog.Keeps inv (prepareSecretChannel call) := by
  refine Prog.Keeps.bind (h.executeCode _ _ _) fun outcome => ?_
  cases outcome with
  | some text => exact Prog.Keeps.raise _
  | none => exact h.modify fun _ => ⟨rfl, rfl, rfl, rfl⟩

theorem stagePayload (h : Robust inv) (spec : JobSpec) (a : Stage) :
    Prog.Keeps inv (stagePayload spec a) := by
  refine Prog.Keeps.bind (h.setPhase _ _) fun _ =>
    Prog.Keeps.bind (Prog.Keeps.ite (h.prepareSecretChannel _) (Prog.Keeps.pure _))
      fun _ => Prog.Keeps.bind (h.arrive _) fun _ => ?_
  cases a.upload.error with
  | some error => exact Prog.Keeps.raise _
  | none =>
      exact Prog.Keeps.bind (h.modify fun _ => ⟨rfl, rfl, rfl, rfl⟩) fun _ => h.arrive _

theorem sealSecretChannel (h : Robust inv) (call : Kernel (Option String)) :
    Prog.Keeps inv (sealSecretChannel call) := by
  refine Prog.Keeps.bind (h.executeCode _ _ _) fun outcome => ?_
  cases outcome with
  | some text => exact Prog.Keeps.raise _
  | none => exact Prog.Keeps.pure _

theorem markRunning (h : Robust inv) (a : Launch) (hint : Option String) :
    Prog.Keeps inv (markRunning a hint) := by
  refine Prog.Keeps.bind (h.updates _ fun f hf => ?_) fun _ => h.persist _
  simp only [List.mem_cons, List.not_mem_nil, or_false] at hf
  rcases hf with rfl | rfl | rfl <;> exact fun _ => ⟨rfl, rfl⟩

theorem launch (h : Robust inv) (a : Launch) : Prog.Keeps inv (launch a) := by
  refine Prog.Keeps.bind (h.setPhase _ _) fun _ =>
    Prog.Keeps.bind (Prog.Keeps.attempt (Prog.Keeps.bind (h.executeCode _ _ _) fun _ =>
      Prog.Keeps.pure _) fun e => ?_) fun reply => ?_
  · cases e with
    | phase error => exact Prog.Keeps.ite (Prog.Keeps.pure _) (Prog.Keeps.raise _)
    | keyboard => exact Prog.Keeps.raise _
    | stopped signal => exact Prog.Keeps.raise _
    | exception text => exact Prog.Keeps.raise _
    | exit code => exact Prog.Keeps.raise _
  · rcases reply with reason | text | pid
    · exact Prog.Keeps.bind (h.markRunning _ _) fun _ => Prog.Keeps.pure _
    · exact Prog.Keeps.raise _
    · exact Prog.Keeps.bind (h.markRunning _ _) fun _ =>
        Prog.Keeps.bind (h.step _) fun _ => Prog.Keeps.pure _

/-!
## Edits that replace the envelope
-/

def Pinned (inv : Proc -> Prop) (env : JobEnvelope) (s : Proc) : Prop :=
  inv s ∧ s.env.endpoint = env.endpoint ∧ s.env.cleanup = env.cleanup

theorem pinned (h : Robust inv) (env : JobEnvelope) : Robust (Pinned inv env) where
  own s t henv hdisk hlog hlive hs := by
    refine ⟨h.own s t henv hdisk hlog hlive hs.left, ?_⟩
    rw [henv]
    exact hs.right
  edit s env' hend hclean hs :=
    ⟨h.edit s env' hend hclean hs.left, hend.trans hs.right.left,
      hclean.trans hs.right.right⟩
  write s hs := ⟨h.write s hs.left, hs.right⟩

theorem replace (h : Robust inv) {env env' : JobEnvelope}
    (hend : env'.endpoint = env.endpoint) (hclean : env'.cleanup = env.cleanup) :
    Prog.Keeps (Pinned inv env) (Apply.modifyEnv fun _ => env') :=
  fun s hs =>
    ⟨h.edit s env' (hend.trans hs.right.left.symm) (hclean.trans hs.right.right.symm)
      hs.left, hend, hclean⟩

theorem get_pinned {result : Type} {f : Proc -> Program result}
    (hf : forall s, Prog.Keeps (Pinned inv s.env) (f s)) :
    Prog.Keeps inv (Prog.get >>= f) :=
  fun s hs => (hf s s ⟨hs, rfl, rfl⟩).left

/-!
## The poll
-/

theorem partlySet_same {k : Nat} {old new : JobEnvelope}
    (hend : new.endpoint = old.endpoint) (hclean : new.cleanup = old.cleanup) :
    (partlySet k old new).endpoint = old.endpoint ∧
      (partlySet k old new).cleanup = old.cleanup := by
  constructor
  · simp only [partlySet]
    split
    · exact hend
    · rfl
  · simp only [partlySet]
    split
    · exact hclean
    · rfl

theorem setPartly (h : Robust inv) (during : Option (Signal × Nat))
    {env env' : JobEnvelope} (hend : env'.endpoint = env.endpoint)
    (hclean : env'.cleanup = env.cleanup) :
    Prog.Keeps (Pinned inv env) (setPartly during env') := by
  cases during with
  | none => exact Prog.Keeps.pure _
  | some cut =>
      refine Prog.Keeps.bind (fun s hs => ?_) fun _ => (h.pinned env).arrive _
      rcases partlySet_same (k := cut.2) (hend.trans hs.right.left.symm)
        (hclean.trans hs.right.right.symm) with ⟨hend', hclean'⟩
      exact ⟨h.edit s _ hend' hclean' hs.left, hend'.trans hs.right.left,
        hclean'.trans hs.right.right⟩

theorem absorbResult (h : Robust inv) (spec : JobSpec) (hit : AbsorbHit)
    (result : Json.Fields) : Prog.Keeps inv (absorbResult spec hit result) := by
  refine Prog.Keeps.bind (h.arrive _) fun _ => get_pinned fun s => ?_
  rcases habsorb : Absorb.absorbResult s.env spec result hit.now with error | env
  · exact Prog.Keeps.pure _
  · rcases Absorb.absorbResult_spec habsorb with ⟨hvm, _⟩
    refine Prog.Keeps.bind (h.setPartly _ hvm.endpoint hvm.cleanup) fun _ => ?_
    refine Prog.Keeps.bind (h.replace hvm.endpoint hvm.cleanup) fun _ => ?_
    exact Prog.Keeps.bind ((h.pinned s.env).arrive _) fun _ => Prog.Keeps.pure _

theorem keepAbsorbed (h : Robust inv) (hit : AbsorbHit) :
    Prog.Keeps inv (keepAbsorbed hit) := by
  refine Prog.Keeps.bind (h.updates _ fun f hf => ?_) fun _ => h.persist _
  rw [List.mem_singleton.mp hf]
  exact fun _ => ⟨rfl, rfl⟩

theorem recoverControlResult (h : Robust inv) (spec : JobSpec) (a : Finish) :
    Prog.Keeps inv (recoverControlResult spec a) := by
  unfold Apply.recoverControlResult
  split
  · exact Prog.Keeps.pure _
  · refine Prog.Keeps.bind (h.arrive _) fun _ => ?_
    split
    · exact Prog.Keeps.bind (h.modifyEnv (mild_addHint _)) fun _ => Prog.Keeps.pure _
    · refine Prog.Keeps.bind (h.arrive _) fun _ => ?_
      simp only
      split
      · exact Prog.Keeps.raise _
      · exact Prog.Keeps.pure _
      · exact Prog.Keeps.bind (h.modifyEnv (mild_addHint _)) fun _ => Prog.Keeps.pure _

theorem finishWithoutResult (h : Robust inv) (spec : JobSpec) :
    forall (endings : List Finish) (reason : String),
      Prog.Keeps inv (finishWithoutResult spec endings reason)
  | [], _ => Prog.Keeps.raise _
  | a :: rest, reason => by
      refine Prog.Keeps.bind (h.recoverControlResult spec a) fun recovered => ?_
      cases recovered with
      | some result =>
          refine Prog.Keeps.bind (h.absorbResult spec a.absorb result) fun error =>
            Prog.Keeps.bind ?_ fun _ => h.modifyEnv (mild_addHint _)
          cases error with
          | some error => exact h.finishWithoutResult spec rest _
          | none => exact h.keepAbsorbed _
      | none =>
          refine Prog.Keeps.bind (h.updates _ fun f hf => ?_) fun _ =>
            Prog.Keeps.bind (h.arrive _) fun _ => h.persist _
          simp only [unknownVerdict, List.mem_cons, List.not_mem_nil, or_false] at hf
          rcases hf with rfl | rfl | rfl | rfl | rfl | rfl | rfl <;>
            exact fun _ => ⟨rfl, rfl⟩

theorem absorbOrKeep (h : Robust inv) (spec : JobSpec) (hit : AbsorbHit)
    (endings : List Finish) (result : Json.Fields) :
    Prog.Keeps inv (absorbOrKeep spec hit endings result) := by
  refine Prog.Keeps.bind (h.absorbResult spec hit result) fun error => ?_
  cases error with
  | some error => exact h.finishWithoutResult spec endings _
  | none => exact h.keepAbsorbed _

theorem readJson (h : Robust inv) (hit : ReadHit) : Prog.Keeps inv (readJson hit) := by
  refine Prog.Keeps.bind (h.arrive _) fun _ => ?_
  cases hit.read with
  | error text => exact Prog.Keeps.raise _
  | ok read => exact Prog.Keeps.bind (h.arrive _) fun _ => Prog.Keeps.pure _

theorem runnerGone (h : Robust inv) (spec : JobSpec) (t : Tick) (reason : String) :
    Prog.Keeps inv (runnerGone spec t reason) := by
  refine Prog.Keeps.bind (Prog.Keeps.bind (h.readJson _) fun read => ?_) fun late =>
    Prog.Keeps.ite (Prog.Keeps.pure _) (h.finishWithoutResult spec _ _)
  cases okRecord read with
  | some result =>
      exact Prog.Keeps.bind (h.absorbOrKeep spec _ _ _) fun _ => Prog.Keeps.pure _
  | none => exact Prog.Keeps.pure _

theorem watchdogRead (h : Robust inv) (spec : JobSpec) (t : Tick)
    (record : Json.Fields) : Prog.Keeps inv (watchdogRead spec t record) := by
  refine Prog.Keeps.bind Prog.Keeps.get fun s => ?_
  refine Prog.Keeps.bind (fun s' hs' => ?_) fun _ => ?_
  · refine h.own { s' with env := _ } _ rfl rfl rfl rfl (h.edit s' _ ?_ ?_ hs') <;> rfl
  · split
    · exact Prog.Keeps.bind (h.runnerGone spec t _) fun _ => Prog.Keeps.pure _
    · exact Prog.Keeps.pure _

theorem launchRead (h : Robust inv) (spec : JobSpec) (t : Tick) :
    Prog.Keeps inv (launchRead spec t) := by
  refine Prog.Keeps.bind Prog.Keeps.get fun s => ?_
  split
  · exact Prog.Keeps.pure _
  · refine Prog.Keeps.ite (Prog.Keeps.pure _) ?_
    refine Prog.Keeps.bind (h.readJson _) fun read => ?_
    refine Prog.Keeps.bind (h.modify fun s => ?_) fun _ => ?_
    · split
      · exact ⟨rfl, rfl, rfl, rfl⟩
      · split <;> exact ⟨rfl, rfl, rfl, rfl⟩
    · refine Prog.Keeps.bind Prog.Keeps.get fun s => Prog.Keeps.ite ?_ (Prog.Keeps.pure _)
      exact Prog.Keeps.bind (h.runnerGone spec t _) fun _ => Prog.Keeps.pure _

theorem healthy (h : Robust inv) (spec : JobSpec) (t : Tick) :
    Prog.Keeps inv (healthy spec t) := by
  refine Prog.Keeps.bind (h.modifyEnv fun _ => ⟨rfl, rfl⟩) fun _ =>
    Prog.Keeps.bind (h.readJson _) fun watchdog =>
      Prog.Keeps.bind Prog.Keeps.get fun s => Prog.Keeps.bind ?_ fun ended =>
        Prog.Keeps.ite (Prog.Keeps.pure _)
          (Prog.Keeps.bind (h.arrive _) fun _ => Prog.Keeps.pure _)
  cases okRecord watchdog with
  | some record => exact h.watchdogRead spec t record
  | none => exact Prog.Keeps.ite (h.launchRead spec t) (Prog.Keeps.pure _)

theorem tick (h : Robust inv) (spec : JobSpec) (t : Tick) (degraded : Nat) :
    Prog.Keeps inv (tick spec t degraded) := by
  refine Prog.Keeps.bind (h.readJson _) fun read => ?_
  cases okRecord read with
  | some result =>
      exact Prog.Keeps.bind (h.absorbOrKeep spec _ _ _) fun _ => Prog.Keeps.pure _
  | none =>
      refine Prog.Keeps.ite (Prog.Keeps.bind Prog.Keeps.get fun s =>
        Prog.Keeps.bind (h.finishWithoutResult spec _ _) fun _ => Prog.Keeps.pure _) ?_
      refine Prog.Keeps.bind (Prog.Keeps.ite
        (Prog.Keeps.bind (h.modifyEnv fun _ => ⟨rfl, rfl⟩) fun _ => Prog.Keeps.pure _)
        (h.healthy spec t)) fun ended => Prog.Keeps.ite (Prog.Keeps.pure _) ?_
      exact Prog.Keeps.bind (h.persist _) fun _ =>
        Prog.Keeps.bind (h.arrive _) fun _ => Prog.Keeps.pure _

theorem deadlinePassed (h : Robust inv) (a : Deadline) :
    Prog.Keeps inv (deadlinePassed a) := by
  refine Prog.Keeps.bind Prog.Keeps.get fun s =>
    Prog.Keeps.bind (h.updates _ fun f hf => ?_) fun _ => h.persist _
  simp only [List.mem_cons, List.not_mem_nil, or_false] at hf
  rcases hf with rfl | rfl | rfl <;> exact fun _ => ⟨rfl, rfl⟩

theorem poll (h : Robust inv) (spec : JobSpec) (deadline : Rat) (a : Deadline) :
    forall (ticks : List Tick) (degraded : Nat),
      Prog.Keeps inv (poll spec deadline a ticks degraded)
  | [], _ => fun _ hs => hs
  | t :: rest, degraded =>
      Prog.Keeps.ite
        (Prog.Keeps.bind (h.tick spec t degraded) fun _ =>
          Prog.Keeps.ite (Prog.Keeps.pure _) (h.poll spec deadline a rest _))
        (h.deadlinePassed a)

theorem cancelAfterDeadline (h : Robust inv) (spec : JobSpec)
    (passed requester : String) (a : CancelHit) :
    Prog.Keeps inv (cancelAfterDeadline spec passed requester a) := by
  refine Prog.Keeps.bind (h.arrive _) fun _ => Prog.Keeps.bind (h.arrive _) fun _ =>
    Prog.Keeps.bind ?_ fun _ =>
      Prog.Keeps.bind (h.modifyEnv (mild_addHint _)) fun _ => h.persist _
  unfold cancelOutcome
  simp only
  split
  · refine Prog.Keeps.bind (h.absorbOrKeep spec _ _ _) fun _ =>
      h.updates _ fun f hf => ?_
    simp only [List.mem_cons, List.not_mem_nil, or_false] at hf
    rcases hf with rfl | rfl | rfl <;> exact fun _ => ⟨rfl, rfl⟩
  · exact h.finishWithoutResult spec _ _

/-!
## The handlers
-/

theorem runStopped (h : Robust inv) (plan : Plan) (a : Handler) (stop : Stop) :
    Prog.Keeps inv (runStopped plan a stop) := by
  refine Prog.Keeps.bind Prog.Keeps.get fun s => Prog.Keeps.ite ?_ ?_
  · refine h.updates _ fun f hf => ?_
    simp only [cancelledVerdict, List.mem_cons, List.not_mem_nil, or_false] at hf
    rcases hf with rfl | rfl | rfl | rfl | rfl | rfl <;> exact fun _ => ⟨rfl, rfl⟩
  · have hverdict : forall reason hints f, f ∈ interruptedVerdict reason hints ->
        Mild f := by
      intro reason hints f hf
      simp only [interruptedVerdict, List.mem_cons, List.not_mem_nil, or_false] at hf
      rcases hf with rfl | rfl | rfl | rfl <;> exact fun _ => ⟨rfl, rfl⟩
    cases stop with
    | signal signal =>
        exact Prog.Keeps.bind (h.arrive _) fun _ =>
          Prog.Keeps.bind (h.modify fun _ => ⟨rfl, rfl, rfl, rfl⟩) fun _ =>
            h.updates _ (hverdict _ _)
    | keyboard => exact h.updates _ (hverdict _ _)

theorem handle (h : Robust inv) (args : Args) (a : Handler) (e : Raise) :
    Prog.Keeps inv (handle args a e) := by
  cases e with
  | phase error =>
      refine h.updates _ fun f hf => ?_
      simp only [List.mem_cons, List.not_mem_nil, or_false] at hf
      rcases hf with rfl | rfl | rfl | rfl | rfl | rfl | rfl | rfl | rfl <;>
        exact fun _ => ⟨rfl, rfl⟩
  | keyboard => exact h.runStopped _ _ _
  | stopped signal => exact h.runStopped _ _ _
  | exception text =>
      refine Prog.Keeps.ite (Prog.Keeps.raise _) (h.updates _ fun f hf => ?_)
      simp only [List.mem_cons, List.not_mem_nil, or_false] at hf
      rcases hf with rfl | rfl | rfl | rfl | rfl | rfl | rfl | rfl <;>
        exact fun _ => ⟨rfl, rfl⟩
  | exit code => exact Prog.Keeps.raise _

theorem afterProvision (h : Robust inv) (args : Args) (a : Body) {s : Proc}
    (hprovision : inv (provision args.plan a.provision s).2) :
    inv (body args a s).2 := by
  refine Prog.Keeps.after_bind hprovision fun _ =>
    Prog.Keeps.bind (h.install _ _) fun _ => Prog.Keeps.bind (h.restart _ _) fun _ =>
    Prog.Keeps.bind (h.verify _) fun _ => Prog.Keeps.bind (h.stagePayload _ _) fun _ =>
    Prog.Keeps.bind (h.sealSecretChannel _) fun _ =>
    Prog.Keeps.bind (h.launch _) fun launched => Prog.Keeps.bind (h.arrive _) fun _ =>
    Prog.Keeps.bind (h.modify fun _ => ⟨rfl, rfl, rfl, rfl⟩) fun _ =>
    Prog.Keeps.bind (h.jobTransport _) fun _ => ?_
  exact Prog.Keeps.bind (h.poll _ _ _ _ _) fun _ =>
    Prog.Keeps.bind Prog.Keeps.get fun s =>
      Prog.Keeps.ite (h.cancelAfterDeadline _ _ _ _) (Prog.Keeps.pure _)

/-!
## The `finally` block
-/

theorem secretKeptVerdict_mild {problem : Option String} {f : JobEnvelope -> JobEnvelope}
    (hf : f ∈ secretKeptVerdict problem) : Mild f := by
  simp only [secretKeptVerdict, List.mem_cons, List.not_mem_nil, or_false] at hf
  rcases hf with rfl | rfl | rfl <;> exact fun _ => ⟨rfl, rfl⟩

theorem finallyBlock (h : Robust inv) (plan : Plan) (a : FinallyHit)
    (hcleanup : forall leaveUp, Prog.Keeps inv (cleanup a.cleanup plan.jobId leaveUp)) :
    Prog.Keeps inv (finallyBlock plan a) :=
  h.toTidy.finallyBlock plan a
    (fun _ => h.updates _ fun _ hf => secretKeptVerdict_mild hf) hcleanup

end Robust

/-!
## Provision
-/

def afterUnassign (hit : ReleaseHit) (endpoint : String) (s : Proc) : Proc :=
  let s := { s with log := .release endpoint :: s.log }
  if hit.reclaimed || (hit.failure.all fun failure => failure.2) then
    { s with live := s.live.filter (· ≠ endpoint) }
  else s

theorem confirmed_keeps {s : Proc} {endpoint : String} (outcome : Cleanup) (hs : inv s)
    (hconfirm : inv { s with log := .absent endpoint :: s.log }) :
    inv (confirmed endpoint outcome s) := by
  unfold confirmed
  split
  · exact hs
  · exact hconfirm

theorem releaseAssignment_keeps (hit : ReleaseHit) (endpoint : String)
    (harrive : forall signal, Prog.Keeps inv (arrive signal))
    (hsend : forall s, inv s -> inv (afterUnassign hit endpoint s))
    (hconfirm : forall s, inv s -> inv { s with log := .absent endpoint :: s.log }) :
    Prog.Keeps inv (releaseAssignment hit endpoint) := by
  refine Prog.Keeps.bind (harrive _) fun _ s hs => ?_
  refine Prog.Keeps.bind (harrive hit.during) (fun _ => Prog.Keeps.bind Prog.Keeps.get
    fun _ => Prog.Keeps.bind (Prog.Keeps.modify fun t ht =>
      confirmed_keeps _ ht (hconfirm t ht)) fun _ =>
        Prog.Keeps.bind (harrive _) fun _ => Prog.Keeps.pure _) _ (hsend s hs)

structure Loose (inv : Proc -> Prop) : Prop where
  vm : forall s t, t.env.cleanup = s.env.cleanup -> t.disk = s.disk -> inv s -> inv t
  write : forall s, inv s -> inv { s with disk := some s.env, log := .wrote s.env :: s.log }

namespace Loose

theorem robust (h : Loose inv) : Robust inv where
  own s t henv hdisk _ _ hs := h.vm s t (by rw [henv]) hdisk hs
  edit s _ _ hclean hs := h.vm s _ hclean rfl hs
  write := h.write

theorem modify (h : Loose inv) {f : Proc -> Proc}
    (hf : forall s, (f s).env.cleanup = s.env.cleanup ∧ (f s).disk = s.disk) :
    Prog.Keeps inv (Prog.modify f : Program Unit) :=
  fun s hs => h.vm s (f s) (hf s).left (hf s).right hs

theorem modifyEnv (h : Loose inv) {f : JobEnvelope -> JobEnvelope}
    (hf : forall env, (f env).cleanup = env.cleanup) : Prog.Keeps inv (modifyEnv f) :=
  h.modify fun s => ⟨hf s.env, rfl⟩

theorem updates (h : Loose inv) (gaps : Gaps) {fs : List (JobEnvelope -> JobEnvelope)}
    (hfs : forall f, f ∈ fs -> forall env, (f env).cleanup = env.cleanup) :
    Prog.Keeps inv (updates gaps fs) :=
  updates_keeps h.robust.arrive fs gaps fun f hf => h.modifyEnv (hfs f hf)

theorem releaseAssignment (h : Loose inv) (hit : ReleaseHit) (endpoint : String) :
    Prog.Keeps inv (releaseAssignment hit endpoint) := by
  refine releaseAssignment_keeps hit endpoint h.robust.arrive (fun s hs => ?_)
    fun s hs => h.vm s _ rfl rfl hs
  refine h.vm s _ ?_ ?_ hs <;>
  · simp only [afterUnassign]
    split <;> rfl

theorem assign (h : Loose inv) (c : Candidate) : Prog.Keeps inv (assign c) := by
  refine Prog.Keeps.bind (h.robust.arrive _) fun _ => ?_
  cases c.outcome with
  | granted grant =>
      exact Prog.Keeps.bind (h.modify fun _ => ⟨rfl, rfl⟩) fun _ =>
        Prog.Keeps.bind (h.robust.arrive _) fun _ => Prog.Keeps.pure _
  | failed error lost =>
      refine Prog.Keeps.bind (h.modify fun _ => ?_) fun _ =>
        Prog.Keeps.bind (h.robust.arrive _) fun _ => Prog.Keeps.pure _
      cases lost <;> exact ⟨rfl, rfl⟩

theorem releaseForScope (h : Loose inv) (hit : KeepAliveHit) (endpoint : String) :
    Prog.Keeps inv (releaseForScope hit endpoint) := by
  refine Prog.Keeps.bind (h.releaseAssignment _ _) fun released => ?_
  simp only
  split
  · refine Prog.Keeps.bind (h.updates _ fun f hf => ?_) fun _ => Prog.Keeps.raise _
    rw [List.mem_singleton.mp hf]
    exact fun _ => rfl
  · refine Prog.Keeps.bind (h.updates _ fun f hf => ?_) fun _ =>
      Prog.Keeps.bind (h.modify fun _ => ⟨rfl, rfl⟩) fun _ => Prog.Keeps.raise _
    simp only [List.mem_cons, List.not_mem_nil, or_false] at hf
    rcases hf with rfl | rfl <;> exact fun _ => rfl

theorem startKeepAlive (h : Loose inv) (hit : KeepAliveHit) (endpoint : String) :
    Prog.Keeps inv (startKeepAlive hit endpoint) := by
  refine Prog.Keeps.bind Prog.Keeps.get fun s => Prog.Keeps.ite (h.robust.step _) ?_
  refine Prog.Keeps.bind (Prog.Keeps.bind (h.robust.arrive _) fun _ =>
    Prog.Keeps.bind (h.robust.arrive _) fun _ => ?_) fun _ =>
    Prog.Keeps.bind (h.robust.step _) fun _ =>
      Prog.Keeps.bind (catching_keeps (h.robust.step _) fun _ => Prog.Keeps.raise _)
        fun _ => Prog.Keeps.bind (h.modify fun _ => ⟨rfl, rfl⟩) fun _ => h.robust.step _
  cases hit.ping with
  | accepted => exact Prog.Keeps.pure _
  | tolerated hint => exact h.modifyEnv fun _ => rfl
  | scope => exact h.releaseForScope hit endpoint

theorem useGrant (h : Loose inv) (jobId : String) (c : Candidate) (want : String)
    (grant : Grant) (attempts : List ProvisionAttempt) :
    Prog.Keeps inv (useGrant jobId c want grant attempts) := by
  refine Prog.Keeps.bind (h.robust.step _) fun _ =>
    Prog.Keeps.bind (h.modify fun _ => ⟨rfl, rfl⟩) fun _ =>
      Prog.Keeps.bind (h.updates _ fun f hf => ?_) fun _ =>
        Prog.Keeps.bind (h.robust.persist _) fun _ =>
          Prog.Keeps.bind (h.startKeepAlive _ _) fun _ =>
            Prog.Keeps.bind (h.robust.computeUnits _ _) fun _ =>
              Prog.Keeps.bind (h.modifyEnv fun _ => rfl) fun _ => h.robust.step _
  rw [List.mem_singleton.mp hf]
  exact fun _ => rfl

theorem tryCandidates (h : Loose inv) (jobId : String) (all : List String) :
    forall (wants : List String) (answers : Nat -> Candidate)
      (attempts : List ProvisionAttempt),
      Prog.Keeps inv (tryCandidates jobId all wants answers attempts)
  | [], _, _ => Prog.Keeps.bind (h.modifyEnv fun _ => rfl) fun _ => Prog.Keeps.raise _
  | want :: rest, answers, attempts => by
      refine Prog.Keeps.bind (h.robust.arrive _) fun _ =>
        Prog.Keeps.bind (h.modifyEnv fun _ => rfl) fun _ =>
          Prog.Keeps.bind (h.assign _) fun outcome => ?_
      cases outcome with
      | error error =>
          refine Prog.Keeps.ite (Prog.Keeps.bind (h.modifyEnv fun _ => rfl) fun _ =>
            Prog.Keeps.raise _) ?_
          exact Prog.Keeps.bind (h.robust.step _) fun _ => h.tryCandidates jobId all rest _ _
      | ok grant =>
          simp only
          split
          · exact Prog.Keeps.raise _
          · refine Prog.Keeps.bind (h.updates _ fun f hf => ?_) fun _ =>
              Prog.Keeps.ite (Prog.Keeps.bind (h.releaseAssignment _ _) fun released =>
                Prog.Keeps.ite (Prog.Keeps.raise _) (Prog.Keeps.bind
                  (h.updates _ fun f hf => ?_) fun _ => h.tryCandidates jobId all rest _ _))
                (h.useGrant _ _ _ _ _)
            · simp only [List.mem_cons, List.not_mem_nil, or_false] at hf
              rcases hf with rfl | rfl <;> exact fun _ => rfl
            · rw [List.mem_singleton.mp hf]
              exact fun _ => rfl

theorem supervised (h : Loose inv) (args : Args) (a : Answers) :
    Prog.Keeps inv (supervised args a) :=
  Prog.Keeps.attempt
    (fun s hs => h.robust.afterProvision args a.body
      (Prog.Keeps.bind (h.robust.setPhase _ _) (fun _ => h.tryCandidates _ _ _ _ _) s hs))
    fun e => h.robust.handle args a.handler e

end Loose

theorem supervised_pending (args : Args) (a : Answers) (disk : Option JobEnvelope) :
    (supervised args a (start args disk)).2.env.cleanup = .pending := by
  have hloose : Loose fun s => s.env.cleanup = .pending :=
    { vm := fun s t hclean _ hs => hclean.trans hs
      write := fun _ hs => hs }
  exact hloose.supervised args a (start args disk) rfl

end Apply
end Job
end MightyColab
