import MightyColab.Job.Sequence
import MightyColab.Job.Teardown

/-!
# What apply has when its run is over

A run of `job apply` whose exceptions its clauses handle leaves a record with a verdict, or one
that says that its supervisor was interrupted. What the `finally` block does then is no part of
the verdict.
-/

namespace MightyColab
namespace Job

open Lib

/-- A result of a run that has ended. -/
def Concludes (result : Json.Fields) : Prop :=
  forall workload, Absorb.workloadOf result = .ok workload -> workload.terminal = true

def ReadConcludes (read : JsonRead) : Prop :=
  forall r result, read = .ok r -> okRecord r = some result -> Concludes result

namespace Apply

structure Concluded (env : JobEnvelope) : Prop where
  workload : env.workload.terminal = true
  offload : env.offload.terminal = true
  supervisor : env.supervisor = .finished

theorem Concluded.settled {env : JobEnvelope} (h : Concluded env) : env.Settled :=
  ⟨h.workload, h.offload, by rw [h.supervisor]; rfl⟩

def Returns {result : Type} (pre : Proc -> Prop) (p : Program result)
    (m : result -> Proc -> Prop) : Prop :=
  Prog.Triple pre p (Prog.Exits (fun _ => True) m)

def InHand (good : JobEnvelope -> Prop) (s : Proc) : Prop := good s.env

namespace Returns

variable {result result' : Type} {pre : Proc -> Prop} {p : Program result}
  {m : result -> Proc -> Prop}

theorem bind {f : result -> Program result'} {m' : result' -> Proc -> Prop}
    (hp : Returns pre p m) (hf : forall a, Returns (m a) (f a) m') :
    Returns pre (p >>= f) m' := Prog.Exits.bind hp hf

theorem any (pre : Proc -> Prop) (p : Program result) : Returns pre p fun _ _ => True := by
  intro s _
  rcases p s with ⟨o, t⟩
  cases o <;> trivial

theorem after {f : result -> Program result'} {m' : result' -> Proc -> Prop}
    (hf : forall a, Returns (fun _ => True) (f a) m') : Returns pre (p >>= f) m' :=
  bind (any pre p) hf

theorem pure {a : result} (h : forall s, pre s -> m a s) :
    Returns pre (Pure.pure a : Program result) m := h

theorem raise (e : Raise) : Returns pre (Prog.raise e : Program result) m :=
  fun _ _ => trivial

theorem get_bind {f : Proc -> Program result} (h : forall s, pre s -> Returns (· = s) (f s) m) :
    Returns pre (Prog.get >>= f) m := Prog.Triple.get_bind h

theorem attempt {handler : Raise -> Program result} (hp : Returns pre p m)
    (hh : forall e, Returns (fun _ => True) (handler e) m) :
    Returns pre (p.attempt handler) m :=
  Prog.Exits.attempt hp hh fun _ _ => trivial

theorem weaken {pre' : Proc -> Prop} {m' : result -> Proc -> Prop} (hp : Returns pre p m)
    (hpre : forall s, pre' s -> pre s) (hpost : forall a s, m a s -> m' a s) :
    Returns pre' p m' :=
  fun s hs => Prog.Exits.weaken hp hpost s (hpre s hs)

theorem knowing {fact : Prop} (h : forall s, pre s -> fact) (hp : fact -> Returns pre p m) :
    Returns pre p m := fun s hs => hp (h s hs) s hs

theorem keeps (h : Prog.Keeps pre p) : Returns pre p fun _ => pre :=
  Prog.Keeps.exits h fun _ _ => trivial

theorem run (hp : Returns pre p m) {s t : Proc} {a : result} (hs : pre s)
    (h : p s = (.ok a, t)) : m a t := by
  have hends := hp s hs
  rw [h] at hends
  exact hends

end Returns

section Elementary

variable {good q : JobEnvelope -> Prop}

theorem arrive_inHand (signal : Option Signal) : Prog.Keeps (InHand good) (arrive signal) := by
  intro s hs
  rcases arrive_state signal s with ⟨ignored, harrive⟩
  rw [harrive]
  exact hs

theorem persist_inHand (hit : WriteHit) : Prog.Keeps (InHand good) (persist hit) := by
  refine Prog.Keeps.bind (arrive_inHand _) fun _ => Prog.Keeps.bind ?_ fun _ => arrive_inHand _
  intro s hs
  rw [writeEnvelope_state]
  split <;> exact hs

theorem modifyEnv_returns {f : JobEnvelope -> JobEnvelope}
    (h : forall env, good env -> q (f env)) :
    Returns (InHand good) (modifyEnv f) fun _ => InHand q :=
  fun s hs => h s.env hs

theorem updates_returns (fs : List (JobEnvelope -> JobEnvelope)) :
    forall (gaps : Gaps) (good : JobEnvelope -> Prop),
      (forall env, good env -> q (fs.foldl (fun env f => f env) env)) ->
        Returns (InHand good) (updates gaps fs) fun _ => InHand q := by
  induction fs with
  | nil =>
      intro gaps good h
      exact Returns.weaken (Returns.keeps (arrive_inHand _)) (fun _ hs => hs)
        fun _ s hs => h s.env hs
  | cons f rest ih =>
      intro gaps good h
      refine Returns.bind (Returns.keeps (arrive_inHand _)) fun _ => ?_
      refine Returns.bind (modifyEnv_returns (q := fun env =>
        q (rest.foldl (fun env f => f env) env)) fun env henv => h env henv) fun _ => ?_
      exact ih _ _ fun env henv => henv

theorem anyway_returns {pre : Proc -> Prop} {gaps : Gaps}
    {fs : List (JobEnvelope -> JobEnvelope)}
    (h : forall env, q (fs.foldl (fun env f => f env) env)) :
    Returns pre (updates gaps fs) fun _ => InHand q :=
  Returns.weaken (updates_returns fs gaps (fun _ => True) fun env _ => h env) (fun _ _ => trivial)
    fun _ _ h => h

end Elementary

/-!
## The end of a run
-/

def Closed (env : JobEnvelope) : Prop := env.workload.terminal = true ∧ env.offload.terminal = true

theorem absorbResult_returns {pre : Proc -> Prop} (spec : JobSpec) (hit : AbsorbHit)
    {result : Json.Fields} (h : Concludes result) :
    Returns pre (absorbResult spec hit result) fun error s => error = none -> Closed s.env := by
  refine Returns.after fun _ => Returns.get_bind fun s _ => ?_
  cases habsorb : Absorb.absorbResult s.env spec result hit.now with
  | error text => exact Returns.pure fun _ _ heq => by cases heq
  | ok env =>
      rcases Absorb.absorbResult_spec habsorb with ⟨_, hwork, hoff⟩
      have hclosed : Closed env := ⟨h env.workload hwork, hoff⟩
      refine Returns.after fun _ => ?_
      refine Returns.bind (m := fun _ => InHand Closed) (fun _ _ => hclosed) fun _ => ?_
      refine Returns.bind (Returns.keeps (arrive_inHand _)) fun _ => ?_
      exact Returns.pure fun _ hs _ => hs

theorem keepAbsorbed_returns (hit : AbsorbHit) :
    Returns (InHand Closed) (keepAbsorbed hit) fun _ => InHand Concluded := by
  refine Returns.bind (updates_returns _ _ _ fun env henv => ?_) fun _ =>
    Returns.keeps (persist_inHand _)
  exact ⟨henv.left, henv.right, rfl⟩

theorem recoverControlResult_returns {pre : Proc -> Prop} (spec : JobSpec) (a : Finish) :
    Returns pre (recoverControlResult spec a) fun found _ =>
      forall result, found = some result -> Concludes result := by
  unfold recoverControlResult
  split
  · exact Returns.pure fun _ _ _ heq => by cases heq
  · refine Returns.after fun _ => ?_
    cases a.fetch with
    | error text =>
        exact Returns.after fun _ => Returns.pure fun _ _ _ heq => by cases heq
    | ok result =>
        refine Returns.after fun _ => ?_
        simp only
        cases hterminal : isTerminalValue (result.get "workload") with
        | error text => exact Returns.raise _
        | ok terminal =>
            cases terminal with
            | true =>
                refine Returns.pure fun _ _ result' heq workload hworkload => ?_
                cases heq
                exact Teardown.isTerminalValue_true hterminal hworkload
            | false => exact Returns.after fun _ => Returns.pure fun _ _ _ heq => by cases heq

theorem offload_terminal_or (offload : Offload) (spec : JobSpec) :
    (if offload.terminal = true then offload
      else if spec.artifacts.isEmpty = true then .notRequired else .skipped).terminal = true := by
  split
  · next h => exact h
  · split <;> rfl

theorem finishWithoutResult_returns (spec : JobSpec) (endings : List Finish) :
    forall (reason : String) (pre : Proc -> Prop),
      Returns pre (finishWithoutResult spec endings reason) fun _ => InHand Concluded := by
  induction endings with
  | nil => exact fun _ _ => Returns.raise _
  | cons a rest ih =>
      intro reason pre
      refine Returns.bind (recoverControlResult_returns spec a) fun found => ?_
      cases found with
      | none =>
          refine Returns.bind (anyway_returns (q := Concluded) fun env => ?_) fun _ => ?_
          · exact ⟨rfl, offload_terminal_or env.offload spec, rfl⟩
          · exact Returns.bind (Returns.keeps (arrive_inHand _)) fun _ =>
              Returns.keeps (persist_inHand _)
      | some result =>
          refine Returns.knowing (fun s hs => hs result rfl) fun hconcludes => ?_
          refine Returns.bind (absorbResult_returns spec a.absorb hconcludes) fun error => ?_
          refine Returns.bind (m := fun _ => InHand Concluded) ?_ fun _ => ?_
          · cases error with
            | some error => exact ih _ _
            | none =>
                exact Returns.weaken (keepAbsorbed_returns a.absorb) (fun _ h => h rfl)
                  fun _ _ h => h
          · exact modifyEnv_returns fun env henv => ⟨henv.workload, henv.offload, henv.supervisor⟩

theorem absorbOrKeep_returns {pre : Proc -> Prop} (spec : JobSpec) (hit : AbsorbHit)
    (endings : List Finish) {result : Json.Fields} (h : Concludes result) :
    Returns pre (absorbOrKeep spec hit endings result) fun _ => InHand Concluded := by
  refine Returns.bind (absorbResult_returns spec hit h) fun error => ?_
  cases error with
  | some error => exact finishWithoutResult_returns spec endings _ _
  | none => exact Returns.weaken (keepAbsorbed_returns hit) (fun _ h => h rfl) fun _ _ h => h

/-!
## The poll
-/

structure Tick.Concludes (t : Tick) : Prop where
  result : ReadConcludes t.result.read
  late : ReadConcludes t.late.read

theorem readJson_returns {pre : Proc -> Prop} {hit : ReadHit} (h : ReadConcludes hit.read) :
    Returns pre (readJson hit) fun r _ =>
      forall result, okRecord r = some result -> Concludes result := by
  refine Returns.after fun _ => ?_
  cases hread : hit.read with
  | error text => exact Returns.raise _
  | ok r => exact Returns.after fun _ => Returns.pure fun _ _ result => h r result hread

theorem runnerGone_returns {pre : Proc -> Prop} (spec : JobSpec) {t : Tick} (h : t.Concludes)
    (reason : String) :
    Returns pre (runnerGone spec t reason) fun _ => InHand Concluded := by
  have hlate : Returns pre (absorbLateResult spec t) fun absorbed s =>
      absorbed = true -> Concluded s.env := by
    refine Returns.bind (readJson_returns h.late) fun r => ?_
    cases okRecord r with
    | some result =>
        refine Returns.knowing (fun s hs => hs result rfl) fun hconcludes => ?_
        exact Returns.bind (absorbOrKeep_returns spec t.absorb t.endings hconcludes)
          fun _ => Returns.pure fun _ h _ => h
    | none => exact Returns.pure fun _ _ heq => by cases heq
  refine Returns.bind hlate fun absorbed => ?_
  cases absorbed with
  | true => exact Returns.pure fun _ h => h rfl
  | false => exact finishWithoutResult_returns spec _ _ _

theorem watchdogRead_returns {pre : Proc -> Prop} (spec : JobSpec) {t : Tick} (h : t.Concludes)
    (record : Json.Fields) :
    Returns pre (watchdogRead spec t record) fun ended s => ended = true -> Concluded s.env := by
  refine Returns.get_bind fun s _ => Returns.after fun _ => ?_
  split
  · exact Returns.bind (runnerGone_returns spec h _) fun _ => Returns.pure fun _ h _ => h
  · exact Returns.pure fun _ _ heq => by cases heq

theorem launchRead_returns {pre : Proc -> Prop} (spec : JobSpec) {t : Tick} (h : t.Concludes) :
    Returns pre (launchRead spec t) fun ended s => ended = true -> Concluded s.env := by
  refine Returns.get_bind fun s _ => ?_
  split
  · exact Returns.pure fun _ _ heq => by cases heq
  · split
    · exact Returns.pure fun _ _ heq => by cases heq
    · refine Returns.after fun r => Returns.after fun _ => Returns.get_bind fun u _ => ?_
      split
      · exact Returns.bind (runnerGone_returns spec h _) fun _ => Returns.pure fun _ h _ => h
      · exact Returns.pure fun _ _ heq => by cases heq

theorem healthy_returns {pre : Proc -> Prop} (spec : JobSpec) {t : Tick} (h : t.Concludes) :
    Returns pre (healthy spec t) fun ended s => ended = true -> Concluded s.env := by
  refine Returns.after fun _ => Returns.after fun r => Returns.get_bind fun s _ => ?_
  refine Returns.bind (m := fun ended s => ended = true -> Concluded s.env) ?_ fun ended => ?_
  · split
    · exact watchdogRead_returns spec h _
    · split
      · exact launchRead_returns spec h
      · exact Returns.pure fun _ _ heq => by cases heq
  · cases ended with
    | true => exact Returns.pure fun _ h _ => h rfl
    | false => exact Returns.after fun _ => Returns.pure fun _ _ heq => by cases heq

theorem tick_returns {pre : Proc -> Prop} (spec : JobSpec) {t : Tick} (h : t.Concludes)
    (degraded : Nat) :
    Returns pre (tick spec t degraded) fun ended s => ended = true -> Concluded s.env := by
  refine Returns.bind (readJson_returns h.result) fun r => ?_
  cases okRecord r with
  | some result =>
      refine Returns.knowing (fun s hs => hs result rfl) fun hconcludes => ?_
      exact Returns.bind (absorbOrKeep_returns spec t.absorb t.endings hconcludes)
        fun _ => Returns.pure fun _ h _ => h
  | none =>
      simp only
      split
      · exact Returns.get_bind fun u _ => Returns.bind (finishWithoutResult_returns spec _ _ _)
          fun _ => Returns.pure fun _ h _ => h
      · refine Returns.bind (m := fun ended s => ended = true -> Concluded s.env) ?_
          fun ended => ?_
        · split
          · exact Returns.after fun _ => Returns.pure fun _ _ heq => by cases heq
          · exact healthy_returns spec h
        · cases ended with
          | true => exact Returns.pure fun _ h _ => h rfl
          | false =>
              exact Returns.after fun _ => Returns.after fun _ =>
                Returns.pure fun _ _ heq => by cases heq

theorem poll_returns (spec : JobSpec) (deadline : Rat) (a : Deadline) (ticks : List Tick)
    (h : forall t, t ∈ ticks -> t.Concludes) :
    forall (degraded : Nat) (pre : Proc -> Prop),
      Returns pre (poll spec deadline a ticks degraded) fun _ s =>
        s.env.supervisor ≠ .interrupted -> Concluded s.env := by
  induction ticks with
  | nil => exact fun _ _ _ _ => trivial
  | cons t rest ih =>
      intro degraded pre
      unfold poll
      split
      · refine Returns.bind (tick_returns spec (h t List.mem_cons_self) degraded) fun ended => ?_
        cases ended with
        | true => exact Returns.pure fun _ h _ => h rfl
        | false => exact ih (fun t ht => h t (List.mem_cons_of_mem _ ht)) _ _
      · refine Returns.get_bind fun s _ => ?_
        refine Returns.bind (anyway_returns (q := fun env => env.supervisor = .interrupted)
          fun env => ?_) fun _ => ?_
        · rfl
        · exact Returns.weaken (Returns.keeps (persist_inHand _)) (fun _ h => h)
            fun _ s hs hnot => absurd hs hnot

theorem cancelAfterDeadline_returns {pre : Proc -> Prop} (spec : JobSpec)
    (passed requester : String) {a : CancelHit}
    (h : forall result, awaitRunnerResult a.looks runnerStopWaitSeconds = .ok result ->
      Concludes result) :
    Returns pre (cancelAfterDeadline spec passed requester a) fun _ => InHand Concluded := by
  refine Returns.after fun _ => Returns.after fun _ => ?_
  refine Returns.bind (m := fun _ => InHand Concluded) ?_ fun _ => ?_
  · unfold cancelOutcome
    simp only
    split
    · next result hresult =>
        refine Returns.bind (absorbOrKeep_returns spec a.absorb a.endings (h result hresult))
          fun _ => updates_returns _ _ _ fun env henv => ?_
        exact ⟨henv.workload, henv.offload, henv.supervisor⟩
    · exact finishWithoutResult_returns spec _ _ _
  · refine Returns.bind (modifyEnv_returns fun env henv => ?_) fun _ =>
      Returns.keeps (persist_inHand _)
    exact ⟨henv.workload, henv.offload, henv.supervisor⟩

/-- Every result that the `try` block may absorb is that of a run that has ended. -/
structure Body.Concludes (a : Body) : Prop where
  ticks : forall t, t ∈ a.ticks -> t.Concludes
  cancel : forall result, awaitRunnerResult a.cancel.looks runnerStopWaitSeconds = .ok result ->
    Job.Concludes result

theorem body_returns {pre : Proc -> Prop} (args : Args) {a : Body} (h : a.Concludes) :
    Returns pre (body args a) fun _ => InHand Concluded := by
  refine Returns.after fun _ => Returns.after fun _ => Returns.after fun _ =>
    Returns.after fun _ => Returns.after fun _ => Returns.after fun _ => Returns.after fun _ =>
    Returns.after fun _ => Returns.after fun _ => Returns.after fun _ => ?_
  refine Returns.bind (poll_returns args.plan.spec _ _ a.ticks h.ticks 0 _) fun _ => ?_
  refine Returns.get_bind fun s hs => ?_
  split
  · exact cancelAfterDeadline_returns _ _ _ h.cancel
  · next hnot =>
      refine Returns.pure fun t ht => ?_
      rw [ht]
      exact hs hnot

/-!
## The handlers
-/

/-- The record after the `except` clauses. -/
def Handled (env : JobEnvelope) : Prop :=
  Concluded env ∨ env.supervisor = .interrupted

theorem handled_settled {env : JobEnvelope} (h : Handled env)
    (hnot : env.supervisor ≠ .interrupted) : env.Settled := by
  rcases h with hconcluded | hinterrupted
  · exact hconcluded.settled
  · exact absurd hinterrupted hnot

theorem nothingOffloaded_terminal (spec : JobSpec) : (nothingOffloaded spec).terminal = true := by
  unfold nothingOffloaded
  split <;> rfl

theorem runStopped_returns {pre : Proc -> Prop} (plan : Plan) (a : Handler) (stop : Stop) :
    Returns pre (runStopped plan a stop) fun _ => InHand Handled := by
  refine Returns.get_bind fun s _ => ?_
  split
  · refine anyway_returns fun env => ?_
    exact Or.inl ⟨rfl, nothingOffloaded_terminal _, rfl⟩
  · cases stop with
    | signal signal =>
        refine Returns.after fun _ => Returns.after fun _ => anyway_returns fun env => ?_
        exact Or.inr rfl
    | keyboard =>
        refine anyway_returns fun env => ?_
        exact Or.inr rfl

theorem handle_returns {pre : Proc -> Prop} (args : Args) (a : Handler) (e : Raise) :
    Returns pre (handle args a e) fun _ => InHand Handled := by
  cases e with
  | phase error =>
      refine anyway_returns fun env => ?_
      exact Or.inl ⟨rfl, nothingOffloaded_terminal _, rfl⟩
  | keyboard => exact runStopped_returns _ _ _
  | stopped signal => exact runStopped_returns _ _ _
  | exit code => exact Returns.raise _
  | exception text =>
      rw [handle]
      split
      · exact Returns.raise _
      · refine anyway_returns fun env => ?_
        refine Or.inl ⟨?_, ?_, rfl⟩
        · change (if env.workload.terminal = true then env.workload
            else if beforeRun env.phase = true then .failed else .unknown : Workload).terminal = _
          split
          · next h => exact h
          · split <;> rfl
        · change (if env.offload.terminal = true then env.offload
            else if args.plan.spec.artifacts.isEmpty = true then .notRequired
            else if env.phase = .offload then .failed else .skipped : Offload).terminal = _
          split
          · next h => exact h
          · split
            · rfl
            · split <;> rfl

theorem supervised_returns {pre : Proc -> Prop} (args : Args) {a : Answers}
    (h : a.body.Concludes) : Returns pre (supervised args a) fun _ => InHand Handled :=
  Returns.attempt
    (Returns.weaken (body_returns args h) (fun _ h => h) fun _ _ h => Or.inl h)
    fun e => handle_returns args a.handler e

end Apply
end Job
end MightyColab
