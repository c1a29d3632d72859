import MightyColab.Lib.Built
import MightyColab.Job.PollEvidence

/-!
# The steps that apply is made of

Apply's phases, its poll's reads and its `finally` block taken apart once. What a record says of
how its job ended is a small part of it; apart from a few places, which are named, every step
leaves that part alone or writes the record it has.
-/

namespace MightyColab
namespace Job

open Lib

def standing (env : JobEnvelope) :
    Workload × Offload × Cleanup × Option Phase × Option RetryClass :=
  (env.workload, env.offload, env.cleanup, env.failedPhase, env.retryClass)

theorem standing_of_onlyHints {env env' : JobEnvelope} (h : OnlyHints env env') :
    standing env' = standing env := h.same standing

namespace Apply

structure Unwritten (s t : Proc) : Prop where
  disk : t.disk = s.disk
  log : forall env, .wrote env ∈ t.log -> .wrote env ∈ s.log

theorem Unwritten.refl (s : Proc) : Unwritten s s := ⟨rfl, fun _ h => h⟩

theorem confirmed_noted (endpoint : String) (outcome : Cleanup) (s : Proc) :
    (confirmed endpoint outcome s).env = s.env ∧ Unwritten s (confirmed endpoint outcome s) := by
  unfold confirmed
  split
  · exact ⟨rfl, Unwritten.refl s⟩
  · exact ⟨rfl, rfl, fun env hmem => by simpa using hmem⟩

inductive Makes (edit : JobEnvelope -> JobEnvelope -> Prop) :
    forall result : Type, Program result -> Prop where
  | does {result : Type} (f : Proc -> result × Proc) :
      (forall s, edit s.env (f s).2.env ∧ Unwritten s (f s).2) ->
        Makes edit result fun s => (.ok (f s).1, (f s).2)
  | write (answer : Write) : Makes edit Unit (writeEnvelope answer)

abbrev Made (edit : JobEnvelope -> JobEnvelope -> Prop) {result : Type}
    (p : Program result) : Prop := Prog.Built (Makes edit) p

/-- The record in hand is so, and every record written is good, and so is the one on disk. -/
structure Filed (hand good : JobEnvelope -> Prop) (s : Proc) : Prop where
  env : hand s.env
  wrote : forall env, .wrote env ∈ s.log -> good env
  disk : forall env, s.disk = some env -> good env

variable {hand hand' good : JobEnvelope -> Prop}

theorem Filed.weaken {s : Proc} (hs : Filed hand good s) (h : hand s.env -> hand' s.env) :
    Filed hand' good s := ⟨h hs.env, hs.wrote, hs.disk⟩

theorem Filed.unwritten {s t : Proc} (hs : Filed hand good s) (h : Unwritten s t)
    (henv : hand' t.env) : Filed hand' good t :=
  ⟨henv, fun env hmem => hs.wrote env (h.log env hmem), fun env hdisk =>
    hs.disk env (h.disk.symm.trans hdisk)⟩

theorem Filed.write {s : Proc} (hs : Filed hand good s) (h : good s.env) :
    Filed hand good { s with disk := some s.env, log := .wrote s.env :: s.log } := by
  refine ⟨hs.env, fun env hmem => ?_, fun env hdisk => ?_⟩
  · rcases List.mem_cons.mp hmem with heq | hmem
    · cases heq
      exact h
    · exact hs.wrote env hmem
  · cases hdisk
    exact h

theorem filed_writeEnvelope (hgood : forall env, hand env -> good env) (answer : Write) :
    Prog.Keeps (Filed hand good) (writeEnvelope answer) := by
  intro s hs
  rw [writeEnvelope_state]
  split
  · exact hs.write (hgood _ hs.env)
  · exact hs

theorem Made.keeps {edit : JobEnvelope -> JobEnvelope -> Prop} {result : Type}
    {p : Program result} (h : Made edit p)
    (hedit : forall env env', edit env env' -> hand env -> hand env')
    (hgood : forall env, hand env -> good env) : Prog.Keeps (Filed hand good) p := by
  refine Prog.Built.keeps h fun {_ q} hq => ?_
  cases hq with
  | does f hf =>
      intro s hs
      exact hs.unwritten (hf s).right (hedit _ _ (hf s).left hs.env)
  | write answer => exact filed_writeEnvelope hgood answer

namespace Made

variable {edit : JobEnvelope -> JobEnvelope -> Prop}

theorem modify {f : Proc -> Proc} (h : forall s, edit s.env (f s).env ∧ Unwritten s (f s)) :
    Made edit (Prog.modify f : Program Unit) :=
  Prog.Built.basic (Makes.does (fun s => ((), f s)) h)

theorem modifyEnv {f : JobEnvelope -> JobEnvelope} (h : forall env, edit env (f env)) :
    Made edit (modifyEnv f) :=
  modify fun s => ⟨h s.env, rfl, fun _ hmem => hmem⟩

theorem attempted (fault : Option String) : Made edit (attempted fault) := by
  cases fault with
  | none => exact Prog.Built.pure _
  | some text => exact Prog.Built.raise _

theorem catching {result : Type} {p : Program result} {handler : String -> Program result}
    (hp : Made edit p) (hh : forall text, Made edit (handler text)) :
    Made edit (catching p handler) := by
  refine Prog.Built.attempt hp fun e => ?_
  cases e with
  | exception text => exact hh text
  | phase error => exact hh error.reason
  | keyboard => exact Prog.Built.raise _
  | stopped signal => exact Prog.Built.raise _
  | exit code => exact Prog.Built.raise _

section Elementary

variable (h : forall env env', standing env' = standing env -> edit env env')

include h

theorem own {f : Proc -> Proc}
    (hf : forall s, (f s).env = s.env ∧ (f s).disk = s.disk ∧ (f s).log = s.log) :
    Made edit (Prog.modify f : Program Unit) := by
  refine modify fun s => ⟨h _ _ (congrArg standing (hf s).1), (hf s).2.1, fun env hmem => ?_⟩
  rw [(hf s).2.2] at hmem
  exact hmem

theorem arrive (signal : Option Signal) : Made edit (arrive signal) := by
  unfold Apply.arrive
  cases signal with
  | none => exact Prog.Built.pure _
  | some signal =>
      cases signal with
      | sigint => exact Prog.Built.raise _
      | stop signal =>
          refine Prog.Built.bind Prog.Built.get fun s => ?_
          refine Prog.Built.ite (Prog.Built.pure _) ?_
          exact Prog.Built.bind (own h fun _ => ⟨rfl, rfl, rfl⟩) fun _ => Prog.Built.raise _

theorem step (hit : Hit) : Made edit (step hit) :=
  Prog.Built.bind (arrive h _) fun _ =>
    Prog.Built.bind (attempted _) fun _ => arrive h _

theorem updates : forall {fs : List (JobEnvelope -> JobEnvelope)} (gaps : Gaps),
    (forall f, f ∈ fs -> forall env, edit env (f env)) -> Made edit (updates gaps fs) := by
  intro fs
  induction fs with
  | nil => exact fun gaps _ => arrive h _
  | cons f rest ih =>
      intro gaps hfs
      exact Prog.Built.bind (arrive h _) fun _ =>
        Prog.Built.bind (modifyEnv (hfs f List.mem_cons_self)) fun _ =>
          ih _ fun g hg => hfs g (List.mem_cons_of_mem _ hg)

theorem persist (hit : WriteHit) : Made edit (persist hit) :=
  Prog.Built.bind (arrive h _) fun _ =>
    Prog.Built.bind (Prog.Built.basic (Makes.write _)) fun _ => arrive h _

theorem addHint (hint : String) : Made edit (Apply.modifyEnv fun env => env.addHint hint) :=
  modifyEnv fun env => h env _ rfl

theorem setPhase (hit : PhaseHit) (phase : Phase) : Made edit (setPhase hit phase) :=
  Prog.Built.bind (arrive h _) fun _ =>
    Prog.Built.bind (modifyEnv fun env => h env _ rfl) fun _ =>
      Prog.Built.bind (step h _) fun _ =>
        Prog.Built.bind (persist h _) fun _ => step h _

theorem jobTransport (hit : Hit) : Made edit (jobTransport hit) :=
  Prog.Built.bind Prog.Built.get fun _ =>
    Prog.Built.ite (Prog.Built.pure _) (Prog.Built.bind (step h _) fun _ =>
      own h fun _ => ⟨rfl, rfl, rfl⟩)

theorem runtimeHandle (hit : Hit) : Made edit (runtimeHandle hit) :=
  Prog.Built.bind Prog.Built.get fun _ =>
    Prog.Built.ite (Prog.Built.pure _) (Prog.Built.bind (step h _) fun _ =>
      own h fun _ => ⟨rfl, rfl, rfl⟩)

theorem executeCode {result : Type} (call : Kernel result) (phase : Phase)
    (hints : List String) : Made edit (executeCode call phase hints) := by
  refine Prog.Built.bind (runtimeHandle h _) fun _ =>
    Prog.Built.ensure (Prog.Built.bind (arrive h _) fun _ => ?_) (step h _)
  cases call.outcome with
  | error failure => exact Prog.Built.raise _
  | ok value => exact Prog.Built.bind (arrive h _) fun _ => Prog.Built.pure _

/-- The reading of the compute units is one step: what it reads, it only adds hints to. -/
theorem computeUnits (hit : UnitsHit) (moment : String) :
    Made edit (computeUnits hit moment) := by
  let reads (s : Proc) : Option ComputeUnitReading × Proc :=
    let read := readComputeUnits hit.answer moment s.env
    (read.1, { s with env := read.2 })
  have hreads : Made edit (fun s => (.ok (reads s).1, (reads s).2) : Program _) := by
    refine Prog.Built.basic (Makes.does reads fun s => ⟨h _ _ ?_, rfl, fun _ hmem => hmem⟩)
    exact standing_of_onlyHints (readComputeUnits_onlyHints hit.answer moment s.env)
  have heq : Apply.computeUnits hit moment = (do
      Apply.arrive hit.before
      let reading ← (fun s => (.ok (reads s).1, (reads s).2) : Program _)
      Apply.arrive hit.after
      return reading) := by
    unfold Apply.computeUnits
    congr 1
  rw [heq]
  exact Prog.Built.bind (arrive h _) fun _ => Prog.Built.bind hreads fun reading =>
    Prog.Built.bind (arrive h _) fun _ => Prog.Built.pure reading

theorem releaseAssignment (hit : ReleaseHit) (endpoint : String) :
    Made edit (releaseAssignment hit endpoint) := by
  refine Prog.Built.bind (arrive h _) fun _ => Prog.Built.bind (modify fun s => ?_) fun _ =>
    Prog.Built.bind (modify fun s => ?_) fun _ => Prog.Built.bind (arrive h _) fun _ =>
      Prog.Built.bind Prog.Built.get fun _ =>
        Prog.Built.bind (modify fun s => ?_) fun _ =>
          Prog.Built.bind (arrive h _) fun _ => Prog.Built.pure _
  · exact ⟨h _ _ rfl, rfl, fun env hmem => by simpa using hmem⟩
  · split
    · exact ⟨h _ _ rfl, rfl, fun _ hmem => hmem⟩
    · exact ⟨h _ _ rfl, Unwritten.refl s⟩
  · rcases confirmed_noted endpoint _ s with ⟨henv, hunwritten⟩
    exact ⟨h _ _ (congrArg standing henv), hunwritten⟩

/-!
## Provision
-/

theorem assign (c : Candidate) : Made edit (assign c) := by
  refine Prog.Built.bind (arrive h _) fun _ => ?_
  cases c.outcome with
  | granted grant =>
      exact Prog.Built.bind (modify fun s =>
        ⟨h _ _ rfl, rfl, fun env hmem => by simpa [assigned] using hmem⟩) fun _ =>
          Prog.Built.bind (arrive h _) fun _ => Prog.Built.pure _
  | failed error lost =>
      refine Prog.Built.bind (modify fun s => ?_) fun _ =>
        Prog.Built.bind (arrive h _) fun _ => Prog.Built.pure _
      cases lost with
      | none => exact ⟨h _ _ rfl, Unwritten.refl s⟩
      | some grant => exact ⟨h _ _ rfl, rfl, fun env hmem => by simpa [assigned] using hmem⟩

theorem releaseForScope (hit : KeepAliveHit) (endpoint : String) :
    Made edit (releaseForScope hit endpoint) := by
  refine Prog.Built.bind (releaseAssignment h _ _) fun released => ?_
  simp only
  refine Prog.Built.ite (Prog.Built.bind (updates h _ fun f hf env => ?_) fun _ =>
    Prog.Built.raise _) (Prog.Built.bind (updates h _ fun f hf env => ?_) fun _ =>
      Prog.Built.bind (own h fun _ => ⟨rfl, rfl, rfl⟩) fun _ => Prog.Built.raise _)
  · rw [List.mem_singleton.mp hf]
    exact h _ _ rfl
  · simp only [List.mem_cons, List.not_mem_nil, or_false] at hf
    rcases hf with rfl | rfl <;> exact h _ _ rfl

theorem startKeepAlive (hit : KeepAliveHit) (endpoint : String) :
    Made edit (startKeepAlive hit endpoint) := by
  refine Prog.Built.bind Prog.Built.get fun _ => Prog.Built.ite (step h _) ?_
  refine Prog.Built.bind (Prog.Built.bind (arrive h _) fun _ =>
    Prog.Built.bind (arrive h _) fun _ => ?_) fun _ =>
    Prog.Built.bind (step h _) fun _ =>
      Prog.Built.bind (catching (step h _) fun _ => Prog.Built.raise _) fun _ =>
        Prog.Built.bind (own h fun _ => ⟨rfl, rfl, rfl⟩) fun _ => step h _
  cases hit.ping with
  | accepted => exact Prog.Built.pure _
  | tolerated hint => exact addHint h hint
  | scope => exact releaseForScope h hit endpoint

theorem useGrant (jobId : String) (c : Candidate) (want : String) (grant : Grant)
    (attempts : List ProvisionAttempt) : Made edit (useGrant jobId c want grant attempts) := by
  refine Prog.Built.bind (step h _) fun _ =>
    Prog.Built.bind (own h fun _ => ⟨rfl, rfl, rfl⟩) fun _ =>
      Prog.Built.bind (updates h _ fun f hf env => ?_) fun _ =>
        Prog.Built.bind (persist h _) fun _ =>
          Prog.Built.bind (startKeepAlive h _ _) fun _ =>
            Prog.Built.bind (computeUnits h _ _) fun _ =>
              Prog.Built.bind (modifyEnv fun env => h _ _ rfl) fun _ => step h _
  rw [List.mem_singleton.mp hf]
  exact h _ _ rfl

theorem tryCandidates (jobId : String) (all : List String) :
    forall (wants : List String) (answers : Nat -> Candidate)
      (attempts : List ProvisionAttempt),
      Made edit (tryCandidates jobId all wants answers attempts) := by
  intro wants
  induction wants with
  | nil =>
      intro answers attempts
      exact Prog.Built.bind (modifyEnv fun env => h _ _ rfl) fun _ => Prog.Built.raise _
  | cons want rest ih =>
      intro answers attempts
      refine Prog.Built.bind (arrive h _) fun _ =>
        Prog.Built.bind (modifyEnv fun env => h _ _ rfl) fun _ =>
          Prog.Built.bind (assign h _) fun outcome => ?_
      cases outcome with
      | error error =>
          exact Prog.Built.ite (Prog.Built.bind (modifyEnv fun env => h _ _ rfl) fun _ =>
            Prog.Built.raise _) (Prog.Built.bind (step h _) fun _ => ih _ _)
      | ok grant =>
          simp only
          split
          · exact Prog.Built.raise _
          · refine Prog.Built.bind (updates h _ fun f hf env => ?_) fun _ =>
              Prog.Built.ite (Prog.Built.bind (releaseAssignment h _ _) fun released =>
                Prog.Built.ite (Prog.Built.raise _) (Prog.Built.bind
                  (updates h _ fun f hf env => ?_) fun _ => ih _ _))
                (useGrant h _ _ _ _ _)
            · simp only [List.mem_cons, List.not_mem_nil, or_false] at hf
              rcases hf with rfl | rfl <;> exact h _ _ rfl
            · rw [List.mem_singleton.mp hf]
              exact h _ _ rfl

theorem provision (plan : Plan) (a : Provision) : Made edit (provision plan a) :=
  Prog.Built.bind (setPhase h _ _) fun _ => tryCandidates h _ _ _ _ _

/-!
## Install to launch
-/

theorem install (spec : JobSpec) (a : Install) : Made edit (install spec a) := by
  refine Prog.Built.ite (Prog.Built.pure _) (Prog.Built.bind (setPhase h _ _) fun _ =>
    Prog.Built.bind (executeCode h _ _ _) fun outcome => ?_)
  cases outcome with
  | error refusal => exact Prog.Built.raise _
  | ok hints => exact modifyEnv fun env => h _ _ rfl

theorem restart (spec : JobSpec) (a : Restart) : Made edit (restart spec a) := by
  refine Prog.Built.ite (Prog.Built.pure _) (Prog.Built.bind (setPhase h _ _) fun _ =>
    Prog.Built.bind (runtimeHandle h _) fun _ =>
      Prog.Built.ensure (Prog.Built.bind (arrive h _) fun _ => ?_) (step h _))
  cases a.failure with
  | some failure => exact Prog.Built.raise _
  | none => exact arrive h _

theorem verify (a : Verify) : Made edit (verify a) := by
  refine Prog.Built.bind (setPhase h _ _) fun _ =>
    Prog.Built.bind (executeCode h _ _ _) fun outcome => ?_
  cases outcome with
  | error refusal => exact Prog.Built.raise _
  | ok hint =>
      refine Prog.Built.bind (addHint h hint) fun _ => ?_
      cases a.checks with
      | some refusal => exact Prog.Built.raise _
      | none => exact persist h _

theorem stagePayload (spec : JobSpec) (a : Stage) : Made edit (stagePayload spec a) := by
  refine Prog.Built.bind (setPhase h _ _) fun _ =>
    Prog.Built.bind (Prog.Built.ite (Prog.Built.bind (executeCode h _ _ _) fun outcome => ?_)
      (Prog.Built.pure _)) fun _ => Prog.Built.bind (arrive h _) fun _ => ?_
  · cases outcome with
    | some text => exact Prog.Built.raise _
    | none => exact own h fun _ => ⟨rfl, rfl, rfl⟩
  · cases a.upload.error with
    | some error => exact Prog.Built.raise _
    | none =>
        exact Prog.Built.bind (own h fun _ => ⟨rfl, rfl, rfl⟩) fun _ => arrive h _

theorem sealSecretChannel (call : Kernel (Option String)) :
    Made edit (sealSecretChannel call) := by
  refine Prog.Built.bind (executeCode h _ _ _) fun outcome => ?_
  cases outcome with
  | some text => exact Prog.Built.raise _
  | none => exact Prog.Built.pure _

theorem launch (hruns : forall env : JobEnvelope, edit env { env with workload := .running })
    (a : Launch) : Made edit (launch a) := by
  have hmark : forall hint, Made edit (markRunning a hint) := by
    intro hint
    refine Prog.Built.bind (updates h _ fun f hf env => ?_) fun _ => persist h _
    simp only [List.mem_cons, List.not_mem_nil, or_false] at hf
    rcases hf with rfl | rfl | rfl
    · exact hruns env
    · exact h _ _ rfl
    · exact h _ _ rfl
  refine Prog.Built.bind (setPhase h _ _) fun _ =>
    Prog.Built.bind (Prog.Built.attempt (Prog.Built.bind (executeCode h _ _ _) fun _ =>
      Prog.Built.pure _) fun e => ?_) fun reply => ?_
  · cases e with
    | phase error => exact Prog.Built.ite (Prog.Built.pure _) (Prog.Built.raise _)
    | keyboard => exact Prog.Built.raise _
    | stopped signal => exact Prog.Built.raise _
    | exception text => exact Prog.Built.raise _
    | exit code => exact Prog.Built.raise _
  · rcases reply with reason | text | pid
    · exact Prog.Built.bind (hmark _) fun _ => Prog.Built.pure _
    · exact Prog.Built.raise _
    · exact Prog.Built.bind (hmark _) fun _ =>
        Prog.Built.bind (step h _) fun _ => Prog.Built.pure _

/-!
## The poll's reads
-/

open Evidence

theorem readJson (hit : ReadHit) : Made edit (readJson hit) := by
  refine Prog.Built.bind (arrive h _) fun _ => ?_
  cases hit.read with
  | error text => exact Prog.Built.raise _
  | ok read => exact Prog.Built.bind (arrive h _) fun _ => Prog.Built.pure _

theorem goneLook (t : Tick) (otherwise : Ending) : Made edit (goneLook t otherwise) := by
  refine Prog.Built.bind (readJson h _) fun late => ?_
  split <;> exact Prog.Built.pure _

theorem watchdogLook (t : Tick) (record : Json.Fields) : Made edit (watchdogLook t record) := by
  refine Prog.Built.bind Prog.Built.get fun s => Prog.Built.bind (modify fun u => ?_) fun _ => ?_
  · exact ⟨h _ _ rfl, rfl, fun _ hmem => hmem⟩
  · split
    · exact goneLook h t _
    · exact Prog.Built.pure _

theorem launchLook (t : Tick) : Made edit (launchLook t) := by
  refine Prog.Built.bind Prog.Built.get fun s => ?_
  split
  · exact Prog.Built.pure _
  · refine Prog.Built.ite (Prog.Built.pure _) ?_
    refine Prog.Built.bind (readJson h _) fun read => Prog.Built.bind (own h fun u => ?_) fun _ => ?_
    · split
      · exact ⟨rfl, rfl, rfl⟩
      · split <;> exact ⟨rfl, rfl, rfl⟩
    · refine Prog.Built.bind Prog.Built.get fun u => Prog.Built.ite ?_ (Prog.Built.pure _)
      exact Prog.Built.bind (goneLook h t _) fun _ => Prog.Built.pure _

theorem look (t : Tick) (degraded : Nat) : Made edit (look t degraded) := by
  refine Prog.Built.bind (readJson h _) fun read => ?_
  cases okRecord read with
  | some record => exact Prog.Built.pure _
  | none =>
      refine Prog.Built.ite (Prog.Built.pure _) (Prog.Built.ite
        (Prog.Built.bind (modifyEnv fun env => h _ _ rfl) fun _ => Prog.Built.pure _)
        (Prog.Built.bind ?_ fun _ => Prog.Built.pure _))
      refine Prog.Built.bind (modifyEnv fun env => h _ _ rfl) fun _ =>
        Prog.Built.bind (readJson h _) fun watchdog =>
          Prog.Built.bind Prog.Built.get fun u => Prog.Built.bind ?_ fun _ => Prog.Built.pure _
      cases okRecord watchdog with
      | some record => exact watchdogLook h t record
      | none => exact Prog.Built.ite (launchLook h t) (Prog.Built.pure _)

theorem recoverControlResult (spec : JobSpec) (a : Finish) :
    Made edit (recoverControlResult spec a) := by
  unfold Apply.recoverControlResult
  split
  · exact Prog.Built.pure _
  · refine Prog.Built.bind (arrive h _) fun _ => ?_
    split
    · exact Prog.Built.bind (addHint h _) fun _ => Prog.Built.pure _
    · refine Prog.Built.bind (arrive h _) fun _ => ?_
      simp only
      split
      · exact Prog.Built.raise _
      · exact Prog.Built.pure _
      · exact Prog.Built.bind (addHint h _) fun _ => Prog.Built.pure _

theorem goesOn (spec : JobSpec) (t : Tick) (healthy : Bool) :
    Made edit (conclude spec t (.goesOn healthy)) := by
  have hwritten : Made edit (do
      Apply.persist t.write
      Apply.arrive t.sleep
      return false : Program Bool) :=
    Prog.Built.bind (persist h _) fun _ =>
      Prog.Built.bind (arrive h _) fun _ => Prog.Built.pure _
  cases healthy with
  | true => exact Prog.Built.bind (arrive h _) fun _ => hwritten
  | false => exact hwritten

/-!
## The `finally` block
-/

theorem closeRuntime (hit : Hit) : Made edit (closeRuntime hit) :=
  Prog.Built.bind Prog.Built.get fun _ =>
    Prog.Built.ite (Prog.Built.bind (own h fun _ => ⟨rfl, rfl, rfl⟩) fun _ =>
      catching (step h _) fun _ => addHint h _) (Prog.Built.pure _)

theorem stopKeepAlive (hit : Hit) : Made edit (stopKeepAlive hit) :=
  Prog.Built.bind Prog.Built.get fun _ => Prog.Built.ite (step h _) (Prog.Built.pure _)

theorem dropSession (hit : Hit) (jobId : String) : Made edit (dropSession hit jobId) :=
  Prog.Built.bind Prog.Built.get fun _ =>
    Prog.Built.ite (catching (step h _) fun _ => addHint h _) (Prog.Built.pure _)

theorem copyRecordsBeforeRelease (a : CleanupHit) : Made edit (copyRecordsBeforeRelease a) := by
  refine Prog.Built.bind (catching (Prog.Built.bind (jobTransport h _)
    fun _ => Prog.Built.pure _) fun _ => Prog.Built.pure _) fun made => ?_
  cases made with
  | some text => exact addHint h _
  | none =>
      exact Prog.Built.bind (arrive h _) fun _ =>
        Prog.Built.bind (addHint h _) fun _ => arrive h _

theorem removeSecret (a : SecretHit) : Made edit (removeSecret a) := by
  refine Prog.Built.bind Prog.Built.get fun _ => Prog.Built.ite (Prog.Built.pure _) ?_
  refine Prog.Built.bind Prog.Built.get fun _ => Prog.Built.ite (Prog.Built.pure _) ?_
  refine Prog.Built.ite (Prog.Built.bind (own h fun _ => ⟨rfl, rfl, rfl⟩)
    fun _ => Prog.Built.pure _) ?_
  refine Prog.Built.bind (catching (Prog.Built.bind (executeCode h _ _ _)
    fun _ => Prog.Built.pure _) fun _ => Prog.Built.pure _) fun kernel => ?_
  refine Prog.Built.bind (catching (Prog.Built.bind (jobTransport h _)
    fun _ => Prog.Built.bind (arrive h _) fun _ => ?_) fun _ => Prog.Built.pure _)
    fun contents => Prog.Built.bind (arrive h _) fun _ => ?_
  · cases a.remove with
    | error text => exact Prog.Built.raise _
    | ok status => exact Prog.Built.bind (arrive h _) fun _ => Prog.Built.pure _
  · exact Prog.Built.ite
      (Prog.Built.bind (own h fun _ => ⟨rfl, rfl, rfl⟩) fun _ => Prog.Built.pure _)
      (Prog.Built.bind (own h fun _ => ⟨rfl, rfl, rfl⟩) fun _ => Prog.Built.pure _)

theorem detach (a : FinallyHit) : Made edit (detach a) :=
  Prog.Built.bind (closeRuntime h _) fun _ => persist h _

theorem letGo (plan : Plan) (a : FinallyHit) : Made edit (letGo plan a) := by
  refine Prog.Built.bind (arrive h _) fun _ => Prog.Built.bind (step h _)
    fun _ => Prog.Built.bind (Prog.Built.bind Prog.Built.get fun _ => Prog.Built.ite
      (Prog.Built.bind (catching (Prog.Built.bind (step h _) fun _ =>
        Prog.Built.pure _) fun _ => Prog.Built.pure _) fun failure => ?_)
      (Prog.Built.pure _)) fun _ => arrive h _
  cases failure with
  | none => exact Prog.Built.pure _
  | some text => exact Prog.Built.bind (addHint h _) fun _ => persist h _

end Elementary

end Made
end Apply
end Job
end MightyColab
