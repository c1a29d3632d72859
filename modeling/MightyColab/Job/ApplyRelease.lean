import MightyColab.Job.ApplyFrame

/-!
# When apply's cleanup releases the VM

The `finally` block followed to the release: the steps before it that are guarded, those
that are not, and the signals that can end any of them.
-/

namespace MightyColab
namespace Job

open Lib

namespace Apply

variable {inv : Proc -> Prop} {s t base : Proc} {endpoint : String}

/-!
## Signals and steps that do not raise
-/

def Quiet (s : Proc) (signal : Option Signal) : Prop :=
  match signal with
  | none => True
  | some .sigint => False
  | some (.stop signal) => signal ∈ s.ignored

/-- The step raises nothing and no signal ends it. -/
def Hit.Passes (s : Proc) (hit : Hit) : Prop :=
  Quiet s hit.before ∧ hit.fault = none ∧ Quiet s hit.after

/-- No signal ends the step, which may raise: its fault is guarded. -/
def Hit.Survives (s : Proc) (hit : Hit) : Prop :=
  Quiet s hit.before ∧ (hit.fault = none -> Quiet s hit.after)

/-- The new file is put in place, and no signal ends the write. -/
def WriteHit.Passes (s : Proc) (hit : WriteHit) : Prop :=
  Quiet s hit.before ∧ hit.write.lands = true ∧ Quiet s hit.after

/-- Appending the event, writing the envelope and printing the phase all succeed, and no
signal ends them. -/
def PhaseHit.Passes (s : Proc) (hit : PhaseHit) : Prop :=
  Quiet s hit.start ∧ hit.event.Passes s ∧ hit.write.Passes s ∧ hit.emit.Passes s

/-- Nothing that the steps before a release depend on has changed since `base`. -/
structure Calm (base t : Proc) : Prop where
  ignored : t.ignored = base.ignored
  session : t.session = base.session
  keepAlivePid : t.keepAlivePid = base.keepAlivePid
  runtime : t.runtime = base.runtime
  transport : t.transport = base.transport
  endpoint : t.env.endpoint = base.env.endpoint
  cleanup : t.env.cleanup = base.env.cleanup
  released : forall e, .release e ∈ t.log <-> .release e ∈ base.log

theorem Calm.refl (s : Proc) : Calm s s :=
  ⟨rfl, rfl, rfl, rfl, rfl, rfl, rfl, fun _ => Iff.rfl⟩

theorem Calm.quiet (h : Calm base t) (signal : Option Signal) :
    Quiet t signal <-> Quiet base signal := by
  unfold Quiet
  rw [h.ignored]

/-- What a signal raises, which `except Exception` does not catch. -/
def Raise.IsSignal (e : Raise) : Prop :=
  e = .keyboard ∨ exists signal, e = .stopped signal

theorem arrive_quiet {signal : Option Signal} (h : Quiet s signal) :
    arrive signal s = (.ok (), s) := by
  cases signal with
  | none => rfl
  | some signal =>
      cases signal with
      | sigint => exact False.elim h
      | stop signal =>
          have hmem : signal ∈ s.ignored := h
          simp [arrive, Prog.bind_run, hmem]

theorem arrive_loud {signal : Option Signal} (h : ¬Quiet s signal) :
    exists e s', arrive signal s = (.raised e, s') ∧ e.IsSignal := by
  cases signal with
  | none => exact absurd trivial h
  | some signal =>
      cases signal with
      | sigint => exact ⟨.keyboard, s, rfl, Or.inl rfl⟩
      | stop signal =>
          have hmem : signal ∉ s.ignored := h
          exact ⟨.stopped signal, { s with ignored := signal :: s.ignored },
            by simp [arrive, Prog.bind_run, hmem], Or.inr ⟨signal, rfl⟩⟩

theorem arrive_state (signal : Option Signal) (s : Proc) :
    exists ignored, (arrive signal s).2 = { s with ignored } := by
  rcases signal with _ | _ | signal
  · exact ⟨s.ignored, rfl⟩
  · exact ⟨s.ignored, rfl⟩
  · rw [arrive, Prog.bind_run_ok (Prog.get_run s)]
    split
    · exact ⟨s.ignored, rfl⟩
    · exact ⟨signal :: s.ignored, rfl⟩

theorem arrive_returnsIff (h : Calm base s) (signal : Option Signal) :
    Prog.ReturnsIff (arrive signal) s (Quiet base signal) fun _ t => Calm base t := by
  rw [← h.quiet signal]
  refine ⟨fun hquiet => ⟨(), s, arrive_quiet hquiet, h⟩, fun hloud => ?_⟩
  rcases arrive_loud hloud with ⟨e, s', hrun, _⟩
  exact ⟨e, s', hrun⟩

theorem attempted_returnsIff (h : Calm base s) (fault : Option String) :
    Prog.ReturnsIff (attempted fault) s (fault = none) fun _ t => Calm base t := by
  cases fault with
  | none => exact Prog.ReturnsIff.of_ok rfl rfl h
  | some text => exact Prog.ReturnsIff.of_raised (by simp) rfl

theorem step_returnsIff (h : Calm base s) (hit : Hit) :
    Prog.ReturnsIff (step hit) s (hit.Passes base) fun _ t => Calm base t :=
  (arrive_returnsIff h hit.before).bind fun _ _ h =>
    (attempted_returnsIff h hit.fault).bind fun _ _ h => arrive_returnsIff h hit.after

theorem modifyEnv_returnsIff (h : Calm base s) {f : JobEnvelope -> JobEnvelope}
    (hf : Mild f) : Prog.ReturnsIff (modifyEnv f) s True fun _ t => Calm base t :=
  Prog.ReturnsIff.of_ok trivial rfl
    { h with
      endpoint := (hf s.env).left.trans h.endpoint
      cleanup := (hf s.env).right.trans h.cleanup }

theorem updates_returnsIff :
    forall (fs : List (JobEnvelope -> JobEnvelope)) (gaps : Gaps) {s : Proc},
      Calm base s -> (forall f, f ∈ fs -> Mild f) ->
        Prog.ReturnsIff (updates gaps fs) s (forall i, i ≤ fs.length ->
          Quiet base (gaps i)) fun _ t => Calm base t
  | [], gaps, s, h, _ => by
      refine (arrive_returnsIff h (gaps 0)).conseq ?_ fun _ _ h => h
      simp
  | f :: rest, gaps, s, h, hfs => by
      refine ((arrive_returnsIff h (gaps 0)).bind fun _ _ h =>
        (modifyEnv_returnsIff h (hfs f List.mem_cons_self)).bind fun _ _ h =>
          updates_returnsIff rest (fun n => gaps (n + 1)) h
            fun g hg => hfs g (List.mem_cons_of_mem _ hg)).conseq ?_ fun _ _ h => h
      constructor
      · intro hall
        exact ⟨hall 0 (Nat.zero_le _), trivial, fun i hi =>
          hall (i + 1) (by simpa using Nat.succ_le_succ hi)⟩
      · rintro ⟨hzero, _, hrest⟩ i hi
        cases i with
        | zero => exact hzero
        | succ i => exact hrest i (by simpa using hi)

theorem persist_returnsIff (hpending : base.env.cleanup = .pending) (h : Calm base s)
    (hit : WriteHit) :
    Prog.ReturnsIff (persist hit) s (hit.Passes base) fun _ t => Calm base t := by
  refine (arrive_returnsIff h hit.before).bind fun _ s h =>
    Prog.ReturnsIff.bind (g := fun _ t => Calm base t) ?_
      fun _ _ h => arrive_returnsIff h hit.after
  have hopen : s.env.done = false := by
    simp [JobEnvelope.done, h.cleanup, hpending, Cleanup.terminal]
  cases hfile : hit.write.file with
  | some text =>
      exact Prog.ReturnsIff.of_raised (e := .exception text) (t := s)
        (by simp [Write.lands, hfile])
        (by simp [writeEnvelope, Write.perform, Write.lands, hfile])
  | none =>
      refine Prog.ReturnsIff.of_ok (a := ()) (t := { s with
        disk := some s.env, log := .wrote s.env :: s.log }) (by simp [Write.lands, hfile])
        (by simp [writeEnvelope, Write.perform, Write.lands, hfile, hopen]) ?_
      exact { h with released := fun e => by simpa using h.released e }

theorem setPhase_returnsIff (hpending : base.env.cleanup = .pending) (h : Calm base s)
    (hit : PhaseHit) (phase : Phase) :
    Prog.ReturnsIff (setPhase hit phase) s (hit.Passes base) fun _ t => Calm base t := by
  refine ((arrive_returnsIff h hit.start).bind fun _ _ h =>
    (modifyEnv_returnsIff h (f := fun env => { env with phase := phase })
      fun _ => ⟨rfl, rfl⟩).bind fun _ _ h =>
      (step_returnsIff h hit.event).bind fun _ _ h =>
        (persist_returnsIff hpending h hit.write).bind fun _ _ h =>
          step_returnsIff h hit.emit).conseq ?_ fun _ _ h => h
  simp [PhaseHit.Passes]

/-!
## What the `finally` block leaves alone
-/

/-- A predicate on the endpoint and the releases on record alone. -/
def Late (inv : Proc -> Prop) : Prop :=
  forall s t, t.env.endpoint = s.env.endpoint ->
    (forall e, .release e ∈ t.log <-> .release e ∈ s.log) -> inv s -> inv t

namespace Late

theorem robust (h : Late inv) : Robust inv where
  own s t henv _ hlog _ hs := h s t (by rw [henv]) (by rw [hlog]; exact fun _ => Iff.rfl) hs
  edit s _ hend _ hs := h s _ hend (fun _ => Iff.rfl) hs
  write s hs := h s _ rfl (by simp) hs

theorem modifyEnv (h : Late inv) {f : JobEnvelope -> JobEnvelope}
    (hf : forall env, (f env).endpoint = env.endpoint) : Prog.Keeps inv (modifyEnv f) :=
  fun s hs => h s _ (hf s.env) (fun _ => Iff.rfl) hs

theorem updates (h : Late inv) (gaps : Gaps) {fs : List (JobEnvelope -> JobEnvelope)}
    (hfs : forall f, f ∈ fs -> forall env, (f env).endpoint = env.endpoint) :
    Prog.Keeps inv (updates gaps fs) :=
  updates_keeps h.robust.arrive fs gaps fun f hf => h.modifyEnv (hfs f hf)

theorem recordVmKept_endpoint (env : JobEnvelope) (jobId : String) :
    (recordVmKept env jobId).endpoint = env.endpoint := by
  unfold recordVmKept
  split <;> rfl

end Late

theorem recordRelease_after (h : Robust inv) (a : CleanupHit) (jobId : String)
    (outcome : Cleanup × Option String) (hs : inv s)
    (hset : inv { s with env := { s.env with cleanup := outcome.1 } }) :
    inv (recordRelease a jobId endpoint outcome s).2 := by
  by_cases hquiet : Quiet s a.outcome
  · rw [recordRelease, Prog.bind_run_ok (arrive_quiet hquiet)]
    refine Prog.Keeps.after_bind hset fun _ =>
      Prog.Keeps.bind (h.computeUnits _ _) fun _ =>
        Prog.Keeps.bind (h.modifyEnv fun _ => ⟨rfl, rfl⟩) fun _ =>
          h.updates _ fun f hf env => ?_
    simp only [List.mem_cons, List.not_mem_nil, or_false] at hf
    rcases hf with rfl | rfl
    · simp only
      split <;> exact ⟨rfl, rfl⟩
    · simp only
      split <;> exact ⟨rfl, rfl⟩
  · rcases arrive_loud hquiet with ⟨e, t, harrive, _⟩
    have ht := h.arrive a.outcome s hs
    rw [harrive] at ht
    rw [recordRelease, Prog.bind_run_raised harrive]
    exact ht

namespace Late

theorem afterRelease (h : Late inv) (a : CleanupHit) (jobId : String)
    (outcome : Cleanup × Option String) :
    Prog.Keeps inv (recordRelease a jobId endpoint outcome) :=
  fun s hs => recordRelease_after h.robust a jobId outcome hs
    (h.modifyEnv (f := fun env => { env with cleanup := outcome.1 }) (fun _ => rfl) s hs)

section Cleanup

variable (hrelease : forall hit endpoint, Prog.Keeps inv (releaseAssignment hit endpoint))
include hrelease

theorem cleanup (h : Late inv) (a : CleanupHit) (jobId : String) (leaveUp : Bool) :
    Prog.Keeps inv (cleanup a jobId leaveUp) := by
  refine h.robust.toTidy.cleanup a jobId leaveUp (h.updates _ fun f hf env => ?_)
    (h.updates _ fun f hf env => ?_) fun endpoint =>
      Prog.Keeps.bind (hrelease _ _) fun _ => h.afterRelease _ _ _
  · rw [List.mem_singleton.mp hf]
  · rw [List.mem_singleton.mp hf]
    exact recordVmKept_endpoint env jobId

theorem finallyBlock (h : Late inv) (plan : Plan) (a : FinallyHit) :
    Prog.Keeps inv (finallyBlock plan a) :=
  h.robust.finallyBlock plan a fun leaveUp => h.cleanup hrelease a.cleanup plan.jobId leaveUp

end Cleanup

end Late

/-!
## The steps before the release
-/

/-- A step returns, raises its fault, or is ended by a signal. -/
theorem step_cases (hit : Hit) (s : Proc) :
    (hit.Survives s ∧ hit.fault = none ∧ step hit s = (.ok (), s)) ∨
      (exists text, hit.Survives s ∧ hit.fault = some text ∧
        step hit s = (.raised (.exception text), s)) ∨
      (¬hit.Survives s ∧ exists e s', step hit s = (.raised e, s') ∧ e.IsSignal) := by
  by_cases hbefore : Quiet s hit.before
  · cases hfault : hit.fault with
    | some text =>
        refine Or.inr (Or.inl ⟨text, ⟨hbefore, by simp [hfault]⟩, rfl, ?_⟩)
        rw [step, Prog.bind_run_ok (arrive_quiet hbefore), hfault]
        rfl
    | none =>
        have hrun : step hit s = arrive hit.after s := by
          rw [step, Prog.bind_run_ok (arrive_quiet hbefore), hfault]
          rfl
        by_cases hafter : Quiet s hit.after
        · exact Or.inl ⟨⟨hbefore, fun _ => hafter⟩, rfl, hrun.trans (arrive_quiet hafter)⟩
        · refine Or.inr (Or.inr ⟨fun h => hafter (h.right hfault), ?_⟩)
          rw [hrun]
          exact arrive_loud hafter
  · refine Or.inr (Or.inr ⟨fun h => hbefore h.left, ?_⟩)
    rcases arrive_loud hbefore with ⟨e, s', hrun, hsignal⟩
    exact ⟨e, s', Prog.bind_run_raised hrun, hsignal⟩

section Catching

variable {result : Type} {p : Program result} {handler : String -> Program result}

theorem catching_ok {a : result} (h : p s = (.ok a, t)) :
    catching p handler s = (.ok a, t) := by
  simp [catching, Prog.attempt, h]

theorem catching_exception {text : String} (h : p s = (.raised (.exception text), t)) :
    catching p handler s = handler text t := by
  simp [catching, Prog.attempt, h]

theorem catching_signal {e : Raise} (h : p s = (.raised e, t)) (he : e.IsSignal) :
    catching p handler s = (.raised e, t) := by
  rcases he with rfl | ⟨signal, rfl⟩ <;> simp [catching, Prog.attempt, h]

end Catching

theorem closeRuntime_returnsIff (h : Calm base s) (hit : Hit) :
    Prog.ReturnsIff (closeRuntime hit) s (base.runtime = true -> hit.Survives base)
      fun _ t => Calm { base with runtime := false } t := by
  unfold closeRuntime
  cases hruntime : s.runtime with
  | false =>
      have hbase : base.runtime = false := h.runtime.symm.trans hruntime
      refine Prog.ReturnsIff.of_ok (a := ()) (t := s) (by simp [hbase])
        (by simp [Prog.bind_run, hruntime]) ?_
      exact { h with runtime := hruntime }
  | true =>
      have hbase : base.runtime = true := h.runtime.symm.trans hruntime
      let s1 : Proc := { s with runtime := false }
      have hcalm : Calm { base with runtime := false } s1 := { h with runtime := rfl }
      have hsurvives : hit.Survives s1 <-> (base.runtime = true -> hit.Survives base) := by
        simp only [hbase, forall_const, Hit.Survives, hcalm.quiet]
        rfl
      rw [← hsurvives]
      have hrun : forall p : Program Unit, (do
          let s ← (Prog.get : Program Proc)
          if s.runtime then
            Prog.modify fun s => { s with runtime := false }
            p
          else return () : Program Unit) s = p s1 := by
        intro p
        simp [Prog.bind_run, hruntime, s1]
      rw [Prog.ReturnsIff, hrun]
      rcases step_cases hit s1 with ⟨hs, _, hstep⟩ | ⟨text, hs, _, hstep⟩ | ⟨hs, hstep⟩
      · exact ⟨fun _ => ⟨(), s1, catching_ok hstep, hcalm⟩, fun hn => absurd hs hn⟩
      · refine ⟨fun _ => ⟨(), _, (catching_exception hstep).trans rfl, ?_⟩,
          fun hn => absurd hs hn⟩
        exact { hcalm with }
      · rcases hstep with ⟨e, s2, hstep, hsignal⟩
        exact ⟨fun h => absurd h hs, fun _ => ⟨e, s2, catching_signal hstep hsignal⟩⟩

/-- No signal ends the last look at the VM's records, which needs the transport. -/
def CleanupHit.CopyPasses (base : Proc) (a : CleanupHit) : Prop :=
  (base.transport = false -> a.transport.Survives base) ∧
    (base.transport = true ∨ a.transport.fault = none ->
      Quiet base a.copyBefore ∧ Quiet base a.copyAfter)

theorem copyVmRecords_returnsIff (h : Calm base s) (a : CleanupHit) :
    Prog.ReturnsIff (do
        arrive a.copyBefore
        modifyEnv fun env => env.addHint (copyVmRecords a.copy)
        arrive a.copyAfter) s
      (Quiet base a.copyBefore ∧ Quiet base a.copyAfter) fun _ t => Calm base t := by
  refine ((arrive_returnsIff h a.copyBefore).bind fun _ _ h =>
    (modifyEnv_returnsIff h (mild_addHint _)).bind fun _ _ h =>
      arrive_returnsIff h a.copyAfter).conseq ?_ fun _ _ h => h
  simp

theorem makeTransport_cases (h : Calm base s) (hit : Hit) :
    let made : Program (Option String) :=
      catching (do jobTransport hit; return none) fun text => return some text
    (base.transport = true ∧ made s = (.ok none, s)) ∨
      (base.transport = false ∧ hit.Survives base ∧ hit.fault = none ∧
        made s = (.ok none, { s with transport := true })) ∨
      (exists text, base.transport = false ∧ hit.Survives base ∧
        hit.fault = some text ∧ made s = (.ok (some text), s)) ∨
      (base.transport = false ∧ ¬hit.Survives base ∧
        exists e s', made s = (.raised e, s')) := by
  intro made
  have hsurvives : hit.Survives s <-> hit.Survives base := by
    simp only [Hit.Survives, h.quiet]
  cases hmade : s.transport with
  | true =>
      refine Or.inl ⟨h.transport.symm.trans hmade, catching_ok ?_⟩
      simp [jobTransport, Prog.bind_run, hmade]
  | false =>
      have hbase : base.transport = false := h.transport.symm.trans hmade
      rw [← hsurvives]
      refine Or.inr ?_
      rcases step_cases hit s with ⟨hs, hf, hstep⟩ | ⟨text, hs, hf, hstep⟩ | ⟨hs, hstep⟩
      · refine Or.inl ⟨hbase, hs, hf, catching_ok ?_⟩
        simp [jobTransport, Prog.bind_run, hmade, hstep]
      · refine Or.inr (Or.inl ⟨text, hbase, hs, hf, ?_⟩)
        have hraised : (do jobTransport hit; return none : Program (Option String)) s =
            (.raised (.exception text), s) := by
          simp [jobTransport, Prog.bind_run, hmade, hstep]
        exact (catching_exception hraised).trans rfl
      · rcases hstep with ⟨e, s', hstep, hsignal⟩
        refine Or.inr (Or.inr ⟨hbase, hs, e, s', catching_signal ?_ hsignal⟩)
        simp [jobTransport, Prog.bind_run, hmade, hstep]

theorem copyRecords_returnsIff (h : Calm base s) (a : CleanupHit) :
    Prog.ReturnsIff (copyRecordsBeforeRelease a) s (a.CopyPasses base)
      fun _ t => exists made, Calm { base with transport := made } t := by
  rcases makeTransport_cases h a.transport with
    ⟨hbase, hmade⟩ | ⟨hbase, hs, hf, hmade⟩ | ⟨text, hbase, hs, hf, hmade⟩ |
      ⟨hbase, hs, e, s', hmade⟩
  · refine Prog.ReturnsIff.conseq (c := Quiet base a.copyBefore ∧ Quiet base a.copyAfter)
      (g := fun _ t => Calm base t) ?_ (by simp [CleanupHit.CopyPasses, hbase])
      fun _ _ h => ⟨base.transport, h⟩
    rw [Prog.ReturnsIff, copyRecordsBeforeRelease, Prog.bind_run_ok hmade]
    exact copyVmRecords_returnsIff h a
  · have hcalm : Calm { base with transport := true } { s with transport := true } :=
      { h with transport := rfl }
    refine Prog.ReturnsIff.conseq (c := Quiet base a.copyBefore ∧ Quiet base a.copyAfter)
      (g := fun _ t => Calm { base with transport := true } t) ?_
      (by simp [CleanupHit.CopyPasses, hbase, hs, hf]) fun _ _ h => ⟨true, h⟩
    rw [Prog.ReturnsIff, copyRecordsBeforeRelease, Prog.bind_run_ok hmade]
    exact copyVmRecords_returnsIff hcalm a
  · refine Prog.ReturnsIff.conseq (c := True) (g := fun _ t => Calm base t) ?_
      (by simp [CleanupHit.CopyPasses, hbase, hs, hf]) fun _ _ h => ⟨base.transport, h⟩
    rw [Prog.ReturnsIff, copyRecordsBeforeRelease, Prog.bind_run_ok hmade]
    exact modifyEnv_returnsIff h (mild_addHint _)
  · exact Prog.ReturnsIff.of_raised (fun hc => hs (hc.left hbase))
      (Prog.bind_run_raised hmade)

theorem stopKeepAlive_returnsIff (h : Calm base s) (hit : Hit) :
    Prog.ReturnsIff (stopKeepAlive hit) s
      (base.session = true ∧ base.keepAlivePid = true -> hit.Passes base)
      fun _ t => Calm base t := by
  rw [← h.session, ← h.keepAlivePid]
  by_cases hpid : s.session = true ∧ s.keepAlivePid = true
  · have hrun : stopKeepAlive hit s = step hit s := by
      simp [stopKeepAlive, Prog.bind_run, hpid]
    rw [Prog.ReturnsIff, hrun]
    exact (step_returnsIff h hit).conseq (by simp [hpid]) fun _ _ h => h
  · refine Prog.ReturnsIff.of_ok (a := ()) (t := s) (fun hx => absurd hx hpid) ?_ h
    simp [stopKeepAlive, Prog.bind_run, hpid]

/-!
## The release
-/

/-- `release_assignment` has been called on the endpoint. -/
def Called (endpoint : String) (s : Proc) : Prop := .release endpoint ∈ s.log

/-- Whether it has been called is as in `s`. -/
def SameCalls (endpoint : String) (s t : Proc) : Prop := Called endpoint t <-> Called endpoint s

theorem SameCalls.eq (h : SameCalls endpoint s t) :
    Called endpoint t = Called endpoint s := propext h

theorem late_called (endpoint : String) : Late (Called endpoint) :=
  fun _ _ _ hlog hs => (hlog endpoint).mpr hs

theorem late_sameCalls (endpoint : String) (s : Proc) : Late (SameCalls endpoint s) :=
  fun _ _ _ hlog hs => (hlog endpoint).trans hs

theorem called_bind {result : Type} {p : Program result} {f : result -> Program Unit}
    {c d : Prop} {good : result -> Proc -> Prop} (hp : Prog.ReturnsIff p s c good)
    (hkeeps : Prog.Keeps (SameCalls endpoint s) p)
    (hf : forall a t, good a t ->
      (Called endpoint (f a t).2 <-> Called endpoint t ∨ d)) :
    Called endpoint ((p >>= f) s).2 <-> Called endpoint s ∨ c ∧ d := by
  have hsame : SameCalls endpoint s (p s).2 := hkeeps s Iff.rfl
  by_cases hc : c
  · rcases hp.left hc with ⟨a, t, hrun, hgood⟩
    rw [hrun] at hsame
    rw [Prog.bind_run_ok hrun, hf a t hgood, hsame.eq]
    simp [hc]
  · rcases hp.right hc with ⟨e, t, hrun⟩
    rw [hrun] at hsame
    rw [Prog.bind_run_raised hrun, hsame.eq]
    simp [hc]

theorem releaseAndRecord_called (a : CleanupHit) (jobId : String) (s : Proc) :
    Called endpoint (releaseAndRecord a jobId endpoint s).2 <->
      Called endpoint s ∨ Quiet s a.release.before := by
  by_cases hquiet : Quiet s a.release.before
  · have hlate := late_called endpoint
    refine iff_of_true ?_ (Or.inr hquiet)
    refine Prog.Keeps.after_ensure (Prog.Keeps.after_bind ?_
      fun outcome => hlate.afterRelease a jobId outcome)
      (Prog.Keeps.bind (hlate.robust.dropSession _ _) fun _ => hlate.robust.persist _)
    rw [releaseAssignment, Prog.bind_run_ok (arrive_quiet hquiet)]
    refine (Prog.Keeps.bind (hlate.robust.arrive a.release.during) fun _ =>
      Prog.Keeps.bind Prog.Keeps.get fun _ =>
        Prog.Keeps.bind (Prog.Keeps.modify fun t ht =>
          confirmed_keeps _ ht (List.mem_cons_of_mem _ ht)) fun _ =>
          Prog.Keeps.bind (hlate.robust.arrive _) fun _ => Prog.Keeps.pure _)
      (afterUnassign a.release endpoint s) ?_
    simp only [Called, afterUnassign]
    split <;> exact List.mem_cons_self
  · have hlate := late_sameCalls endpoint s
    rcases arrive_loud hquiet with ⟨e, t, harrive, _⟩
    have hraised : (do
        let outcome ← releaseAssignment a.release endpoint
        recordRelease a jobId endpoint outcome : Program Unit) s = (.raised e, t) :=
      Prog.bind_run_raised (Prog.bind_run_raised harrive)
    have ht : SameCalls endpoint s t := by
      have := hlate.robust.arrive a.release.before s Iff.rfl
      rwa [harrive] at this
    have hsame : SameCalls endpoint s (releaseAndRecord a jobId endpoint s).2 :=
      Prog.Keeps.after_ensure (by rw [hraised]; exact ht)
        (Prog.Keeps.bind (hlate.robust.dropSession _ _) fun _ => hlate.robust.persist _)
    rw [hsame.eq]
    simp [hquiet]

/-- Every step before the release passes: a failure while the runtime is closed, the
transport made or the records copied is caught, and one while the phase is entered or
the keep-alive stopped is not. -/
structure CleanupHit.Reaches (s : Proc) (a : CleanupHit) : Prop where
  close : s.runtime = true -> a.close.Survives s
  phase : a.phase.Passes s
  copy : a.CopyPasses s
  keepAlive : s.session = true ∧ s.keepAlivePid = true -> a.keepAlive.Passes s
  release : Quiet s a.release.before

theorem cleanup_called (h : Calm base s) (a : CleanupHit) (jobId : String)
    (hpending : base.env.cleanup = .pending)
    (hendpoint : nonempty base.env.endpoint = some endpoint) :
    Called endpoint (cleanup a jobId false s).2 <->
      Called endpoint s ∨ a.Reaches base := by
  have hsame := late_sameCalls endpoint
  have hreaches : a.Reaches base <->
      (base.runtime = true -> a.close.Survives base) ∧ a.phase.Passes base ∧
        a.CopyPasses base ∧
        (base.session = true ∧ base.keepAlivePid = true -> a.keepAlive.Passes base) ∧
        Quiet base a.release.before :=
    ⟨fun h => ⟨h.close, h.phase, h.copy, h.keepAlive, h.release⟩,
      fun h => ⟨h.1, h.2.1, h.2.2.1, h.2.2.2.1, h.2.2.2.2⟩⟩
  rw [hreaches]
  refine called_bind (closeRuntime_returnsIff h _) ((hsame s).robust.closeRuntime _)
    fun _ s1 h1 => ?_
  have hpending' : ({ base with runtime := false } : Proc).env.cleanup = .pending := hpending
  refine called_bind (setPhase_returnsIff hpending' h1 a.phase .cleanup)
    ((hsame s1).robust.setPhase _ _) fun _ s2 h2 => ?_
  have hend : nonempty s2.env.endpoint = some endpoint := by rw [h2.endpoint, ← hendpoint]
  rw [Prog.bind_run_ok (Prog.get_run s2), hend]
  refine called_bind (copyRecords_returnsIff h2 a)
    ((hsame s2).robust.copyRecordsBeforeRelease a) fun _ s3 h3 => ?_
  rcases h3 with ⟨made, h3⟩
  refine called_bind (stopKeepAlive_returnsIff h3 a.keepAlive)
    ((hsame s3).robust.stopKeepAlive _) fun _ s4 h4 => ?_
  rw [releaseAndRecord_called, h4.quiet]
  rfl

/-!
## The `finally` block
-/

def Kept (plan : Plan) (a : FinallyHit) (s : Proc) : Prop :=
  exists removed t, removeSecret a.secret s = (.ok removed, t) ∧
    keepVm t.env (some plan.spec) removed = true

/-- The VM is left to a later `status --poll`. -/
def HandedOff (a : FinallyHit) (s : Proc) : Prop :=
  exists t, removeSecret a.secret s = (.ok true, t) ∧ t.env.supervisor = .interrupted

/-- No signal ends the `finally` block before its cleanup, and cleanup reaches the
release. -/
def FinallyHit.Reaches (s : Proc) (a : FinallyHit) : Prop :=
  Quiet s a.start ∧ exists removed t, removeSecret a.secret s = (.ok removed, t) ∧
    (removed = false -> forall i, i ≤ 3 -> Quiet t (a.gaps i)) ∧ a.cleanup.Reaches t

theorem removeSecret_unprepared (h : s.prepared = false) (a : SecretHit) :
    removeSecret a s = (.ok true, s) := by
  cases hhandoff : s.handoff <;>
    simp [removeSecret, cleanupSecretChannel, Prog.bind_run, hhandoff, h]

theorem kept_unprepared (h : s.prepared = false) (plan : Plan) (a : FinallyHit) :
    Kept plan a s <-> keepVm s.env (some plan.spec) true = true := by
  simp [Kept, removeSecret_unprepared h]

theorem handedOff_unprepared (h : s.prepared = false) (a : FinallyHit) :
    HandedOff a s <-> s.env.supervisor = .interrupted := by
  simp [HandedOff, removeSecret_unprepared h]

def SameVm (env : JobEnvelope) (t : Proc) : Prop :=
  t.env.endpoint = env.endpoint ∧ t.env.cleanup = env.cleanup

theorem robust_sameVm (env : JobEnvelope) : Robust (SameVm env) where
  own s t henv _ _ _ hs := by
    rw [SameVm, henv]
    exact hs
  edit _ _ hend hclean hs := ⟨hend.trans hs.left, hclean.trans hs.right⟩
  write _ hs := hs

theorem secretKept_returnsIff (h : Calm base s) (removed : Bool) (gaps : Gaps)
    (problem : Option String) :
    Prog.ReturnsIff (if removed then pure () else
        updates gaps (secretKeptVerdict problem) : Program Unit) s
      (removed = false -> forall i, i ≤ 3 -> Quiet base (gaps i))
      fun _ t => Calm base t := by
  cases removed with
  | true => exact Prog.ReturnsIff.of_ok (by simp) rfl h
  | false =>
      exact (updates_returnsIff _ gaps h fun _ hf =>
        Robust.secretKeptVerdict_mild hf).conseq (by simp [secretKeptVerdict])
          fun _ _ h => h

theorem cleanup_reached (plan : Plan) (a : FinallyHit) {c : Prop} {removed : Bool}
    {p : Program Unit} (hp : Prog.ReturnsIff p s c fun _ t => Calm s t)
    (hkeeps : Prog.Keeps (SameCalls endpoint s) p)
    (hpending : s.env.cleanup = .pending)
    (hendpoint : nonempty s.env.endpoint = some endpoint)
    (hhanded : ¬(s.env.supervisor = .interrupted ∧ removed = true)) :
    Called endpoint ((do
        p
        if decide (s.env.supervisor = .interrupted) && removed then detach a
        else cleanup a.cleanup plan.jobId false : Program Unit) s).2 <->
      Called endpoint s ∨ c ∧ a.cleanup.Reaches s := by
  refine called_bind hp hkeeps fun _ t ht => ?_
  rw [if_neg (by simpa using hhanded)]
  exact cleanup_called ht a.cleanup plan.jobId hpending hendpoint

theorem settleVm_called (plan : Plan) (a : FinallyHit) (removed : Bool) (s : Proc)
    (hpending : s.env.cleanup = .pending)
    (hendpoint : nonempty s.env.endpoint = some endpoint)
    (hkept : keepVm s.env (some plan.spec) removed = false)
    (hhanded : ¬(s.env.supervisor = .interrupted ∧ removed = true)) :
    Called endpoint (settleVm plan a removed s).2 <->
      Called endpoint s ∨
        ((removed = false -> forall i, i ≤ 3 -> Quiet s (a.gaps i)) ∧
          a.cleanup.Reaches s) := by
  have hlate := (late_sameCalls endpoint s).robust
  rw [settleVm, Prog.bind_run_ok (Prog.get_run s)]
  simp only [hkept]
  refine cleanup_reached plan a (secretKept_returnsIff (Calm.refl s) removed a.gaps _) ?_
    hpending hendpoint hhanded
  exact Prog.Keeps.ite (Prog.Keeps.pure _) (hlate.updates _ fun _ hf =>
    Robust.secretKeptVerdict_mild hf)

theorem finallyBlock_called (plan : Plan) (a : FinallyHit) (s : Proc)
    (hpending : s.env.cleanup = .pending)
    (hendpoint : nonempty s.env.endpoint = some endpoint) (hkept : ¬Kept plan a s)
    (hhanded : ¬HandedOff a s) :
    Called endpoint (finallyBlock plan a s).2 <-> Called endpoint s ∨ a.Reaches s := by
  by_cases hstart : Quiet s a.start
  · rw [finallyBlock, Prog.bind_run_ok (arrive_quiet hstart)]
    have hsame := (late_sameCalls endpoint s).robust.removeSecret a.secret s Iff.rfl
    have hvm := (robust_sameVm s.env).removeSecret a.secret s ⟨rfl, rfl⟩
    rcases hsecret : removeSecret a.secret s with ⟨outcome, t⟩
    rw [hsecret] at hsame hvm
    cases outcome with
    | ok removed =>
        rw [Prog.bind_run_ok hsecret]
        have hkeep : keepVm t.env (some plan.spec) removed = false := by
          by_contra hkeep
          exact hkept ⟨removed, t, hsecret, by simpa using hkeep⟩
        have hsettled := settleVm_called plan a removed t (hvm.right.trans hpending)
          (by rw [hvm.left, hendpoint]) hkeep fun h =>
            hhanded ⟨t, by rw [hsecret, h.right], h.left⟩
        have hlet : SameCalls endpoint (settleVm plan a removed t).2
            ((do settleVm plan a removed; letGo plan a : Program Unit) t).2 :=
          Prog.Keeps.after_bind Iff.rfl fun _ =>
            (late_sameCalls endpoint _).robust.letGo plan a
        rw [hlet.eq, hsettled, hsame.eq]
        refine or_congr_right ⟨fun h => ⟨hstart, removed, t, hsecret, h.left, h.right⟩, ?_⟩
        rintro ⟨_, removed', t', hsecret', hgaps, hreaches⟩
        rw [hsecret] at hsecret'
        cases hsecret'
        exact ⟨hgaps, hreaches⟩
    | raised e =>
        rw [Prog.bind_run_raised hsecret, hsame.eq]
        simp [FinallyHit.Reaches, hsecret]
    | ended =>
        rw [Prog.bind_run, hsecret, hsame.eq]
        simp [FinallyHit.Reaches, hsecret]
  · rcases arrive_loud hstart with ⟨e, t, harrive, _⟩
    have hsame := (late_sameCalls endpoint s).robust.arrive a.start s Iff.rfl
    rw [harrive] at hsame
    rw [finallyBlock, Prog.bind_run_raised harrive, hsame.eq]
    simp [FinallyHit.Reaches, hstart]

/-!
## The command
-/

/-- The process when its `finally` block begins. -/
def atFinally (args : Args) (a : Answers) (disk : Option JobEnvelope) : Proc :=
  (supervised args a (start args disk)).2

/-- The process is still there when the block begins. -/
def Survived (args : Args) (a : Answers) (disk : Option JobEnvelope) : Prop :=
  (supervised args a (start args disk)).1 ≠ .ended

theorem report_still (a : Answers) : Prog.Still (report a) := by
  intro s
  cases hemit : a.emit with
  | some text => simp [report, attempted, Prog.bind_run, hemit]
  | none =>
      rw [report, hemit, Prog.bind_run_ok (rfl : attempted none s = (.ok (), s)),
        Prog.bind_run_ok (Prog.get_run s)]
      split <;> rfl

theorem apply_cases {args : Args} {a : Answers} {disk : Option JobEnvelope}
    (hsurvived : Survived args a disk) :
    (apply args a disk).2 = start args disk ∨
      (apply args a disk).2 =
        (finallyBlock args.plan a.finally_ (atFinally args a disk)).2 := by
  unfold apply
  split
  · exact Or.inl rfl
  · split
    · exact Or.inl rfl
    · refine Or.inr ?_
      rw [Prog.bind_still (fun _ => report_still a), run, Prog.ensure_state hsurvived]
      rfl

/-- A run that leaves an endpoint in the envelope went through its `finally` block. -/
theorem apply_state {args : Args} {a : Answers} {disk : Option JobEnvelope}
    (hsurvived : Survived args a disk)
    (hendpoint : nonempty (apply args a disk).2.env.endpoint = some endpoint) :
    (apply args a disk).2 =
      (finallyBlock args.plan a.finally_ (atFinally args a disk)).2 := by
  rcases apply_cases hsurvived with hrefused | hstate
  · rw [hrefused] at hendpoint
    cases hendpoint
  · exact hstate

def Names (endpoint : Option String) (t : Proc) : Prop := t.env.endpoint = endpoint

theorem finallyBlock_endpoint (plan : Plan) (a : FinallyHit) (s : Proc) :
    (finallyBlock plan a s).2.env.endpoint = s.env.endpoint := by
  have hlate : Late (Names s.env.endpoint) := fun _ _ hend _ hs => hend.trans hs
  refine hlate.finallyBlock (fun hit endpoint => ?_) plan a s rfl
  refine releaseAssignment_keeps hit endpoint hlate.robust.arrive (fun t ht => ?_)
    fun t ht => ht
  simp only [Names, afterUnassign]
  split <;> exact ht

/-- A run of apply that keeps its endpoint, does not keep its VM up and does not leave it
to a later `status --poll` calls `release_assignment` on it exactly when it had done so
before, or nothing that is not guarded fails before the release. -/
theorem apply_releases_iff (args : Args) (a : Answers) (disk : Option JobEnvelope)
    (endpoint : String) (hsurvived : Survived args a disk)
    (hendpoint : nonempty (apply args a disk).2.env.endpoint = some endpoint)
    (hkept : ¬Kept args.plan a.finally_ (atFinally args a disk))
    (hhanded : ¬HandedOff a.finally_ (atFinally args a disk)) :
    Called endpoint (apply args a disk).2 <->
      Called endpoint (atFinally args a disk) ∨
        a.finally_.Reaches (atFinally args a disk) := by
  have hstate := apply_state hsurvived hendpoint
  rw [hstate, finallyBlock_endpoint] at hendpoint
  rw [hstate]
  exact finallyBlock_called args.plan a.finally_ _ (supervised_pending args a disk)
    hendpoint hkept hhanded

theorem e_nonempty : "e" ≠ "" := by decide

def t4Job : Args where
  plan := { jobId := "j", spec := { name := "n", code := { entry := "main.py" } } }

/-- A run that is granted a VM and cannot write the envelope then; `cleanup` is what
happens on its way out. -/
def unwritten (cleanup : CleanupHit) : Answers where
  body := { provision := { candidates := fun _ =>
    { outcome := .granted ⟨⟨"e", e_nonempty⟩, some "T4"⟩
      write := { write := { file := some "OSError: No space left on device" } } } } }
  finally_ := { cleanup }

/-- The disk has room again, and the transport for the VM's records cannot be made. -/
theorem apply_releases_iff_recovered :
    Called "e" (apply t4Job
      (unwritten { transport := { fault := some "ConnectionError: refused" } }) none).2 := by
  refine (apply_releases_iff t4Job _ none "e" (by unfold Survived; decide)
    (by decide +kernel) ?_ ?_).mpr (Or.inr ⟨trivial, true, _,
      removeSecret_unprepared (by decide) _, by simp,
      { close := fun _ => ⟨trivial, fun _ => trivial⟩
        phase := ⟨trivial, ⟨trivial, rfl, trivial⟩, ⟨trivial, rfl, trivial⟩,
          ⟨trivial, rfl, trivial⟩⟩
        copy := ⟨fun _ => ⟨trivial, fun _ => trivial⟩, fun _ => ⟨trivial, trivial⟩⟩
        keepAlive := fun _ => ⟨trivial, rfl, trivial⟩
        release := trivial }⟩)
  · rw [kept_unprepared (by decide)]
    decide
  · rw [handedOff_unprepared (by decide)]
    decide

/-- The disk is still full when cleanup begins: the event that enters the phase cannot be
appended, and apply exits with its VM assigned. -/
theorem apply_not_released :
    exists args a disk endpoint, Survived args a disk ∧
      nonempty (apply args a disk).2.env.endpoint = some endpoint ∧
      ¬Kept args.plan a.finally_ (atFinally args a disk) ∧
      ¬HandedOff a.finally_ (atFinally args a disk) ∧
      ¬Called endpoint (apply args a disk).2 ∧
      (apply args a disk).2.live = [endpoint] := by
  refine ⟨t4Job, unwritten { phase :=
    { event := { fault := some "OSError: No space left on device" } } }, none, "e",
    by unfold Survived; decide, by decide, ?_, ?_, ?_, by decide⟩
  · rw [kept_unprepared (by decide)]
    decide
  · rw [handedOff_unprepared (by decide)]
    decide
  · have hlog : (apply t4Job (unwritten { phase :=
        { event := { fault := some "OSError: No space left on device" } } }) none).2.log =
        [.assigned "e", .wrote { newEnvelope t4Job with phase := .provision }] := by
      rfl
    rw [Called, hlog]
    simp

end Apply
end Job
end MightyColab
