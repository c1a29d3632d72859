import MightyColab.Job.Absorb

/-!
# Coherent verdicts

The reason, the retry class and the failed phase that a result leaves in an envelope say
the same as its workload and its offload.
-/

namespace MightyColab
namespace Job

open Lib

namespace Absorb

/-!
## Texts that are not empty
-/

theorem append_ne_left {a b : String} (h : a ≠ "") : a ++ b ≠ "" :=
  fun h' => h (String.append_eq_empty_iff.mp h').1

theorem append_ne_right {a b : String} (h : b ≠ "") : a ++ b ≠ "" :=
  fun h' => h (String.append_eq_empty_iff.mp h').2

theorem intercalate_ne {sep first : String} {rest : List String} (h : first ≠ "") :
    sep.intercalate (first :: rest) ≠ "" := by
  cases rest with
  | nil =>
      rw [String.intercalate_singleton]
      exact h
  | cons second rest =>
      rw [String.intercalate_cons_cons]
      exact append_ne_left (append_ne_left h)

/-!
## The workload
-/

/-- A text, or nothing, that says exactly when there is something to say. -/
structure Told (reason : Option String) (clean : Prop) : Prop where
  nonempty : reason ≠ some ""
  iff : reason = none <-> clean

theorem told_none {clean : Prop} (h : clean) : Told none clean :=
  ⟨nofun, iff_of_true rfl h⟩

theorem told_some {clean : Prop} {text : String} (htext : text ≠ "") (h : ¬clean) :
    Told (some text) clean :=
  ⟨fun heq => htext (Option.some.inj heq), iff_of_false nofun h⟩

/-- Cancelled by anyone or anything but the wall clock. -/
def CancelledOnRequest (workload : Workload) (result : Json.Fields) : Prop :=
  workload = .cancelled ∧
    Verdict.cancelSource (result.get "cancel_intent") ≠ some "wall_clock"

theorem workloadOf_value {result : Json.Fields} {workload : Workload}
    (h : workloadOf result = .ok workload) :
    result.getD "workload" (.str "unknown") = .str workload.value := by
  unfold workloadOf at h
  simp only at h
  split at h
  · rename_i s hvalue
    split at h
    · rename_i w hw
      cases h
      rw [hvalue]
      have hfound := List.find?_some hw
      rw [decide_eq_true_eq] at hfound
      rw [hfound]
    · cases h
  · cases h

theorem withNotes_ne {reason : String} {notes : List (Option String)} (h : reason ≠ "") :
    Verdict.withNotes reason notes ≠ "" :=
  intercalate_ne h

theorem failedReason_ne {result : Json.Fields} {reason : String}
    (h : Verdict.failedReason result = .ok reason) : reason ≠ "" := by
  unfold Verdict.failedReason at h
  simp only at h
  split at h
  · cases h
    exact append_ne_left (append_ne_left (by decide))
  · split at h
    · rcases Fallible.bind_ok h with ⟨count, _, h⟩
      rcases Fallible.bind_ok h with ⟨pids, _, h⟩
      cases h
      exact append_ne_left (append_ne_right (by decide))
    · have hplain : forall exitCode : Json,
          s!"the workload exited {exitCode.pyStr} without a recorded " ++
            "exception; its output is in runner.log" ≠ "" :=
        fun _ => append_ne_right (by decide)
      split at h
      · split at h
        · cases h
          exact append_ne_left (append_ne_left (append_ne_right (by decide)))
        · cases h
          exact hplain _
      · cases h
        exact hplain _

theorem cancelledOutcome_told (result : Json.Fields) (wallClock : Int) :
    Told (Verdict.cancelledOutcome result wallClock).1 False ∧
      ((Verdict.cancelledOutcome result wallClock).2 = none <->
        Verdict.cancelSource (result.get "cancel_intent") ≠ some "wall_clock") := by
  unfold Verdict.cancelledOutcome
  simp only
  split
  · rename_i hsource
    refine ⟨told_some ?_ id, iff_of_false nofun fun h => h hsource⟩
    exact append_ne_left (append_ne_right (by decide))
  · rename_i requester hother hsource
    refine ⟨told_some ?_ id, iff_of_true rfl ?_⟩
    · exact append_ne_left (append_ne_left (append_ne_left (by decide)))
    · intro h
      rw [hsource] at h
      exact hother (Option.some.inj h)
  · rename_i hsource
    refine ⟨told_some ?_ id, iff_of_true rfl ?_⟩
    · exact append_ne_left (append_ne_right (by decide))
    · rw [hsource]
      exact nofun

/-- What is said of a workload: nothing of a success, no class for a cancel on request. -/
theorem workloadOutcome_told {result : Json.Fields} {wallClock : Int} {workload : Workload}
    {outcome : Verdict.Outcome} (hvalue : workloadOf result = .ok workload)
    (h : Verdict.workloadOutcome result wallClock = .ok outcome) :
    Told outcome.1 (workload = .succeeded) ∧
      (outcome.2 = none <-> workload = .succeeded ∨ CancelledOnRequest workload result) := by
  have hworkload := workloadOf_value hvalue
  unfold Verdict.workloadOutcome at h
  rw [hworkload] at h
  -- every other value is a failure of the run, with a reason and a class
  have hfails : forall text (retry : RetryClass), text ≠ "" -> workload ≠ .succeeded ->
      workload ≠ .cancelled -> outcome = (some text, some retry) ->
      Told outcome.1 (workload = .succeeded) ∧
        (outcome.2 = none <->
          workload = .succeeded ∨ CancelledOnRequest workload result) := by
    rintro text retry htext hsucceeded hcancelled rfl
    refine ⟨told_some htext hsucceeded, iff_of_false nofun ?_⟩
    rintro (h | h)
    · exact hsucceeded h
    · exact hcancelled h.1
  have hfailed : workload ≠ .succeeded -> workload ≠ .cancelled ->
      (do
        let reason ← Verdict.failedReason result
        let note ← Verdict.oomNote result
        return (some (Verdict.withNotes reason [note]), some RetryClass.fixCode) :
          Except String Verdict.Outcome) = .ok outcome ->
      Told outcome.1 (workload = .succeeded) ∧
        (outcome.2 = none <->
          workload = .succeeded ∨ CancelledOnRequest workload result) := by
    intro hsucceeded hcancelled h
    rcases Fallible.bind_ok h with ⟨reason, hreason, h⟩
    rcases Fallible.bind_ok h with ⟨note, _, h⟩
    cases h
    exact hfails _ _ (withNotes_ne (failedReason_ne hreason)) hsucceeded hcancelled rfl
  cases workload with
  | pending => exact hfailed nofun nofun h
  | running => exact hfailed nofun nofun h
  | failed => exact hfailed nofun nofun h
  | succeeded =>
      cases h
      exact ⟨told_none rfl, iff_of_true rfl (Or.inl rfl)⟩
  | cancelled =>
      cases h
      rcases cancelledOutcome_told result wallClock with ⟨htold, hretry⟩
      refine ⟨⟨htold.nonempty, htold.iff.trans (iff_of_false id nofun)⟩, hretry.trans ?_⟩
      constructor
      · intro h
        exact Or.inr ⟨rfl, h⟩
      · rintro (h | h)
        · cases h
        · exact h.2
  | unknown =>
      rcases Fallible.bind_ok h with ⟨note, _, h⟩
      cases h
      refine hfails _ _ (withNotes_ne ?_) nofun nofun rfl
      split
      · exact append_ne_left (by decide)
      · decide

/-!
## The offload
-/

theorem mem_ite {item : Type} {c : Prop} [Decidable c] {x : item} {first second : List item}
    (h : x ∈ if c then first else second) : c ∧ x ∈ first ∨ ¬c ∧ x ∈ second := by
  by_cases hc : c
  · rw [if_pos hc] at h
    exact Or.inl ⟨hc, h⟩
  · rw [if_neg hc] at h
    exact Or.inr ⟨hc, h⟩

theorem offloadParts_told {declared : List ArtifactItem} {artifacts : List ArtifactResult}
    {remoteOffload offloadError : Json} {part : String × List RetryClass}
    (h : part ∈ Verdict.offloadParts declared artifacts remoteOffload offloadError) :
    part.1 ≠ "" ∧ part.2 ≠ [] := by
  rcases mem_ite h with ⟨_, h⟩ | ⟨_, h⟩
  · rw [List.mem_singleton.mp h]
    exact ⟨by decide, nofun⟩
  rw [List.mem_append, List.mem_append] at h
  rcases h with (h | h) | h
  · rcases mem_ite h with ⟨_, h⟩ | ⟨_, h⟩
    · rw [List.mem_singleton.mp h]
      exact ⟨append_ne_left (by decide), nofun⟩
    · cases h
  · rcases mem_ite h with ⟨_, h⟩ | ⟨_, h⟩
    · rw [List.mem_singleton.mp h]
      exact ⟨append_ne_left (by decide), nofun⟩
    · cases h
  · rcases mem_ite h with ⟨hfailed, h⟩ | ⟨_, h⟩
    · rw [List.mem_singleton.mp h]
      exact ⟨append_ne_left (by decide), fun hnil => hfailed (List.map_eq_nil_iff.mp hnil)⟩
    · cases h

theorem mem_strength (c : RetryClass) : c ∈ Verdict.strength := by
  cases c <;> decide

theorem strongest_isSome {classes : List RetryClass} (h : classes ≠ []) :
    (Verdict.strongest (classes.map some)).isSome = true := by
  rcases List.exists_mem_of_ne_nil classes h with ⟨c, hc⟩
  rw [Verdict.strongest, List.find?_isSome]
  refine ⟨c, mem_strength c, ?_⟩
  rw [List.contains_iff_mem]
  exact List.mem_map_of_mem hc

/-- The offload went well and nothing is said of it, or it failed with a reason and a
class. -/
theorem offloadOutcome_told (declared : List ArtifactItem) (artifacts : List ArtifactResult)
    (remoteOffload offloadError : Json) :
    Verdict.offloadOutcome declared artifacts remoteOffload offloadError = (.ok, none, none) ∨
      exists reason retry,
        Verdict.offloadOutcome declared artifacts remoteOffload offloadError =
          (.failed, some reason, some retry) ∧ reason ≠ "" := by
  unfold Verdict.offloadOutcome
  simp only
  cases hparts : Verdict.offloadParts declared artifacts remoteOffload offloadError with
  | nil => exact Or.inl rfl
  | cons part rest =>
      have hpart : part.1 ≠ "" ∧ part.2 ≠ [] := offloadParts_told (by
        rw [hparts]
        exact List.mem_cons_self)
      have hclasses : part.2 ++ rest.flatMap Prod.snd ≠ [] :=
        fun h => hpart.2 (List.append_eq_nil_iff.mp h).1
      rcases Option.isSome_iff_exists.mp (strongest_isSome hclasses) with ⟨retry, hretry⟩
      have hstrongest : Verdict.strongest (((part :: rest).flatMap (·.2)).map some) =
          some retry := by
        rw [List.flatMap_cons]
        exact hretry
      refine Or.inr ⟨"; ".intercalate (part.1 :: rest.map (·.1)), retry, ?_,
        intercalate_ne hpart.1⟩
      rw [hstrongest]
      rfl

structure OffloadTold (offload : Offload) (reason : Option String) (retry : Option RetryClass) :
    Prop where
  nonempty : reason ≠ some ""
  reason : reason = none <-> offload ≠ .failed
  retry : retry = none <-> offload ≠ .failed

theorem offloadOf_told (spec : JobSpec) (stageFailed : Bool) (artifacts : List ArtifactResult)
    (result : Json.Fields) :
    let closed := offloadOf spec stageFailed artifacts result
    OffloadTold closed.1 closed.2.1 closed.2.2 ∧
      (stageFailed = true -> closed.1 = .skipped ∨ closed.1 = .notRequired) ∧
      (stageFailed = false -> closed.1 = .ok ∨ closed.1 = .notRequired ∨ closed.1 = .failed) := by
  have hquiet : forall offload, offload ≠ .failed -> OffloadTold offload none none :=
    fun offload h => ⟨nofun, iff_of_true rfl h, iff_of_true rfl h⟩
  unfold offloadOf
  simp only
  split
  · exact ⟨hquiet _ nofun, fun _ => Or.inr rfl, fun _ => Or.inr (Or.inl rfl)⟩
  · split
    · rename_i hstage
      exact ⟨hquiet _ nofun, fun _ => Or.inl rfl, fun h => nomatch hstage.symm.trans h⟩
    · rename_i hstage
      have hother : stageFailed = true -> forall {p : Prop}, p := fun h => absurd h hstage
      rcases offloadOutcome_told spec.artifacts artifacts (result.get "offload")
        (result.get "offload_error") with hok | ⟨reason, retry, hfailed, hreason⟩
      · rw [hok]
        exact ⟨hquiet _ nofun, fun h => hother h, fun _ => Or.inl rfl⟩
      · rw [hfailed]
        refine ⟨⟨fun h => hreason (Option.some.inj h), ?_, ?_⟩, fun h => hother h,
          fun _ => Or.inr (Or.inr rfl)⟩
        · exact iff_of_false nofun fun h => h rfl
        · exact iff_of_false nofun fun h => h rfl

/-!
## The envelope
-/

def StagingFailed (result : Json.Fields) : Prop :=
  result.get "phase" = .str "stage" ∧ result.getD "workload" (.str "unknown") = .str "failed"

/-- The workload succeeded and so did the offload, if there was any. -/
def Clean (env : JobEnvelope) : Prop :=
  env.workload = .succeeded ∧ (env.offload = .ok ∨ env.offload = .notRequired)

/-- What an envelope is left with by a result that it absorbed. -/
structure Coherent (env : JobEnvelope) (result : Json.Fields) : Prop where
  reason : env.reason = none <-> Clean env
  retryClass : env.retryClass = none <->
    Clean env ∨ CancelledOnRequest env.workload result ∧ env.offload ≠ .failed
  stage : StagingFailed result ->
    env.failedPhase = some .stage ∧ (env.offload = .skipped ∨ env.offload = .notRequired)
  run : ¬StagingFailed result -> env.workload ≠ .succeeded ->
    ¬CancelledOnRequest env.workload result -> env.failedPhase = some .run
  offload : ¬StagingFailed result ->
    env.workload = .succeeded ∨ CancelledOnRequest env.workload result ->
    env.failedPhase = if env.offload = .failed then some .offload else none

theorem absorbPhase_failedPhase (env : JobEnvelope) (result : Json.Fields) :
    (absorbPhase env result).failedPhase = env.failedPhase := by
  unfold absorbPhase
  simp only
  split
  · split <;> rfl
  · rfl

theorem phase_ofValue {s : String} {phase : Phase} (h : Phase.ofValue? s = some phase) :
    phase.value = s := by
  have hfound := List.find?_some h
  rwa [decide_eq_true_eq] at hfound

theorem absorbPhase_stage {env : JobEnvelope} {result : Json.Fields} (h : env.phase ≠ .stage) :
    (absorbPhase env result).phase = .stage <-> result.get "phase" = .str "stage" := by
  constructor
  · intro hstage
    unfold absorbPhase at hstage
    simp only at hstage
    split at hstage
    · split at hstage
      · rename_i phase hphase
        change phase = .stage at hstage
        split at hphase
        · rename_i s hs
          rw [hs, ← phase_ofValue hphase, hstage]
          rfl
        · cases hphase
      · exact absurd hstage h
    · exact absurd hstage h
  · intro hremote
    unfold absorbPhase
    simp only [hremote]
    rfl

theorem absorbProvenance_phase {env env' : JobEnvelope} {result : Json.Fields}
    (h : absorbProvenance env result = .ok env') :
    env'.phase = env.phase ∧ env'.failedPhase = env.failedPhase := by
  unfold absorbProvenance at h
  simp only at h
  split at h
  · cases h
    exact ⟨rfl, rfl⟩
  · rcases Fallible.bind_ok h with ⟨cliVersion, _, h⟩
    rcases Fallible.bind_ok h with ⟨payloadVersion, _, h⟩
    cases h
    exact ⟨rfl, rfl⟩
  · split at h <;> cases h

theorem runOutcome_told {env env' : JobEnvelope} {spec : JobSpec} {result : Json.Fields}
    {offload : Offload} {reason : Option String} {retry : Option RetryClass}
    (h : runOutcome env spec result offload reason retry = .ok env')
    (hvalue : workloadOf result = .ok env.workload) (hoffload : OffloadTold offload reason retry)
    (hfresh : env.failedPhase = none) :
    (env'.reason = none <-> env.workload = .succeeded ∧ offload ≠ .failed) ∧
      (env'.retryClass = none <->
        (env.workload = .succeeded ∨ CancelledOnRequest env.workload result) ∧
          offload ≠ .failed) ∧
      (¬(env.workload = .succeeded ∨ CancelledOnRequest env.workload result) ->
        env'.failedPhase = some .run) ∧
      (env.workload = .succeeded ∨ CancelledOnRequest env.workload result ->
        env'.failedPhase = if offload = .failed then some .offload else none) := by
  rcases Fallible.bind_ok h with ⟨⟨workloadReason, workloadRetry⟩, houtcome, h⟩
  rcases workloadOutcome_told hvalue houtcome with ⟨htold, hretry⟩
  change workloadRetry = none <-> _ at hretry
  have hreasons : ([workloadReason, reason].filterMap fun r => r.filter (· ≠ "")) = [] <->
      env.workload = .succeeded ∧ offload ≠ .failed := by
    rw [← htold.iff, ← hoffload.reason]
    have hworkload := htold.nonempty
    have hclosed := hoffload.nonempty
    cases workloadReason <;> cases reason <;> simp_all
  have hretries : workloadRetry.or retry = none <->
      (env.workload = .succeeded ∨ CancelledOnRequest env.workload result) ∧
        offload ≠ .failed := by
    rw [Option.or_eq_none_iff, hretry, hoffload.retry]
  have hreason : (if ([workloadReason, reason].filterMap fun r => r.filter (· ≠ "")).isEmpty
      then none
      else some ("; ".intercalate
        ([workloadReason, reason].filterMap fun r => r.filter (· ≠ "")))) = none <->
      env.workload = .succeeded ∧ offload ≠ .failed := by
    rw [← hreasons, ← List.isEmpty_iff]
    split
    · rename_i hempty
      exact iff_of_true rfl hempty
    · rename_i hempty
      exact iff_of_false nofun hempty
  simp only at h
  split at h
  · rename_i hfailed
    have hother : ¬(env.workload = .succeeded ∨ CancelledOnRequest env.workload result) := by
      intro hclean
      rw [hretry.mpr hclean] at hfailed
      cases hfailed
    cases h
    exact ⟨hreason, hretries, fun _ => by rw [JobEnvelope.recordFailure, hfresh]; rfl,
      fun hclean => absurd hclean hother⟩
  · rename_i hquiet
    have hclean : env.workload = .succeeded ∨ CancelledOnRequest env.workload result :=
      hretry.mp (Option.not_isSome_iff_eq_none.mp hquiet)
    split at h
    · rename_i hfailed
      cases h
      refine ⟨hreason, hretries, fun hother => absurd hclean hother, fun _ => ?_⟩
      rw [if_pos hfailed, JobEnvelope.recordFailure, hfresh]
      rfl
    · rename_i hfailed
      cases h
      refine ⟨hreason, hretries, fun hother => absurd hclean hother, fun _ => ?_⟩
      rw [if_neg hfailed]
      exact hfresh

theorem stageOutcome_told (inputs : List InputResult) (exception : Json) :
    exists reason retry, Verdict.stageOutcome inputs exception = (some reason, some retry) := by
  unfold Verdict.stageOutcome
  simp only
  split
  · exact ⟨_, _, rfl⟩
  · exact ⟨_, _, rfl⟩

theorem value_eq_failed (w : Workload) : w.value = "failed" <-> w = .failed := by
  cases w <;> decide

theorem absorbResult_steps {env env' : JobEnvelope} {spec : JobSpec} {result : Json.Fields}
    {now : String} (h : absorbResult env spec result now = .ok env') :
    exists env1 env2 artifacts stageFailed,
      absorbProvenance (absorbPhase env result) result = .ok env1 ∧
      workloadOf result = .ok env'.workload ∧
      stageFailed = decide (env1.phase = .stage ∧ env'.workload = .failed) ∧
      (exists base, absorbOutcome base spec result stageFailed
          (offloadOf spec stageFailed artifacts result).2.1
          (offloadOf spec stageFailed artifacts result).2.2 = .ok env2 ∧
        base.workload = env'.workload ∧ base.failedPhase = env1.failedPhase ∧
        base.offload = (offloadOf spec stageFailed artifacts result).1) ∧
      env'.reason = env2.reason ∧ env'.retryClass = env2.retryClass ∧
      env'.failedPhase = env2.failedPhase ∧ env'.offload = env2.offload := by
  have hworkload := (absorbResult_spec h).2.1
  unfold absorbResult at h
  rcases Fallible.bind_ok h with ⟨env1, hprovenance, h⟩
  rcases Fallible.bind_ok h with ⟨workload, hvalue, h⟩
  rcases Fallible.bind_ok h with ⟨finished, _, h⟩
  rcases Fallible.bind_ok h with ⟨inputItems, _, h⟩
  rcases Fallible.bind_ok h with ⟨inputs, _, h⟩
  rcases Fallible.bind_ok h with ⟨artifactItems, _, h⟩
  rcases Fallible.bind_ok h with ⟨artifacts, _, h⟩
  rcases Fallible.bind_ok h with ⟨env2, houtcome, h⟩
  rcases Fallible.bind_ok h with ⟨hints, _, h⟩
  rcases Fallible.bind_ok h with ⟨exitCode, _, h⟩
  rcases Fallible.bind_ok h with ⟨signal, _, h⟩
  rcases Fallible.bind_ok h with ⟨exception, _, h⟩
  rcases Fallible.bind_ok h with ⟨survivors, _, h⟩
  cases h
  rw [hvalue, Except.ok.injEq] at hworkload
  refine ⟨env1, env2, artifacts, _, hprovenance, ?_, ?_, ⟨_, houtcome, hworkload, rfl, rfl⟩,
    rfl, rfl, rfl, rfl⟩
  · rw [hvalue, hworkload]
  · rw [hworkload]

/-- A result that is absorbed by an envelope in its run phase without a failure leaves a
coherent verdict. -/
theorem absorbed_coherent (env env' : JobEnvelope) (spec : JobSpec) (result : Json.Fields)
    (now : String) (hphase : env.phase = .run) (hfresh : env.failedPhase = none)
    (h : absorbResult env spec result now = .ok env') : Coherent env' result := by
  rcases absorbResult_steps h with ⟨env1, env2, artifacts, stageFailed, hprovenance, hvalue,
    hstageFailed, ⟨base, houtcome, hwork, hfailed, hoff⟩, hreason, hretry, hphase', hoffload⟩
  rcases absorbProvenance_phase hprovenance with ⟨hphase1, hfailed1⟩
  have hstage : stageFailed = true <-> StagingFailed result := by
    rw [hstageFailed, decide_eq_true_eq, hphase1, absorbPhase_stage (by rw [hphase]; decide),
      StagingFailed, workloadOf_value hvalue, Json.str.injEq, value_eq_failed]
  have hbase : base.failedPhase = none := by
    rw [hfailed, hfailed1, absorbPhase_failedPhase, hfresh]
  have hkept : env'.offload = (offloadOf spec stageFailed artifacts result).1 := by
    rw [hoffload, (absorbOutcome_spec houtcome).2.2, hoff]
  have hclosed := offloadOf_told spec stageFailed artifacts result
  simp only [← hkept] at hclosed
  rcases hclosed with ⟨htold, hskipped, hreached⟩
  unfold absorbOutcome at houtcome
  split at houtcome
  · -- a failed stage: the reason and the class are its own, and nothing was offloaded
    rename_i htrue
    have hstaging := hstage.mp htrue
    have hfailedWork : env'.workload = .failed := by
      have hvalue' := workloadOf_value hvalue
      rw [hstaging.2, Json.str.injEq, eq_comm] at hvalue'
      exact (value_eq_failed _).mp hvalue'
    have hdirty : ¬Clean env' := fun h => nomatch hfailedWork.symm.trans h.1
    have hother : ¬CancelledOnRequest env'.workload result :=
      fun h => nomatch hfailedWork.symm.trans h.1
    rcases stageOutcome_told base.inputs (result.get "exception") with ⟨text, retry, hstaged⟩
    rw [hstaged] at houtcome
    cases houtcome
    refine ⟨?_, ?_, fun _ => ⟨?_, hskipped htrue⟩, fun h => absurd hstaging h,
      fun h => absurd hstaging h⟩
    · exact iff_of_false (by rw [hreason]; exact nofun) hdirty
    · exact iff_of_false (by rw [hretry]; exact nofun)
        fun h => h.elim hdirty fun h => hother h.1
    · rw [hphase', JobEnvelope.recordFailure, hbase]
      rfl
  · rename_i hfalse
    have hrun : ¬StagingFailed result := fun h => hfalse (hstage.mpr h)
    have hnotFailed : env'.offload ≠ .failed <->
        env'.offload = .ok ∨ env'.offload = .notRequired := by
      rcases hreached (Bool.eq_false_iff.mpr hfalse) with h | h | h <;> simp [h]
    rw [hoff, ← hkept] at houtcome
    rw [← hwork] at hvalue
    rcases runOutcome_told houtcome hvalue htold hbase with ⟨hreason', hretry', hother, hclean⟩
    rw [hwork] at hreason' hretry' hother hclean
    rw [← hreason, hnotFailed] at hreason'
    rw [← hretry] at hretry'
    rw [← hphase'] at hother hclean
    refine ⟨hreason', ?_, fun h => absurd h hrun, ?_, fun _ => hclean⟩
    · rw [hretry', or_and_right, hnotFailed]
      rfl
    · intro _ hnot hnotCancelled
      exact hother fun h => h.elim hnot hnotCancelled

/-- The wall clock stopped the workload, and an artifact was not there to upload. -/
theorem absorbed_coherent_stopped : exists env,
    absorbResult { jobId := "j", phase := .run, workload := .running }
      { name := "n", code := { entry := "main.py" }
        artifacts := [{ path := "out.bin", url := "https://h/x" }] }
      [("workload", .str "cancelled"), ("phase", .str "offload"), ("signal", .int 15),
        ("cancel_intent", .obj [("by", .str "wall_clock")]), ("offload", .str "failed")]
      "now" = .ok env ∧
    env.failedPhase = some .run ∧
    Coherent env
      [("workload", .str "cancelled"), ("phase", .str "offload"), ("signal", .int 15),
        ("cancel_intent", .obj [("by", .str "wall_clock")]), ("offload", .str "failed")] := by
  refine ⟨_, rfl, ?_, absorbed_coherent _ _ _ _ _ rfl rfl rfl⟩
  rfl

end Absorb
end Job
end MightyColab
