import MightyColab.Job.Coherent

/-!
# Absorbing a result twice

A supervisor, a later `job status` and a `job destroy` may all absorb the same
`result.json`. All that absorbing takes from the envelope is its phase, its hints and the
phase that failed first; the rest is what the result says. A phase that this CLI does not
know is a hint, and that one is added without a look at the hints there are.
-/

namespace MightyColab
namespace Job

open Lib

namespace Absorb

variable {env env' once : JobEnvelope} {spec : JobSpec} {result : Json.Fields}

/-- The result names no phase, or one that this CLI knows. -/
def knowsPhase (result : Json.Fields) : Bool :=
  let remote := result.get "phase"
  !remote.truthy || (match remote with
    | .str s => (Phase.ofValue? s).isSome
    | _ => false)

def numeric : Json -> Bool
  | .int _ | .float _ _ => true
  | _ => false

theorem vmTime_numeric {epoch : Json} {finished : Option String} (hnumeric : numeric epoch = true)
    (h : vmTime epoch = .ok finished) : finished.isSome = true := by
  unfold vmTime at h
  simp only at h
  cases epoch with
  | int i =>
      simp only at h
      split at h
      · cases h
        rfl
      · cases h
  | float value text =>
      cases value with
      | none => cases h
      | some q =>
          simp only at h
          split at h
          · cases h
            rfl
          · cases h
  | null | bool _ | str _ | arr _ | obj _ => cases hnumeric

/-!
## The phase and the versions
-/

theorem absorbPhase_again (hknown : knowsPhase result = true) (env : JobEnvelope)
    (hphase : once.phase = (absorbPhase env result).phase) : absorbPhase once result = once := by
  unfold absorbPhase at *
  unfold knowsPhase at hknown
  simp only at *
  cases htruthy : (result.get "phase").truthy with
  | false => rw [if_neg (by simp)]
  | true =>
      rw [htruthy, if_pos rfl] at hphase
      rw [htruthy, Bool.not_true, Bool.false_or] at hknown
      rw [if_pos rfl]
      cases hremote : result.get "phase" with
      | str s =>
          rw [hremote] at hknown hphase
          simp only at hknown hphase ⊢
          rcases Option.isSome_iff_exists.mp hknown with ⟨phase, hvalue⟩
          rw [hvalue] at hphase ⊢
          simp only at hphase ⊢
          rw [← hphase]
      | null | bool _ | int _ | float _ _ | arr _ | obj _ =>
          rw [hremote] at hknown
          cases hknown

theorem absorbPhase_unknown (hunknown : knowsPhase result = false) (env : JobEnvelope) :
    exists hint, absorbPhase env result = env.addHint hint := by
  unfold absorbPhase
  unfold knowsPhase at hunknown
  simp only at *
  rw [Bool.or_eq_false_iff, Bool.not_eq_false'] at hunknown
  rw [if_pos hunknown.left]
  cases hremote : result.get "phase" with
  | str s =>
      rw [hremote] at hunknown
      simp only [Option.isSome_eq_false_iff, Option.isNone_iff_eq_none] at hunknown
      simp only [hunknown.right]
      exact ⟨_, rfl⟩
  | null | bool _ | int _ | float _ _ | arr _ | obj _ => exact ⟨_, rfl⟩

theorem absorbProvenance_again (h : absorbProvenance env result = .ok env')
    (hschema : once.schemaVersion = env'.schemaVersion)
    (hcli : once.cliVersion = env'.cliVersion)
    (hpayload : once.runtimePayloadVersion = env'.runtimePayloadVersion) :
    absorbProvenance once result = .ok once := by
  unfold absorbProvenance at *
  simp only at *
  split at h
  · rfl
  · rcases Fallible.bind_ok h with ⟨cliVersion, hread, h⟩
    rcases Fallible.bind_ok h with ⟨payloadVersion, hread', h⟩
    cases h
    simp only at hschema hcli hpayload
    rw [hread, hread']
    change Except.ok { once with
      cliVersion, runtimePayloadVersion := payloadVersion, schemaVersion := "2" } = _
    rw [← hschema, ← hcli, ← hpayload]
  · split at h <;> cases h

theorem absorbProvenance_hints (h : absorbProvenance env result = .ok env') :
    env'.hints = env.hints := by
  unfold absorbProvenance at h
  simp only at h
  split at h
  · cases h
    rfl
  · rcases Fallible.bind_ok h with ⟨cliVersion, _, h⟩
    rcases Fallible.bind_ok h with ⟨payloadVersion, _, h⟩
    cases h
    rfl
  · split at h <;> cases h

/-!
## The verdict
-/

/-- What is made of the verdict depends on the result, not on the envelope; only the first
failure stays. -/
theorem absorbOutcome_eq {stageFailed : Bool} {reason : Option String}
    {retry : Option RetryClass}
    (h : absorbOutcome env spec result stageFailed reason retry = .ok env') :
    exists told class_ failed, forall base : JobEnvelope, base.inputs = env.inputs ->
      base.offload = env.offload ->
        absorbOutcome base spec result stageFailed reason retry =
          .ok { base with
            reason := told, retryClass := class_, failedPhase := base.failedPhase.or failed } := by
  cases hstage : stageFailed with
  | true =>
      let outcome := Verdict.stageOutcome env.inputs (result.get "exception")
      refine ⟨outcome.1, outcome.2, some .stage, fun base hinputs _ => ?_⟩
      unfold absorbOutcome
      rw [if_pos rfl, hinputs]
      rfl
  | false =>
      rw [absorbOutcome, hstage, if_neg Bool.false_ne_true] at h
      rcases Fallible.bind_ok h with ⟨⟨told, class_⟩, houtcome, h⟩
      let reasons := [told, reason].filterMap fun r => r.filter (· ≠ "")
      refine ⟨if reasons.isEmpty then none else some ("; ".intercalate reasons),
        class_.or retry, if class_.isSome then some .run
        else if env.offload = .failed then some .offload else none, fun base _ hoffload => ?_⟩
      rw [absorbOutcome, if_neg Bool.false_ne_true, runOutcome, houtcome]
      change (if class_.isSome then _ else if base.offload = .failed then _ else _) = _
      rw [hoffload]
      split
      · rfl
      · split
        · rfl
        · simp only [Option.or_none]
          rfl

/-!
## The hints
-/

theorem mem_warningHints (warnings : List Json) : forall (hints : List String) (hint : String),
    hint ∈ hints -> hint ∈ warningHints hints warnings := by
  induction warnings with
  | nil => exact fun _ _ h => h
  | cons warning rest ih =>
      intro hints hint h
      refine ih _ hint ?_
      simp only
      split
      · exact h
      · exact List.mem_append_left _ h

theorem warningHints_again (warnings : List Json) : forall hints more : List String,
    (forall hint, hint ∈ warningHints hints warnings -> hint ∈ more) ->
      warningHints more warnings = more := by
  induction warnings with
  | nil => exact fun _ _ _ => rfl
  | cons warning rest ih =>
      intro hints more hmore
      have hthere : s!"runner: {warning.pyStr}" ∈ more := by
        refine hmore _ (mem_warningHints rest _ _ ?_)
        simp only
        split
        · assumption
        · exact List.mem_append_right _ (List.mem_singleton.mpr rfl)
      change warningHints (if _ ∈ more then more else _) rest = more
      rw [if_pos hthere]
      exact ih _ more hmore

theorem warningHints_grow (warnings : List Json) : forall hints : List String,
    exists more, warningHints hints warnings = hints ++ more := by
  induction warnings with
  | nil => exact fun hints => ⟨[], (List.append_nil hints).symm⟩
  | cons warning rest ih =>
      intro hints
      change exists more, warningHints (if _ ∈ hints then hints else hints ++ [_]) rest = _
      split
      · exact ih hints
      · rcases ih (hints ++ [s!"runner: {warning.pyStr}"]) with ⟨more, hmore⟩
        exact ⟨_, hmore.trans (List.append_assoc _ _ _)⟩

theorem absorbHints_grow {survivors : Json} {hints : List String}
    (h : absorbHints env result survivors = .ok hints) :
    exists more, hints = env.hints ++ more := by
  rcases Fallible.bind_ok h with ⟨warnings, _, h⟩
  rcases warningHints_grow warnings env.hints with ⟨more, hmore⟩
  simp only at h
  split at h
  · rcases Fallible.bind_ok h with ⟨count, _, h⟩
    cases h
    split
    · exact ⟨more, hmore⟩
    · exact ⟨more ++ [survivorHint count], by rw [hmore, List.append_assoc]⟩
  · cases h
    exact ⟨more, hmore⟩

theorem absorbHints_again {survivors : Json} {hints : List String}
    (h : absorbHints env result survivors = .ok hints) (hsame : once.hints = hints) :
    absorbHints once result survivors = .ok hints := by
  unfold absorbHints at *
  rcases Fallible.bind_ok h with ⟨warnings, hread, h⟩
  rw [hread]
  change (if survivors.truthy = true then _ else _) = _
  simp only at h
  split at h
  · next hsurvivors =>
      rcases Fallible.bind_ok h with ⟨count, hcount, h⟩
      have hthere : survivorHint count ∈ hints ∧
          forall hint, hint ∈ warningHints env.hints warnings -> hint ∈ hints := by
        cases h
        split
        · exact ⟨by assumption, fun _ h => h⟩
        · exact ⟨List.mem_append_right _ (List.mem_singleton.mpr rfl),
            fun _ h => List.mem_append_left _ h⟩
      rw [if_pos hsurvivors, hcount, hsame, warningHints_again warnings _ _ hthere.right]
      change Except.ok (if _ ∈ hints then hints else _) = _
      rw [if_pos hthere.left]
  · next hsurvivors =>
      cases h
      rw [if_neg hsurvivors, hsame, warningHints_again warnings env.hints _ fun _ h => h]
      rfl

/-!
## The whole envelope
-/

theorem absorbResult_hints {now : String} (h : absorbResult env spec result now = .ok env') :
    exists more, env'.hints = (absorbPhase env result).hints ++ more := by
  unfold absorbResult at h
  rcases Fallible.bind_ok h with ⟨env1, hprovenance, h⟩
  rcases Fallible.bind_ok h with ⟨workload, _, h⟩
  rcases Fallible.bind_ok h with ⟨finished, _, h⟩
  rcases Fallible.bind_ok h with ⟨inputItems, _, h⟩
  rcases Fallible.bind_ok h with ⟨inputs, _, h⟩
  rcases Fallible.bind_ok h with ⟨artifactItems, _, h⟩
  rcases Fallible.bind_ok h with ⟨artifacts, _, h⟩
  rcases Fallible.bind_ok h with ⟨env2, houtcome, h⟩
  rcases Fallible.bind_ok h with ⟨hints, hhints, h⟩
  rcases Fallible.bind_ok h with ⟨exitCode, _, h⟩
  rcases Fallible.bind_ok h with ⟨signal, _, h⟩
  rcases Fallible.bind_ok h with ⟨exception, _, h⟩
  rcases Fallible.bind_ok h with ⟨survivors, _, h⟩
  cases h
  rcases absorbOutcome_eq houtcome with ⟨told, class_, failed, heq⟩
  cases (heq _ rfl rfl).symm.trans houtcome
  rcases absorbHints_grow hhints with ⟨more, hmore⟩
  exact ⟨more, hmore.trans (by rw [← absorbProvenance_hints hprovenance])⟩

theorem absorbResult_again {now : String} (now' : String)
    (hnumeric : numeric (result.get "finished_at") = true) (hknown : knowsPhase result = true)
    (h : absorbResult env spec result now = .ok once) :
    absorbResult once spec result now' = .ok once := by
  unfold absorbResult at h
  rcases Fallible.bind_ok h with ⟨env1, hprovenance, h⟩
  rcases Fallible.bind_ok h with ⟨workload, hvalue, h⟩
  rcases Fallible.bind_ok h with ⟨finished, hfinished, h⟩
  rcases Fallible.bind_ok h with ⟨inputItems, hinputItems, h⟩
  rcases Fallible.bind_ok h with ⟨inputs, hinputs, h⟩
  rcases Fallible.bind_ok h with ⟨artifactItems, hartifactItems, h⟩
  rcases Fallible.bind_ok h with ⟨artifacts, hartifacts, h⟩
  rcases Fallible.bind_ok h with ⟨env2, houtcome, h⟩
  rcases Fallible.bind_ok h with ⟨hints, hhints, h⟩
  rcases Fallible.bind_ok h with ⟨exitCode, hexit, h⟩
  rcases Fallible.bind_ok h with ⟨signal, hsignal, h⟩
  rcases Fallible.bind_ok h with ⟨exception, hexception, h⟩
  rcases Fallible.bind_ok h with ⟨survivors, hsurvivors, h⟩
  rcases absorbOutcome_eq houtcome with ⟨told, class_, failed, heq⟩
  have henv2 := Except.ok.inj ((heq _ rfl rfl).symm.trans houtcome)
  have honce := Except.ok.inj h
  have hphase : once.phase = env1.phase := by rw [← honce, ← henv2]
  have hfailed : once.failedPhase = env1.failedPhase.or failed := by rw [← honce, ← henv2]
  have hfinal : once.failedPhase.or failed = once.failedPhase := by
    rw [hfailed, Option.or_assoc, Option.or_self]
  have htime : some (finished.getD now') = once.finishedAt := by
    rw [← honce, ← henv2]
    rcases Option.isSome_iff_exists.mp (vmTime_numeric hnumeric hfinished) with ⟨time, rfl⟩
    rfl
  have hsaid : once.reason = told ∧ once.retryClass = class_ ∧ once.workload = workload ∧
      once.inputs = inputs ∧ once.artifacts = artifacts ∧ once.hints = hints ∧
      once.exitCode = exitCode ∧ once.signal = signal ∧ once.exception = exception ∧
      once.survivingDescendants = survivors := by
    rw [← honce, ← henv2]
    exact ⟨rfl, rfl, rfl, rfl, rfl, rfl, rfl, rfl, rfl, rfl⟩
  have hoffload : once.offload = (offloadOf spec
      (decide (env1.phase = .stage ∧ workload = .failed)) artifacts result).1 := by
    rw [← honce, ← henv2]
  have hknownPhase : absorbPhase once result = once :=
    absorbPhase_again hknown env (hphase.trans (absorbProvenance_phase hprovenance).left)
  have hversions : absorbProvenance once result = .ok once := by
    refine absorbProvenance_again hprovenance ?_ ?_ ?_ <;> rw [← honce, ← henv2]
  clear henv2 honce
  rcases hsaid with ⟨rfl, rfl, rfl, rfl, rfl, rfl, rfl, rfl, rfl, rfl⟩
  have hagain := absorbHints_again hhints rfl
  unfold absorbResult
  rw [hknownPhase, hversions]
  simp only [Fallible.ok_bind, hvalue, hfinished, hinputItems, hinputs, hartifactItems,
    hartifacts, hexit,
    hsignal, hexception, hsurvivors, htime]
  rw [← hphase] at heq hoffload
  simp only [← hoffload] at heq ⊢
  have hverdict := heq { once with reason := none, retryClass := none } rfl rfl
  rw [hverdict, Fallible.ok_bind, hfinal]
  change absorbHints once result _ >>= _ = _
  rw [hagain]
  rfl

/-- A result with a time is absorbed once for all exactly where its phase is known. -/
theorem absorbed_once_iff (env once : JobEnvelope) (spec : JobSpec) (result : Json.Fields)
    (now now' : String) (hnumeric : numeric (result.get "finished_at") = true)
    (h : absorbResult env spec result now = .ok once) :
    absorbResult once spec result now' = .ok once <-> knowsPhase result = true := by
  refine ⟨fun hagain => ?_, fun hknown => absorbResult_again now' hnumeric hknown h⟩
  cases hknown : knowsPhase result with
  | true => rfl
  | false =>
      rcases absorbPhase_unknown hknown once with ⟨hint, hphase⟩
      rcases absorbResult_hints hagain with ⟨more, hmore⟩
      have hlength := congrArg List.length hmore
      rw [hphase, JobEnvelope.addHint] at hlength
      simp only [List.length_append, List.length_singleton] at hlength
      omega

def warned (phase : String) : Json.Fields :=
  [("workload", .str "succeeded"), ("exit_code", .int 0), ("finished_at", .int 0),
    ("phase", .str phase), ("runner_warnings", .arr [.str "w"])]

def plainSpec : JobSpec := { name := "n", code := { entry := "main.py" } }

theorem absorbed_once_offload :
    exists once, absorbResult { jobId := "j" } plainSpec (warned "offload") "now" = .ok once ∧
      once.hints = ["runner: w"] ∧
      absorbResult once plainSpec (warned "offload") "later" = .ok once := by
  refine ⟨_, rfl, rfl, ?_⟩
  exact (absorbed_once_iff { jobId := "j" } _ plainSpec (warned "offload") "now" "later" rfl
    rfl).mpr (by decide)

/-- A phase of a newer runner: its hint is there twice. -/
theorem absorbed_hint_twice :
    exists once twice, absorbResult { jobId := "j" } plainSpec (warned "upload") "now" = .ok once ∧
      absorbResult once plainSpec (warned "upload") "now" = .ok twice ∧
      once.hints.length = 2 ∧ twice.hints.length = 3 ∧ twice ≠ once := by
  refine ⟨_, _, rfl, rfl, rfl, rfl, fun h => ?_⟩
  exact absurd (congrArg (fun env => env.hints.length) h) (by decide)

end Absorb
end Job
end MightyColab
