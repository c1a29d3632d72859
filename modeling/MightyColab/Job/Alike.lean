import MightyColab.Job.AbsorbTwice
import MightyColab.Job.PollEvidence
import MightyColab.Job.Concluding

/-!
# Records alike

What decides the verdict of a job, and whether its VM is kept, is a small part of its
record. Two records that agree on it still do after the same result has been absorbed into
both, and a supervisor that goes on after a pass leaves it as it was.
-/

namespace MightyColab
namespace Job

open Lib

/-- The two records agree on the verdict and on what it is made from. -/
structure Alike (env env' : JobEnvelope) : Prop where
  phase : env'.phase = env.phase
  workload : env'.workload = env.workload
  offload : env'.offload = env.offload
  retryClass : env'.retryClass = env.retryClass
  failedPhase : env'.failedPhase = env.failedPhase
  artifacts : env'.artifacts = env.artifacts
  leaveUp : env'.leaveUp = env.leaveUp

variable {env env' base : JobEnvelope}

theorem Alike.refl (env : JobEnvelope) : Alike env env := ⟨rfl, rfl, rfl, rfl, rfl, rfl, rfl⟩

theorem Alike.symm (h : Alike env env') : Alike env' env :=
  ⟨h.phase.symm, h.workload.symm, h.offload.symm, h.retryClass.symm, h.failedPhase.symm,
    h.artifacts.symm, h.leaveUp.symm⟩

theorem Alike.trans {env'' : JobEnvelope} (h : Alike env env') (h' : Alike env' env'') :
    Alike env env'' :=
  ⟨h'.phase.trans h.phase, h'.workload.trans h.workload, h'.offload.trans h.offload,
    h'.retryClass.trans h.retryClass, h'.failedPhase.trans h.failedPhase,
    h'.artifacts.trans h.artifacts, h'.leaveUp.trans h.leaveUp⟩

theorem Alike.of_onlyHints (h : OnlyHints env env') : Alike env env' := by
  rcases h with ⟨hints, rfl⟩
  exact ⟨rfl, rfl, rfl, rfl, rfl, rfl, rfl⟩

theorem Alike.keepVm (h : Alike env env') (spec : Option JobSpec) (removed : Bool) :
    keepVm env' spec removed = keepVm env spec removed := by
  unfold Job.keepVm
  rw [h.leaveUp, h.artifacts]

namespace Alike

/-!
## Absorbing
-/

section Absorbing

open Absorb

variable {spec : JobSpec} {result : Json.Fields}

theorem absorbPhase_alike (h : Alike env base) (result : Json.Fields) :
    Alike (absorbPhase env result) (absorbPhase base result) := by
  unfold absorbPhase
  simp only
  split
  · split
    · exact ⟨rfl, h.workload, h.offload, h.retryClass, h.failedPhase, h.artifacts, h.leaveUp⟩
    · exact ⟨h.phase, h.workload, h.offload, h.retryClass, h.failedPhase, h.artifacts, h.leaveUp⟩
  · exact h

theorem absorbProvenance_alike (h : Alike env base)
    (hread : absorbProvenance env result = .ok env') :
    exists base', absorbProvenance base result = .ok base' ∧ Alike env' base' := by
  unfold absorbProvenance at *
  simp only at *
  split at hread
  · cases hread
    exact ⟨base, rfl, h⟩
  · rcases Fallible.bind_ok hread with ⟨cliVersion, hcli, hread⟩
    rcases Fallible.bind_ok hread with ⟨payloadVersion, hpayload, hread⟩
    cases hread
    rw [hcli, Fallible.ok_bind, hpayload, Fallible.ok_bind]
    exact ⟨_, rfl, h.phase, h.workload, h.offload, h.retryClass, h.failedPhase, h.artifacts,
      h.leaveUp⟩
  · split at hread <;> cases hread

theorem absorbHints_ok {survivors : Json} {hints : List String}
    (hread : absorbHints env result survivors = .ok hints) (base : JobEnvelope) :
    exists hints', absorbHints base result survivors = .ok hints' := by
  unfold absorbHints at *
  rcases Fallible.bind_ok hread with ⟨warnings, hwarnings, hread⟩
  rw [hwarnings, Fallible.ok_bind]
  simp only at *
  split at hread
  · rcases Fallible.bind_ok hread with ⟨count, hcount, _⟩
    rw [if_pos (by assumption), hcount, Fallible.ok_bind]
    exact ⟨_, rfl⟩
  · rw [if_neg (by assumption)]
    exact ⟨_, rfl⟩

/-- A result that one record absorbs is absorbed by every record alike, to the same
verdict. -/
theorem absorbResult_alike {absorbed : JobEnvelope} {now : String} (h : Alike env base)
    (hread : absorbResult env spec result now = .ok absorbed) (now' : String) :
    exists absorbed', absorbResult base spec result now' = .ok absorbed' ∧
      Alike absorbed absorbed' := by
  unfold absorbResult at hread
  rcases Fallible.bind_ok hread with ⟨env1, hprovenance, hread⟩
  rcases Fallible.bind_ok hread with ⟨workload, hvalue, hread⟩
  rcases Fallible.bind_ok hread with ⟨finished, hfinished, hread⟩
  rcases Fallible.bind_ok hread with ⟨inputItems, hinputItems, hread⟩
  rcases Fallible.bind_ok hread with ⟨inputs, hinputs, hread⟩
  rcases Fallible.bind_ok hread with ⟨artifactItems, hartifactItems, hread⟩
  rcases Fallible.bind_ok hread with ⟨artifacts, hartifacts, hread⟩
  rcases Fallible.bind_ok hread with ⟨env2, houtcome, hread⟩
  rcases Fallible.bind_ok hread with ⟨hints, hhints, hread⟩
  rcases Fallible.bind_ok hread with ⟨exitCode, hexit, hread⟩
  rcases Fallible.bind_ok hread with ⟨signal, hsignal, hread⟩
  rcases Fallible.bind_ok hread with ⟨exception, hexception, hread⟩
  rcases Fallible.bind_ok hread with ⟨survivors, hsurvivors, hread⟩
  rcases absorbProvenance_alike (absorbPhase_alike h result) hprovenance with
    ⟨base1, hprovenance', halike⟩
  rw [← halike.phase] at houtcome
  rcases absorbOutcome_eq houtcome with ⟨told, class_, failed, heq⟩
  have henv2 := Except.ok.inj ((heq _ rfl rfl).symm.trans houtcome)
  have habsorbed := Except.ok.inj hread
  unfold absorbResult
  rw [hprovenance', Fallible.ok_bind]
  simp only [Fallible.ok_bind, hvalue, hfinished, hinputItems, hinputs, hartifactItems,
    hartifacts, hexit,
    hsignal, hexception, hsurvivors]
  have hverdict := heq { base1 with
    reason := none, retryClass := none, workload, offload := (offloadOf spec
      (decide (base1.phase = .stage ∧ workload = .failed)) artifacts result).1, inputs,
    artifacts, finishedAt := some (finished.getD now') } rfl rfl
  rw [hverdict, Fallible.ok_bind]
  rcases absorbHints_ok hhints _ with ⟨hints', hhints'⟩
  rw [hhints', Fallible.ok_bind]
  refine ⟨_, rfl, ?_⟩
  rw [← habsorbed, ← henv2]
  exact ⟨rfl, rfl, rfl, rfl, congrArg (Option.or · failed) halike.failedPhase, rfl,
    halike.leaveUp⟩

theorem absorbResult_error_alike {error now : String} (h : Alike env base)
    (hread : absorbResult env spec result now = .error error) (now' : String) :
    exists error', absorbResult base spec result now' = .error error' := by
  cases hbase : absorbResult base spec result now' with
  | error error' => exact ⟨error', rfl⟩
  | ok absorbed =>
      rcases absorbResult_alike h.symm hbase now with ⟨absorbed', hok, _⟩
      cases hok.symm.trans hread

end Absorbing

/-!
## Passes after which apply goes on
-/

section Polling

open Apply Evidence

variable {spec : JobSpec}

theorem remember_inHand {good : JobEnvelope -> Prop} {f : Proc -> Proc}
    (h : forall u, good u.env -> good (f u).env) :
    Prog.Keeps (InHand good) (Prog.modify f : Program Unit) :=
  fun u (hu : good u.env) => h u hu

theorem readJson_inHand {good : JobEnvelope -> Prop} (hit : ReadHit) :
    Prog.Keeps (InHand good) (readJson hit) := by
  refine Prog.Keeps.bind (arrive_inHand _) fun _ => ?_
  cases hit.read with
  | error text => exact Prog.Keeps.raise _
  | ok read => exact Prog.Keeps.bind (arrive_inHand _) fun _ => Prog.Keeps.pure _

theorem goneLook_inHand {good : JobEnvelope -> Prop} (t : Tick) (otherwise : Ending) :
    Prog.Keeps (InHand good) (goneLook t otherwise) := by
  refine Prog.Keeps.bind (readJson_inHand _) fun late => ?_
  split <;> exact Prog.Keeps.pure _

/-- The watchdog's record goes into the hints, and into the reason where it is stale. -/
theorem watchdogLook_inHand {good : JobEnvelope -> Prop} (t : Tick) (record : Json.Fields)
    (h : forall (staleness : WatchdogStaleness) env hints, good env -> good { env with
      hints, reason := (staleness.observe t.clock record).1.or env.reason }) :
    Prog.Keeps (InHand good) (watchdogLook t record) := by
  refine Prog.Keeps.bind Prog.Keeps.get fun s => ?_
  refine Prog.Keeps.bind (remember_inHand fun u hu => h s.staleness u.env _ hu) fun _ => ?_
  split
  · exact goneLook_inHand t _
  · exact Prog.Keeps.pure _

theorem launchLook_inHand {good : JobEnvelope -> Prop} (t : Tick) :
    Prog.Keeps (InHand good) (launchLook t) := by
  refine Prog.Keeps.bind Prog.Keeps.get fun s => ?_
  split
  · exact Prog.Keeps.pure _
  · refine Prog.Keeps.ite (Prog.Keeps.pure _) ?_
    refine Prog.Keeps.bind (readJson_inHand _) fun launch => ?_
    refine Prog.Keeps.bind (remember_inHand fun u hu => ?_) fun _ => ?_
    · split
      · exact hu
      · split <;> exact hu
    · refine Prog.Keeps.bind Prog.Keeps.get fun u => Prog.Keeps.ite ?_ (Prog.Keeps.pure _)
      exact Prog.Keeps.bind (goneLook_inHand t _) fun _ => Prog.Keeps.pure _

theorem recordsLook_inHand {good : JobEnvelope -> Prop} (t : Tick)
    (h : forall (staleness : WatchdogStaleness) record env hints, good env -> good { env with
      hints, reason := (staleness.observe t.clock record).1.or env.reason }) :
    Prog.Keeps (InHand good) (do
      let watchdog ← readJson t.watchdog
      let s ← Prog.get
      let looked ← (match okRecord watchdog with
        | some record => watchdogLook t record
        | none =>
            if watchdog.2 = .notFound ∧ s.runnerSeen = false then launchLook t
            else return ([], none))
      return (.watchdog watchdog :: looked.1, looked.2) : Program Looked) := by
  refine Prog.Keeps.bind (readJson_inHand _) fun watchdog => ?_
  refine Prog.Keeps.bind Prog.Keeps.get fun s => ?_
  refine Prog.Keeps.bind ?_ fun _ => Prog.Keeps.pure _
  cases okRecord watchdog with
  | some record => exact watchdogLook_inHand t record fun staleness => h staleness record
  | none => exact Prog.Keeps.ite (launchLook_inHand t) (Prog.Keeps.pure _)

theorem look_alike (t : Tick) (degraded : Nat) :
    Prog.Keeps (InHand (Alike env)) (look t degraded) := by
  refine Prog.Keeps.bind (readJson_inHand _) fun read => ?_
  cases okRecord read with
  | some record => exact Prog.Keeps.pure _
  | none =>
      refine Prog.Keeps.ite (Prog.Keeps.pure _) (Prog.Keeps.ite ?_ ?_)
      · exact Prog.Keeps.bind
          (remember_inHand fun u hu => hu.trans ⟨rfl, rfl, rfl, rfl, rfl, rfl, rfl⟩)
          fun _ => Prog.Keeps.pure _
      · refine Prog.Keeps.bind ?_ fun _ => Prog.Keeps.pure _
        refine Prog.Keeps.bind
          (remember_inHand fun u hu => hu.trans ⟨rfl, rfl, rfl, rfl, rfl, rfl, rfl⟩) fun _ => ?_
        exact recordsLook_inHand t fun _ _ _ _ henv =>
          henv.trans ⟨rfl, rfl, rfl, rfl, rfl, rfl, rfl⟩

theorem tick_alike {t : Tick} {degraded : Nat} {s s' : Proc}
    (h : tick spec t degraded s = (.ok false, s')) : Alike s.env s'.env := by
  rw [tick_eq] at h
  rcases Prog.bind_eq_ok h with ⟨⟨reads, conclusion⟩, u, hlook, hconclude⟩
  have hlooked := look_alike t degraded s (Alike.refl s.env)
  rw [hlook] at hlooked
  cases conclusion with
  | ends ending =>
      rcases Prog.bind_eq_ok hconclude with ⟨_, v, _, hreturn⟩
      cases hreturn
  | goesOn healthy =>
      have hkept : Prog.Keeps (InHand (Alike s.env)) (conclude spec t (.goesOn healthy)) := by
        have hwritten : Prog.Keeps (InHand (Alike s.env)) (do
            persist t.write
            arrive t.sleep
            return false : Program Bool) :=
          Prog.Keeps.bind (persist_inHand _) fun _ =>
            Prog.Keeps.bind (arrive_inHand _) fun _ => Prog.Keeps.pure _
        cases healthy with
        | true => exact Prog.Keeps.bind (arrive_inHand _) fun _ => hwritten
        | false => exact hwritten
      have hleft := hkept u hlooked
      rw [hconclude] at hleft
      exact hleft

theorem pollGoesOn_alike {deadline : Rat} {ticks : List Tick} {c d : Nat × Proc}
    (h : Absence.PollGoesOn spec deadline ticks c d) : Alike c.2.env d.2.env := by
  induction h with
  | refl c => exact Alike.refl _
  | step _ htick _ ih => exact (tick_alike htick).trans ih

end Polling

/-!
## Passes after which status goes on
-/

section Asking

variable {args : Status.Args} {deadline : Option (Rat × String)} {p : Status.Pass}

theorem undecided_alike (p : Status.Pass) (staleness : WatchdogStaleness) (env : JobEnvelope)
    (observation : Observation) :
    Alike env (Status.undecided p staleness env observation).2 := by
  unfold Status.undecided
  split
  · exact ⟨rfl, rfl, rfl, rfl, rfl, rfl, rfl⟩
  · exact ⟨rfl, rfl, rfl, rfl, rfl, rfl, rfl⟩
  · exact ⟨rfl, rfl, rfl, rfl, rfl, rfl, rfl⟩
  · exact Alike.refl env

theorem pass_alike {orphan : Bool} {staleness staleness' : WatchdogStaleness}
    (h : Status.pass args orphan deadline p staleness env = .ok (.again staleness' env')) :
    Alike env env' := by
  rcases Status.pass_again h with ⟨hinted, observation, hhints, _, _, _, hundecided⟩
  have halike := undecided_alike p staleness hinted observation
  rw [hundecided] at halike
  exact (Alike.of_onlyHints hhints).trans halike

theorem statusGoesOn_alike {passes : List Status.Pass} {c d : WatchdogStaleness × JobEnvelope}
    (h : Absence.StatusGoesOn args deadline passes c d) : Alike c.2 d.2 := by
  induction h with
  | refl c => exact Alike.refl _
  | step hpass _ ih => exact (pass_alike hpass).trans ih

end Asking

end Alike
end Job
end MightyColab
