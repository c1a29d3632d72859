import Mathlib.Logic.Function.Basic
import MightyColab.Lib.Runs
import MightyColab.Job.Absence
import MightyColab.Job.Runner

/-!
# A result that comes late

The supervisors' separate reads of `result.json`, `launch.json` and `watchdog.json`, the
runner that writes its result, signals the watchdog and exits, and the watchdog that
records whether the runner is alive, as one machine whose steps interleave freely. A pass
of a supervisor makes all its reads here, also those that its code leaves out once it has
decided: a read changes nothing.
-/

namespace MightyColab
namespace Job

open Lib
open Transport (ReadStatus)

namespace LateResult

/-!
## The files
-/

/-- `launch.json`. -/
structure Launch where
  pid : Nat
  pgid : Nat
  starttime : String
  bootId : String
  attempt : Int
  deadline : Option Runner.VmTime
  startedAt : Runner.VmTime

def Launch.record (l : Launch) : Json.Fields :=
  [("schema_version", .str "1"), ("pid", .int l.pid), ("pgid", .int l.pgid),
    ("starttime", .str l.starttime), ("boot_id", .str l.bootId), ("attempt", .int l.attempt),
    ("deadline", Json.optional (l.deadline.map Runner.VmTime.json)),
    ("started_at", l.startedAt.json)]

structure Readings where
  ts : Json
  elapsed : Json
  remaining : Json
  diskFreeBytes : Json
  diskPath : Json
  gpu : Json
  gpuError : Json
  identityError : Json
  deadline : Json
  inactivity : Json

/-- `watchdog.json`. -/
def watchdogRecord (runnerAlive : Json) (r : Readings) : Json.Fields :=
  [("ts", r.ts), ("elapsed", r.elapsed), ("remaining", r.remaining),
    ("disk_free_bytes", r.diskFreeBytes), ("disk_path", r.diskPath), ("gpu", r.gpu),
    ("gpu_error", r.gpuError), ("runner_alive", runnerAlive),
    ("runner_identity_error", r.identityError), ("deadline", r.deadline),
    ("inactivity", r.inactivity)]

/-!
## The machine
-/

inductive RunnerPc where
  | absent
  | running
  /-- Exited or killed. -/
  | gone
  deriving DecidableEq, Repr

inductive WatchdogPc where
  /-- Not started, stopped or done. -/
  | off
  | top
  /-- `ident.alive` was asked: about to write the record. -/
  | recording (runnerAlive : Json)
  /-- About to look for `result.json`. -/
  | checking

/-- The supervisors that can come to the verdict. -/
inductive Kind where
  /-- `Orchestrator.poll`. -/
  | poll
  /-- `job status --poll`. -/
  | status
  /-- `await_runner_result`. -/
  | wait
  deriving DecidableEq, Repr

inductive Pc where
  | idle
  | result (result : JsonRead)
  | launch (result launch : JsonRead)
  /-- A pass of `poll` after its watchdog read. -/
  | watchdog (result watchdog : JsonRead)
  /-- It has concluded that the runner is dead without a result. -/
  | concluded

abbrev Supervisor := Nat

structure State where
  launch : Option Json.Fields
  result : Option Json.Fields
  watchdogFile : Option Json.Fields
  runner : RunnerPc
  watchdog : WatchdogPc
  pc : Supervisor -> Pc

def init : State where
  launch := none
  result := none
  watchdogFile := none
  runner := .absent
  watchdog := .off
  pc := fun _ => .idle

/-- How a `read_json` goes: it is served, or fails for now. -/
inductive Answer where
  | served
  /-- NOT_FOUND, also for a file that is there. -/
  | notFound
  | degraded
  | sessionLost
  | raised (text : String)
  deriving DecidableEq, Repr

inductive Action where
  | start (launch : Launch)
  | writeResult (payload : Runner.Payload)
  /-- The runner exits, or is killed. -/
  | exit
  | startWatchdog
  /-- The watchdog asks whether the runner is alive; `known` if it can read launch.json. -/
  | sample (known : Bool)
  | record (readings : Readings)
  | recordFails
  | check
  /-- A stop signal takes effect, or the watchdog dies. -/
  | stopWatchdog
  | readResult (p : Supervisor) (answer : Answer)
  | readLaunch (p : Supervisor) (answer : Answer)
  /-- With `recovered`, `control.result` has a result, if it comes to that. -/
  | readWatchdog (p : Supervisor) (answer : Answer) (recovered : Bool)
  | readLate (p : Supervisor) (answer : Answer) (recovered : Bool)

/-- What `read_json` gives for a file. -/
def readOf (file : Option Json.Fields) : Answer -> JsonRead
  | .served =>
      match file with
      | some fields => .ok (some fields, .ok)
      | none => .ok (none, .notFound)
  | .notFound => .ok (none, .notFound)
  | .degraded => .ok (none, .degraded)
  | .sessionLost => .ok (none, .sessionLost)
  | .raised text => .error text

/-- `wd.get("runner_alive") is False` of a read that is OK. -/
def saysDead (watchdog : JsonRead) : Bool :=
  match watchdog with
  | .error _ => false
  | .ok read =>
      match okRecord read with
      | some record => (Json.Fields.get record "runner_alive" matches .bool false)
      | none => false

/-- The read of a `result.json` that is not there. -/
def saysAbsent (result : JsonRead) : Bool :=
  match result with
  | .error _ => false
  | .ok read => (okRecord read).isNone && read.2 ≠ .sessionLost && read.2 ≠ .degraded

/-- A `launch.json` that names a runner. -/
def identifies (launch : JsonRead) : Bool :=
  match launch with
  | .error _ => false
  | .ok read => read.2 ≠ .sessionLost && read.2 ≠ .degraded && (okRecord read).any launchValid

def bringsNothing (read : JsonRead) : Bool :=
  match read with
  | .error _ => false
  | .ok read => (okRecord read).isNone

/-- A pass of `poll` declares the runner dead, unless `control.result` has its result. -/
def declaresDead (result watchdog late : JsonRead) : Bool :=
  saysAbsent result && saysDead watchdog && bringsNothing late

/-- Where an observation leaves its supervisor. One that ends otherwise takes no more
steps, or makes another pass. -/
def afterObservation (kind : Kind) (recovered : Bool) : Except String Observation -> Pc
  | .ok (.runnerDead _) => if kind = .status ∧ recovered = true then .idle else .concluded
  | _ => .idle

def State.setPc (s : State) (p : Supervisor) (c : Pc) : State :=
  { s with pc := Function.update s.pc p c }

def step (kind : Supervisor -> Kind) (s : State) : Action -> Option State
  | .start launch =>
      match s.runner with
      | .absent => some { s with launch := some launch.record, runner := .running }
      | _ => none
  | .writeResult payload =>
      match s.runner with
      | .running => some { s with result := some (Runner.resultPayload payload) }
      | _ => none
  | .exit =>
      match s.runner with
      | .running => some { s with runner := .gone }
      | _ => none
  | .startWatchdog =>
      match s.runner, s.watchdog with
      | .running, .off => some { s with watchdog := .top }
      | _, _ => none
  | .sample known =>
      match s.watchdog with
      | .top =>
          some { s with
            watchdog := .recording
              (if known then .bool (decide (s.runner = .running)) else .null) }
      | _ => none
  | .record readings =>
      match s.watchdog with
      | .recording runnerAlive =>
          some { s with
            watchdogFile := some (watchdogRecord runnerAlive readings)
            watchdog := .checking }
      | _ => none
  | .recordFails =>
      match s.watchdog with
      | .recording _ => some { s with watchdog := .checking }
      | _ => none
  | .check =>
      match s.watchdog with
      | .checking => some { s with watchdog := if s.result.isSome then .off else .top }
      | _ => none
  | .stopWatchdog => some { s with watchdog := .off }
  | .readResult p answer =>
      match s.pc p with
      | .idle => some (s.setPc p (.result (readOf s.result answer)))
      | _ => none
  | .readLaunch p answer =>
      match kind p, s.pc p with
      | .poll, _ => none
      | _, .result result => some (s.setPc p (.launch result (readOf s.launch answer)))
      | _, _ => none
  | .readWatchdog p answer recovered =>
      let watchdog := readOf s.watchdogFile answer
      match kind p, s.pc p with
      | .poll, .result result => some (s.setPc p (.watchdog result watchdog))
      | kind, .launch result launch =>
          some (s.setPc p
            (afterObservation kind recovered (observeRemote ⟨result, launch, watchdog⟩)))
      | _, _ => none
  | .readLate p answer recovered =>
      match s.pc p with
      | .watchdog result watchdog =>
          some (s.setPc p
            (if declaresDead result watchdog (readOf s.result answer) ∧ recovered = false
              then .concluded
              else .idle))
      | _ => none

/-- One runner, its watchdog and any number of supervisors, in any interleaving. -/
def machine (kind : Supervisor -> Kind) : Machine State Action where
  start := fun s => s = init
  step := step kind

/-- A supervisor that has found the runner dead without a result is right. -/
def NoMistake (s : State) : Prop :=
  forall p, s.pc p = .concluded -> s.result = none

/-!
## What the observations say
-/

theorem watchdogVerdict_runnerDead {read : Option Json.Fields × ReadStatus}
    {record : Json.Fields} (h : watchdogVerdict (okRecord read) = .runnerDead record) :
    saysDead (.ok read) = true := by
  unfold watchdogVerdict at h
  cases hrecord : okRecord read with
  | none =>
      rw [hrecord] at h
      cases h
  | some fields =>
      rw [hrecord] at h
      simp only at h
      split at h
      · next halive => simp [saysDead, hrecord, halive]
      · cases h

theorem saysDead_record {read : Option Json.Fields × ReadStatus}
    (h : saysDead (.ok read) = true) :
    exists record, okRecord read = some record ∧
      Json.Fields.get record "runner_alive" = .bool false := by
  unfold saysDead at h
  simp only at h
  cases hrecord : okRecord read with
  | none =>
      rw [hrecord] at h
      cases h
  | some record =>
      rw [hrecord] at h
      refine ⟨record, rfl, ?_⟩
      simp only at h
      split at h
      · next halive => exact halive
      · cases h

/-- An observation is of a dead runner exactly when it found no result, a launched runner
and a record of its death. -/
theorem observeRemote_runnerDead_iff (result launch watchdog : JsonRead) :
    (exists record, observeRemote ⟨result, launch, watchdog⟩ = .ok (.runnerDead record)) <->
      saysAbsent result = true ∧ identifies launch = true ∧ saysDead watchdog = true := by
  constructor
  · rintro ⟨record, h⟩
    unfold observeRemote at h
    obtain ⟨r, hr, hresult⟩ := Fallible.bind_ok h
    simp only at hr
    by_cases hlost : r.2 = .sessionLost
    · rw [if_pos hlost] at hresult
      cases hresult
    · rw [if_neg hlost] at hresult
      cases hnone : okRecord r with
      | some fields =>
          rw [hnone] at hresult
          cases hresult
      | none =>
          rw [hnone] at hresult
          by_cases hdegraded : r.2 = .degraded
          · simp only [if_pos hdegraded] at hresult
            cases hresult
          · simp only [if_neg hdegraded] at hresult
            obtain ⟨l, hl, hlaunch⟩ := Fallible.bind_ok hresult
            refine ⟨by simp [hr, saysAbsent, hnone, hlost, hdegraded], ?_⟩
            by_cases hgone : l.2 = .sessionLost
            · rw [if_pos hgone] at hlaunch
              cases hlaunch
            · rw [if_neg hgone] at hlaunch
              by_cases hfailing : l.2 = .degraded
              · rw [if_pos hfailing] at hlaunch
                cases hlaunch
              · rw [if_neg hfailing] at hlaunch
                cases hfields : okRecord l with
                | none =>
                    rw [hfields] at hlaunch
                    cases hlaunch
                | some fields =>
                    rw [hfields] at hlaunch
                    simp only at hlaunch
                    cases hvalid : launchValid fields with
                    | false =>
                        rw [hvalid] at hlaunch
                        cases hlaunch
                    | true =>
                        rw [hvalid] at hlaunch
                        obtain ⟨w, hw, hwatchdog⟩ := Fallible.bind_ok hlaunch
                        refine ⟨by simp [hl, identifies, hgone, hfailing, hfields, hvalid], ?_⟩
                        split at hwatchdog
                        · cases hwatchdog
                        · rw [hw]
                          exact watchdogVerdict_runnerDead (Except.ok.inj hwatchdog)
  · rintro ⟨habsent, hidentifies, hdead⟩
    cases result with
    | error text => cases habsent
    | ok r =>
    cases launch with
    | error text => cases hidentifies
    | ok l =>
    cases watchdog with
    | error text => cases hdead
    | ok w =>
    rcases saysDead_record hdead with ⟨record, hrecord, halive⟩
    have hlost : w.2 ≠ .sessionLost := by
      rw [okRecord_ok hrecord]
      nofun
    have hverdict : watchdogVerdict (okRecord w) = .runnerDead record := by
      simp only [watchdogVerdict, hrecord, halive]
    simp only [saysAbsent, Bool.and_eq_true, Option.isNone_iff_eq_none, ne_eq, decide_not,
      Bool.not_eq_true', decide_eq_false_iff_not] at habsent
    simp only [identifies, Bool.and_eq_true, Option.any_eq_true, ne_eq, decide_not,
      Bool.not_eq_true', decide_eq_false_iff_not] at hidentifies
    rcases habsent with ⟨⟨hnone, hresultLost⟩, hresultDegraded⟩
    rcases hidentifies with ⟨⟨hlaunchLost, hlaunchDegraded⟩, fields, hfields, hvalid⟩
    refine ⟨record, ?_⟩
    simp [observeRemote, bind, Except.bind, pure, Except.pure, hnone, hresultLost,
      hresultDegraded, hlaunchLost, hlaunchDegraded, hfields, hvalid, hlost, hverdict]

/-!
## The reads of a file
-/

def recordsDeath (watchdogFile : Option Json.Fields) : Bool :=
  saysDead (readOf watchdogFile .served)

theorem saysDead_readOf {file : Option Json.Fields} {answer : Answer}
    (h : saysDead (readOf file answer) = true) :
    answer = .served ∧ recordsDeath file = true := by
  cases answer with
  | served => exact ⟨rfl, h⟩
  | _ => cases h

theorem recordsDeath_record_iff (runnerAlive : Json) (readings : Readings) :
    recordsDeath (some (watchdogRecord runnerAlive readings)) = true <->
      runnerAlive = .bool false := by
  cases runnerAlive with
  | bool b =>
      cases b with
      | false => exact iff_of_true rfl rfl
      | true => exact iff_of_false nofun nofun
  | _ => exact iff_of_false nofun nofun

/-- Nothing of the file is seen, whether it is there or not. -/
def Answer.Fails (answer : Answer) : Prop :=
  answer = .notFound ∨ answer = .degraded ∨ answer = .sessionLost

theorem bringsNothing_readOf {payload : Runner.Payload} {answer : Answer}
    (h : bringsNothing (readOf (some (Runner.resultPayload payload)) answer) = true) :
    answer.Fails := by
  cases answer with
  | served => cases h
  | notFound => exact Or.inl rfl
  | degraded => exact Or.inr (Or.inl rfl)
  | sessionLost => exact Or.inr (Or.inr rfl)
  | raised text => cases h

theorem declaresDead_iff (result watchdog late : JsonRead) :
    declaresDead result watchdog late = true <->
      saysAbsent result = true ∧ saysDead watchdog = true ∧ bringsNothing late = true := by
  simp [declaresDead, and_assoc]

theorem afterObservation_concluded_iff (kind : Kind) (recovered : Bool)
    (observed : Except String Observation) :
    afterObservation kind recovered observed = .concluded <->
      (exists record, observed = .ok (.runnerDead record)) ∧
        ¬(kind = .status ∧ recovered = true) := by
  unfold afterObservation
  split
  · next record =>
      split
      · next h => exact iff_of_false nofun fun hnot => hnot.2 h
      · next h => exact iff_of_true rfl ⟨⟨record, rfl⟩, h⟩
  · next hother =>
      refine iff_of_false nofun ?_
      rintro ⟨⟨record, h⟩, _⟩
      exact hother record h

theorem afterObservation_cases (kind : Kind) (recovered : Bool)
    (observed : Except String Observation) :
    afterObservation kind recovered observed = .idle ∨
      afterObservation kind recovered observed = .concluded := by
  unfold afterObservation
  split
  · split
    · exact Or.inl rfl
    · exact Or.inr rfl
  · exact Or.inl rfl

/-!
## When the verdict is right
-/

/-- The read that decides comes in time: an observation that has found no result does not
find the record of the runner's death while the result is there, and a read of `result.json`
after that record does not fail while the result is there. -/
def ReadsInTime (kind : Supervisor -> Kind) (s : State) : Action -> Prop
  | .readWatchdog p answer recovered =>
      forall result launch, s.pc p = .launch result launch -> saysAbsent result = true ->
        identifies launch = true -> answer = .served -> recordsDeath s.watchdogFile = true ->
        (kind p = .status ∧ recovered = true) ∨ s.result = none
  | .readLate p answer recovered =>
      forall result watchdog, s.pc p = .watchdog result watchdog -> saysAbsent result = true ->
        saysDead watchdog = true -> answer.Fails -> recovered = true ∨ s.result = none
  | _ => True

structure DeathKnown (s : State) : Prop where
  begun : s.watchdog ≠ .off -> s.runner ≠ .absent
  sampled : s.watchdog = .recording (.bool false) -> s.runner = .gone
  recorded : recordsDeath s.watchdogFile = true -> s.runner = .gone
  read : forall p result watchdog, s.pc p = .watchdog result watchdog ->
    saysDead watchdog = true -> s.runner = .gone
  written : forall fields, s.result = some fields ->
    exists payload, fields = Runner.resultPayload payload
  concluded : forall p, s.pc p = .concluded -> s.runner = .gone ∧ s.result = none

theorem deathKnown_init : DeathKnown init where
  begun := fun h => absurd rfl h
  sampled := fun h => by cases h
  recorded := fun h => by cases h
  read := fun p result watchdog h => by cases h
  written := fun fields h => by cases h
  concluded := fun p h => by cases h

theorem DeathKnown.setPc {s : State} (h : DeathKnown s) (p : Supervisor) (c : Pc)
    (hread : forall result watchdog, c = .watchdog result watchdog ->
      saysDead watchdog = true -> s.runner = .gone)
    (hconcluded : c = .concluded -> s.runner = .gone ∧ s.result = none) :
    DeathKnown (s.setPc p c) where
  begun := h.begun
  sampled := h.sampled
  recorded := h.recorded
  written := h.written
  read := by
    intro q result watchdog hq
    by_cases hqp : q = p
    · subst hqp
      exact hread result watchdog (by simpa [State.setPc] using hq)
    · exact h.read q result watchdog (by simpa [State.setPc, Function.update, hqp] using hq)
  concluded := by
    intro q hq
    by_cases hqp : q = p
    · subst hqp
      exact hconcluded (by simpa [State.setPc] using hq)
    · exact h.concluded q (by simpa [State.setPc, Function.update, hqp] using hq)

theorem DeathKnown.setWatchdog {s : State} (h : DeathKnown s) {watchdog : WatchdogPc}
    (hbegun : watchdog ≠ .off -> s.runner ≠ .absent)
    (hsampled : watchdog = .recording (.bool false) -> s.runner = .gone) :
    DeathKnown { s with watchdog } :=
  ⟨hbegun, hsampled, h.recorded, h.read, h.written, h.concluded⟩

/-- What the watchdog has sampled says that the runner is dead only where it is. -/
theorem sampled_gone {s : State} (hbegun : s.runner ≠ .absent) {known : Bool}
    (h : WatchdogPc.recording
      (if known then .bool (decide (s.runner = .running)) else .null) =
        .recording (.bool false)) : s.runner = .gone := by
  cases known with
  | false => cases h
  | true =>
      cases hrunner : s.runner with
      | absent => exact absurd hrunner hbegun
      | running => simp [hrunner] at h
      | gone => rfl

/-- An observation that ends a supervisor's work without a result, where the read of the
watchdog's record comes in time. -/
theorem DeathKnown.observed {s : State} (hinv : DeathKnown s) {kind : Kind} {recovered : Bool}
    {result launch : JsonRead} {answer : Answer}
    (hguard : saysAbsent result = true -> identifies launch = true -> answer = .served ->
      recordsDeath s.watchdogFile = true ->
        (kind = .status ∧ recovered = true) ∨ s.result = none)
    (h : afterObservation kind recovered
      (observeRemote ⟨result, launch, readOf s.watchdogFile answer⟩) = .concluded) :
    s.runner = .gone ∧ s.result = none := by
  rcases (afterObservation_concluded_iff _ _ _).mp h with ⟨hobserved, hkept⟩
  rcases (observeRemote_runnerDead_iff _ _ _).mp hobserved with ⟨habsent, hidentifies, hdead⟩
  rcases saysDead_readOf hdead with ⟨hserved, hrecorded⟩
  refine ⟨hinv.recorded hrecorded, ?_⟩
  rcases hguard habsent hidentifies hserved hrecorded with hrecovered | hnone
  · exact absurd hrecovered hkept
  · exact hnone

/-- A declaration that ends a poll without a result, where the late read comes in time. -/
theorem DeathKnown.declared {s : State} (hinv : DeathKnown s) {p : Supervisor}
    {recovered : Bool} {result watchdog : JsonRead} {answer : Answer}
    (hpc : s.pc p = .watchdog result watchdog)
    (hguard : saysAbsent result = true -> saysDead watchdog = true -> answer.Fails ->
      recovered = true ∨ s.result = none)
    (hdeclares : declaresDead result watchdog (readOf s.result answer) = true)
    (hlost : recovered = false) : s.runner = .gone ∧ s.result = none := by
  rcases (declaresDead_iff _ _ _).mp hdeclares with ⟨habsent, hdead, hnothing⟩
  refine ⟨hinv.read p result watchdog hpc hdead, ?_⟩
  cases hresult : s.result with
  | none => rfl
  | some fields =>
      rcases hinv.written fields hresult with ⟨payload, rfl⟩
      rw [hresult] at hnothing
      rcases hguard habsent hdead (bringsNothing_readOf hnothing) with hrecovered | hnone
      · rw [hlost] at hrecovered
        cases hrecovered
      · exact hresult.symm.trans hnone

theorem deathKnown_preserved (kind : Supervisor -> Kind) :
    (machine kind).Preserved (ReadsInTime kind) DeathKnown := by
  intro s a next hinv hguard hstep
  change step kind s a = some next at hstep
  cases a with
  | start launch =>
      simp only [step] at hstep
      split at hstep
      · next habsent =>
          cases hstep
          have hnever : forall {P : Prop}, s.runner = .gone -> P := by
            intro P hgone
            rw [habsent] at hgone
            cases hgone
          exact ⟨fun h => nofun, fun h => hnever (hinv.sampled h),
            fun h => hnever (hinv.recorded h), fun p r w h hd => hnever (hinv.read p r w h hd),
            hinv.written, fun p h => hnever (hinv.concluded p h).1⟩
      · cases hstep
  | writeResult payload =>
      simp only [step] at hstep
      split at hstep
      · next hrunning =>
          cases hstep
          refine ⟨hinv.begun, hinv.sampled, hinv.recorded, hinv.read, ?_, ?_⟩
          · intro fields h
            cases h
            exact ⟨payload, rfl⟩
          · intro p h
            have hgone := (hinv.concluded p h).1
            rw [hrunning] at hgone
            cases hgone
      · cases hstep
  | exit =>
      simp only [step] at hstep
      split at hstep
      · cases hstep
        exact ⟨fun _ => nofun, fun _ => rfl, fun _ => rfl, fun _ _ _ _ _ => rfl, hinv.written,
          fun p h => ⟨rfl, (hinv.concluded p h).2⟩⟩
      · cases hstep
  | startWatchdog =>
      simp only [step] at hstep
      split at hstep
      · next hrunning _ =>
          cases hstep
          have hbegun : s.runner ≠ .absent := by
            rw [hrunning]
            nofun
          exact hinv.setWatchdog (fun _ => hbegun) nofun
      · cases hstep
  | sample known =>
      simp only [step] at hstep
      split at hstep
      · next htop =>
          cases hstep
          have hbegun : s.runner ≠ .absent := hinv.begun (by rw [htop]; nofun)
          exact hinv.setWatchdog (fun _ => hbegun) (sampled_gone hbegun)
      · cases hstep
  | record readings =>
      simp only [step] at hstep
      split at hstep
      · next runnerAlive hrecording =>
          cases hstep
          have hbegun : s.runner ≠ .absent := hinv.begun (by rw [hrecording]; nofun)
          refine ⟨fun _ => hbegun, nofun, fun h => ?_, hinv.read, hinv.written,
            hinv.concluded⟩
          have halive := (recordsDeath_record_iff _ _).mp h
          rw [halive] at hrecording
          exact hinv.sampled hrecording
      · cases hstep
  | recordFails =>
      simp only [step] at hstep
      split at hstep
      · next hrecording =>
          cases hstep
          have hbegun : s.runner ≠ .absent := hinv.begun (by rw [hrecording]; nofun)
          exact hinv.setWatchdog (fun _ => hbegun) nofun
      · cases hstep
  | check =>
      simp only [step] at hstep
      split at hstep
      · next hchecking =>
          cases hstep
          have hbegun : s.runner ≠ .absent := hinv.begun (by rw [hchecking]; nofun)
          refine hinv.setWatchdog (fun _ => hbegun) fun h => ?_
          cases hresult : s.result <;> simp [hresult] at h
      · cases hstep
  | stopWatchdog =>
      cases hstep
      exact hinv.setWatchdog (fun h => absurd rfl h) nofun
  | readResult p answer =>
      simp only [step] at hstep
      split at hstep
      · cases hstep
        exact hinv.setPc p _ nofun nofun
      · cases hstep
  | readLaunch p answer =>
      simp only [step] at hstep
      split at hstep
      · cases hstep
      · cases hstep
        exact hinv.setPc p _ nofun nofun
      · cases hstep
  | readWatchdog p answer recovered =>
      simp only [step] at hstep
      split at hstep
      · next result _ _ =>
          cases hstep
          refine hinv.setPc p _ (fun r w h hdead => ?_) nofun
          cases h
          exact hinv.recorded (saysDead_readOf hdead).2
      · next result launch hpc =>
          cases hstep
          refine hinv.setPc p _ (fun r w h _ => ?_) (hinv.observed (hguard result launch hpc))
          rcases afterObservation_cases (kind p) recovered
            (observeRemote ⟨result, launch, readOf s.watchdogFile answer⟩) with hidle | hdone
          · rw [hidle] at h
            cases h
          · rw [hdone] at h
            cases h
      · cases hstep
  | readLate p answer recovered =>
      simp only [step] at hstep
      split at hstep
      · next result watchdog hpc =>
          cases hstep
          refine hinv.setPc p _ (fun r w h _ => ?_) fun h => ?_
          · split at h <;> cases h
          · split at h
            · next hdeclares =>
                exact hinv.declared hpc (hguard result watchdog hpc) hdeclares.1 hdeclares.2
            · cases h
      · cases hstep

/-- In every run whose deciding reads come in time, no supervisor that has found the
runner dead without a result is wrong. -/
theorem result_not_mistaken (kind : Supervisor -> Kind) {s : State}
    (hreach : (machine kind).Reaches (ReadsInTime kind) s) : NoMistake s := by
  have hinv : DeathKnown s :=
    Machine.reaches_invariant (fun s0 hs0 => by rw [hs0]; exact deathKnown_init)
      (deathKnown_preserved kind) hreach
  exact fun p h => (hinv.concluded p h).2

def someTime : Runner.VmTime := .sample

def someLaunch : Launch := ⟨41, 41, "77", "boot", 1, none, someTime⟩

def someReadings : Readings :=
  ⟨.int 1030, .int 30, .null, .int 1000000, .str "/content/jobs/j", .null,
    .str "nvidia-smi not found", .null, .null, .bool false⟩

def somePayload : Runner.Payload where
  cliVersion := "0.5.0"
  payloadDigest := "00"
  workload := .succeeded
  exitCode := some 0
  detectOk := true
  runnerError := none
  attempt := 1
  started := someTime
  finished := someTime
  phase := .run
  inputs := []
  offloadStatus := .notRequired

/-- A run that meets the guard: the runner is killed without a result, and `status` finds
it dead. -/
theorem result_not_mistaken_killed :
    exists s, (machine fun _ => .status).Reaches (ReadsInTime fun _ => .status) s ∧
      s.pc 0 = .concluded ∧ NoMistake s := by
  let run : List Action :=
    [.start someLaunch, .startWatchdog, .exit, .sample true, .record someReadings,
      .readResult 0 .served, .readLaunch 0 .served, .readWatchdog 0 .served false]
  have hguard : (machine fun _ => .status).Guarded (ReadsInTime fun _ => .status) init run := by
    refine ⟨trivial, fun s1 h1 => ⟨trivial, fun s2 h2 => ⟨trivial, fun s3 h3 => ⟨trivial,
      fun s4 h4 => ⟨trivial, fun s5 h5 => ⟨trivial, fun s6 h6 => ⟨trivial, fun s7 h7 =>
      ⟨?_, fun _ _ => trivial⟩⟩⟩⟩⟩⟩⟩⟩
    cases h1
    cases h2
    cases h3
    cases h4
    cases h5
    cases h6
    cases h7
    exact fun _ _ _ _ _ _ _ => Or.inr rfl
  have hreach : (machine fun _ => .status).Reaches (ReadsInTime fun _ => .status)
      (((machine fun _ => .status).exec init run).get rfl) := ⟨init, run, rfl, hguard, rfl⟩
  exact ⟨_, hreach, rfl, result_not_mistaken _ hreach⟩

/-- The runner writes its result and exits between the reads of one observation of
`status`, and the watchdog records the death before it is stopped. -/
theorem result_mistaken :
    exists kind s, (machine kind).Reaches Machine.Free s ∧ ¬NoMistake s := by
  let kind : Supervisor -> Kind := fun _ => .status
  let run : List Action :=
    [.start someLaunch, .startWatchdog, .readResult 0 .served, .writeResult somePayload,
      .exit, .sample true, .record someReadings, .readLaunch 0 .served,
      .readWatchdog 0 .served false]
  refine ⟨kind, ((machine kind).exec init run).get rfl,
    ⟨init, run, rfl, Machine.guarded_free (machine kind) run init, rfl⟩, ?_⟩
  intro hright
  have hnone := hright 0 rfl
  cases hnone

theorem poll_mistaken :
    exists s, (machine fun _ => .poll).Reaches Machine.Free s ∧ ¬NoMistake s := by
  let kind : Supervisor -> Kind := fun _ => .poll
  let run : List Action :=
    [.start someLaunch, .startWatchdog, .readResult 0 .served, .writeResult somePayload,
      .exit, .sample true, .record someReadings, .readWatchdog 0 .served false,
      .readLate 0 .degraded false]
  refine ⟨((machine kind).exec init run).get rfl,
    ⟨init, run, rfl, Machine.guarded_free (machine kind) run init, rfl⟩, ?_⟩
  intro hright
  have hnone := hright 0 rfl
  cases hnone

theorem mistaken_of_late {kind : Supervisor -> Kind} {s next : State} {a : Action}
    (hstep : step kind s a = some next) (hlate : ¬ReadsInTime kind s a) :
    ¬NoMistake next := by
  intro hright
  apply hlate
  cases a with
  | readWatchdog p answer recovered =>
      intro result launch hpc habsent hidentifies hserved hrecorded
      by_cases hkept : kind p = .status ∧ recovered = true
      · exact Or.inl hkept
      · refine Or.inr ?_
        subst hserved
        have hconcluded : afterObservation (kind p) recovered
            (observeRemote ⟨result, launch, readOf s.watchdogFile .served⟩) = .concluded :=
          (afterObservation_concluded_iff _ _ _).mpr
            ⟨(observeRemote_runnerDead_iff _ _ _).mpr ⟨habsent, hidentifies, hrecorded⟩, hkept⟩
        have hnext : next = s.setPc p .concluded := by
          simp only [step, hpc, hconcluded] at hstep
          exact (Option.some.inj hstep).symm
        have hnone := hright p (by rw [hnext]; simp [State.setPc])
        rw [hnext] at hnone
        exact hnone
  | readLate p answer recovered =>
      intro result watchdog hpc habsent hdead hfails
      cases recovered with
      | true => exact Or.inl rfl
      | false =>
          refine Or.inr ?_
          have hnothing : bringsNothing (readOf s.result answer) = true := by
            rcases hfails with h | h | h <;> rw [h] <;> rfl
          have hdeclares := (declaresDead_iff _ _ _).mpr ⟨habsent, hdead, hnothing⟩
          have hnext : next = s.setPc p .concluded := by
            simp only [step, hpc, hdeclares] at hstep
            exact (Option.some.inj hstep).symm
          have hnone := hright p (by rw [hnext]; simp [State.setPc])
          rw [hnext] at hnone
          exact hnone
  | _ => trivial

/-!
## What the verdict is

The three supervisors when they come to it.
-/

/-- A pass of apply's poll with these reads and no signal. -/
def tickOf (t : Apply.Tick) (result watchdog late : JsonRead) : Apply.Tick :=
  { t with
    result := Absence.readHit result
    watchdog := Absence.readHit watchdog
    late := Absence.readHit late }

/-- With a record of the runner's death and no late result, the watchdog's record ends the
poll without a result. -/
theorem watchdogRead_dead (spec : JobSpec) (t : Apply.Tick) (record : Json.Fields)
    {late : Option Json.Fields × ReadStatus} (hlate : t.late = Absence.readHit (.ok late))
    (hnone : okRecord late = none)
    (hdead : Json.Fields.get record "runner_alive" = .bool false) (s : Apply.Proc) :
    exists u, Apply.watchdogRead spec t record s =
      (Apply.finishWithoutResult spec t.endings (Apply.deadReason record) >>= fun _ =>
        pure true) u := by
  have hgone : forall u, Apply.runnerGone spec t (Apply.deadReason record) u =
      Apply.finishWithoutResult spec t.endings (Apply.deadReason record) u := by
    intro u
    have hnot : Apply.absorbLateResult spec t u = (.ok false, u) := by
      unfold Apply.absorbLateResult
      rw [hlate, Prog.bind_run_ok (Absence.readJson_ok late u), hnone]
      rfl
    exact Prog.bind_run_ok hnot
  unfold Apply.watchdogRead
  rw [Prog.bind_run_ok (Prog.get_run s)]
  simp only [hdead]
  rw [Prog.bind_run_ok (Prog.modify_run _ s)]
  have hends : forall u, (Apply.runnerGone spec t (Apply.deadReason record) >>= fun _ =>
      pure true) u = (Apply.finishWithoutResult spec t.endings (Apply.deadReason record) >>=
        fun _ => pure true : Apply.Program Bool) u := by
    intro u
    rw [Prog.bind_run, hgone, ← Prog.bind_run]
  exact ⟨_, hends _⟩

theorem tick_declaresDead (spec : JobSpec) (t : Apply.Tick) {result watchdog late : JsonRead}
    (degraded : Nat) (s : Apply.Proc) (h : declaresDead result watchdog late = true) :
    exists record u, (Apply.tick spec (tickOf t result watchdog late) degraded s).2 =
      (Apply.finishWithoutResult spec t.endings (Apply.deadReason record) u).2 := by
  rcases (declaresDead_iff _ _ _).mp h with ⟨habsent, hdead, hnothing⟩
  cases result with
  | error text => cases habsent
  | ok r =>
  cases watchdog with
  | error text => cases hdead
  | ok w =>
  cases late with
  | error text => cases hnothing
  | ok l =>
  simp only [saysAbsent, Bool.and_eq_true, Option.isNone_iff_eq_none, ne_eq, decide_not,
    Bool.not_eq_true', decide_eq_false_iff_not] at habsent
  rcases habsent with ⟨⟨hnone, hlost⟩, hdegraded⟩
  rcases saysDead_record hdead with ⟨record, hrecord, halive⟩
  let t' := tickOf t (.ok r) (.ok w) (.ok l)
  rcases watchdogRead_dead spec t' record rfl (Option.isNone_iff_eq_none.mp hnothing) halive
    (Absence.running s) with ⟨u, hread⟩
  have hjudged : Absence.judged spec t' w s.runnerSeen = Apply.watchdogRead spec t' record := by
    unfold Absence.judged
    rw [hrecord]
  have hhealthy : Apply.healthy spec t' s =
      (Absence.judged spec t' w s.runnerSeen >>= fun ended =>
        if ended then pure true else do
          Apply.arrive t'.pull
          return false : Apply.Program Bool) (Absence.running s) := rfl
  refine ⟨record, u, ?_⟩
  unfold Apply.tick
  rw [show (tickOf t (.ok r) (.ok w) (.ok l)).result = Absence.readHit (.ok r) from rfl,
    Prog.bind_run_ok (Absence.readJson_ok r s), hnone]
  simp only
  rw [if_neg hlost, if_neg hdegraded, Prog.bind_run, hhealthy, hjudged, Prog.bind_run, hread,
    Prog.bind_run]
  rw [show t'.endings = t.endings from rfl]
  rcases Apply.finishWithoutResult spec t.endings (Apply.deadReason record) u with ⟨o, v⟩
  cases o <;> rfl

theorem decide_runnerDead {pass : Status.Pass} {env env' : JobEnvelope}
    (orphan : Bool) (staleness : WatchdogStaleness) (record : Json.Fields)
    (h : recoverOffVmResult pass.offVm env = .ok (false, env')) :
    Status.decide_ orphan pass staleness env (.runnerDead record) =
      .ok (.break (Status.lostVerdict (Status.deadRunnerReason record) env')) :=
  Status.decide_ends rfl h

theorem awaitPolls_runnerDead {looks : Nat -> Look} {wait polls left unreadable : Nat}
    {record : Json.Fields}
    (h : observeRemote (looks (polls - (left + 1))) = .ok (.runnerDead record)) :
    awaitPolls looks wait polls (left + 1) unreadable =
      .error "the runner is dead and wrote no result.json" := by
  simp [awaitPolls, h]

end LateResult
end Job
end MightyColab
