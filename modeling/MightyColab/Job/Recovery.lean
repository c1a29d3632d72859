import MightyColab.Job.Alike
import MightyColab.Job.CommandRecords
import MightyColab.Lib.Text

/-!
# When the VM answers again

Both supervisors say in the record that the VM's files cannot be read: the supervisor is
degraded, and the reason names the failing transport. Apply's poll takes that back with the
next read of result.json that works. `status` leaves it in the record that it has in hand, and
with it in what it writes and what later processes read.
-/

namespace MightyColab
namespace Job

open Lib

namespace Recovery

/-!
## Degraded records and degraded observations
-/

def blamesTransport (env : JobEnvelope) : Bool :=
  env.reason.any fun reason => Text.startsWith reason "transport failing"

/-- The record says that the VM does not answer. -/
def Marked (env : JobEnvelope) : Prop := env.supervisor = .degraded ∨ blamesTransport env = true

def degrades : Observation -> Bool
  | .degraded => true
  | _ => false

def seesDegraded (look : Look) : Bool :=
  match observeRemote look with
  | .ok observation => degrades observation
  | .error _ => false

def SeesAlive (look : Look) : Prop :=
  exists record, observeRemote look = .ok (.runnerAlive record)

def unreadable : JsonRead -> Bool
  | .ok (_, .degraded) => true
  | _ => false

/-!
## The processes of `status`
-/

/-- One pass of `status`, with what decides it: only an orphan has a deadline. -/
structure Sighting where
  args : Status.Args
  orphan : Bool
  deadline : Option (Rat × String)
  orphanOnly : orphan = false -> deadline = none
  pass : Status.Pass

structure Held where
  disk : JobEnvelope
  hand : Option (WatchdogStaleness × JobEnvelope) := none

inductive Event where
  /-- A process starts: it reads the record. -/
  | starts (supervised : Bool) (hints : List String)
  /-- It looks at the VM, and goes on. -/
  | sees (v : Sighting)
  /-- It writes the record. -/
  | writes (hints : List String)

def step (s : Held) : Event -> Option Held
  | .starts supervised hints =>
      some { s with hand := some ({}, { Status.noteSupervisor supervised s.disk with hints }) }
  | .sees v =>
      match s.hand with
      | none => none
      | some (staleness, env) =>
          match Status.pass v.args v.orphan v.deadline v.pass staleness env with
          | .ok (.again staleness env) => some { s with hand := some (staleness, env) }
          | _ => none
  | .writes hints => s.hand.map fun held => { s with disk := { held.2 with hints } }

/-- No process has begun, and no observation has been degraded yet. -/
def machine : Machine Held Event where
  start s := ¬Marked s.disk ∧ s.hand = none
  step := step

/-- Whether a degraded observation has gone into the record on disk, and into the one in hand. -/
structure Told where
  disk : Bool := false
  hand : Bool := false

def Told.after (told : Told) : Event -> Told
  | .starts _ _ => { told with hand := told.disk }
  | .sees v => { told with hand := told.hand || seesDegraded v.pass.look }
  | .writes _ => { told with disk := told.hand }

def toldBy (events : List Event) : Told := events.foldl Told.after {}

/-- Whatever hints are written with the record in hand, it does not say that the VM does not
answer. -/
def Clears (s : Held) : Prop :=
  forall hints, exists next, machine.step s (.writes hints) = some next ∧ ¬Marked next.disk

/-!
## Reasons
-/

theorem degradedReason_blames (note : TransportNote) (polls : Option Nat) (more : String) :
    Text.startsWith (degradedReason note polls ++ more) "transport failing" = true := by
  have hpolls : forall polls : Nat, s!"transport failing for {polls} polls" =
      "transport failing" ++ (" for " ++ (toString polls ++ " polls")) := by
    intro polls
    simp only [← String.append_assoc]
    rfl
  apply Text.startsWith_iff.mpr
  unfold degradedReason
  cases polls with
  | none =>
      simp only [String.append_assoc]
      exact ⟨_, rfl⟩
  | some polls =>
      simp only [hpolls, String.append_assoc]
      exact ⟨_, rfl⟩

theorem stalled_blameless {staleness : WatchdogStaleness} {now : Rat} {record : Json.Fields}
    {text : String} (h : (staleness.observe now record).1 = some text) :
    Text.startsWith text "transport failing" = false := by
  unfold WatchdogStaleness.observe at h
  simp only at h
  split at h
  · cases h
  · split at h
    · split at h
      · cases h
      · cases h
        simp only [String.append_assoc]
        exact Text.not_startsWith rfl rfl (by decide) _
    · cases h

structure Tells (env : JobEnvelope) (told : Bool) : Prop where
  supervisor : env.supervisor = .degraded <-> told = true
  reason : blamesTransport env = true -> env.supervisor = .degraded

variable {env env' : JobEnvelope} {told : Bool}

theorem Tells.marked_iff (h : Tells env told) : Marked env <-> told = true := by
  constructor
  · intro hmarked
    rcases hmarked with hdegraded | hblames
    · exact h.supervisor.mp hdegraded
    · exact h.supervisor.mp (h.reason hblames)
  · exact fun htold => Or.inl (h.supervisor.mpr htold)

theorem tells_of_unmarked (h : ¬Marked env) : Tells env false where
  supervisor := by
    constructor
    · exact fun hdegraded => absurd (Or.inl hdegraded) h
    · exact fun hfalse => by cases hfalse
  reason hblames := absurd (Or.inr hblames) h

theorem Tells.same (h : Tells env told) (hsupervisor : env'.supervisor = env.supervisor)
    (hreason : blamesTransport env' = true -> blamesTransport env = true) : Tells env' told where
  supervisor := by
    rw [hsupervisor]
    exact h.supervisor
  reason hblames := by
    rw [hsupervisor]
    exact h.reason (hreason hblames)

theorem Tells.onlyHints (h : Tells env told) (hhints : OnlyHints env env') : Tells env' told := by
  rcases hhints with ⟨hints, rfl⟩
  exact h.same rfl id

theorem blamesTransport_or {stalled : Option String}
    (hstalled : forall text, stalled = some text ->
      Text.startsWith text "transport failing" = false)
    (h : (stalled.or env.reason).any (fun reason => Text.startsWith reason "transport failing") =
      true) : blamesTransport env = true := by
  cases stalled with
  | none => exact h
  | some text =>
      have htext : Text.startsWith text "transport failing" = true := h
      rw [hstalled text rfl] at htext
      cases htext

/-!
## One pass of `status`
-/

theorem noteSupervisor_tells (supervised : Bool) (h : Tells env told) :
    Tells (Status.noteSupervisor supervised env) told := by
  unfold Status.noteSupervisor
  split
  · next hrunning =>
      have hnot : told ≠ true := by
        intro htold
        rw [h.supervisor.mpr htold] at hrunning
        cases hrunning.left
      constructor
      · exact iff_of_false (fun hdegraded => by cases hdegraded) hnot
      · intro hblames
        have hother : Text.startsWith "the supervisor process that started this job is gone"
            "transport failing" = true := hblames
        exact absurd hother (by decide)
  · exact h

theorem undecided_tells (p : Status.Pass) (staleness : WatchdogStaleness)
    (observation : Observation) (h : Tells env told) :
    Tells (Status.undecided p staleness env observation).2 (told || degrades observation) := by
  cases observation with
  | degraded =>
      constructor
      · exact iff_of_true rfl (Bool.or_true told)
      · exact fun _ => rfl
  | launchInvalid launch =>
      change Tells _ (told || false)
      rw [Bool.or_false]
      have hsupervisor : (Status.undecided p staleness env (.launchInvalid launch)).2.supervisor =
          env.supervisor := rfl
      apply h.same hsupervisor
      intro hblames
      have hlaunch : Text.startsWith _ "transport failing" = true := hblames
      rw [Text.not_startsWith rfl rfl (by decide)] at hlaunch
      cases hlaunch
  | runnerAlive record =>
      change Tells _ (told || false)
      rw [Bool.or_false]
      cases record with
      | none => exact h
      | some record =>
          have hsupervisor : (Status.undecided p staleness env
              (.runnerAlive (some record))).2.supervisor = env.supervisor := rfl
          apply h.same hsupervisor
          exact blamesTransport_or fun text => stalled_blameless
  | result _ | sessionLost | neverStarted | runnerDead _ =>
      change Tells env (told || false)
      rw [Bool.or_false]
      exact h

variable {args : Status.Args} {orphan : Bool} {deadline : Option (Rat × String)}
  {p : Status.Pass} {staleness staleness' : WatchdogStaleness}

theorem seesDegraded_eq {look : Look} {observation : Observation}
    (h : observeRemote look = .ok observation) : seesDegraded look = degrades observation := by
  rw [seesDegraded, h]

/-- A pass that goes on adds a degraded observation to what the record tells, and takes
nothing back. -/
theorem pass_tells
    (hpass : Status.pass args orphan deadline p staleness env = .ok (.again staleness' env'))
    (h : Tells env told) : Tells env' (told || seesDegraded p.look) := by
  rcases Status.pass_again hpass with ⟨hinted, observation, hhints, hobserve, _, _, hundecided⟩
  have htells := undecided_tells p staleness observation (h.onlyHints hhints)
  rw [hundecided] at htells
  rw [seesDegraded_eq hobserve]
  exact htells

theorem pass_blames
    (hpass : Status.pass args orphan deadline p staleness env = .ok (.again staleness' env'))
    (hdegraded : seesDegraded p.look = true) : blamesTransport env' = true := by
  rcases Status.pass_again hpass with ⟨hinted, observation, _, hobserve, _, _, hundecided⟩
  rw [seesDegraded_eq hobserve] at hdegraded
  cases observation with
  | degraded =>
      cases hundecided
      exact degradedReason_blames p.note none "; the job is not known dead"
  | result _ | sessionLost | neverStarted | launchInvalid _ | runnerDead _ | runnerAlive _ =>
      cases hdegraded

theorem recordFailure_supervisor (phase : Phase) (env : JobEnvelope) :
    (env.recordFailure phase).supervisor = env.supervisor := by
  unfold JobEnvelope.recordFailure
  cases env.failedPhase <;> rfl

theorem absorbPayload_supervisor (answer : Absorption) (result : Json.Fields)
    (env : JobEnvelope) :
    (Status.absorbPayload orphan answer result env).supervisor =
      if orphan then .finished else env.supervisor := by
  unfold Status.absorbPayload
  cases orphan with
  | true => rfl
  | false =>
      simp only [Bool.false_eq_true, if_false]
      cases habsorb : absorbRemoteResult env answer.plan result answer.now with
      | ok absorbed => exact (absorbRemoteResult_spec habsorb).left.supervisor
      | error error => exact recordFailure_supervisor .run { env with workload := .unknown }

/-- The loop of `status` is left with a degraded supervisor where the record in hand had one,
and the runner's result comes while somebody else supervises the job. -/
theorem break_degraded_iff
    (hpass : Status.pass args orphan deadline p staleness env = .ok (.break env')) :
    env'.supervisor = .degraded <->
      env.supervisor = .degraded ∧ orphan = false ∧
        (Status.checkDeadline args deadline p env).1 = false ∧
          exists result, observeRemote p.look = .ok (.result result) := by
  rcases Status.pass_cases hpass with ⟨hlate, hleft⟩ |
    ⟨hintime, hinted, observation, hhints, hobserve, hdecide⟩
  · cases hleft
    rw [(Status.checkDeadline_poll hlate).right, hlate]
    exact iff_of_false (fun h => by cases h) fun h => by cases h.right.right.left
  · rcases Status.decide_cases hdecide with ⟨result, rfl, hleft⟩ |
      ⟨reason, recovered, hend, _, hleft⟩ | ⟨_, _, hleft⟩
    · cases hleft
      rw [absorbPayload_supervisor, hhints.same (·.supervisor)]
      cases orphan with
      | true => exact iff_of_false (fun h => by cases h) fun h => by cases h.right.left
      | false => exact ⟨fun h => ⟨h, rfl, hintime, result, hobserve⟩, fun h => h.left⟩
    · have hfinished : env'.supervisor = .finished := by
        cases hleft
        rcases recovered with ⟨found, noted⟩
        cases found <;> rfl
      rw [hfinished]
      refine iff_of_false (fun h => by cases h) fun h => ?_
      rcases h with ⟨_, _, _, result, hresult⟩
      cases hobserve.symm.trans hresult
      cases hend
    · cases hleft

/-!
## The record through its processes
-/

variable {s s' : Held} {events : List Event} {v : Sighting} {history : Told}

theorem sees_eq (h : machine.step s (.sees v) = some s') :
    exists staleness env staleness' env', s.hand = some (staleness, env) ∧
      Status.pass v.args v.orphan v.deadline v.pass staleness env =
        .ok (.again staleness' env') ∧ s' = { s with hand := some (staleness', env') } := by
  change step s (.sees v) = some s' at h
  unfold step at h
  cases hhand : s.hand with
  | none =>
      simp only [hhand] at h
      cases h
  | some held =>
      rcases held with ⟨staleness, env⟩
      simp only [hhand] at h
      split at h
      · next staleness' env' hpass =>
          cases h
          exact ⟨staleness, env, staleness', env', rfl, hpass, rfl⟩
      · cases h

theorem sees_run (hhand : s.hand = some (staleness, env))
    (hpass : Status.pass v.args v.orphan v.deadline v.pass staleness env =
      .ok (.again staleness' env')) :
    machine.step s (.sees v) = some { s with hand := some (staleness', env') } := by
  change step s (.sees v) = _
  simp only [step, hhand, hpass]

structure Tracks (s : Held) (history : Told) : Prop where
  disk : Tells s.disk history.disk
  hand : forall staleness env, s.hand = some (staleness, env) -> Tells env history.hand

theorem step_tracks (s : Held) (e : Event) (s' : Held) (history : Told) (h : Tracks s history)
    (hstep : machine.step s e = some s') : Tracks s' (history.after e) := by
  cases e with
  | starts supervised hints =>
      cases hstep
      constructor
      · exact h.disk
      · intro staleness env hhand
        cases hhand
        exact (noteSupervisor_tells supervised h.disk).onlyHints ⟨hints, rfl⟩
  | sees v =>
      rcases sees_eq hstep with ⟨staleness, env, staleness', env', hhand, hpass, rfl⟩
      constructor
      · exact h.disk
      · intro _ _ hafter
        cases hafter
        exact pass_tells hpass (h.hand staleness env hhand)
  | writes hints =>
      rcases Option.map_eq_some_iff.mp hstep with ⟨⟨staleness, env⟩, hhand, rfl⟩
      have hwritten := h.hand staleness env hhand
      constructor
      · exact hwritten.onlyHints ⟨hints, rfl⟩
      · exact h.hand

theorem start_tracks (h : machine.start s) : Tracks s {} where
  disk := tells_of_unmarked h.left
  hand staleness env hhand := by
    rw [h.right] at hhand
    cases hhand

theorem run_tracks (hstart : machine.start s) (hexec : machine.exec s events = some s') :
    Tracks s' (toldBy events) :=
  Machine.exec_history step_tracks (start_tracks hstart) hexec

theorem toldBy_concat (events : List Event) (e : Event) :
    toldBy (events ++ [e]) = (toldBy events).after e := by
  rw [toldBy, List.foldl_append]
  rfl

/-- After a look, the record in hand tells of this observation and of those before it. -/
theorem sees_tells (hstart : machine.start s)
    (hexec : machine.exec s (events ++ [.sees v]) = some s') :
    exists staleness env, s'.hand = some (staleness, env) ∧
      Tells env ((toldBy events).hand || seesDegraded v.pass.look) ∧
      (seesDegraded v.pass.look = true -> blamesTransport env = true) := by
  have htracks := run_tracks hstart hexec
  rcases Machine.exec_concat hexec with ⟨last, _, hstep⟩
  rcases sees_eq hstep with ⟨staleness, env, staleness', env', hhand, hpass, rfl⟩
  have htells := htracks.hand staleness' env' rfl
  rw [toldBy_concat] at htells
  exact ⟨staleness', env', rfl, htells, pass_blames hpass⟩

theorem clears_iff {held : WatchdogStaleness × JobEnvelope} (hhand : s.hand = some held) :
    Clears s <-> ¬Marked held.2 := by
  have hwrites : forall hints, machine.step s (.writes hints) =
      some { s with disk := { held.2 with hints } } := by
    intro hints
    change s.hand.map _ = _
    rw [hhand]
    rfl
  constructor
  · intro h
    rcases h held.2.hints with ⟨next, hstep, hunmarked⟩
    cases (hwrites held.2.hints).symm.trans hstep
    exact hunmarked
  · exact fun h hints => ⟨_, hwrites hints, h⟩

/-- Where the runner is seen alive, the record is clear if it was never told otherwise. -/
theorem alive_clears_iff (hstart : machine.start s)
    (hexec : machine.exec s (events ++ [.sees v]) = some s') (halive : SeesAlive v.pass.look) :
    Clears s' <-> (toldBy events).hand = false := by
  rcases sees_tells hstart hexec with ⟨staleness, env, hhand, htells, _⟩
  rcases halive with ⟨record, hobserve⟩
  have hhealthy : seesDegraded v.pass.look = false := seesDegraded_eq hobserve
  rw [hhealthy, Bool.or_false] at htells
  rw [clears_iff hhand, htells.marked_iff, Bool.not_eq_true]

/-!
## Apply's poll
-/

section Polling

open Apply Evidence

variable {spec : JobSpec} {t : Tick} {degraded : Nat} {s s' : Proc}

/-- After the reads of a healthy pass the record is clear, whatever it said before. -/
theorem healthyLook_unmarked (t : Tick) (s : Proc) : ¬Marked (healthyLook t s).2.env := by
  have hkeeps := @Alike.recordsLook_inHand (fun env => ¬Marked env) t (by
    intro staleness record env hints hunmarked hmarked
    rcases hmarked with hdegraded | hblames
    · exact hunmarked (Or.inl hdegraded)
    · exact hunmarked (Or.inr (blamesTransport_or (fun text => stalled_blameless) hblames)))
  unfold healthyLook
  rw [Prog.bind_run_ok (show modifyEnv _ s = (.ok (), Absence.running s) from rfl)]
  apply hkeeps
  intro hmarked
  rcases hmarked with hdegraded | hblames
  · cases hdegraded
  · cases hblames

/-- A pass that goes on has written the record, which says how result.json was read. -/
theorem tick_marks (h : tick spec t degraded s = (.ok false, s')) :
    s'.disk = some s'.env ∧
      (unreadable t.result.read = true ->
        s'.env.supervisor = .degraded ∧ blamesTransport s'.env = true) ∧
      (unreadable t.result.read = false -> ¬Marked s'.env) := by
  rw [tick_eq] at h
  rcases Prog.bind_eq_ok h with ⟨⟨reads, conclusion⟩, u, hlook, hconclude⟩
  rcases conclude_wrote hconclude with ⟨⟨healthy, rfl⟩, rfl⟩
  rcases Prog.bind_eq_ok hlook with ⟨seen, v, hread, hrest⟩
  rcases readJson_eq_ok hread with ⟨hseen, rfl⟩
  refine ⟨rfl, ?_⟩
  change (_ -> u.env.supervisor = .degraded ∧ blamesTransport u.env = true) ∧
    (_ -> ¬Marked u.env)
  have hunreadable : unreadable t.result.read = decide (seen.2 = .degraded) := by
    rw [hseen]
    rcases seen with ⟨record, status⟩
    cases status <;> rfl
  rw [hunreadable, decide_eq_true_eq, decide_eq_false_iff_not]
  cases hrecord : okRecord seen with
  | some record =>
      simp only [hrecord] at hrest
      cases hrest
  | none =>
      simp only [hrecord] at hrest
      by_cases hlost : seen.2 = .sessionLost
      · rw [if_pos hlost] at hrest
        cases hrest
      · rw [if_neg hlost] at hrest
        by_cases hdegraded : seen.2 = .degraded
        · rw [if_pos hdegraded] at hrest
          cases hrest
          constructor
          · intro _
            constructor
            · rfl
            · have hblames := degradedReason_blames t.note (some (degraded + 1)) ""
              rw [String.append_empty] at hblames
              exact hblames
          · exact fun hhealthy => absurd hdegraded hhealthy
        · rw [if_neg hdegraded] at hrest
          rcases Prog.bind_eq_ok hrest with ⟨looked, w, hhealthy, hreturn⟩
          cases (Prog.pure_eq_ok hreturn).right
          have hunmarked := healthyLook_unmarked t v
          rw [hhealthy] at hunmarked
          constructor
          · exact fun h => absurd h hdegraded
          · exact fun _ => hunmarked

theorem pollGoesOn_last {until_ : Rat} {earlier : List Tick} {c d : Nat × Proc}
    (h : Absence.PollGoesOn spec until_ (earlier ++ [t]) c d) :
    exists before, Absence.PollGoesOn spec until_ earlier c before ∧
      tick spec t before.1 before.2 = (.ok false, d.2) := by
  induction earlier generalizing c with
  | nil =>
      rcases h with _ | ⟨_, htick, hrest⟩
      cases hrest
      exact ⟨c, .refl c, htick⟩
  | cons first rest ih =>
      rcases h with _ | ⟨htime, htick, hrest⟩
      rcases ih hrest with ⟨before, hbefore, hlast⟩
      exact ⟨before, .step htime htick hbefore, hlast⟩

theorem pollGoesOn_prefix {until_ : Rat} {earlier later : List Tick} {c d : Nat × Proc}
    (h : Absence.PollGoesOn spec until_ (earlier ++ later) c d) :
    exists between, Absence.PollGoesOn spec until_ earlier c between := by
  induction earlier generalizing c with
  | nil => exact ⟨c, .refl c⟩
  | cons first rest ih =>
      rcases h with _ | ⟨htime, htick, hrest⟩
      rcases ih hrest with ⟨between, hbetween⟩
      exact ⟨between, .step htime htick hbetween⟩

/-- However the VM has answered before, the record that the poll has written after a pass says
how this pass has read result.json. -/
theorem pollGoesOn_marks {until_ : Rat} {earlier : List Tick} {c d : Nat × Proc}
    (h : Absence.PollGoesOn spec until_ (earlier ++ [t]) c d) :
    d.2.disk = some d.2.env ∧
      (unreadable t.result.read = true ->
        d.2.env.supervisor = .degraded ∧ blamesTransport d.2.env = true) ∧
      (unreadable t.result.read = false -> ¬Marked d.2.env) := by
  rcases pollGoesOn_last h with ⟨before, _, htick⟩
  exact tick_marks htick

end Polling

/-!
## The two loops
-/

theorem unreadable_degraded {look : Look} (h : unreadable look.result = true) :
    seesDegraded look = true := by
  cases hresult : look.result with
  | error text =>
      rw [hresult] at h
      cases h
  | ok read =>
      rcases read with ⟨record, status⟩
      rw [hresult] at h
      cases status with
      | degraded =>
          have hobserve : observeRemote look = .ok .degraded := by
            unfold observeRemote
            rw [hresult]
            cases record <;> rfl
          exact seesDegraded_eq hobserve
      | ok | notFound | sessionLost => cases h

def passes (events : List Event) : List Status.Pass :=
  events.filterMap fun
    | .sees v => some v.pass
    | _ => none

/-- The record that status has in hand and apply's say the same of the transport. -/
def Agree (s : Held) (p : Apply.Proc) : Prop :=
  forall staleness env, s.hand = some (staleness, env) ->
    (env.supervisor = .degraded <-> p.env.supervisor = .degraded) ∧
      blamesTransport env = blamesTransport p.env

/-- Every look of the run that sees the runner alive clears the record. -/
def ClearsAlong (s : Held) (events : List Event) : Prop :=
  forall before v after s', events = before ++ .sees v :: after -> SeesAlive v.pass.look ->
    machine.exec s (before ++ [.sees v]) = some s' -> Clears s'

variable (spec : JobSpec) (launched : Option Rat) (endings : List Apply.Finish) (until_ : Rat)

/-- Apply's poll is given the same passes. -/
def Polls (events : List Event) (c d : Nat × Apply.Proc) : Prop :=
  Absence.PollGoesOn spec until_ ((passes events).map (Absence.tickOf launched endings)) c d

/-- The two loops agree after every look of the run. -/
def AgreeAlong (c : Nat × Apply.Proc) (s : Held) (events : List Event) : Prop :=
  forall before v after s' d, events = before ++ .sees v :: after ->
    machine.exec s (before ++ [.sees v]) = some s' ->
      Polls spec launched endings until_ (before ++ [.sees v]) c d -> Agree s' d.2

variable {spec launched endings until_} {c d : Nat × Apply.Proc}

theorem passes_concat (events : List Event) (v : Sighting) :
    passes (events ++ [.sees v]) = passes events ++ [v.pass] := by
  rw [passes, List.filterMap_append]
  rfl

/-- Apply goes by this read of result.json alone, status by every degraded observation. -/
theorem agree_iff (hstart : machine.start s)
    (hexec : machine.exec s (events ++ [.sees v]) = some s')
    (hpolls : Polls spec launched endings until_ (events ++ [.sees v]) c d) :
    Agree s' d.2 <-> unreadable v.pass.look.result = true ∨
      ((toldBy events).hand = false ∧ seesDegraded v.pass.look = false) := by
  rcases sees_tells hstart hexec with ⟨staleness, env, hhand, htells, hblames⟩
  have hticks : Absence.PollGoesOn spec until_ ((passes events).map
      (Absence.tickOf launched endings) ++ [Absence.tickOf launched endings v.pass]) c d := by
    unfold Polls at hpolls
    rw [passes_concat, List.map_append] at hpolls
    exact hpolls
  rcases pollGoesOn_marks hticks with ⟨_, hmarked, hunmarked⟩
  have hagree : Agree s' d.2 <->
      (env.supervisor = .degraded <-> d.2.env.supervisor = .degraded) ∧
        blamesTransport env = blamesTransport d.2.env := by
    constructor
    · exact fun h => h staleness env hhand
    · intro h staleness' env' hhand'
      cases hhand.symm.trans hhand'
      exact h
  rw [hagree]
  cases hread : unreadable v.pass.look.result with
  | true =>
      have hdegraded := unreadable_degraded hread
      rcases hmarked hread with ⟨hsupervisor, hreason⟩
      rw [hdegraded, Bool.or_true] at htells
      refine iff_of_true ⟨?_, ?_⟩ (Or.inl rfl)
      · exact iff_of_true (htells.supervisor.mpr rfl) hsupervisor
      · rw [hblames hdegraded, hreason]
  | false =>
      have hclear := hunmarked hread
      have hsupervisor : d.2.env.supervisor ≠ .degraded := fun h => hclear (Or.inl h)
      have hreason : blamesTransport d.2.env = false :=
        Bool.eq_false_iff.mpr fun h => hclear (Or.inr h)
      rw [← Bool.or_eq_false_iff]
      constructor
      · intro h
        have hnot : env.supervisor ≠ .degraded := fun hdegraded =>
          hsupervisor (h.left.mp hdegraded)
        exact Or.inr (Bool.eq_false_iff.mpr fun htold => hnot (htells.supervisor.mpr htold))
      · intro h
        have htold := h.resolve_left nofun
        rw [htold] at htells
        have hnot : ¬Marked env := fun h => by cases htells.marked_iff.mp h
        constructor
        · exact iff_of_false (fun h => hnot (Or.inl h)) hsupervisor
        · rw [hreason]
          exact Bool.eq_false_iff.mpr fun h => hnot (Or.inr h)

/-- The run comes to a last pass, with which `status` leaves its loop and this record. -/
def Leaves (s : Held) (events : List Event) (v : Sighting) (last : JobEnvelope) : Prop :=
  exists final staleness env, machine.exec s events = some final ∧
    final.hand = some (staleness, env) ∧
    Status.pass v.args v.orphan v.deadline v.pass staleness env = .ok (.break last)

/-- The last pass finds the runner's result, and somebody else supervises the job. -/
def ResultForOthers (v : Sighting) : Prop :=
  v.orphan = false ∧ exists result, observeRemote v.pass.look = .ok (.result result)

theorem leaves_degraded_iff {last : JobEnvelope} (hstart : machine.start s)
    (h : Leaves s events v last) :
    last.supervisor = .degraded <-> (toldBy events).hand = true ∧ ResultForOthers v := by
  rcases h with ⟨final, staleness, env, hexec, hhand, hpass⟩
  have htells := (run_tracks hstart hexec).hand staleness env hhand
  rw [break_degraded_iff hpass, htells.supervisor]
  constructor
  · intro h
    rcases h with ⟨htold, horphan, _, hresult⟩
    exact ⟨htold, horphan, hresult⟩
  · intro h
    rcases h with ⟨htold, horphan, hresult⟩
    have hintime : (Status.checkDeadline v.args v.deadline v.pass env).1 = false := by
      rw [v.orphanOnly horphan]
      rfl
    exact ⟨htold, horphan, hintime, hresult⟩

/-- From a record that is clear: the looks of status that see the runner alive clear its
record exactly where no degraded observation has gone into it, and `--poll` leaves its loop
with a degraded supervisor exactly where one has and a result comes to a job that somebody
else supervises. Apply's poll clears its record with every read of result.json that works. The
two agree exactly where each look finds result.json unreadable, or no observation up to it has
been degraded. -/
theorem clears_iff_untold (spec : JobSpec) (launched : Option Rat)
    (endings : List Apply.Finish) (until_ : Rat) :
    (forall s events final, machine.start s -> machine.exec s events = some final ->
      (ClearsAlong s events <->
        forall before v after, events = before ++ .sees v :: after -> SeesAlive v.pass.look ->
          (toldBy before).hand = false)) ∧
    (forall s events v last, machine.start s -> Leaves s events v last ->
      (last.supervisor = .degraded <-> (toldBy events).hand = true ∧ ResultForOthers v)) ∧
    (forall earlier t c d, Absence.PollGoesOn spec until_ (earlier ++ [t]) c d ->
      unreadable t.result.read = false -> d.2.disk = some d.2.env ∧ ¬Marked d.2.env) ∧
    (forall s events final c d, machine.start s -> machine.exec s events = some final ->
      Polls spec launched endings until_ events c d ->
      (AgreeAlong spec launched endings until_ c s events <->
        forall before v after, events = before ++ .sees v :: after ->
          unreadable v.pass.look.result = true ∨
            ((toldBy before).hand = false ∧ seesDegraded v.pass.look = false))) := by
  refine ⟨?_, fun s events v last => leaves_degraded_iff, ?_, ?_⟩
  · intro s events final hstart hexec
    constructor
    · intro hclears before v after hsplit halive
      rw [hsplit] at hexec
      rcases Machine.exec_prefix hexec with ⟨s', hexec'⟩
      exact (alive_clears_iff hstart hexec' halive).mp
        (hclears before v after s' hsplit halive hexec')
    · intro huntold before v after s' hsplit halive hexec'
      exact (alive_clears_iff hstart hexec' halive).mpr (huntold before v after hsplit halive)
  · intro earlier t c d hpolls hread
    rcases pollGoesOn_marks hpolls with ⟨hdisk, _, hunmarked⟩
    exact ⟨hdisk, hunmarked hread⟩
  · intro s events final c d hstart hexec hpolls
    constructor
    · intro hagree before v after hsplit
      rw [hsplit] at hexec
      rcases Machine.exec_prefix hexec with ⟨s', hexec'⟩
      have hprefix : exists d', Polls spec launched endings until_ (before ++ [.sees v]) c d' := by
        unfold Polls at hpolls ⊢
        rw [hsplit, List.append_cons, passes, List.filterMap_append, List.map_append] at hpolls
        exact pollGoesOn_prefix hpolls
      rcases hprefix with ⟨d', hpolls'⟩
      exact (agree_iff hstart hexec' hpolls').mp
        (hagree before v after s' d' hsplit hexec' hpolls')
    · intro huntold before v after s' d' hsplit hexec' hpolls'
      exact (agree_iff hstart hexec' hpolls').mpr (huntold before v after hsplit)

/-- A pass of `status` with this look at the VM. -/
def passOf (look : Look) : Status.Pass where
  time := 0
  clock := 0
  cancel := ⟨.ok .ok, fun _ => look, ⟨.ok none, "now"⟩, "now"⟩
  keepAlive := .ok none
  look := look
  absorb := ⟨.ok none, "now"⟩
  offVm := ⟨.ok none, .error "", .ok none, "now"⟩
  note := {}

def unreachable : Look where
  result := .ok (none, .degraded)
  launch := .ok (none, .degraded)
  watchdog := .ok (none, .degraded)

def answering : Look where
  result := .ok (none, .notFound)
  launch := .ok (some [("pid", .int 1), ("starttime", .str "1"), ("boot_id", .str "b")], .ok)
  watchdog := .ok (some [("ts", .int 7), ("runner_alive", .bool true)], .ok)

/-- A look of `status --poll` at a job that nobody else supervises. -/
def pollOf (look : Look) : Sighting where
  args := ⟨"j", true⟩
  orphan := true
  deadline := none
  orphanOnly := nofun
  pass := passOf look

/-- A `status` without `--poll` on a job whose supervisor is gone. -/
def statusOf (look : Look) : Status.Answers :=
  { DoneFinal.runnerAlive with supervisorAlive := .ok false, passes := [passOf look] }

/-- The VM does not answer once, and then the runner is seen alive: in the loop of
`status --poll` the record stays degraded, and two processes of `status` write it so. -/
theorem stays_degraded :
    (¬forall s events final, machine.start s -> machine.exec s events = some final ->
      ClearsAlong s events) ∧
    (let first := Status.status ⟨"j", false⟩ (statusOf unreachable)
        (Concurrent.desk (some Destroy.launched))
      let second := Status.status ⟨"j", false⟩ (statusOf answering)
        (Concurrent.desk first.2.disk)
      second.2.disk.map (fun env => (env.supervisor, env.reason)) =
        some (.degraded, some "transport failing; the job is not known dead")) := by
  constructor
  · intro h
    let s : Held := ⟨Destroy.launched, none⟩
    let before : List Event := [.starts false [], .sees (pollOf unreachable)]
    have hstart : machine.start s := by
      constructor
      · intro hmarked
        rcases hmarked with hdegraded | hblames
        · cases hdegraded
        · cases hblames
      · rfl
    have hruns : (machine.exec s (before ++ [.sees (pollOf answering)])).isSome = true := by
      decide
    rcases Option.isSome_iff_exists.mp hruns with ⟨final, hexec⟩
    have halive : SeesAlive answering := ⟨_, rfl⟩
    have hclears := h s _ final hstart hexec before (pollOf answering) [] final rfl halive hexec
    cases (alive_clears_iff hstart hexec halive).mp hclears
  · decide

/-!
## What `status` writes
-/

theorem alive_again {turn : Status.Turn} (hpoll : args.poll = false) (halive : SeesAlive p.look)
    (hpass : Status.pass args orphan deadline p staleness env = .ok turn) :
    exists staleness' env', turn = .again staleness' env' := by
  rcases halive with ⟨record, halive⟩
  rcases Status.pass_cases hpass with ⟨hlate, _⟩ | ⟨_, hinted, observation, _, hobserve, hdecide⟩
  · have hasked := (Status.checkDeadline_poll hlate).left
    rw [hpoll] at hasked
    cases hasked
  · cases halive.symm.trans hobserve
    cases hdecide
    exact ⟨_, _, rfl⟩

/-- A `status` without `--poll` that sees the runner alive puts on disk what the machine
writes. -/
theorem first_runs {a : Status.Answers} {copy last : JobEnvelope} {rest : List Status.Pass}
    (hpoll : args.poll = false) (hpasses : a.passes = p :: rest) (halive : SeesAlive p.look)
    (hwork : copy.workload.terminal = false) (h : Records.First args a copy last) :
    exists supervised hints v final, v.pass = p ∧ machine.exec ⟨copy, none⟩
      [.starts supervised hints, .sees v, .writes last.hints] = some final ∧
        final.disk = last := by
  have hlook : forall {orphan : Bool} {env env' : JobEnvelope}, Records.Asked a copy orphan env ->
      Records.Looked args a orphan env env' -> env'.workload.terminal = false ∧
        exists supervised hints v final, v.pass = p ∧ machine.exec ⟨copy, none⟩
          [.starts supervised hints, .sees v, .writes env'.hints] = some final ∧
            final.disk = env' := by
    intro orphan env env' hasked hlooked
    rcases hasked with ⟨noted, ⟨supervised, _, rfl, _⟩, _, hkeep⟩
    have hnoted : (Status.noteSupervisor supervised copy).workload = copy.workload := by
      unfold Status.noteSupervisor
      split <;> rfl
    rcases Status.ensureKeepAlive_onlyHints hkeep with ⟨hints, rfl⟩
    rcases hlooked with ⟨hterminal, _⟩ | ⟨_, until_, _, horphanOnly, hloop⟩
    · change (Status.noteSupervisor supervised copy).workload.terminal = true at hterminal
      rw [hnoted, hwork] at hterminal
      cases hterminal
    · rw [hpasses, Records.loopEnv] at hloop
      cases hpass : Status.pass args orphan until_ p {}
          { Status.noteSupervisor supervised copy with hints } with
      | error text =>
          rw [hpass] at hloop
          cases hloop
      | ok turn =>
          rcases alive_again hpoll halive hpass with ⟨staleness', env'', rfl⟩
          rw [hpass] at hloop
          simp only [hpoll, Bool.false_eq_true, if_false] at hloop
          cases hloop
          constructor
          · rw [(Alike.pass_alike hpass).workload]
            exact (congrArg Workload.terminal hnoted).trans hwork
          · refine ⟨supervised, hints, ⟨args, orphan, until_, horphanOnly, p⟩,
              ⟨env', some (staleness', env')⟩, rfl, ?_, rfl⟩
            have hstarts : machine.step ⟨copy, none⟩ (.starts supervised hints) =
                some ⟨copy, some ({}, { Status.noteSupervisor supervised copy with hints })⟩ :=
              rfl
            rw [Machine.exec_of_step hstarts, Machine.exec_of_step (sees_run rfl hpass)]
            rfl
  cases h with
  | looked hasked hlooked _ => exact (hlook hasked hlooked).right
  | finished hasked hlooked hterminal _ =>
      rw [(hlook hasked hlooked).left] at hterminal
      cases hterminal

theorem loopEnv_leaves {last : JobEnvelope} {until_ : Option (Rat × String)}
    (horphanOnly : orphan = false -> until_ = none) (hpoll : args.poll = true)
    (disk : JobEnvelope) :
    forall {passes : List Status.Pass} {staleness : WatchdogStaleness} {env : JobEnvelope},
      Records.loopEnv args orphan until_ passes staleness env = some last ->
        exists earlier p later, passes = earlier ++ p :: later ∧
          Leaves ⟨disk, some (staleness, env)⟩
            (earlier.map fun p => .sees ⟨args, orphan, until_, horphanOnly, p⟩)
            ⟨args, orphan, until_, horphanOnly, p⟩ last := by
  intro passes
  induction passes with
  | nil =>
      intro staleness env h
      cases h
  | cons p rest ih =>
      intro staleness env h
      rw [Records.loopEnv] at h
      cases hpass : Status.pass args orphan until_ p staleness env with
      | error text =>
          rw [hpass] at h
          cases h
      | ok turn =>
          rw [hpass] at h
          cases turn with
          | «break» env' =>
              cases h
              exact ⟨[], p, rest, rfl, _, staleness, env, rfl, rfl, hpass⟩
          | again staleness' env' =>
              simp only [hpoll, if_true] at h
              rcases ih h with ⟨earlier, p', later, rfl, final, staleness'', env'', hexec, hlast⟩
              refine ⟨p :: earlier, p', later, rfl, final, staleness'', env'', ?_, hlast⟩
              rw [List.map_cons, Machine.exec_of_step (sees_run rfl hpass)]
              exact hexec

end Recovery
end Job
end MightyColab
