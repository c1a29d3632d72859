import MightyColab.Job.Alike
import MightyColab.Job.CommandRecords

/-!
# The three supervisors

Apply's poll, the loop of `status --poll` and `job destroy` settle a job from the same files
on its VM. Given one last sight of them, each is followed to the verdict that it records, and
the verdicts are compared: what a result says is recorded alike by all three, and a job
without a result is unknown to all three, while `destroy` gives it a retry class of its own.
-/

namespace MightyColab
namespace Job

open Lib
open Transport (ReadStatus)

namespace Supervisors

/-!
## What they find
-/

/-- The end of a job as a supervisor finds it: the stored plan, the VM's files, what
`control.result` answers, and the time. -/
structure Sight where
  plan : Plan
  look : Look
  fetch : Except String Json.Fields
  now : String

namespace Sight

def absorption (x : Sight) : Absorption := { plan := .ok (some x.plan), now := x.now }

def offVm (x : Sight) : OffVm where
  plan := .ok (some x.plan)
  fetch := x.fetch
  absorbPlan := .ok (some x.plan)
  now := x.now

def finish (x : Sight) : Apply.Finish where
  fetch := x.fetch
  absorb := { now := x.now }
  now := x.now

@[simp] theorem finish_absorb (x : Sight) : x.finish.absorb = { now := x.now } := rfl

@[simp] theorem finish_gaps (x : Sight) : x.finish.gaps = fun _ => none := rfl

def tick (x : Sight) (t : Apply.Tick) : Apply.Tick where
  time := t.time
  result := Absence.readHit x.look.result
  absorb := { now := x.now }
  endings := x.finish :: t.endings
  note := t.note
  watchdog := Absence.readHit x.look.watchdog
  clock := t.clock
  sinceLaunch := t.sinceLaunch
  launch := Absence.readHit x.look.launch
  absentFrom := t.absentFrom
  absentNow := t.absentNow
  late := Absence.readHit x.look.result

/-- The pass of `status` with this sight. -/
def pass (x : Sight) (p : Status.Pass) : Status.Pass :=
  { p with look := x.look, absorb := x.absorption, offVm := x.offVm }

/-- A `destroy` that has the session and finds this from its first read to its last; nothing
else writes the record. -/
def answers (x : Sight) (a : Destroy.Answers) : Destroy.Answers :=
  Records.alone { a with
    plan := .ok (some x.plan)
    session := .ok true
    transport := none
    result := x.look.result
    absorb := x.absorption
    offVm := x.offVm
    looks := fun _ => x.look
    waitAbsorb := x.absorption }

def HasResult (x : Sight) (result : Json.Fields) : Prop :=
  exists read, x.look.result = .ok read ∧ okRecord read = some result

def Gone (x : Sight) : Prop := exists read, x.look.result = .ok read ∧ read.2 = .sessionLost

def Dead (x : Sight) (record : Json.Fields) : Prop :=
  observeRemote x.look = .ok (.runnerDead record)

def Lost (x : Sight) : Prop := x.Gone ∨ exists record, x.Dead record

/-- The runner has put its result at `control.result`. -/
def Recovers (x : Sight) (result : Json.Fields) : Prop :=
  (exists channel, x.plan.spec.control.result = some channel ∧ channel.getUrl ≠ "") ∧
    readOffVmResult x.offVm = .ok (some result, none)

/-- There is no result at `control.result`. -/
def Unrecovered (x : Sight) : Prop := exists problem, readOffVmResult x.offVm = .ok (none, problem)

inductive Brings (x : Sight) : Json.Fields -> Prop where
  | read {result : Json.Fields} : x.HasResult result -> Brings x result
  | recovered {result : Json.Fields} : x.Lost -> x.Recovers result -> Brings x result

/-- The job has a result, and this is the record with it. -/
def Absorbs (x : Sight) (env absorbed : JobEnvelope) : Prop :=
  exists result, x.Brings result ∧ Absorb.absorbResult env x.plan.spec result x.now = .ok absorbed

def Rejected (x : Sight) (env : JobEnvelope) : Prop :=
  exists result error, x.HasResult result ∧
    Absorb.absorbResult env x.plan.spec result x.now = .error error

/-- The job has no result to absorb. -/
def NoResult (x : Sight) (env : JobEnvelope) : Prop :=
  x.Unrecovered ∧ (x.Lost ∨ x.Rejected env)

end Sight

/-- A run of apply's poll on this record, up to the pass with the sight. -/
structure ApplyRun (x : Sight) (env : JobEnvelope) where
  deadline : Rat
  closing : Apply.Deadline
  earlier : List Apply.Tick
  last : Apply.Tick
  later : List Apply.Tick
  launched : Apply.Proc
  before : Nat × Apply.Proc
  alike : Alike env launched.env
  goesOn : Absence.PollGoesOn x.plan.spec deadline earlier (0, launched) before
  inTime : last.time < deadline

/-- The poll returns, and this is the record that it leaves in hand and on disk. -/
def ApplyRun.Records {x : Sight} {env : JobEnvelope} (r : ApplyRun x env) (last : JobEnvelope) :
    Prop :=
  exists s, Apply.poll x.plan.spec r.deadline r.closing
      (r.earlier ++ x.tick r.last :: r.later) 0 r.launched = (.ok (), s) ∧
    s.env = last ∧ exists written, s.disk = some written ∧ Alike last written

/-- A run of `status --poll` on this record, which nobody supervises. -/
structure StatusRun (x : Sight) (env : JobEnvelope) where
  args : Status.Args
  deadline : Option (Rat × String)
  earlier : List Status.Pass
  last : Status.Pass
  later : List Status.Pass
  staleness : WatchdogStaleness
  orphan : JobEnvelope
  before : WatchdogStaleness × JobEnvelope
  polls : args.poll = true
  alike : Alike env orphan
  goesOn : Absence.StatusGoesOn args deadline earlier (staleness, orphan) before
  inTime : (Status.checkDeadline args deadline last before.2).1 = false
  keepAlive : exists hint, last.keepAlive = .ok hint

/-- The loop returns, with this record to release the VM from. -/
def StatusRun.Leaves {x : Sight} {env : JobEnvelope} (r : StatusRun x env) (last : JobEnvelope) :
    Prop :=
  forall disk log, Status.loop r.args true r.deadline (r.earlier ++ x.pass r.last :: r.later)
    r.staleness { env := r.orphan, disk, log } = (.ok (), { env := last, disk, log })

/-- What this `destroy` puts on disk. -/
def Destroys (x : Sight) (args : Destroy.Args) (a : Destroy.Answers) (env last : JobEnvelope) :
    Prop :=
  .wrote last ∈ (Destroy.destroy args (x.answers a) (Concurrent.desk (some env))).2.log

variable {x : Sight} {env env' : JobEnvelope} {result : Json.Fields}

/-!
## Apply's poll
-/

section Applying

open Apply

variable {spec : JobSpec} {deadline : Rat} {t : Tick} {s s' : Proc}

theorem poll_ends {closing : Deadline} {later : List Tick} {earlier : List Tick}
    {c d : Nat × Proc} (hgoes : Absence.PollGoesOn spec deadline earlier c d)
    (htime : t.time < deadline) (hlast : tick spec t d.1 d.2 = (.ok true, s')) :
    poll spec deadline closing (earlier ++ t :: later) c.1 c.2 = (.ok (), s') := by
  induction hgoes with
  | refl c =>
      rw [List.nil_append, poll, if_pos htime, Prog.bind_run_ok hlast]
      rfl
  | step hbefore hrun _ ih =>
      rw [List.cons_append, poll, if_pos hbefore, Prog.bind_run_ok hrun]
      exact ih hlast

theorem updates_run (fs : List (JobEnvelope -> JobEnvelope)) : forall s : Proc,
    updates (fun _ => none) fs s =
      (.ok (), { s with env := fs.foldl (fun env f => f env) s.env }) := by
  induction fs with
  | nil => exact fun _ => rfl
  | cons f rest ih => exact fun s => ih { s with env := f s.env }

theorem absorbResult_eq (now : String) (s : Proc) :
    absorbResult spec { now } result s =
      (match Absorb.absorbResult s.env spec result now with
        | .error error => return some error
        | .ok env => do
            setPartly none env
            modifyEnv fun _ => env
            arrive none
            return none : Program (Option String)) s := rfl

theorem absorbResult_run {now : String} {absorbed : JobEnvelope}
    (h : Absorb.absorbResult s.env spec result now = .ok absorbed) :
    absorbResult spec { now } result s = (.ok none, { s with env := absorbed }) := by
  rw [absorbResult_eq, h]
  rfl

theorem absorbResult_rejected {now error : String}
    (h : Absorb.absorbResult s.env spec result now = .error error) :
    absorbResult spec { now } result s = (.ok (some error), s) := by
  rw [absorbResult_eq, h]
  rfl

theorem keepAbsorbed_run (now : String) (s : Proc) :
    keepAbsorbed { now } s =
      (.ok (), Absence.wrote { s with env := { s.env with supervisor := .finished } }) :=
  (Prog.bind_run_ok (updates_run _ s)).trans (Absence.persist_run _)

theorem absorbOrKeep_run {now : String} {absorbed : JobEnvelope} (endings : List Finish)
    (h : Absorb.absorbResult s.env spec result now = .ok absorbed) :
    absorbOrKeep spec { now } endings result s =
      (.ok (), Absence.wrote { s with env := { absorbed with supervisor := .finished } }) := by
  unfold absorbOrKeep
  rw [Prog.bind_run_ok (absorbResult_run h)]
  exact keepAbsorbed_run now _

theorem recoverControlResult_run (h : x.Recovers result) (s : Proc) :
    recoverControlResult x.plan.spec x.finish s = (.ok (some result), s) := by
  rcases h with ⟨⟨channel, hchannel, hurl⟩, hread⟩
  unfold readOffVmResult Sight.offVm at hread
  simp only [Option.bind_some, hchannel] at hread
  unfold recoverControlResult
  rw [hchannel, Option.filter_some_pos (by simpa using hurl)]
  cases hfetch : x.fetch with
  | error text =>
      rw [hfetch] at hread
      cases hread
  | ok found =>
      simp only [hfetch] at hread
      simp only [Sight.finish, hfetch]
      cases hterminal : isTerminalValue (found.get "workload") with
      | error text =>
          simp only [hterminal] at hread
          cases hread
      | ok terminal =>
          cases terminal with
          | true =>
              simp only [hterminal] at hread
              cases hread
              rfl
          | false =>
              simp only [hterminal] at hread
              cases hread

theorem recoverControlResult_none (h : x.Unrecovered) (s : Proc) :
    exists noted, recoverControlResult x.plan.spec x.finish s =
      (.ok none, { s with env := noted }) ∧ OnlyHints s.env noted := by
  rcases h with ⟨problem, hread⟩
  unfold readOffVmResult Sight.offVm at hread
  simp only [Option.bind_some] at hread
  unfold recoverControlResult
  cases hchannel : x.plan.spec.control.result with
  | none => exact ⟨s.env, rfl, OnlyHints.refl _⟩
  | some channel =>
      simp only [hchannel] at hread
      by_cases hurl : channel.getUrl = ""
      · rw [Option.filter_some_neg (by simpa using hurl)]
        exact ⟨s.env, rfl, OnlyHints.refl _⟩
      · rw [Option.filter_some_pos (by simpa using hurl)]
        cases hfetch : x.fetch with
        | error text =>
            simp only [Sight.finish, hfetch]
            exact ⟨_, rfl, addHint_onlyHints _ _⟩
        | ok found =>
            simp only [hfetch] at hread
            simp only [Sight.finish, hfetch]
            cases hterminal : isTerminalValue (found.get "workload") with
            | error text =>
                simp only [hterminal] at hread
                cases hread
            | ok terminal =>
                cases terminal with
                | true =>
                    simp only [hterminal] at hread
                    cases hread
                | false => exact ⟨_, rfl, addHint_onlyHints _ _⟩

theorem finishWithoutResult_recovered {absorbed : JobEnvelope} (rest : List Finish)
    (reason : String) (h : x.Recovers result)
    (habsorb : Absorb.absorbResult s.env x.plan.spec result x.now = .ok absorbed) :
    exists s', finishWithoutResult x.plan.spec (x.finish :: rest) reason s = (.ok (), s') ∧
      Alike absorbed s'.env ∧ exists written, s'.disk = some written ∧ Alike s'.env written := by
  unfold finishWithoutResult
  rw [Prog.bind_run_ok (recoverControlResult_run h s)]
  simp only [Sight.finish_absorb]
  rw [Prog.bind_run_ok (absorbResult_run habsorb)]
  simp only
  rw [Prog.bind_run_ok (keepAbsorbed_run x.now _)]
  exact ⟨_, rfl, ⟨rfl, rfl, rfl, rfl, rfl, rfl, rfl⟩, _, rfl, ⟨rfl, rfl, rfl, rfl, rfl, rfl, rfl⟩⟩

def unknown (spec : JobSpec) (env : JobEnvelope) : JobEnvelope :=
  { env with
    workload := .unknown
    offload :=
      if env.offload.terminal then env.offload
      else if spec.artifacts.isEmpty then .notRequired
      else .skipped
    retryClass := some .retrySame
    failedPhase := env.failedPhase.or (some .run) }

theorem unknown_alike (spec : JobSpec) (h : Alike env env') :
    Alike (unknown spec env) (unknown spec env') := by
  unfold unknown
  rw [h.offload, h.failedPhase]
  exact ⟨h.phase, rfl, rfl, rfl, rfl, h.artifacts, h.leaveUp⟩

theorem finishWithoutResult_unknown (rest : List Finish) (reason : String) (h : x.Unrecovered)
    (s : Proc) :
    exists s', finishWithoutResult x.plan.spec (x.finish :: rest) reason s = (.ok (), s') ∧
      Alike (unknown x.plan.spec s.env) s'.env ∧ s'.disk = some s'.env := by
  rcases recoverControlResult_none h s with ⟨noted, hrecover, hhints⟩
  unfold finishWithoutResult
  rw [Prog.bind_run_ok hrecover]
  simp only [Sight.finish_gaps]
  rw [Prog.bind_run_ok (updates_run _ _)]
  refine ⟨_, Absence.persist_run _, ?_, rfl⟩
  exact (unknown_alike x.plan.spec (Alike.of_onlyHints hhints)).trans
    ⟨rfl, rfl, rfl, rfl, rfl, rfl, rfl⟩

theorem tick_settles {degraded : Nat} {ending : Evidence.Ending} {reads : List Evidence.Read}
    {u : Proc} (hlook : Evidence.look t degraded s = (.ok (reads, .ends ending), u))
    (hsettle : Evidence.settle spec t ending u = (.ok (), s')) :
    tick spec t degraded s = (.ok true, s') := by
  rw [Evidence.tick_eq, Prog.bind_run_ok hlook]
  exact Prog.bind_run_ok hsettle

theorem look_result (h : x.HasResult result) (t : Tick) (degraded : Nat) (s : Proc) :
    exists reads, Evidence.look (x.tick t) degraded s =
      (.ok (reads, .ends (.result result)), s) := by
  rcases h with ⟨read, hread, hrecord⟩
  have hresult : (x.tick t).result = Absence.readHit (.ok read) := congrArg Absence.readHit hread
  unfold Evidence.look
  rw [hresult, Prog.bind_run_ok (Absence.readJson_ok read s), hrecord]
  exact ⟨_, rfl⟩

theorem look_gone (h : x.Gone) (t : Tick) (degraded : Nat) (s : Proc) :
    exists reads, Evidence.look (x.tick t) degraded s = (.ok (reads, .ends .lost), s) := by
  rcases h with ⟨⟨record, status⟩, hread, rfl⟩
  have hresult : (x.tick t).result = Absence.readHit (.ok (record, .sessionLost)) :=
    congrArg Absence.readHit hread
  have hnone : okRecord (record, .sessionLost) = none := by cases record <;> rfl
  unfold Evidence.look
  rw [hresult, Prog.bind_run_ok (Absence.readJson_ok _ s), hnone]
  exact ⟨_, rfl⟩

theorem dead_reads {record : Json.Fields} (h : x.Dead record) :
    exists r w, x.look.result = .ok r ∧ okRecord r = none ∧ r.2 ≠ .sessionLost ∧
      r.2 ≠ .degraded ∧ x.look.watchdog = .ok w ∧ okRecord w = some record ∧
      Json.Fields.get record "runner_alive" = .bool false := by
  unfold Sight.Dead observeRemote at h
  rcases Fallible.bind_ok h with ⟨r, hr, h⟩
  split at h
  · cases h
  · next hlost =>
      split at h
      · cases h
      · next hnone =>
          split at h
          · cases h
          · next hdegraded =>
              rcases Fallible.bind_ok h with ⟨launch, _, h⟩
              split at h
              · cases h
              · split at h
                · cases h
                · split at h
                  · cases h
                  · split at h
                    · cases h
                    · rcases Fallible.bind_ok h with ⟨w, hw, h⟩
                      split at h
                      · cases h
                      · cases hrecord : okRecord w with
                        | none =>
                            rw [hrecord] at h
                            cases h
                        | some fields =>
                            rw [hrecord] at h
                            simp only [watchdogVerdict] at h
                            split at h
                            · next halive =>
                                cases h
                                exact ⟨r, w, hr, hnone, hlost, hdegraded, hw, hrecord, halive⟩
                            · cases h

theorem look_dead {record : Json.Fields} (h : x.Dead record) (t : Tick) (degraded : Nat)
    (s : Proc) :
    exists reads u, Evidence.look (x.tick t) degraded s =
      (.ok (reads, .ends (.dead record)), u) := by
  rcases dead_reads h with ⟨r, w, hr, hnone, hlost, hdegraded, hw, hrecord, halive⟩
  have hresult : (x.tick t).result = Absence.readHit (.ok r) := congrArg Absence.readHit hr
  have hlate : (x.tick t).late = Absence.readHit (.ok r) := congrArg Absence.readHit hr
  have hwatchdog : (x.tick t).watchdog = Absence.readHit (.ok w) := congrArg Absence.readHit hw
  have hgone : forall u, Evidence.goneLook (x.tick t) (.dead record) u =
      (.ok ([.late r], some (.dead record)), u) := by
    intro u
    unfold Evidence.goneLook
    rw [hlate, Prog.bind_run_ok (Absence.readJson_ok r u), hnone]
    rfl
  have hlooked : exists looked u, Evidence.healthyLook (x.tick t) s = (.ok looked, u) ∧
      looked.2 = some (.dead record) := by
    unfold Evidence.healthyLook
    rw [Prog.bind_run_ok (show modifyEnv _ s = (.ok (), Absence.running s) from rfl), hwatchdog,
      Prog.bind_run_ok (Absence.readJson_ok w _), Prog.bind_run_ok (Prog.get_run _), hrecord]
    simp only
    unfold Evidence.watchdogLook
    simp only [halive]
    rw [Prog.bind_run, Prog.bind_run, Prog.get_run]
    simp only
    rw [Prog.bind_run_ok (Prog.modify_run _ _), hgone]
    exact ⟨_, _, rfl, rfl⟩
  rcases hlooked with ⟨looked, u, hrun, hending⟩
  unfold Evidence.look
  rw [hresult, Prog.bind_run_ok (Absence.readJson_ok r s), hnone]
  simp only
  rw [if_neg hlost, if_neg hdegraded, Prog.bind_run_ok hrun, hending]
  exact ⟨_, u, rfl⟩

/-- A pass that finds the runner dead or the assignment gone ends the poll without
result.json. -/
theorem look_lost (h : x.Lost) (t : Tick) (degraded : Nat) (s : Proc) :
    exists reads ending reason u,
      Evidence.look (x.tick t) degraded s = (.ok (reads, .ends ending), u) ∧
      Evidence.settle x.plan.spec (x.tick t) ending u =
        finishWithoutResult x.plan.spec (x.finish :: t.endings) reason u ∧
      Alike s.env u.env := by
  have halike := Alike.look_alike (x.tick t) degraded s (Alike.refl s.env)
  rcases h with hgone | ⟨record, hdead⟩
  · rcases look_gone hgone t degraded s with ⟨reads, hlook⟩
    exact ⟨reads, _, lostAssignmentReason s.env, s, hlook, rfl, Alike.refl _⟩
  · rcases look_dead hdead t degraded s with ⟨reads, u, hlook⟩
    rw [hlook] at halike
    exact ⟨reads, _, deadReason record, u, hlook, rfl, halike⟩

theorem ApplyRun.before_alike (r : ApplyRun x env) : Alike env r.before.2.env :=
  r.alike.trans (Alike.pollGoesOn_alike r.goesOn)

theorem ApplyRun.records (r : ApplyRun x env)
    (h : tick x.plan.spec (x.tick r.last) r.before.1 r.before.2 = (.ok true, s'))
    (hdisk : exists written, s'.disk = some written ∧ Alike s'.env written) :
    r.Records s'.env :=
  ⟨s', poll_ends r.goesOn r.inTime h, rfl, hdisk⟩

theorem ApplyRun.absorbs (r : ApplyRun x env) {absorbed : JobEnvelope}
    (h : x.Absorbs env absorbed) : exists last, r.Records last ∧ Alike absorbed last := by
  rcases h with ⟨result, hbrings, habsorb⟩
  cases hbrings with
  | read hresult =>
      rcases look_result hresult r.last r.before.1 r.before.2 with ⟨reads, hlook⟩
      rcases Alike.absorbResult_alike r.before_alike habsorb x.now with
        ⟨absorbed', habsorb', halike⟩
      have hsettle := absorbOrKeep_run (x.finish :: r.last.endings) habsorb'
      exact ⟨_, r.records (tick_settles hlook hsettle) ⟨_, rfl, Alike.refl _⟩,
        halike.trans ⟨rfl, rfl, rfl, rfl, rfl, rfl, rfl⟩⟩
  | recovered hlost hrecovers =>
      rcases look_lost hlost r.last r.before.1 r.before.2 with
        ⟨reads, ending, reason, u, hlook, hsettle, hseen⟩
      rcases Alike.absorbResult_alike (r.before_alike.trans hseen) habsorb x.now with
        ⟨absorbed', habsorb', halike⟩
      rcases finishWithoutResult_recovered r.last.endings reason hrecovers habsorb' with
        ⟨s', hrun, hsame, hdisk⟩
      exact ⟨_, r.records (tick_settles hlook (hsettle.trans hrun)) hdisk, halike.trans hsame⟩

theorem ApplyRun.gives_up (r : ApplyRun x env) (h : x.NoResult env) :
    exists last, r.Records last ∧ Alike (unknown x.plan.spec env) last := by
  rcases h with ⟨hnothing, hlost | ⟨result, error, hresult, hrejects⟩⟩
  · rcases look_lost hlost r.last r.before.1 r.before.2 with
      ⟨reads, ending, reason, u, hlook, hsettle, hseen⟩
    rcases finishWithoutResult_unknown r.last.endings reason hnothing u with
      ⟨s', hrun, hsame, hdisk⟩
    exact ⟨_, r.records (tick_settles hlook (hsettle.trans hrun)) ⟨_, hdisk, Alike.refl _⟩,
      (unknown_alike x.plan.spec (r.before_alike.trans hseen)).trans hsame⟩
  · rcases look_result hresult r.last r.before.1 r.before.2 with ⟨reads, hlook⟩
    rcases Alike.absorbResult_error_alike r.before_alike hrejects x.now with ⟨error', hrejects'⟩
    rcases finishWithoutResult_unknown r.last.endings (unabsorbedReason error' result) hnothing
      r.before.2 with ⟨s', hrun, hsame, hdisk⟩
    have hsettle : Evidence.settle x.plan.spec (x.tick r.last) (.result result) r.before.2 =
        (.ok (), s') := (Prog.bind_run_ok (absorbResult_rejected hrejects')).trans hrun
    exact ⟨_, r.records (tick_settles hlook hsettle) ⟨_, hdisk, Alike.refl _⟩,
      (unknown_alike x.plan.spec r.before_alike).trans hsame⟩

end Applying

/-!
## What is observed
-/

theorem observe_result (h : x.HasResult result) : observeRemote x.look = .ok (.result result) := by
  rcases h with ⟨read, hread, hrecord⟩
  unfold observeRemote
  rw [hread, Fallible.ok_bind, if_neg (by rw [okRecord_ok hrecord]; decide), hrecord]
  rfl

theorem observe_gone (h : x.Gone) : observeRemote x.look = .ok .sessionLost := by
  rcases h with ⟨read, hread, hlost⟩
  unfold observeRemote
  rw [hread, Fallible.ok_bind, if_pos hlost]
  rfl

theorem observe_lost (h : x.Lost) (env : JobEnvelope) :
    exists observation reason, observeRemote x.look = .ok observation ∧
      Status.endOfRunner true env observation = some reason := by
  rcases h with hgone | ⟨record, hdead⟩
  · exact ⟨_, _, observe_gone hgone, rfl⟩
  · exact ⟨_, _, hdead, rfl⟩

theorem not_lost (h : x.HasResult result) : ¬x.Lost := by
  intro hlost
  rcases observe_lost hlost default with ⟨observation, reason, hobserve, hend⟩
  cases hobserve.symm.trans (observe_result h)
  cases hend

theorem recoverOffVmResult_run {absorbed : JobEnvelope} (h : x.Recovers result)
    (habsorb : Absorb.absorbResult env x.plan.spec result x.now = .ok absorbed) :
    recoverOffVmResult x.offVm env = .ok (true, absorbed) := by
  have hremote : absorbRemoteResult env x.offVm.absorbPlan result x.offVm.now = .ok absorbed :=
    habsorb
  unfold recoverOffVmResult
  rw [h.right]
  simp only [hremote]

theorem recoverOffVmResult_none (h : x.Unrecovered) (env : JobEnvelope) :
    exists noted, recoverOffVmResult x.offVm env = .ok (false, noted) ∧ OnlyHints env noted := by
  rcases h with ⟨problem, hread⟩
  unfold recoverOffVmResult
  rw [hread]
  refine ⟨_, rfl, ?_⟩
  split
  · exact addHint_onlyHints env _
  · exact OnlyHints.refl env

/-!
## The loop of status
-/

section Asking

theorem StatusRun.before_alike (r : StatusRun x env) : Alike env r.before.2 :=
  r.alike.trans (Alike.statusGoesOn_alike r.goesOn)

theorem StatusRun.observes (r : StatusRun x env) : exists noted, Alike env noted ∧
    forall observation turn, observeRemote x.look = .ok observation ->
      Status.decide_ true (x.pass r.last) r.before.1 noted observation = .ok turn ->
      Status.pass r.args true r.deadline (x.pass r.last) r.before.1 r.before.2 = .ok turn := by
  have hhints := Status.checkDeadline_onlyHints r.inTime
  rcases r.keepAlive with ⟨hint, hanswer⟩
  rcases Status.ensureKeepAlive_ok hint
    (Status.checkDeadline r.args r.deadline r.last r.before.2).2 with ⟨noted, hensure⟩
  rw [← hanswer] at hensure
  refine ⟨noted, r.before_alike.trans (Alike.of_onlyHints
    (hhints.trans (Status.ensureKeepAlive_onlyHints hensure))), ?_⟩
  intro observation turn hobserve hdecide
  have hlook : observeRemote (x.pass r.last).look = .ok observation := hobserve
  rw [← hdecide]
  exact Status.pass_run r.inTime hensure hlook

theorem StatusRun.leaves (r : StatusRun x env)
    (h : Status.pass r.args true r.deadline (x.pass r.last) r.before.1 r.before.2 =
      .ok (.break env')) : r.Leaves env' :=
  Absence.loop_breaks r.polls r.later r.goesOn h

theorem StatusRun.absorbs (r : StatusRun x env) {absorbed : JobEnvelope}
    (h : x.Absorbs env absorbed) : exists last, r.Leaves last ∧ Alike absorbed last := by
  rcases r.observes with ⟨noted, halike, hobserves⟩
  rcases h with ⟨result, hbrings, habsorb⟩
  rcases Alike.absorbResult_alike halike habsorb x.now with ⟨absorbed', habsorb', hsame⟩
  cases hbrings with
  | read hresult =>
      have hpayload : Status.absorbPayload true (x.pass r.last).absorb result noted =
          { absorbed' with supervisor := .finished } := by
        have hremote : absorbRemoteResult noted (x.pass r.last).absorb.plan result
            (x.pass r.last).absorb.now = .ok absorbed' := habsorb'
        unfold Status.absorbPayload
        rw [hremote]
        rfl
      refine ⟨_, r.leaves (hobserves _ _ (observe_result hresult) rfl), ?_⟩
      rw [hpayload]
      exact hsame.trans ⟨rfl, rfl, rfl, rfl, rfl, rfl, rfl⟩
  | recovered hlost hrecovers =>
      rcases observe_lost hlost noted with ⟨observation, reason, hobserve, hend⟩
      have hrecover : recoverOffVmResult (x.pass r.last).offVm noted = .ok (true, absorbed') :=
        recoverOffVmResult_run hrecovers habsorb'
      exact ⟨_, r.leaves (hobserves _ _ hobserve (Status.decide_ends hend hrecover)),
        hsame.trans ⟨rfl, rfl, rfl, rfl, rfl, rfl, rfl⟩⟩

structure GivenUp (env last : JobEnvelope) : Prop where
  workload : last.workload = .unknown
  failedPhase : last.failedPhase = env.failedPhase.or (some .run)
  artifacts : last.artifacts = env.artifacts
  leaveUp : last.leaveUp = env.leaveUp
  offload : (Status.orphanVerdict last).offload = (Status.orphanVerdict env).offload

theorem orphanVerdict_offload (env : JobEnvelope) : (Status.orphanVerdict env).offload =
    if env.offload.terminal then env.offload else .skipped := rfl

theorem lostVerdict_givenUp (reason : String) (h : Alike env env') :
    GivenUp env (Status.lostVerdict reason env') where
  workload := rfl
  failedPhase := congrArg (Option.or · (some Phase.run)) h.failedPhase
  artifacts := h.artifacts
  leaveUp := h.leaveUp
  offload := by
    rw [orphanVerdict_offload, orphanVerdict_offload, ← h.offload]
    rfl

theorem unabsorbedVerdict_givenUp (error : String) (result : Json.Fields) (h : Alike env env') :
    GivenUp env (Status.unabsorbedVerdict error result env') where
  workload := rfl
  failedPhase := congrArg (Option.or · (some Phase.run)) h.failedPhase
  artifacts := h.artifacts
  leaveUp := h.leaveUp
  offload := by
    rw [orphanVerdict_offload, orphanVerdict_offload, ← h.offload]
    change (if (if env'.offload.terminal then env'.offload else .skipped : Offload).terminal then
      (if env'.offload.terminal then env'.offload else .skipped) else .skipped) = _
    split
    · rfl
    · split <;> rfl

theorem StatusRun.gives_up (r : StatusRun x env) (h : x.NoResult env) :
    exists last, r.Leaves last ∧ GivenUp env last ∧
      (x.Lost -> last.retryClass = some .retrySame) := by
  rcases r.observes with ⟨noted, halike, hobserves⟩
  rcases h with ⟨hnothing, hlost | ⟨result, error, hresult, hrejects⟩⟩
  · rcases observe_lost hlost noted with ⟨observation, reason, hobserve, hend⟩
    rcases recoverOffVmResult_none hnothing noted with ⟨hinted, hrecover, hhints⟩
    have hsame : recoverOffVmResult (x.pass r.last).offVm noted = .ok (false, hinted) := hrecover
    exact ⟨_, r.leaves (hobserves _ _ hobserve (Status.decide_ends hend hsame)),
      lostVerdict_givenUp reason (halike.trans (Alike.of_onlyHints hhints)), fun _ => rfl⟩
  · rcases Alike.absorbResult_error_alike halike hrejects x.now with ⟨error', hrejects'⟩
    have hpayload : Status.absorbPayload true (x.pass r.last).absorb result noted =
        { Status.unabsorbedVerdict error' result noted with supervisor := .finished } := by
      have hremote : absorbRemoteResult noted (x.pass r.last).absorb.plan result
          (x.pass r.last).absorb.now = .error error' := hrejects'
      unfold Status.absorbPayload
      rw [hremote]
      rfl
    have hgiven := unabsorbedVerdict_givenUp error' result halike
    refine ⟨_, r.leaves (hobserves _ _ (observe_result hresult) rfl), ?_,
      fun hlost => absurd hlost (not_lost hresult)⟩
    rw [hpayload]
    exact ⟨hgiven.workload, hgiven.failedPhase, hgiven.artifacts, hgiven.leaveUp, hgiven.offload⟩

end Asking

end Supervisors
end Job
end MightyColab
