import MightyColab.Job.StatusPass
import MightyColab.Job.Poll

/-!
# A runner that never started

When a supervisor gives up on a runner that it has never seen: apply's poll, which waits
for the launch grace and for the record's confirmed absence, and `status --poll`, which
goes by one observation. Both are given the same passes: the reads of the VM's files,
with their times.
-/

namespace MightyColab
namespace Job

open Lib
open Transport (ReadStatus)

namespace Absence

/-!
## Status
-/

/-- The reason of `status` for a runner that never started. -/
def orphanReason : String := "supervisor is gone and no runner identity was recorded"

/-- The loop of `status --poll` on an orphan goes through these passes. -/
inductive StatusGoesOn (args : Status.Args) (deadline : Option (Rat × String)) :
    List Status.Pass -> WatchdogStaleness × JobEnvelope -> WatchdogStaleness × JobEnvelope ->
      Prop
  | refl (c : WatchdogStaleness × JobEnvelope) : StatusGoesOn args deadline [] c c
  | step {p : Status.Pass} {rest : List Status.Pass}
      {c d : WatchdogStaleness × JobEnvelope} {staleness : WatchdogStaleness}
      {env : JobEnvelope}
      (h : Status.pass args true deadline p c.1 c.2 = .ok (.again staleness env))
      (hrest : StatusGoesOn args deadline rest (staleness, env) d) :
      StatusGoesOn args deadline (p :: rest) c d

/-- This pass settles the job as never started. -/
def StatusGivesUp (args : Status.Args) (deadline : Option (Rat × String))
    (p : Status.Pass) (c : WatchdogStaleness × JobEnvelope) : Prop :=
  (Status.checkDeadline args deadline p c.2).1 = false ∧
    observeRemote p.look = .ok .neverStarted ∧
    exists env, Status.pass args true deadline p c.1 c.2 =
      .ok (.break (Status.lostVerdict orphanReason env))

/-- `status --poll` settles the job as never started in the last of these passes. -/
def StatusSettles (args : Status.Args) (deadline : Option (Rat × String))
    (earlier : List Status.Pass) (last : Status.Pass)
    (c : WatchdogStaleness × JobEnvelope) : Prop :=
  exists d, StatusGoesOn args deadline earlier c d ∧ StatusGivesUp args deadline last d

/-!
## Apply
-/

def readHit (read : JsonRead) : Apply.ReadHit := { read }

def tickOf (launched : Option Rat) (endings : List Apply.Finish) (p : Status.Pass) :
    Apply.Tick where
  time := p.time
  result := readHit p.look.result
  endings := endings
  note := p.note
  watchdog := readHit p.look.watchdog
  clock := p.clock
  sinceLaunch := launched.map fun launched => p.time - launched
  launch := readHit p.look.launch
  absentFrom := p.clock
  absentNow := p.clock
  late := readHit p.look.result

/-- This pass of the poll declares that the runner never started. -/
structure Declares (t : Apply.Tick) (s : Apply.Proc) : Prop where
  result : exists r, t.result.read = .ok r ∧ okRecord r = none ∧ r.2 ≠ .sessionLost ∧
    r.2 ≠ .degraded
  watchdog : exists w, t.watchdog.read = .ok w ∧ okRecord w = none ∧ w.2 = .notFound
  unseen : s.runnerSeen = false
  grace : exists since, (nonempty s.env.startedAt).bind (fun _ => t.sinceLaunch) =
    some since ∧ Apply.launchRecordGraceSeconds < since
  launch : exists l, t.launch.read = .ok l ∧ l.2 = .notFound
  confirmed : exists absent, s.launchAbsentSince.or (some t.absentFrom) = some absent ∧
    Apply.launchAbsenceConfirmSeconds ≤ t.absentNow - absent
  late : exists r, t.late.read = .ok r ∧ okRecord r = none

def degradedAfter (t : Apply.Tick) (degraded : Nat) : Nat :=
  match t.result.read with
  | .ok (_, .degraded) => degraded + 1
  | _ => 0

/-- The poll goes through these passes; the numbers count the degraded reads. -/
inductive PollGoesOn (spec : JobSpec) (deadline : Rat) :
    List Apply.Tick -> Nat × Apply.Proc -> Nat × Apply.Proc -> Prop
  | refl (c : Nat × Apply.Proc) : PollGoesOn spec deadline [] c c
  | step {t : Apply.Tick} {rest : List Apply.Tick} {c d : Nat × Apply.Proc}
      {s : Apply.Proc} (htime : t.time < deadline)
      (h : Apply.tick spec t c.1 c.2 = (.ok false, s))
      (hrest : PollGoesOn spec deadline rest (degradedAfter t c.1, s) d) :
      PollGoesOn spec deadline (t :: rest) c d

/-- The poll settles the job as never started in one of these passes. -/
def PollSettles (spec : JobSpec) (deadline : Rat) (ticks : List Apply.Tick)
    (s : Apply.Proc) : Prop :=
  exists earlier t later d, ticks = earlier ++ t :: later ∧
    PollGoesOn spec deadline earlier (0, s) d ∧ t.time < deadline ∧ Declares t d.2

/-!
## What settles the job
-/

theorem loop_breaks {args : Status.Args} {until_ : Option (Rat × String)}
    {earlier : List Status.Pass} {last : Status.Pass} {c d : WatchdogStaleness × JobEnvelope}
    {env : JobEnvelope} (hpoll : args.poll = true) (later : List Status.Pass)
    (hgoes : StatusGoesOn args until_ earlier c d)
    (hlast : Status.pass args true until_ last d.1 d.2 = .ok (.break env))
    (disk : Option JobEnvelope) (log : List Deed) :
    Status.loop args true until_ (earlier ++ last :: later) c.1 { env := c.2, disk, log } =
      (.ok (), { env, disk, log }) := by
  induction hgoes with
  | refl c =>
      rw [List.nil_append, Status.loop, Prog.bind_run_ok (Prog.get_run _)]
      simp only [hlast, Command.lift_ok]
      rfl
  | step hpass _ ih =>
      rw [List.cons_append, Status.loop, Prog.bind_run_ok (Prog.get_run _)]
      simp only [hpass, Command.lift_ok, hpoll, if_true]
      exact ih hlast

/-!
## What a pass of apply remembers
-/

variable {spec : JobSpec} {launched : Option Rat} {endings : List Apply.Finish}
  {p : Status.Pass} {s s' : Apply.Proc} {degraded : Nat}

theorem readJson_ok (x : Option Json.Fields × ReadStatus) (s : Apply.Proc) :
    Apply.readJson (readHit (.ok x)) s = (.ok x, s) := rfl

theorem persist_run (s : Apply.Proc) :
    Apply.persist {} s =
      (.ok (), { s with disk := some s.env, log := .wrote s.env :: s.log }) := by
  have hwrite : Apply.writeEnvelope {} s =
      (.ok (), { s with disk := some s.env, log := .wrote s.env :: s.log }) := by
    simp [Apply.writeEnvelope, Write.perform, Write.lands]
  exact (Prog.bind_run_ok (Prog.pure_run () s)).trans (Prog.bind_run_ok hwrite)

def SameMemory (s s' : Apply.Proc) : Prop :=
  s'.runnerSeen = s.runnerSeen ∧ s'.launchAbsentSince = s.launchAbsentSince ∧
    s'.env.startedAt = s.env.startedAt

/-- The time since a launch that is longer ago than the grace. -/
def PastGrace (started : Option String) (launched : Option Rat) (p : Status.Pass) : Prop :=
  exists since, (nonempty started).bind
      (fun _ => launched.map fun launched => p.time - launched) = some since ∧
    Apply.launchRecordGraceSeconds < since

/-- The reads of a pass in which apply sees no sign of the runner and that do not end its
poll. -/
def NoSign (started : Option String) (launched : Option Rat) (p : Status.Pass) : Prop :=
  exists r, p.look.result = .ok r ∧ (r.2 = .degraded ∨
    exists w, p.look.watchdog = .ok w ∧ okRecord w = none ∧
      (w.2 = .notFound -> PastGrace started launched p ->
        exists l, p.look.launch = .ok l ∧ l.2 ≠ .ok))

/-- The reads of a pass that decides nothing: result.json is not there, and launch.json,
if it comes to that, is not known to be absent. -/
def DecidesNothing (p : Status.Pass) : Prop :=
  exists r, p.look.result = .ok r ∧ okRecord r = none ∧ r.2 ≠ .sessionLost ∧
    (r.2 = .degraded ∨ exists l, p.look.launch = .ok l ∧ l.2 ≠ .notFound)

def SeenIfGoesOn (o : Outcome Apply.Raise Bool) (s : Apply.Proc) : Prop :=
  o = .ok false -> s.runnerSeen = true

theorem watchdogRead_seen (t : Apply.Tick) (record : Json.Fields) :
    Prog.Triple (fun _ => True) (Apply.watchdogRead spec t record) SeenIfGoesOn := by
  refine Prog.Triple.get_bind fun s _ => ?_
  rcases hobserve : s.staleness.observe t.clock record with ⟨stalled, staleness⟩
  simp only
  refine Prog.Triple.bind (M := fun _ u => u.runnerSeen = true)
    (Prog.Triple.modify fun _ _ => rfl) fun _ => ?_
  split
  · refine Prog.Triple.bind (M := fun _ _ => True) (fun u _ => ?_) fun _ =>
      Prog.Triple.pure fun _ _ h => by cases h
    rcases Apply.runnerGone spec t (Apply.deadReason record) u with ⟨o, u'⟩
    cases o with
    | ok _ => trivial
    | raised e => intro h; cases h
    | ended => intro h; cases h
  · exact Prog.Triple.pure fun _ hu _ => hu

theorem launchRead_cases {l : Option Json.Fields × ReadStatus}
    (hl : p.look.launch = .ok l) (hpresent : l.2 ≠ .notFound) :
    exists s', Apply.launchRead spec (tickOf launched endings p) s = (.ok false, s') ∧
      ((PastGrace s.env.startedAt launched p ∧ l.2 = .ok ∧ s'.runnerSeen = true) ∨
        ((PastGrace s.env.startedAt launched p -> l.2 ≠ .ok) ∧ SameMemory s s')) := by
  have hread : (tickOf launched endings p).launch = readHit (.ok l) := by
    simp [tickOf, hl]
  unfold Apply.launchRead
  rw [Prog.bind_run_ok (Prog.get_run s)]
  cases hsince : (nonempty s.env.startedAt).bind
      fun _ => (tickOf launched endings p).sinceLaunch with
  | none =>
      refine ⟨s, by simp, Or.inr ⟨?_, rfl, rfl, rfl⟩⟩
      rintro ⟨since, heq, _⟩
      exact absurd (hsince.symm.trans heq) (by simp)
  | some since =>
      by_cases hgrace : since ≤ Apply.launchRecordGraceSeconds
      · refine ⟨s, by simp [hgrace], Or.inr ⟨?_, rfl, rfl, rfl⟩⟩
        rintro ⟨since', heq, hlong⟩
        cases hsince.symm.trans heq
        exact absurd hgrace (Rat.not_le.mpr hlong)
      · simp only [hgrace, if_false]
        rw [hread, Prog.bind_run_ok (readJson_ok l s)]
        rcases l with ⟨record, status⟩
        cases status with
        | ok =>
            exact ⟨_, rfl, Or.inl ⟨⟨since, hsince, Rat.not_le.mp hgrace⟩, rfl, rfl⟩⟩
        | notFound => exact absurd rfl hpresent
        | degraded =>
            exact ⟨_, rfl, Or.inr ⟨fun _ => (fun h => by cases h), rfl, rfl, rfl⟩⟩
        | sessionLost =>
            exact ⟨_, rfl, Or.inr ⟨fun _ => (fun h => by cases h), rfl, rfl, rfl⟩⟩

theorem passEnd_run (u : Apply.Proc) :
    (do
      Apply.persist {}
      Apply.arrive none
      return false : Apply.Program Bool) u =
        (.ok false, { u with disk := some u.env, log := .wrote u.env :: u.log }) :=
  Prog.bind_run_ok (persist_run u)

theorem tick_degraded {r : Option Json.Fields × ReadStatus} (hr : p.look.result = .ok r)
    (hnone : okRecord r = none) (hdegraded : r.2 = .degraded) :
    exists s', Apply.tick spec (tickOf launched endings p) degraded s = (.ok false, s') ∧
      SameMemory s s' := by
  have hread : (tickOf launched endings p).result = readHit (.ok r) := by
    simp [tickOf, hr]
  have hlost : r.2 ≠ .sessionLost := by simp [hdegraded]
  unfold Apply.tick
  rw [hread, Prog.bind_run_ok (readJson_ok r s), hnone]
  simp only
  rw [if_neg hlost, if_pos hdegraded]
  exact ⟨_, passEnd_run _, rfl, rfl, rfl⟩

theorem tick_healthy {r : Option Json.Fields × ReadStatus} (hr : p.look.result = .ok r)
    (hnone : okRecord r = none) (hlost : r.2 ≠ .sessionLost) (hdegraded : r.2 ≠ .degraded) :
    Apply.tick spec (tickOf launched endings p) degraded s =
      (Apply.healthy spec (tickOf launched endings p) >>= fun ended =>
        if ended then pure true else do
          Apply.persist {}
          Apply.arrive none
          return false : Apply.Program Bool) s := by
  have hread : (tickOf launched endings p).result = readHit (.ok r) := by
    simp [tickOf, hr]
  unfold Apply.tick
  rw [hread, Prog.bind_run_ok (readJson_ok r s), hnone]
  simp only
  rw [if_neg hlost, if_neg hdegraded]
  rfl

def judged (spec : JobSpec) (t : Apply.Tick) (w : Option Json.Fields × ReadStatus)
    (seen : Bool) : Apply.Program Bool :=
  match okRecord w with
  | some record => Apply.watchdogRead spec t record
  | none => if w.2 = .notFound ∧ seen = false then Apply.launchRead spec t else pure false

def running (s : Apply.Proc) : Apply.Proc :=
  { s with env := { s.env with supervisor := .running, reason := none } }

def wrote (s : Apply.Proc) : Apply.Proc :=
  { s with disk := some s.env, log := .wrote s.env :: s.log }

theorem healthy_run {w : Option Json.Fields × ReadStatus} (hw : p.look.watchdog = .ok w) :
    Apply.healthy spec (tickOf launched endings p) s =
      (judged spec (tickOf launched endings p) w s.runnerSeen >>= fun ended =>
        if ended then pure true else do
          Apply.arrive none
          return false : Apply.Program Bool) (running s) := by
  have hread : (tickOf launched endings p).watchdog = readHit (.ok w) := by
    simp [tickOf, hw]
  unfold Apply.healthy
  rw [hread]
  rfl

theorem tick_judged {r w : Option Json.Fields × ReadStatus} (hr : p.look.result = .ok r)
    (hnone : okRecord r = none) (hlost : r.2 ≠ .sessionLost) (hdegraded : r.2 ≠ .degraded)
    (hw : p.look.watchdog = .ok w) :
    Apply.tick spec (tickOf launched endings p) degraded s = (.ok false, s') <->
      exists u, judged spec (tickOf launched endings p) w s.runnerSeen (running s) =
        (.ok false, u) ∧ s' = wrote u := by
  rw [tick_healthy hr hnone hlost hdegraded, Prog.bind_run, healthy_run hw, Prog.bind_run]
  rcases hrun : judged spec (tickOf launched endings p) w s.runnerSeen (running s) with ⟨o, u⟩
  cases o with
  | raised e => simp
  | ended => simp
  | ok ended =>
      cases ended with
      | true => simp
      | false =>
          constructor
          · intro h
            have hend := (passEnd_run u).symm.trans h
            exact ⟨u, rfl, (Prod.mk.inj hend).right.symm⟩
          · rintro ⟨u', hu', rfl⟩
            cases hu'
            exact passEnd_run u

theorem tick_cases (h : DecidesNothing p)
    (hrun : Apply.tick spec (tickOf launched endings p) degraded s = (.ok false, s')) :
    s'.runnerSeen = true ∨ (NoSign s.env.startedAt launched p ∧ SameMemory s s') := by
  rcases h with ⟨r, hr, hnone, hlost, hrest⟩
  by_cases hdegraded : r.2 = .degraded
  · rcases @tick_degraded spec launched endings p s degraded r hr hnone hdegraded with
      ⟨u, hu, hsame⟩
    rw [hu] at hrun
    cases hrun
    exact Or.inr ⟨⟨r, hr, Or.inl hdegraded⟩, hsame⟩
  · cases hw : p.look.watchdog with
    | error text =>
        have hread : (tickOf launched endings p).watchdog = readHit (.error text) := by
          simp [tickOf, hw]
        have hraised : Apply.healthy spec (tickOf launched endings p) s =
            (.raised (.exception text), running s) := by
          unfold Apply.healthy
          rw [hread]
          rfl
        rw [tick_healthy hr hnone hlost hdegraded, Prog.bind_run_raised hraised] at hrun
        cases hrun
    | ok w =>
        rcases (tick_judged hr hnone hlost hdegraded hw).mp hrun with ⟨u, hjudged, rfl⟩
        rcases hrest with hdegraded' | ⟨l, hl, hpresent⟩
        · exact absurd hdegraded' hdegraded
        · unfold judged at hjudged
          cases hrecord : okRecord w with
          | some record =>
              have hseen := @watchdogRead_seen spec (tickOf launched endings p) record
                (running s) trivial
              simp only [hrecord] at hjudged
              rw [hjudged] at hseen
              exact Or.inl (hseen rfl)
          | none =>
              simp only [hrecord] at hjudged
              by_cases hasks : w.2 = .notFound ∧ s.runnerSeen = false
              · rw [if_pos hasks] at hjudged
                rcases @launchRead_cases spec launched endings p (running s) l hl hpresent
                  with ⟨u', hu', hcases⟩
                rw [hu'] at hjudged
                cases hjudged
                rcases hcases with ⟨_, _, hseen⟩ | ⟨hquiet, hsame⟩
                · exact Or.inl hseen
                · exact Or.inr ⟨⟨r, hr, Or.inr ⟨w, hw, hrecord, fun _ hgrace =>
                    ⟨l, hl, hquiet hgrace⟩⟩⟩, hsame⟩
              · rw [if_neg hasks] at hjudged
                cases hjudged
                by_cases hseen : s.runnerSeen = true
                · exact Or.inl hseen
                · refine Or.inr ⟨⟨r, hr, Or.inr ⟨w, hw, hrecord, fun hnotFound _ => ?_⟩⟩,
                    rfl, rfl, rfl⟩
                  exact absurd ⟨hnotFound, by simpa using hseen⟩ hasks

theorem tick_goesOn (h : DecidesNothing p) (hsign : NoSign s.env.startedAt launched p) :
    exists s', Apply.tick spec (tickOf launched endings p) degraded s = (.ok false, s') ∧
      SameMemory s s' := by
  rcases h with ⟨r, hr, hnone, hlost, hrest⟩
  rcases hsign with ⟨r', hr', hsign⟩
  cases hr.symm.trans hr'
  by_cases hdegraded : r.2 = .degraded
  · exact tick_degraded hr hnone hdegraded
  · rcases hsign with hdegraded' | ⟨w, hw, hrecord, hlaunch⟩
    · exact absurd hdegraded' hdegraded
    · rcases hrest with hdegraded' | ⟨l, hl, hpresent⟩
      · exact absurd hdegraded' hdegraded
      · have hjudged : exists u, judged spec (tickOf launched endings p) w s.runnerSeen
            (running s) = (.ok false, u) ∧ SameMemory s u := by
          unfold judged
          simp only [hrecord]
          by_cases hasks : w.2 = .notFound ∧ s.runnerSeen = false
          · rw [if_pos hasks]
            rcases @launchRead_cases spec launched endings p (running s) l hl hpresent
              with ⟨u, hu, hcases⟩
            rcases hcases with ⟨hgrace, hok, _⟩ | ⟨_, hsame⟩
            · rcases hlaunch hasks.left hgrace with ⟨l', hl', hnotOk⟩
              cases hl.symm.trans hl'
              exact absurd hok hnotOk
            · exact ⟨u, hu, hsame⟩
          · rw [if_neg hasks]
            exact ⟨running s, rfl, rfl, rfl, rfl⟩
        rcases hjudged with ⟨u, hu, hsame⟩
        exact ⟨wrote u, (tick_judged hr hnone hlost hdegraded hw).mpr ⟨u, hu, rfl⟩, hsame⟩

/-!
## The passes of a run
-/

theorem SameMemory.trans {s s' s'' : Apply.Proc} (h : SameMemory s s')
    (h' : SameMemory s' s'') : SameMemory s s'' :=
  ⟨h'.1.trans h.1, h'.2.1.trans h.2.1, h'.2.2.trans h.2.2⟩

variable {deadline : Rat} {passes : List Status.Pass}

/-- What apply remembers after passes that decide nothing: it has seen the runner, or
there was no sign of it and it remembers what it did before them. -/
theorem goesOn_memory {c d : Nat × Apply.Proc} :
    forall passes : List Status.Pass, (forall q, q ∈ passes -> DecidesNothing q) ->
      PollGoesOn spec deadline (passes.map (tickOf launched endings)) c d ->
      d.2.runnerSeen = true ∨ (SameMemory c.2 d.2 ∧
        forall q, q ∈ passes -> q.time < deadline ∧ NoSign c.2.env.startedAt launched q) := by
  intro passes
  induction passes generalizing c with
  | nil =>
      intro _ hgoes
      cases hgoes
      exact Or.inr ⟨⟨rfl, rfl, rfl⟩, fun q hq => False.elim (List.not_mem_nil hq)⟩
  | cons q rest ih =>
      intro hall hgoes
      have hrest : forall q', q' ∈ rest -> DecidesNothing q' :=
        fun q' hq' => hall q' (List.mem_cons_of_mem q hq')
      cases hgoes with
      | step htime hrun hgoes =>
          rcases tick_cases (hall q List.mem_cons_self) hrun with hseen | ⟨hsign, hsame⟩
          · rcases ih hrest hgoes with hseen' | ⟨hsame', _⟩
            · exact Or.inl hseen'
            · exact Or.inl (hsame'.1.trans hseen)
          · rcases ih hrest hgoes with hseen' | ⟨hsame', hrestSign⟩
            · exact Or.inl hseen'
            · refine Or.inr ⟨hsame.trans hsame', fun q' hq' => ?_⟩
              rcases List.mem_cons.mp hq' with rfl | hq'
              · exact ⟨htime, hsign⟩
              · have hlater := hrestSign q' hq'
                rw [hsame.2.2] at hlater
                exact hlater

/-- Passes without a sign of the runner, before the deadline, leave the poll going. -/
theorem memory_goesOn :
    forall (passes : List Status.Pass) (c : Nat × Apply.Proc),
      (forall q, q ∈ passes -> DecidesNothing q ∧ q.time < deadline ∧
        NoSign c.2.env.startedAt launched q) ->
      exists d, PollGoesOn spec deadline (passes.map (tickOf launched endings)) c d ∧
        SameMemory c.2 d.2 := by
  intro passes
  induction passes with
  | nil => exact fun c _ => ⟨c, .refl c, rfl, rfl, rfl⟩
  | cons q rest ih =>
      intro c hall
      rcases hall q List.mem_cons_self with ⟨hdecides, htime, hsign⟩
      rcases @tick_goesOn spec launched endings q c.2 c.1 hdecides hsign
        with ⟨s', hrun, hsame⟩
      have hrest : forall q', q' ∈ rest -> DecidesNothing q' ∧ q'.time < deadline ∧
          NoSign s'.env.startedAt launched q' := by
        intro q' hq'
        rw [hsame.2.2]
        exact hall q' (List.mem_cons_of_mem q hq')
      rcases ih (degradedAfter (tickOf launched endings q) c.1, s') hrest with
        ⟨d, hgoes, hsame'⟩
      exact ⟨d, .step htime hrun hgoes, hsame.trans hsame'⟩

/-!
## What the passes of status say
-/

theorem observe_reads {look : Look} {observation : Observation}
    (h : observeRemote look = .ok observation)
    (hresult : forall fields, observation ≠ .result fields)
    (hlost : observation ≠ .sessionLost) :
    exists r, look.result = .ok r ∧ okRecord r = none ∧ r.2 ≠ .sessionLost ∧
      ((r.2 = .degraded ∧ observation = .degraded) ∨
        (r.2 ≠ .degraded ∧ exists l, look.launch = .ok l ∧
          (l.2 = .notFound -> observation = .neverStarted))) := by
  unfold observeRemote at h
  rcases Fallible.bind_ok h with ⟨r, hr, h⟩
  by_cases hlost' : r.2 = .sessionLost
  · rw [if_pos hlost'] at h
    cases h
    exact absurd rfl hlost
  · rw [if_neg hlost'] at h
    cases hrecord : okRecord r with
    | some fields =>
        simp only [hrecord] at h
        cases h
        exact absurd rfl (hresult fields)
    | none =>
        simp only [hrecord] at h
        by_cases hdegraded : r.2 = .degraded
        · rw [if_pos hdegraded] at h
          cases h
          exact ⟨r, hr, hrecord, hlost', Or.inl ⟨hdegraded, rfl⟩⟩
        · rw [if_neg hdegraded] at h
          rcases Fallible.bind_ok h with ⟨l, hl, h⟩
          refine ⟨r, hr, hrecord, hlost', Or.inr ⟨hdegraded, l, hl, fun habsent => ?_⟩⟩
          have hnone : okRecord l = none := by
            rcases l with ⟨record, status⟩
            cases habsent
            cases record <;> rfl
          rw [if_neg (by simp [habsent]), if_neg (by simp [habsent])] at h
          simp only [hnone] at h
          cases h
          rfl

theorem again_decidesNothing {args : Status.Args} {until_ : Option (Rat × String)}
    {c : WatchdogStaleness × JobEnvelope} {staleness : WatchdogStaleness}
    {env : JobEnvelope}
    (h : Status.pass args true until_ p c.1 c.2 = .ok (.again staleness env)) :
    DecidesNothing p := by
  rcases Status.pass_again h with ⟨hinted, observation, _, hobserve, hresult, hend, _⟩
  have hlost : observation ≠ .sessionLost := by
    rintro rfl
    cases hend
  have hstarted : observation ≠ .neverStarted := by
    rintro rfl
    cases hend
  rcases observe_reads hobserve hresult hlost with ⟨r, hr, hnone, hlost', hrest⟩
  refine ⟨r, hr, hnone, hlost', ?_⟩
  rcases hrest with ⟨hdegraded, _⟩ | ⟨_, l, hl, habsent⟩
  · exact Or.inl hdegraded
  · exact Or.inr ⟨l, hl, fun h => hstarted (habsent h)⟩

theorem goesOn_decidesNothing {args : Status.Args} {until_ : Option (Rat × String)}
    {c d : WatchdogStaleness × JobEnvelope} (h : StatusGoesOn args until_ passes c d) :
    forall q, q ∈ passes -> DecidesNothing q := by
  induction h with
  | refl c => exact fun q hq => False.elim (List.not_mem_nil hq)
  | step h _ ih =>
      intro q hq
      rcases List.mem_cons.mp hq with rfl | hq
      · exact again_decidesNothing h
      · exact ih q hq

theorem neverStarted_reads (h : observeRemote p.look = .ok .neverStarted) :
    exists r l, p.look.result = .ok r ∧ okRecord r = none ∧ r.2 ≠ .sessionLost ∧
      r.2 ≠ .degraded ∧ p.look.launch = .ok l := by
  rcases observe_reads h (fun _ heq => by cases heq) (fun heq => by cases heq) with
    ⟨r, hr, hnone, hlost, ⟨_, hdegraded⟩ | ⟨hhealthy, l, hl, _⟩⟩
  · cases hdegraded
  · exact ⟨r, l, hr, hnone, hlost, hhealthy, hl⟩

/-!
## The two supervisors
-/

/-- What apply goes by at its last pass: the launch is longer ago than the grace, neither
record is there, nothing has shown the runner, and an earlier pass has seen the record
absent long enough ago. -/
structure Begun (s : Apply.Proc) (launched : Option Rat) (last : Status.Pass) : Prop where
  unseen : s.runnerSeen = false
  grace : PastGrace s.env.startedAt launched last
  watchdog : exists w, last.look.watchdog = .ok w ∧ w.2 = .notFound
  launch : exists l, last.look.launch = .ok l ∧ l.2 = .notFound
  absent : exists absent, s.launchAbsentSince = some absent ∧
    Apply.launchAbsenceConfirmSeconds ≤ last.clock - absent

theorem begun_of_same {last : Status.Pass} (hsame : SameMemory s s')
    (h : Begun s' launched last) : Begun s launched last where
  unseen := hsame.1.symm.trans h.unseen
  grace := by
    have hgrace := h.grace
    rw [hsame.2.2] at hgrace
    exact hgrace
  watchdog := h.watchdog
  launch := h.launch
  absent := by
    have habsent := h.absent
    rw [hsame.2.1] at habsent
    exact habsent

theorem SameMemory.symm (h : SameMemory s s') : SameMemory s' s :=
  ⟨h.1.symm, h.2.1.symm, h.2.2.symm⟩

theorem okRecord_notFound {x : Option Json.Fields × ReadStatus} (h : x.2 = .notFound) :
    okRecord x = none := by
  rcases x with ⟨record, status⟩
  cases h
  cases record <;> rfl

theorem declares_iff {r : Option Json.Fields × ReadStatus} (hr : p.look.result = .ok r)
    (hnone : okRecord r = none) (hlost : r.2 ≠ .sessionLost) (hhealthy : r.2 ≠ .degraded) :
    Declares (tickOf launched endings p) s <-> Begun s launched p := by
  constructor
  · intro h
    rcases h.watchdog with ⟨w, hw, _, hnotFound⟩
    rcases h.confirmed with ⟨absent, hor, hlong⟩
    refine ⟨h.unseen, h.grace, ⟨w, hw, hnotFound⟩, h.launch, ?_⟩
    cases hsince : s.launchAbsentSince with
    | some since =>
        rw [hsince] at hor
        cases hor
        exact ⟨absent, rfl, hlong⟩
    | none =>
        rw [hsince] at hor
        cases hor
        have hzero : (tickOf launched endings p).absentNow -
            (tickOf launched endings p).absentFrom = 0 := sub_self p.clock
        rw [hzero] at hlong
        exact absurd hlong (by decide)
  · intro h
    rcases h.watchdog with ⟨w, hw, hnotFound⟩
    rcases h.absent with ⟨absent, hsince, hlong⟩
    exact {
      result := ⟨r, hr, hnone, hlost, hhealthy⟩
      watchdog := ⟨w, hw, okRecord_notFound hnotFound, hnotFound⟩
      unseen := h.unseen
      grace := h.grace
      launch := h.launch
      confirmed := ⟨absent, by rw [hsince]; rfl, hlong⟩
      late := ⟨r, hr, hnone⟩ }

theorem decidesNothing_silent (h : DecidesNothing p) :
    ¬Declares (tickOf launched endings p) s := by
  intro hdeclares
  rcases h with ⟨r, hr, _, _, hrest⟩
  rcases hdeclares.result with ⟨r', hr', _, _, hhealthy⟩
  cases hr.symm.trans hr'
  rcases hrest with hdegraded | ⟨l, hl, hpresent⟩
  · exact hhealthy hdegraded
  · rcases hdeclares.launch with ⟨l', hl', habsent⟩
    cases hl.symm.trans hl'
    exact hpresent habsent

/-- The confirmation had begun when the supervisor handed off: nothing since has shown the
runner, and the last pass comes before the deadline and long enough after apply's own
read. -/
structure Confirmed (s : Apply.Proc) (launched : Option Rat) (deadline : Rat)
    (earlier : List Status.Pass) (last : Status.Pass) : Prop where
  earlier : forall q, q ∈ earlier -> q.time < deadline ∧ NoSign s.env.startedAt launched q
  time : last.time < deadline
  begun : Begun s launched last

theorem pollSettles_iff {r : Option Json.Fields × ReadStatus} {last : Status.Pass}
    (hdecides : forall q, q ∈ passes -> DecidesNothing q) (hr : last.look.result = .ok r)
    (hnone : okRecord r = none) (hlost : r.2 ≠ .sessionLost) (hhealthy : r.2 ≠ .degraded) :
    PollSettles spec deadline ((passes ++ [last]).map (tickOf launched endings)) s <->
      Confirmed s launched deadline passes last := by
  constructor
  · rintro ⟨before, t, later, d, hticks, hgoes, htime, hdeclares⟩
    rw [List.map_append] at hticks
    have hlast : before = passes.map (tickOf launched endings) ∧
        t = tickOf launched endings last := by
      rcases List.append_eq_append_iff.mp hticks with
        ⟨extra, hbefore, hrest⟩ | ⟨extra, hbefore, hrest⟩
      · cases extra with
        | nil =>
            cases hrest
            exact ⟨by simpa using hbefore, rfl⟩
        | cons x extra =>
            have hlength := congrArg List.length hrest
            simp at hlength
      · cases extra with
        | nil =>
            cases hrest
            exact ⟨by simpa using hbefore.symm, rfl⟩
        | cons x extra =>
            cases hrest
            have hmem : t ∈ passes.map (tickOf launched endings) := by simp [hbefore]
            rcases List.mem_map.mp hmem with ⟨q, hq, rfl⟩
            exact absurd hdeclares (decidesNothing_silent (hdecides q hq))
    rcases hlast with ⟨rfl, rfl⟩
    have hbegun := (declares_iff hr hnone hlost hhealthy).mp hdeclares
    rcases goesOn_memory passes hdecides hgoes with hseen | ⟨hsame, hearlier⟩
    · rw [hbegun.unseen] at hseen
      cases hseen
    · exact ⟨hearlier, htime, begun_of_same hsame hbegun⟩
  · intro hconfirmed
    have hquiet : forall q, q ∈ passes -> DecidesNothing q ∧ q.time < deadline ∧
        NoSign s.env.startedAt launched q :=
      fun q hq => ⟨hdecides q hq, hconfirmed.earlier q hq⟩
    rcases @memory_goesOn spec launched endings deadline passes (0, s) hquiet
      with ⟨d, hpoll, hsame⟩
    exact ⟨passes.map (tickOf launched endings), tickOf launched endings last, [], d,
      by simp, hpoll, hconfirmed.time,
      (declares_iff hr hnone hlost hhealthy).mpr (begun_of_same hsame.symm hconfirmed.begun)⟩

/-- For status and for apply, fed the same reads from what it remembers at the hand-off:
status settles the job as never started only where apply does too, exactly when it does
not settle it or apply's own reads had begun the confirmation. -/
theorem status_waits_iff (spec : JobSpec) (args : Status.Args)
    (until_ : Option (Rat × String)) (c : WatchdogStaleness × JobEnvelope)
    (earlier : List Status.Pass) (last : Status.Pass) (launched : Option Rat)
    (endings : List Apply.Finish) (deadline : Rat) (s : Apply.Proc) :
    (StatusSettles args until_ earlier last c ->
        PollSettles spec deadline ((earlier ++ [last]).map (tickOf launched endings)) s) <->
      (StatusSettles args until_ earlier last c ->
        Confirmed s launched deadline earlier last) := by
  refine imp_congr_right fun hsettles => ?_
  rcases hsettles with ⟨d, hgoes, _, hobserve, _⟩
  rcases neverStarted_reads hobserve with ⟨r, _, hr, hnone, hlost, hhealthy, _⟩
  exact pollSettles_iff (goesOn_decidesNothing hgoes) hr hnone hlost hhealthy

/-- One read of a job just launched finds no file of the runner yet. -/
def tooEarly : Status.Pass where
  time := 5
  clock := 5
  cancel := ⟨.ok .ok, fun _ => ⟨.error "", .error "", .error ""⟩, ⟨.ok none, ""⟩, ""⟩
  keepAlive := .ok none
  look := ⟨.ok (none, .notFound), .ok (none, .notFound), .ok (none, .notFound)⟩
  absorb := ⟨.ok none, ""⟩
  offVm := ⟨.ok none, .error "", .ok none, ""⟩
  note := {}

/-- Status settles it there, and apply does not. -/
theorem status_gives_up_early :
    StatusSettles ⟨"j", true⟩ none [] tooEarly ({}, { jobId := "j" }) ∧
      ¬PollSettles { name := "n", code := { entry := "main.py" } } 1000
        (([] ++ [tooEarly]).map (tickOf (some 0) []))
        { env := { jobId := "j", startedAt := some "1970-01-01T00:00:00+00:00" }
          disk := none } := by
  constructor
  · exact ⟨_, .refl _, rfl, rfl, { jobId := "j" }, rfl⟩
  · intro hsettles
    have hconfirmed := (pollSettles_iff (r := (none, .notFound)) (fun q hq =>
      False.elim (List.not_mem_nil hq)) rfl rfl (by decide) (by decide)).mp hsettles
    rcases hconfirmed.begun.absent with ⟨absent, hnone, _⟩
    cases hnone

end Absence
end Job
end MightyColab
