import MightyColab.Job.WallClock

/-!
# The escalation of a kill

The runner's wait loop with the periodic sync in it and with what it does in each pass, in
the order in which it does it. The consumer gets SIGTERM, after a grace SIGKILL, and no
artifact is synced once SIGTERM is out.
-/

namespace MightyColab
namespace Job

open Lib
open Runner (Raised Waited Wait)
open Watchdog (PyFloat)

namespace Escalation

/-!
## One pass
-/

inductive Deed where
  /-- The SIGTERM round: the group and the escapees. -/
  | term (now : Rat)
  /-- The SIGKILL round. -/
  | kill (now : Rat)
  /-- `_sync_artifacts_once` is called. -/
  | sync (now : Rat)
  /-- `os.waitpid` has reaped the shim. -/
  | reaped (waited : Waited)
  | raised (e : Raised)
  deriving DecidableEq, Repr

/-- What the loop is started with. -/
structure Config where
  deadline : Option PyFloat
  artifactSyncInterval : Option PyFloat
  syncManifest : List Json
  started : Rat

def syncManifest (interval : Option PyFloat) (offloadManifest : Option String)
    (read : Except Runner.Failure Json) : List Json :=
  if interval.any WallClock.truthy && offloadManifest.any (· ≠ "") then
    match Runner.loadManifest offloadManifest read with
    | .ok items => items
    | .error _ => []
  else []

structure Pass where
  waited : Except Raised Waited
  now : Rat
  /-- `cancel.json` exists. -/
  cancelRequested : Bool
  /-- Writing `cancel.json` for the deadline raises. -/
  cancelWrite : Option Raised := none
  /-- A round of signals raises, as an interrupt does. -/
  round : Option Raised := none
  /-- The clock after a sync, if one is made and does not raise. -/
  sync : Except Raised Rat
  /-- The sleep raises. -/
  sleep : Option Raised := none

structure Loop extends Wait where
  lastArtifactSyncAt : Rat
  deriving DecidableEq, Repr

def Loop.start (cfg : Config) : Loop := { lastArtifactSyncAt := cfg.started }

/-- `bool(deadline and now > deadline)`. -/
def deadlineReached (deadline : Option PyFloat) (now : Rat) : Bool :=
  match deadline with
  | some (.finite q) => q ≠ 0 && decide (q < now)
  | some .negInf => true
  | _ => false

/-- What has been done, the variables after it, and what it has raised. -/
structure Outcome where
  deeds : List Deed := []
  loop : Loop
  raised : Option Raised := none

def signalRound (cfg : Config) (p : Pass) (s : Loop) : Outcome :=
  let late := deadlineReached cfg.deadline p.now
  if !s.termSent && (p.cancelRequested || late) then
    match if late && !p.cancelRequested then p.cancelWrite else none with
    | some e => { loop := s, raised := some e }
    | none =>
        match p.round with
        | some e => { deeds := [.term p.now], loop := s, raised := some e }
        | none =>
            { deeds := [.term p.now]
              loop := { s with termSent := true, escalateAt := p.now + graceSeconds } }
  else if s.termSent && !s.killSent && decide (s.escalateAt < p.now) then
    match p.round with
    | some e => { deeds := [.kill p.now], loop := s, raised := some e }
    | none => { deeds := [.kill p.now], loop := { s with killSent := true } }
  else { loop := s }

def syncDue (cfg : Config) (p : Pass) (s : Loop) : Bool :=
  cfg.syncManifest ≠ [] && !s.termSent &&
    cfg.artifactSyncInterval.any (·.reached (p.now - s.lastArtifactSyncAt))

def artifactSync (cfg : Config) (p : Pass) (s : Loop) : Outcome :=
  if syncDue cfg p s then
    match p.sync with
    | .error e => { deeds := [.sync p.now], loop := s, raised := some e }
    | .ok after => { deeds := [.sync p.now], loop := { s with lastArtifactSyncAt := after } }
  else { loop := s }

def afterSignals (cfg : Config) (p : Pass) (signals : Outcome) : Outcome :=
  match signals.raised with
  | some _ => signals
  | none =>
      let sync := artifactSync cfg p signals.loop
      { deeds := signals.deeds ++ sync.deeds
        loop := sync.loop
        raised := sync.raised.or p.sleep }

def runningPass (cfg : Config) (p : Pass) (s : Loop) : Outcome :=
  afterSignals cfg p (signalRound cfg p s)

/-- The status that `os.waitpid` gave is kept. -/
def Loop.reap (s : Loop) : Waited -> Loop
  | .signaled signal => { s with termSignal := some signal }
  | .exited code => { s with exitCode := some code }
  | _ => s

/-- The loop as it stands, what it has done, and whether it has ended. -/
structure State where
  loop : Loop
  deeds : List Deed := []
  ended : Bool := false
  deriving DecidableEq

def State.fail (s : State) (e : Raised) : State :=
  { loop := { s.loop with runnerError := some e.text }
    deeds := s.deeds ++ [.raised e]
    ended := true }

def step (cfg : Config) (s : State) (p : Pass) : Option State :=
  if s.ended then none
  else
    match p.waited with
    | .error e => some (s.fail e)
    | .ok .running =>
        let outcome := runningPass cfg p s.loop
        let s := { s with loop := outcome.loop, deeds := s.deeds ++ outcome.deeds }
        match outcome.raised with
        | some e => some (s.fail e)
        | none => some s
    | .ok waited =>
        some { loop := s.loop.reap waited, deeds := s.deeds ++ [.reaped waited], ended := true }

def run (cfg : Config) : State -> List Pass -> State
  | s, [] => s
  | s, p :: rest =>
      match step cfg s p with
      | none => s
      | some next => run cfg next rest

/-!
## What a pass does
-/

variable {cfg : Config} {p : Pass} {s : Loop}

inductive Passed (p : Pass) (s : Loop) : Outcome -> Prop where
  | quiet {o : Outcome} (deeds : o.deeds = []) (same : o.loop.toWait = s.toWait) : Passed p s o
  | term {o : Outcome} (unsent : s.termSent = false) (deeds : o.deeds = [.term p.now])
      (sent : o.raised = none -> o.loop.toWait =
        { s.toWait with termSent := true, escalateAt := p.now + graceSeconds }) : Passed p s o
  | kill {o : Outcome} (sent : s.termSent = true) (unsent : s.killSent = false)
      (late : s.escalateAt < p.now) (deeds : o.deeds = [.kill p.now])
      (killed : o.raised = none -> o.loop.toWait = { s.toWait with killSent := true }) :
      Passed p s o
  | sync {o : Outcome} (unsent : s.termSent = false) (deeds : o.deeds = [.sync p.now])
      (same : o.loop.toWait = s.toWait) : Passed p s o

theorem artifactSync_quiet (h : s.termSent = true) : artifactSync cfg p s = { loop := s } := by
  have hdue : syncDue cfg p s = false := by
    unfold syncDue
    rw [h, Bool.not_true, Bool.and_false, Bool.false_and]
  unfold artifactSync
  rw [hdue, if_neg Bool.false_ne_true]

theorem afterSignals_sent {deeds : List Deed} (h : s.termSent = true) :
    afterSignals cfg p { deeds, loop := s } = { deeds, loop := s, raised := p.sleep } := by
  unfold afterSignals
  simp only [artifactSync_quiet h, List.append_nil, Option.none_or]

theorem passed_unsignalled : Passed p s (afterSignals cfg p { loop := s }) := by
  unfold afterSignals artifactSync
  simp only
  split
  · next hdue =>
      have hunsent : s.termSent = false := by
        unfold syncDue at hdue
        rw [Bool.and_eq_true, Bool.and_eq_true, Bool.not_eq_true'] at hdue
        exact hdue.left.right
      cases p.sync with
      | error e => exact .sync hunsent rfl rfl
      | ok after => exact .sync hunsent rfl rfl
  · exact .quiet rfl rfl

theorem passed (cfg : Config) (p : Pass) (s : Loop) : Passed p s (runningPass cfg p s) := by
  unfold runningPass signalRound
  simp only
  split
  · next hterm =>
      have hunsent : s.termSent = false := by
        rw [Bool.and_eq_true, Bool.not_eq_true'] at hterm
        exact hterm.left
      split
      · exact .quiet rfl rfl
      · cases p.round with
        | some e => exact .term hunsent rfl (fun h => by cases h)
        | none =>
            simp only
            rw [afterSignals_sent rfl]
            exact .term hunsent rfl fun _ => rfl
  · split
    · next hkill =>
        rw [Bool.and_eq_true, Bool.and_eq_true, Bool.not_eq_true', decide_eq_true_eq] at hkill
        cases p.round with
        | some e => exact .kill hkill.1.1 hkill.1.2 hkill.2 rfl (fun h => by cases h)
        | none =>
            have hsent : (Loop.toWait { s with killSent := true }).termSent = true := hkill.1.1
            simp only
            rw [afterSignals_sent hsent]
            exact .kill hkill.1.1 hkill.1.2 hkill.2 rfl fun _ => rfl
    · exact passed_unsignalled

/-!
## The order of the deeds
-/

def Deed.isTerm : Deed -> Bool
  | .term _ => true
  | _ => false

def Deed.isKill : Deed -> Bool
  | .kill _ => true
  | _ => false

/-- One SIGTERM round, one SIGKILL round after it and its grace, no sync after SIGTERM. -/
structure Ordered (deeds : List Deed) : Prop where
  termOnce : deeds.countP Deed.isTerm ≤ 1
  killOnce : deeds.countP Deed.isKill ≤ 1
  killAfter : forall before now after, deeds = before ++ .kill now :: after ->
    exists sent, .term sent ∈ before ∧ (graceSeconds : Rat) < now - sent
  noSync : forall before sent after, deeds = before ++ .term sent :: after ->
    forall now, .sync now ∉ after

theorem ordered_nil : Ordered [] where
  termOnce := Nat.zero_le 1
  killOnce := Nat.zero_le 1
  killAfter before now after h := by simp at h
  noSync before sent after h := by simp at h

theorem snoc_split {alpha : Type} {deeds before after : List alpha} {last d : alpha}
    (h : deeds ++ [last] = before ++ d :: after) :
    (d = last ∧ before = deeds ∧ after = []) ∨
      exists others, after = others ++ [last] ∧ deeds = before ++ d :: others := by
  rcases List.eq_nil_or_concat after with rfl | ⟨others, x, rfl⟩
  · rcases List.append_inj' h rfl with ⟨rfl, hlast⟩
    cases hlast
    exact Or.inl ⟨rfl, rfl, rfl⟩
  · rw [List.concat_eq_append, ← List.cons_append, ← List.append_assoc] at h
    rcases List.append_inj' h rfl with ⟨rfl, hlast⟩
    cases hlast
    exact Or.inr ⟨others, List.concat_eq_append, rfl⟩

theorem count_snoc {deeds : List Deed} {d : Deed} {kind : Deed -> Bool}
    (h : deeds.countP kind ≤ 1) (hnew : kind d = true -> forall x, x ∈ deeds -> kind x = false) :
    (deeds ++ [d]).countP kind ≤ 1 := by
  rw [List.countP_append, List.countP_singleton]
  split
  · next hd =>
      have hnone : deeds.countP kind = 0 := by
        rw [List.countP_eq_zero]
        intro x hx
        rw [hnew hd x hx]
        exact Bool.false_ne_true
      rw [hnone]
  · exact h

theorem Ordered.snoc {deeds : List Deed} (h : Ordered deeds) (d : Deed)
    (hterm : d.isTerm = true -> forall x, x ∈ deeds -> x.isTerm = false)
    (hkill : d.isKill = true -> forall x, x ∈ deeds -> x.isKill = false)
    (hafter : forall now : Rat, d = .kill now ->
      exists sent, .term sent ∈ deeds ∧ (graceSeconds : Rat) < now - sent)
    (hsync : forall now, d = .sync now -> forall x, x ∈ deeds -> x.isTerm = false) :
    Ordered (deeds ++ [d]) where
  termOnce := count_snoc h.termOnce hterm
  killOnce := count_snoc h.killOnce hkill
  killAfter before now after heq := by
    rcases snoc_split heq with ⟨hd, rfl, _⟩ | ⟨others, _, hdeeds⟩
    · exact hafter now hd.symm
    · exact h.killAfter before now others hdeeds
  noSync before sent after heq := by
    rcases snoc_split heq with ⟨_, _, rfl⟩ | ⟨others, rfl, hdeeds⟩
    · intro now hnow
      cases hnow
    · intro now hnow
      rcases List.mem_append.mp hnow with hnow | hnow
      · exact h.noSync before sent others hdeeds now hnow
      · have hlast := hsync now (List.mem_singleton.mp hnow).symm (.term sent)
          (by rw [hdeeds]; exact List.mem_append_right _ List.mem_cons_self)
        cases hlast

theorem Ordered.last {deeds : List Deed} (h : Ordered deeds) {d : Deed}
    (hlast : (exists waited, d = .reaped waited) ∨ exists e, d = .raised e) :
    Ordered (deeds ++ [d]) := by
  rcases hlast with ⟨waited, rfl⟩ | ⟨e, rfl⟩
  · exact h.snoc _ nofun nofun nofun nofun
  · exact h.snoc _ nofun nofun nofun nofun

/-!
## A run
-/

structure Tracks (deeds : List Deed) (s : Loop) : Prop where
  ordered : Ordered deeds
  untermed : s.termSent = false -> forall d, d ∈ deeds -> d.isTerm = false
  unkilled : s.killSent = false -> forall d, d ∈ deeds -> d.isKill = false
  termed : s.termSent = true ->
    exists sent, .term sent ∈ deeds ∧ s.escalateAt = sent + graceSeconds

theorem Tracks.same {deeds : List Deed} {s s' : Loop} (h : Tracks deeds s)
    (hsame : s'.toWait = s.toWait) : Tracks deeds s' where
  ordered := h.ordered
  untermed hunsent := h.untermed (by rw [← hsame]; exact hunsent)
  unkilled hunsent := h.unkilled (by rw [← hsame]; exact hunsent)
  termed hsent := by
    rw [hsame]
    exact h.termed (by rw [← hsame]; exact hsent)

theorem mem_snoc {deeds : List Deed} {d : Deed} {kind : Deed -> Bool} (hd : kind d = false)
    (h : forall x, x ∈ deeds -> kind x = false) : forall x, x ∈ deeds ++ [d] -> kind x = false := by
  intro x hx
  rcases List.mem_append.mp hx with hx | hx
  · exact h x hx
  · rw [List.mem_singleton.mp hx]
    exact hd

theorem Tracks.pass {deeds : List Deed} {o : Outcome} (h : Tracks deeds s) (hpass : Passed p s o) :
    Ordered (deeds ++ o.deeds) ∧ (o.raised = none -> Tracks (deeds ++ o.deeds) o.loop) := by
  cases hpass with
  | quiet hdeeds hsame =>
      rw [hdeeds, List.append_nil]
      exact ⟨h.ordered, fun _ => h.same hsame⟩
  | term hunsent hdeeds hloop =>
      have hordered : Ordered (deeds ++ [.term p.now]) :=
        h.ordered.snoc _ (fun _ => h.untermed hunsent) nofun nofun nofun
      rw [hdeeds]
      refine ⟨hordered, fun hnone => ?_⟩
      have hsent := hloop hnone
      exact {
        ordered := hordered
        untermed := fun hfalse => by rw [hsent] at hfalse; cases hfalse
        unkilled := fun hfalse => mem_snoc rfl (h.unkilled (by rw [hsent] at hfalse; exact hfalse))
        termed := fun _ => ⟨p.now, List.mem_append_right _ List.mem_cons_self, by rw [hsent]⟩ }
  | kill hsent hunsent hlate hdeeds hloop =>
      rcases h.termed hsent with ⟨sent, hmem, hescalate⟩
      have hgrace : (graceSeconds : Rat) < p.now - sent := by
        rw [hescalate] at hlate
        grind
      have hordered : Ordered (deeds ++ [.kill p.now]) := by
        refine h.ordered.snoc _ nofun (fun _ => h.unkilled hunsent) (fun now hnow => ?_) nofun
        cases hnow
        exact ⟨sent, hmem, hgrace⟩
      rw [hdeeds]
      refine ⟨hordered, fun hnone => ?_⟩
      have hkilled := hloop hnone
      exact {
        ordered := hordered
        untermed := fun hfalse => by
          rw [hkilled] at hfalse
          rw [hsent] at hfalse
          cases hfalse
        unkilled := fun hfalse => by rw [hkilled] at hfalse; cases hfalse
        termed := fun _ => ⟨sent, List.mem_append_left _ hmem, by rw [hkilled]; exact hescalate⟩ }
  | sync hunsent hdeeds hsame =>
      have hordered : Ordered (deeds ++ [.sync p.now]) :=
        h.ordered.snoc _ nofun nofun nofun fun _ _ => h.untermed hunsent
      rw [hdeeds]
      refine ⟨hordered, fun _ => Tracks.same ?_ hsame⟩
      exact {
        ordered := hordered
        untermed := fun hfalse => mem_snoc rfl (h.untermed hfalse)
        unkilled := fun hfalse => mem_snoc rfl (h.unkilled hfalse)
        termed := fun htrue => by rw [hunsent] at htrue; cases htrue }

def Raises (p : Pass) (e : Raised) : Prop :=
  p.waited = .error e ∨ p.cancelWrite = some e ∨ p.round = some e ∨ p.sync = .error e ∨
    p.sleep = some e

theorem signalRound_raised {e : Raised} (h : (signalRound cfg p s).raised = some e) :
    p.cancelWrite = some e ∨ p.round = some e := by
  unfold signalRound at h
  simp only at h
  split at h
  · split at h
    · next e' hwrite =>
        cases h
        split at hwrite
        · exact Or.inl hwrite
        · cases hwrite
    · cases hround : p.round with
      | none => rw [hround] at h; cases h
      | some e' => rw [hround] at h; exact Or.inr h
  · split at h
    · cases hround : p.round with
      | none => rw [hround] at h; cases h
      | some e' => rw [hround] at h; exact Or.inr h
    · cases h

theorem artifactSync_raised {e : Raised} (h : (artifactSync cfg p s).raised = some e) :
    p.sync = .error e := by
  unfold artifactSync at h
  split at h
  · cases hsync : p.sync with
    | error e' => rw [hsync] at h; cases h; rfl
    | ok after => rw [hsync] at h; cases h
  · cases h

theorem runningPass_raised {e : Raised} (h : (runningPass cfg p s).raised = some e) :
    Raises p e := by
  unfold runningPass afterSignals at h
  cases hsignals : (signalRound cfg p s).raised with
  | some e' =>
      rw [hsignals] at h
      simp only [hsignals] at h
      cases h
      rcases signalRound_raised hsignals with hraised | hraised
      · exact Or.inr (Or.inl hraised)
      · exact Or.inr (Or.inr (Or.inl hraised))
  | none =>
      rw [hsignals] at h
      simp only [Option.or_eq_some_iff] at h
      rcases h with hraised | ⟨_, hraised⟩
      · exact Or.inr (Or.inr (Or.inr (Or.inl (artifactSync_raised hraised))))
      · exact Or.inr (Or.inr (Or.inr (Or.inr hraised)))

/-- The loop ends in a pass that reaps the child or raises, and that is its last deed. -/
def Ends (p : Pass) (s : State) : Prop :=
  exists d, s.deeds.getLast? = some d ∧
    ((exists waited, p.waited = .ok waited ∧ waited ≠ .running ∧ d = .reaped waited) ∨
      exists e, Raises p e ∧ d = .raised e)

def Sound (s : State) : Prop := Ordered s.deeds ∧ (s.ended = false -> Tracks s.deeds s.loop)

theorem sound_start (cfg : Config) : Sound { loop := Loop.start cfg } := by
  refine ⟨ordered_nil, fun _ => ?_⟩
  exact {
    ordered := ordered_nil
    untermed := fun _ d hd => by cases hd
    unkilled := fun _ d hd => by cases hd
    termed := fun h => by cases h }

theorem step_sound {s next : State} (hs : Sound s) (h : step cfg s p = some next) :
    Sound next ∧ (next.ended = true -> Ends p next) := by
  unfold step at h
  cases hended : s.ended with
  | true => rw [hended, if_pos rfl] at h; cases h
  | false =>
      have htracks := hs.right hended
      rw [hended, if_neg Bool.false_ne_true] at h
      cases hwaited : p.waited with
      | error e =>
          rw [hwaited] at h
          cases h
          refine ⟨⟨hs.left.last (Or.inr ⟨e, rfl⟩), nofun⟩, fun _ => ?_⟩
          exact ⟨_, List.getLast?_concat, Or.inr ⟨e, Or.inl hwaited, rfl⟩⟩
      | ok waited =>
          rw [hwaited] at h
          cases waited with
          | running =>
              simp only at h
              rcases htracks.pass (passed cfg p s.loop) with ⟨hordered, hgoes⟩
              cases hraised : (runningPass cfg p s.loop).raised with
              | some e =>
                  rw [hraised] at h
                  cases h
                  refine ⟨⟨hordered.last (Or.inr ⟨e, rfl⟩), nofun⟩, fun _ => ?_⟩
                  exact ⟨_, List.getLast?_concat, Or.inr ⟨e, runningPass_raised hraised, rfl⟩⟩
              | none =>
                  rw [hraised] at h
                  cases h
                  exact ⟨⟨hordered, fun _ => hgoes hraised⟩, nofun⟩
          | signaled _ | exited _ | other =>
              cases h
              refine ⟨⟨hs.left.last (Or.inl ⟨_, rfl⟩), nofun⟩, fun _ => ?_⟩
              exact ⟨_, List.getLast?_concat, Or.inl ⟨_, hwaited, nofun, rfl⟩⟩

theorem run_ended {s : State} (h : s.ended = true) (passes : List Pass) :
    run cfg s passes = s := by
  cases passes with
  | nil => rfl
  | cons p rest => rw [run, step, h, if_pos rfl]

theorem run_sound {s : State} (passes : List Pass) (hs : Sound s) (hgoes : s.ended = false) :
    Sound (run cfg s passes) ∧
      ((run cfg s passes).ended = true ->
        exists before p after, passes = before ++ p :: after ∧
          (run cfg s before).ended = false ∧ Ends p (run cfg s passes)) := by
  induction passes generalizing s with
  | nil => exact ⟨hs, fun h => by cases hgoes.symm.trans h⟩
  | cons p rest ih =>
      cases hstep : step cfg s p with
      | none =>
          have hsame : run cfg s (p :: rest) = s := by rw [run, hstep]
          rw [hsame]
          exact ⟨hs, fun h => by cases hgoes.symm.trans h⟩
      | some next =>
          have hnext : forall passes, run cfg s (p :: passes) = run cfg next passes := by
            intro passes
            rw [run, hstep]
          rw [hnext]
          rcases step_sound hs hstep with ⟨hsound, hends⟩
          cases hended : next.ended with
          | true =>
              rw [run_ended hended]
              exact ⟨hsound, fun _ => ⟨[], p, rest, rfl, hgoes, hends hended⟩⟩
          | false =>
              rcases ih hsound hended with ⟨hrest, hlast⟩
              refine ⟨hrest, fun h => ?_⟩
              rcases hlast h with ⟨before, p', after, hpasses, hbefore, hlast⟩
              refine ⟨p :: before, p', after, by rw [hpasses, List.cons_append], ?_, hlast⟩
              rw [hnext]
              exact hbefore

/-- Whatever the passes of the loop meet: the rounds and syncs are in order, and the loop
ends only in a pass that reaps the child or raises. -/
theorem escalation_ordered (cfg : Config) (passes : List Pass) :
    Ordered (run cfg { loop := Loop.start cfg } passes).deeds ∧
      ((run cfg { loop := Loop.start cfg } passes).ended = true ->
        exists before p after, passes = before ++ p :: after ∧
          (run cfg { loop := Loop.start cfg } before).ended = false ∧
          Ends p (run cfg { loop := Loop.start cfg } passes)) := by
  rcases @run_sound cfg _ passes (sound_start cfg) rfl with ⟨hsound, hends⟩
  exact ⟨hsound.left, hends⟩

/-!
## The wait on its own
-/

/-- The pass as the runner's wait sees it: all that raises after the signals is one. -/
def Pass.tick (cfg : Config) (p : Pass) (s : Loop) : Runner.Tick where
  waited := p.waited
  now := p.now
  cancelRequested := p.cancelRequested
  cancelWrite := p.cancelWrite
  rest := (artifactSync cfg p (signalRound cfg p s).loop).raised.or p.sleep

theorem deadlineReached_eq (deadline : Option PyFloat) (now : Rat) :
    deadlineReached deadline now =
      ((WallClock.passDeadline deadline now).filter (· ≠ 0)).any fun d => decide (d < now) := by
  cases deadline with
  | none => rfl
  | some value =>
      cases value with
      | finite q =>
          unfold deadlineReached WallClock.passDeadline
          by_cases hzero : q = 0 <;> simp [hzero, Option.filter]
      | negInf =>
          have hnow : -(|now| + 1) < now := by
            have := neg_abs_le now
            grind
          have hzero : -(|now| + 1) ≠ 0 := by
            have := abs_nonneg now
            grind
          simp only [deadlineReached, WallClock.passDeadline, Option.filter, Option.any,
            decide_eq_true hzero, if_true, decide_eq_true hnow]
      | posInf => rfl
      | nan => rfl

/-- Where no round of signals raises, the loop is the runner's wait with the syncs in it. -/
theorem step_waitPass {s : State} (hgoes : s.ended = false) (hround : p.round = none) :
    (step cfg s p).map (fun next => (next.ended, next.loop.toWait)) =
      some (Runner.waitPass (WallClock.passDeadline cfg.deadline p.now) (p.tick cfg s.loop)
        s.loop.toWait) := by
  unfold step Runner.waitPass Pass.tick
  rw [hgoes, if_neg Bool.false_ne_true]
  cases p.waited with
  | error e => rfl
  | ok waited =>
      cases waited with
      | running =>
          simp only [← deadlineReached_eq]
          unfold runningPass signalRound
          simp only [hround]
          cases hterm : !s.loop.termSent &&
              (p.cancelRequested || deadlineReached cfg.deadline p.now) with
          | true =>
              simp only [if_true]
              cases if deadlineReached cfg.deadline p.now && !p.cancelRequested then p.cancelWrite
                  else none with
              | some e => rfl
              | none =>
                  simp only
                  rw [afterSignals_sent rfl, artifactSync_quiet rfl]
                  simp only [Option.none_or]
                  cases p.sleep <;> rfl
          | false =>
              cases hkill : s.loop.termSent && !s.loop.killSent &&
                  decide (s.loop.escalateAt < p.now) with
              | true =>
                  have hsent : (Loop.toWait { s.loop with killSent := true }).termSent = true := by
                    rw [Bool.and_eq_true, Bool.and_eq_true] at hkill
                    exact hkill.1.1
                  simp only [if_true, Bool.false_eq_true, if_false]
                  rw [afterSignals_sent hsent, artifactSync_quiet hsent]
                  simp only [Option.none_or]
                  cases p.sleep <;> rfl
              | false =>
                  simp only [Bool.false_eq_true, if_false]
                  unfold afterSignals artifactSync
                  cases syncDue cfg p s.loop with
                  | true =>
                      cases p.sync with
                      | error e => rfl
                      | ok after => cases p.sleep <;> rfl
                  | false => cases p.sleep <;> rfl
      | signaled _ | exited _ | other => rfl

/-- The passes as the runner's wait sees them, one after the other. -/
def ticks (cfg : Config) : State -> List Pass -> List Runner.Tick
  | _, [] => []
  | s, p :: rest => p.tick cfg s.loop ::
      match step cfg s p with
      | none => []
      | some next => ticks cfg next rest

theorem run_wait {deadline : Option Rat}
    (hdeadline : forall now, WallClock.passDeadline cfg.deadline now = deadline)
    {passes : List Pass} (hrounds : forall p, p ∈ passes -> p.round = none) {s : State}
    (hgoes : s.ended = false) :
    Runner.wait deadline (ticks cfg s passes) s.loop.toWait =
      if (run cfg s passes).ended then some (run cfg s passes).loop.toWait else none := by
  induction passes generalizing s with
  | nil => rw [run, hgoes, if_neg Bool.false_ne_true, ticks, Runner.wait]
  | cons p rest ih =>
      have hpass : (step cfg s p).map _ = _ := step_waitPass hgoes (hrounds p List.mem_cons_self)
      rw [hdeadline] at hpass
      rcases Option.map_eq_some_iff.mp hpass with ⟨next, hstep, hnext⟩
      rw [ticks, run, hstep, Runner.wait, ← hnext]
      cases hended : next.ended with
      | true =>
          simp only [run_ended hended, hended, if_true]
      | false => exact ih (fun p hp => hrounds p (List.mem_cons_of_mem _ hp)) hended

end Escalation
end Job
end MightyColab
