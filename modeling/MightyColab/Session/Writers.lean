import MightyColab.Lib.Runs
import MightyColab.Lib.Slots
import MightyColab.Session.Record

/-!
# Writers of one session record

The daemon, `exec`, `exec-async`, a job's transport and `stop` as processes on one session,
in any interleaving of their calls of the store. The store locks its file for one call at a
time only, so a copy that a process saves may be older than the record. The record is kept,
neither brought back after its removal nor set back in a field that another process has set,
exactly in those runs in which no save was out of date.
-/

namespace MightyColab
namespace Session

open Lib Lib.SharedRecord

inductive Party where
  | keepAlive (endpoint : String) (ticks : List Tick)
  | ensureKeepAlive (alive : Bool) (pid : Option Nat)
  | exec (a : ExecAnswers)
  | execAsync (accepted : Bool) (logPath : String) (pid : Option Nat)
  | jobTransport (refreshes : List (Option (String × Option String)))
  | stop (keepAliveGone execGone unassigned : Bool)

def Party.script : Party -> Script
  | keepAlive endpoint ticks => Session.keepAlive endpoint ticks 0
  | ensureKeepAlive alive pid => Session.ensureKeepAlive alive pid
  | exec a => execCommand a
  | execAsync accepted logPath pid => Session.execAsync accepted logPath pid
  | jobTransport refreshes => Session.jobTransport refreshes
  | stop keepAliveGone execGone unassigned => Session.stop keepAliveGone execGone unassigned

structure Process where
  /-- The record in hand. -/
  copy : Option SessionState := none
  /-- The fields of it that were set since the record was read or saved. -/
  own : List Field := []
  rest : Script

abbrev Log := List (Event Nat SessionState Field)

structure State where
  /-- What `sessions.json` has under the name. -/
  record : Option SessionState
  /-- The processes by their ids. -/
  procs : Nat -> Option Process := fun _ => none
  /-- What was done with the record, newest first. -/
  log : Log := []

def State.setProc (s : State) (p : Nat) (proc : Option Process) : State :=
  { s with procs := Function.update s.procs p proc }

/-- A call of the store, after which the record is `record`. -/
def State.called (s : State) (e : Event Nat SessionState Field) (record : Option SessionState)
    (proc : Process) : State where
  record := record
  procs := Function.update s.procs e.actor (some proc)
  log := e :: s.log

def perform (s : State) (p : Nat) (proc : Process) : State :=
  match proc.rest with
  | .done => s.setProc p none
  | .get next =>
      s.called (.looked p) s.record { copy := s.record, rest := next s.record }
  | .assign f value next =>
      s.setProc p
        (some { copy := proc.copy.map (·.set f value), own := f :: proc.own, rest := next })
  | .add next =>
      match proc.copy with
      | none => s.setProc p (some { proc with rest := next })
      | some copy =>
          s.called (.saved p copy proc.own) (some copy) { copy := some copy, rest := next }
  | .remove next => s.called (.removed p) none { proc with rest := next }
  | .kill pid gone next =>
      let s' := s.setProc p (some { proc with rest := next })
      if gone then s'.setProc pid none else s'

inductive Action where
  | start (p : Nat) (party : Party)
  | act (p : Nat)
  /-- The process ends where it is. -/
  | die (p : Nat)

def step (s : State) : Action -> Option State
  | .start p party =>
      match s.procs p with
      | none => some (s.setProc p (some { rest := party.script }))
      | some _ => none
  | .act p =>
      match s.procs p with
      | none => none
      | some proc => some (perform s p proc)
  | .die p => some (s.setProc p none)

/-- A session with this record, and nobody at work on it. -/
def machine (initial : SessionState) : Machine State Action where
  start s := s = { record := some initial }
  step := step

/-- A save finds the record there, and as its process has it in hand in all fields that the
process has not set itself. -/
def SaveUpToDate (s : State) (a : Action) : Prop :=
  forall p proc copy next, a = .act p -> s.procs p = some proc -> proc.rest = .add next ->
    proc.copy = some copy -> UpToDate SessionState.view s.record copy proc.own

/-!
## What a step does
-/

/-- The record is what the log says, and what a process has in hand is what it saw last, but
for the fields it has set. -/
structure Traced (initial : SessionState) (s : State) : Prop where
  record : s.record = current initial s.log
  held : Held SessionState.view initial s.log
  copies : forall p proc copy, s.procs p = some proc -> proc.copy = some copy ->
    UpToDate SessionState.view (lastSeen initial p s.log) copy proc.own

variable {initial : SessionState}

theorem Traced.setProc {s : State} (hs : Traced initial s) {p : Nat} {proc : Option Process}
    (h : forall proc' copy, proc = some proc' -> proc'.copy = some copy ->
      UpToDate SessionState.view (lastSeen initial p s.log) copy proc'.own) :
    Traced initial (s.setProc p proc) := by
  refine ⟨hs.record, hs.held, ?_⟩
  intro q proc' copy hproc hcopy
  rcases update_some_cases hproc with ⟨hq, hnew⟩ | ⟨_, hold⟩
  · rw [hq]
    exact h proc' copy hnew hcopy
  · exact hs.copies q proc' copy hold hcopy

theorem Traced.ended {s : State} (hs : Traced initial s) (p : Nat) :
    Traced initial (s.setProc p none) := by
  refine hs.setProc ?_
  intro proc copy hproc
  cases hproc

/-- A call of the store by a process whose copy then is as it saw the record, but for the
fields it has set. -/
theorem Traced.called {s : State} (hs : Traced initial s) {e : Event Nat SessionState Field}
    {record : Option SessionState} {proc : Process}
    (hrecord : record = current initial (e :: s.log))
    (hheld : Held SessionState.view initial (e :: s.log))
    (h : forall copy, proc.copy = some copy ->
      UpToDate SessionState.view (lastSeen initial e.actor (e :: s.log)) copy proc.own) :
    Traced initial (s.called e record proc) := by
  refine ⟨hrecord, hheld, ?_⟩
  intro q proc' copy hproc hcopy
  change UpToDate SessionState.view (lastSeen initial q (e :: s.log)) copy proc'.own
  rcases update_cases hproc with ⟨hq, hnew⟩ | ⟨hq, hold⟩
  · rw [hnew] at hcopy ⊢
    rw [hq]
    exact h copy hcopy
  · rw [lastSeen_other (Ne.symm hq)]
    exact hs.copies q proc' copy hold hcopy

theorem Traced.perform {s : State} (hs : Traced initial s) {p : Nat} {proc : Process}
    (hproc : s.procs p = some proc) : Traced initial (perform s p proc) := by
  have hcopy := fun copy => hs.copies p proc copy hproc
  unfold Session.perform
  split
  · exact hs.ended _
  · refine hs.called hs.record hs.held ?_
    intro copy hrecord
    change s.record = some copy at hrecord
    rw [Event.actor, lastSeen, if_pos rfl, ← hs.record, hrecord]
    exact UpToDate.self copy
  · rename_i f value next hrest
    refine hs.setProc ?_
    intro proc' copy' heq hcopy'
    cases heq
    rcases Option.map_eq_some_iff.mp hcopy' with ⟨copy, hhand, rfl⟩
    exact (hcopy copy hhand).set fun g hg => SessionState.view_set_of_ne hg value copy
  · rename_i next hrest
    split
    · rename_i hnone
      refine hs.setProc ?_
      intro proc' copy heq hcopy'
      cases heq
      exact hcopy copy hcopy'
    · rename_i copy hhand
      refine hs.called rfl ⟨hcopy copy hhand, hs.held⟩ ?_
      intro copy' heq
      cases heq
      rw [Event.actor, lastSeen, if_pos rfl]
      exact UpToDate.self copy
  · exact hs.called rfl hs.held hcopy
  · rename_i pid gone next hrest
    have hnext : Traced initial (s.setProc p (some { proc with rest := next })) := by
      refine hs.setProc ?_
      intro proc' copy heq hcopy'
      cases heq
      exact hcopy copy hcopy'
    cases gone with
    | true => exact hnext.ended _
    | false => exact hnext

theorem step_traced {s s' : State} {a : Action} (hs : Traced initial s)
    (h : step s a = some s') : Traced initial s' := by
  cases a with
  | start p party =>
      rw [step] at h
      split at h
      · cases h
        refine hs.setProc ?_
        intro proc copy heq hcopy
        cases heq
        cases hcopy
      · cases h
  | act p =>
      rw [step] at h
      split at h
      · cases h
      · rename_i proc hproc
        cases h
        exact hs.perform hproc
  | die p =>
      cases h
      exact hs.ended _

theorem saveUpToDate_add {s : State} {p : Nat} {proc : Process} {copy : SessionState}
    {next : Script} (hproc : s.procs p = some proc) (hrest : proc.rest = .add next)
    (hcopy : proc.copy = some copy) :
    SaveUpToDate s (.act p) <-> UpToDate SessionState.view s.record copy proc.own := by
  constructor
  · intro h
    exact h p proc copy next rfl hproc hrest hcopy
  · intro h q proc' copy' next' haction hproc' _ hcopy'
    cases haction
    rw [hproc, Option.some.injEq] at hproc'
    rw [← hproc', hcopy, Option.some.injEq] at hcopy'
    rw [← hproc', ← hcopy']
    exact h

theorem saveUpToDate_other {s : State} {p : Nat} {proc : Process}
    (hproc : s.procs p = some proc)
    (hrest : forall next, proc.rest = .add next -> proc.copy = none) :
    SaveUpToDate s (.act p) := by
  intro q proc' copy next haction hproc' hadd hcopy
  cases haction
  rw [hproc, Option.some.injEq] at hproc'
  rw [← hproc'] at hadd hcopy
  rw [hrest next hadd] at hcopy
  cases hcopy

theorem perform_fresh {s : State} (hs : Traced initial s) {p : Nat} {proc : Process}
    (hproc : s.procs p = some proc) :
    Fresh SessionState.view initial (perform s p proc).log <->
      Fresh SessionState.view initial s.log ∧ SaveUpToDate s (.act p) := by
  have hother : (forall next, proc.rest = .add next -> proc.copy = none) ->
      (Fresh SessionState.view initial s.log <->
        Fresh SessionState.view initial s.log ∧ SaveUpToDate s (.act p)) :=
    fun hrest => (and_iff_left (saveUpToDate_other hproc hrest)).symm
  unfold perform
  split
  · rename_i hrest
    exact hother (by rw [hrest]; exact nofun)
  · rename_i next hrest
    exact hother (by rw [hrest]; exact nofun)
  · rename_i f value next hrest
    exact hother (by rw [hrest]; exact nofun)
  · rename_i next hrest
    split
    · rename_i hnone
      exact hother fun _ _ => hnone
    · rename_i copy hcopy
      rw [saveUpToDate_add hproc hrest hcopy, hs.record, and_comm]
      exact Iff.rfl
  · rename_i next hrest
    exact hother (by rw [hrest]; exact nofun)
  · rename_i pid gone next hrest
    have hkept := hother (by rw [hrest]; exact nofun)
    cases gone with
    | true => exact hkept
    | false => exact hkept

theorem step_fresh {s s' : State} {a : Action} (hs : Traced initial s)
    (h : step s a = some s') :
    Fresh SessionState.view initial s'.log <->
      Fresh SessionState.view initial s.log ∧ SaveUpToDate s a := by
  cases a with
  | start p party =>
      have hquiet : SaveUpToDate s (.start p party) := by
        intro q proc copy next haction
        cases haction
      rw [step] at h
      split at h
      · cases h
        exact (and_iff_left hquiet).symm
      · cases h
  | act p =>
      rw [step] at h
      split at h
      · cases h
      · rename_i proc hproc
        cases h
        exact perform_fresh hs hproc
  | die p =>
      have hquiet : SaveUpToDate s (.die p) := by
        intro q proc copy next haction
        cases haction
      cases h
      exact (and_iff_left hquiet).symm

theorem run_fresh {actions : List Action} : forall {s final : State}, Traced initial s ->
    (machine initial).exec s actions = some final ->
    Traced initial final ∧
      (Fresh SessionState.view initial final.log <->
        Fresh SessionState.view initial s.log ∧
          (machine initial).Guarded SaveUpToDate s actions) := by
  induction actions with
  | nil =>
      intro s final hs hrun
      cases hrun
      exact ⟨hs, (and_iff_left trivial).symm⟩
  | cons a rest ih =>
      intro s final hs hrun
      rw [Machine.exec_cons] at hrun
      cases hstep : (machine initial).step s a with
      | none =>
          rw [hstep] at hrun
          cases hrun
      | some s' =>
          rw [hstep] at hrun
          rcases ih (step_traced hs hstep) hrun with ⟨hfinal, hiff⟩
          refine ⟨hfinal, ?_⟩
          rw [hiff, step_fresh hs hstep, and_assoc]
          refine and_congr_right fun _ => and_congr_right fun _ => ?_
          constructor
          · intro h next hnext
            rw [hstep, Option.some.injEq] at hnext
            rwa [← hnext]
          · intro h
            exact h s' hstep

/-- In a run of any of these processes on one session the record is kept exactly when each
save found the record there, and as the process had it in hand in all fields that it had not
set itself. -/
theorem record_kept_iff (initial : SessionState) (actions : List Action) (final : State)
    (hrun : (machine initial).exec { record := some initial } actions = some final) :
    Kept SessionState.view initial final.log <->
      (machine initial).Guarded SaveUpToDate { record := some initial } actions := by
  have hstart : Traced initial { record := some initial } := by
    refine ⟨rfl, trivial, ?_⟩
    intro p proc copy hproc
    cases hproc
  rcases run_fresh hstart hrun with ⟨hfinal, hfresh⟩
  rw [kept_iff_fresh hfinal.held, hfresh]
  exact and_iff_right trivial

/-- A session with its daemon, process 7, and a kernel. -/
def busySession : SessionState where
  name := "s"
  token := "t"
  url := "https://h"
  endpoint := "e"
  kernelId := some "k"
  sessionId := some "i"
  keepAlivePid := some 7

theorem record_kept_iff_stopped : exists final,
    (machine busySession).exec { record := some busySession }
      [.start 7 (.keepAlive "e" [.answered "12:00"]), .act 7, .act 7, .act 7, .act 7,
        .start 8 (.stop true true true), .act 8, .act 8, .act 8] = some final ∧
    final.record = none ∧
    (machine busySession).Guarded SaveUpToDate { record := some busySession }
      [.start 7 (.keepAlive "e" [.answered "12:00"]), .act 7, .act 7, .act 7, .act 7,
        .start 8 (.stop true true true), .act 8, .act 8, .act 8] := by
  have hends : ((machine busySession).exec { record := some busySession }
      [.start 7 (.keepAlive "e" [.answered "12:00"]), .act 7, .act 7, .act 7, .act 7,
        .start 8 (.stop true true true), .act 8, .act 8, .act 8]).map
        (fun s => (s.record, s.log)) =
      some (none, [.removed 8, .looked 8,
        .saved 7 { busySession with lastKeepAlivePing := some "12:00" }
          [.lastKeepAlivePing, .keepAliveConsecutiveFailures], .looked 7]) := by
    rfl
  rcases Option.map_eq_some_iff.mp hends with ⟨final, hrun, hfinal⟩
  rw [Prod.mk.injEq] at hfinal
  refine ⟨final, hrun, hfinal.1, (record_kept_iff busySession _ final hrun).mp (Fresh.kept ?_)⟩
  rw [hfinal.2]
  refine ⟨⟨busySession, rfl, ?_⟩, trivial⟩
  intro f hf
  cases f <;> first | rfl | simp at hf

/-- An `exec` that goes on after `stop` brings the record back, and a ping of the daemon
takes the process id from the record that `exec-async` has just put there. -/
theorem record_not_kept :
    (exists final,
      (machine busySession).exec { record := some busySession }
        [.start 8 (.exec ⟨some (some "k", some "i"), none, .absent, true, "a.py", []⟩), .act 8,
          .start 9 (.stop true true true), .act 9, .act 9, .act 9, .act 8, .act 8] =
        some final ∧
      Resurrected final.log ∧ final.record.isSome = true) ∧
    exists final,
      (machine busySession).exec { record := some busySession }
        [.start 7 (.keepAlive "e" [.answered "12:00"]), .act 7,
          .start 8 (.execAsync true "s.log" (some 9)), .act 8, .act 8, .act 8, .act 8, .act 8,
          .act 7, .act 7, .act 7] = some final ∧
      Overwritten SessionState.view busySession final.log ∧
      final.record.map SessionState.execPid = some none := by
  constructor
  · have hends : ((machine busySession).exec { record := some busySession }
        [.start 8 (.exec ⟨some (some "k", some "i"), none, .absent, true, "a.py", []⟩), .act 8,
          .start 9 (.stop true true true), .act 9, .act 9, .act 9, .act 8, .act 8]).map
          (fun s => (s.record, s.log)) =
        some (some { busySession with running := some "exec(a.py)" },
          [.saved 8 { busySession with running := some "exec(a.py)" } [.running], .removed 9,
            .looked 9, .looked 8]) := by
      rfl
    rcases Option.map_eq_some_iff.mp hends with ⟨final, hrun, hfinal⟩
    rw [Prod.mk.injEq] at hfinal
    refine ⟨final, hrun, ?_, by rw [hfinal.1]; rfl⟩
    rw [hfinal.2]
    exact ⟨[], 8, _, _, _, 9, rfl, List.mem_cons_self⟩
  · have hends : ((machine busySession).exec { record := some busySession }
        [.start 7 (.keepAlive "e" [.answered "12:00"]), .act 7,
          .start 8 (.execAsync true "s.log" (some 9)), .act 8, .act 8, .act 8, .act 8, .act 8,
          .act 7, .act 7, .act 7]).map (fun s => (s.record, s.log)) =
        some (some { busySession with lastKeepAlivePing := some "12:00" },
          [.saved 7 { busySession with lastKeepAlivePing := some "12:00" }
              [.lastKeepAlivePing, .keepAliveConsecutiveFailures],
            .saved 8 { busySession with execLogPath := some "s.log", execPid := some 9 }
              [.execPid],
            .saved 8 { busySession with execLogPath := some "s.log" } [.execLogPath],
            .looked 8, .looked 7]) := by
      rfl
    rcases Option.map_eq_some_iff.mp hends with ⟨final, hrun, hfinal⟩
    rw [Prod.mk.injEq] at hfinal
    refine ⟨final, hrun, ?_, by rw [hfinal.1]; rfl⟩
    rw [hfinal.2]
    refine ⟨[], 7, { busySession with lastKeepAlivePing := some "12:00" },
      [.lastKeepAlivePing, .keepAliveConsecutiveFailures], [], 8,
      { busySession with execLogPath := some "s.log", execPid := some 9 }, [.execPid],
      [.saved 8 { busySession with execLogPath := some "s.log" } [.execLogPath], .looked 8,
        .looked 7], { busySession with execLogPath := some "s.log", execPid := some 9 },
      .execPid, ?_, ?_, ?_, ?_, ?_, ?_, ?_, ?_⟩
    · rfl
    · decide
    · intro e he
      cases he
    · exact List.mem_cons_self
    · decide
    · rfl
    · rfl
    · intro h
      cases h

end Session
end MightyColab
