import MightyColab.Lib.Calls
import MightyColab.Lib.Dict
import MightyColab.Session.Pruning
import MightyColab.Session.Record

/-!
# The session commands

`new`, `run`, `exec`, `stop` and the others, as the calls that they make of the session file and
of the backend. Each reads and writes records as a whole, and removes them by name.
-/

namespace MightyColab
namespace Session
namespace Commands

open Lib
open Pruning (Assignment)

/-- What `keep_alive_assignment` brings. -/
inductive Ping where
  | answered
  /-- a `ColabRequestError`, with `get_status_code` and `_is_scope_error` of it -/
  | refused (code : Option Nat) (scopeError : Bool)
  /-- any other exception -/
  | raised

inductive Call where
  /-- `store.get` -/
  | get (name : String)
  /-- `store.list` -/
  | list
  /-- `store.add` -/
  | add (s : SessionState)
  /-- `store.remove` -/
  | remove (name : String)
  /-- `client.assign`, for a session of this name -/
  | assign (name : String)
  /-- `client.keep_alive_assignment` -/
  | ping (endpoint : String)
  /-- `client.unassign` -/
  | unassign (endpoint : String)
  /-- `client.list_assignments` -/
  | assignments
  /-- `kill_process` -/
  | kill (pid : Nat)

/-- Where the backend raises, an answer is `none` or `false`. -/
abbrev Call.Answer : Call -> Type
  | get _ => Option SessionState
  | list => List (String × SessionState)
  | add _ | remove _ => Unit
  | assign _ => Option Assignment
  | ping _ => Ping
  | unassign _ | kill _ => Bool
  | assignments => Option (List Assignment)

abbrev Program := Calls Call Call.Answer

abbrev get (name : String) : Program (Option SessionState) := Calls.ask (Call.get name)
abbrev list : Program (List (String × SessionState)) := Calls.ask Call.list
abbrev add (s : SessionState) : Program Unit := Calls.ask (Call.add s)
abbrev remove (name : String) : Program Unit := Calls.ask (Call.remove name)
abbrev assign (name : String) : Program (Option Assignment) := Calls.ask (Call.assign name)
abbrev ping (endpoint : String) : Program Ping := Calls.ask (Call.ping endpoint)
abbrev unassign (endpoint : String) : Program Bool := Calls.ask (Call.unassign endpoint)
abbrev assignments : Program (Option (List Assignment)) := Calls.ask Call.assignments
abbrev kill (pid : Nat) : Program Bool := Calls.ask (Call.kill pid)

/-- `kill_process` of a recorded process id, if there is one. -/
def killRecorded (pid : Option Nat) : Program Unit :=
  match pid.filter (· ≠ 0) with
  | none => pure ()
  | some pid => do
      let _ <- kill pid
      pure ()

/-- The calls of a script on the record of this name, and the copy that is in hand at its end. -/
def ofScript (name : String) : Script -> Option SessionState -> Program (Option SessionState)
  | .done, copy => pure copy
  | .get next, _ => do
      let s <- get name
      ofScript name (next s) s
  | .assign f value next, copy => ofScript name next (copy.map (·.set f value))
  | .add next, copy =>
      match copy with
      | none => ofScript name next none
      | some s => do
          add s
          ofScript name next (some s)
  | .remove next, copy => do
      remove name
      ofScript name next copy
  | .kill pid _ next, copy => do
      let _ <- kill pid
      ofScript name next copy

/-!
## What is done with a lost session
-/

/-- The end of `prune_session`. -/
def forget (name : String) (s : SessionState) : Program Bool := do
  killRecorded s.keepAlivePid
  remove name
  pure true

def pruneSession (name : String) (confirmedAbsent : Bool) : Program Bool := do
  match <- get name with
  | none => do
      remove name
      pure true
  | some s =>
      if confirmedAbsent then forget name s
      else
        match <- assignments with
        | none => pure false
        | some found =>
            match found.find? fun a => a.endpoint = s.endpoint with
            | none => forget name s
            | some a =>
                if a.token ≠ s.token ∨ a.url ≠ s.url then do
                  add { s with token := a.token, url := a.url }
                  pure false
                else pure false

/-- `for name in …: self.prune_session(name, confirmed_absent=True)` -/
def pruneAll : List String -> Program Unit
  | [] => pure ()
  | name :: rest => do
      let _ <- pruneSession name true
      pruneAll rest

def Current (found : List Assignment) (item : String × SessionState) : Prop :=
  item.2.endpoint ∈ found.map Assignment.endpoint

instance (found : List Assignment) (item : String × SessionState) :
    Decidable (Current found item) :=
  inferInstanceAs (Decidable (item.2.endpoint ∈ found.map Assignment.endpoint))

/-- `sync_sessions`: the sessions that are left, unless it raises. -/
def syncSessions : Program (Option (List (String × SessionState))) := do
  match <- list with
  | [] => do
      let _ <- assignments
      pure (some [])
  | locals =>
      match <- assignments with
      | none => pure none
      | some found => do
          pruneAll ((locals.filter fun item => ¬Current found item).map Prod.fst)
          pure (some (locals.filter fun item => Current found item))

/-- `resolve_session`: the name, unless it exits. -/
def resolveSession (session : Option String) : Program (Option String) :=
  match session.filter (· ≠ "") with
  | some name => pure (some name)
  | none => do
      match <- list with
      | [] => pure none
      | _ =>
          match <- syncSessions with
          | some [(name, _)] => pure (some name)
          | _ => pure none

def onSession (session : Option String) (script : Script) : Program Unit := do
  match <- resolveSession session with
  | none => pure ()
  | some name => do
      let _ <- ofScript name script none
      pure ()

/-!
## `new` and `run`
-/

/-- The options of `new` and `run`, the time, and the daemon's pid if it can be started. -/
structure Options where
  name : String
  variant : String
  accelerator : String
  machineShape : String
  noKeepalive : Bool
  time : String
  daemonPid : Option Nat

def Options.state (o : Options) (res : Assignment) : SessionState :=
  { name := o.name, token := res.token, url := res.url, endpoint := res.endpoint,
    variant := o.variant, accelerator := o.accelerator, machineShape := o.machineShape }

def recordKeepAliveSuccess (time : String) (s : SessionState) : SessionState :=
  { s with keepAliveConsecutiveFailures := 0, lastKeepAlivePing := some time }

def recordKeepAliveFailure (s : SessionState) : SessionState :=
  { s with keepAliveConsecutiveFailures := s.keepAliveConsecutiveFailures + 1 }

def withKeepAlive (daemonPid : Option Nat) (s : SessionState) :
    Program (Option SessionState) := do
  add s
  match daemonPid with
  | none => pure none
  | some pid => do
      let s := { s with keepAlivePid := some pid }
      add s
      pure (some s)

/-- What `new` and `run` do up to "Session READY", unless they raise or exit before. -/
def provision (o : Options) : Program (Option SessionState) := do
  match <- assign o.name with
  | none => pure none
  | some res =>
      let s := o.state res
      if o.noKeepalive then do
        let s := { s with keepAliveDisabled := true }
        add s
        pure (some s)
      else
        match <- ping res.endpoint with
        | .answered => withKeepAlive o.daemonPid (recordKeepAliveSuccess o.time s)
        | .refused code scopeError =>
            if code = some 403 ∧ scopeError = true then do
              -- an exception here is passed over
              let _ <- unassign res.endpoint
              pure none
            else withKeepAlive o.daemonPid (recordKeepAliveFailure s)
        | .raised => pure none

def new (o : Options) : Program Unit := do
  let _ <- provision o
  pure ()

/-- What `run` finds out: as `exec`, with one script for all blocks. -/
structure RunAnswers where
  connected : Option (Option String × Option String)
  fault : Option Bool
  /-- The path, its base name, and the time. -/
  script : String
  basename : String
  time : String

/-- `run_command` from its runtime up to its `finally`. -/
def runScript (a : RunAnswers) (s : SessionState) : Script :=
  match a.connected with
  | none => .done
  | some (kernel, session) =>
      recordId .kernelId some s.kernelId kernel <|
        recordId .sessionId some s.sessionId session <|
          if a.fault.isSome then .done
          else
            .assign .running (some s!"run({a.basename})") <|
              .assign .lastExecution (some (a.script, none, a.time)) <| .add .done

def clearRunningState (name : String) (s : SessionState) (terminalPruned : Option Bool) :
    Program (Option SessionState) :=
  match terminalPruned with
  | some true => pure none
  | some false => do
      match <- get name with
      | none => pure none
      | some s => do
          let s := { s with running := none }
          add s
          pure (some s)
  | none => do
      let s := { s with running := none }
      add s
      pure (some s)

/-- `unassign`, and what is done with the record after it. -/
def release (name endpoint : String) : Program Unit := do
  match <- unassign endpoint with
  | true => remove name
  | false => pure ()

def teardown (name : String) (s : SessionState) : Program Unit := do
  killRecorded s.keepAlivePid
  release name s.endpoint

/-- The `finally` of `run_command`. -/
def runEnd (name : String) (s : SessionState) (terminalPruned : Option Bool) (keep : Bool) :
    Program Unit := do
  let current <- clearRunningState name s terminalPruned
  if keep then pure () else teardown name (current.getD s)

/-- `run_command` -/
def run (o : Options) (a : RunAnswers) (keep : Bool) : Program Unit := do
  match <- provision o with
  | none => pure ()
  | some s =>
      match <- ofScript o.name (runScript a s) (some s) with
      | none => pure ()
      | some s =>
          if a.fault = some true then do
            let pruned <- pruneSession o.name false
            runEnd o.name s (some pruned) keep
          else runEnd o.name s none keep

/-!
## The other commands
-/

/-- `exec_command`: a session that is lost is pruned, and nothing else is done then. -/
def exec (session : Option String) (a : ExecAnswers) : Program Unit := do
  match <- resolveSession session with
  | none => pure ()
  | some name =>
      if a.fault = some true then do
        match <- ofScript name (execCommand { a with fault := some false }) none with
        | none => pure ()
        | some _ => do
            let _ <- pruneSession name false
            pure ()
      else do
        let _ <- ofScript name (execCommand a) none
        pure ()

def stop (session : Option String) : Program Unit := do
  match <- resolveSession session with
  | none => pure ()
  | some name =>
      match <- get name with
      | none => pure ()
      | some s => do
          killRecorded s.keepAlivePid
          killRecorded s.execPid
          release name s.endpoint

/-- `restart_kernel`, and the ids that its runtime finds. -/
def restartKernel (kernel session : Option String) : Script :=
  .get fun
    | none => .done
    | some s =>
        recordId .kernelId some s.kernelId kernel <|
          recordId .sessionId some s.sessionId session .done

/-- The commands, and the processes that they leave behind. -/
inductive Command where
  | new (o : Options)
  | run (o : Options) (a : RunAnswers) (keep : Bool)
  | exec (session : Option String) (a : ExecAnswers)
  | execAsync (session : Option String) (accepted : Bool) (logPath : String) (pid : Option Nat)
  | restartKernel (session kernelId sessionId : Option String)
  | stop (session : Option String)
  /-- `status` and `sessions` -/
  | sync
  | keepAlive (endpoint name : String) (ticks : List Tick)
  /-- `job status` on the session of a job -/
  | ensureKeepAlive (name : String) (alive : Bool) (pid : Option Nat)
  | jobTransport (name : String) (refreshes : List (Option (String × Option String)))

def Command.program : Command -> Program Unit
  | new o => Commands.new o
  | run o a keep => Commands.run o a keep
  | exec session a => Commands.exec session a
  | execAsync session accepted logPath pid =>
      onSession session (Session.execAsync accepted logPath pid)
  | restartKernel session kernelId sessionId =>
      onSession session (Commands.restartKernel kernelId sessionId)
  | stop session => Commands.stop session
  | sync => do
      let _ <- syncSessions
      pure ()
  | keepAlive endpoint name ticks => do
      let _ <- ofScript name (Session.keepAlive endpoint ticks 0) none
      pure ()
  | ensureKeepAlive name alive pid => do
      let _ <- ofScript name (Session.ensureKeepAlive alive pid) none
      pure ()
  | jobTransport name refreshes => do
      let _ <- ofScript name (Session.jobTransport refreshes) none
      pure ()

/-!
## The commands and their scripts
-/

def Call.scripted : Call -> Bool
  | get _ | add _ | remove _ | kill _ => true
  | list | assign _ | ping _ | unassign _ | assignments => false

def listedAt (s : SessionState) : Option (List Assignment) -> Listed
  | none => .failed
  | some found =>
      match found.find? fun a => a.endpoint = s.endpoint with
      | none => .absent
      | some a => .present a.token a.url

section

variable {reply : (c : Call) -> c.Answer} {name : String} {s : SessionState}
variable {alpha beta : Type} {script : Script} {copy : Option SessionState}

theorem asked_scripted {c : Call} (hc : c.scripted = true)
    {f : c.Answer -> Calls Call Call.Answer alpha} {g : c.Answer -> Calls Call Call.Answer beta}
    (h : (Calls.asked reply (f (reply c))).filter Call.scripted =
      Calls.asked reply (g (reply c))) :
    (Calls.asked reply (Calls.ask c >>= f)).filter Call.scripted =
      Calls.asked reply (Calls.ask c >>= g) := by
  rw [Calls.asked_ask, Calls.asked_ask, List.filter_cons_of_pos hc, h]

theorem asked_unscripted {c : Call} (hc : c.scripted = false)
    {f : c.Answer -> Calls Call Call.Answer alpha} {calls : List Call}
    (h : (Calls.asked reply (f (reply c))).filter Call.scripted = calls) :
    (Calls.asked reply (Calls.ask c >>= f)).filter Call.scripted = calls := by
  rw [Calls.asked_ask, List.filter_cons_of_neg (by rw [hc]; exact Bool.false_ne_true), h]

theorem killRecorded_asked {pid : Option Nat} {gone : Bool}
    {rest : Unit -> Calls Call Call.Answer alpha}
    (h : (Calls.asked reply (rest ())).filter Call.scripted =
      Calls.asked reply (ofScript name script copy)) :
    (Calls.asked reply (killRecorded pid >>= rest)).filter Call.scripted =
      Calls.asked reply (ofScript name (Script.killRecorded pid gone script) copy) := by
  cases pid with
  | none => exact h
  | some pid =>
      by_cases hzero : pid = 0
      · rw [hzero]
        exact h
      · simp only [killRecorded, Script.killRecorded, Option.filter, hzero, ne_eq,
          not_false_eq_true, decide_true, if_true, if_false]
        exact asked_scripted rfl h

/-- Where nothing is known beforehand, `prune_session` is its script with the backend's word. -/
theorem pruneSession_asked (hget : reply (.get name) = some s) (gone : Bool) :
    (Calls.asked reply (pruneSession name false)).filter Call.scripted =
      Calls.asked reply
        (ofScript name (Session.pruneSession (listedAt s (reply .assignments)) gone) none) := by
  refine asked_scripted rfl ?_
  simp only [hget, Bool.false_eq_true, if_false]
  refine asked_unscripted rfl ?_
  unfold listedAt
  cases reply .assignments with
  | none => rfl
  | some found =>
      simp only
      cases found.find? fun a => a.endpoint = s.endpoint with
      | none => exact killRecorded_asked rfl
      | some a =>
          simp only
          split <;> rfl

theorem stop_asked (hname : name ≠ "") (hget : reply (.get name) = some s)
    (keepAliveGone execGone : Bool) :
    (Calls.asked reply (stop (some name))).filter Call.scripted =
      Calls.asked reply (ofScript name
        (Session.stop keepAliveGone execGone (reply (.unassign s.endpoint))) none) := by
  have hresolve : resolveSession (some name) = pure (some name) := by
    simp [resolveSession, Option.filter, hname]
  rw [stop, hresolve]
  refine asked_scripted rfl ?_
  simp only [hget]
  refine killRecorded_asked (killRecorded_asked ?_)
  refine asked_unscripted rfl ?_
  cases reply (.unassign s.endpoint) <;> rfl

end

end Commands
end Session
end MightyColab
