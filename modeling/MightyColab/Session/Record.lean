import MightyColab.Lib.SharedRecord

/-!
# The session record and its writers

`sessions.json` holds one record for each session. A command reads the record, changes
fields of its own copy between calls over the network, and adds the whole copy back.
-/

namespace MightyColab
namespace Session

structure SessionState where
  name : String
  token : String
  url : String
  endpoint : String
  variant : String := "DEFAULT"
  accelerator : String := "NONE"
  machineShape : String := "STANDARD"
  kernelId : Option String := none
  sessionId : Option String := none
  lastExecution : Option (String × Option String × String) := none
  running : Option String := none
  keepAlivePid : Option Nat := none
  lastKeepAlivePing : Option String := none
  keepAliveConsecutiveFailures : Nat := 0
  keepAliveDisabled : Bool := false
  execPid : Option Nat := none
  execLogPath : Option String := none
  deriving DecidableEq, Repr

/-- The fields that a command may set. -/
inductive Field where
  | token | url | kernelId | sessionId | lastExecution | running | keepAlivePid
  | lastKeepAlivePing | keepAliveConsecutiveFailures | execPid | execLogPath
  deriving DecidableEq, Repr

abbrev Field.Value : Field -> Type
  | token | url => String
  | kernelId | sessionId | running | lastKeepAlivePing | execLogPath => Option String
  | lastExecution => Option (String × Option String × String)
  | keepAlivePid | execPid => Option Nat
  | keepAliveConsecutiveFailures => Nat

def SessionState.view : (f : Field) -> SessionState -> f.Value
  | .token, s => s.token
  | .url, s => s.url
  | .kernelId, s => s.kernelId
  | .sessionId, s => s.sessionId
  | .lastExecution, s => s.lastExecution
  | .running, s => s.running
  | .keepAlivePid, s => s.keepAlivePid
  | .lastKeepAlivePing, s => s.lastKeepAlivePing
  | .keepAliveConsecutiveFailures, s => s.keepAliveConsecutiveFailures
  | .execPid, s => s.execPid
  | .execLogPath, s => s.execLogPath

/-- `s.field = value`. -/
def SessionState.set : (f : Field) -> f.Value -> SessionState -> SessionState
  | .token, value, s => { s with token := value }
  | .url, value, s => { s with url := value }
  | .kernelId, value, s => { s with kernelId := value }
  | .sessionId, value, s => { s with sessionId := value }
  | .lastExecution, value, s => { s with lastExecution := value }
  | .running, value, s => { s with running := value }
  | .keepAlivePid, value, s => { s with keepAlivePid := value }
  | .lastKeepAlivePing, value, s => { s with lastKeepAlivePing := value }
  | .keepAliveConsecutiveFailures, value, s => { s with keepAliveConsecutiveFailures := value }
  | .execPid, value, s => { s with execPid := value }
  | .execLogPath, value, s => { s with execLogPath := value }

@[simp] theorem SessionState.view_set_self (f : Field) (value : f.Value) (s : SessionState) :
    (s.set f value).view f = value := by
  cases f <;> rfl

theorem SessionState.view_set_of_ne {f g : Field} (h : g ≠ f) (value : f.Value)
    (s : SessionState) : (s.set f value).view g = s.view g := by
  cases f <;> cases g <;> first | rfl | exact absurd rfl h

inductive Script where
  | done
  /-- `store.get`. -/
  | get (next : Option SessionState -> Script)
  | assign (f : Field) (value : f.Value) (next : Script)
  /-- `store.add` of the copy. -/
  | add (next : Script)
  /-- `store.remove`. -/
  | remove (next : Script)
  /-- `kill_process`, and whether the process is gone after it. -/
  | kill (pid : Nat) (gone : Bool) (next : Script)

namespace Script

/-- `kill_process` of a recorded process id, if there is one. -/
def killRecorded (pid : Option Nat) (gone : Bool) (next : Script) : Script :=
  match pid with
  | none => next
  | some pid => if pid = 0 then next else kill pid gone next

end Script

open Script

/-!
## The keep-alive daemon
-/

inductive Tick where
  | answered (time : String)
  | failed (code : Option Nat)

/-- The pings of `keep_alive`, with the number of refusals in a row so far. -/
def keepAlive (endpoint : String) : List Tick -> Nat -> Script
  | [], _ => done
  | tick :: rest, consecutive4xx =>
      get fun
        | none => done
        | some s =>
            if s.endpoint ≠ endpoint then done
            else
              match tick with
              | .answered time =>
                  assign .keepAliveConsecutiveFailures 0 <|
                    assign .lastKeepAlivePing (some time) <|
                      add <| keepAlive endpoint rest 0
              | .failed code =>
                  assign .keepAliveConsecutiveFailures (s.keepAliveConsecutiveFailures + 1) <|
                    add <|
                      if code.any fun code => 400 ≤ code ∧ code < 500 then
                        if consecutive4xx + 1 ≥ 2 then done
                        else keepAlive endpoint rest (consecutive4xx + 1)
                      else keepAlive endpoint rest consecutive4xx

/-- `_ensure_keep_alive`: `alive` when the daemon need not be started, and `pid` that of the
new one, if it could be. -/
def ensureKeepAlive (alive : Bool) (pid : Option Nat) : Script :=
  get fun
    | none => done
    | some _ =>
        match alive, pid with
        | false, some pid => assign .keepAlivePid (some pid) <| add done
        | _, _ => done

/-!
## Execution
-/

structure Block where
  identifier : Option String
  /-- When it is started. -/
  time : String
  raises : Bool

inductive Listed where
  | failed
  | absent
  | present (token url : String)

/-- What `exec` finds out. -/
structure ExecAnswers where
  /-- The ids of the kernel and of the session, once the client is connected. -/
  connected : Option (Option String × Option String)
  /-- The first code raised, and whether as a session that is lost. -/
  fault : Option Bool
  listed : Listed
  gone : Bool
  /-- The file, or `stdin`. -/
  source : String
  blocks : List Block

def pruneSession (listed : Listed) (gone : Bool) : Script :=
  get fun
    | none => remove done
    | some s =>
        match listed with
        | .failed => done
        | .absent => killRecorded s.keepAlivePid gone <| remove done
        | .present token url =>
            if token ≠ s.token ∨ url ≠ s.url then
              assign .token token <| assign .url url <| add done
            else done

def execBlocks (source : String) : List Block -> Script
  | [] => assign .running none <| add done
  | block :: rest =>
      assign .lastExecution (some (source, block.identifier, block.time)) <|
        add <| if block.raises then assign .running none <| add done else execBlocks source rest

def recordId (f : Field) (value : String -> f.Value) (before found : Option String)
    (next : Script) : Script :=
  if before.getD "" = "" ∧ found.getD "" ≠ "" then
    assign f (value (found.getD "")) <| add next
  else next

def execCommand (a : ExecAnswers) : Script :=
  get fun
    | none => done
    | some s =>
        let lost := if a.fault.getD false then pruneSession a.listed a.gone else done
        match a.connected with
        | none => lost
        | some (kernel, session) =>
            recordId .kernelId some s.kernelId kernel <|
              recordId .sessionId some s.sessionId session <|
                if a.fault.isSome then lost
                else
                  assign .running (some s!"exec({a.source})") <|
                    add <| execBlocks a.source a.blocks

/-- `exec_async`: whether it goes as far as starting the worker, the log path, and the
worker's process id if it was started. -/
def execAsync (accepted : Bool) (logPath : String) (pid : Option Nat) : Script :=
  get fun
    | none => done
    | some _ =>
        if !accepted then done
        else
          assign .execLogPath (some logPath) <|
            add <|
              match pid with
              | none => done
              | some pid => assign .execPid (some pid) <| add done

/-!
## The job transport, and `stop`
-/

/-- The refreshes of one `JobTransport`, each with the token and the URL that the listing
had, if it had any. -/
def refreshTokens : List (Option (String × Option String)) -> Script
  | [] => done
  | none :: rest => refreshTokens rest
  | some (token, none) :: rest => assign .token token <| add <| refreshTokens rest
  | some (token, some url) :: rest =>
      assign .token token <| assign .url url <| add <| refreshTokens rest

def jobTransport (refreshes : List (Option (String × Option String))) : Script :=
  get fun
    | none => done
    | some _ => refreshTokens refreshes

/-- `stop`: which processes are gone after they were signalled, and whether the VM could be
unassigned. -/
def stop (keepAliveGone execGone unassigned : Bool) : Script :=
  get fun
    | none => done
    | some s =>
        killRecorded s.keepAlivePid keepAliveGone <|
          killRecorded s.execPid execGone <|
            if unassigned then remove done else done

end Session
end MightyColab
