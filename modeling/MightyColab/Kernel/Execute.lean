import MightyColab.Lib.Json
import MightyColab.Lib.Runs
import Mathlib.Logic.Function.Basic

/-!
# One execution over the kernel's WebSocket

`execute_interactive` on its own thread, and the WebSocket's thread, which queues what arrives
and then sets one event. Either may go on between any two steps of the other.
-/

namespace MightyColab
namespace Kernel

open Lib

structure KernelMsg where
  msgType : String
  /-- `parent_header.get("msg_id")` -/
  parent : Option String
  content : Json.Fields

inductive Channel where
  | shell
  | iopub
  | stdin
  | control
  deriving DecidableEq

inductive HookError where
  /-- `queue.Empty` or `TimeoutError` -/
  | timeout
  | other (text : String)
  deriving DecidableEq

/-- One call: the id of its request, its arguments, and its hooks, of which that for the output
works on the outputs so far. -/
structure Request (alpha : Type) where
  msgId : String
  allowStdin : Bool
  /-- `timeout is not None` -/
  timed : Bool
  outputHook : alpha -> KernelMsg -> Except HookError alpha
  stdinHook : KernelMsg -> Except HookError Unit

inductive Outcome where
  | returned (reply : KernelMsg)
  | connectionLost
  /-- `TimeoutError("Timeout waiting for reply")` -/
  | timedOut
  | raised (e : HookError)
  /-- a status without `execution_state` -/
  | keyError
  | stdinRaised (e : HookError)

inductive Point where
  | clearing
  | ready
  | flushing
  | sending
  | top
  | waiting
  | askStdin
  | askIopub
  | checkIopub
  | checkStdin
  | clear
  | recvReply
  | done (o : Outcome)

structure State (alpha : Type) where
  /-- the messages that are queued -/
  queue : Channel -> List KernelMsg
  /-- all that ever were -/
  came : Channel -> List KernelMsg
  /-- `_message_received` -/
  received : Bool
  /-- a message is queued, and the event not set for it -/
  pending : Bool := false
  /-- `connection_ready` -/
  connected : Bool
  outputs : alpha
  point : Point := .clearing

variable {alpha : Type}

namespace Request

variable (r : Request alpha)

def own (msg : KernelMsg) : Bool := msg.parent = some r.msgId

def idle (msg : KernelMsg) : Option Bool :=
  if msg.msgType = "status" then
    (msg.content.lookup "execution_state").map fun value => value.pyEq (.str "idle")
  else some false

end Request

namespace State

variable (s : State alpha)

def goTo (point : Point) : State alpha := { s with point }

def take (c : Channel) : State alpha :=
  { s with queue := Function.update s.queue c (s.queue c).tail }

variable {s}

@[simp] theorem take_queue (c : Channel) : (s.take c).queue c = (s.queue c).tail := by
  simp [take]

theorem take_queue_ne {c c' : Channel} (h : c' ≠ c) : (s.take c).queue c' = s.queue c' :=
  Function.update_of_ne h _ _

end State

def handle (r : Request alpha) (s : State alpha) (msg : KernelMsg) : State alpha :=
  if r.own msg then
    match r.outputHook s.outputs msg with
    | .error e => s.goTo (.done (.raised e))
    | .ok outputs =>
        match Request.idle msg with
        | none => { s with outputs }.goTo (.done .keyError)
        | some true => { s with outputs }.goTo .recvReply
        | some false => { s with outputs }.goTo .top
  else s.goTo .top

def clientStep (r : Request alpha) (s : State alpha) : Option (State alpha) :=
  match s.point with
  | .clearing => some ({ s with received := false }.goTo .ready)
  | .ready => some (s.goTo (if (s.queue .iopub).isEmpty then .sending else .flushing))
  | .flushing =>
      some (if (s.queue .iopub).isEmpty then s.goTo .sending else (s.take .iopub).goTo .flushing)
  | .sending => some (s.goTo .top)
  | .top => some (s.goTo (if s.connected then .waiting else .done .connectionLost))
  | .waiting =>
      if s.received then some (s.goTo (if r.allowStdin then .askStdin else .askIopub)) else none
  | .askStdin =>
      match s.queue .stdin with
      | [] => some (s.goTo .askIopub)
      | request :: _ =>
          match r.stdinHook request with
          | .ok () => some ((s.take .stdin).goTo .top)
          | .error .timeout => some ((s.take .stdin).goTo .askIopub)
          | .error (.other text) => some ((s.take .stdin).goTo (.done (.stdinRaised (.other text))))
  | .askIopub =>
      match s.queue .iopub with
      | [] => some (s.goTo .checkIopub)
      | msg :: _ => some (handle r (s.take .iopub) msg)
  | .checkIopub =>
      some (s.goTo (if (s.queue .iopub).isEmpty then
          (if r.allowStdin then .checkStdin else .clear)
        else .top))
  | .checkStdin => some (s.goTo (if (s.queue .stdin).isEmpty then .clear else .top))
  | .clear => some ({ s with received := false }.goTo .top)
  | .recvReply =>
      match s.queue .shell with
      | [] => none
      | reply :: _ =>
          some ((s.take .shell).goTo
            (if r.own reply then .done (.returned reply) else .recvReply))
  | .done _ => none

inductive Action where
  /-- The WebSocket's thread queues a message. -/
  | put (c : Channel) (msg : KernelMsg)
  /-- It sets the event for the message that it has queued. -/
  | set
  | opened
  | closed
  | client
  /-- What the client waits for has not come in time. -/
  | timeout

def step (r : Request alpha) (s : State alpha) : Action -> Option (State alpha)
  | .put c msg =>
      if s.pending then none
      else some { s with
        queue := Function.update s.queue c (s.queue c ++ [msg])
        came := Function.update s.came c (s.came c ++ [msg])
        pending := true }
  | .set => if s.pending then some { s with pending := false, received := true } else none
  | .opened => if s.pending then none else some { s with connected := true }
  | .closed => if s.pending then none else some { s with connected := false }
  | .client => clientStep r s
  | .timeout =>
      if r.timed then
        match s.point with
        | .waiting => some (s.goTo (if r.allowStdin then .askStdin else .askIopub))
        | .recvReply => if (s.queue .shell).isEmpty then some (s.goTo (.done .timedOut)) else none
        | _ => none
      else none

structure Begins (r : Request alpha) (init : alpha) (s : State alpha) : Prop where
  point : s.point = .clearing
  outputs : s.outputs = init
  came : s.came = s.queue
  foreign : forall msg, msg ∈ s.queue .iopub -> r.own msg = false

def machine (r : Request alpha) (init : alpha) : Machine (State alpha) Action where
  start := Begins r init
  step := step r

/-!
## What the client makes of the messages
-/

inductive Consumed (alpha : Type) where
  | going (outputs : alpha)
  | finished (outputs : alpha)
  | raised (e : HookError)
  | keyError
  deriving DecidableEq

/-- The messages of the request, up to the status that ends its output, one after another. -/
def consume (r : Request alpha) (outputs : alpha) : List KernelMsg -> Consumed alpha
  | [] => .going outputs
  | msg :: rest =>
      if r.own msg then
        match r.outputHook outputs msg with
        | .error e => .raised e
        | .ok outputs =>
            match Request.idle msg with
            | none => .keyError
            | some true => .finished outputs
            | some false => consume r outputs rest
      else consume r outputs rest

variable {r : Request alpha} {init : alpha} {s next : State alpha}

theorem consume_append (outputs : alpha) (front back : List KernelMsg) :
    consume r outputs (front ++ back) =
      match consume r outputs front with
      | .going outputs => consume r outputs back
      | ended => ended := by
  induction front generalizing outputs with
  | nil => rfl
  | cons msg front ih =>
      rw [List.cons_append, consume, consume]
      split
      · cases r.outputHook outputs msg with
        | error e => rfl
        | ok outputs =>
            cases Request.idle msg with
            | none => rfl
            | some idle =>
                cases idle with
                | true => rfl
                | false => exact ih outputs
      · exact ih outputs

theorem consume_foreign {outputs : alpha} : forall {msgs : List KernelMsg},
    (forall msg, msg ∈ msgs -> r.own msg = false) -> consume r outputs msgs = .going outputs := by
  intro msgs
  induction msgs with
  | nil => exact fun _ => rfl
  | cons msg rest ih =>
      intro h
      rw [consume, h msg List.mem_cons_self, if_neg Bool.false_ne_true]
      exact ih fun msg hmem => h msg (List.mem_cons_of_mem _ hmem)

/-!
## What a step of the client does
-/

inductive Goes (r : Request alpha) (s : State alpha) : Point -> Point -> Prop where
  | drain : Goes r s .ready .flushing
  | drained {p : Point} (hp : p = .ready ∨ p = .flushing) (hqueue : s.queue .iopub = []) :
      Goes r s p .sending
  | send : Goes r s .sending .top
  | wait : Goes r s .top .waiting
  | lose : Goes r s .top (.done .connectionLost)
  | askStdin (hallow : r.allowStdin = true) : Goes r s .waiting .askStdin
  | askIopub {p : Point} (hp : p = .waiting ∨ p = .askStdin) : Goes r s p .askIopub
  | checkIopub : Goes r s .askIopub .checkIopub
  | checkStdin (hallow : r.allowStdin = true) (hqueue : s.queue .iopub = []) :
      Goes r s .checkIopub .checkStdin
  | clear (hqueue : s.queue .iopub = []) : Goes r s .checkIopub .clear
  | clearNext : Goes r s .checkStdin .clear
  | again {p : Point} (hp : p = .checkIopub ∨ p = .checkStdin) : Goes r s p .top
  | timeOut (htimed : r.timed = true) : Goes r s .recvReply (.done .timedOut)

/-- What a step of the client comes to, one constructor for each channel that it takes from. -/
inductive Moved (r : Request alpha) (s : State alpha) : State alpha -> Prop where
  | goes {p p' : Point} (hpoint : s.point = p) (hgoes : Goes r s p p') : Moved r s (s.goTo p')
  | begins (hpoint : s.point = .clearing) :
      Moved r s ({ s with received := false }.goTo .ready)
  | clears (hpoint : s.point = .clear) : Moved r s ({ s with received := false }.goTo .top)
  | flushes {msg : KernelMsg} {rest : List KernelMsg} (hpoint : s.point = .flushing)
      (hqueue : s.queue .iopub = msg :: rest) : Moved r s ((s.take .iopub).goTo .flushing)
  | handles {msg : KernelMsg} {rest : List KernelMsg} (hpoint : s.point = .askIopub)
      (hqueue : s.queue .iopub = msg :: rest) : Moved r s (handle r (s.take .iopub) msg)
  | answers {request : KernelMsg} {rest : List KernelMsg} {p' : Point}
      (hpoint : s.point = .askStdin) (hqueue : s.queue .stdin = request :: rest)
      (hnext : p' = .top ∨ p' = .askIopub ∨ exists e, p' = .done (.stdinRaised e) ∧
        r.stdinHook request = .error e) : Moved r s ((s.take .stdin).goTo p')
  | receives {reply : KernelMsg} {rest : List KernelMsg} (hpoint : s.point = .recvReply)
      (hqueue : s.queue .shell = reply :: rest) :
      Moved r s ((s.take .shell).goTo
        (if r.own reply then .done (.returned reply) else .recvReply))

theorem moved_asks (hpoint : s.point = .waiting) :
    Moved r s (s.goTo (if r.allowStdin then .askStdin else .askIopub)) := by
  split
  · next hallow => exact .goes hpoint (.askStdin hallow)
  · exact .goes hpoint (.askIopub (Or.inl rfl))

theorem client_moved (hstep : clientStep r s = some next) : Moved r s next := by
  unfold clientStep at hstep
  cases hpoint : s.point with
  | clearing =>
      simp only [hpoint, Option.some.injEq] at hstep
      rw [← hstep]
      exact .begins hpoint
  | ready =>
      simp only [hpoint, Option.some.injEq] at hstep
      rw [← hstep]
      split
      · next hempty => exact .goes hpoint (.drained (Or.inl rfl) (List.isEmpty_iff.mp hempty))
      · exact .goes hpoint .drain
  | flushing =>
      simp only [hpoint, Option.some.injEq] at hstep
      rw [← hstep]
      cases hqueue : s.queue .iopub with
      | nil => exact .goes hpoint (.drained (Or.inr rfl) hqueue)
      | cons msg rest => exact .flushes hpoint hqueue
  | sending =>
      simp only [hpoint, Option.some.injEq] at hstep
      rw [← hstep]
      exact .goes hpoint .send
  | top =>
      simp only [hpoint, Option.some.injEq] at hstep
      rw [← hstep]
      split
      · exact .goes hpoint .wait
      · exact .goes hpoint .lose
  | waiting =>
      simp only [hpoint] at hstep
      split at hstep
      · cases hstep
        exact moved_asks hpoint
      · cases hstep
  | askStdin =>
      cases hqueue : s.queue .stdin with
      | nil =>
          simp only [hpoint, hqueue, Option.some.injEq] at hstep
          rw [← hstep]
          exact .goes hpoint (.askIopub (Or.inr rfl))
      | cons request rest =>
          simp only [hpoint, hqueue] at hstep
          cases hhook : r.stdinHook request with
          | ok answered =>
              simp only [hhook, Option.some.injEq] at hstep
              rw [← hstep]
              exact .answers hpoint hqueue (Or.inl rfl)
          | error e =>
              cases e with
              | timeout =>
                  simp only [hhook, Option.some.injEq] at hstep
                  rw [← hstep]
                  exact .answers hpoint hqueue (Or.inr (Or.inl rfl))
              | other text =>
                  simp only [hhook, Option.some.injEq] at hstep
                  rw [← hstep]
                  exact .answers hpoint hqueue (Or.inr (Or.inr ⟨_, rfl, hhook⟩))
  | askIopub =>
      cases hqueue : s.queue .iopub with
      | nil =>
          simp only [hpoint, hqueue, Option.some.injEq] at hstep
          rw [← hstep]
          exact .goes hpoint .checkIopub
      | cons msg rest =>
          simp only [hpoint, hqueue, Option.some.injEq] at hstep
          rw [← hstep]
          exact .handles hpoint hqueue
  | checkIopub =>
      simp only [hpoint, Option.some.injEq] at hstep
      rw [← hstep]
      split
      · next hempty =>
          have hqueue : s.queue .iopub = [] := List.isEmpty_iff.mp hempty
          split
          · next hallow => exact .goes hpoint (.checkStdin hallow hqueue)
          · exact .goes hpoint (.clear hqueue)
      · exact .goes hpoint (.again (Or.inl rfl))
  | checkStdin =>
      simp only [hpoint, Option.some.injEq] at hstep
      rw [← hstep]
      split
      · exact .goes hpoint .clearNext
      · exact .goes hpoint (.again (Or.inr rfl))
  | clear =>
      simp only [hpoint, Option.some.injEq] at hstep
      rw [← hstep]
      exact .clears hpoint
  | recvReply =>
      cases hqueue : s.queue .shell with
      | nil =>
          simp only [hpoint, hqueue] at hstep
          cases hstep
      | cons reply rest =>
          simp only [hpoint, hqueue, Option.some.injEq] at hstep
          rw [← hstep]
          exact .receives hpoint hqueue
  | done o =>
      simp only [hpoint] at hstep
      cases hstep

/-- What a step does: the WebSocket's, one for each, or the client's, which may run out of
time. -/
theorem step_cases {a : Action} (hstep : step r s a = some next) :
    (exists c msg, a = .put c msg ∧ next = { s with
      queue := Function.update s.queue c (s.queue c ++ [msg])
      came := Function.update s.came c (s.came c ++ [msg])
      pending := true }) ∨
      (a = .set ∧ next = { s with pending := false, received := true }) ∨
        (exists connected, next = { s with connected }) ∨ Moved r s next := by
  cases a with
  | put c msg =>
      rw [step] at hstep
      split at hstep
      · cases hstep
      · cases hstep
        exact Or.inl ⟨c, msg, rfl, rfl⟩
  | set =>
      rw [step] at hstep
      split at hstep
      · cases hstep
        exact Or.inr (Or.inl ⟨rfl, rfl⟩)
      · cases hstep
  | opened | closed =>
      rw [step] at hstep
      split at hstep
      · cases hstep
      · cases hstep
        exact Or.inr (Or.inr (Or.inl ⟨_, rfl⟩))
  | client => exact Or.inr (Or.inr (Or.inr (client_moved hstep)))
  | timeout =>
      refine Or.inr (Or.inr (Or.inr ?_))
      rw [step] at hstep
      split at hstep
      · next htimed =>
          cases hpoint : s.point with
          | waiting =>
              simp only [hpoint, Option.some.injEq] at hstep
              rw [← hstep]
              exact moved_asks hpoint
          | recvReply =>
              simp only [hpoint] at hstep
              split at hstep
              · cases hstep
                exact .goes hpoint (.timeOut htimed)
              · cases hstep
          | _ =>
              simp only [hpoint] at hstep
              cases hstep
      · cases hstep

/-!
## How far a call has come
-/

namespace Point

def sent : Point -> Bool
  | .clearing | .ready | .flushing | .sending => false
  | _ => true

def soFar (outputs : alpha) : Point -> Consumed alpha
  | .recvReply | .done (.returned _) | .done .timedOut => .finished outputs
  | .done (.raised e) => .raised e
  | .done .keyError => .keyError
  | _ => .going outputs

def answer : Point -> Option KernelMsg
  | .done (.returned reply) => some reply
  | _ => none

/-- What a call has to be for its client to be here, where its messages do not tell. -/
def Excused (r : Request alpha) (came : Channel -> List KernelMsg) : Point -> Prop
  | .askStdin | .checkStdin => r.allowStdin = true
  | .done .timedOut => r.timed = true
  | .done (.stdinRaised e) => r.allowStdin = true ∧
      exists request, request ∈ came .stdin ∧ r.stdinHook request = .error e
  | _ => True

end Point

/-- The client has taken the messages of each channel in the order in which they came, and goes
by those that are its request's. -/
structure Follows (r : Request alpha) (init : alpha) (s : State alpha) : Prop where
  iopub : exists taken, s.came .iopub = taken ++ s.queue .iopub ∧
    consume r init taken = s.point.soFar s.outputs
  unsent : s.point.sent = false -> s.outputs = init ∧
    forall msg, msg ∈ s.came .iopub -> r.own msg = false
  shell : exists taken, s.came .shell = taken ++ s.queue .shell ∧
    taken.find? r.own = s.point.answer
  stdin : exists taken, s.came .stdin = taken ++ s.queue .stdin
  excused : s.point.Excused r s.came

namespace Follows

theorem begins (h : Begins r init s) : Follows r init s where
  iopub := ⟨[], by rw [h.came]; rfl, by rw [h.point, h.outputs]; rfl⟩
  unsent _ := ⟨h.outputs, by rw [h.came]; exact h.foreign⟩
  shell := ⟨[], by rw [h.came]; rfl, by rw [h.point]; rfl⟩
  stdin := ⟨[], by rw [h.came]; rfl⟩
  excused := by rw [h.point]; trivial

theorem move {p p' : Point} {received : Bool} (h : Follows r init s) (hpoint : s.point = p)
    (hsoFar : p'.soFar s.outputs = p.soFar s.outputs) (hanswer : p'.answer = p.answer)
    (hsent : p'.sent = false -> p.sent = false) (hexcused : p'.Excused r s.came) :
    Follows r init { s with received, point := p' } where
  iopub := by
    rcases h.iopub with ⟨taken, hcame, htaken⟩
    rw [hpoint] at htaken
    exact ⟨taken, hcame, htaken.trans hsoFar.symm⟩
  unsent hp := h.unsent (by rw [hpoint]; exact hsent hp)
  shell := by
    rcases h.shell with ⟨taken, hcame, htaken⟩
    rw [hpoint] at htaken
    exact ⟨taken, hcame, htaken.trans hanswer.symm⟩
  stdin := h.stdin
  excused := hexcused

theorem came_take {c : Channel} {msg : KernelMsg} {rest taken : List KernelMsg}
    (hqueue : s.queue c = msg :: rest) (hcame : s.came c = taken ++ s.queue c) :
    s.came c = (taken ++ [msg]) ++ (s.take c).queue c := by
  rw [State.take_queue, hcame, hqueue, List.tail_cons, List.append_cons]

theorem take_stdin {request : KernelMsg} {rest : List KernelMsg} (h : Follows r init s)
    (hqueue : s.queue .stdin = request :: rest) : Follows r init (s.take .stdin) where
  iopub := h.iopub
  unsent := h.unsent
  shell := h.shell
  stdin := by
    rcases h.stdin with ⟨taken, hcame⟩
    exact ⟨_, came_take hqueue hcame⟩
  excused := h.excused

theorem take_iopub {p p' : Point} {outputs : alpha} {msg : KernelMsg} {rest : List KernelMsg}
    (h : Follows r init s) (hqueue : s.queue .iopub = msg :: rest) (hpoint : s.point = p)
    (hgoing : p.soFar s.outputs = .going s.outputs)
    (hnext : consume r s.outputs [msg] = p'.soFar outputs) (hanswer : p'.answer = p.answer)
    (hsent : p'.sent = false -> p.sent = false ∧ outputs = s.outputs)
    (hexcused : p'.Excused r s.came) :
    Follows r init { s.take .iopub with outputs, point := p' } where
  iopub := by
    rcases h.iopub with ⟨taken, hcame, htaken⟩
    refine ⟨taken ++ [msg], came_take hqueue hcame, ?_⟩
    rw [consume_append, htaken, hpoint, hgoing]
    exact hnext
  unsent hp := by
    rcases h.unsent (by rw [hpoint]; exact (hsent hp).left) with ⟨hinit, hforeign⟩
    exact ⟨(hsent hp).right.trans hinit, hforeign⟩
  shell := by
    rcases h.shell with ⟨taken, hcame, htaken⟩
    rw [hpoint] at htaken
    exact ⟨taken, hcame, htaken.trans hanswer.symm⟩
  stdin := h.stdin
  excused := hexcused

theorem handled {msg : KernelMsg} {rest : List KernelMsg} (h : Follows r init s)
    (hqueue : s.queue .iopub = msg :: rest) (hpoint : s.point = .askIopub) :
    Follows r init (handle r (s.take .iopub) msg) := by
  have hsent {p : Prop} (hp : true = false) : p := by cases hp
  unfold handle
  split
  · next hown =>
      have houtputs : (s.take .iopub).outputs = s.outputs := rfl
      rw [houtputs]
      cases hhook : r.outputHook s.outputs msg with
      | error e =>
          exact h.take_iopub hqueue hpoint rfl (by simp [consume, hown, hhook, Point.soFar]) rfl
            hsent trivial
      | ok outputs =>
          cases hidle : Request.idle msg with
          | none =>
              exact h.take_iopub hqueue hpoint rfl
                (by simp [consume, hown, hhook, hidle, Point.soFar]) rfl hsent trivial
          | some idle =>
              cases idle <;>
                exact h.take_iopub hqueue hpoint rfl
                  (by simp [consume, hown, hhook, hidle, Point.soFar]) rfl hsent trivial
  · next hown =>
      refine h.take_iopub hqueue hpoint rfl ?_ rfl hsent trivial
      simp [consume, hown, Point.soFar, State.take]

theorem take_shell {p' : Point} {reply : KernelMsg} {rest : List KernelMsg}
    (h : Follows r init s) (hqueue : s.queue .shell = reply :: rest)
    (hpoint : s.point = .recvReply) (hsoFar : p'.soFar s.outputs = .finished s.outputs)
    (hanswer : [reply].find? r.own = p'.answer) (hsent : p'.sent = true)
    (hexcused : p'.Excused r s.came) :
    Follows r init { s.take .shell with point := p' } where
  iopub := by
    rcases h.iopub with ⟨taken, hcame, htaken⟩
    rw [hpoint] at htaken
    exact ⟨taken, hcame, htaken.trans hsoFar.symm⟩
  unsent hp := by
    rw [hsent] at hp
    cases hp
  shell := by
    rcases h.shell with ⟨taken, hcame, htaken⟩
    rw [hpoint] at htaken
    refine ⟨taken ++ [reply], came_take hqueue hcame, ?_⟩
    rw [List.find?_append, htaken]
    exact hanswer
  stdin := h.stdin
  excused := hexcused

end Follows

theorem goes_follows {p p' : Point} (h : Follows r init s) (hpoint : s.point = p)
    (hgoes : Goes r s p p') : Follows r init (s.goTo p') := by
  have hsent {p : Prop} (hp : true = false) : p := by cases hp
  cases hgoes with
  | drain => exact h.move hpoint rfl rfl (fun _ => rfl) trivial
  | drained hp _ =>
      rcases hp with hp | hp
      all_goals
        rw [hp] at hpoint
        exact h.move hpoint rfl rfl (fun _ => rfl) trivial
  | send => exact h.move hpoint rfl rfl hsent trivial
  | wait => exact h.move hpoint rfl rfl hsent trivial
  | lose => exact h.move hpoint rfl rfl hsent trivial
  | askStdin hallow => exact h.move hpoint rfl rfl hsent hallow
  | askIopub hp =>
      rcases hp with hp | hp
      all_goals
        rw [hp] at hpoint
        exact h.move hpoint rfl rfl hsent trivial
  | checkIopub => exact h.move hpoint rfl rfl hsent trivial
  | checkStdin hallow _ => exact h.move hpoint rfl rfl hsent hallow
  | clear _ => exact h.move hpoint rfl rfl hsent trivial
  | clearNext => exact h.move hpoint rfl rfl hsent trivial
  | again hp =>
      rcases hp with hp | hp
      all_goals
        rw [hp] at hpoint
        exact h.move hpoint rfl rfl hsent trivial
  | timeOut htimed => exact h.move hpoint rfl rfl hsent htimed

theorem moved_follows (h : Follows r init s) (hmoved : Moved r s next) :
    Follows r init next := by
  have hsent {p : Prop} (hp : true = false) : p := by cases hp
  cases hmoved with
  | goes hpoint hgoes => exact goes_follows h hpoint hgoes
  | begins hpoint => exact h.move hpoint rfl rfl id trivial
  | clears hpoint => exact h.move hpoint rfl rfl hsent trivial
  | @flushes msg rest hpoint hqueue =>
      rcases h.iopub with ⟨taken, hcame, _⟩
      have hown : r.own msg = false := by
        refine (h.unsent (by rw [hpoint]; rfl)).right msg ?_
        rw [hcame, hqueue]
        exact List.mem_append_right _ List.mem_cons_self
      refine h.take_iopub hqueue hpoint rfl ?_ rfl (fun _ => ⟨rfl, rfl⟩) trivial
      simp [consume, hown, Point.soFar, State.take]
  | handles hpoint hqueue => exact h.handled hqueue hpoint
  | @answers request rest p' hpoint hqueue hnext =>
      have htake := h.take_stdin hqueue
      rcases hnext with rfl | rfl | ⟨e, rfl, hhook⟩
      · exact htake.move hpoint rfl rfl hsent trivial
      · exact htake.move hpoint rfl rfl hsent trivial
      · rcases h.stdin with ⟨taken, hcame⟩
        have hallow := h.excused
        rw [hpoint] at hallow
        have hmem : request ∈ s.came .stdin := by
          rw [hcame, hqueue]
          exact List.mem_append_right _ List.mem_cons_self
        exact htake.move hpoint rfl rfl hsent ⟨hallow, request, hmem, hhook⟩
  | receives hpoint hqueue =>
      split
      · next hown =>
          exact h.take_shell hqueue hpoint rfl (by simp [hown, Point.answer]) rfl trivial
      · next hown =>
          exact h.take_shell hqueue hpoint rfl (by simp [hown, Point.answer]) rfl trivial

/-- No message of the output comes before its request is sent. -/
def Causal (r : Request alpha) (s : State alpha) : Action -> Prop
  | .put .iopub msg => r.own msg = true -> s.point.sent = true
  | _ => True

instance (r : Request alpha) (s : State alpha) : forall a, Decidable (Causal r s a)
  | .put .iopub msg => inferInstanceAs (Decidable (r.own msg = true -> s.point.sent = true))
  | .put .shell _ | .put .stdin _ | .put .control _ => inferInstanceAs (Decidable True)
  | .set | .opened | .closed | .client | .timeout => inferInstanceAs (Decidable True)

theorem came_put {c c' : Channel} {msg : KernelMsg} {taken : List KernelMsg}
    (h : s.came c' = taken ++ s.queue c') :
    Function.update s.came c (s.came c ++ [msg]) c' =
      taken ++ Function.update s.queue c (s.queue c ++ [msg]) c' := by
  by_cases hc : c' = c
  · rw [hc] at h ⊢
    rw [Function.update_self, Function.update_self, h, List.append_assoc]
  · rw [Function.update_of_ne hc, Function.update_of_ne hc, h]

theorem subset_put (s : State alpha) (c c' : Channel) {msg : KernelMsg} :
    s.came c' ⊆ Function.update s.came c (s.came c ++ [msg]) c' := by
  by_cases hc : c' = c
  · rw [hc, Function.update_self]
    exact List.subset_append_left _ _
  · rw [Function.update_of_ne hc]
    exact fun _ => id

theorem mem_put {c c' : Channel} {msg msg' : KernelMsg}
    (h : msg' ∈ Function.update s.came c (s.came c ++ [msg]) c') :
    msg' ∈ s.came c' ∨ c = c' ∧ msg' = msg := by
  by_cases hc : c' = c
  · rw [hc, Function.update_self, List.mem_append, List.mem_singleton] at h
    exact h.imp (by rw [hc]; exact id) fun h => ⟨hc.symm, h⟩
  · rw [Function.update_of_ne hc] at h
    exact Or.inl h

theorem Point.Excused.mono {p : Point} {came came' : Channel -> List KernelMsg}
    (h : p.Excused r came) (hcame : came .stdin ⊆ came' .stdin) : p.Excused r came' := by
  unfold Point.Excused at *
  split
  · exact h
  · exact h
  · exact h
  · rcases h with ⟨hallow, request, hmem, hhook⟩
    exact ⟨hallow, request, hcame hmem, hhook⟩
  · trivial

theorem put_follows (h : Follows r init s) {c : Channel} {msg : KernelMsg} {pending : Bool}
    (hcausal : Causal r s (.put c msg)) :
    Follows r init { s with
      queue := Function.update s.queue c (s.queue c ++ [msg])
      came := Function.update s.came c (s.came c ++ [msg])
      pending } where
  iopub := by
    rcases h.iopub with ⟨taken, hcame, htaken⟩
    exact ⟨taken, came_put hcame, htaken⟩
  unsent hp := by
    rcases h.unsent hp with ⟨hinit, hforeign⟩
    refine ⟨hinit, fun msg' hmem => ?_⟩
    rcases mem_put hmem with hmem | ⟨rfl, rfl⟩
    · exact hforeign msg' hmem
    · rw [← Bool.not_eq_true]
      intro hown
      have hsent : s.point.sent = true := hcausal hown
      rw [hp] at hsent
      cases hsent
  shell := by
    rcases h.shell with ⟨taken, hcame, htaken⟩
    exact ⟨taken, came_put hcame, htaken⟩
  stdin := by
    rcases h.stdin with ⟨taken, hcame⟩
    exact ⟨taken, came_put hcame⟩
  excused := h.excused.mono (subset_put _ _ _)

theorem step_follows (h : Follows r init s) {a : Action} (hcausal : Causal r s a)
    (hstep : step r s a = some next) : Follows r init next := by
  rcases step_cases hstep with ⟨c, msg, ha, hnext⟩ | ⟨_, hnext⟩ | ⟨connected, hnext⟩ | hmoved
  · rw [ha] at hcausal
    rw [hnext]
    exact put_follows h hcausal
  · rw [hnext]
    exact ⟨h.iopub, h.unsent, h.shell, h.stdin, h.excused⟩
  · rw [hnext]
    exact ⟨h.iopub, h.unsent, h.shell, h.stdin, h.excused⟩
  · exact moved_follows h hmoved

theorem follows_preserved : (machine r init).Preserved (Causal r) (Follows r init) :=
  fun _ _ _ hs hcausal hstep => step_follows hs hcausal hstep

/-- What a call that has ended stands for. -/
def Accounts (r : Request alpha) (init : alpha) (s : State alpha) : Outcome -> Prop
  | .returned reply => consume r init (s.came .iopub) = .finished s.outputs ∧
      (s.came .shell).find? r.own = some reply
  | .timedOut => r.timed = true ∧ consume r init (s.came .iopub) = .finished s.outputs
  | .raised e => consume r init (s.came .iopub) = .raised e
  | .keyError => consume r init (s.came .iopub) = .keyError
  | .stdinRaised e => r.allowStdin = true ∧
      exists request, request ∈ s.came .stdin ∧ r.stdinHook request = .error e
  | .connectionLost => exists taken rest, s.came .iopub = taken ++ rest ∧
      consume r init taken = .going s.outputs

theorem Follows.accounts {o : Outcome} (h : Follows r init s) (hdone : s.point = .done o) :
    Accounts r init s o := by
  rcases h.iopub with ⟨taken, hcame, htaken⟩
  rcases h.shell with ⟨replies, hshell, hanswer⟩
  have hexcused := h.excused
  rw [hdone] at htaken hanswer hexcused
  cases o with
  | returned reply =>
      refine ⟨?_, ?_⟩
      · rw [hcame, consume_append, htaken]
        rfl
      · rw [hshell, List.find?_append, hanswer]
        rfl
  | timedOut =>
      refine ⟨hexcused, ?_⟩
      rw [hcame, consume_append, htaken]
      rfl
  | raised e =>
      rw [Accounts, hcame, consume_append, htaken]
      rfl
  | keyError =>
      rw [Accounts, hcame, consume_append, htaken]
      rfl
  | stdinRaised e => exact hexcused
  | connectionLost => exact ⟨taken, _, hcame, htaken⟩

/-- However its messages come in between its steps, and whatever else comes, a call hands its
hook those of its own request in their order up to the first idle status, returns the first
reply to its request, and gives up for want of time only after that status. -/
theorem execute_accounts {o : Outcome} (h : (machine r init).Reaches (Causal r) s)
    (hdone : s.point = .done o) : Accounts r init s o :=
  (Machine.reaches_invariant (fun _ => Follows.begins) follows_preserved h).accounts hdone

theorem Point.answer_eq_some {p : Point} {reply : KernelMsg} (h : p.answer = some reply) :
    p = .done (.returned reply) := by
  unfold Point.answer at h
  split at h
  · cases h
    rfl
  · cases h

def counting : Request Nat where
  msgId := "m"
  allowStdin := false
  timed := false
  outputHook n _ := .ok (n + 1)
  stdinHook _ := .ok ()

def fresh : State Nat where
  queue _ := []
  came _ := []
  received := false
  connected := true
  outputs := 0

theorem fresh_begins : Begins counting 0 fresh := ⟨rfl, rfl, rfl, fun _ hmem => by cases hmem⟩

def streamed : KernelMsg := ⟨"stream", some "m", []⟩

def idled : KernelMsg := ⟨"status", some "m", [("execution_state", .str "idle")]⟩

def replied : KernelMsg := ⟨"execute_reply", some "m", [("status", .str "ok")]⟩

def twoTurns : List Action :=
  [.client, .client, .client, .put .iopub streamed, .set, .client, .client, .client,
    .put .shell replied, .set, .put .iopub idled, .set]

theorem execute_accounts_twoTurns : exists s reply, s.point = .done (.returned reply) ∧
    consume counting 0 (s.came .iopub) = .finished 2 ∧
      Accounts counting 0 s (.returned reply) := by
  have hrun : ((machine counting 0).exec fresh (twoTurns ++ List.replicate 4 .client)).map
      (fun s => (s.point.answer.isSome, decide (consume counting 0 (s.came .iopub) =
        .finished 2))) = some (true, true) := by
    decide
  rcases Option.map_eq_some_iff.mp hrun with ⟨s, hexec, hends⟩
  rcases Prod.mk.inj hends with ⟨hanswer, houtput⟩
  rcases Option.isSome_iff_exists.mp hanswer with ⟨reply, hreply⟩
  have hguard : (machine counting 0).Guarded (Causal counting) fresh
      (twoTurns ++ List.replicate 4 .client) := by
    decide
  exact ⟨s, reply, Point.answer_eq_some hreply, of_decide_eq_true houtput,
    execute_accounts ⟨fresh, _, fresh_begins, hguard, hexec⟩ (Point.answer_eq_some hreply)⟩

/-!
## Messages that the client is not told of
-/

def Point.window : Point -> Bool
  | .checkStdin | .clear => true
  | _ => false

def Point.drained : Point -> Bool
  | .clearing | .ready | .flushing => false
  | _ => true

/-- No message of the output comes between the client's last look at its queue and the clearing
of the event. -/
def Timely (s : State alpha) : Action -> Prop
  | .put .iopub _ => s.point.window = false
  | _ => True

instance (s : State alpha) : forall a, Decidable (Timely s a)
  | .put .iopub _ => inferInstanceAs (Decidable (s.point.window = false))
  | .put .shell _ | .put .stdin _ | .put .control _ => inferInstanceAs (Decidable True)
  | .set | .opened | .closed | .client | .timeout => inferInstanceAs (Decidable True)

structure Awake (s : State alpha) : Prop where
  told : s.point.drained = true -> s.queue .iopub ≠ [] -> s.received = true ∨ s.pending = true
  seen : s.point.window = true -> s.queue .iopub = []

namespace Awake

theorem move {p p' : Point} (h : Awake s) (hpoint : s.point = p)
    (hdrained : p'.drained = true -> p.drained = true ∨ s.queue .iopub = [])
    (hseen : p'.window = true -> s.queue .iopub = []) : Awake (s.goTo p') where
  told hp hqueue := h.told (by rw [hpoint]; exact (hdrained hp).resolve_right hqueue) hqueue
  seen := hseen

theorem take_iopub {p p' : Point} {outputs : alpha} (h : Awake s) (hpoint : s.point = p)
    (hdrained : p'.drained = true -> p.drained = true) (hwindow : p'.window = false) :
    Awake { s.take .iopub with outputs, point := p' } where
  told hp hqueue := by
    refine h.told (by rw [hpoint]; exact hdrained hp) fun hnil => hqueue ?_
    exact (State.take_queue .iopub).trans (congrArg List.tail hnil)
  seen hp := by
    have hwindow' : p'.window = true := hp
    rw [hwindow] at hwindow'
    cases hwindow'

theorem handled (h : Awake s) (hpoint : s.point = .askIopub) (msg : KernelMsg) :
    Awake (handle r (s.take .iopub) msg) := by
  unfold handle
  split
  · cases r.outputHook (s.take .iopub).outputs msg with
    | error e => exact h.take_iopub hpoint (fun _ => rfl) rfl
    | ok outputs =>
        cases Request.idle msg with
        | none => exact h.take_iopub hpoint (fun _ => rfl) rfl
        | some idle => cases idle <;> exact h.take_iopub hpoint (fun _ => rfl) rfl
  · exact h.take_iopub hpoint (fun _ => rfl) rfl

theorem take_other {c : Channel} (h : Awake s) (hc : Channel.iopub ≠ c) : Awake (s.take c) where
  told hp hqueue := h.told hp fun hnil => hqueue ((State.take_queue_ne hc).trans hnil)
  seen hp := (State.take_queue_ne hc).trans (h.seen hp)

end Awake

theorem goes_awake {p p' : Point} (h : Awake s) (hpoint : s.point = p)
    (hgoes : Goes r s p p') : Awake (s.goTo p') := by
  have hfalse {p : Prop} (hp : false = true) : p := by cases hp
  cases hgoes with
  | drain => exact h.move hpoint hfalse hfalse
  | drained _ hqueue => exact h.move hpoint (fun _ => Or.inr hqueue) hfalse
  | send => exact h.move hpoint Or.inl hfalse
  | wait => exact h.move hpoint Or.inl hfalse
  | lose => exact h.move hpoint Or.inl hfalse
  | askStdin _ => exact h.move hpoint Or.inl hfalse
  | askIopub hp =>
      rcases hp with hp | hp
      all_goals
        rw [hp] at hpoint
        exact h.move hpoint Or.inl hfalse
  | checkIopub => exact h.move hpoint Or.inl hfalse
  | checkStdin _ hqueue => exact h.move hpoint Or.inl fun _ => hqueue
  | clear hqueue => exact h.move hpoint Or.inl fun _ => hqueue
  | clearNext => exact h.move hpoint Or.inl fun _ => h.seen (by rw [hpoint]; rfl)
  | again hp =>
      rcases hp with hp | hp
      all_goals
        rw [hp] at hpoint
        exact h.move hpoint Or.inl hfalse
  | timeOut _ => exact h.move hpoint Or.inl hfalse

theorem moved_awake (h : Awake s) (hmoved : Moved r s next) : Awake next := by
  have hfalse {p : Prop} (hp : false = true) : p := by cases hp
  cases hmoved with
  | goes hpoint hgoes => exact goes_awake h hpoint hgoes
  | begins hpoint => exact ⟨hfalse, hfalse⟩
  | clears hpoint =>
      have hnil : s.queue .iopub = [] := h.seen (by rw [hpoint]; rfl)
      exact ⟨fun _ hqueue => absurd hnil hqueue, hfalse⟩
  | flushes hpoint hqueue => exact h.take_iopub hpoint hfalse rfl
  | handles hpoint hqueue => exact h.handled hpoint _
  | answers hpoint hqueue hnext =>
      have htake := h.take_other (c := .stdin) (fun hc => by cases hc)
      rcases hnext with rfl | rfl | ⟨e, rfl, _⟩ <;> exact htake.move hpoint Or.inl hfalse
  | receives hpoint hqueue =>
      have htake := h.take_other (c := .shell) (fun hc => by cases hc)
      split <;> exact htake.move hpoint Or.inl hfalse

theorem step_awake (h : Awake s) {a : Action} (htimely : Timely s a)
    (hstep : step r s a = some next) : Awake next := by
  rcases step_cases hstep with ⟨c, msg, ha, hnext⟩ | ⟨_, hnext⟩ | ⟨connected, hnext⟩ | hmoved
  · rw [ha] at htimely
    rw [hnext]
    refine ⟨fun _ _ => Or.inr rfl, fun hp => ?_⟩
    by_cases hc : Channel.iopub = c
    · cases hc
      have hwindow : s.point.window = false := htimely
      have hp' : s.point.window = true := hp
      rw [hwindow] at hp'
      cases hp'
    · exact (Function.update_of_ne hc ..).trans (h.seen hp)
  · rw [hnext]
    exact ⟨fun _ _ => Or.inl rfl, h.seen⟩
  · rw [hnext]
    exact ⟨h.told, h.seen⟩
  · exact moved_awake h hmoved

/-!
## A call that comes to its end
-/

namespace Point

def rank : Point -> Nat
  | .checkIopub => 7
  | .top => 6
  | .waiting => 5
  | .askStdin => 4
  | .askIopub => 3
  | _ => 0

def gaveUp : Point -> Bool
  | .done .timedOut | .done .connectionLost | .done (.stdinRaised _) => true
  | _ => false

end Point

def State.unread (s : State alpha) : Nat :=
  (s.queue .iopub).length + (s.queue .stdin).length + (s.queue .shell).length

def weight (s : State alpha) : Nat := 10 * s.unread + s.point.rank

structure Advances (s next : State alpha) : Prop where
  lighter : weight next < weight s
  connected : next.connected = s.connected
  pending : next.pending = s.pending
  came : next.came = s.came
  goesOn : next.point.gaveUp = false

theorem advances_goTo {p p' : Point} (hpoint : s.point = p) (hrank : p'.rank < p.rank)
    (hgoes : p'.gaveUp = false) : Advances s (s.goTo p') := by
  refine ⟨?_, rfl, rfl, rfl, hgoes⟩
  rw [← hpoint] at hrank
  exact Nat.add_lt_add_left hrank _

theorem unread_take {c : Channel} {msg : KernelMsg} {rest : List KernelMsg}
    (hc : c = .iopub ∨ c = .stdin ∨ c = .shell) (hqueue : s.queue c = msg :: rest) :
    (s.take c).unread + 1 = s.unread := by
  unfold State.unread
  rcases hc with rfl | rfl | rfl
  all_goals
    rw [State.take_queue, State.take_queue_ne (by decide), State.take_queue_ne (by decide), hqueue,
      List.tail_cons, List.length_cons]
    omega

theorem advances_take {c : Channel} {p' : Point} {outputs : alpha} {msg : KernelMsg}
    {rest : List KernelMsg} (hc : c = .iopub ∨ c = .stdin ∨ c = .shell)
    (hqueue : s.queue c = msg :: rest) (hgoes : p'.gaveUp = false) :
    Advances s { s.take c with outputs, point := p' } := by
  refine ⟨?_, rfl, rfl, rfl, hgoes⟩
  have hunread := unread_take hc hqueue
  have hrank : p'.rank < 10 := by
    unfold Point.rank
    split <;> decide
  have hnext : State.unread { s.take c with outputs, point := p' } = (s.take c).unread := rfl
  simp only [weight, hnext]
  omega

/-- All that the client waits for has come, and it has been told. -/
structure Delivered (r : Request alpha) (init : alpha) (out : alpha) (reply : KernelMsg)
    (s : State alpha) : Prop where
  follows : Follows r init s
  awake : Awake s
  connected : s.connected = true
  settled : s.pending = false
  output : consume r init (s.came .iopub) = .finished out
  reply : (s.came .shell).find? r.own = some reply

variable {out : alpha} {reply : KernelMsg}

namespace Delivered

theorem unread (h : Delivered r init out reply s)
    (hgoing : s.point.soFar s.outputs = .going s.outputs) : s.queue .iopub ≠ [] := by
  intro hnil
  rcases h.follows.iopub with ⟨taken, hcame, htaken⟩
  have houtput := h.output
  rw [hcame, hnil, List.append_nil, htaken, hgoing] at houtput
  cases houtput

theorem sent (h : Delivered r init out reply s) : s.point.sent = true := by
  by_contra hunsent
  rw [Bool.not_eq_true] at hunsent
  have houtput := h.output
  rw [consume_foreign (h.follows.unsent hunsent).right] at houtput
  cases houtput

theorem handled {msg : KernelMsg} {rest : List KernelMsg} (hqueue : s.queue .iopub = msg :: rest) :
    Advances s (handle r (s.take .iopub) msg) := by
  unfold handle
  split
  · cases r.outputHook (s.take .iopub).outputs msg with
    | error e => exact advances_take (Or.inl rfl) hqueue rfl
    | ok outputs =>
        cases Request.idle msg with
        | none => exact advances_take (Or.inl rfl) hqueue rfl
        | some idle => cases idle <;> exact advances_take (Or.inl rfl) hqueue rfl
  · exact advances_take (Or.inl rfl) hqueue rfl

theorem advances (h : Delivered r init out reply s)
    (hstdin : forall request text, r.stdinHook request ≠ .error (.other text))
    (hpoint : forall o, s.point ≠ .done o) :
    exists next, clientStep r s = some next ∧ Advances s next := by
  have hsent := h.sent
  unfold clientStep
  cases hp : s.point with
  | clearing | ready | flushing | sending =>
      rw [hp] at hsent
      cases hsent
  | top =>
      refine ⟨_, rfl, ?_⟩
      rw [if_pos h.connected]
      exact advances_goTo hp (by decide) rfl
  | waiting =>
      have hunread := h.unread (by rw [hp]; rfl)
      have hreceived : s.received = true := by
        rcases h.awake.told (by rw [hp]; rfl) hunread with hreceived | hpending
        · exact hreceived
        · rw [h.settled] at hpending
          cases hpending
      refine ⟨_, if_pos hreceived, ?_⟩
      split <;> exact advances_goTo hp (by decide) rfl
  | askStdin =>
      cases hqueue : s.queue .stdin with
      | nil => exact ⟨_, rfl, advances_goTo hp (by decide) rfl⟩
      | cons request rest =>
          cases hhook : r.stdinHook request with
          | ok answered =>
              exact ⟨(s.take .stdin).goTo .top, by simp only [hhook],
                advances_take (Or.inr (Or.inl rfl)) hqueue rfl⟩
          | error e =>
              cases e with
              | timeout =>
                  exact ⟨(s.take .stdin).goTo .askIopub, by simp only [hhook],
                    advances_take (Or.inr (Or.inl rfl)) hqueue rfl⟩
              | other text => exact absurd hhook (hstdin request text)
  | askIopub =>
      cases hqueue : s.queue .iopub with
      | nil => exact absurd hqueue (h.unread (by rw [hp]; rfl))
      | cons msg rest => exact ⟨_, rfl, handled hqueue⟩
  | checkIopub =>
      have hunread := h.unread (by rw [hp]; rfl)
      refine ⟨_, rfl, ?_⟩
      rw [if_neg (by rw [List.isEmpty_iff]; exact hunread)]
      exact advances_goTo hp (by decide) rfl
  | checkStdin | clear =>
      exact absurd (h.awake.seen (by rw [hp]; rfl)) (h.unread (by rw [hp]; rfl))
  | recvReply =>
      cases hqueue : s.queue .shell with
      | nil =>
          rcases h.follows.shell with ⟨taken, hcame, htaken⟩
          have hreply := h.reply
          rw [hcame, hqueue, List.append_nil, htaken, hp] at hreply
          cases hreply
      | cons first rest =>
          refine ⟨_, rfl, ?_⟩
          split <;> exact advances_take (Or.inr (Or.inr rfl)) hqueue rfl
  | done o => exact absurd hp (hpoint o)

theorem step (h : Delivered r init out reply s) (hstep : clientStep r s = some next)
    (hadvances : Advances s next) : Delivered r init out reply next where
  follows := moved_follows h.follows (client_moved hstep)
  awake := moved_awake h.awake (client_moved hstep)
  connected := hadvances.connected.trans h.connected
  settled := hadvances.pending.trans h.settled
  output := by rw [hadvances.came]; exact h.output
  reply := by rw [hadvances.came]; exact h.reply

theorem returned {o : Outcome} (h : Delivered r init out reply s) (hdone : s.point = .done o)
    (hgoes : s.point.gaveUp = false) : o = .returned reply ∧ s.outputs = out := by
  have haccounts := h.follows.accounts hdone
  have houtput := h.output
  rw [hdone] at hgoes
  cases o with
  | returned reply' =>
      rcases haccounts with ⟨hconsume, hreply⟩
      rw [hconsume] at houtput
      rw [h.reply] at hreply
      cases houtput
      cases hreply
      exact ⟨rfl, rfl⟩
  | raised e | keyError =>
      have hconsume := houtput.symm.trans haccounts
      cases hconsume
  | connectionLost | timedOut | stdinRaised e => cases hgoes

theorem ends (h : Delivered r init out reply s)
    (hstdin : forall request text, r.stdinHook request ≠ .error (.other text))
    (hgoes : s.point.gaveUp = false) :
    exists k t, (machine r init).exec s (List.replicate k .client) = some t ∧
      t.point = .done (.returned reply) ∧ t.outputs = out := by
  induction hweight : weight s using Nat.strong_induction_on generalizing s with
  | _ n ih =>
      by_cases hdone : exists o, s.point = .done o
      · rcases hdone with ⟨o, hdone⟩
        rcases h.returned hdone hgoes with ⟨rfl, houtputs⟩
        exact ⟨0, s, rfl, hdone, houtputs⟩
      · rcases h.advances hstdin (fun o ho => hdone ⟨o, ho⟩) with ⟨next, hstep, hadvances⟩
        have hlighter := hadvances.lighter
        rw [hweight] at hlighter
        rcases ih (weight next) hlighter (h.step hstep hadvances) hadvances.goesOn rfl with
          ⟨k, t, hexec, hpoint, houtputs⟩
        refine ⟨k + 1, t, ?_, hpoint, houtputs⟩
        have hclient : (machine r init).step s .client = some next := hstep
        rw [List.replicate_succ, Machine.exec_of_step hclient]
        exact hexec

end Delivered

theorem awake_preserved : (machine r init).Preserved (fun s a => Causal r s a ∧ Timely s a)
    fun s => Follows r init s ∧ Awake s :=
  fun _ _ _ hs hguard hstep =>
    ⟨step_follows hs.left hguard.left hstep, step_awake hs.right hguard.right hstep⟩

/-- Where no message of the output has slipped in before a clearing of the event, a call whose
output and reply have all come returns them with no help from outside. -/
theorem execute_returns (h : (machine r init).Reaches (fun s a => Causal r s a ∧ Timely s a) s)
    (hstdin : forall request text, r.stdinHook request ≠ .error (.other text))
    (hgoes : s.point.gaveUp = false) (hconnected : s.connected = true)
    (hsettled : s.pending = false) (houtput : consume r init (s.came .iopub) = .finished out)
    (hreply : (s.came .shell).find? r.own = some reply) :
    exists k t, (machine r init).exec s (List.replicate k .client) = some t ∧
      t.point = .done (.returned reply) ∧ t.outputs = out := by
  have hbegins : forall s0, (machine r init).start s0 -> Follows r init s0 ∧ Awake s0 := by
    intro s0 hs0
    refine ⟨Follows.begins hs0, fun hp => ?_, fun hp => ?_⟩
    all_goals
      rw [Begins.point hs0] at hp
      cases hp
  rcases Machine.reaches_invariant hbegins awake_preserved h with ⟨hfollows, hawake⟩
  exact Delivered.ends ⟨hfollows, hawake, hconnected, hsettled, houtput, hreply⟩ hstdin hgoes

theorem execute_returns_twoTurns : exists s k t reply,
    (machine counting 0).exec fresh twoTurns = some s ∧
      (machine counting 0).exec s (List.replicate k .client) = some t ∧
        t.point = .done (.returned reply) ∧ t.outputs = 2 := by
  have hrun : ((machine counting 0).exec fresh twoTurns).map (fun s =>
      (s.point.gaveUp, s.connected, s.pending, decide (consume counting 0 (s.came .iopub) =
        .finished 2), ((s.came .shell).find? counting.own).isSome)) =
      some (false, true, false, true, true) := by
    decide
  rcases Option.map_eq_some_iff.mp hrun with ⟨s, hexec, hall⟩
  simp only [Prod.mk.injEq, decide_eq_true_eq] at hall
  rcases hall with ⟨hgoes, hconnected, hsettled, houtput, hfound⟩
  rcases Option.isSome_iff_exists.mp hfound with ⟨reply, hreply⟩
  have hguard : (machine counting 0).Guarded (fun s a => Causal counting s a ∧ Timely s a) fresh
      twoTurns := by
    decide
  rcases execute_returns ⟨fresh, _, fresh_begins, hguard, hexec⟩ (fun _ _ h => by cases h) hgoes
    hconnected hsettled houtput hreply with ⟨k, t, hends, hpoint, houtputs⟩
  exact ⟨s, k, t, reply, hexec, hends, hpoint, houtputs⟩

/-- The idle status is queued after the client has found the queue empty, and the event set for
it is cleared. -/
def slippedIn : List Action :=
  [.client, .client, .client, .put .shell replied, .set, .client, .client, .client, .client,
    .put .iopub idled, .set, .client, .client]

/-- All has come, and the client waits for more. -/
theorem wakeup_lost : exists s, (machine counting 0).Reaches (Causal counting) s ∧
    s.point.gaveUp = false ∧ s.connected = true ∧ s.pending = false ∧
      consume counting 0 (s.came .iopub) = .finished 1 ∧
        ((s.came .shell).find? counting.own).isSome = true ∧ clientStep counting s = none := by
  have hrun : ((machine counting 0).exec fresh slippedIn).map (fun s =>
      (s.point.gaveUp, s.connected, s.pending, decide (consume counting 0 (s.came .iopub) =
        .finished 1), ((s.came .shell).find? counting.own).isSome,
          (clientStep counting s).isSome)) = some (false, true, false, true, true, false) := by
    decide
  rcases Option.map_eq_some_iff.mp hrun with ⟨s, hexec, hall⟩
  simp only [Prod.mk.injEq, decide_eq_true_eq, Option.isSome_eq_false_iff,
    Option.isNone_iff_eq_none] at hall
  have hguard : (machine counting 0).Guarded (Causal counting) fresh slippedIn := by
    decide
  exact ⟨s, ⟨fresh, _, fresh_begins, hguard, hexec⟩, hall⟩

end Kernel
end MightyColab
