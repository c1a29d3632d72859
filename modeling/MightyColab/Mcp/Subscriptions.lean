import MightyColab.Lib.Runs
import MightyColab.Lib.Slots
import MightyColab.Mcp.Watch

/-!
# One watcher for each subscription

`JobResourceSubscriptions`: its requests and its watch tasks on one event loop, where each runs
on its own from one await to the next. A task that ends takes the entry of its URI out of the
table, whose entry that may be by then.
-/

namespace MightyColab
namespace Mcp
namespace Subscriptions

open Lib

inductive Await where
  /-- created, and not yet run -/
  | created
  | sleeping
  /-- in `send_resource_updated` -/
  | sending (event : Event)
  deriving DecidableEq

structure Task where
  uri : String
  workloadNotified : Bool
  stage : Await := .created
  /-- `cancel` was called, and the task has not run since. -/
  cancelled : Bool := false

def Task.cancel (task : Task) : Task := { task with cancelled := true }

structure Waiting where
  uri : String
  task : Nat
  /-- what `subscribe` goes on with; none for `unsubscribe` -/
  next : Option Bool

structure Notification where
  uri : String
  unsubscribed : Bool

structure Unregistered where
  task : Nat
  entry : Nat

structure State where
  /-- `self._tasks`. -/
  table : String -> Option Nat := fun _ => none
  /-- The tasks that have not ended. -/
  tasks : Nat -> Option Task := fun _ => none
  nextTask : Nat := 0
  waiting : Nat -> Option Waiting := fun _ => none
  /-- The URIs of which `unsubscribe` has returned and `subscribe` was not called since. -/
  unsubscribed : String -> Bool := fun _ => false
  sent : List Notification := []
  unregistered : List Unregistered := []

def State.setTable (s : State) (uri : String) (t : Option Nat) : State :=
  { s with table := Function.update s.table uri t }

def State.setTask (s : State) (t : Nat) (task : Option Task) : State :=
  { s with tasks := Function.update s.tasks t task }

def State.setWaiting (s : State) (o : Nat) (w : Option Waiting) : State :=
  { s with waiting := Function.update s.waiting o w }

/-- `self._tasks[uri] = asyncio.create_task(...)`. -/
def State.register (s : State) (uri : String) (workloadNotified : Bool) : State :=
  { s with
    table := Function.update s.table uri (some s.nextTask)
    tasks := Function.update s.tasks s.nextTask (some { uri, workloadNotified })
    nextTask := s.nextTask + 1 }

/-- What a request does after its `await task`, or where there was no task. -/
def State.proceed (s : State) (uri : String) : Option Bool -> State
  | some workloadNotified => s.register uri workloadNotified
  | none => { s with unsubscribed := Function.update s.unsubscribed uri true }

/-- `unsubscribe` up to its await, and the request with it. -/
def State.request (s : State) (o : Nat) (uri : String) (next : Option Bool) : State :=
  match s.table uri with
  | none => s.proceed uri next
  | some t =>
      ((s.setTable uri none).setTask t ((s.tasks t).map Task.cancel)).setWaiting o
        (some { uri, task := t, next })

/-- The end of a task: `finally: self._tasks.pop(uri, None)`. -/
def State.finish (s : State) (t : Nat) (uri : String) : State :=
  let ended := (s.setTask t none).setTable uri none
  match s.table uri with
  | none => ended
  | some entry => { ended with unregistered := ⟨t, entry⟩ :: s.unregistered }

/-- `await session.send_resource_updated(uri)`. -/
def State.send (s : State) (t : Nat) (task : Task) (event : Event) : State :=
  { s.setTask t (some { task with stage := .sending event }) with
    sent := ⟨task.uri, s.unsubscribed task.uri⟩ :: s.sent }

/-- A task runs to its next await, or to its end. A read is what the next turn finds, and
`delivered` tells whether the last send came through. -/
def runTask (s : State) (t : Nat) (task : Task) (r : Read) (delivered : Bool) : State :=
  let go (task : Task) : State :=
    match turn task.workloadNotified r with
    | none => s.setTask t (some { task with stage := .sleeping })
    | some event => s.send t task event
  if task.cancelled then
    match task.stage with
    -- the body has not been entered, and neither has its `try`
    | .created => s.setTask t none
    | .sleeping | .sending _ => s.finish t task.uri
  else
    match task.stage with
    | .created | .sleeping => go task
    | .sending .finished => s.finish t task.uri
    | .sending .leftPending =>
        if delivered then
          s.setTask t (some { task with stage := .sleeping, workloadNotified := true })
        else s.finish t task.uri

inductive Action where
  | subscribe (o : Nat) (uri : String) (existing : Read)
  | unsubscribe (o : Nat) (uri : String)
  /-- The task that a request waits for has ended. -/
  | resume (o : Nat)
  | run (t : Nat) (r : Read) (delivered : Bool)

def step (s : State) : Action -> Option State
  | .subscribe o uri existing =>
      let called := { s with unsubscribed := Function.update s.unsubscribed uri false }
      if (s.waiting o).isSome then none
      else
        match subscribeTo uri existing with
        | .watch workloadNotified => some (called.request o uri (some workloadNotified))
        | .ignored | .notAJob | .unreadable | .alreadyDone => some called
  | .unsubscribe o uri =>
      if (s.waiting o).isSome then none else some (s.request o uri none)
  | .resume o =>
      match s.waiting o with
      | none => none
      | some w =>
          if (s.tasks w.task).isSome then none
          else some ((s.setWaiting o none).proceed w.uri w.next)
  | .run t r delivered => (s.tasks t).map fun task => runTask s t task r delivered

def machine : Machine State Action where
  start s := s = {}
  step := step

/-!
## The rule
-/

structure OneWatcher (s : State) : Prop where
  /-- A task that is live, cancelled ones aside, is the one registered for its URI. -/
  registered : forall t task, s.tasks t = some task -> task.cancelled = false ->
    s.table task.uri = some t
  /-- No task has taken another's entry out of the table. -/
  own : forall u, u ∈ s.unregistered -> u.entry = u.task
  /-- No notification of a URI that was unsubscribed and not subscribed again. -/
  subscribed : forall n, n ∈ s.sent -> n.unsubscribed = false

def Task.popsLater (task : Task) : Bool := task.cancelled && task.stage ≠ .created

def NonePops (s : State) (uri : String) : Prop :=
  forall t task, s.tasks t = some task -> task.uri = uri -> task.popsLater = false

/-- No `subscribe` of the URI waits for a task. -/
def NoSubscribe (s : State) (uri : String) : Prop :=
  forall o w, s.waiting o = some w -> w.uri = uri -> w.next = none

/-- A `subscribe` registers its task where none is registered and none will pop it, and an
`unsubscribe` returns where no `subscribe` has come in between. -/
def Undisputed (s : State) : Action -> Prop
  | .subscribe _ uri existing =>
      forall notified, subscribeTo uri existing = .watch notified -> s.table uri = none ->
        NonePops s uri
  | .unsubscribe _ uri => s.table uri = none -> NoSubscribe s uri
  | .resume o =>
      forall w, s.waiting o = some w -> s.table w.uri = none ∧
        (w.next.isSome = true -> NonePops s w.uri) ∧ (w.next = none -> NoSubscribe s w.uri)
  | .run _ _ _ => True

/-!
## The table and its tasks
-/

structure Inv (s : State) : Prop where
  rule : OneWatcher s
  entry : forall uri t, s.table uri = some t ->
    exists task, s.tasks t = some task ∧ task.uri = uri ∧ task.cancelled = false
  pops : forall uri t, s.table uri = some t -> NonePops s uri
  quiet : forall uri, s.unsubscribed uri = true -> s.table uri = none ∧ NoSubscribe s uri
  fresh : forall t, s.nextTask ≤ t -> s.tasks t = none

variable {s : State} {uri : String} {t o : Nat} {task : Task} {w : Waiting}

theorem Inv.subscribed (h : Inv s) (htable : s.table uri = some t) :
    s.unsubscribed uri = false := by
  cases hquiet : s.unsubscribed uri with
  | false => rfl
  | true =>
      rw [(h.quiet uri hquiet).left] at htable
      cases htable

theorem Inv.called (h : Inv s) (uri : String) :
    Inv { s with unsubscribed := Function.update s.unsubscribed uri false } := by
  refine ⟨⟨h.rule.registered, h.rule.own, h.rule.subscribed⟩, h.entry, h.pops, ?_, h.fresh⟩
  intro uri' hquiet
  change Function.update s.unsubscribed uri false uri' = true at hquiet
  by_cases heq : uri' = uri
  · rw [heq, Function.update_self] at hquiet
    cases hquiet
  · rw [Function.update_of_ne heq] at hquiet
    exact h.quiet uri' hquiet

theorem Inv.returned (h : Inv s) (hnone : s.table uri = none) (hnosub : NoSubscribe s uri) :
    Inv { s with unsubscribed := Function.update s.unsubscribed uri true } := by
  refine ⟨⟨h.rule.registered, h.rule.own, h.rule.subscribed⟩, h.entry, h.pops, ?_, h.fresh⟩
  intro uri' hquiet
  change Function.update s.unsubscribed uri true uri' = true at hquiet
  by_cases heq : uri' = uri
  · rw [heq]
    exact ⟨hnone, hnosub⟩
  · rw [Function.update_of_ne heq] at hquiet
    exact h.quiet uri' hquiet

theorem Inv.register (h : Inv s) (hnone : s.table uri = none) (hpops : NonePops s uri)
    (hcalled : s.unsubscribed uri = false) (notified : Bool) : Inv (s.register uri notified) := by
  have htable : forall uri', (s.register uri notified).table uri' =
      Function.update s.table uri (some s.nextTask) uri' := fun _ => rfl
  have htasks : forall t, (s.register uri notified).tasks t =
      Function.update s.tasks s.nextTask (some { uri, workloadNotified := notified }) t :=
    fun _ => rfl
  have hold : forall {t task}, s.tasks t = some task -> t ≠ s.nextTask := by
    intro t task htask heq
    rw [heq, h.fresh _ (Nat.le_refl _)] at htask
    cases htask
  refine ⟨⟨?_, h.rule.own, h.rule.subscribed⟩, ?_, ?_, ?_, ?_⟩
  · intro t task htask hlive
    rw [htable]
    rcases update_cases htask with ⟨heq, hnew⟩ | ⟨_, hbefore⟩
    · rw [heq, hnew, Function.update_self]
    · have hbefore := h.rule.registered t task hbefore hlive
      have huri : task.uri ≠ uri := by
        intro huri
        rw [huri, hnone] at hbefore
        cases hbefore
      rw [Function.update_of_ne huri]
      exact hbefore
  · intro uri' t hentry
    rcases update_cases hentry with ⟨heq, hnew⟩ | ⟨_, hbefore⟩
    · refine ⟨{ uri, workloadNotified := notified }, ?_, heq.symm, rfl⟩
      rw [htasks, hnew, Function.update_self]
    · rcases h.entry uri' t hbefore with ⟨task, htask, huri, hlive⟩
      refine ⟨task, ?_, huri, hlive⟩
      rw [htasks, Function.update_of_ne (hold htask)]
      exact htask
  · intro uri' t hentry t' task htask huri
    rcases update_cases htask with ⟨_, hnew⟩ | ⟨_, hold⟩
    · rw [hnew]
      rfl
    · rcases update_cases hentry with ⟨heq, _⟩ | ⟨_, hbefore⟩
      · exact hpops t' task hold (huri.trans heq)
      · exact h.pops uri' t hbefore t' task hold huri
  · intro uri' hquiet
    change s.unsubscribed uri' = true at hquiet
    have hne : uri' ≠ uri := by
      intro heq
      rw [heq, hcalled] at hquiet
      cases hquiet
    rw [htable, Function.update_of_ne hne]
    exact h.quiet uri' hquiet
  · intro t ht
    change s.nextTask + 1 ≤ t at ht
    rw [htasks, Function.update_of_ne (by omega)]
    exact h.fresh t (by omega)

theorem Inv.goesOn (h : Inv s) (htask : s.tasks t = some task) (hlive : task.cancelled = false)
    {task' : Task} (huri : task'.uri = task.uri) (hlive' : task'.cancelled = false) :
    Inv (s.setTask t (some task')) := by
  have hregistered := h.rule.registered t task htask hlive
  refine ⟨⟨?_, h.rule.own, h.rule.subscribed⟩, ?_, ?_, h.quiet, ?_⟩
  · intro t' task'' hafter hlive''
    rcases update_cases hafter with ⟨heq, hsame⟩ | ⟨_, hbefore⟩
    · rw [hsame, huri, heq]
      exact hregistered
    · exact h.rule.registered t' task'' hbefore hlive''
  · intro uri' t' hentry
    rcases h.entry uri' t' hentry with ⟨task'', hbefore, huri'', hlive''⟩
    by_cases heq : t' = t
    · refine ⟨task', ?_, ?_, hlive'⟩
      · change Function.update s.tasks t (some task') t' = some task'
        rw [heq, Function.update_self]
      · rw [heq, htask] at hbefore
        rw [huri, Option.some.inj hbefore]
        exact huri''
    · refine ⟨task'', ?_, huri'', hlive''⟩
      change Function.update s.tasks t (some task') t' = some task''
      rw [Function.update_of_ne heq]
      exact hbefore
  · intro uri' t' hentry t'' task'' hafter huri''
    rcases update_cases hafter with ⟨_, hsame⟩ | ⟨_, hbefore⟩
    · rw [hsame, Task.popsLater, hlive']
      rfl
    · exact h.pops uri' t' hentry t'' task'' hbefore huri''
  · intro t' ht'
    have hfresh := h.fresh t' ht'
    have hne : t' ≠ t := by
      intro heq
      rw [heq, htask] at hfresh
      cases hfresh
    exact update_free hfresh hne

theorem Inv.send (h : Inv s) (htask : s.tasks t = some task) (hlive : task.cancelled = false)
    (event : Event) : Inv (s.send t task event) := by
  have hgoesOn : Inv (s.setTask t (some { task with stage := .sending event })) :=
    h.goesOn htask hlive rfl hlive
  have hsubscribed := h.subscribed (h.rule.registered t task htask hlive)
  refine ⟨⟨hgoesOn.rule.registered, h.rule.own, ?_⟩, hgoesOn.entry, hgoesOn.pops, h.quiet,
    hgoesOn.fresh⟩
  intro n hn
  cases hn with
  | head => exact hsubscribed
  | tail _ hn => exact h.rule.subscribed n hn

theorem Inv.ended (h : Inv s) (t : Nat) (hentry : forall uri, s.table uri ≠ some t) :
    Inv (s.setTask t none) := by
  have htasks : forall {t' task'}, (s.setTask t none).tasks t' = some task' ->
      s.tasks t' = some task' := fun hafter => (update_none hafter).right
  refine ⟨⟨?_, h.rule.own, h.rule.subscribed⟩, ?_, ?_, h.quiet, ?_⟩
  · intro t' task' hafter hlive
    exact h.rule.registered t' task' (htasks hafter) hlive
  · intro uri' t' hentry'
    rcases h.entry uri' t' hentry' with ⟨task', hbefore, huri, hlive⟩
    refine ⟨task', ?_, huri, hlive⟩
    change Function.update s.tasks t none t' = some task'
    have hne : t' ≠ t := by
      intro heq
      rw [heq] at hentry'
      exact hentry uri' hentry'
    rw [Function.update_of_ne hne]
    exact hbefore
  · intro uri' t' hentry' t'' task'' hafter huri
    exact h.pops uri' t' hentry' t'' task'' (htasks hafter) huri
  · intro t' ht'
    change Function.update s.tasks t none t' = none
    by_cases heq : t' = t
    · rw [heq, Function.update_self]
    · rw [Function.update_of_ne heq]
      exact h.fresh t' ht'

theorem Inv.cancel (h : Inv s) (hentry : s.table uri = some t) :
    Inv ((s.setTable uri none).setTask t ((s.tasks t).map Task.cancel)) := by
  rcases h.entry uri t hentry with ⟨task, htask, huri, hlive⟩
  rw [htask, Option.map_some]
  refine ⟨⟨?_, h.rule.own, h.rule.subscribed⟩, ?_, ?_, ?_, ?_⟩
  · intro t' task' hafter hlive'
    rcases update_cases hafter with ⟨_, hsame⟩ | ⟨hne, hbefore⟩
    · rw [hsame] at hlive'
      cases hlive'
    · have hregistered := h.rule.registered t' task' hbefore hlive'
      have huri' : task'.uri ≠ uri := by
        intro heq
        rw [heq, hentry] at hregistered
        exact hne (Option.some.inj hregistered).symm
      change Function.update s.table uri none task'.uri = some t'
      rw [Function.update_of_ne huri']
      exact hregistered
  · intro uri' t' hafter
    rcases update_none hafter with ⟨hne, hbefore⟩
    rcases h.entry uri' t' hbefore with ⟨task', htask', huri', hlive'⟩
    refine ⟨task', ?_, huri', hlive'⟩
    have hother : t' ≠ t := by
      intro heq
      rw [heq, htask] at htask'
      rw [← Option.some.inj htask', huri] at huri'
      exact hne huri'.symm
    change Function.update s.tasks t (some task.cancel) t' = some task'
    rw [Function.update_of_ne hother]
    exact htask'
  · intro uri' t' hafter t'' task' htask' huri'
    rcases update_none hafter with ⟨hne, hbefore⟩
    rcases update_cases htask' with ⟨_, hsame⟩ | ⟨_, hold⟩
    · rw [hsame] at huri'
      exact absurd (huri'.symm.trans huri) hne
    · exact h.pops uri' t' hbefore t'' task' hold huri'
  · intro uri' hquiet
    refine ⟨?_, (h.quiet uri' hquiet).right⟩
    change Function.update s.table uri none uri' = none
    by_cases heq : uri' = uri
    · rw [heq, Function.update_self]
    · rw [Function.update_of_ne heq]
      exact (h.quiet uri' hquiet).left
  · intro t' ht'
    have hfresh := h.fresh t' ht'
    have hne : t' ≠ t := by
      intro heq
      rw [heq, htask] at hfresh
      cases hfresh
    exact update_free hfresh hne

theorem Inv.finish (h : Inv s) (htask : s.tasks t = some task)
    (hpops : task.cancelled = false ∨ task.popsLater = true) : Inv (s.finish t task.uri) := by
  have hentry : s.table task.uri = none ∨ s.table task.uri = some t ∧ task.cancelled = false := by
    cases hpops with
    | inl hlive => exact Or.inr ⟨h.rule.registered t task htask hlive, hlive⟩
    | inr hpops =>
        cases htable : s.table task.uri with
        | none => exact Or.inl rfl
        | some entry =>
            have hnone := h.pops task.uri entry htable t task htask rfl
            rw [hnone] at hpops
            cases hpops
  unfold State.finish
  rcases hentry with hnone | ⟨hself, _⟩
  · have hsame : (s.setTask t none).setTable task.uri none = s.setTask t none := by
      change { s.setTask t none with table := Function.update s.table task.uri none } = _
      rw [← hnone, Function.update_eq_self]
      rfl
    simp only [hnone, hsame]
    refine h.ended t fun uri htable => ?_
    rcases h.entry uri t htable with ⟨task', htask', huri, _⟩
    rw [htask] at htask'
    rw [← huri, ← Option.some.inj htask', hnone] at htable
    cases htable
  · have hcancel := h.cancel hself
    have hended := hcancel.ended t fun uri htable => by
      rcases hcancel.entry uri t htable with ⟨task', htask', _, hlive⟩
      change Function.update s.tasks t ((s.tasks t).map Task.cancel) t = some task' at htask'
      rw [Function.update_self, htask] at htask'
      rw [← Option.some.inj htask'] at hlive
      cases hlive
    have hsame : ((s.setTable task.uri none).setTask t ((s.tasks t).map Task.cancel)).setTask t
        none = (s.setTask t none).setTable task.uri none := by
      change { (s.setTable task.uri none) with
        tasks := Function.update (Function.update s.tasks t ((s.tasks t).map Task.cancel)) t none } = _
      rw [Function.update_idem]
      rfl
    rw [hsame] at hended
    simp only [hself]
    refine ⟨⟨hended.rule.registered, ?_, hended.rule.subscribed⟩, hended.entry, hended.pops,
      hended.quiet, hended.fresh⟩
    intro u hu
    cases hu with
    | head => rfl
    | tail _ hu => exact h.rule.own u hu

/-!
## Requests
-/

theorem Inv.waits (h : Inv s) (w : Waiting) (hcalled : s.unsubscribed w.uri = false) :
    Inv (s.setWaiting o (some w)) := by
  refine ⟨⟨h.rule.registered, h.rule.own, h.rule.subscribed⟩, h.entry, h.pops, ?_, h.fresh⟩
  intro uri' hquiet
  refine ⟨(h.quiet uri' hquiet).left, ?_⟩
  intro o' w' hw' huri
  rcases update_cases hw' with ⟨_, hnew⟩ | ⟨_, hold⟩
  · rw [← hnew, huri] at hcalled
    exact Bool.noConfusion (hcalled.symm.trans hquiet)
  · exact (h.quiet uri' hquiet).right o' w' hold huri

theorem noSubscribe_resumed (h : NoSubscribe s uri) (o : Nat) :
    NoSubscribe (s.setWaiting o none) uri := by
  intro o' w' hw' huri
  exact h o' w' (update_none hw').right huri

theorem Inv.resumed (h : Inv s) (o : Nat) : Inv (s.setWaiting o none) := by
  refine ⟨⟨h.rule.registered, h.rule.own, h.rule.subscribed⟩, h.entry, h.pops, ?_, h.fresh⟩
  intro uri' hquiet
  exact ⟨(h.quiet uri' hquiet).left, noSubscribe_resumed (h.quiet uri' hquiet).right o⟩

theorem Inv.proceed (h : Inv s) (hnone : s.table uri = none) {next : Option Bool}
    (hregister : next.isSome = true -> NonePops s uri ∧ s.unsubscribed uri = false)
    (hreturn : next = none -> NoSubscribe s uri) : Inv (s.proceed uri next) := by
  cases next with
  | none => exact h.returned hnone (hreturn rfl)
  | some notified =>
      rcases hregister rfl with ⟨hpops, hcalled⟩
      exact h.register hnone hpops hcalled notified

theorem Inv.request (h : Inv s) (o : Nat) {next : Option Bool}
    (hregister : next.isSome = true -> s.table uri = none ->
      NonePops s uri ∧ s.unsubscribed uri = false)
    (hreturn : next = none -> s.table uri = none -> NoSubscribe s uri) :
    Inv (s.request o uri next) := by
  unfold State.request
  split
  · next hnone =>
      exact h.proceed hnone (fun hsome => hregister hsome hnone) fun hnext => hreturn hnext hnone
  · next t hentry => exact (h.cancel hentry).waits _ (h.subscribed hentry)

theorem Inv.runTask (h : Inv s) (htask : s.tasks t = some task) (r : Read) (delivered : Bool) :
    Inv (runTask s t task r delivered) := by
  unfold Subscriptions.runTask
  cases hcancelled : task.cancelled with
  | true =>
      have hunlisted : forall uri, s.table uri ≠ some t := by
        intro uri hentry
        rcases h.entry uri t hentry with ⟨task', htask', _, hlive⟩
        rw [htask] at htask'
        rw [← Option.some.inj htask', hcancelled] at hlive
        cases hlive
      have hpops : task.stage ≠ .created -> task.popsLater = true := by
        intro hstage
        rw [Task.popsLater, hcancelled, Bool.true_and]
        exact decide_eq_true hstage
      simp only [if_true]
      cases hstage : task.stage with
      | created => exact h.ended t hunlisted
      | sleeping => exact h.finish htask (Or.inr (hpops (by rw [hstage]; nofun)))
      | sending event => exact h.finish htask (Or.inr (hpops (by rw [hstage]; nofun)))
  | false =>
      have hgo : Inv (match turn task.workloadNotified r with
          | none => s.setTask t (some { task with stage := .sleeping })
          | some event => s.send t task event) := by
        split
        · exact h.goesOn htask hcancelled rfl hcancelled
        · exact h.send htask hcancelled _
      simp only [Bool.false_eq_true, if_false]
      cases task.stage with
      | created => exact hgo
      | sleeping => exact hgo
      | sending event =>
          cases event with
          | finished => exact h.finish htask (Or.inl hcancelled)
          | leftPending =>
              simp only
              split
              · exact h.goesOn htask hcancelled rfl rfl
              · exact h.finish htask (Or.inl hcancelled)

theorem inv_preserved : machine.Preserved Undisputed Inv := by
  intro s a next h hguard hstep
  change step s a = some next at hstep
  cases a with
  | subscribe o uri existing =>
      have hcalled := h.called uri
      rw [step] at hstep
      split at hstep
      · cases hstep
      · split at hstep
        · next notified hwatch =>
            cases hstep
            refine hcalled.request o (fun _ hnone => ⟨hguard notified hwatch hnone, ?_⟩) nofun
            exact Function.update_self _ _ _
        all_goals
          cases hstep
          exact hcalled
  | unsubscribe o uri =>
      rw [step] at hstep
      split at hstep
      · cases hstep
      · cases hstep
        exact h.request o nofun fun _ hnone => hguard hnone
  | resume o =>
      rw [step] at hstep
      split at hstep
      · cases hstep
      · next w hw =>
          split at hstep
          · cases hstep
          · cases hstep
            rcases hguard w hw with ⟨hnone, hpops, hnosub⟩
            refine (h.resumed o).proceed hnone (fun hsome => ⟨hpops hsome, ?_⟩)
              fun hnext => noSubscribe_resumed (hnosub hnext) o
            cases hquiet : s.unsubscribed w.uri with
            | false => exact hquiet
            | true =>
                rw [(h.quiet w.uri hquiet).right o w hw rfl] at hsome
                cases hsome
  | run t r delivered =>
      rcases Option.map_eq_some_iff.mp hstep with ⟨task, htask, hnext⟩
      rw [← hnext]
      exact h.runTask htask r delivered

theorem start_inv : Inv {} := by
  refine ⟨⟨nofun, ?_, ?_⟩, nofun, nofun, nofun, fun _ _ => rfl⟩
  · intro u hu
    cases hu
  · intro n hn
    cases hn

theorem one_watcher (hreach : machine.Reaches Undisputed s) : OneWatcher s := by
  have hinv := Machine.reaches_invariant (fun s0 hs0 => by rw [hs0]; exact start_inv)
    inv_preserved hreach
  exact hinv.rule

def finishedJob : Job.JobEnvelope :=
  { jobId := "a", workload := .succeeded, offload := .ok, cleanup := .released,
    supervisor := .finished }

theorem one_watcher_finished :
    exists s, machine.Reaches Undisputed s ∧ s.sent.length = 1 ∧
      s.unregistered.map Unregistered.entry = [0] ∧ OneWatcher s := by
  let run : List Action := [.subscribe 1 "job://a" .absent, .run 0 (.found finishedJob) true,
    .run 0 .absent true]
  have hguard : machine.Guarded Undisputed {} run := by
    refine ⟨fun _ _ _ t task htask => ?_, fun _ _ => ⟨trivial, fun _ _ => ⟨trivial, fun _ _ =>
      trivial⟩⟩⟩
    cases htask
  have hreach : machine.Reaches Undisputed ((machine.exec {} run).get (by decide)) :=
    ⟨_, run, rfl, hguard, (Option.some_get _).symm⟩
  exact ⟨_, hreach, by decide, by decide, one_watcher hreach⟩

/-- Two subscriptions of a job while the task of an older one is being cancelled: it takes out
the entry of the first, whose task goes on beside the other's and after an unsubscription. -/
theorem watchers_lost :
    exists s, machine.Reaches Machine.Free s ∧
      s.unregistered.map (fun u => (u.task, u.entry)) = [(0, 1)] ∧
      s.sent.map Notification.unsubscribed = [true] ∧ ¬OneWatcher s := by
  let run : List Action := [.subscribe 1 "job://a" .absent, .run 0 .absent true,
    .subscribe 1 "job://a" .absent, .subscribe 2 "job://a" .absent, .run 0 .absent true,
    .resume 1, .unsubscribe 3 "job://a", .run 2 .absent true, .resume 3,
    .run 1 (.found finishedJob) true]
  refine ⟨(machine.exec {} run).get (by decide), ⟨_, run, rfl,
    Machine.guarded_free _ run _, (Option.some_get _).symm⟩, by decide,
    by decide, fun hrule => ?_⟩
  have hown := hrule.own
  revert hown
  decide

end Subscriptions
end Mcp
end MightyColab
