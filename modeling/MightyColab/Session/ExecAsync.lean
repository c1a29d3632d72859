import MightyColab.Lib.Runs
import MightyColab.Lib.Slots
import MightyColab.Session.Record

/-!
# One background worker for each session

Several `exec-async` on one session, and the workers that they start, each of which runs `exec`
with its own copy of the session record. A command looks for a live worker before it starts
one, and has it recorded only after.
-/

namespace MightyColab
namespace Session
namespace ExecAsync

open Lib

/-- Where an `exec-async` stands. -/
inductive Stage where
  | get
  /-- before `s.exec_pid and pid_alive(s.exec_pid)` -/
  | check (copy : SessionState)
  /-- no worker was found; before the first `store.add` -/
  | saveLog (copy : SessionState)
  | spawn (copy : SessionState)
  /-- before the second `store.add` -/
  | savePid (copy : SessionState) (pid : Nat)

def Stage.inWindow : Stage -> Bool
  | get | check _ => false
  | saveLog _ | spawn _ | savePid _ _ => true

structure Worker where
  /-- The record in hand. -/
  copy : Option SessionState := none
  rest : Script

structure State where
  record : Option SessionState
  commands : Nat -> Option Stage := fun _ => none
  /-- The live workers by their process ids. -/
  workers : Nat -> Option Worker := fun _ => none
  /-- Which other processes are alive. -/
  others : Nat -> Bool := fun _ => false

def State.pidAlive (s : State) : Option Nat -> Bool
  | none => false
  | some pid => pid ≠ 0 && ((s.workers pid).isSome || s.others pid)

def State.setCommand (s : State) (c : Nat) (stage : Option Stage) : State :=
  { s with commands := Function.update s.commands c stage }

def State.setWorker (s : State) (p : Nat) (worker : Option Worker) : State :=
  { s with workers := Function.update s.workers p worker }

/-- `kill_process`, after which the process is gone or is not. -/
def State.kill (s : State) (pid : Nat) (gone : Bool) : State :=
  if gone then { s.setWorker pid none with others := Function.update s.others pid false } else s

/-- The next step of a command: the path of its log, the process id that its worker gets, and
what the worker will find out. -/
def command (s : State) (c : Nat) (logPath : String) (pid : Nat) (answers : ExecAnswers) :
    Stage -> Option State
  | .get => some (s.setCommand c (s.record.map .check))
  | .check copy =>
      some (s.setCommand c (if s.pidAlive copy.execPid then none else some (.saveLog copy)))
  | .saveLog copy =>
      let copy := copy.set .execLogPath (some logPath)
      some ({ s with record := some copy }.setCommand c (some (.spawn copy)))
  | .spawn copy =>
      if pid = 0 ∨ s.pidAlive (some pid) then none
      else
        some ((s.setWorker pid (some { rest := execCommand answers })).setCommand c
          (some (.savePid copy pid)))
  | .savePid copy pid =>
      some ({ s with record := some (copy.set .execPid (some pid)) }.setCommand c none)

def work (s : State) (p : Nat) (worker : Worker) : State :=
  match worker.rest with
  | .done => s.setWorker p none
  | .get next => s.setWorker p (some { copy := s.record, rest := next s.record })
  | .assign f value next => s.setWorker p (some ⟨worker.copy.map (·.set f value), next⟩)
  | .add next =>
      match worker.copy with
      | none => s.setWorker p (some { worker with rest := next })
      | some copy => { s with record := some copy }.setWorker p (some { worker with rest := next })
  | .remove next => { s with record := none }.setWorker p (some { worker with rest := next })
  | .kill pid gone next => (s.setWorker p (some { worker with rest := next })).kill pid gone

inductive Action where
  | execAsync (c : Nat)
  | command (c : Nat) (logPath : String) (pid : Nat) (answers : ExecAnswers)
  /-- A command ends where it is. -/
  | giveUp (c : Nat)
  | work (p : Nat)
  | die (p : Nat)
  /-- Another process starts or ends. -/
  | process (pid : Nat) (alive : Bool)

def step (s : State) : Action -> Option State
  | .execAsync c =>
      match s.commands c with
      | none => some (s.setCommand c (some .get))
      | some _ => none
  | .command c logPath pid answers => (s.commands c).bind (command s c logPath pid answers)
  | .giveUp c => some (s.setCommand c none)
  | .work p => (s.workers p).map (work s p)
  | .die p => some (s.setWorker p none)
  | .process pid alive => some { s with others := Function.update s.others pid alive }

/-- A session with any record, and nobody at work on it. -/
def machine : Machine State Action where
  start s := exists record others, s = { record, others }
  step := step

def AtMostOne (s : State) : Prop :=
  forall p q, (s.workers p).isSome = true -> (s.workers q).isSome = true -> p = q

def NoneInWindow (s : State) : Prop :=
  forall c stage, s.commands c = some stage -> stage.inWindow = false

def NamesLive (s : State) (copy : SessionState) : Prop :=
  forall record p, s.record = some record -> record.execPid = some p ->
    (s.workers p).isSome = true -> copy.execPid = some p

/-- A command that finds no worker in its copy would find none in the record, stands alone
between look and record, and does not end between the start and the record of a live worker;
and no worker takes a live worker's pid out of the record. -/
def Careful (s : State) : Action -> Prop
  | .command c _ _ _ =>
      forall copy, s.commands c = some (.check copy) -> s.pidAlive copy.execPid = false ->
        (exists record, s.record = some record ∧ s.pidAlive record.execPid = false) ∧
          NoneInWindow s
  | .work p =>
      forall worker copy next, s.workers p = some worker -> worker.copy = some copy ->
        worker.rest = .add next -> NamesLive s copy
  | .giveUp c =>
      forall copy pid, s.commands c = some (.savePid copy pid) -> s.workers pid = none
  | .execAsync _ | .die _ | .process _ _ => True

/-!
## A command alone
-/

def leaves : Script -> (copy record : Option SessionState) -> Option SessionState
  | .done, _, record => record
  | .get next, _, record => leaves (next record) record record
  | .assign f value next, copy, record => leaves next (copy.map (·.set f value)) record
  | .add next, copy, record => leaves next copy (copy.or record)
  | .remove next, copy, _ => leaves next copy none
  | .kill _ _ next, copy, record => leaves next copy record

/-- What is left to do of `Session.execAsync`, where no worker is found. -/
def Stage.script (logPath : String) (pid : Nat) : Stage -> Worker
  | .get => { rest := Session.execAsync true logPath (some pid) }
  | .check copy | .saveLog copy =>
      ⟨some copy, .assign .execLogPath (some logPath) <| .add <|
        .assign .execPid (some pid) <| .add .done⟩
  | .spawn copy => ⟨some copy, .assign .execPid (some pid) <| .add .done⟩
  | .savePid copy pid => ⟨some copy, .assign .execPid (some pid) <| .add .done⟩

def Stage.leaves (logPath : String) (pid : Nat) (stage : Stage) (record : Option SessionState) :
    Option SessionState :=
  ExecAsync.leaves (stage.script logPath pid).rest (stage.script logPath pid).copy record

theorem command_leaves {s next : State} {c pid : Nat} {logPath : String} {answers : ExecAnswers}
    {stage : Stage} (h : command s c logPath pid answers stage = some next) :
    (exists copy, stage = .check copy ∧ s.pidAlive copy.execPid = true ∧
      next = s.setCommand c none) ∨
    ((next.commands c).elim next.record fun rest => rest.leaves logPath pid next.record) =
      stage.leaves logPath pid s.record := by
  cases stage with
  | get =>
      cases h
      refine Or.inr ?_
      cases hrecord : s.record with
      | none =>
          simp [State.setCommand, hrecord, Stage.leaves, Stage.script, leaves, Session.execAsync]
      | some copy =>
          simp [State.setCommand, hrecord, Stage.leaves, Stage.script, leaves, Session.execAsync]
  | check copy =>
      cases h
      cases halive : s.pidAlive copy.execPid with
      | true => exact Or.inl ⟨copy, rfl, halive, rfl⟩
      | false =>
          refine Or.inr ?_
          simp [State.setCommand, Stage.leaves, Stage.script]
  | saveLog copy =>
      cases h
      refine Or.inr ?_
      simp [State.setCommand, Stage.leaves, Stage.script, leaves]
  | spawn copy =>
      simp only [command] at h
      split at h
      · cases h
      · cases h
        refine Or.inr ?_
        simp [State.setCommand, State.setWorker, Stage.leaves, Stage.script]
  | savePid copy pid' =>
      cases h
      refine Or.inr ?_
      simp [State.setCommand, Stage.leaves, Stage.script, leaves]

/-!
## What a worker does
-/

def RemovesLast : Script -> Prop
  | .done => True
  | .get next => forall record, RemovesLast (next record)
  | .assign _ _ next => RemovesLast next
  | .add next => RemovesLast next
  | .remove next => next = .done
  | .kill _ _ next => RemovesLast next

theorem killRecorded_removesLast {next : Script} (h : RemovesLast next) (pid : Option Nat)
    (gone : Bool) : RemovesLast (Script.killRecorded pid gone next) := by
  unfold Script.killRecorded
  split
  · exact h
  · split
    · exact h
    · exact h

theorem pruneSession_removesLast (listed : Listed) (gone : Bool) :
    RemovesLast (pruneSession listed gone) := by
  intro record
  cases record with
  | none => exact rfl
  | some s =>
      cases listed with
      | failed => trivial
      | absent =>
          have hremove : RemovesLast (.remove .done) := rfl
          exact killRecorded_removesLast hremove _ _
      | present token url =>
          simp only
          split <;> trivial

theorem execBlocks_removesLast (source : String) (blocks : List Block) :
    RemovesLast (execBlocks source blocks) := by
  induction blocks with
  | nil => trivial
  | cons block rest ih =>
      change RemovesLast (if block.raises then _ else execBlocks source rest)
      split
      · trivial
      · exact ih

theorem recordId_removesLast {next : Script} (h : RemovesLast next) (f : Field)
    (value : String -> f.Value) (before found : Option String) :
    RemovesLast (recordId f value before found next) := by
  unfold recordId
  split <;> exact h

theorem execCommand_removesLast (a : ExecAnswers) : RemovesLast (execCommand a) := by
  intro record
  cases record with
  | none => trivial
  | some s =>
      have hlost : RemovesLast (if a.fault.getD false then pruneSession a.listed a.gone
          else .done) := by
        split
        · exact pruneSession_removesLast _ _
        · trivial
      cases hconnected : a.connected with
      | none =>
          simp only
          exact hlost
      | some ids =>
          simp only
          refine recordId_removesLast (recordId_removesLast ?_ _ _ _ _) _ _ _ _
          split
          · exact hlost
          · exact execBlocks_removesLast _ _

/-!
## The window between look and record
-/

/-- The record names the worker, or its command has still to record it, or the worker has
removed the record and is done. -/
def Accounted (s : State) (p : Nat) (worker : Worker) : Prop :=
  (exists record, s.record = some record ∧ record.execPid = some p) ∨
    (exists c copy, s.commands c = some (.savePid copy p)) ∨
      s.record = none ∧ worker.rest = .done

structure Inv (s : State) : Prop where
  one : AtMostOne s
  window : forall c c' stage stage', s.commands c = some stage -> s.commands c' = some stage' ->
    stage.inWindow = true -> stage'.inWindow = true -> c = c'
  alone : forall c stage p worker, s.commands c = some stage -> stage.inWindow = true ->
    s.workers p = some worker -> exists copy, stage = .savePid copy p
  accounted : forall p worker, s.workers p = some worker -> Accounted s p worker
  scripts : forall p worker, s.workers p = some worker -> RemovesLast worker.rest
  zero : s.workers 0 = none

variable {s : State} {p c : Nat} {worker : Worker} {stage : Stage}

theorem Inv.same (h : Inv s) {q : Nat} {other : Worker} (hp : s.workers p = some worker)
    (hq : s.workers q = some other) : q = p :=
  h.one q p (congrArg Option.isSome hq) (congrArg Option.isSome hp)

theorem Inv.pidAlive (h : Inv s) (hp : s.workers p = some worker) :
    s.pidAlive (some p) = true := by
  have hne : p ≠ 0 := by
    intro hzero
    rw [hzero, h.zero] at hp
    cases hp
  rw [State.pidAlive, hp, decide_eq_true hne]
  rfl

theorem Inv.workerEnds (h : Inv s) (p : Nat) : Inv (s.setWorker p none) := by
  have hworkers : forall {q other}, (s.setWorker p none).workers q = some other ->
      s.workers q = some other := fun hq => (update_none hq).right
  refine ⟨?_, h.window, ?_, ?_, ?_, ?_⟩
  · intro q q' hq hq'
    rcases Option.isSome_iff_exists.mp hq with ⟨other, hother⟩
    rcases Option.isSome_iff_exists.mp hq' with ⟨other', hother'⟩
    exact h.same (hworkers hother') (hworkers hother)
  · intro c stage q other hc hwindow hq
    exact h.alone c stage q other hc hwindow (hworkers hq)
  · intro q other hq
    exact h.accounted q other (hworkers hq)
  · intro q other hq
    exact h.scripts q other (hworkers hq)
  · cases hzero : (s.setWorker p none).workers 0 with
    | none => rfl
    | some other =>
        have hbefore := hworkers hzero
        rw [h.zero] at hbefore
        cases hbefore

theorem Inv.worked (h : Inv s) (hp : s.workers p = some worker) (record : Option SessionState)
    {worker' : Worker} (hscript : RemovesLast worker'.rest)
    (haccounted : Accounted { s with record } p worker') :
    Inv ({ s with record }.setWorker p (some worker')) := by
  have hworkers : forall {q other},
      Function.update s.workers p (some worker') q = some other -> q = p ∧ other = worker' := by
    intro q other hq
    rcases update_cases hq with hself | ⟨hne, hold⟩
    · exact hself
    · exact absurd (h.same hp hold) hne
  refine ⟨?_, h.window, ?_, ?_, ?_, ?_⟩
  · intro q q' hq hq'
    rcases Option.isSome_iff_exists.mp hq with ⟨other, hother⟩
    rcases Option.isSome_iff_exists.mp hq' with ⟨other', hother'⟩
    rw [(hworkers hother).left, (hworkers hother').left]
  · intro c stage q other hc hwindow hq
    rw [(hworkers hq).left]
    exact h.alone c stage p worker hc hwindow hp
  · intro q other hq
    rw [(hworkers hq).left, (hworkers hq).right]
    exact haccounted
  · intro q other hq
    rw [(hworkers hq).right]
    exact hscript
  · have hne : 0 ≠ p := by
      intro hzero
      rw [← hzero, h.zero] at hp
      cases hp
    exact update_free h.zero hne

theorem Inv.unfinished (h : Inv s) (hp : s.workers p = some worker) (hrest : worker.rest ≠ .done)
    (worker' : Worker) : Accounted s p worker' := by
  rcases h.accounted p worker hp with hnamed | hwindow | ⟨_, hdone⟩
  · exact Or.inl hnamed
  · exact Or.inr (Or.inl hwindow)
  · exact absurd hdone hrest

theorem Inv.work (h : Inv s) (hp : s.workers p = some worker)
    (hguard : forall copy next, worker.copy = some copy -> worker.rest = .add next ->
      NamesLive s copy) : Inv (work s p worker) := by
  have hscript := h.scripts p worker hp
  have hunfinished := h.unfinished hp
  unfold ExecAsync.work
  cases hrest : worker.rest with
  | done => exact h.workerEnds p
  | get next =>
      rw [hrest] at hscript hunfinished
      exact h.worked hp s.record (hscript s.record) (hunfinished nofun _)
  | assign f value next =>
      rw [hrest] at hscript hunfinished
      exact h.worked hp s.record hscript (hunfinished nofun _)
  | add next =>
      rw [hrest] at hscript hunfinished
      cases hcopy : worker.copy with
      | none => exact h.worked hp s.record hscript (hunfinished nofun _)
      | some copy =>
          refine h.worked hp _ hscript ?_
          rcases hunfinished nofun worker with ⟨record, hrecord, hpid⟩ | hwindow | ⟨_, hdone⟩
          · have hlive := congrArg Option.isSome hp
            exact Or.inl ⟨copy, rfl, hguard copy next hcopy hrest record p hrecord hpid hlive⟩
          · exact Or.inr (Or.inl hwindow)
          · rw [hrest] at hdone
            cases hdone
  | remove next =>
      rw [hrest] at hscript
      have hnext : next = .done := hscript
      refine h.worked hp none ?_ (Or.inr (Or.inr ⟨rfl, hnext⟩))
      rw [hnext]
      trivial
  | kill pid gone next =>
      rw [hrest] at hscript hunfinished
      have hworked : Inv (s.setWorker p (some { worker with rest := next })) :=
        h.worked hp s.record hscript (hunfinished (by intro heq; cases heq) _)
      simp only [State.kill]
      split
      · have hended := hworked.workerEnds pid
        exact ⟨hended.one, hended.window, hended.alone, hended.accounted, hended.scripts,
          hended.zero⟩
      · exact hworked

/-!
## What a command does
-/

/-- A command goes on or ends outside its window, and leaves no live worker unrecorded. -/
theorem Inv.outside (h : Inv s) {new : Option Stage}
    (hnew : forall stage, new = some stage -> stage.inWindow = false)
    (hlost : forall copy pid, s.commands c = some (.savePid copy pid) -> s.workers pid = none) :
    Inv (s.setCommand c new) := by
  have hcommands : forall {c' stage'}, (s.setCommand c new).commands c' = some stage' ->
      stage'.inWindow = true -> s.commands c' = some stage' := by
    intro c' stage' hc' hwindow
    rcases update_some_cases hc' with ⟨_, heq⟩ | ⟨_, hbefore⟩
    · have hout := hnew stage' heq
      rw [hwindow] at hout
      cases hout
    · exact hbefore
  refine ⟨h.one, ?_, ?_, ?_, h.scripts, h.zero⟩
  · intro c1 c2 stage1 stage2 h1 h2 hwindow1 hwindow2
    exact h.window c1 c2 stage1 stage2 (hcommands h1 hwindow1) (hcommands h2 hwindow2) hwindow1
      hwindow2
  · intro c' stage' p worker hc' hwindow hp
    exact h.alone c' stage' p worker (hcommands hc' hwindow) hwindow hp
  · intro p worker hp
    rcases h.accounted p worker hp with hnamed | ⟨c', copy, hc'⟩ | hdone
    · exact Or.inl hnamed
    · refine Or.inr (Or.inl ⟨c', copy, ?_⟩)
      have hne : c' ≠ c := by
        intro heq
        rw [heq] at hc'
        have hlive : s.workers p = some worker := hp
        rw [hlost copy p hc'] at hlive
        cases hlive
      exact (Function.update_of_ne hne _ _).trans hc'
    · exact Or.inr (Or.inr hdone)

def OthersOutside (s : State) (c : Nat) : Prop :=
  forall c' stage, c' ≠ c -> s.commands c' = some stage -> stage.inWindow = false

theorem Inv.othersOutside (h : Inv s) (hc : s.commands c = some stage)
    (hwindow : stage.inWindow = true) : OthersOutside s c := by
  intro c' stage' hne hc'
  cases hout : stage'.inWindow with
  | false => rfl
  | true => exact absurd (h.window c' c stage' stage hc' hc hout hwindow) hne

theorem window_alone (h : OthersOutside s c) {new : Stage} {c1 c2 : Nat} {stage1 stage2 : Stage}
    (h1 : (s.setCommand c (some new)).commands c1 = some stage1)
    (h2 : (s.setCommand c (some new)).commands c2 = some stage2)
    (hwindow1 : stage1.inWindow = true) (hwindow2 : stage2.inWindow = true) : c1 = c2 := by
  have hself : forall {c' stage'}, (s.setCommand c (some new)).commands c' = some stage' ->
      stage'.inWindow = true -> c' = c := by
    intro c' stage' hc' hwindow
    rcases update_some_cases hc' with ⟨heq, _⟩ | ⟨hne, hbefore⟩
    · exact heq
    · have hout := h c' stage' hne hbefore
      rw [hwindow] at hout
      cases hout
  rw [hself h1 hwindow1, hself h2 hwindow2]

theorem Inv.inside (h : Inv s) (hothers : OthersOutside s c)
    (hempty : forall p, s.workers p = none) (record : Option SessionState) (new : Stage) :
    Inv ({ s with record }.setCommand c (some new)) := by
  have hnobody : forall {p worker}, s.workers p = some worker -> False := by
    intro p worker hp
    rw [hempty p] at hp
    cases hp
  refine ⟨h.one, fun _ _ _ _ => window_alone (s := { s with record }) hothers, ?_, ?_, h.scripts,
    h.zero⟩
  · intro c' stage' p worker _ _ hp
    exact False.elim (hnobody hp)
  · intro p worker hp
    exact False.elim (hnobody hp)

theorem Inv.spawns (h : Inv s) (hothers : OthersOutside s c)
    (hempty : forall p, s.workers p = none) {pid : Nat} (hpid : pid ≠ 0) (copy : SessionState)
    {worker : Worker} (hscript : RemovesLast worker.rest) :
    Inv ((s.setWorker pid (some worker)).setCommand c (some (.savePid copy pid))) := by
  have hworkers : forall {p other},
      Function.update s.workers pid (some worker) p = some other -> p = pid ∧ other = worker := by
    intro p other hp
    rcases update_cases hp with hself | ⟨_, hold⟩
    · exact hself
    · rw [hempty p] at hold
      cases hold
  refine ⟨?_, fun _ _ _ _ => window_alone (s := s.setWorker pid (some worker)) hothers, ?_, ?_,
    ?_, ?_⟩
  · intro p q hp hq
    rcases Option.isSome_iff_exists.mp hp with ⟨other, hother⟩
    rcases Option.isSome_iff_exists.mp hq with ⟨other', hother'⟩
    rw [(hworkers hother).left, (hworkers hother').left]
  · intro c' stage' p other hc' hwindow hp
    rcases update_some_cases hc' with ⟨_, heq⟩ | ⟨hne, hbefore⟩
    · rw [(hworkers hp).left]
      exact ⟨copy, (Option.some.inj heq).symm⟩
    · have hout := hothers c' stage' hne hbefore
      rw [hwindow] at hout
      cases hout
  · intro p other hp
    rw [(hworkers hp).left]
    exact Or.inr (Or.inl ⟨c, copy, Function.update_self _ _ _⟩)
  · intro p other hp
    rw [(hworkers hp).right]
    exact hscript
  · exact update_free h.zero hpid.symm

theorem Inv.records (h : Inv s) {copy : SessionState} {pid : Nat}
    (hc : s.commands c = some (.savePid copy pid)) :
    Inv ({ s with record := some (copy.set .execPid (some pid)) }.setCommand c none) := by
  have hothers := h.othersOutside hc rfl
  have hnone : forall {c' stage'},
      ({ s with record := some (copy.set .execPid (some pid)) }.setCommand c none).commands c' =
        some stage' -> stage'.inWindow = false := by
    intro c' stage' hc'
    rcases update_some_cases hc' with ⟨_, heq⟩ | ⟨hne, hbefore⟩
    · cases heq
    · exact hothers c' stage' hne hbefore
  refine ⟨h.one, ?_, ?_, ?_, h.scripts, h.zero⟩
  · intro c1 c2 stage1 stage2 h1 h2 hwindow1
    rw [hnone h1] at hwindow1
    cases hwindow1
  · intro c' stage' p worker hc' hwindow
    rw [hnone hc'] at hwindow
    cases hwindow
  · intro p worker hp
    rcases h.alone c _ p worker hc rfl hp with ⟨copy', heq⟩
    cases heq
    exact Or.inl ⟨_, rfl, rfl⟩

theorem Inv.found (h : Inv s) (hnone : NoneInWindow s) {record : SessionState}
    (hrecord : s.record = some record) (hdead : s.pidAlive record.execPid = false) :
    forall p, s.workers p = none := by
  intro p
  cases hp : s.workers p with
  | none => rfl
  | some worker =>
      rcases h.accounted p worker hp with ⟨r, hr, hpid⟩ | ⟨c, copy, hc⟩ | ⟨hgone, _⟩
      · rw [hrecord] at hr
        cases hr
        rw [hpid, h.pidAlive hp] at hdead
        cases hdead
      · have hout := hnone c _ hc
        cases hout
      · rw [hrecord] at hgone
        cases hgone

/-- In its window and before its own worker, a command has no live worker beside it. -/
theorem Inv.empty (h : Inv s) (hc : s.commands c = some stage) (hwindow : stage.inWindow = true)
    (hstage : forall copy pid, stage ≠ .savePid copy pid) : forall p, s.workers p = none := by
  intro p
  cases hp : s.workers p with
  | none => rfl
  | some worker =>
      rcases h.alone c stage p worker hc hwindow hp with ⟨copy, heq⟩
      exact absurd heq (hstage copy p)

theorem Inv.command (h : Inv s) (hc : s.commands c = some stage) {logPath : String} {pid : Nat}
    {answers : ExecAnswers} {next : State}
    (hstep : command s c logPath pid answers stage = some next)
    (hguard : forall copy, stage = .check copy -> s.pidAlive copy.execPid = false ->
      (exists record, s.record = some record ∧ s.pidAlive record.execPid = false) ∧
        NoneInWindow s) : Inv next := by
  cases stage with
  | get =>
      cases hstep
      refine h.outside (fun stage hstage => ?_) fun copy pid hsave => ?_
      · rcases Option.map_eq_some_iff.mp hstage with ⟨record, _, heq⟩
        rw [← heq]
        rfl
      · rw [hc] at hsave
        cases hsave
  | check copy =>
      cases hstep
      cases halive : s.pidAlive copy.execPid with
      | true =>
          refine h.outside (fun stage hstage => ?_) fun copy' pid' hsave => ?_
          · cases hstage
          · rw [hc] at hsave
            cases hsave
      | false =>
          rcases hguard copy rfl halive with ⟨⟨record, hrecord, hdead⟩, hnone⟩
          exact h.inside (fun c' stage' _ => hnone c' stage') (h.found hnone hrecord hdead)
            s.record _
  | saveLog copy =>
      cases hstep
      refine h.inside (h.othersOutside hc rfl) (h.empty hc rfl fun copy' pid' heq => ?_) _ _
      cases heq
  | spawn copy =>
      simp only [ExecAsync.command] at hstep
      split at hstep
      · cases hstep
      · next hfree =>
          cases hstep
          have hempty := h.empty hc rfl fun copy' pid' heq => by cases heq
          exact h.spawns (h.othersOutside hc rfl) hempty (fun hzero => hfree (Or.inl hzero)) copy
            (execCommand_removesLast answers)
  | savePid copy pid' =>
      cases hstep
      exact h.records hc

theorem inv_preserved : machine.Preserved Careful Inv := by
  intro s a next h hguard hstep
  change step s a = some next at hstep
  cases a with
  | execAsync c =>
      rw [step] at hstep
      split at hstep
      · next hnone =>
          cases hstep
          refine h.outside (fun stage hstage => ?_) fun copy pid hsave => ?_
          · cases hstage
            rfl
          · rw [hnone] at hsave
            cases hsave
      · cases hstep
  | command c logPath pid answers =>
      rcases Option.bind_eq_some_iff.mp hstep with ⟨stage, hc, hnext⟩
      refine h.command hc hnext fun copy hstage hdead => ?_
      rw [hstage] at hc
      exact hguard copy hc hdead
  | giveUp c =>
      cases hstep
      refine h.outside (fun stage hstage => ?_) hguard
      cases hstage
  | work p =>
      rcases Option.map_eq_some_iff.mp hstep with ⟨worker, hp, hnext⟩
      rw [← hnext]
      exact h.work hp fun copy next hcopy hrest => hguard worker copy next hp hcopy hrest
  | die p =>
      cases hstep
      exact h.workerEnds p
  | process pid alive =>
      cases hstep
      exact ⟨h.one, h.window, h.alone, h.accounted, h.scripts, h.zero⟩

theorem start_inv (record : Option SessionState) (others : Nat -> Bool) :
    Inv { record, others } where
  one := by
    intro p q hp
    cases hp
  window := by
    intro c c' stage stage' hc
    cases hc
  alone := by
    intro c stage p worker hc
    cases hc
  accounted := by
    intro p worker hp
    cases hp
  scripts := by
    intro p worker hp
    cases hp
  zero := rfl

theorem one_background_worker (hreach : machine.Reaches Careful s) : AtMostOne s := by
  have hinv := Machine.reaches_invariant (fun s0 hs0 => by
    rcases hs0 with ⟨record, others, hs0⟩
    rw [hs0]
    exact start_inv record others) inv_preserved hreach
  exact hinv.one

def fresh : SessionState := { name := "s", token := "t", url := "u", endpoint := "e" }

def connects : ExecAnswers where
  connected := some (some "k", some "i")
  fault := none
  listed := .failed
  gone := false
  source := "stdin"
  blocks := [{ identifier := none, time := "t1", raises := false }]

theorem one_background_worker_started :
    exists s, machine.Reaches Careful s ∧ (s.workers 7).isSome = true ∧
      s.record.map SessionState.execPid = some (some 7) ∧
      s.record.map SessionState.kernelId = some (some "k") ∧ AtMostOne s := by
  let run : List Action := [.execAsync 1, .command 1 "log" 7 connects, .command 1 "log" 7 connects,
    .command 1 "log" 7 connects, .command 1 "log" 7 connects, .command 1 "log" 7 connects,
    .work 7, .work 7, .work 7]
  have hguard : machine.Guarded Careful { record := some fresh } run := by
    refine ⟨trivial, fun _ h => ?_⟩
    cases h
    refine ⟨fun copy hc => ?_, fun _ h => ?_⟩
    · cases hc
    cases h
    refine ⟨fun copy hc _ => ⟨⟨fresh, rfl, rfl⟩, fun c stage hc => ?_⟩, fun _ h => ?_⟩
    · by_cases heq : c = 1
      · subst heq
        cases hc
        rfl
      · simp [State.setCommand, heq] at hc
    cases h
    refine ⟨fun copy hc => ?_, fun _ h => ?_⟩
    · cases hc
    cases h
    refine ⟨fun copy hc => ?_, fun _ h => ?_⟩
    · cases hc
    cases h
    refine ⟨fun copy hc => ?_, fun _ h => ?_⟩
    · cases hc
    cases h
    refine ⟨fun worker copy next hp hcopy hrest => ?_, fun _ h => ?_⟩
    · cases hp
      cases hcopy
    cases h
    refine ⟨fun worker copy next hp hcopy hrest => ?_, fun _ h => ?_⟩
    · cases hp
      cases hrest
    cases h
    refine ⟨fun worker copy next hp hcopy hrest => ?_, fun _ _ => trivial⟩
    cases hp
    cases hcopy
    intro record p hrecord hpid _
    cases hrecord
    exact hpid
  have hreach : machine.Reaches Careful
      ((machine.exec { record := some fresh } run).get (by decide)) :=
    ⟨_, run, ⟨some fresh, fun _ => false, rfl⟩, hguard, (Option.some_get _).symm⟩
  exact ⟨_, hreach, by decide, by decide, by decide,
    one_background_worker hreach⟩

/-- Two commands look for a worker before either starts one. -/
theorem second_worker_started :
    exists s, machine.Reaches Machine.Free s ∧
      s.record.map SessionState.execPid = some (some 8) ∧ ¬AtMostOne s := by
  let run : List Action := [.execAsync 1, .execAsync 2, .command 1 "log" 7 connects,
    .command 2 "log" 8 connects, .command 1 "log" 7 connects, .command 2 "log" 8 connects,
    .command 1 "log" 7 connects, .command 1 "log" 7 connects, .command 1 "log" 7 connects,
    .command 2 "log" 8 connects, .command 2 "log" 8 connects, .command 2 "log" 8 connects]
  refine ⟨(machine.exec { record := some fresh } run).get (by decide), ⟨_, run,
    ⟨some fresh, fun _ => false, rfl⟩, Machine.guarded_free _ run _, (Option.some_get _).symm⟩,
    by decide, fun hone => ?_⟩
  have hsame := hone 7 8 (by decide) (by decide)
  cases hsame

/-- A worker reads the record before its command has named it there, and adds its copy back
after; the next command finds no worker. -/
theorem worker_forgotten :
    exists s, machine.Reaches Machine.Free s ∧
      s.record.map SessionState.execPid = some none ∧ ¬AtMostOne s := by
  let run : List Action := [.execAsync 1, .command 1 "log" 7 connects, .command 1 "log" 7 connects,
    .command 1 "log" 7 connects, .command 1 "log" 7 connects, .work 7,
    .command 1 "log" 7 connects, .work 7, .work 7, .execAsync 2, .command 2 "log" 8 connects,
    .command 2 "log" 8 connects, .command 2 "log" 8 connects, .command 2 "log" 8 connects]
  refine ⟨(machine.exec { record := some fresh } run).get (by decide), ⟨_, run,
    ⟨some fresh, fun _ => false, rfl⟩, Machine.guarded_free _ run _, (Option.some_get _).symm⟩,
    by decide, fun hone => ?_⟩
  have hsame := hone 7 8 (by decide) (by decide)
  cases hsame

end ExecAsync
end Session
end MightyColab
