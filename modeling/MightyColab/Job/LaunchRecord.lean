import Mathlib.Logic.Function.Basic
import MightyColab.Lib.Runs

/-!
# The launch record of one job directory

The first steps of the runner's `main`: the exclusive create of `launch.json`,
the write of its content, and the takeover of a record whose owner is dead. Any
number of runners may be invoked on one directory, because a launch whose reply
was lost is retried. A file is an inode, so that a record moved aside under its
writer stays that writer's file.
-/

namespace MightyColab
namespace Job

open Lib

namespace LaunchRecord

/-- A runner process by its identity: pid, start time and boot id together. -/
abbrev Runner := Nat
abbrev Inode := Nat

/-- Where a runner is in `main`. -/
inductive Pc where
  /-- Not invoked yet, or about to create `launch.json` with `O_EXCL`. -/
  | start
  /-- `FileExistsError`: about to read the record that is there. -/
  | exists_
  /-- Read the record; `none` for a missing, empty or partial one. -/
  | judging (prior : Option Runner)
  /-- `ident.alive` said no: about to move the record to `launch.json.stale`. -/
  | taking
  /-- Moved it aside: about to create `launch.json` with `O_EXCL` again. -/
  | recreating
  /-- Created its own record, with nothing in it yet. -/
  | recording (i : Inode)
  /-- Wrote its record and went on to stage. -/
  | staging (i : Inode)
  /-- Spawned the shim, so the consumer runs. -/
  | running (i : Inode)
  /-- Returned 0: a live runner already has the record. -/
  | duplicate
  /-- Ended by an exception that `main` does not catch. -/
  | failed
  /-- Returned after its result. -/
  | finished
  | killed
  deriving DecidableEq, Repr

/-- Whether the process exists, which is what `ident.alive` tests of an owner. -/
def Pc.live : Pc -> Bool
  | .duplicate | .failed | .finished | .killed => false
  | _ => true

/-- The directory's two record names, the files behind them and the runners. -/
structure State where
  /-- The file `launch.json` names. -/
  launch : Option Inode
  /-- The file `launch.json.stale` names. -/
  stale : Option Inode
  fresh : Inode
  /-- Whose complete record a file holds; `none` while it is empty or partial. -/
  content : Inode -> Option Runner
  pc : Runner -> Pc

def init : State where
  launch := none
  stale := none
  fresh := 0
  content := fun _ => none
  pc := fun _ => Pc.start

inductive Action where
  | create (r : Runner)
  | read (r : Runner)
  | judge (r : Runner)
  | moveAside (r : Runner)
  | recreate (r : Runner)
  | write (r : Runner)
  | spawn (r : Runner)
  | stageFails (r : Runner)
  | finish (r : Runner)
  | kill (r : Runner)
  deriving DecidableEq, Repr

def Action.actor : Action -> Runner
  | .create r | .read r | .judge r | .moveAside r | .recreate r | .write r
  | .spawn r | .stageFails r | .finish r | .kill r => r

namespace State

def setPc (s : State) (r : Runner) (c : Pc) : State :=
  { s with pc := Function.update s.pc r c }

/-- A new empty file under the name `launch.json`. -/
def createLaunch (s : State) : State :=
  { s with launch := some s.fresh, fresh := s.fresh + 1 }

@[simp] theorem setPc_launch (s : State) (r : Runner) (c : Pc) :
    (s.setPc r c).launch = s.launch := rfl

@[simp] theorem setPc_pc_self (s : State) (r : Runner) (c : Pc) :
    (s.setPc r c).pc r = c := by
  simp [setPc]

theorem setPc_pc_other (s : State) {r q : Runner} (c : Pc) (h : q ≠ r) :
    (s.setPc r c).pc q = s.pc q := by
  simp [setPc, Function.update, h]

@[simp] theorem createLaunch_launch (s : State) :
    s.createLaunch.launch = some s.fresh := rfl

@[simp] theorem createLaunch_pc (s : State) : s.createLaunch.pc = s.pc := rfl

/-- `_read_json(launch_path)`: the owner of a complete record, else nothing. -/
def readLaunch (s : State) : Option Runner :=
  s.launch.bind s.content

/-- `ident.alive` on the fields of a record; no record has no live owner. -/
def ownerAlive (s : State) : Option Runner -> Bool
  | some q => (s.pc q).live
  | none => false

end State

open State

/-- What one step does; `none` when the runner is not at that step. -/
def step (s : State) : Action -> Option State
  | .create r =>
      match s.pc r with
      | .start =>
          match s.launch with
          | none => some (s.createLaunch.setPc r (.recording s.fresh))
          | some _ => some (s.setPc r .exists_)
      | _ => none
  | .read r =>
      match s.pc r with
      | .exists_ => some (s.setPc r (.judging s.readLaunch))
      | _ => none
  | .judge r =>
      match s.pc r with
      | .judging prior =>
          if s.ownerAlive prior then some (s.setPc r .duplicate)
          else some (s.setPc r .taking)
      | _ => none
  | .moveAside r =>
      match s.pc r with
      | .taking =>
          -- os.replace; FileNotFoundError when another runner has moved it
          match s.launch with
          | some i =>
              some ({ s with launch := none, stale := some i }.setPc r .recreating)
          | none => some (s.setPc r .failed)
      | _ => none
  | .recreate r =>
      match s.pc r with
      | .recreating =>
          -- a second FileExistsError is not caught
          match s.launch with
          | none => some (s.createLaunch.setPc r (.recording s.fresh))
          | some _ => some (s.setPc r .failed)
      | _ => none
  | .write r =>
      match s.pc r with
      | .recording i =>
          some ({ s with content := Function.update s.content i (some r) }.setPc r
            (.staging i))
      | _ => none
  | .spawn r =>
      match s.pc r with
      | .staging i => some (s.setPc r (.running i))
      | _ => none
  | .stageFails r =>
      match s.pc r with
      | .staging _ => some (s.setPc r .finished)
      | _ => none
  | .finish r =>
      match s.pc r with
      | .running _ => some (s.setPc r .finished)
      | _ => none
  | .kill r =>
      if (s.pc r).live then some (s.setPc r .killed) else none

/-- Any number of runners on one directory, in any interleaving. -/
def machine : Machine State Action where
  start := fun s => s = init
  step := step

/-!
## What one step changes
-/

/-- The runner created the file and is alive: it writes the record, or went on. -/
def Holds (s : State) (r : Runner) (i : Inode) : Prop :=
  s.pc r = .recording i ∨ s.pc r = .staging i ∨ s.pc r = .running i

/-- The runner is past its launch record: it stages and spawns the consumer. -/
def GoesOn (s : State) (r : Runner) : Prop :=
  exists i, s.pc r = .staging i ∨ s.pc r = .running i

theorem GoesOn.holds {s : State} {r : Runner} (h : GoesOn s r) :
    exists i, Holds s r i := by
  rcases h with ⟨i, h | h⟩
  · exact ⟨i, Or.inr (Or.inl h)⟩
  · exact ⟨i, Or.inr (Or.inr h)⟩

theorem step_pc_other {s next : State} {a : Action} (h : step s a = some next)
    {q : Runner} (hq : q ≠ a.actor) : next.pc q = s.pc q := by
  cases a <;> simp only [Action.actor] at hq <;> simp only [step] at h <;>
    grind [setPc_pc_other, createLaunch_pc]

theorem step_holds_other {s next : State} {a : Action} (h : step s a = some next)
    {q : Runner} {i : Inode} (hq : q ≠ a.actor) :
    Holds next q i <-> Holds s q i := by
  simp [Holds, step_pc_other h hq]

theorem step_launch {s next : State} {a : Action} (h : step s a = some next) :
    next.launch = s.launch ∨ s.launch = none ∨ exists r, a = .moveAside r := by
  cases a <;> simp only [step] at h <;> grind [setPc_launch]

/-- A runner comes to hold a file only by creating `launch.json` while it is
missing, and keeps the one it holds. -/
theorem step_holds_actor {s next : State} {a : Action} (h : step s a = some next)
    {i : Inode} (hold : Holds next a.actor i) :
    (Holds s a.actor i ∧ next.launch = s.launch) ∨
      (s.launch = none ∧ next.launch = some i) := by
  cases a <;> simp only [Action.actor, Holds] at hold ⊢ <;>
    simp only [step] at h <;>
    grind [setPc_pc_self, setPc_launch, createLaunch_launch]

/-!
## One consumer

The exclusive create protects the record only while nobody moves it aside. A
takeover is right when the record it moves belongs to a runner that has died.
-/

/-- The record that a takeover moves aside has no live runner behind it. -/
def MovesDeadRecord (s : State) : Action -> Prop
  | .moveAside _ => forall q i, Holds s q i -> s.launch ≠ some i
  | _ => True

/-- The one runner that holds a record holds the file `launch.json` names. -/
def HoldersNamed (s : State) : Prop :=
  (forall q i, Holds s q i -> s.launch = some i) ∧
    (forall q r i j, Holds s q i -> Holds s r j -> q = r)

theorem holdersNamed_init : HoldersNamed init := by
  constructor
  · intro q i h
    rcases h with h | h | h <;> cases h
  · intro q r i j h _
    rcases h with h | h | h <;> cases h

theorem holdersNamed_preserved :
    machine.Preserved MovesDeadRecord HoldersNamed := by
  intro s a next hinv hguard hstep
  have hnamed : forall q i, Holds next q i -> next.launch = some i := by
    intro q i hold
    by_cases hactor : q = a.actor
    · rw [hactor] at hold
      rcases step_holds_actor hstep hold with ⟨hbefore, hlaunch⟩ | ⟨_, hlaunch⟩
      · rw [hlaunch]
        exact hinv.left a.actor i hbefore
      · exact hlaunch
    · have hbefore : Holds s q i := (step_holds_other hstep hactor).mp hold
      have hq := hinv.left q i hbefore
      rcases step_launch hstep with hlaunch | hnone | ⟨r, ha⟩
      · rw [hlaunch]
        exact hq
      · rw [hnone] at hq
        cases hq
      · subst a
        exact absurd hq (hguard q i hbefore)
  refine ⟨hnamed, ?_⟩
  intro q r i j hq hr
  -- a runner that has just created the file found the name free, so alone
  have hother : forall q i, q ≠ a.actor -> Holds next q i ->
      forall j, Holds next a.actor j -> Holds s a.actor j := by
    intro q i hne hold j hactor
    rcases step_holds_actor hstep hactor with ⟨hbefore, _⟩ | ⟨hfree, _⟩
    · exact hbefore
    · have hbefore := hinv.left q i ((step_holds_other hstep hne).mp hold)
      rw [hfree] at hbefore
      cases hbefore
  by_cases hqa : q = a.actor
  · by_cases hra : r = a.actor
    · rw [hqa, hra]
    · have hqs : Holds s q i := by
        rw [hqa] at hq ⊢
        exact hother r j hra hr i hq
      exact hinv.right q r i j hqs ((step_holds_other hstep hra).mp hr)
  · have hqs : Holds s q i := (step_holds_other hstep hqa).mp hq
    by_cases hra : r = a.actor
    · have hrs : Holds s r j := by
        rw [hra] at hr ⊢
        exact hother q i hqa hq j hr
      exact hinv.right q r i j hqs hrs
    · exact hinv.right q r i j hqs ((step_holds_other hstep hra).mp hr)

/-- In every run whose takeovers move only dead runners' records, at most one
live runner stages and spawns the consumer. -/
theorem one_consumer {s : State} (hreach : machine.Reaches MovesDeadRecord s)
    {q r : Runner} (hq : GoesOn s q) (hr : GoesOn s r) : q = r := by
  have hinv : HoldersNamed s :=
    Machine.reaches_invariant (fun s hs => by rw [hs]; exact holdersNamed_init)
      holdersNamed_preserved hreach
  rcases hq.holds with ⟨i, hqi⟩
  rcases hr.holds with ⟨j, hrj⟩
  exact hinv.right q r i j hqi hrj

/-- A run that meets the guard: the second runner takes over from a dead one. -/
theorem one_consumer_takeover :
    exists s, machine.Reaches MovesDeadRecord s ∧ GoesOn s 2 ∧
      forall q, GoesOn s q -> q = 2 := by
  let run : List Action :=
    [.create 1, .write 1, .spawn 1, .kill 1,
     .create 2, .read 2, .judge 2, .moveAside 2, .recreate 2, .write 2, .spawn 2]
  have hguard : machine.Guarded MovesDeadRecord init run := by
    simp only [run, Machine.Guarded, machine]
    simp [step, init, State.setPc, State.createLaunch, State.readLaunch,
      State.ownerAlive, Pc.live, Function.update, MovesDeadRecord, Holds]
    intro q i h
    grind
  have hreach : machine.Reaches MovesDeadRecord ((machine.exec init run).get rfl) :=
    ⟨init, run, rfl, hguard, rfl⟩
  have hgoes : GoesOn ((machine.exec init run).get rfl) 2 := ⟨1, Or.inr rfl⟩
  exact ⟨_, hreach, hgoes, fun q hq => one_consumer hreach hq hgoes⟩

/-- The second runner reads the record in the window between the first one's
create and write, takes it for a dead runner's, and both go on. -/
theorem two_consumers :
    exists s, machine.Reaches Machine.Free s ∧ GoesOn s 1 ∧ GoesOn s 2 := by
  let run : List Action :=
    [.create 1, .create 2, .read 2, .judge 2, .moveAside 2, .recreate 2,
     .write 1, .spawn 1, .write 2, .spawn 2]
  exact ⟨(machine.exec init run).get rfl,
    ⟨init, run, rfl, Machine.guarded_free machine run init, rfl⟩,
    ⟨0, Or.inr rfl⟩, ⟨1, Or.inr rfl⟩⟩

end LaunchRecord
end Job
end MightyColab
