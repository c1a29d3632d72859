import Mathlib.Logic.Function.Basic
import MightyColab.Lib.Runs

/-!
# The apply lock of one job

`JobStore.claim_apply`, `ApplyClaim.release` and `JobStore.apply_lock_held` as
the file steps they make on one `apply.lock`. A flock belongs to the inode that
was opened, while the claim is named by a path that a release unlinks, so the
state keeps the two apart.
-/

namespace MightyColab
namespace Job

open Lib

namespace ApplyClaim

abbrev Process := Nat
abbrev Inode := Nat

inductive Pc where
  | idle
  /-- `claim_apply`: the file is open, the flock not yet tried. -/
  | claimOpen (i : Inode)
  /-- `claim_apply`: `BlockingIOError`, about to raise `ApplyInProgress`. -/
  | refused (i : Inode)
  /-- `claim_apply`: flock granted, the identity not yet written. -/
  | claimLocked (i : Inode)
  /-- `claim_apply` has returned and `release` has not begun. -/
  | claimed (i : Inode)
  /-- `release`: `LOCK_UN` has run. -/
  | unlocked (i : Inode)
  /-- `release`: the descriptor is closed, the path not yet unlinked. -/
  | closed
  /-- `apply_lock_held`: the file is open. -/
  | probeOpen (i : Inode)
  /-- `apply_lock_held`: flock granted, so it will answer False. -/
  | probeLocked (i : Inode)
  /-- `apply_lock_held`: the flock is released or was refused; only `close` is left. -/
  | probeDone (i : Inode) (held : Bool)
  | crashed
  deriving DecidableEq, Repr

/-- The lock file on disk and every process that uses it. -/
structure State where
  /-- The inode that `apply.lock` names, if the path exists. -/
  path : Option Inode
  /-- The next inode number a created file gets. -/
  fresh : Inode
  /-- Whose open descriptor holds the flock on an inode. -/
  holder : Inode -> Option Process
  /-- The process identity written into an inode. -/
  identity : Inode -> Option Process
  pc : Process -> Pc

/-- No lock file and no process in any store operation. -/
def init : State where
  path := none
  fresh := 0
  holder := fun _ => none
  identity := fun _ => none
  pc := fun _ => Pc.idle

/-- One file step of one process. -/
inductive Action where
  | openClaim (p : Process)
  | flockClaim (p : Process)
  | writeIdentity (p : Process)
  | closeRefused (p : Process)
  | unlock (p : Process)
  | unlockFails (p : Process)
  | close (p : Process)
  | unlink (p : Process)
  | unlinkFails (p : Process)
  | openProbe (p : Process)
  | flockProbe (p : Process)
  | unlockProbe (p : Process)
  | closeProbe (p : Process)
  | crash (p : Process)
  deriving DecidableEq, Repr

namespace State

def setPc (s : State) (p : Process) (c : Pc) : State :=
  { s with pc := Function.update s.pc p c }

/-- `flock(fd, LOCK_EX | LOCK_NB)` on a free inode. -/
def flock (s : State) (p : Process) (i : Inode) : State :=
  { s with holder := Function.update s.holder i (some p) }

/-- `flock(fd, LOCK_UN)`, or the last close: only the caller's own lock goes. -/
def unflock (s : State) (p : Process) (i : Inode) : State :=
  { s with holder :=
      if s.holder i = some p then Function.update s.holder i none else s.holder }

def dropLocks (s : State) (p : Process) : State :=
  { s with holder := fun i => if s.holder i = some p then none else s.holder i }

@[simp] theorem setPc_path (s : State) (p : Process) (c : Pc) :
    (s.setPc p c).path = s.path := rfl

@[simp] theorem setPc_holder (s : State) (p : Process) (c : Pc) :
    (s.setPc p c).holder = s.holder := rfl

theorem setPc_holder_at (s : State) (p : Process) (c : Pc) (j : Inode) :
    (s.setPc p c).holder j = s.holder j := rfl

@[simp] theorem flock_path (s : State) (p : Process) (i : Inode) :
    (s.flock p i).path = s.path := rfl

@[simp] theorem flock_pc (s : State) (p : Process) (i : Inode) :
    (s.flock p i).pc = s.pc := rfl

@[simp] theorem unflock_path (s : State) (p : Process) (i : Inode) :
    (s.unflock p i).path = s.path := rfl

@[simp] theorem unflock_pc (s : State) (p : Process) (i : Inode) :
    (s.unflock p i).pc = s.pc := rfl

@[simp] theorem dropLocks_path (s : State) (p : Process) :
    (s.dropLocks p).path = s.path := rfl

@[simp] theorem dropLocks_pc (s : State) (p : Process) :
    (s.dropLocks p).pc = s.pc := rfl

@[simp] theorem setPc_pc_self (s : State) (p : Process) (c : Pc) :
    (s.setPc p c).pc p = c := by
  simp [setPc]

theorem setPc_pc_other (s : State) {p q : Process} (c : Pc) (h : q ≠ p) :
    (s.setPc p c).pc q = s.pc q := by
  simp [setPc, Function.update, h]

theorem flock_holder_of_free {s : State} {p q : Process} {i j : Inode}
    (hfree : s.holder i = none) (hj : s.holder j = some q) :
    (s.flock p i).holder j = some q := by
  have hji : j ≠ i := by
    intro hji
    rw [hji, hfree] at hj
    cases hj
  simp [flock, Function.update, hji, hj]

@[simp] theorem flock_holder_self (s : State) (p : Process) (i : Inode) :
    (s.flock p i).holder i = some p := by
  simp [flock]

theorem unflock_holder_of_ne {s : State} {p q : Process} {i j : Inode}
    (hq : s.holder j = some q) (h : q ≠ p) :
    (s.unflock p i).holder j = some q := by
  unfold unflock
  by_cases hi : s.holder i = some p
  · have hji : j ≠ i := by
      intro hji
      rw [hji, hi] at hq
      injection hq with hpq
      exact h hpq.symm
    simp [hi, Function.update, hji, hq]
  · simp [hi, hq]

theorem dropLocks_holder_of_ne {s : State} {p q : Process} {j : Inode}
    (hq : s.holder j = some q) (h : q ≠ p) :
    (s.dropLocks p).holder j = some q := by
  simp [dropLocks, hq, h]

end State

open State

/-- What one file step does; `none` when the process is not at that step. -/
def step (s : State) : Action -> Option State
  | .openClaim p =>
      match s.pc p with
      | .idle =>
          -- os.open(path, O_RDWR | O_CREAT)
          match s.path with
          | some i => some (s.setPc p (.claimOpen i))
          | none =>
              some ({ s with path := some s.fresh, fresh := s.fresh + 1 }.setPc p
                (.claimOpen s.fresh))
      | _ => none
  | .flockClaim p =>
      match s.pc p with
      | .claimOpen i =>
          if s.holder i = none then some ((s.flock p i).setPc p (.claimLocked i))
          else some (s.setPc p (.refused i))
      | _ => none
  | .writeIdentity p =>
      match s.pc p with
      | .claimLocked i =>
          some ({ s with identity := Function.update s.identity i (some p) }.setPc p
            (.claimed i))
      | _ => none
  | .closeRefused p =>
      match s.pc p with
      | .refused _ => some (s.setPc p .idle)
      | _ => none
  | .unlock p =>
      match s.pc p with
      | .claimed i => some ((s.unflock p i).setPc p (.unlocked i))
      | _ => none
  | .unlockFails p =>
      -- an OSError from LOCK_UN is logged; the close below drops the lock
      match s.pc p with
      | .claimed i => some (s.setPc p (.unlocked i))
      | _ => none
  | .close p =>
      match s.pc p with
      | .unlocked i => some ((s.unflock p i).setPc p .closed)
      | _ => none
  | .unlink p =>
      -- removes whatever file the path names now; FileNotFoundError is ignored
      match s.pc p with
      | .closed => some ({ s with path := none }.setPc p .idle)
      | _ => none
  | .unlinkFails p =>
      match s.pc p with
      | .closed => some (s.setPc p .idle)
      | _ => none
  | .openProbe p =>
      match s.pc p with
      | .idle =>
          -- os.open(path, O_RDWR): FileNotFoundError answers False at once
          match s.path with
          | some i => some (s.setPc p (.probeOpen i))
          | none => some s
      | _ => none
  | .flockProbe p =>
      match s.pc p with
      | .probeOpen i =>
          if s.holder i = none then some ((s.flock p i).setPc p (.probeLocked i))
          else some (s.setPc p (.probeDone i true))
      | _ => none
  | .unlockProbe p =>
      match s.pc p with
      | .probeLocked i => some ((s.unflock p i).setPc p (.probeDone i false))
      | _ => none
  | .closeProbe p =>
      match s.pc p with
      | .probeDone i _ => some ((s.unflock p i).setPc p .idle)
      | _ => none
  | .crash p =>
      match s.pc p with
      | .crashed => none
      | _ => some ((s.dropLocks p).setPc p .crashed)

/-- Any number of processes on one job's lock, in any interleaving. -/
def machine : Machine State Action where
  start := fun s => s = init
  step := step

def Action.actor : Action -> Process
  | .openClaim p | .flockClaim p | .writeIdentity p | .closeRefused p
  | .unlock p | .unlockFails p | .close p | .unlink p | .unlinkFails p
  | .openProbe p | .flockProbe p | .unlockProbe p | .closeProbe p | .crash p => p

/-!
## What one step changes
-/

theorem step_pc_other {s next : State} {a : Action} (h : step s a = some next)
    {q : Process} (hq : q ≠ a.actor) : next.pc q = s.pc q := by
  cases a <;> simp only [Action.actor] at hq <;> simp only [step] at h <;>
    grind [setPc_pc_other, flock_pc, unflock_pc, dropLocks_pc]

theorem step_holder_other {s next : State} {a : Action} (h : step s a = some next)
    {q : Process} {j : Inode} (hq : q ≠ a.actor) (hj : s.holder j = some q) :
    next.holder j = some q := by
  cases a <;> simp only [Action.actor] at hq <;> simp only [step] at h <;>
    grind [setPc_holder_at, flock_holder_of_free, unflock_holder_of_ne,
      dropLocks_holder_of_ne]

/-- The path changes only when `claim_apply` creates the file and when `release`
unlinks it. -/
theorem step_path {s next : State} {a : Action} (h : step s a = some next) :
    next.path = s.path ∨ s.path = none ∨ exists p, a = .unlink p := by
  cases a <;> simp only [step] at h <;>
    grind [setPc_path, flock_path, unflock_path, dropLocks_path]

/-- The process has the flock of `claim_apply` on the inode. -/
def Owns (s : State) (p : Process) (i : Inode) : Prop :=
  s.pc p = .claimLocked i ∨ s.pc p = .claimed i

theorem step_owns_other {s next : State} {a : Action} (h : step s a = some next)
    {q : Process} {i : Inode} (hq : q ≠ a.actor) : Owns next q i <-> Owns s q i := by
  simp [Owns, step_pc_other h hq]

/-- Only the flock of `claim_apply` makes its process an owner, and a process that
stays one keeps the locks and the path as they were. -/
theorem step_owns_actor {s next : State} {a : Action} (h : step s a = some next)
    {i : Inode} (hown : Owns next a.actor i) :
    (Owns s a.actor i ∧ next.holder = s.holder ∧ next.path = s.path) ∨
      (exists p, a = .flockClaim p ∧ s.pc p = .claimOpen i ∧ s.holder i = none ∧
        next.holder i = some p ∧ next.path = s.path) := by
  cases a <;> simp only [Action.actor, Owns] at hown ⊢ <;> simp only [step] at h <;>
    grind [setPc_pc_self, setPc_holder, setPc_holder_at, setPc_path, flock_path,
      flock_holder_self]

/-!
## Mutual exclusion

The lock excludes while the inode it was taken on is the one the path names.
Two steps can break that: taking the flock on an inode that a release has
unlinked, and unlinking a file that a new claimer has locked.
-/

/-- `claim_apply` takes the flock only on the inode that the path still names,
and `release` unlinks only a file that no claimer has locked. -/
def OnNamedInode (s : State) : Action -> Prop
  | .flockClaim p =>
      forall i, s.pc p = .claimOpen i -> s.holder i = none -> s.path = some i
  | .unlink _ => forall q i, Owns s q i -> s.path ≠ some i
  | _ => True

def OwnersNamed (s : State) : Prop :=
  forall q i, Owns s q i -> s.holder i = some q ∧ s.path = some i

theorem ownersNamed_init : OwnersNamed init := by
  intro q i h
  rcases h with h | h <;> cases h

theorem ownersNamed_preserved : machine.Preserved OnNamedInode OwnersNamed := by
  intro s a next hinv hguard hstep q i hown
  by_cases hactor : q = a.actor
  · rw [hactor] at hown ⊢
    rcases step_owns_actor hstep hown with
      ⟨hbefore, hholder, hpath⟩ | ⟨p, ha, hpc, hfree, hholder, hpath⟩
    · rw [hholder, hpath]
      exact hinv a.actor i hbefore
    · -- the guard: the inode just locked is still the one the path names
      subst a
      rw [hpath]
      exact ⟨hholder, hguard i hpc hfree⟩
  · have hbefore : Owns s q i := (step_owns_other hstep hactor).mp hown
    have hq := hinv q i hbefore
    refine ⟨step_holder_other hstep hactor hq.left, ?_⟩
    rcases step_path hstep with hpath | hnone | ⟨p, ha⟩
    · rw [hpath]
      exact hq.right
    · rw [hnone] at hq
      cases hq.right
    · subst a
      exact absurd hq.right (hguard q i hbefore)

/-- At most one process is between a successful `claim_apply` and the start of its
release, in every run that locks and unlinks only the named inode. -/
theorem claim_exclusive {s : State} (hreach : machine.Reaches OnNamedInode s)
    {p q : Process} {i j : Inode} (hp : s.pc p = .claimed i) (hq : s.pc q = .claimed j) :
    p = q := by
  have hinv : OwnersNamed s :=
    Machine.reaches_invariant (fun s hs => by rw [hs]; exact ownersNamed_init)
      ownersNamed_preserved hreach
  have hpown := hinv p i (Or.inr hp)
  have hqown := hinv q j (Or.inr hq)
  have hij : i = j := by
    have hpath := hpown.right.symm.trans hqown.right
    injection hpath
  have hsame := hpown.left.symm.trans (hij ▸ hqown.left)
  injection hsame

/-- A run that meets the guard: two processes open the same file, and one gets the job. -/
theorem claim_exclusive_contended :
    exists s, machine.Reaches OnNamedInode s ∧ s.pc 7 = .claimed 0 ∧ s.pc 8 = .refused 0 ∧
      forall q j, s.pc q = .claimed j -> 7 = q := by
  let run : List Action :=
    [.openClaim 7, .openClaim 8, .flockClaim 7, .flockClaim 8, .writeIdentity 7]
  have hguard : machine.Guarded OnNamedInode init run := by
    refine ⟨trivial, fun s1 h1 => ⟨trivial, fun s2 h2 => ⟨?_, fun s3 h3 => ⟨?_, fun _ _ =>
      ⟨trivial, fun _ _ => trivial⟩⟩⟩⟩⟩
    · cases h1
      cases h2
      intro i hpc _
      cases hpc
      rfl
    · cases h1
      cases h2
      cases h3
      intro i hpc hfree
      cases hpc
      cases hfree
  have hreach : machine.Reaches OnNamedInode ((machine.exec init run).get rfl) :=
    ⟨init, run, rfl, hguard, rfl⟩
  exact ⟨_, hreach, rfl, rfl, fun q j hq => claim_exclusive hreach rfl hq⟩

/-- One process locks the file between another's unlock and unlink; a third then
creates a fresh file and claims the job as well. -/
theorem claim_not_exclusive :
    exists s, machine.Reaches Machine.Free s ∧
      s.pc 1 = .claimed 0 ∧ s.pc 2 = .claimed 1 := by
  let run : List Action :=
    [.openClaim 0, .flockClaim 0, .writeIdentity 0, .unlock 0,
     .openClaim 1, .flockClaim 1, .writeIdentity 1, .close 0, .unlink 0,
     .openClaim 2, .flockClaim 2, .writeIdentity 2]
  exact ⟨(machine.exec init run).get rfl,
    ⟨init, run, rfl, Machine.guarded_free machine run init, rfl⟩, rfl, rfl⟩

end ApplyClaim
end Job
end MightyColab
