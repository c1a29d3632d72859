import Mathlib.Data.List.Induction
import MightyColab.Job.ApplyClaim

/-!
# Who makes an apply fail

`claim_apply` raises `ApplyInProgress` when it finds the lock taken. Besides the applies, the
probe of `prune` takes the lock, for the short time between its flock and its unlock. A call
of `claim_apply` is followed from its open to its flock, beside any other processes.
-/

namespace MightyColab
namespace Job

open Lib

namespace Refusals

open ApplyClaim
open State

/-!
## What is said of a call
-/

/-- A call of `claim_apply` in a run, from its open to its try of the flock. -/
structure IsCall (actions before during after : List Action) (p : Process) : Prop where
  split : actions = before ++ .openClaim p :: (during ++ .flockClaim p :: after)
  others : forall a, a ∈ during -> a.actor ≠ p

def TriesIn (before during : List Action) (p : Process) (s : State) : Prop :=
  machine.exec init (before ++ .openClaim p :: during) = some s

/-- The flock is taken: `BlockingIOError`, and `ApplyInProgress` from it. -/
def Refused (s : State) (p : Process) : Prop :=
  exists i, s.pc p = .claimOpen i ∧ s.holder i ≠ none

/-- The flock that `claim_apply` took is still held. -/
def HoldsClaim (s : State) (q : Process) : Prop :=
  exists i, s.holder i = some q ∧
    (s.pc q = .claimLocked i ∨ s.pc q = .claimed i ∨ s.pc q = .unlocked i)

/-- At some moment of the call, another process held a claim that it had not released. -/
def HadRival (before during : List Action) (p : Process) : Prop :=
  exists seen rest s q, during = seen ++ rest ∧
    machine.exec init (before ++ .openClaim p :: seen) = some s ∧ q ≠ p ∧ HoldsClaim s q

def withoutProbes (s : State) : State :=
  { s with holder := fun i => (s.holder i).filter fun q => s.pc q ≠ .probeLocked i }

/-- The call is refused, and would not be if no probe had the lock. -/
def FailsByProbe (s : State) (p : Process) : Prop :=
  Refused s p ∧ ¬Refused (withoutProbes s) p

/-- Every refusal in the run is a rival's doing, and none is a probe's. -/
def RefusedOnlyToRivals (actions : List Action) : Prop :=
  forall p before during after s, IsCall actions before during after p ->
    TriesIn before during p s -> Refused s p -> HadRival before during p ∧ ¬FailsByProbe s p

/-- No probe holds the lock that a claim tries. -/
def NoProbeHolds (s : State) : Action -> Prop
  | .flockClaim p => forall i, s.pc p = .claimOpen i -> forall q, s.pc q ≠ .probeLocked i
  | _ => True

/-!
## Who holds a lock
-/

def Holding (c : Pc) (i : Inode) : Prop :=
  c = .claimLocked i ∨ c = .claimed i ∨ c = .unlocked i ∨ c = .probeLocked i

/-- Whoever holds a lock is at such a stage, and a probe that was granted it holds it. -/
structure Staged (s : State) : Prop where
  holder : forall i q, s.holder i = some q -> Holding (s.pc q) i
  probe : forall i q, s.pc q = .probeLocked i -> s.holder i = some q

theorem Holding.unique {c : Pc} {i j : Inode} (hi : Holding c i) (hj : Holding c j) : i = j := by
  rcases hi with rfl | rfl | rfl | rfl <;>
    rcases hj with h | h | h | h <;> cases h <;> rfl

variable {s next : State} {p q : Process} {i : Inode} {c : Pc}

theorem Staged.moved (h : Staged s) (hpc : next.pc = s.pc)
    (hothers : forall j q, q ≠ p -> (next.holder j = some q <-> s.holder j = some q))
    (hown : forall j, next.holder j = some p -> Holding c j)
    (hprobe : forall j, c = .probeLocked j -> next.holder j = some p) :
    Staged (next.setPc p c) := by
  constructor
  · intro j q hq
    by_cases hactor : q = p
    · subst hactor
      rw [setPc_pc_self]
      exact hown j hq
    · rw [setPc_pc_other next c hactor, hpc]
      exact h.holder j q ((hothers j q hactor).mp hq)
  · intro j q hq
    by_cases hactor : q = p
    · subst hactor
      rw [setPc_pc_self] at hq
      exact hprobe j hq
    · rw [setPc_pc_other next c hactor, hpc] at hq
      exact (hothers j q hactor).mpr (h.probe j q hq)

theorem Staged.free (h : Staged s) (hstage : forall j, ¬Holding (s.pc p) j) (j : Inode) :
    s.holder j ≠ some p := fun hj => hstage j (h.holder j p hj)

theorem Staged.goTo (h : Staged s) (hpc : next.pc = s.pc) (hholder : next.holder = s.holder)
    (hstage : forall j, ¬Holding (s.pc p) j) (hc : forall j, c ≠ .probeLocked j) :
    Staged (next.setPc p c) := by
  apply h.moved hpc
  · intro j q _
    rw [hholder]
  · intro j hj
    rw [hholder] at hj
    exact absurd hj (h.free hstage j)
  · exact fun j hj => absurd hj (hc j)

theorem Staged.taken (h : Staged s) (hfree : s.holder i = none)
    (hstage : forall j, ¬Holding (s.pc p) j) (hc : Holding c i) :
    Staged ((s.flock p i).setPc p c) := by
  apply h.moved (flock_pc s p i)
  · intro j q hq
    by_cases hj : j = i
    · subst hj
      simp [hfree, Ne.symm hq]
    · simp [flock, Function.update, hj]
  · intro j hj
    by_cases hi : j = i
    · rw [hi]
      exact hc
    · have hold : s.holder j = some p := by simpa [flock, Function.update, hi] using hj
      exact absurd hold (h.free hstage j)
  · intro j hj
    have hi : i = j := hc.unique (by rw [hj]; exact Or.inr (Or.inr (Or.inr rfl)))
    rw [← hi]
    exact flock_holder_self s p i

theorem Staged.kept (h : Staged s) (hpc : next.pc = s.pc) (hholder : next.holder = s.holder)
    (hstage : Holding (s.pc p) i) (hc : Holding c i) (hnot : c ≠ .probeLocked i) :
    Staged (next.setPc p c) := by
  apply h.moved hpc
  · intro j q _
    rw [hholder]
  · intro j hj
    rw [hholder] at hj
    rw [← hstage.unique (h.holder j p hj)]
    exact hc
  · intro j hj
    have hi : i = j := hc.unique (by rw [hj]; exact Or.inr (Or.inr (Or.inr rfl)))
    exact absurd (hi ▸ hj) hnot

theorem Staged.dropped (h : Staged s) (hstage : forall j, Holding (s.pc p) j -> j = i)
    (hc : forall j, c ≠ .probeLocked j) : Staged ((s.unflock p i).setPc p c) := by
  apply h.moved (unflock_pc s p i)
  · intro j q hq
    unfold unflock
    by_cases hi : s.holder i = some p
    · by_cases hj : j = i
      · subst hj
        simp [hi, Ne.symm hq]
      · simp [hi, Function.update, hj]
    · simp [hi]
  · intro j hj
    have hold : s.holder j = some p ∧ j ≠ i := by
      unfold unflock at hj
      by_cases hi : s.holder i = some p
      · by_cases hji : j = i
        · subst hji
          simp [hi] at hj
        · exact ⟨by simpa [hi, Function.update, hji] using hj, hji⟩
      · have hj' : s.holder j = some p := by simpa [hi] using hj
        exact ⟨hj', fun hji => hi (hji ▸ hj')⟩
    exact absurd (hstage j (h.holder j p hold.left)) hold.right
  · exact fun j hj => absurd hj (hc j)

theorem Staged.died (h : Staged s) : Staged ((s.dropLocks p).setPc p .crashed) := by
  apply h.moved (dropLocks_pc s p)
  · intro j q hq
    by_cases hj : s.holder j = some p
    · simp [dropLocks, hj, Ne.symm hq]
    · simp [dropLocks, hj]
  · intro j hj
    by_cases hp : s.holder j = some p
    · simp [dropLocks, hp] at hj
    · simp [dropLocks, hp] at hj
  · exact fun j hj => by cases hj

theorem staged_init : Staged init where
  holder _ _ h := by cases h
  probe _ _ h := by cases h

theorem staged_preserved : machine.Preserved Machine.Free Staged := by
  intro s a next hs _ hstep
  have h : step s a = some next := hstep
  cases a with
  | openClaim p =>
      simp only [step] at h
      split at h
      · next hpc =>
          split at h <;> cases h <;>
            exact hs.goTo rfl rfl (by simp [hpc, Holding]) (by simp)
      · cases h
  | flockClaim p =>
      simp only [step] at h
      split at h
      · next i hpc =>
          split at h
          · next hfree =>
              cases h
              exact hs.taken hfree (by simp [hpc, Holding]) (Or.inl rfl)
          · cases h
            exact hs.goTo rfl rfl (by simp [hpc, Holding]) (by simp)
      · cases h
  | writeIdentity p =>
      simp only [step] at h
      split at h
      · next i hpc =>
          cases h
          exact hs.kept rfl rfl (hpc ▸ Or.inl rfl) (Or.inr (Or.inl rfl)) (by simp)
      · cases h
  | closeRefused p | unlink p | unlinkFails p =>
      simp only [step] at h
      split at h
      · next hpc =>
          cases h
          exact hs.goTo rfl rfl (by simp [hpc, Holding]) (by simp)
      · cases h
  | unlock p | close p | unlockProbe p | closeProbe p =>
      simp only [step] at h
      split at h
      · next hpc =>
          cases h
          exact hs.dropped (by simp [hpc, Holding]) (by simp)
      · cases h
  | unlockFails p =>
      simp only [step] at h
      split at h
      · next i hpc =>
          cases h
          exact hs.kept rfl rfl (hpc ▸ Or.inr (Or.inl rfl)) (Or.inr (Or.inr (Or.inl rfl))) (by simp)
      · cases h
  | openProbe p =>
      simp only [step] at h
      split at h
      · next hpc =>
          split at h <;> cases h
          · exact hs.goTo rfl rfl (by simp [hpc, Holding]) (by simp)
          · exact hs
      · cases h
  | flockProbe p =>
      simp only [step] at h
      split at h
      · next i hpc =>
          split at h
          · next hfree =>
              cases h
              exact hs.taken hfree (by simp [hpc, Holding]) (Or.inr (Or.inr (Or.inr rfl)))
          · cases h
            exact hs.goTo rfl rfl (by simp [hpc, Holding]) (by simp)
      · cases h
  | crash p =>
      simp only [step] at h
      split at h
      · cases h
      · cases h
        exact hs.died

/-!
## Where a call began
-/

theorem opened_only {s next : State} {a : Action} (h : step s a = some next) {p : Process}
    {i : Inode} (ha : a.actor = p) (hpc : next.pc p = .claimOpen i) : a = .openClaim p := by
  subst ha
  cases a <;> simp only [Action.actor] at hpc ⊢ <;> simp only [step] at h <;>
    grind [setPc_pc_self]

/-- A process that has the lock file open for a claim has opened it earlier in the run. -/
theorem call_of_open {actions : List Action} {s : State}
    (hexec : machine.exec init actions = some s) {p : Process} {i : Inode}
    (hpc : s.pc p = .claimOpen i) :
    exists before during, actions = before ++ .openClaim p :: during ∧
      forall a, a ∈ during -> a.actor ≠ p := by
  induction actions using List.reverseRecOn generalizing s with
  | nil =>
      cases hexec
      cases hpc
  | append_singleton front a ih =>
      rcases Machine.exec_concat hexec with ⟨last, hlast, hstep⟩
      by_cases ha : a.actor = p
      · rw [opened_only hstep ha hpc]
        exact ⟨front, [], rfl, fun b hb => nomatch hb⟩
      · rw [step_pc_other hstep (Ne.symm ha)] at hpc
        rcases ih hlast hpc with ⟨before, during, rfl, hothers⟩
        refine ⟨before, during ++ [a], by simp, fun b hb => ?_⟩
        rcases List.mem_append.mp hb with hold | hnew
        · exact hothers b hold
        · rw [List.mem_singleton.mp hnew]
          exact ha

theorem staged_of_exec {actions : List Action} {s : State}
    (hexec : machine.exec init actions = some s) : Staged s :=
  Machine.exec_preserved staged_preserved staged_init
    (Machine.guarded_free machine actions init) hexec

/-!
## Refusals
-/

theorem rival_of_refused (hs : Staged s) (hrefused : Refused s p)
    (hprobe : NoProbeHolds s (.flockClaim p)) : exists q, q ≠ p ∧ HoldsClaim s q := by
  rcases hrefused with ⟨i, hpc, hheld⟩
  obtain ⟨q, hq⟩ := Option.ne_none_iff_exists'.mp hheld
  have hne : q ≠ p := by
    rintro rfl
    have hstage := hs.holder i q hq
    rw [hpc] at hstage
    simp [Holding] at hstage
  rcases hs.holder i q hq with hlocked | hclaimed | hunlocked | hlooking
  · exact ⟨q, hne, i, hq, Or.inl hlocked⟩
  · exact ⟨q, hne, i, hq, Or.inr (Or.inl hclaimed)⟩
  · exact ⟨q, hne, i, hq, Or.inr (Or.inr hunlocked)⟩
  · exact absurd hlooking (hprobe i hpc q)

theorem failsByProbe_iff (hs : Staged s) :
    FailsByProbe s p <-> exists i q, s.pc p = .claimOpen i ∧ s.pc q = .probeLocked i := by
  constructor
  · rintro ⟨⟨i, hpc, hheld⟩, hgranted⟩
    obtain ⟨q, hq⟩ := Option.ne_none_iff_exists'.mp hheld
    refine ⟨i, q, hpc, ?_⟩
    by_contra hnot
    exact hgranted ⟨i, hpc, by simp [withoutProbes, hq, hnot]⟩
  · rintro ⟨i, q, hpc, hlooking⟩
    have hq := hs.probe i q hlooking
    constructor
    · exact ⟨i, hpc, by simp [hq]⟩
    · rintro ⟨j, hpc', hheld⟩
      have hsame : Pc.claimOpen i = Pc.claimOpen j := hpc.symm.trans hpc'
      cases hsame
      exact hheld (by simp [withoutProbes, hq, hlooking])

/-- In every run: each refusal is a rival's doing and none is a probe's, if and only if no
claim tries the lock while a probe holds it. -/
theorem refused_only_to_rivals_iff (actions : List Action) :
    RefusedOnlyToRivals actions <-> machine.Guarded NoProbeHolds init actions := by
  rw [Machine.guarded_iff]
  constructor
  · intro h before a after s hsplit hexec
    cases a with
    | flockClaim p =>
        intro i hpc q hlooking
        have hs := staged_of_exec hexec
        rcases call_of_open hexec hpc with ⟨opening, during, rfl, hothers⟩
        have hcall : IsCall actions opening during after p := by
          refine ⟨?_, hothers⟩
          rw [hsplit, List.append_assoc, List.cons_append]
        have hfails : FailsByProbe s p := (failsByProbe_iff hs).mpr ⟨i, q, hpc, hlooking⟩
        exact (h p opening during after s hcall hexec hfails.left).right hfails
    | _ => trivial
  · intro h p before during after s hcall hexec hrefused
    have hs := staged_of_exec hexec
    have hguard : NoProbeHolds s (.flockClaim p) := by
      refine h _ _ after s ?_ hexec
      rw [hcall.split, List.append_assoc, List.cons_append]
    constructor
    · rcases rival_of_refused hs hrefused hguard with ⟨q, hne, hholds⟩
      exact ⟨during, [], s, q, (List.append_nil during).symm, hexec, hne, hholds⟩
    · intro hfails
      rcases (failsByProbe_iff hs).mp hfails with ⟨i, q, hpc, hlooking⟩
      exact hguard i hpc q hlooking

/-- `prune` probes the lock of a job that is being applied for the first time: the apply has
made the lock file and is refused, though nobody has claimed the job. -/
theorem refused_without_rival : ¬forall actions, RefusedOnlyToRivals actions := by
  intro h
  let during : List Action := [.openProbe 2, .flockProbe 2]
  have hcall : IsCall (.openClaim 1 :: (during ++ [.flockClaim 1])) [] during [] 1 :=
    ⟨rfl, by decide⟩
  have hrefused : Refused ((machine.exec init (.openClaim 1 :: during)).get rfl) 1 :=
    ⟨0, rfl, by decide⟩
  rcases (h _ 1 [] during [] _ hcall rfl hrefused).left with
    ⟨seen, rest, s, q, hsplit, hexec, _, i, _, hstage⟩
  have hseen : seen = [] ∨ seen = [.openProbe 2] ∨ seen = during := by
    rcases seen with _ | ⟨a, _ | ⟨b, _ | ⟨c, more⟩⟩⟩ <;> simp_all [during]
  rcases hseen with rfl | rfl | rfl <;> cases hexec <;>
    simp [setPc, flock, init, Function.update] at hstage <;> grind

end Refusals
end Job
end MightyColab
