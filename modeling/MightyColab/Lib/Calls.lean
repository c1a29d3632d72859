import MightyColab.Lib.Runs
import MightyColab.Lib.Slots

/-!
# Programs as the calls they make

A program makes one call after another, and what it does next is up to the answers. Processes
that run such programs share a world, in which one call is answered at a time. What a process
has come to know from its answers is carried along, so that a discipline can say which calls it
may make. A program is held to the discipline by itself; what the calls of disciplined processes
uphold then holds of every interleaving.
-/

namespace MightyColab
namespace Lib

universe u

inductive Calls (call : Type u) (answer : call -> Type u) (result : Type u) where
  | done (r : result)
  | call (c : call) (next : answer c -> Calls call answer result)

namespace Calls

variable {call : Type u} {answer : call -> Type u} {know alpha beta : Type u}

protected def bind : Calls call answer alpha -> (alpha -> Calls call answer beta) ->
    Calls call answer beta
  | .done r, f => f r
  | .call c next, f => .call c fun a => (next a).bind f

instance : Monad (Calls call answer) where
  pure := .done
  bind := Calls.bind

def ask (c : call) : Calls call answer (answer c) := .call c .done

def asked (reply : (c : call) -> answer c) : Calls call answer alpha -> List call
  | .done _ => []
  | .call c next => c :: (next (reply c)).asked reply

theorem asked_ask (reply : (c : call) -> answer c) (c : call)
    (f : answer c -> Calls call answer beta) :
    asked reply (ask c >>= f) = c :: asked reply (f (reply c)) := rfl

end Calls

/-!
## Disciplined programs
-/

/-- Which calls a process may make by what it knows, which answers it may reckon with, and what
it knows after one. -/
structure Discipline (call : Type u) (answer : call -> Type u) (know : Type u) where
  allowed : know -> call -> Prop
  expected : know -> (c : call) -> answer c -> Prop
  learn : know -> (c : call) -> answer c -> know

namespace Discipline

variable {call : Type u} {answer : call -> Type u} {know alpha beta : Type u}
variable {d : Discipline call answer know} {k : know}

/-- The program keeps to its allowed calls and ends as `post` says. -/
def Obeys (d : Discipline call answer know) :
    Calls call answer alpha -> know -> (alpha -> know -> Prop) -> Prop
  | .done r, k, post => post r k
  | .call c next, k, post =>
      d.allowed k c ∧ forall a, d.expected k c a -> d.Obeys (next a) (d.learn k c a) post

theorem obeys_pure {r : alpha} {post : alpha -> know -> Prop} (h : post r k) :
    d.Obeys (pure r : Calls call answer alpha) k post := h

theorem Obeys.weaken {p : Calls call answer alpha} {post post' : alpha -> know -> Prop}
    (h : d.Obeys p k post) (hpost : forall r k, post r k -> post' r k) : d.Obeys p k post' := by
  induction p generalizing k with
  | done r => exact hpost r k h
  | call c next ih => exact ⟨h.left, fun a ha => ih a (h.right a ha)⟩

theorem Obeys.bind {p : Calls call answer alpha} {f : alpha -> Calls call answer beta}
    {mid : alpha -> know -> Prop} {post : beta -> know -> Prop} (hp : d.Obeys p k mid)
    (hf : forall r k, mid r k -> d.Obeys (f r) k post) : d.Obeys (p >>= f) k post := by
  induction p generalizing k with
  | done r => exact hf r k hp
  | call c next ih => exact ⟨hp.left, fun a ha => ih a (hp.right a ha)⟩

theorem obeys_call {c : call} {f : answer c -> Calls call answer beta}
    {post : beta -> know -> Prop} (hallowed : d.allowed k c)
    (hf : forall a, d.expected k c a -> d.Obeys (f a) (d.learn k c a) post) :
    d.Obeys (Calls.ask c >>= f) k post := ⟨hallowed, hf⟩

end Discipline

/-!
## The shared world
-/

structure Site (world : Type u) (command : Type u) (event : Type u) (call : Type u)
    (answer : call -> Type u) (know : Type u) extends Discipline call answer know where
  program : command -> Calls call answer PUnit
  /-- The world after the call, if it can be answered so. -/
  perform : world -> (c : call) -> answer c -> Option world
  happen : world -> event -> Option world
  /-- What a process knows at its start. -/
  blank : know
  /-- A process that knows this much may end. -/
  settled : world -> know -> Prop

namespace Site

variable {world command event call : Type u} {answer : call -> Type u} {know : Type u}

structure Process (call : Type u) (answer : call -> Type u) (know : Type u) where
  rest : Calls call answer PUnit
  known : know

/-- A program that has come to its end is no process any more. -/
def Process.of (rest : Calls call answer PUnit) (known : know) :
    Option (Process call answer know) :=
  match rest with
  | .done _ => none
  | .call _ _ => some ⟨rest, known⟩

structure State (world call : Type u) (answer : call -> Type u) (know : Type u) where
  world : world
  procs : Nat -> Option (Process call answer know) := fun _ => none

def State.known (s : State world call answer know) (p : Nat) : Option know :=
  (s.procs p).map Process.known

inductive Action (command event call : Type u) (answer : call -> Type u) where
  | start (p : Nat) (c : command)
  /-- The next call of a process is answered. -/
  | act (p : Nat) (reply : (c : call) -> answer c)
  /-- The process ends where it is. -/
  | leave (p : Nat)
  | event (e : event)

def step (S : Site world command event call answer know) (s : State world call answer know) :
    Action command event call answer -> Option (State world call answer know)
  | .start p c =>
      match s.procs p with
      | none =>
          some { s with procs := Function.update s.procs p (Process.of (S.program c) S.blank) }
      | some _ => none
  | .act p reply =>
      match s.procs p with
      | none | some ⟨.done _, _⟩ => none
      | some ⟨.call c next, k⟩ =>
          (S.perform s.world c (reply c)).map fun w =>
            { world := w
              procs := Function.update s.procs p
                (Process.of (next (reply c)) (S.learn k c (reply c))) }
  | .leave p => some { s with procs := Function.update s.procs p none }
  | .event e => (S.happen s.world e).map fun w => { s with world := w }

def machine (S : Site world command event call answer know) (initial : world -> Prop) :
    Machine (State world call answer know) (Action command event call answer) where
  start s := exists w, initial w ∧ s = { world := w }
  step := S.step

structure Admits (world event call : Type u) (answer : call -> Type u) (know : Type u) where
  reply : world -> (Nat -> Option know) -> Nat -> (c : call) -> answer c -> Prop
  event : world -> (Nat -> Option know) -> event -> Prop

/-- A run that meets what is admitted, and in which no process is ended before it is settled. -/
def Orderly (S : Site world command event call answer know)
    (admits : Admits world event call answer know) (s : State world call answer know) :
    Action command event call answer -> Prop
  | .act p reply =>
      forall c next k, s.procs p = some ⟨.call c next, k⟩ ->
        admits.reply s.world s.known p c (reply c)
  | .leave p => forall k, s.known p = some k -> S.settled s.world k
  | .event e => admits.event s.world s.known e
  | .start _ _ => True

/-!
## What disciplined processes uphold
-/

/-- What a step of a disciplined process does to an invariant, one field for each step. -/
structure Upholds (S : Site world command event call answer know)
    (admits : Admits world event call answer know)
    (inv : world -> (Nat -> Option know) -> Prop) : Prop where
  joined : forall {w kn p}, inv w kn -> kn p = none ->
    inv w (Function.update kn p (some S.blank))
  answered : forall {w w' kn p k c a}, inv w kn -> kn p = some k -> S.allowed k c ->
    admits.reply w kn p c a -> S.perform w c a = some w' ->
      S.expected k c a ∧ inv w' (Function.update kn p (some (S.learn k c a)))
  left : forall {w kn p k}, inv w kn -> kn p = some k -> S.settled w k ->
    inv w (Function.update kn p none)
  happened : forall {w w' kn e}, inv w kn -> admits.event w kn e -> S.happen w e = some w' ->
    inv w' kn

def Disciplined (S : Site world command event call answer know) : Prop :=
  forall c, S.Obeys (S.program c) S.blank fun _ k => forall w, S.settled w k

variable {S : Site world command event call answer know}
variable {admits : Admits world event call answer know}
variable {inv : world -> (Nat -> Option know) -> Prop} {s : State world call answer know}

/-- What a step does: a process begins, goes on or is ended, or something else happens. -/
theorem step_cases {a : Action command event call answer}
    {next : State world call answer know} (hstep : S.step s a = some next) :
    (exists p c, a = .start p c ∧ s.procs p = none ∧
      next = { s with procs := Function.update s.procs p (Process.of (S.program c) S.blank) }) ∨
      (exists p reply c rest k w, a = .act p reply ∧ s.procs p = some ⟨.call c rest, k⟩ ∧
        S.perform s.world c (reply c) = some w ∧
          next = ⟨w, Function.update s.procs p
            (Process.of (rest (reply c)) (S.learn k c (reply c)))⟩) ∨
        (exists p, a = .leave p ∧ next = { s with procs := Function.update s.procs p none }) ∨
          exists e w, a = .event e ∧ S.happen s.world e = some w ∧
            next = { s with world := w } := by
  cases a with
  | start p c =>
      simp only [step] at hstep
      split at hstep
      · next hfree =>
          cases hstep
          exact Or.inl ⟨p, c, rfl, hfree, rfl⟩
      · cases hstep
  | act p reply =>
      simp only [step] at hstep
      split at hstep
      · cases hstep
      · cases hstep
      · next c rest k hproc =>
          rcases Option.map_eq_some_iff.mp hstep with ⟨w, hperform, hnext⟩
          exact Or.inr (Or.inl ⟨p, reply, c, rest, k, w, rfl, hproc, hperform, hnext.symm⟩)
  | leave p =>
      cases hstep
      exact Or.inr (Or.inr (Or.inl ⟨p, rfl, rfl⟩))
  | event e =>
      rcases Option.map_eq_some_iff.mp hstep with ⟨w, hhappen, hnext⟩
      exact Or.inr (Or.inr (Or.inr ⟨e, w, rfl, hhappen, hnext.symm⟩))

def Obedient (S : Site world command event call answer know)
    (procs : Nat -> Option (Process call answer know)) : Prop :=
  forall p proc, procs p = some proc ->
    S.Obeys proc.rest proc.known fun _ k => forall w, S.settled w k

theorem known_update {procs : Nat -> Option (Process call answer know)} {p : Nat}
    {new : Option (Process call answer know)} :
    (fun q => (Function.update procs p new q).map Process.known) =
      Function.update (fun q => (procs q).map Process.known) p (new.map Process.known) := by
  funext q
  by_cases hq : q = p
  · rw [hq, Function.update_self, Function.update_self]
  · rw [Function.update_of_ne hq, Function.update_of_ne hq]

theorem Obedient.set {procs : Nat -> Option (Process call answer know)} (h : Obedient S procs)
    {p : Nat} {new : Option (Process call answer know)}
    (hnew : forall proc, new = some proc ->
      S.Obeys proc.rest proc.known fun _ k => forall w, S.settled w k) :
    Obedient S (Function.update procs p new) := by
  intro q proc hq
  rcases update_some_cases hq with ⟨_, heq⟩ | ⟨_, hold⟩
  · exact hnew proc heq
  · exact h q proc hold

theorem resumed (hup : S.Upholds admits inv) {w : world} {p : Nat} {k : know}
    {rest : Calls call answer PUnit} {procs : Nat -> Option (Process call answer know)}
    (hobedient : Obedient S procs)
    (hinv : inv w (Function.update (fun q => (procs q).map Process.known) p (some k)))
    (hrest : S.Obeys rest k fun _ k => forall w, S.settled w k) :
    Obedient S (Function.update procs p (Process.of rest k)) ∧
      inv w fun q => (Function.update procs p (Process.of rest k) q).map Process.known := by
  rw [known_update]
  cases rest with
  | done r =>
      refine ⟨hobedient.set fun proc hnone => ?_, ?_⟩
      · cases hnone
      · have hleft := hup.left hinv (Function.update_self ..) (hrest w)
        rw [Function.update_idem] at hleft
        exact hleft
  | call c next =>
      refine ⟨hobedient.set fun proc hsome => ?_, hinv⟩
      cases hsome
      exact hrest

theorem upheld_preserved (initial : world -> Prop) (hup : S.Upholds admits inv)
    (hprograms : S.Disciplined) :
    (S.machine initial).Preserved (S.Orderly admits)
      fun s => Obedient S s.procs ∧ inv s.world s.known := by
  intro s a next h hguard hstep
  rcases h with ⟨hobedient, hinv⟩
  rcases step_cases hstep with ⟨p, c, ha, hfree, hnext⟩ |
    ⟨p, reply, c, rest, k, w, ha, hproc, hperform, hnext⟩ | ⟨p, ha, hnext⟩ |
    ⟨e, w, ha, hhappen, hnext⟩
  all_goals
    rw [ha] at hguard
    rw [hnext]
  · have hnone : s.known p = none := by
      unfold State.known
      rw [hfree]
      rfl
    exact resumed hup hobedient (hup.joined hinv hnone) (hprograms c)
  · have hknown : s.known p = some k := by
      unfold State.known
      rw [hproc]
      rfl
    rcases hobedient p _ hproc with ⟨hallowed, hrest⟩
    rcases hup.answered hinv hknown hallowed (hguard c rest k hproc) hperform with
      ⟨hexpected, hinv'⟩
    exact resumed hup hobedient hinv' (hrest _ hexpected)
  · refine ⟨hobedient.set fun proc hnone => (by cases hnone), ?_⟩
    change inv s.world fun q => (Function.update s.procs p none q).map Process.known
    rw [known_update]
    cases hknown : s.known p with
    | none =>
        rw [Option.map_none, ← hknown]
        change inv s.world (Function.update s.known p (s.known p))
        rw [Function.update_eq_self]
        exact hinv
    | some k => exact hup.left hinv hknown (hguard k hknown)
  · exact ⟨hobedient, hup.happened hinv hguard hhappen⟩

theorem upheld {initial : world -> Prop} (hup : S.Upholds admits inv)
    (hprograms : S.Disciplined) (hinitial : forall w, initial w -> inv w fun _ => none)
    (hreach : (S.machine initial).Reaches (S.Orderly admits) s) : inv s.world s.known := by
  have hboth := Machine.reaches_invariant (fun s0 hs0 => by
    rcases hs0 with ⟨w, hw, hs0⟩
    rw [hs0]
    exact ⟨fun p proc hnone => (by cases hnone), hinitial w hw⟩)
    (upheld_preserved initial hup hprograms) hreach
  exact hboth.right

/-!
## What one process comes to
-/

section Follow

variable {know' : Type u} {d : Discipline call answer know'} {post : know' -> Prop}
variable {good : world -> know' -> Prop} {q : Nat}
variable {guard : State world call answer know -> Action command event call answer -> Prop}

/-- What is left of a process keeps to another discipline, and what that has come to know is
good. -/
def Follows (d : Discipline call answer know') (post : know' -> Prop)
    (good : world -> know' -> Prop) (q : Nat) (s : State world call answer know) : Prop :=
  exists k, good s.world k ∧ (s.procs q = none -> post k) ∧
    forall proc, s.procs q = some proc -> d.Obeys proc.rest k fun _ k => post k

structure Guides (S : Site world command event call answer know)
    (d : Discipline call answer know') (good : world -> know' -> Prop) (q : Nat)
    (guard : State world call answer know -> Action command event call answer -> Prop) :
    Prop where
  begun : forall {s c}, ¬guard s (.start q c)
  stays : forall {s}, ¬guard s (.leave q)
  answered : forall {s reply c next k k' w}, guard s (.act q reply) ->
    s.procs q = some ⟨.call c next, k⟩ -> d.allowed k' c -> good s.world k' ->
      S.perform s.world c (reply c) = some w ->
        d.expected k' c (reply c) ∧ good w (d.learn k' c (reply c))
  performed : forall {w w' c a k'}, good w k' -> S.perform w c a = some w' -> good w' k'
  happened : forall {w w' e k'}, good w k' -> S.happen w e = some w' -> good w' k'

/-- A process that begins, or goes on, with a program that keeps to the discipline. -/
theorem follows_of {s : State world call answer know} {k : know} {k' : know'}
    {rest : Calls call answer PUnit} (hproc : s.procs q = Process.of rest k)
    (hgood : good s.world k') (hobeys : d.Obeys rest k' fun _ k => post k) :
    Follows d post good q s := by
  refine ⟨k', hgood, fun hnone => ?_, fun proc hsome => ?_⟩
  · rw [hproc] at hnone
    cases rest with
    | done r => exact hobeys
    | call c next => cases hnone
  · rw [hproc] at hsome
    cases rest with
    | done r => cases hsome
    | call c next =>
        cases hsome
        exact hobeys

theorem follows_preserved (initial : world -> Prop) (hguides : S.Guides d good q guard) :
    (S.machine initial).Preserved guard (Follows d post good q) := by
  intro s a next h hguard hstep
  rcases h with ⟨k', hgood, hdone, hrest⟩
  have hother : forall {w p new}, q ≠ p -> good w k' ->
      Follows d post good q ⟨w, Function.update s.procs p new⟩ := by
    intro w p new hne hgood'
    have hsame : Function.update s.procs p new q = s.procs q := Function.update_of_ne hne ..
    exact ⟨k', hgood', fun hnone => hdone (hsame.symm.trans hnone),
      fun proc hproc => hrest proc (hsame.symm.trans hproc)⟩
  rcases step_cases hstep with ⟨p, c, ha, _, hnext⟩ |
    ⟨p, reply, c, rest, k, w, ha, hproc, hperform, hnext⟩ | ⟨p, ha, hnext⟩ |
    ⟨e, w, _, hhappen, hnext⟩
  · rw [ha] at hguard
    rw [hnext]
    exact hother (fun heq => hguides.begun (heq ▸ hguard)) hgood
  · rw [ha] at hguard
    rw [hnext]
    by_cases hqp : q = p
    · rw [← hqp] at hproc hguard ⊢
      rcases hrest _ hproc with ⟨hallowed, hcontinue⟩
      rcases hguides.answered hguard hproc hallowed hgood hperform with ⟨hexpected, hgood'⟩
      exact follows_of (Function.update_self ..) hgood' (hcontinue _ hexpected)
    · exact hother hqp (hguides.performed hgood hperform)
  · rw [ha] at hguard
    rw [hnext]
    exact hother (fun heq => hguides.stays (heq ▸ hguard)) hgood
  · rw [hnext]
    exact ⟨k', hguides.happened hgood hhappen, hdone, hrest⟩

theorem followed {initial : world -> Prop} (hguides : S.Guides d good q guard)
    {s s' : State world call answer know} {run : List (Action command event call answer)}
    (hfollows : Follows d post good q s)
    (hguarded : (S.machine initial).Guarded guard s run)
    (hexec : (S.machine initial).exec s run = some s') (hend : s'.procs q = none) :
    exists k', good s'.world k' ∧ post k' := by
  rcases Machine.exec_preserved (follows_preserved initial hguides) hfollows hguarded hexec with
    ⟨k'', hgood, hdone, _⟩
  exact ⟨k'', hgood, hdone hend⟩

end Follow

/-!
## The processes of a run
-/

/-- A process that is begun has a number below `n`. -/
def Action.Below (n : Nat) : Action command event call answer -> Prop
  | .start p _ => p < n
  | .act _ _ | .leave _ | .event _ => True

instance (n : Nat) :
    DecidablePred (Action.Below n : Action command event call answer -> Prop)
  | .start p _ => inferInstanceAs (Decidable (p < n))
  | .act _ _ | .leave _ | .event _ => .isTrue trivial

/-- Nobody is at work but processes with numbers below `n`. -/
def Among (n : Nat) (s : State world call answer know) : Prop :=
  forall p, n ≤ p -> s.procs p = none

theorem among_preserved (initial : world -> Prop) (n : Nat) :
    (S.machine initial).Preserved (fun _ a => a.Below n) (Among n) := by
  intro s a next h hbelow hstep q hq
  rcases step_cases hstep with ⟨p, c, ha, _, hnext⟩ |
    ⟨p, reply, c, rest, k, w, _, hproc, _, hnext⟩ | ⟨p, _, hnext⟩ | ⟨e, w, _, _, hnext⟩
  all_goals rw [hnext]
  · rw [ha] at hbelow
    have hne : q ≠ p := fun heq => absurd hbelow (by rw [← heq]; exact Nat.not_lt.mpr hq)
    exact update_free (h q hq) hne
  · have hne : q ≠ p := by
      intro heq
      rw [← heq, h q hq] at hproc
      cases hproc
    exact update_free (h q hq) hne
  · by_cases hqp : q = p
    · rw [hqp]
      exact Function.update_self ..
    · exact update_free (h q hq) hqp
  · exact h q hq

end Site
end Lib
end MightyColab
