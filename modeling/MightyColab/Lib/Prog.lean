import Mathlib.Data.List.Basic

/-!
# Programs with state and exceptions

A program runs from a state to an outcome and a state: it returns, raises, or
leaves off because its process ends there. A handler sees what is raised, a
`finally` block runs whatever was returned or raised, and neither runs in a process
that has ended. The state is never rolled back.

Two ways to reason about a program are given with a rule for each combinator: a
Hoare triple whose postcondition judges the outcome together with the state, and
`Keeps` for a predicate on states that holds again however the program ends.
-/

namespace MightyColab
namespace Lib

universe u

inductive Outcome (error : Type u) (result : Type u) where
  | ok (value : result)
  | raised (e : error)
  /-- The process ended inside the program. -/
  | ended
  deriving DecidableEq, Repr

def Prog (state : Type u) (error : Type u) (result : Type u) : Type u :=
  state -> Outcome error result × state

namespace Prog

variable {state error alpha beta : Type u}

protected def pure (a : alpha) : Prog state error alpha := fun s => (.ok a, s)

protected def bind (p : Prog state error alpha) (f : alpha -> Prog state error beta) :
    Prog state error beta := fun s =>
  match p s with
  | (.ok a, s') => f a s'
  | (.raised e, s') => (.raised e, s')
  | (.ended, s') => (.ended, s')

instance : Monad (Prog state error) where
  pure := Prog.pure
  bind := Prog.bind

def raise (e : error) : Prog state error alpha := fun s => (.raised e, s)

def exit : Prog state error alpha := fun s => (.ended, s)

def get : Prog state error state := fun s => (.ok s, s)

def modify (f : state -> state) : Prog state error PUnit := fun s => (.ok ⟨⟩, f s)

/-- `try` with one handler for everything raised; the handler raises again what it
does not catch. -/
def attempt (p : Prog state error alpha) (handler : error -> Prog state error alpha) :
    Prog state error alpha := fun s =>
  match p s with
  | (.raised e, s') => handler e s'
  | other => other

/-- `try` with a `finally` block. What the block raises replaces what was raised. -/
def ensure (p : Prog state error alpha) (block : Prog state error PUnit) :
    Prog state error alpha := fun s =>
  match p s with
  | (.ended, s') => (.ended, s')
  | (outcome, s') =>
      match block s' with
      | (.ok _, s'') => (outcome, s'')
      | (.raised e, s'') => (.raised e, s'')
      | (.ended, s'') => (.ended, s'')

def forEach {item : Type u} (f : item -> Prog state error PUnit) :
    List item -> Prog state error PUnit
  | [] => Prog.pure ⟨⟩
  | x :: rest => (f x).bind fun _ => forEach f rest

/-!
## Running
-/

@[simp] theorem pure_run (a : alpha) (s : state) :
    (pure a : Prog state error alpha) s = (.ok a, s) := rfl

theorem bind_run (p : Prog state error alpha) (f : alpha -> Prog state error beta)
    (s : state) :
    (p >>= f) s =
      match p s with
      | (.ok a, s') => f a s'
      | (.raised e, s') => (.raised e, s')
      | (.ended, s') => (.ended, s') := rfl

@[simp] theorem raise_run (e : error) (s : state) :
    (raise e : Prog state error alpha) s = (.raised e, s) := rfl

@[simp] theorem exit_run (s : state) :
    (exit : Prog state error alpha) s = (.ended, s) := rfl

@[simp] theorem get_run (s : state) :
    (get : Prog state error state) s = (.ok s, s) := rfl

@[simp] theorem modify_run (f : state -> state) (s : state) :
    (modify f : Prog state error PUnit) s = (.ok ⟨⟩, f s) := rfl

theorem bind_run_ok {p : Prog state error alpha} {f : alpha -> Prog state error beta}
    {s s' : state} {a : alpha} (h : p s = (.ok a, s')) : (p >>= f) s = f a s' := by
  rw [bind_run, h]

theorem bind_run_raised {p : Prog state error alpha}
    {f : alpha -> Prog state error beta} {s s' : state} {e : error}
    (h : p s = (.raised e, s')) : (p >>= f) s = (.raised e, s') := by
  rw [bind_run, h]

theorem attempt_run_ok {p : Prog state error alpha} {handler : error -> Prog state error alpha}
    {s s' : state} {a : alpha} (h : p s = (.ok a, s')) : p.attempt handler s = (.ok a, s') := by
  unfold attempt
  rw [h]

theorem attempt_run_raised {p : Prog state error alpha}
    {handler : error -> Prog state error alpha} {s s' : state} {e : error}
    (h : p s = (.raised e, s')) : p.attempt handler s = handler e s' := by
  unfold attempt
  rw [h]

theorem bind_assoc {gamma : Type u} (p : Prog state error alpha)
    (f : alpha -> Prog state error beta) (g : beta -> Prog state error gamma) :
    (p >>= f) >>= g = p >>= fun a => f a >>= g := by
  funext s
  rw [bind_run, bind_run, bind_run]
  rcases p s with ⟨o, s'⟩
  cases o <;> rfl

theorem pure_bind (a : alpha) (f : alpha -> Prog state error beta) :
    (pure a : Prog state error alpha) >>= f = f a := rfl

theorem bind_eq_ok {p : Prog state error alpha} {f : alpha -> Prog state error beta}
    {s s' : state} {b : beta} (h : (p >>= f) s = (.ok b, s')) :
    exists a t, p s = (.ok a, t) ∧ f a t = (.ok b, s') := by
  rw [bind_run] at h
  rcases hrun : p s with ⟨o, t⟩
  rw [hrun] at h
  cases o with
  | ok a => exact ⟨a, t, rfl, h⟩
  | raised e => cases h
  | ended => cases h

theorem pure_eq_ok {a b : alpha} {s s' : state}
    (h : (pure a : Prog state error alpha) s = (.ok b, s')) : a = b ∧ s = s' := by
  cases h
  exact ⟨rfl, rfl⟩

def Still (p : Prog state error alpha) : Prop := forall s, (p s).2 = s

theorem bind_still {p : Prog state error alpha} {f : alpha -> Prog state error beta}
    (hf : forall a, Still (f a)) (s : state) : ((p >>= f) s).2 = (p s).2 := by
  rw [bind_run]
  rcases p s with ⟨o, s'⟩
  cases o with
  | ok a => exact hf a s'
  | raised e => rfl
  | ended => rfl

theorem ensure_state {p : Prog state error alpha} {block : Prog state error PUnit}
    {s : state} (h : (p s).1 ≠ .ended) : (p.ensure block s).2 = (block (p s).2).2 := by
  unfold ensure
  rcases hp : p s with ⟨o, s'⟩
  rw [hp] at h
  cases o with
  | ended => exact absurd rfl h
  | ok a => rcases hb : block s' with ⟨b, s''⟩; cases b <;> simp [hb]
  | raised e => rcases hb : block s' with ⟨b, s''⟩; cases b <;> simp [hb]

/-!
## Triples
-/

/-- From a state that satisfies `P`, the program ends as `Q` says. -/
def Triple (P : state -> Prop) (p : Prog state error alpha)
    (Q : Outcome error alpha -> state -> Prop) : Prop :=
  forall s, P s -> Q (p s).1 (p s).2

namespace Triple

variable {P : state -> Prop} {p : Prog state error alpha}
  {Q : Outcome error alpha -> state -> Prop}

theorem conseq {P' : state -> Prop} {Q' : Outcome error alpha -> state -> Prop}
    (h : Triple P p Q) (hpre : forall s, P' s -> P s)
    (hpost : forall o s, Q o s -> Q' o s) : Triple P' p Q' :=
  fun s hs => hpost _ _ (h s (hpre s hs))

theorem pure {a : alpha} (h : forall s, P s -> Q (.ok a) s) :
    Triple P (Pure.pure a : Prog state error alpha) Q := h

theorem raise {e : error} (h : forall s, P s -> Q (.raised e) s) :
    Triple P (Prog.raise e : Prog state error alpha) Q := h

theorem modify {f : state -> state} {Q : Outcome error PUnit -> state -> Prop}
    (h : forall s, P s -> Q (.ok ⟨⟩) (f s)) :
    Triple P (Prog.modify f : Prog state error PUnit) Q := h

theorem get_bind {f : state -> Prog state error alpha}
    (h : forall s, P s -> Triple (fun t => t = s) (f s) Q) :
    Triple P (Prog.get >>= f) Q :=
  fun s hs => h s hs s rfl

theorem bind {f : alpha -> Prog state error beta}
    {Q : Outcome error beta -> state -> Prop} {M : alpha -> state -> Prop}
    (hp : Triple P p fun o s =>
      match o with
      | .ok a => M a s
      | .raised e => Q (.raised e) s
      | .ended => Q .ended s)
    (hf : forall a, Triple (M a) (f a) Q) : Triple P (p >>= f) Q := by
  intro s hs
  have hmid := hp s hs
  rw [bind_run]
  rcases hrun : p s with ⟨o, s'⟩
  rw [hrun] at hmid
  cases o with
  | ok a => exact hf a s' hmid
  | raised e => exact hmid
  | ended => exact hmid

theorem attempt {handler : error -> Prog state error alpha}
    {M : error -> state -> Prop}
    (hp : Triple P p fun o s =>
      match o with
      | .raised e => M e s
      | o => Q o s)
    (hh : forall e, Triple (M e) (handler e) Q) :
    Triple P (p.attempt handler) Q := by
  intro s hs
  have hmid := hp s hs
  unfold Prog.attempt
  rcases hrun : p s with ⟨o, s'⟩
  rw [hrun] at hmid
  cases o with
  | ok a => exact hmid
  | raised e => exact hh e s' hmid
  | ended => exact hmid

theorem ensure {block : Prog state error PUnit}
    {M : Outcome error alpha -> state -> Prop}
    (hp : Triple P p fun o s =>
      match o with
      | .ended => Q .ended s
      | o => M o s)
    (hblock : forall o, Triple (M o) block fun b s =>
      match b with
      | .ok _ => Q o s
      | .raised e => Q (.raised e) s
      | .ended => Q .ended s) :
    Triple P (p.ensure block) Q := by
  intro s hs
  have hmid := hp s hs
  unfold Prog.ensure
  rcases hrun : p s with ⟨o, s'⟩
  rw [hrun] at hmid
  cases o with
  | ended => exact hmid
  | ok a =>
      have hb := hblock (.ok a) s' hmid
      rcases hrun' : block s' with ⟨b, s''⟩
      rw [hrun'] at hb
      cases b <;> simpa [hrun'] using hb
  | raised e =>
      have hb := hblock (.raised e) s' hmid
      rcases hrun' : block s' with ⟨b, s''⟩
      rw [hrun'] at hb
      cases b <;> simpa [hrun'] using hb

end Triple

/-!
## One postcondition for every end but a return
-/

/-- A program leaves the state as `m` says if it returns, and as `bad` says if it does
not. -/
def Exits (bad : state -> Prop) (m : alpha -> state -> Prop) :
    Outcome error alpha -> state -> Prop
  | .ok a, s => m a s
  | .raised _, s => bad s
  | .ended, s => bad s

namespace Exits

variable {bad pre : state -> Prop} {m m' : alpha -> state -> Prop}
  {p : Prog state error alpha}

theorem pure {a : alpha} (h : forall s, pre s -> m a s) :
    Triple pre (Pure.pure a : Prog state error alpha) (Exits bad m) := h

theorem bind {f : alpha -> Prog state error beta} {n : beta -> state -> Prop}
    (hp : Triple pre p (Exits bad m)) (hf : forall a, Triple (m a) (f a) (Exits bad n)) :
    Triple pre (p >>= f) (Exits bad n) := by
  refine Triple.bind (hp.conseq (fun _ => id) fun o s h => ?_) hf
  cases o <;> exact h

theorem attempt {handler : error -> Prog state error alpha} {mid : state -> Prop}
    (hp : Triple pre p (Exits mid m)) (hh : forall e, Triple mid (handler e) (Exits bad m))
    (hmid : forall s, mid s -> bad s) : Triple pre (p.attempt handler) (Exits bad m) := by
  refine Triple.attempt (M := fun _ => mid) (hp.conseq (fun _ => id) fun o s h => ?_) hh
  cases o with
  | ok a => exact h
  | raised e => exact h
  | ended => exact hmid s h

theorem ensure_still {block : Prog state error PUnit} (hp : Triple pre p (Exits bad m))
    (hblock : Still block) (hbad : forall a s, m a s -> bad s) :
    Triple pre (p.ensure block) (Exits bad m) := by
  refine Triple.ensure (M := Exits bad m) (hp.conseq (fun _ => id) fun o s hs => ?_)
    fun o s hs => ?_
  · cases o <;> exact hs
  · have hsame := hblock s
    rcases hrun : block s with ⟨b, s'⟩
    rw [hrun] at hsame
    simp only at hsame
    rw [hsame]
    have hleft : bad s := by
      cases o with
      | ok a => exact hbad a s hs
      | raised e => exact hs
      | ended => exact hs
    cases b with
    | ok _ => exact hs
    | raised e => exact hleft
    | ended => exact hleft

theorem raise (hbad : forall s, pre s -> bad s) (e : error) :
    Triple pre (Prog.raise e : Prog state error alpha) (Exits bad m) :=
  Triple.raise hbad

theorem widen {bad' : state -> Prop} (hbad : forall s, bad s -> bad' s)
    {o : Outcome error alpha} {s : state} (h : Exits bad m o s) : Exits bad' m o s := by
  cases o with
  | ok a => exact h
  | raised e => exact hbad s h
  | ended => exact hbad s h

theorem weaken (hp : Triple pre p (Exits bad m)) (hm : forall a s, m a s -> m' a s) :
    Triple pre p (Exits bad m') := by
  refine hp.conseq (fun _ => id) fun o s h => ?_
  cases o with
  | ok a => exact hm a s h
  | raised e => exact h
  | ended => exact h

end Exits

def Ends (bad : state -> Prop) (caught : error -> state -> Prop) (m : alpha -> state -> Prop) :
    Outcome error alpha -> state -> Prop
  | .ok a, s => m a s
  | .raised e, s => caught e s
  | .ended, s => bad s

namespace Ends

variable {bad pre : state -> Prop} {c : error -> state -> Prop}
  {m m' : alpha -> state -> Prop} {p : Prog state error alpha}

theorem pure {a : alpha} (h : forall s, pre s -> m a s) :
    Triple pre (Pure.pure a : Prog state error alpha) (Ends bad c m) := h

theorem bind {f : alpha -> Prog state error beta} {n : beta -> state -> Prop}
    (hp : Triple pre p (Ends bad c m))
    (hf : forall a, Triple (m a) (f a) (Ends bad c n)) :
    Triple pre (p >>= f) (Ends bad c n) := by
  refine Triple.bind (hp.conseq (fun _ => id) fun o s h => ?_) hf
  cases o <;> exact h

theorem attempt {handler : error -> Prog state error alpha} {M : error -> state -> Prop}
    (hp : Triple pre p (Ends bad M m))
    (hh : forall e, Triple (M e) (handler e) (Ends bad c m)) :
    Triple pre (p.attempt handler) (Ends bad c m) := by
  refine Triple.attempt (M := M) (hp.conseq (fun _ => id) fun o s h => ?_) hh
  cases o <;> exact h

theorem weaken {c' : error -> state -> Prop} (hp : Triple pre p (Ends bad c m))
    (hcaught : forall e s, c e s -> c' e s) (hm : forall a s, m a s -> m' a s) :
    Triple pre p (Ends bad c' m') := by
  refine hp.conseq (fun _ => id) fun o s h => ?_
  cases o with
  | ok a => exact hm a s h
  | raised e => exact hcaught e s h
  | ended => exact h

theorem exits (hp : Triple pre p (Ends bad c m))
    (hcaught : forall e s, c e s -> bad s) : Triple pre p (Exits bad m) := by
  refine hp.conseq (fun _ => id) fun o s h => ?_
  cases o with
  | ok a => exact h
  | raised e => exact hcaught e s h
  | ended => exact h

end Ends

/-!
## Returning exactly under a condition
-/

/-- From `s` the program returns, as `g` says, when `c` holds, and raises when it
does not. -/
def ReturnsIff (p : Prog state error alpha) (s : state) (c : Prop)
    (g : alpha -> state -> Prop) : Prop :=
  (c -> exists a s', p s = (.ok a, s') ∧ g a s') ∧
    (¬c -> exists e s', p s = (.raised e, s'))

namespace ReturnsIff

variable {p : Prog state error alpha} {s : state} {c : Prop}
  {g : alpha -> state -> Prop}

theorem of_ok {a : alpha} {t : state} (hc : c) (h : p s = (.ok a, t))
    (hgood : g a t) : ReturnsIff p s c g :=
  ⟨fun _ => ⟨a, t, h, hgood⟩, fun hn => absurd hc hn⟩

theorem of_raised {e : error} {t : state} (hc : ¬c) (h : p s = (.raised e, t)) :
    ReturnsIff p s c g :=
  ⟨fun h' => absurd h' hc, fun _ => ⟨e, t, h⟩⟩

theorem conseq {c' : Prop} {g' : alpha -> state -> Prop}
    (h : ReturnsIff p s c g) (hc : c' <-> c)
    (hgood : forall a s', g a s' -> g' a s') : ReturnsIff p s c' g' := by
  constructor
  · intro hc'
    rcases h.left (hc.mp hc') with ⟨a, s', hrun, hg⟩
    exact ⟨a, s', hrun, hgood a s' hg⟩
  · intro hc'
    exact h.right fun hx => hc' (hc.mpr hx)

theorem bind {d : Prop} {f : alpha -> Prog state error beta}
    {g' : beta -> state -> Prop} (hp : ReturnsIff p s c g)
    (hf : forall a s', g a s' -> ReturnsIff (f a) s' d g') :
    ReturnsIff (p >>= f) s (c ∧ d) g' := by
  by_cases hc : c
  · rcases hp.left hc with ⟨a, s', hrun, hgood⟩
    have hnext := hf a s' hgood
    rw [ReturnsIff, bind_run_ok hrun]
    exact ⟨fun h => hnext.left h.right, fun h => hnext.right fun hd => h ⟨hc, hd⟩⟩
  · rcases hp.right hc with ⟨e, s', hrun⟩
    exact of_raised (fun h => hc h.left) (bind_run_raised hrun)

end ReturnsIff

/-!
## Programs that return or raise
-/

def Lasts (p : Prog state error alpha) : Prop := forall s, (p s).1 ≠ .ended

namespace Lasts

variable {p : Prog state error alpha}

theorem pure (a : alpha) : Lasts (Pure.pure a : Prog state error alpha) := fun _ => nofun

theorem raise (e : error) : Lasts (Prog.raise e : Prog state error alpha) := fun _ => nofun

theorem get : Lasts (Prog.get : Prog state error state) := fun _ => nofun

theorem modify (f : state -> state) : Lasts (Prog.modify f : Prog state error PUnit) :=
  fun _ => nofun

theorem bind {f : alpha -> Prog state error beta} (hp : Lasts p) (hf : forall a, Lasts (f a)) :
    Lasts (p >>= f) := by
  intro s
  have hlasts := hp s
  rw [bind_run]
  rcases hrun : p s with ⟨o, s'⟩
  rw [hrun] at hlasts
  cases o with
  | ok a => exact hf a s'
  | raised e => exact nofun
  | ended => exact absurd rfl hlasts

theorem ensure {block : Prog state error PUnit} (hp : Lasts p) (hblock : Lasts block) :
    Lasts (p.ensure block) := by
  intro s
  have hlasts := hp s
  unfold Prog.ensure
  rcases hrun : p s with ⟨o, s'⟩
  rw [hrun] at hlasts
  have hblocks := hblock s'
  rcases hrun' : block s' with ⟨b, s''⟩
  rw [hrun'] at hblocks
  cases o with
  | ended => exact absurd rfl hlasts
  | ok a => cases b <;> simp_all
  | raised e => cases b <;> simp_all

end Lasts

/-!
## Kept predicates
-/

/-- However the program ends, the predicate holds again. -/
def Keeps (inv : state -> Prop) (p : Prog state error alpha) : Prop :=
  forall s, inv s -> inv (p s).2

namespace Keeps

variable {inv : state -> Prop} {p : Prog state error alpha}

theorem pure (a : alpha) : Keeps inv (Pure.pure a : Prog state error alpha) :=
  fun _ h => h

theorem raise (e : error) : Keeps inv (Prog.raise e : Prog state error alpha) :=
  fun _ h => h

theorem get : Keeps inv (Prog.get : Prog state error state) :=
  fun _ h => h

theorem modify {f : state -> state} (h : forall s, inv s -> inv (f s)) :
    Keeps inv (Prog.modify f : Prog state error PUnit) := h

theorem get_bind {f : state -> Prog state error alpha}
    (h : forall s, inv s -> inv (f s s).2) : Keeps inv (Prog.get >>= f) := h

theorem after_bind {f : alpha -> Prog state error beta} {s : state} (hp : inv (p s).2)
    (hf : forall a, Keeps inv (f a)) : inv ((p >>= f) s).2 := by
  rw [bind_run]
  rcases hrun : p s with ⟨o, s'⟩
  rw [hrun] at hp
  cases o with
  | ok a => exact hf a s' hp
  | raised e => exact hp
  | ended => exact hp

theorem after_attempt {handler : error -> Prog state error alpha} {s : state}
    (hp : inv (p s).2) (hh : forall e, Keeps inv (handler e)) :
    inv (p.attempt handler s).2 := by
  unfold Prog.attempt
  rcases hrun : p s with ⟨o, s'⟩
  rw [hrun] at hp
  cases o with
  | ok a => exact hp
  | raised e => exact hh e s' hp
  | ended => exact hp

theorem after_ensure {block : Prog state error PUnit} {s : state} (hp : inv (p s).2)
    (hblock : Keeps inv block) : inv (p.ensure block s).2 := by
  unfold Prog.ensure
  rcases hrun : p s with ⟨o, s'⟩
  rw [hrun] at hp
  cases o with
  | ended => exact hp
  | ok a =>
      have hb := hblock s' hp
      rcases hrun' : block s' with ⟨b, s''⟩
      rw [hrun'] at hb
      cases b <;> simpa [hrun'] using hb
  | raised e =>
      have hb := hblock s' hp
      rcases hrun' : block s' with ⟨b, s''⟩
      rw [hrun'] at hb
      cases b <;> simpa [hrun'] using hb

theorem before {pre : state -> Prop} {f : alpha -> Prog state error beta} {s : state}
    (hp : Keeps pre p) (hs : pre s) (hweak : forall t, pre t -> inv t)
    (hf : forall a t, pre t -> inv (f a t).2) : inv ((p >>= f) s).2 := by
  have hmid := hp s hs
  rw [bind_run]
  rcases hrun : p s with ⟨o, s'⟩
  rw [hrun] at hmid
  cases o with
  | ok a => exact hf a s' hmid
  | raised e => exact hweak s' hmid
  | ended => exact hweak s' hmid

/-- A program that returns exactly under a condition, followed by what leads from there. -/
theorem returning {pre : state -> Prop} {c : Prop} {m : alpha -> state -> Prop}
    {f : alpha -> Prog state error beta} {s : state} (hp : ReturnsIff p s c m)
    (hkeeps : Keeps pre p) (hs : pre s) (hweak : forall t, pre t -> inv t)
    (hf : c -> forall a t, m a t -> pre t -> inv (f a t).2) : inv ((p >>= f) s).2 := by
  have hmid := hkeeps s hs
  by_cases hc : c
  · rcases hp.left hc with ⟨a, t, hrun, hgood⟩
    rw [hrun] at hmid
    rw [bind_run_ok hrun]
    exact hf hc a t hgood hmid
  · rcases hp.right hc with ⟨e, t, hrun⟩
    rw [hrun] at hmid
    rw [bind_run_raised hrun]
    exact hweak t hmid

theorem bind {f : alpha -> Prog state error beta} (hp : Keeps inv p)
    (hf : forall a, Keeps inv (f a)) : Keeps inv (p >>= f) :=
  fun s hs => after_bind (hp s hs) hf

theorem attempt {handler : error -> Prog state error alpha} (hp : Keeps inv p)
    (hh : forall e, Keeps inv (handler e)) : Keeps inv (p.attempt handler) :=
  fun s hs => after_attempt (hp s hs) hh

theorem ensure {block : Prog state error PUnit} (hp : Keeps inv p)
    (hblock : Keeps inv block) : Keeps inv (p.ensure block) :=
  fun s hs => after_ensure (hp s hs) hblock

theorem ite {c : Prop} [Decidable c] {p q : Prog state error alpha} (hp : Keeps inv p)
    (hq : Keeps inv q) : Keeps inv (if c then p else q) := by
  split
  · exact hp
  · exact hq

theorem forEach {item : Type u} {f : item -> Prog state error PUnit}
    (hf : forall x, Keeps inv (f x)) :
    forall items : List item, Keeps inv (Prog.forEach f items) := by
  intro items
  induction items with
  | nil => exact fun _ h => h
  | cons x rest ih => exact bind (hf x) fun _ => ih

theorem exits {bad : state -> Prop} (h : Keeps inv p) (hbad : forall s, inv s -> bad s) :
    Triple inv p (Exits bad fun _ => inv) := by
  intro s hs
  have ht := h s hs
  rcases hrun : p s with ⟨o, t⟩
  rw [hrun] at ht
  cases o with
  | ok a => exact ht
  | raised e => exact hbad t ht
  | ended => exact hbad t ht

theorem exits_and {bad bad' pre : state -> Prop} {m : alpha -> state -> Prop}
    (h : Keeps inv p) (hp : Triple pre p (Exits bad m))
    (hbad : forall s, bad s -> inv s -> bad' s) :
    Triple (fun s => pre s ∧ inv s) p (Exits bad' fun a s => m a s ∧ inv s) := by
  intro s hs
  have hmid := hp s hs.left
  have ht := h s hs.right
  rcases hrun : p s with ⟨o, t⟩
  rw [hrun] at hmid ht
  cases o with
  | ok a => exact ⟨hmid, ht⟩
  | raised e => exact hbad t hmid ht
  | ended => exact hbad t hmid ht

end Keeps
end Prog
end Lib
end MightyColab
