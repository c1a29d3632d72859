import MightyColab.Lib.Prog

/-!
# Programs built from basic steps

What a program can do to the state follows from its basic steps alone, whatever it reads, catches
or cleans up in between. A program is taken apart once, into its basic steps; what they keep it
keeps.
-/

namespace MightyColab
namespace Lib

universe u

namespace Prog

variable {state error alpha beta : Type u}

/-- A sequence keeps what its parts keep, where the second may use what the first returned. -/
theorem Keeps.bind_ok {inv : state -> Prop} {p : Prog state error alpha}
    {f : alpha -> Prog state error beta} (hp : Keeps inv p)
    (hf : forall a s t, p s = (.ok a, t) -> inv t -> inv (f a t).2) : Keeps inv (p >>= f) := by
  intro s hs
  have hmid := hp s hs
  rw [bind_run]
  rcases hrun : p s with ⟨o, t⟩
  rw [hrun] at hmid
  cases o with
  | ok a => exact hf a s t hrun hmid
  | raised e => exact hmid
  | ended => exact hmid

inductive Built (basic : forall alpha : Type u, Prog state error alpha -> Prop) :
    forall {alpha : Type u}, Prog state error alpha -> Prop where
  | basic {alpha : Type u} {p : Prog state error alpha} : basic alpha p -> Built basic p
  | pure {alpha : Type u} (a : alpha) : Built basic (Pure.pure a)
  | raise {alpha : Type u} (e : error) : Built basic (Prog.raise e : Prog state error alpha)
  | get : Built basic Prog.get
  | bind {alpha beta : Type u} {p : Prog state error alpha} {f : alpha -> Prog state error beta} :
      Built basic p -> (forall a, Built basic (f a)) -> Built basic (p >>= f)
  | attempt {alpha : Type u} {p : Prog state error alpha}
      {handler : error -> Prog state error alpha} :
      Built basic p -> (forall e, Built basic (handler e)) -> Built basic (p.attempt handler)
  | ensure {alpha : Type u} {p : Prog state error alpha} {block : Prog state error PUnit} :
      Built basic p -> Built basic block -> Built basic (p.ensure block)

namespace Built

variable {basic : forall alpha : Type u, Prog state error alpha -> Prop}
  {p : Prog state error alpha}

theorem ite {c : Prop} [Decidable c] {p q : Prog state error alpha} (hp : Built basic p)
    (hq : Built basic q) : Built basic (if c then p else q) := by
  split
  · exact hp
  · exact hq

theorem keeps {inv : state -> Prop} (h : Built basic p)
    (hbasic : forall {alpha : Type u} {p : Prog state error alpha}, basic alpha p -> Keeps inv p) :
    Keeps inv p := by
  induction h with
  | basic hp => exact hbasic hp
  | pure a => exact Keeps.pure a
  | raise e => exact Keeps.raise e
  | get => exact Keeps.get
  | bind _ _ ihp ihf => exact Keeps.bind ihp ihf
  | attempt _ _ ihp ihh => exact Keeps.attempt ihp ihh
  | ensure _ _ ihp ihb => exact Keeps.ensure ihp ihb

end Built

end Prog
end Lib
end MightyColab
