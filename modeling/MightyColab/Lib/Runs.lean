import Mathlib.Data.List.Basic

/-!
# Guarded runs of a step machine

A machine is a partial step function over an arbitrary state and action type. A
run is a list of actions executed one after another. A guard restricts which
actions a run may take, judged in the state before each one, so that a theorem
about guarded runs says exactly which schedules it covers.
-/

namespace MightyColab
namespace Lib

universe u v w

/-- A machine: which states it may start in, and what one action does. -/
structure Machine (state : Type u) (action : Type v) where
  start : state -> Prop
  step : state -> action -> Option state

namespace Machine

variable {state : Type u} {action : Type v}

def exec (M : Machine state action) : state -> List action -> Option state
  | s, [] => some s
  | s, a :: rest =>
      match M.step s a with
      | none => none
      | some next => M.exec next rest

/-- Every action of the run satisfies the guard in the state it is taken in. -/
def Guarded (M : Machine state action) (guard : state -> action -> Prop) :
    state -> List action -> Prop
  | _, [] => True
  | s, a :: rest =>
      guard s a ∧ forall next, M.step s a = some next -> M.Guarded guard next rest

/-- The states that guarded runs reach from a start state. -/
def Reaches (M : Machine state action) (guard : state -> action -> Prop)
    (s : state) : Prop :=
  exists s0 actions,
    M.start s0 ∧ M.Guarded guard s0 actions ∧ M.exec s0 actions = some s

def Preserved (M : Machine state action) (guard : state -> action -> Prop)
    (inv : state -> Prop) : Prop :=
  forall s a next, inv s -> guard s a -> M.step s a = some next -> inv next

@[simp] theorem exec_nil (M : Machine state action) (s : state) :
    M.exec s [] = some s := rfl

theorem exec_cons (M : Machine state action) (s : state) (a : action)
    (rest : List action) :
    M.exec s (a :: rest) =
      match M.step s a with
      | none => none
      | some next => M.exec next rest := rfl

theorem exec_preserved {M : Machine state action}
    {guard : state -> action -> Prop} {inv : state -> Prop}
    (hstep : M.Preserved guard inv) :
    forall {actions : List action} {s final : state},
      inv s -> M.Guarded guard s actions -> M.exec s actions = some final ->
      inv final := by
  intro actions
  induction actions with
  | nil =>
      intro s final hinv _ hexec
      have hfinal : s = final := by simpa using hexec
      rw [← hfinal]
      exact hinv
  | cons a rest ih =>
      intro s final hinv hguard hexec
      rw [exec_cons] at hexec
      cases hnext : M.step s a with
      | none =>
          rw [hnext] at hexec
          cases hexec
      | some next =>
          rw [hnext] at hexec
          exact ih (hstep s a next hinv hguard.left hnext)
            (hguard.right next hnext) hexec

theorem reaches_invariant {M : Machine state action}
    {guard : state -> action -> Prop} {inv : state -> Prop}
    (hstart : forall s, M.start s -> inv s) (hstep : M.Preserved guard inv)
    {s : state} (hreach : M.Reaches guard s) : inv s := by
  rcases hreach with ⟨s0, actions, hs0, hguard, hexec⟩
  exact exec_preserved hstep (hstart s0 hs0) hguard hexec

def decideGuarded (M : Machine state action) (guard : state -> action -> Prop)
    [forall s a, Decidable (guard s a)] :
    forall (s : state) (actions : List action), Decidable (M.Guarded guard s actions)
  | _, [] => .isTrue trivial
  | s, a :: rest =>
      match hnext : M.step s a with
      | none =>
          decidable_of_iff (guard s a) ⟨fun h => ⟨h, fun _ heq => by cases hnext.symm.trans heq⟩,
            And.left⟩
      | some next =>
          have := decideGuarded M guard next rest
          decidable_of_iff (guard s a ∧ M.Guarded guard next rest)
            ⟨fun h => ⟨h.left, fun _ heq => by cases hnext.symm.trans heq; exact h.right⟩,
              fun h => ⟨h.left, h.right next hnext⟩⟩

instance (M : Machine state action) (guard : state -> action -> Prop)
    [forall s a, Decidable (guard s a)] (s : state) (actions : List action) :
    Decidable (M.Guarded guard s actions) := decideGuarded M guard s actions

theorem exec_append (M : Machine state action) (before after : List action) :
    forall s : state, M.exec s (before ++ after) = (M.exec s before).bind (M.exec · after) := by
  induction before with
  | nil =>
      intro s
      rfl
  | cons a rest ih =>
      intro s
      rw [List.cons_append, exec_cons, exec_cons]
      cases M.step s a with
      | none => rfl
      | some next => exact ih next

theorem exec_concat {M : Machine state action} {actions : List action} {a : action}
    {s final : state} (h : M.exec s (actions ++ [a]) = some final) :
    exists last, M.exec s actions = some last ∧ M.step last a = some final := by
  rw [exec_append] at h
  rcases Option.bind_eq_some_iff.mp h with ⟨last, hlast, hstep⟩
  rw [exec_cons] at hstep
  cases hnext : M.step last a with
  | none =>
      rw [hnext] at hstep
      cases hstep
  | some next =>
      rw [hnext] at hstep
      cases hstep
      exact ⟨last, hlast, hnext⟩

theorem exec_prefix {M : Machine state action} {before after : List action} {a : action}
    {s final : state} (h : M.exec s (before ++ a :: after) = some final) :
    exists s', M.exec s (before ++ [a]) = some s' := by
  rw [List.append_cons, exec_append] at h
  rcases Option.bind_eq_some_iff.mp h with ⟨s', hs', _⟩
  exact ⟨s', hs'⟩

/-- A history that goes with the state, and still does after each step, goes with the state at
the end of a run. -/
theorem exec_history {history : Type w} {M : Machine state action}
    {extend : history -> action -> history} {goesWith : state -> history -> Prop}
    (hstep : forall s a next h, goesWith s h -> M.step s a = some next ->
      goesWith next (extend h a)) :
    forall {actions : List action} {s final : state} {h : history},
      goesWith s h -> M.exec s actions = some final -> goesWith final (actions.foldl extend h) := by
  intro actions
  induction actions with
  | nil =>
      intro s final h hgoes hexec
      cases hexec
      exact hgoes
  | cons a rest ih =>
      intro s final h hgoes hexec
      rw [exec_cons] at hexec
      cases hnext : M.step s a with
      | none =>
          rw [hnext] at hexec
          cases hexec
      | some next =>
          rw [hnext] at hexec
          exact ih (hstep s a next h hgoes hnext) hexec

theorem guarded_iff {M : Machine state action} {guard : state -> action -> Prop}
    {actions : List action} : forall {s : state}, M.Guarded guard s actions <->
      forall before a after s', actions = before ++ a :: after -> M.exec s before = some s' ->
        guard s' a := by
  induction actions with
  | nil =>
      intro s
      exact iff_of_true trivial fun before a after _ h => by simp at h
  | cons first rest ih =>
      intro s
      constructor
      · rintro ⟨hfirst, hrest⟩ before a after s' hsplit hexec
        cases before with
        | nil =>
            cases hsplit
            cases hexec
            exact hfirst
        | cons _ before =>
            cases hsplit
            rw [exec_cons] at hexec
            cases hnext : M.step s first with
            | none =>
                rw [hnext] at hexec
                cases hexec
            | some next =>
                rw [hnext] at hexec
                exact ih.mp (hrest next hnext) before a after s' rfl hexec
      · intro h
        constructor
        · exact h [] first rest s rfl rfl
        · intro next hnext
          refine ih.mpr fun before a after s' hsplit hexec => ?_
          refine h (first :: before) a after s' (by rw [hsplit]; rfl) ?_
          rw [exec_cons, hnext]
          exact hexec

abbrev Free : state -> action -> Prop := fun _ _ => True

theorem guarded_free (M : Machine state action) (actions : List action) :
    forall s : state, M.Guarded Free s actions := by
  induction actions with
  | nil =>
      intro s
      trivial
  | cons a rest ih =>
      intro s
      exact ⟨trivial, fun next _ => ih next⟩

/-- Two guards that agree wherever a preserved predicate holds allow the same runs. -/
theorem guarded_congr {M : Machine state action} {guard guard' : state -> action -> Prop}
    {inv : state -> Prop} (hstep : M.Preserved Free inv)
    (hagree : forall s a, inv s -> (guard s a <-> guard' s a)) :
    forall {actions : List action} {s : state}, inv s ->
      (M.Guarded guard s actions <-> M.Guarded guard' s actions) := by
  intro actions
  induction actions with
  | nil =>
      intro s _
      exact Iff.rfl
  | cons a rest ih =>
      intro s hinv
      refine and_congr (hagree s a hinv) (forall_congr' fun next => forall_congr' fun hnext => ?_)
      exact ih (hstep s a next hinv trivial hnext)

/-- A guard that implies another wherever what it preserves holds allows fewer runs. -/
theorem guarded_mono {M : Machine state action} {guard guard' : state -> action -> Prop}
    {inv : state -> Prop} (hstep : M.Preserved guard inv)
    (himplies : forall s a, inv s -> guard s a -> guard' s a) :
    forall {actions : List action} {s : state}, inv s ->
      M.Guarded guard s actions -> M.Guarded guard' s actions := by
  intro actions
  induction actions with
  | nil =>
      intro s _ _
      trivial
  | cons a rest ih =>
      intro s hinv hguard
      refine ⟨himplies s a hinv hguard.left, fun next hnext => ?_⟩
      exact ih (hstep s a next hinv hguard.left hnext) (hguard.right next hnext)

/-!
## What holds between the states of a run
-/

/-- Whenever the run is in one state and later in another, the relation holds. -/
def Along (M : Machine state action) (R : state -> state -> Prop) (s0 : state)
    (actions : List action) : Prop :=
  forall before middle after s s', actions = before ++ middle ++ after ->
    M.exec s0 before = some s -> M.exec s middle = some s' -> R s s'

theorem exec_of_step {M : Machine state action} {s next : state} {a : action}
    (h : M.step s a = some next) (actions : List action) :
    M.exec s (a :: actions) = M.exec next actions := by
  rw [exec_cons, h]

theorem exec_related {M : Machine state action} {R : state -> state -> Prop}
    (hrefl : forall s, R s s) (htrans : forall {a b c}, R a b -> R b c -> R a c) :
    forall {actions after : List action} {s s' : state},
      M.Guarded (fun s a => forall next, M.step s a = some next -> R s next) s
        (actions ++ after) ->
      M.exec s actions = some s' -> R s s' := by
  intro actions
  induction actions with
  | nil =>
      intro after s s' _ hexec
      cases hexec
      exact hrefl s
  | cons a rest ih =>
      intro after s s' hguard hexec
      cases hnext : M.step s a with
      | none =>
          rw [exec_cons, hnext] at hexec
          cases hexec
      | some next =>
          rw [exec_of_step hnext] at hexec
          exact htrans (hguard.left next hnext) (ih (hguard.right next hnext) hexec)

theorem along_iff {M : Machine state action} {R : state -> state -> Prop}
    (hrefl : forall s, R s s) (htrans : forall {a b c}, R a b -> R b c -> R a c) :
    forall {actions : List action} {s : state},
      M.Along R s actions <->
        M.Guarded (fun s a => forall next, M.step s a = some next -> R s next) s actions := by
  intro actions
  induction actions with
  | nil =>
      intro s
      refine iff_of_true (fun before middle after s s' hsplit hbefore hmiddle => ?_) trivial
      have hnil := List.append_eq_nil_iff.mp hsplit.symm
      rcases List.append_eq_nil_iff.mp hnil.left with ⟨rfl, rfl⟩
      cases hmiddle
      exact hrefl s
  | cons a rest ih =>
      intro s
      constructor
      · intro h
        refine ⟨fun next hnext => ?_, fun next hnext => ih.mp ?_⟩
        · exact h [] [a] rest s next rfl rfl (exec_of_step hnext [])
        · intro before middle after s' s'' hsplit hbefore hmiddle
          refine h (a :: before) middle after s' s'' (by rw [hsplit]; rfl) ?_ hmiddle
          rw [exec_of_step hnext]
          exact hbefore
      · intro h before middle after s' s'' hsplit hbefore hmiddle
        cases before with
        | nil =>
            cases hbefore
            rw [hsplit] at h
            exact exec_related hrefl htrans h hmiddle
        | cons a' before =>
            cases hsplit
            cases hnext : M.step s a with
            | none =>
                rw [exec_cons, hnext] at hbefore
                cases hbefore
            | some next =>
                rw [exec_of_step hnext] at hbefore
                exact ih.mpr (h.right next hnext) before middle after s' s'' rfl hbefore hmiddle

end Machine
end Lib
end MightyColab
