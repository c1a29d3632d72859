import MightyColab.Lib.Slots

/-!
# Custody of what a shared table names

Processes get resources from outside, enter each in a shared table under a name, read entries,
save and delete them. A resource that is live must be in the table, or in the hand of the process
that got it. That survives stale saves and blind deletions as long as a name is not given to a
second resource while anybody still has the first in mind.
-/

namespace MightyColab
namespace Lib
namespace Custody

universe u v w

/-- What a process has in mind: entries that it has read or made, a resource that it was given
and has not entered yet, and resources that it knows to be gone. -/
structure Known (name : Type u) (res : Type v) where
  carried : List (name × res) := []
  hand : Option res := none
  gone : List res := []

structure Ledger (name : Type u) (res : Type v) where
  table : name -> Option res
  live : res -> Prop
  /-- Resources that there have ever been. -/
  used : res -> Prop

variable {name : Type u} {res : Type v} {proc : Type w}

def Bound (l : Ledger name res) (kn : proc -> Option (Known name res)) (n : name) (r : res) :
    Prop :=
  l.table n = some r ∨ exists p k, kn p = some k ∧ (n, r) ∈ k.carried

structure Sound (l : Ledger name res) (kn : proc -> Option (Known name res)) : Prop where
  one : forall {n r r'}, Bound l kn n r -> Bound l kn n r' -> r = r'
  name : forall {n n' r}, Bound l kn n r -> Bound l kn n' r -> n = n'
  used : forall {n r}, Bound l kn n r -> l.used r
  held : forall {p k r}, kn p = some k -> k.hand = some r -> l.used r
  /-- What a process has in its hand is in no other mind, and not in the table. -/
  unshared : forall {p k r}, kn p = some k -> k.hand = some r -> forall n, l.table n ≠ some r
  alone : forall {p k q k' r}, kn p = some k -> k.hand = some r -> kn q = some k' -> q ≠ p ->
    forall n, (n, r) ∉ k'.carried
  dead : forall {p k r}, kn p = some k -> r ∈ k.gone -> l.used r ∧ ¬l.live r
  kept : forall {r}, l.live r ->
    (exists n, l.table n = some r) ∨ exists p k, kn p = some k ∧ k.hand = some r

variable {l l' : Ledger name res} {kn : proc -> Option (Known name res)} {p : proc}
variable {k k' : Known name res} {n : name} {r : res}

theorem Sound.start (hused : forall n r, l.table n = some r -> l.used r)
    (hname : forall n n' r, l.table n = some r -> l.table n' = some r -> n = n')
    (hkept : forall r, l.live r -> exists n, l.table n = some r) :
    Sound l fun _ : proc => none := by
  have htable : forall {n r}, Bound l (fun _ : proc => none) n r -> l.table n = some r := by
    intro n r h
    rcases h with h | ⟨_, _, hnone, _⟩
    · exact h
    · cases hnone
  constructor
  · exact fun h h' => Option.some.inj ((htable h).symm.trans (htable h'))
  · exact fun h h' => hname _ _ _ (htable h) (htable h')
  · exact fun h => hused _ _ (htable h)
  · exact fun hnone => by cases hnone
  · exact fun hnone => by cases hnone
  · exact fun hnone => by cases hnone
  · exact fun hnone => by cases hnone
  · exact fun hlive => Or.inl (hkept _ hlive)

/-!
## What a process may conclude
-/

theorem Sound.used_of_mem (h : Sound l kn) (hp : kn p = some k) (hmem : (n, r) ∈ k.carried) :
    l.used r := h.used (Or.inr ⟨p, k, hp, hmem⟩)

/-- A name without an entry, of which a process has a resource in mind but not in its hand. -/
theorem Sound.dead_of_absent (h : Sound l kn) (hp : kn p = some k) (hmem : (n, r) ∈ k.carried)
    (hhand : k.hand ≠ some r) (htable : l.table n = none) : ¬l.live r := by
  intro hlive
  rcases h.kept hlive with ⟨n', hentry⟩ | ⟨q, kq, hq, hr⟩
  · have heq := h.name (Or.inl hentry) (Or.inr ⟨p, k, hp, hmem⟩)
    rw [heq, htable] at hentry
    cases hentry
  · by_cases hqp : q = p
    · rw [hqp, hp] at hq
      cases hq
      exact hhand hr
    · exact h.alone hq hr hp (fun heq => hqp heq.symm) n hmem

theorem Sound.shrink (h : Sound l kn) {live used : res -> Prop}
    (hlive : forall r, live r -> l.live r) (hused : forall r, l.used r -> used r) :
    Sound { l with live, used } kn where
  one := h.one
  name := h.name
  used := fun hr => hused _ (h.used hr)
  held := fun hp hr => hused _ (h.held hp hr)
  unshared := h.unshared
  alone := h.alone
  dead := fun hp hr =>
    ⟨hused _ (h.dead hp hr).left, fun hr' => (h.dead hp hr).right (hlive _ hr')⟩
  kept := fun hr => h.kept (hlive _ hr)

/-!
## One step of one process
-/

variable [DecidableEq proc] {new : Option (Known name res)}

/-- A step that binds no name anew: what is left to show is about the process that takes it. -/
theorem Sound.step (h : Sound l kn)
    (hcarried : forall k', new = some k' -> forall n r, (n, r) ∈ k'.carried ->
      l.table n = some r ∨ exists k, kn p = some k ∧ (n, r) ∈ k.carried)
    (hhand : forall k', new = some k' -> forall r, k'.hand = some r ->
      exists k, kn p = some k ∧ k.hand = some r)
    (hgone : forall k', new = some k' -> forall r, r ∈ k'.gone -> l.used r ∧ ¬l.live r)
    (htable : forall n r, l'.table n = some r -> l.table n = some r ∨
      (exists k, kn p = some k ∧ (n, r) ∈ k.carried) ∧ forall k', new = some k' -> k'.hand ≠ some r)
    (hused : forall r, l.used r -> l'.used r) (hlive : forall r, l'.live r -> l.live r)
    (hentry : forall n r, l'.live r -> l.table n = some r -> l'.table n = some r)
    (hlet : forall k r, kn p = some k -> k.hand = some r -> l'.live r ->
      (exists n, l'.table n = some r) ∨ exists k', new = some k' ∧ k'.hand = some r) :
    Sound l' (Function.update kn p new) := by
  have hcarrier : forall {q kq n r}, Function.update kn p new q = some kq -> (n, r) ∈ kq.carried ->
      l.table n = some r ∨ exists k, kn q = some k ∧ (n, r) ∈ k.carried := by
    intro q kq n r hq hmem
    rcases update_some_cases hq with ⟨hqp, heq⟩ | ⟨_, hold⟩
    · rw [hqp]
      exact hcarried kq heq n r hmem
    · exact Or.inr ⟨kq, hold, hmem⟩
  have hholder : forall {q kq r}, Function.update kn p new q = some kq -> kq.hand = some r ->
      exists k, kn q = some k ∧ k.hand = some r := by
    intro q kq r hq hr
    rcases update_some_cases hq with ⟨hqp, heq⟩ | ⟨_, hold⟩
    · rw [hqp]
      exact hhand kq heq r hr
    · exact ⟨kq, hold, hr⟩
  have hbound : forall {n r}, Bound l' (Function.update kn p new) n r -> Bound l kn n r := by
    intro n r hr
    rcases hr with hr | ⟨q, kq, hq, hmem⟩
    · rcases htable n r hr with hr | ⟨⟨k, hp, hmem⟩, _⟩
      · exact Or.inl hr
      · exact Or.inr ⟨p, k, hp, hmem⟩
    · rcases hcarrier hq hmem with hr | ⟨k, hq, hmem⟩
      · exact Or.inl hr
      · exact Or.inr ⟨q, k, hq, hmem⟩
  constructor
  · exact fun hr hr' => h.one (hbound hr) (hbound hr')
  · exact fun hn hn' => h.name (hbound hn) (hbound hn')
  · exact fun hr => hused _ (h.used (hbound hr))
  · intro q kq r hq hr
    rcases hholder hq hr with ⟨k, hq, hr⟩
    exact hused r (h.held hq hr)
  · intro q kq r hq hr n hentry'
    rcases hholder hq hr with ⟨k, hold, hr'⟩
    rcases htable n r hentry' with hold' | ⟨⟨k', hp, hmem⟩, hnew⟩
    · exact h.unshared hold hr' n hold'
    · rcases update_some_cases hq with ⟨_, heq⟩ | ⟨hqp, _⟩
      · exact hnew kq heq hr
      · exact h.alone hold hr' hp (fun heq => hqp heq.symm) n hmem
  · intro q kq q' kq' r hq hr hq' hne n hmem
    rcases hholder hq hr with ⟨k, hq, hr⟩
    rcases hcarrier hq' hmem with hentry' | ⟨k', hq', hmem⟩
    · exact h.unshared hq hr n hentry'
    · exact h.alone hq hr hq' hne n hmem
  · intro q kq r hq hr
    have hdead : l.used r ∧ ¬l.live r := by
      rcases update_some_cases hq with ⟨_, heq⟩ | ⟨_, hold⟩
      · exact hgone kq heq r hr
      · exact h.dead hold hr
    exact ⟨hused r hdead.left, fun hr => hdead.right (hlive r hr)⟩
  · intro r hr
    rcases h.kept (hlive r hr) with ⟨n, hentry'⟩ | ⟨q, kq, hq, hhand'⟩
    · exact Or.inl ⟨n, hentry n r hr hentry'⟩
    · by_cases hqp : q = p
      · rw [hqp] at hq
        rcases hlet kq r hq hhand' hr with hin | ⟨k', hnew, hr'⟩
        · exact Or.inl hin
        · exact Or.inr ⟨p, k', by rw [Function.update_self]; exact hnew, hr'⟩
      · exact Or.inr ⟨q, kq, by rw [Function.update_of_ne hqp]; exact hq, hhand'⟩

theorem Sound.join (h : Sound l kn) (hp : kn p = none) :
    Sound l (Function.update kn p (some {})) := by
  refine h.step ?_ ?_ ?_ (fun _ _ => Or.inl) (fun _ => id) (fun _ => id) (fun _ _ _ => id) ?_
  · intro k' heq n r hmem
    cases heq
    cases hmem
  · intro k' heq r hr
    cases heq
    cases hr
  · intro k' heq r hr
    cases heq
    cases hr
  · intro k r hsome
    rw [hp] at hsome
    cases hsome

/-- A process comes to know more: entries from the table, and resources that are gone. -/
theorem Sound.learn (h : Sound l kn) (hp : kn p = some k) (hhand : k'.hand = k.hand)
    (hcarried : forall n r, (n, r) ∈ k'.carried -> l.table n = some r ∨ (n, r) ∈ k.carried)
    (hgone : forall r, r ∈ k'.gone -> r ∈ k.gone ∨ l.used r ∧ ¬l.live r) :
    Sound l (Function.update kn p (some k')) := by
  refine h.step ?_ ?_ ?_ (fun _ _ => Or.inl) (fun _ => id) (fun _ => id) (fun _ _ _ => id) ?_
  · intro k'' heq n r hmem
    cases heq
    rcases hcarried n r hmem with hentry | hmem
    · exact Or.inl hentry
    · exact Or.inr ⟨k, hp, hmem⟩
  · intro k'' heq r hr
    cases heq
    exact ⟨k, hp, hhand.symm.trans hr⟩
  · intro k'' heq r hr
    cases heq
    rcases hgone r hr with hr | hdead
    · exact h.dead hp hr
    · exact hdead
  · intro k'' r hsome hr _
    rw [hp] at hsome
    cases hsome
    exact Or.inr ⟨k', rfl, hhand.trans hr⟩

theorem Sound.leave (h : Sound l kn) (hp : kn p = some k)
    (hdead : forall r, k.hand = some r -> ¬l.live r) : Sound l (Function.update kn p none) := by
  refine h.step ?_ ?_ ?_ (fun _ _ => Or.inl) (fun _ => id) (fun _ => id) (fun _ _ _ => id) ?_
  · exact fun k' hnone => by cases hnone
  · exact fun k' hnone => by cases hnone
  · exact fun k' hnone => by cases hnone
  · intro k' r hsome hr hlive
    rw [hp] at hsome
    cases hsome
    exact absurd hlive (hdead r hr)

theorem Sound.release [DecidableEq res] (h : Sound l kn) (hp : kn p = some k) (hused : l.used r)
    (hdead : ¬l.live r) :
    Sound l (Function.update kn p
      (some { k with gone := r :: k.gone, hand := k.hand.filter (· ≠ r) })) := by
  refine h.step ?_ ?_ ?_ (fun _ _ => Or.inl) (fun _ => id) (fun _ => id) (fun _ _ _ => id) ?_
  · intro k' heq n r' hmem
    cases heq
    exact Or.inr ⟨k, hp, hmem⟩
  · intro k' heq r' hr'
    cases heq
    exact ⟨k, hp, (Option.filter_eq_some_iff.mp hr').left⟩
  · intro k' heq r' hr'
    cases heq
    cases hr' with
    | head => exact ⟨hused, hdead⟩
    | tail _ hr' => exact h.dead hp hr'
  · intro k' r' hsome hr' hlive
    rw [hp] at hsome
    cases hsome
    have hne : r' ≠ r := fun heq => hdead (by rw [← heq]; exact hlive)
    exact Or.inr ⟨_, rfl, Option.filter_eq_some_iff.mpr ⟨hr', decide_eq_true hne⟩⟩

/-- A process deletes an entry whose resource it knows to be gone, whatever it finds there. -/
theorem Sound.delete [DecidableEq name] (h : Sound l kn) (hp : kn p = some k)
    (hmem : (n, r) ∈ k.carried) (hgone : r ∈ k.gone) :
    Sound { l with table := Function.update l.table n none } kn := by
  have hsound : Sound { l with table := Function.update l.table n none }
      (Function.update kn p (kn p)) := by
    refine h.step ?_ ?_ ?_ ?_ (fun _ => id) (fun _ => id) ?_ ?_
    · exact fun k' heq n r hmem => Or.inr ⟨k', heq, hmem⟩
    · exact fun k' heq r hr => ⟨k', heq, hr⟩
    · exact fun k' heq r hr => h.dead heq hr
    · exact fun n r hentry => Or.inl (update_none hentry).right
    · intro n' r' hlive hentry
      by_cases hn : n' = n
      · rw [hn] at hentry
        have heq := h.one (Or.inl hentry) (Or.inr ⟨p, k, hp, hmem⟩)
        rw [heq] at hlive
        exact absurd hlive (h.dead hp hgone).right
      · rw [← hentry]
        exact Function.update_of_ne hn ..
    · exact fun k' r heq hr _ => Or.inr ⟨k', heq, hr⟩
  rw [Function.update_eq_self] at hsound
  exact hsound

theorem Sound.save [DecidableEq name] [DecidableEq res] (h : Sound l kn) (hp : kn p = some k)
    (hmem : (n, r) ∈ k.carried) :
    Sound { l with table := Function.update l.table n (some r) }
      (Function.update kn p (some { k with hand := k.hand.filter (· ≠ r) })) := by
  refine h.step ?_ ?_ ?_ ?_ (fun _ => id) (fun _ => id) ?_ ?_
  · intro k' heq n' r' hmem'
    cases heq
    exact Or.inr ⟨k, hp, hmem'⟩
  · intro k' heq r' hr'
    cases heq
    exact ⟨k, hp, (Option.filter_eq_some_iff.mp hr').left⟩
  · intro k' heq r' hr'
    cases heq
    exact h.dead hp hr'
  · intro n' r' hentry
    rcases update_cases hentry with ⟨hn, heq⟩ | ⟨_, hold⟩
    · rw [hn, heq]
      refine Or.inr ⟨⟨k, hp, hmem⟩, fun k' heq' hr' => ?_⟩
      cases heq'
      exact of_decide_eq_true (Option.filter_eq_some_iff.mp hr').right rfl
    · exact Or.inl hold
  · intro n' r' _ hentry
    by_cases hn : n' = n
    · rw [hn] at hentry
      rw [hn, h.one (Or.inl hentry) (Or.inr ⟨p, k, hp, hmem⟩)]
      exact Function.update_self ..
    · rw [← hentry]
      exact Function.update_of_ne hn ..
  · intro k' r' hsome hr' _
    rw [hp] at hsome
    cases hsome
    by_cases hrr : r' = r
    · exact Or.inl ⟨n, by rw [hrr]; exact Function.update_self ..⟩
    · exact Or.inr ⟨_, rfl, Option.filter_eq_some_iff.mpr ⟨hr', decide_eq_true hrr⟩⟩

theorem Sound.grant (h : Sound l kn) (hp : kn p = some k) (hhand : k.hand = none)
    (hnew : ¬l.used r) (hfree : forall r', ¬Bound l kn n r') :
    Sound { l with live := fun r' => r' = r ∨ l.live r', used := fun r' => r' = r ∨ l.used r' }
      (Function.update kn p (some { k with carried := (n, r) :: k.carried, hand := some r })) := by
  have hcarrier : forall {q kq n' r'},
      Function.update kn p (some { k with carried := (n, r) :: k.carried, hand := some r }) q =
        some kq -> (n', r') ∈ kq.carried ->
      q = p ∧ n' = n ∧ r' = r ∨ exists k, kn q = some k ∧ (n', r') ∈ k.carried := by
    intro q kq n' r' hq hmem
    rcases update_cases hq with ⟨hqp, heq⟩ | ⟨_, hold⟩
    · rw [heq] at hmem
      cases hmem with
      | head => exact Or.inl ⟨hqp, rfl, rfl⟩
      | tail _ hmem => exact Or.inr ⟨k, by rw [hqp]; exact hp, hmem⟩
    · exact Or.inr ⟨kq, hold, hmem⟩
  have hholder : forall {q kq r'},
      Function.update kn p (some { k with carried := (n, r) :: k.carried, hand := some r }) q =
        some kq -> kq.hand = some r' -> q = p ∧ r' = r ∨ q ≠ p ∧ kn q = some kq := by
    intro q kq r' hq hr'
    rcases update_cases hq with ⟨hqp, heq⟩ | hold
    · rw [heq] at hr'
      exact Or.inl ⟨hqp, (Option.some.inj hr').symm⟩
    · exact Or.inr hold
  have hbound : forall {n' r'},
      Bound { l with live := fun r' => r' = r ∨ l.live r', used := fun r' => r' = r ∨ l.used r' }
        (Function.update kn p (some { k with carried := (n, r) :: k.carried, hand := some r }))
        n' r' -> n' = n ∧ r' = r ∨ Bound l kn n' r' := by
    intro n' r' hr'
    rcases hr' with hentry | ⟨q, kq, hq, hmem⟩
    · exact Or.inr (Or.inl hentry)
    · rcases hcarrier hq hmem with ⟨_, hsame⟩ | ⟨k', hq, hmem⟩
      · exact Or.inl hsame
      · exact Or.inr (Or.inr ⟨q, k', hq, hmem⟩)
  have hfresh : forall {n'}, ¬Bound l kn n' r := fun hr => hnew (h.used hr)
  constructor
  · intro n' r' r'' hr' hr''
    rcases hbound hr' with ⟨hn, heq⟩ | hold
    · rcases hbound hr'' with ⟨_, heq'⟩ | hold'
      · rw [heq, heq']
      · rw [hn] at hold'
        exact absurd hold' (hfree r'')
    · rcases hbound hr'' with ⟨hn, _⟩ | hold'
      · rw [hn] at hold
        exact absurd hold (hfree r')
      · exact h.one hold hold'
  · intro n' n'' r' hn' hn''
    rcases hbound hn' with ⟨hn, heq⟩ | hold
    · rcases hbound hn'' with ⟨hn', _⟩ | hold'
      · rw [hn, hn']
      · rw [heq] at hold'
        exact absurd hold' hfresh
    · rcases hbound hn'' with ⟨_, heq⟩ | hold'
      · rw [heq] at hold
        exact absurd hold hfresh
      · exact h.name hold hold'
  · intro n' r' hr'
    rcases hbound hr' with ⟨_, heq⟩ | hold
    · exact Or.inl heq
    · exact Or.inr (h.used hold)
  · intro q kq r' hq hr'
    rcases hholder hq hr' with ⟨_, heq⟩ | ⟨_, hold⟩
    · exact Or.inl heq
    · exact Or.inr (h.held hold hr')
  · intro q kq r' hq hr' n' hentry
    rcases hholder hq hr' with ⟨_, heq⟩ | ⟨_, hold⟩
    · rw [heq] at hentry
      exact hfresh (Or.inl hentry)
    · exact h.unshared hold hr' n' hentry
  · intro q kq q' kq' r' hq hr' hq' hne n' hmem
    rcases hholder hq hr' with ⟨hqp, heq⟩ | ⟨_, hold⟩
    · rcases hcarrier hq' hmem with ⟨hqp', _⟩ | ⟨k', hq', hmem'⟩
      · exact hne (hqp'.trans hqp.symm)
      · rw [heq] at hmem'
        exact hfresh (Or.inr ⟨q', k', hq', hmem'⟩)
    · rcases hcarrier hq' hmem with ⟨_, _, heq⟩ | ⟨k', hq', hmem'⟩
      · rw [heq] at hr'
        exact hnew (h.held hold hr')
      · exact h.alone hold hr' hq' hne n' hmem'
  · intro q kq r' hq hr'
    have hdead : l.used r' ∧ ¬l.live r' := by
      rcases update_cases hq with ⟨_, heq⟩ | ⟨_, hold⟩
      · rw [heq] at hr'
        exact h.dead hp hr'
      · exact h.dead hold hr'
    refine ⟨Or.inr hdead.left, fun hlive => ?_⟩
    rcases hlive with heq | hlive
    · rw [heq] at hdead
      exact hnew hdead.left
    · exact hdead.right hlive
  · intro r' hlive
    rcases hlive with heq | hlive
    · rw [heq]
      exact Or.inr ⟨p, _, Function.update_self .., rfl⟩
    · rcases h.kept hlive with hentry | ⟨q, kq, hq, hr'⟩
      · exact Or.inl hentry
      · have hqp : q ≠ p := by
          intro heq
          rw [heq, hp] at hq
          cases hq
          rw [hhand] at hr'
          cases hr'
        exact Or.inr ⟨q, kq, by rw [Function.update_of_ne hqp]; exact hq, hr'⟩

end Custody
end Lib
end MightyColab
