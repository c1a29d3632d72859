import MightyColab.Session.CommandDiscipline

/-!
# Custody of the VMs

The commands as processes on one session file and one account, in any interleaving of their
calls. A VM that `assign` has returned is billed until it is released. It is named by a record,
or in the hand of the command that has just got it, in every run in which no name is used twice
at a time and no command that has a VM in its hand is cut off.
-/

namespace MightyColab
namespace Session
namespace VmCustody

open Lib Lib.Custody Commands
open Pruning (Assignment)

structure World where
  store : List (String × SessionState) := []
  /-- The VMs of the account. -/
  alive : List String := []
  /-- The endpoints that there have been. -/
  used : List String := []
  /-- The endpoints that `assign` has returned, and those of the records at first. -/
  ours : List String := []

inductive Event where
  /-- The backend takes a VM back, or it is released elsewhere. -/
  | reclaim (endpoint : String)
  /-- A VM that no answer told of here: started elsewhere, or by an `assign` that raised. -/
  | appear (endpoint : String)

/-- What a call does if it is so answered. A listing gives what is there, and a VM is gone when
`unassign` returns. -/
def perform (w : World) : (c : Call) -> c.Answer -> Option World
  | .get name, found => if found = w.store.lookup name then some w else none
  | .list, items => if items = w.store then some w else none
  | .add s, _ => some { w with store := Dict.set w.store s.name s }
  | .remove name, _ => some { w with store := Dict.erase w.store name }
  | .assign _, some res =>
      if res.endpoint ∈ w.used then none
      else
        some { w with
          alive := res.endpoint :: w.alive
          used := res.endpoint :: w.used
          ours := res.endpoint :: w.ours }
  | .unassign endpoint, true => some { w with alive := w.alive.filter (· ≠ endpoint) }
  | .assignments, some found =>
      if found.map Assignment.endpoint ⊆ w.alive ∧ w.alive ⊆ found.map Assignment.endpoint then
        some w
      else none
  | .assign _, none | .ping _, _ | .unassign _, false | .assignments, none | .kill _, _ => some w

def happen (w : World) : Event -> Option World
  | .reclaim endpoint => some { w with alive := w.alive.filter (· ≠ endpoint) }
  | .appear endpoint =>
      if endpoint ∈ w.used then none
      else some { w with alive := endpoint :: w.alive, used := endpoint :: w.used }

def site : Site World Command Event Call Call.Answer Mind where
  toDiscipline := discipline
  program := Command.program
  perform := perform
  happen := happen
  blank := {}
  settled w k := forall endpoint, k.hand = some endpoint -> endpoint ∉ w.alive

/-- A VM is got for a name of which there is no record, and which nobody has in mind. With a VM
in hand, a ping raises nothing but a `ColabRequestError`, and `unassign` returns. -/
def Admits (w : World) (minds : Nat -> Option Mind) (p : Nat) : (c : Call) -> c.Answer -> Prop
  | .assign name, some _ =>
      w.store.lookup name = none ∧
        forall q k endpoint, minds q = some k -> (name, endpoint) ∉ k.carried
  | .ping _, .raised => forall k, minds p = some k -> k.hand = none
  | .unassign endpoint, false => forall k, minds p = some k -> k.hand ≠ some endpoint
  | _, _ => True

structure Initial (w : World) : Prop where
  nodup : (Dict.keys w.store).Nodup
  keyed : forall item, item ∈ w.store -> item.2.name = item.1
  sole : forall name name' s s', w.store.lookup name = some s -> w.store.lookup name' = some s' ->
    s.endpoint = s'.endpoint -> name = name'
  used : forall name s, w.store.lookup name = some s -> s.endpoint ∈ w.used
  ours : w.ours ⊆ w.used
  named : forall endpoint, endpoint ∈ w.ours -> endpoint ∈ w.alive ->
    exists name s, w.store.lookup name = some s ∧ s.endpoint = endpoint

def machine := site.machine Initial

abbrev State := Site.State World Call Call.Answer Mind

def admitted : Site.Admits World Event Call Call.Answer Mind where
  reply := Admits
  event _ _ _ := True

def Orderly (s : State) : Site.Action Command Event Call Call.Answer -> Prop :=
  site.Orderly admitted s

/-- Each VM of ours that is alive has a record, under one name only, or is in the hand of the
command that got it. -/
structure Kept (s : State) : Prop where
  tracked : forall endpoint, endpoint ∈ s.world.ours -> endpoint ∈ s.world.alive ->
    (exists name r, s.world.store.lookup name = some r ∧ r.endpoint = endpoint) ∨
      exists p k, s.known p = some k ∧ k.hand = some endpoint
  sole : forall name name' r r', s.world.store.lookup name = some r ->
    s.world.store.lookup name' = some r' -> r.endpoint = r'.endpoint -> name = name'

/-!
## The session file as a ledger
-/

def World.ledger (w : World) : Ledger String String where
  table name := (w.store.lookup name).map SessionState.endpoint
  live endpoint := endpoint ∈ w.ours ∧ endpoint ∈ w.alive
  used endpoint := endpoint ∈ w.used

structure Inv (w : World) (minds : Nat -> Option Mind) : Prop where
  sound : Sound w.ledger minds
  nodup : (Dict.keys w.store).Nodup
  keyed : forall item, item ∈ w.store -> item.2.name = item.1
  ours : w.ours ⊆ w.used

variable {w w' : World} {minds : Nat -> Option Mind} {p : Nat} {k k' : Mind}
  {name endpoint : String} {s : SessionState}

theorem table_of_lookup (h : w.store.lookup name = some s) :
    w.ledger.table name = some s.endpoint := by
  change (w.store.lookup name).map SessionState.endpoint = _
  rw [h]
  rfl

theorem lookup_of_table (h : w.ledger.table name = some endpoint) :
    exists s, w.store.lookup name = some s ∧ s.endpoint = endpoint :=
  Option.map_eq_some_iff.mp h

theorem Inv.start (h : Initial w) : Inv w fun _ => none := by
  refine ⟨Sound.start ?_ ?_ ?_, h.nodup, h.keyed, h.ours⟩
  · intro name endpoint htable
    rcases lookup_of_table htable with ⟨s, hlookup, heq⟩
    rw [← heq]
    exact h.used name s hlookup
  · intro name name' endpoint htable htable'
    rcases lookup_of_table htable with ⟨s, hlookup, heq⟩
    rcases lookup_of_table htable' with ⟨s', hlookup', heq'⟩
    exact h.sole name name' s s' hlookup hlookup' (heq.trans heq'.symm)
  · intro endpoint hlive
    rcases h.named endpoint hlive.left hlive.right with ⟨name, s, hlookup, heq⟩
    refine ⟨name, ?_⟩
    rw [table_of_lookup hlookup, heq]

theorem Inv.name_eq (h : Inv w minds) (hlookup : w.store.lookup name = some s) :
    s.name = name := by
  rcases List.lookup_eq_some_iff.mp hlookup with ⟨first, rest, heq, _⟩
  refine h.keyed (name, s) ?_
  rw [heq]
  exact List.mem_append_right _ List.mem_cons_self

theorem Inv.table_of_mem (h : Inv w minds) {item : String × SessionState}
    (hmem : item ∈ w.store) : w.ledger.table item.2.name = some item.2.endpoint := by
  rw [h.keyed item hmem]
  exact table_of_lookup (Dict.lookup_of_mem (Dict.consistent_of_nodup h.nodup) hmem)

theorem Inv.fewer (h : Inv w minds) {alive : List String} (hsub : alive ⊆ w.alive) :
    Inv { w with alive } minds :=
  ⟨h.sound.shrink (fun _ hlive => ⟨hlive.left, hsub hlive.right⟩) fun _ => id,
    h.nodup, h.keyed, h.ours⟩

theorem Inv.learns (h : Inv w minds) (hp : minds p = some k) (hhand : k'.hand = k.hand)
    (hcarried : forall name endpoint, (name, endpoint) ∈ k'.carried ->
      w.ledger.table name = some endpoint ∨ (name, endpoint) ∈ k.carried)
    (hgone : forall endpoint, endpoint ∈ k'.gone ->
      endpoint ∈ k.gone ∨ w.ledger.used endpoint ∧ ¬w.ledger.live endpoint) :
    Inv w (Function.update minds p (some k')) :=
  ⟨h.sound.learn hp hhand hcarried hgone, h.nodup, h.keyed, h.ours⟩

theorem Inv.same (h : Inv w minds) (hp : minds p = some k) :
    Inv w (Function.update minds p (some k)) := by
  rw [← hp, Function.update_eq_self]
  exact h

/-!
## The calls
-/

theorem get_some (h : Inv w minds) (hp : minds p = some k)
    (hlookup : w.store.lookup name = some s) :
    Inv w (Function.update minds p (some (learn k (.get name) (some s)))) := by
  refine h.learns hp rfl (fun name' endpoint hmem => ?_) fun _ => Or.inl
  cases hmem with
  | head =>
      rw [h.name_eq hlookup]
      exact Or.inl (table_of_lookup hlookup)
  | tail _ hmem => exact Or.inr hmem

theorem get_none (h : Inv w minds) (hp : minds p = some k)
    (hlookup : w.store.lookup name = none) :
    Inv w (Function.update minds p (some (learn k (.get name) none))) := by
  refine h.learns hp rfl (fun _ _ => Or.inr) fun endpoint hgone => ?_
  rcases List.mem_append.mp hgone with hmine | hold
  · rcases List.mem_map.mp hmine with ⟨⟨name', endpoint'⟩, hmem, heq⟩
    rcases List.mem_filter.mp hmem with ⟨hcarried, hprop⟩
    rcases of_decide_eq_true hprop with ⟨hname, hhand⟩
    simp only at hname heq hhand
    rw [hname, heq] at hcarried
    rw [heq] at hhand
    refine Or.inr ⟨h.sound.used_of_mem hp hcarried, h.sound.dead_of_absent hp hcarried hhand ?_⟩
    change (w.store.lookup name).map SessionState.endpoint = none
    rw [hlookup]
    rfl
  · exact Or.inl hold

theorem list_items (h : Inv w minds) (hp : minds p = some k) :
    Inv w (Function.update minds p (some (learn k .list w.store))) := by
  refine h.learns hp rfl (fun name endpoint hmem => ?_) fun _ => Or.inl
  rcases List.mem_append.mp hmem with hnew | hold
  · rcases List.mem_map.mp hnew with ⟨item, hitem, heq⟩
    cases heq
    exact Or.inl (h.table_of_mem hitem)
  · exact Or.inr hold

theorem assignments_some (h : Inv w minds) (hp : minds p = some k) {found : List Assignment}
    (hfound : w.alive ⊆ found.map Assignment.endpoint) :
    Inv w (Function.update minds p (some (learn k .assignments (some found)))) := by
  refine h.learns hp rfl (fun _ _ => Or.inr) fun endpoint hgone => ?_
  rcases List.mem_append.mp hgone with hnew | hold
  · rcases List.mem_filter.mp hnew with ⟨hmem, habsent⟩
    rcases List.mem_map.mp hmem with ⟨⟨name, endpoint'⟩, hcarried, heq⟩
    simp only at heq
    rw [heq] at hcarried
    refine Or.inr ⟨h.sound.used_of_mem hp hcarried, fun hlive => ?_⟩
    exact of_decide_eq_true habsent (hfound hlive.right)
  · exact Or.inl hold

theorem ledger_set (w : World) (s : SessionState) :
    ({ w with store := Dict.set w.store s.name s } : World).ledger =
      { w.ledger with table := Function.update w.ledger.table s.name (some s.endpoint) } := by
  unfold World.ledger
  congr 1
  funext name
  rw [Dict.lookup_set]
  by_cases hname : name = s.name
  · rw [if_pos hname, hname, Function.update_self]
    rfl
  · rw [if_neg hname, Function.update_of_ne hname]

theorem ledger_erase (w : World) (name : String) :
    ({ w with store := Dict.erase w.store name } : World).ledger =
      { w.ledger with table := Function.update w.ledger.table name none } := by
  unfold World.ledger
  congr 1
  funext name'
  rw [Dict.lookup_erase]
  by_cases hname : name' = name
  · rw [if_pos hname, hname, Function.update_self]
    rfl
  · rw [if_neg hname, Function.update_of_ne hname]

theorem add_saved (h : Inv w minds) (hp : minds p = some k)
    (hmem : (s.name, s.endpoint) ∈ k.carried) :
    Inv { w with store := Dict.set w.store s.name s }
      (Function.update minds p (some (learn k (.add s) ()))) := by
  refine ⟨?_, Dict.nodup_keys_set h.nodup, fun item hitem => ?_, h.ours⟩
  · rw [ledger_set]
    exact h.sound.save hp hmem
  · rcases Dict.mem_set hitem with heq | hold
    · rw [heq]
    · exact h.keyed item hold

theorem remove_erased (h : Inv w minds) (hp : minds p = some k)
    (hgone : exists endpoint, (name, endpoint) ∈ k.carried ∧ endpoint ∈ k.gone) :
    Inv { w with store := Dict.erase w.store name }
      (Function.update minds p (some (learn k (.remove name) ()))) := by
  rcases hgone with ⟨endpoint, hmem, hdead⟩
  have herased : Inv { w with store := Dict.erase w.store name } minds := by
    refine ⟨?_, ?_, fun item hitem => h.keyed item (List.mem_of_mem_filter hitem), h.ours⟩
    · rw [ledger_erase]
      exact h.sound.delete hp hmem hdead
    · exact h.nodup.sublist (List.filter_sublist.map Prod.fst)
  exact herased.same hp

theorem assign_granted (h : Inv w minds) (hp : minds p = some k) {res : Assignment}
    (hhand : k.hand = none) (hnew : res.endpoint ∉ w.used) (hfree : w.store.lookup name = none)
    (hminds : forall q k endpoint, minds q = some k -> (name, endpoint) ∉ k.carried) :
    Inv { w with alive := res.endpoint :: w.alive, used := res.endpoint :: w.used,
                 ours := res.endpoint :: w.ours }
      (Function.update minds p (some (learn k (.assign name) (some res)))) := by
  have hunbound : forall endpoint, ¬Bound w.ledger minds name endpoint := by
    intro endpoint hbound
    rcases hbound with htable | ⟨q, kq, hq, hmem⟩
    · rcases lookup_of_table htable with ⟨s, hlookup, _⟩
      rw [hfree] at hlookup
      cases hlookup
    · exact hminds q kq endpoint hq hmem
  have hledger : ({ w with
        alive := res.endpoint :: w.alive
        used := res.endpoint :: w.used
        ours := res.endpoint :: w.ours } : World).ledger =
      { w.ledger with
        live := fun endpoint => endpoint = res.endpoint ∨ w.ledger.live endpoint
        used := fun endpoint => endpoint = res.endpoint ∨ w.ledger.used endpoint } := by
    unfold World.ledger
    simp only [List.mem_cons, Ledger.mk.injEq, true_and, and_true]
    funext endpoint
    exact propext or_and_left.symm
  refine ⟨?_, h.nodup, h.keyed, List.cons_subset_cons _ h.ours⟩
  rw [hledger]
  exact h.sound.grant hp hhand hnew hunbound

theorem unassign_returned (h : Inv w minds) (hp : minds p = some k)
    (hmem : exists name, (name, endpoint) ∈ k.carried) :
    Inv { w with alive := w.alive.filter (· ≠ endpoint) }
      (Function.update minds p (some (learn k (.unassign endpoint) true))) := by
  rcases hmem with ⟨name, hmem⟩
  have hfewer : Inv { w with alive := w.alive.filter (· ≠ endpoint) } minds :=
    h.fewer (List.filter_subset_self w.alive)
  refine ⟨hfewer.sound.release hp (h.sound.used_of_mem hp hmem) fun hlive => ?_, h.nodup, h.keyed,
    h.ours⟩
  exact of_decide_eq_true (List.mem_filter.mp hlive.right).right rfl

theorem calls_answered (h : Inv w minds) (hp : minds p = some k) {c : Call} {a : c.Answer}
    (hallowed : Allowed k c) (hadmits : Admits w minds p c a) (hperform : perform w c a = some w') :
    Expected k c a ∧ Inv w' (Function.update minds p (some (learn k c a))) := by
  cases c with
  | get name =>
      rcases Option.ite_none_right_eq_some.mp hperform with ⟨hfound, heq⟩
      cases heq
      cases a with
      | none => exact ⟨trivial, get_none h hp hfound.symm⟩
      | some s => exact ⟨h.name_eq hfound.symm, get_some h hp hfound.symm⟩
  | list =>
      rcases Option.ite_none_right_eq_some.mp hperform with ⟨hitems, heq⟩
      cases heq
      cases hitems
      exact ⟨h.keyed, list_items h hp⟩
  | add s =>
      cases hperform
      exact ⟨trivial, add_saved h hp hallowed⟩
  | remove name =>
      cases hperform
      exact ⟨trivial, remove_erased h hp hallowed⟩
  | assign name =>
      cases a with
      | none =>
          cases hperform
          exact ⟨trivial, h.same hp⟩
      | some res =>
          rcases Option.ite_none_left_eq_some.mp hperform with ⟨hnew, heq⟩
          cases heq
          exact ⟨trivial, assign_granted h hp hallowed hnew hadmits.left hadmits.right⟩
  | ping endpoint =>
      cases hperform
      refine ⟨?_, h.same hp⟩
      cases a with
      | answered => trivial
      | refused code scopeError => trivial
      | raised => exact hadmits k hp
  | unassign endpoint =>
      cases a with
      | true =>
          cases hperform
          exact ⟨trivial, unassign_returned h hp hallowed⟩
      | false =>
          cases hperform
          exact ⟨hadmits k hp, h.same hp⟩
  | assignments =>
      cases a with
      | none =>
          cases hperform
          exact ⟨trivial, h.same hp⟩
      | some found =>
          rcases Option.ite_none_right_eq_some.mp hperform with ⟨hfound, heq⟩
          cases heq
          exact ⟨trivial, assignments_some h hp hfound.right⟩
  | kill pid =>
      cases hperform
      exact ⟨trivial, h.same hp⟩

theorem happens (h : Inv w minds) {e : Event} (hhappen : happen w e = some w') : Inv w' minds := by
  cases e with
  | reclaim endpoint =>
      cases hhappen
      exact h.fewer (List.filter_subset_self w.alive)
  | appear endpoint =>
      rcases Option.ite_none_left_eq_some.mp hhappen with ⟨hnew, heq⟩
      cases heq
      refine ⟨h.sound.shrink (fun e hlive => ⟨hlive.left, ?_⟩) fun e => List.mem_cons_of_mem _,
        h.nodup, h.keyed, fun e he => List.mem_cons_of_mem _ (h.ours he)⟩
      rcases List.mem_cons.mp hlive.right with heq | halive
      · rw [heq] at hlive
        exact absurd (h.ours hlive.left) hnew
      · exact halive

/-!
## The rule
-/

theorem inv_upheld : site.Upholds admitted Inv where
  joined h hnone := ⟨h.sound.join hnone, h.nodup, h.keyed, h.ours⟩
  answered h hp hallowed hadmits hperform := calls_answered h hp hallowed hadmits hperform
  left h hp hsettled :=
    ⟨h.sound.leave hp fun e he hlive => hsettled e he hlive.right, h.nodup, h.keyed, h.ours⟩
  happened h _ hhappen := happens h hhappen

theorem commands_disciplined : site.Disciplined := by
  intro c
  refine (obeys_program c rfl).weaken fun _ k' hafter w endpoint hhand => ?_
  rw [hafter.idle] at hhand
  cases hhand

theorem Inv.kept {st : State} (h : Inv st.world st.known) : Kept st := by
  constructor
  · intro endpoint hours halive
    rcases h.sound.kept ⟨hours, halive⟩ with ⟨name, htable⟩ | hhand
    · rcases lookup_of_table htable with ⟨s, hlookup, heq⟩
      exact Or.inl ⟨name, s, hlookup, heq⟩
    · exact Or.inr hhand
  · intro name name' r r' hlookup hlookup' heq
    have htable := table_of_lookup hlookup'
    rw [← heq] at htable
    exact h.sound.name (Or.inl (table_of_lookup hlookup)) (Or.inl htable)

/-- A VM of ours that is alive, which no record names and no process below `n` has in hand. -/
def Lost (n : Nat) (st : State) (endpoint : String) : Prop :=
  endpoint ∈ st.world.ours ∧ endpoint ∈ st.world.alive ∧
    (forall item, item ∈ st.world.store -> item.2.endpoint ≠ endpoint) ∧
    forall p, p < n -> forall k, st.known p = some k -> k.hand ≠ some endpoint

theorem Lost.not_kept {n : Nat} {st : State} (hamong : Site.Among n st)
    (h : Lost n st endpoint) : ¬Kept st := by
  intro hkept
  rcases h with ⟨hours, halive, hrecords, hhands⟩
  rcases hkept.tracked endpoint hours halive with ⟨name, r, hlookup, heq⟩ | ⟨p, k, hp, hhand⟩
  · rcases List.lookup_eq_some_iff.mp hlookup with ⟨first, rest, hstore, _⟩
    refine hrecords (name, r) ?_ heq
    rw [hstore]
    exact List.mem_append_right _ List.mem_cons_self
  · by_cases hlt : p < n
    · exact hhands p hlt k hp hhand
    · unfold Site.State.known at hp
      rw [hamong p (Nat.not_lt.mp hlt)] at hp
      cases hp

instance (n : Nat) (st : State) (endpoint : String) : Decidable (Lost n st endpoint) :=
  have := fun p => Option.decidableForallMem (p := fun k : Mind => k.hand ≠ some endpoint)
    (st.known p)
  inferInstanceAs (Decidable (endpoint ∈ st.world.ours ∧ endpoint ∈ st.world.alive ∧
    (forall item, item ∈ st.world.store -> item.2.endpoint ≠ endpoint) ∧
    forall p, p < n -> forall k, k ∈ st.known p -> k.hand ≠ some endpoint))

/-- The answers where nothing is amiss, of a store and a listing, and with this VM to be had. -/
def replies (store : List (String × SessionState)) (res : Option Assignment) (answer : Ping)
    (released : Bool) : (c : Call) -> c.Answer
  | .get name => store.lookup name
  | .list => store
  | .add _ | .remove _ => ()
  | .assign _ => res
  | .ping _ => answer
  | .unassign _ => released
  | .assignments => none
  | .kill _ => true

def options (name : String) : Options :=
  { name, variant := "DEFAULT", accelerator := "NONE", machineShape := "STANDARD",
    noKeepalive := false, time := "now", daemonPid := some 9 }

def recorded (name endpoint : String) : SessionState :=
  { name, token := "t", url := "u", endpoint }

def oneSession : World :=
  { store := [("a", recorded "a" "e1")], alive := ["e1"], used := ["e1"], ours := ["e1"] }

theorem oneSession_initial : Initial oneSession := by
  have hlookup : forall {name s}, oneSession.store.lookup name = some s ->
      name = "a" ∧ s = recorded "a" "e1" := by
    intro name s h
    rcases List.lookup_eq_some_iff.mp h with ⟨first, rest, hstore, _⟩
    have hmem : (name, s) ∈ oneSession.store := by
      rw [hstore]
      exact List.mem_append_right _ List.mem_cons_self
    cases List.mem_singleton.mp hmem
    exact ⟨rfl, rfl⟩
  refine ⟨by decide, by decide, ?_, ?_, fun _ => id, ?_⟩
  · intro name name' s s' h h' _
    rw [(hlookup h).left, (hlookup h').left]
  · intro name s h
    rw [(hlookup h).right]
    decide
  · intro endpoint hours _
    cases List.mem_singleton.mp hours
    exact ⟨"a", recorded "a" "e1", rfl, rfl⟩

def granting (endpoint : String) : (c : Call) -> c.Answer :=
  replies [] (some ⟨endpoint, "t", "u"⟩) .answered true

def plain (store : List (String × SessionState)) : (c : Call) -> c.Answer :=
  replies store none .answered true

theorem plain_orderly (st : State) (p : Nat) (store : List (String × SessionState)) :
    Orderly st (.act p (plain store)) := by
  intro c next k _
  cases c <;> trivial

abbrev Run := List (Site.Action Command Event Call Call.Answer)

/-- One session is created while the only other is stopped, up to the removal of its record. -/
def twoSessions : Run :=
  [.start 1 (.new (options "b")), .act 1 (granting "e2"), .act 1 (plain []), .act 1 (plain []),
    .act 1 (plain []), .start 2 (.stop (some "a")), .act 2 (plain oneSession.store),
    .act 2 (plain oneSession.store)]

theorem twoSessions_orderly : machine.Guarded Orderly { world := oneSession } twoSessions := by
  refine ⟨trivial, fun s1 h1 => ⟨?_, fun _ _ => ⟨plain_orderly _ 1 _, fun _ _ =>
    ⟨plain_orderly _ 1 _, fun _ _ => ⟨plain_orderly _ 1 _, fun _ _ => ⟨trivial, fun _ _ =>
      ⟨plain_orderly _ 2 _, fun _ _ => ⟨plain_orderly _ 2 _, fun _ _ => trivial⟩⟩⟩⟩⟩⟩⟩⟩
  cases h1
  intro c next k hproc
  cases hproc
  refine ⟨rfl, fun q k endpoint hq => ?_⟩
  rcases Option.map_eq_some_iff.mp hq with ⟨proc, hproc, hk⟩
  rcases update_some_cases hproc with ⟨_, heq⟩ | ⟨_, hold⟩
  · cases heq
    rw [← hk]
    exact List.not_mem_nil
  · cases hold

theorem lost_of_run {n : Nat} {run : Run} {st : State}
    (hexec : machine.exec { world := oneSession } run = some st)
    (hbelow : machine.Guarded (fun _ a => a.Below n) { world := oneSession } run)
    (hlost : Lost n st endpoint) : exists st, machine.Reaches Machine.Free st ∧ ¬Kept st := by
  refine ⟨st, ⟨_, run, ⟨oneSession, oneSession_initial, rfl⟩, Machine.guarded_free _ run _,
    hexec⟩, hlost.not_kept ?_⟩
  exact Machine.exec_preserved (Site.among_preserved Initial n) (fun _ _ => rfl) hbelow hexec

/-- `new` overwrites the record of a session of the same name. -/
theorem name_reused_loses : exists st, machine.Reaches Machine.Free st ∧ ¬Kept st := by
  let run : Run :=
    [.start 1 (.new (options "a")), .act 1 (granting "e2"), .act 1 (plain []), .act 1 (plain [])]
  have hlost : Lost 2 ((machine.exec { world := oneSession } run).get (by decide))
      "e1" := by
    decide
  exact lost_of_run (Option.some_get _).symm (by decide) hlost

/-- `exec` has read the record of a session that is stopped, and created anew, before it saves
its copy. -/
theorem old_copy_loses : exists st, machine.Reaches Machine.Free st ∧ ¬Kept st := by
  let answers : ExecAnswers :=
    { connected := some (none, none), fault := none, listed := .failed, gone := true,
      source := "f.py", blocks := [] }
  let run : Run :=
    [.start 1 (.exec (some "a") answers), .act 1 (plain oneSession.store),
      .start 2 (.stop (some "a")), .act 2 (plain oneSession.store), .act 2 (plain []),
      .act 2 (plain []), .start 3 (.new (options "a")), .act 3 (granting "e2"), .act 3 (plain []),
      .act 3 (plain []), .act 3 (plain []), .act 1 (plain [])]
  have hlost : Lost 4 ((machine.exec { world := oneSession } run).get (by decide))
      "e2" := by
    decide
  exact lost_of_run (Option.some_get _).symm (by decide) hlost

/-- A ping that raises anything else, as when the connection fails, comes before the record. -/
theorem ping_raised_loses : exists st, machine.Reaches Machine.Free st ∧ ¬Kept st := by
  let run : Run :=
    [.start 1 (.new (options "b")), .act 1 (granting "e2"), .act 1 (replies [] none .raised true)]
  have hlost : Lost 2 ((machine.exec { world := oneSession } run).get (by decide))
      "e2" := by
    decide
  exact lost_of_run (Option.some_get _).symm (by decide) hlost

/-- Where a scope is missing, it is passed over if `unassign` raises. -/
theorem unassign_raised_loses : exists st, machine.Reaches Machine.Free st ∧ ¬Kept st := by
  let run : Run :=
    [.start 1 (.new (options "b")), .act 1 (granting "e2"),
      .act 1 (replies [] none (.refused (some 403) true) true),
      .act 1 (replies [] none .answered false)]
  have hlost : Lost 2 ((machine.exec { world := oneSession } run).get (by decide))
      "e2" := by
    decide
  exact lost_of_run (Option.some_get _).symm (by decide) hlost

end VmCustody
end Session
end MightyColab
