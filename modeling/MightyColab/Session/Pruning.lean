import MightyColab.Lib.Dict
import MightyColab.Lib.Runs
import MightyColab.Lib.Slots
import MightyColab.Session.Record

/-!
# Pruning of local sessions

`prune_session` and `sync_sessions` among other processes that add, remove and rebind records
of the same names. The record that a pruner reads, the listing that it goes by and the removal
by name are separate steps, and the removal takes whatever record is there by then.
-/

namespace MightyColab
namespace Session
namespace Pruning

open Lib

structure Stored where
  record : SessionState
  written : Nat

structure Assignment where
  endpoint : String
  token : String
  url : String

structure Listing where
  endpoints : List String
  completed : Nat

/-- What a pruner goes by: an endpoint that it has read, and when the listing was complete in
which it was missing. -/
structure Ground where
  endpoint : String
  listed : Nat

inductive Stage where
  /-- `prune_session(name)`, before `store.get` -/
  | read (name : String)
  | list (name : String) (s : SessionState)
  /-- the assignment is there with another token; before `store.add` -/
  | refresh (name : String) (s : SessionState)
  /-- `sync_sessions`, before `store.list` -/
  | snapshot
  | listAll (locals : List (String × SessionState))
  /-- the calls `prune_session(name, confirmed_absent=True)` that remain -/
  | confirmed (stale : List (String × Ground))
  | kill (name : String) (s : SessionState) (ground : Ground) (rest : List (String × Ground))
  /-- before `store.remove`, with the record that was read, if there was one -/
  | remove (name : String) (found : Option (SessionState × Ground)) (killed : Option Nat)
      (rest : List (String × Ground))

structure Removal where
  stored : Stored
  killed : Option Nat

structure State where
  clock : Nat := 1
  store : List (String × Stored)
  pruners : Nat -> Option Stage := fun _ => none
  listings : List Listing := []
  /-- The records that pruners have removed. -/
  removals : List Removal := []

def State.add (s : State) (name : String) (record : SessionState) : State :=
  { s with store := Dict.set s.store name ⟨record, s.clock⟩, clock := s.clock + 1 }

def State.erase (s : State) (name : String) : State :=
  { s with store := s.store.filter fun item => item.1 ≠ name }

def State.goTo (s : State) (p : Nat) (stage : Option Stage) : State :=
  { s with pruners := Function.update s.pruners p stage }

def State.listed (s : State) (assignments : List Assignment) : State :=
  { s with
    listings := ⟨assignments.map Assignment.endpoint, s.clock⟩ :: s.listings
    clock := s.clock + 1 }

/-- `if s and s.keep_alive_pid`. -/
def killTarget (s : SessionState) : Option Nat := s.keepAlivePid.filter (· ≠ 0)

def State.prune (s : State) (name : String) (killed : Option Nat) : State :=
  match s.store.lookup name with
  | none => s
  | some stored => { s.erase name with removals := ⟨stored, killed⟩ :: s.removals }

def staleIn (locals : List (String × SessionState)) (assignments : List Assignment)
    (listed : Nat) : List (String × Ground) :=
  (locals.filter fun item => item.2.endpoint ∉ assignments.map Assignment.endpoint).map
    fun item => (item.1, ⟨item.2.endpoint, listed⟩)

def perform (s : State) (p : Nat) (answer : Option (List Assignment)) : Stage -> State
  | .read name =>
      match s.store.lookup name with
      | none => s.goTo p (some (.remove name none none []))
      | some stored => s.goTo p (some (.list name stored.record))
  | .list name record =>
      match answer with
      | none => s.goTo p none
      | some assignments =>
          match assignments.find? fun a => a.endpoint = record.endpoint with
          | some a =>
              if a.token ≠ record.token ∨ a.url ≠ record.url then
                (s.listed assignments).goTo p
                  (some (.refresh name { record with token := a.token, url := a.url }))
              else (s.listed assignments).goTo p none
          | none =>
              (s.listed assignments).goTo p
                (some (.kill name record ⟨record.endpoint, s.clock⟩ []))
  | .refresh name record => (s.add name record).goTo p none
  | .snapshot =>
      match s.store with
      | [] => s.goTo p none
      | store => s.goTo p (some (.listAll (store.map fun item => (item.1, item.2.record))))
  | .listAll locals =>
      match answer with
      | none => s.goTo p none
      | some assignments =>
          (s.listed assignments).goTo p (some (.confirmed (staleIn locals assignments s.clock)))
  | .confirmed stale =>
      match stale with
      | [] => s.goTo p none
      | (name, ground) :: rest =>
          match s.store.lookup name with
          | none => s.goTo p (some (.remove name none none rest))
          | some stored => s.goTo p (some (.kill name stored.record ground rest))
  | .kill name record ground rest =>
      s.goTo p (some (.remove name (some (record, ground)) (killTarget record) rest))
  | .remove name _ killed rest => (s.prune name killed).goTo p (some (.confirmed rest))

inductive Action where
  /-- Another process adds a record. -/
  | add (name : String) (record : SessionState)
  /-- Another process removes a name. -/
  | remove (name : String)
  | prune (p : Nat) (name : String)
  | sync (p : Nat)
  /-- A process begins anew or ends. -/
  | die (p : Nat)
  | act (p : Nat) (answer : Option (List Assignment))

def start (s : State) (p : Nat) (stage : Stage) : Option State :=
  match s.pruners p with
  | none => some (s.goTo p (some stage))
  | some _ => none

def step (s : State) : Action -> Option State
  | .add name record => some (s.add name record)
  | .remove name => some (s.erase name)
  | .prune p name => start s p (.read name)
  | .sync p => start s p .snapshot
  | .die p => some (s.goTo p none)
  | .act p answer => (s.pruners p).map (perform s p answer)

/-- Any store of earlier records, and nobody at work on it. -/
def machine : Machine State Action where
  start s := exists store, s = { store } ∧ forall item, item ∈ store -> item.2.written = 0
  step := step

/-!
## The rule
-/

/-- A record that was removed had its endpoint missing from a listing that was complete after
it was written, and what was killed with it is its own keep-alive. -/
def Removal.Justified (r : Removal) (listings : List Listing) : Prop :=
  (exists l, l ∈ listings ∧ r.stored.written < l.completed ∧
    r.stored.record.endpoint ∉ l.endpoints) ∧
  forall pid, r.killed = some pid -> r.stored.record.keepAlivePid = some pid

def Justified (s : State) : Prop := forall r, r ∈ s.removals -> r.Justified s.listings

/-- The record is one that was there before the pruner's listing was complete, with the
endpoint that was missing in it and the keep-alive that the pruner has read. -/
def Stored.IsSeen (stored : Stored) : Option (SessionState × Ground) -> Prop
  | none => False
  | some (record, ground) =>
      stored.written < ground.listed ∧ stored.record.endpoint = ground.endpoint ∧
        stored.record.keepAlivePid = record.keepAlivePid

def Stage.Undisturbed (s : State) : Stage -> Prop
  | .remove name found _ _ =>
      forall stored, s.store.lookup name = some stored -> stored.IsSeen found
  | .read _ | .list _ _ | .refresh _ _ | .snapshot | .listAll _ | .confirmed _ | .kill _ _ _ _ =>
      True

/-- Whenever a pruner comes to remove a name, the record there is as it has seen it. -/
def Undisturbed (s : State) : Action -> Prop
  | .act p _ => forall stage, s.pruners p = some stage -> stage.Undisturbed s
  | .add _ _ | .remove _ | .prune _ _ | .sync _ | .die _ => True

/-!
## What a pruner knows
-/

def Ground.Holds (g : Ground) (listings : List Listing) : Prop :=
  exists l, l ∈ listings ∧ l.completed = g.listed ∧ g.endpoint ∉ l.endpoints

def StaleHold (stale : List (String × Ground)) (listings : List Listing) : Prop :=
  forall item, item ∈ stale -> item.2.Holds listings

/-- A pruner that is about to kill or remove has its ground from a listing, and what it has
killed is the keep-alive of the record it read. -/
def Stage.Grounded (listings : List Listing) : Stage -> Prop
  | .confirmed stale => StaleHold stale listings
  | .kill _ _ ground rest => ground.Holds listings ∧ StaleHold rest listings
  | .remove _ found killed rest =>
      (forall record ground, found = some (record, ground) ->
        ground.Holds listings ∧ killed = killTarget record) ∧ StaleHold rest listings
  | .read _ | .list _ _ | .refresh _ _ | .snapshot | .listAll _ => True

structure Sound (s : State) : Prop where
  justified : Justified s
  grounded : forall p stage, s.pruners p = some stage -> stage.Grounded s.listings

variable {s : State} {p : Nat} {stage : Stage} {listings listings' : List Listing}

theorem Ground.Holds.mono {g : Ground} (h : g.Holds listings) (hsub : listings ⊆ listings') :
    g.Holds listings' := by
  rcases h with ⟨l, hl, hlisted, habsent⟩
  exact ⟨l, hsub hl, hlisted, habsent⟩

theorem StaleHold.mono {stale : List (String × Ground)} (h : StaleHold stale listings)
    (hsub : listings ⊆ listings') : StaleHold stale listings' :=
  fun item hitem => (h item hitem).mono hsub

theorem Stage.Grounded.mono (h : stage.Grounded listings) (hsub : listings ⊆ listings') :
    stage.Grounded listings' := by
  cases stage with
  | confirmed stale => exact StaleHold.mono h hsub
  | kill name record ground rest => exact ⟨h.left.mono hsub, h.right.mono hsub⟩
  | remove name found killed rest =>
      refine ⟨fun record ground hfound => ?_, h.right.mono hsub⟩
      have hground := h.left record ground hfound
      exact ⟨hground.left.mono hsub, hground.right⟩
  | read name => trivial
  | list name record => trivial
  | refresh name record => trivial
  | snapshot => trivial
  | listAll locals => trivial

theorem Removal.Justified.mono {r : Removal} (h : r.Justified listings)
    (hsub : listings ⊆ listings') : r.Justified listings' := by
  rcases h with ⟨⟨l, hl, hafter, habsent⟩, hkilled⟩
  exact ⟨⟨l, hsub hl, hafter, habsent⟩, hkilled⟩

theorem Sound.ended (h : Sound s) (p : Nat) : Sound (s.goTo p none) := by
  constructor
  · exact h.justified
  · intro q st hq
    exact h.grounded q st (update_none hq).right

theorem Sound.goTo (h : Sound s) (p : Nat) (hstage : stage.Grounded s.listings) :
    Sound (s.goTo p (some stage)) := by
  constructor
  · exact h.justified
  · intro q st hq
    rcases update_cases hq with ⟨_, heq⟩ | ⟨_, hold⟩
    · rw [heq]
      exact hstage
    · exact h.grounded q st hold

theorem Sound.listed (h : Sound s) (assignments : List Assignment) :
    Sound (s.listed assignments) := by
  have hsub : s.listings ⊆ (s.listed assignments).listings := List.subset_cons_self _ _
  constructor
  · intro r hr
    exact (h.justified r hr).mono hsub
  · intro q st hq
    exact (h.grounded q st hq).mono hsub

theorem Sound.add (h : Sound s) (name : String) (record : SessionState) :
    Sound (s.add name record) := ⟨h.justified, h.grounded⟩

theorem Sound.erase (h : Sound s) (name : String) : Sound (s.erase name) :=
  ⟨h.justified, h.grounded⟩

theorem holds_listed {assignments : List Assignment} {endpoint : String}
    (h : endpoint ∉ assignments.map Assignment.endpoint) :
    Ground.Holds ⟨endpoint, s.clock⟩ (s.listed assignments).listings :=
  ⟨_, List.mem_cons_self, rfl, h⟩

theorem stale_hold (locals : List (String × SessionState)) (assignments : List Assignment) :
    StaleHold (staleIn locals assignments s.clock) (s.listed assignments).listings := by
  intro item hitem
  rcases List.mem_map.mp hitem with ⟨first, hfirst, heq⟩
  rw [← heq]
  exact holds_listed (of_decide_eq_true (List.mem_filter.mp hfirst).right)

theorem killTarget_eq {record : SessionState} {pid : Nat} (h : killTarget record = some pid) :
    record.keepAlivePid = some pid := (Option.filter_eq_some_iff.mp h).left

theorem staleHold_nil (listings : List Listing) : StaleHold [] listings := by
  intro item hitem
  cases hitem

theorem blind_grounded {name : String} {killed : Option Nat} {rest : List (String × Ground)}
    (h : StaleHold rest listings) : (Stage.remove name none killed rest).Grounded listings := by
  constructor
  · intro record ground hnone
    cases hnone
  · exact h

/-!
## The steps of a pruner
-/

theorem remove_sound (h : Sound s) {name : String} {found : Option (SessionState × Ground)}
    {killed : Option Nat} {rest : List (String × Ground)}
    (hstage : (Stage.remove name found killed rest).Grounded s.listings)
    (hguard : (Stage.remove name found killed rest).Undisturbed s) :
    Sound (s.prune name killed) := by
  unfold State.prune
  split
  · exact h
  · next stored hlookup =>
      have hseen := hguard stored hlookup
      cases hfound : found with
      | none =>
          rw [hfound] at hseen
          exact False.elim hseen
      | some seen =>
          rcases seen with ⟨record, ground⟩
          rw [hfound] at hseen
          rcases hseen with ⟨hbefore, hendpoint, hpid⟩
          rcases hstage.left record ground hfound with ⟨⟨l, hl, hlisted, habsent⟩, hkilled⟩
          constructor
          · intro r hr
            cases hr with
            | head =>
                constructor
                · rw [← hlisted] at hbefore
                  rw [← hendpoint] at habsent
                  exact ⟨l, hl, hbefore, habsent⟩
                · intro pid heq
                  exact hpid.trans (killTarget_eq (hkilled.symm.trans heq))
            | tail _ hr => exact h.justified r hr
          · exact h.grounded

theorem perform_sound (h : Sound s) (answer : Option (List Assignment))
    (hpruner : s.pruners p = some stage) (hguard : stage.Undisturbed s) :
    Sound (perform s p answer stage) := by
  have hstage := h.grounded p stage hpruner
  cases stage with
  | read name =>
      simp only [perform]
      split
      · exact h.goTo p (blind_grounded (staleHold_nil _))
      · exact h.goTo p trivial
  | list name record =>
      cases answer with
      | none => exact h.ended p
      | some assignments =>
          have hlisted := h.listed assignments
          simp only [perform]
          split
          · split
            · exact hlisted.goTo p trivial
            · exact hlisted.ended p
          · next hnone =>
              refine hlisted.goTo p ⟨holds_listed fun hmem => ?_, staleHold_nil _⟩
              rcases List.mem_map.mp hmem with ⟨a, ha, heq⟩
              exact List.find?_eq_none.mp hnone a ha (decide_eq_true heq)
  | refresh name record => exact (h.add name record).ended p
  | snapshot =>
      simp only [perform]
      split
      · exact h.ended p
      · exact h.goTo p trivial
  | listAll locals =>
      cases answer with
      | none => exact h.ended p
      | some assignments => exact (h.listed assignments).goTo p (stale_hold locals assignments)
  | confirmed stale =>
      cases stale with
      | nil => exact h.ended p
      | cons first rest =>
          rcases first with ⟨name, ground⟩
          have hground := hstage (name, ground) List.mem_cons_self
          have hrest : StaleHold rest s.listings :=
            fun item hitem => hstage item (List.mem_cons_of_mem _ hitem)
          simp only [perform]
          split
          · exact h.goTo p (blind_grounded hrest)
          · exact h.goTo p ⟨hground, hrest⟩
  | kill name record ground rest =>
      refine h.goTo p ⟨fun record' ground' heq => ?_, hstage.right⟩
      cases heq
      exact ⟨hstage.left, rfl⟩
  | remove name found killed rest =>
      have hlistings : (s.prune name killed).listings = s.listings := by
        unfold State.prune
        split <;> rfl
      refine (remove_sound h hstage hguard).goTo p ?_
      rw [hlistings]
      exact hstage.right

theorem start_sound (h : Sound s) {next : State} (hstart : start s p stage = some next)
    (hstage : stage.Grounded s.listings) : Sound next := by
  unfold start at hstart
  split at hstart
  · cases hstart
    exact h.goTo p hstage
  · cases hstart

theorem sound_preserved : machine.Preserved Undisturbed Sound := by
  intro s a next h hguard hstep
  change step s a = some next at hstep
  cases a with
  | add name record =>
      cases hstep
      exact h.add name record
  | remove name =>
      cases hstep
      exact h.erase name
  | prune p name => exact start_sound h hstep trivial
  | sync p => exact start_sound h hstep trivial
  | die p =>
      cases hstep
      exact h.ended p
  | act p answer =>
      rcases Option.map_eq_some_iff.mp hstep with ⟨stage, hpruner, hnext⟩
      rw [← hnext]
      exact perform_sound h answer hpruner (hguard stage hpruner)

theorem initial_sound (store : List (String × Stored)) : Sound { store } := by
  constructor
  · intro r hr
    cases hr
  · intro p stage hp
    cases hp

theorem removals_justified (hreach : machine.Reaches Undisturbed s) : Justified s := by
  have hinv := Machine.reaches_invariant (fun s0 hs0 => by
    rcases hs0 with ⟨store, hs0, _⟩
    rw [hs0]
    exact initial_sound store) sound_preserved hreach
  exact hinv.justified

def bound (endpoint : String) (pid : Nat) : SessionState :=
  { name := "n", token := "t", url := "u", endpoint, keepAlivePid := some pid }

def oldStore : List (String × Stored) := [("n", ⟨bound "e1" 5, 0⟩)]

instance (stored : Stored) : forall found, Decidable (stored.IsSeen found)
  | none => .isFalse id
  | some (record, ground) =>
      inferInstanceAs (Decidable (stored.written < ground.listed ∧
        stored.record.endpoint = ground.endpoint ∧
          stored.record.keepAlivePid = record.keepAlivePid))

instance (s : State) : forall stage : Stage, Decidable (stage.Undisturbed s)
  | .remove name _ _ _ => Option.decidableForallMem (s.store.lookup name)
  | .read _ | .list _ _ | .refresh _ _ | .snapshot | .listAll _ | .confirmed _ | .kill _ _ _ _ =>
      .isTrue trivial

instance (s : State) : forall a, Decidable (Undisturbed s a)
  | .act p _ => Option.decidableForallMem (s.pruners p)
  | .add _ _ | .remove _ | .prune _ _ | .sync _ | .die _ => .isTrue trivial

theorem removals_justified_gone :
    exists s, machine.Reaches Undisturbed s ∧ s.removals.length = 1 ∧ Justified s := by
  let run : List Action := [.sync 1, .act 1 none, .act 1 (some []), .act 1 none, .act 1 none,
    .act 1 none]
  have hreach : machine.Reaches Undisturbed
      ((machine.exec { store := oldStore } run).get (by decide)) :=
    ⟨_, run, ⟨oldStore, rfl, by decide⟩, by decide, (Option.some_get _).symm⟩
  exact ⟨_, hreach, by decide, removals_justified hreach⟩

instance (r : Removal) (listings : List Listing) : Decidable (r.Justified listings) :=
  have := Option.decidableForallMem
    (p := fun pid => r.stored.record.keepAlivePid = some pid) r.killed
  inferInstanceAs (Decidable
    ((exists l, l ∈ listings ∧ r.stored.written < l.completed ∧
      r.stored.record.endpoint ∉ l.endpoints) ∧
    forall pid, pid ∈ r.killed -> r.stored.record.keepAlivePid = some pid))

instance (s : State) : Decidable (Justified s) :=
  inferInstanceAs (Decidable (forall r, r ∈ s.removals -> r.Justified s.listings))

/-- The name is bound to a new endpoint after the listing that lacks the old one. -/
theorem live_session_removed :
    exists s, machine.Reaches Machine.Free s ∧ s.removals.map Removal.killed = [some 9] ∧
      s.removals.map (fun r => r.stored.record.endpoint) = ["e2"] ∧ ¬Justified s := by
  let run : List Action := [.sync 1, .act 1 none, .act 1 (some []), .add "n" (bound "e2" 9),
    .act 1 none, .act 1 none, .act 1 none]
  exact ⟨(machine.exec { store := oldStore } run).get (by decide),
    ⟨_, run, ⟨oldStore, rfl, by decide⟩, Machine.guarded_free _ run _,
      (Option.some_get _).symm⟩, by decide, by decide, by decide⟩

/-- The name is bound to a new endpoint while `prune_session` kills the old keep-alive. -/
theorem other_keep_alive_killed :
    exists s, machine.Reaches Machine.Free s ∧ s.removals.map Removal.killed = [some 5] ∧
      s.removals.map (fun r => r.stored.record.keepAlivePid) = [some 9] ∧ ¬Justified s := by
  let run : List Action := [.prune 1 "n", .act 1 none, .act 1 (some []), .act 1 none,
    .add "n" (bound "e2" 9), .act 1 none]
  exact ⟨(machine.exec { store := oldStore } run).get (by decide),
    ⟨_, run, ⟨oldStore, rfl, by decide⟩, Machine.guarded_free _ run _,
      (Option.some_get _).symm⟩, by decide, by decide, by decide⟩

end Pruning
end Session
end MightyColab
