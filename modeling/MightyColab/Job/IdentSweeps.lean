import MightyColab.Job.ProcessIdent

/-!
# Sweeps over processes that come and go

While a sweep reads `/proc` and sends its signals, processes end, their pids are given to others,
and programs replace their environment. A start time tells the processes of one pid apart. What a
sweep signals is a process of the job, as long as no pid changes hands at two moments: between
the two first looks at it, and between the last look and the signal.
-/

namespace MightyColab
namespace Job
namespace Ident

open Lib

/-!
## The processes of a VM
-/

structure Entry where
  serial : Nat
  stat : Stat
  vars : List Variable

def Entry.Tagged (jobId : String) (e : Entry) : Prop :=
  exists v, v ∈ e.vars ∧ tag jobId <:+ v.bytes

instance (jobId : String) (e : Entry) : Decidable (e.Tagged jobId) :=
  inferInstanceAs (Decidable (exists v, v ∈ e.vars ∧ tag jobId <:+ v.bytes))

structure World where
  table : Nat -> Option Entry
  /-- The processes so far: pid, start time and number. -/
  history : List (Nat × String × Nat)
  /-- Those that were tagged at any time. -/
  marked : List Nat
  /-- The processes that got a signal from a sweep. -/
  struck : List (Nat × Nat) := []

def World.put (jobId : String) (w : World) (pid : Nat) (e : Entry) : World :=
  { w with
    table := Function.update w.table pid (some e)
    marked := if e.Tagged jobId then e.serial :: w.marked else w.marked }

inductive Event where
  /-- A process is started at a free pid. -/
  | spawn (pid : Nat) (e : Entry)
  /-- A process runs on, runs another program, or exits without being reaped. -/
  | become (pid : Nat) (e : Entry)
  | reap (pid : Nat)

def happen (jobId : String) (w : World) : Event -> Option World
  | .spawn pid e =>
      if w.table pid = none ∧
          forall h, h ∈ w.history -> h.2.2 ≠ e.serial ∧ (h.1, h.2.1) ≠ (pid, e.stat.start.text)
      then
        some { w.put jobId pid e with
          history := (pid, e.stat.start.text, e.serial) :: w.history }
      else none
  | .become pid e =>
      match w.table pid with
      | some old =>
          if e.serial = old.serial ∧ e.stat.start.text = old.stat.start.text then
            some (w.put jobId pid e)
          else none
      | none => none
  | .reap pid => some { w with table := Function.update w.table pid none }

def perform (w : World) : (c : Call) -> c.Answer -> Option World
  | .listdir, pids => if 0 ∈ pids then none else some w
  | .environ pid, a =>
      if a = none ∨ a = (w.table pid).map fun e => environText e.vars then some w else none
  | .stat pid, a =>
      if a = none ∨ a = (w.table pid).map fun e => e.stat.text then some w else none
  | .bootId, _ => some w
  | .kill pid sig, true =>
      (w.table pid).map fun e => { w with struck := (e.serial, sig) :: w.struck }
  | .kill _ _, false => some w

/-!
## What a sweep knows
-/

structure Mind where
  /-- Found to be tagged, and not looked at again. -/
  pending : List Nat := []
  captured : List (Nat × String) := []
  /-- The process that the last look found again. -/
  checked : Option (Nat × String) := none

def learn (jobId : String) (k : Mind) : (c : Call) -> c.Answer -> Mind
  | .environ pid, a =>
      if Option.any (carries jobId) a then { k with pending := pid :: k.pending } else k
  | .stat pid, a =>
      let start := liveStart a
      if pid ∈ k.pending then
        { pending := k.pending.erase pid
          captured := if start = "" then k.captured else (pid, start) :: k.captured }
      else
        { k with checked :=
            if start ≠ "" ∧ (pid, start) ∈ k.captured then some (pid, start) else none }
  | .kill _ _, _ => { k with checked := none }
  | .listdir, _ | .bootId, _ => k

def Allowed (k : Mind) : Call -> Prop
  | .kill pid _ => exists start, k.checked = some (pid, start)
  | .listdir | .environ _ | .stat _ | .bootId => True

def Expected (_ : Mind) : (c : Call) -> c.Answer -> Prop
  | .listdir, pids => 0 ∉ pids
  | .environ _, _ | .stat _, _ | .bootId, _ | .kill _ _, _ => True

def discipline (jobId : String) : Discipline Call Call.Answer Mind where
  allowed := Allowed
  expected := Expected
  learn := learn jobId

inductive Command where
  | signalTagged (sig : Nat) (skip : List Nat)
  | lastSweep (skip : List Nat)

def Command.program (jobId : String) : Command -> Program PUnit
  | .signalTagged sig skip => do
      let _ <- Ident.signalTagged jobId sig skip
      return ⟨⟩
  | .lastSweep skip => do
      let _ <- Ident.lastSweep jobId skip
      return ⟨⟩

def site (jobId : String) : Site World Command Event Call Call.Answer Mind where
  toDiscipline := discipline jobId
  program := Command.program jobId
  perform := perform
  happen := happen jobId
  blank := {}
  settled _ _ := True

/-- No process is started at a pid between a sweep's looks at its environment and at its start
time, nor between the last look and the signal. -/
def Unused (minds : Nat -> Option Mind) : Event -> Prop
  | .spawn pid _ => forall q k, minds q = some k ->
      pid ∉ k.pending ∧ forall start, k.checked ≠ some (pid, start)
  | .become _ _ | .reap _ => True

def admitted : Site.Admits World Event Call Call.Answer Mind where
  reply _ _ _ _ _ := True
  event _ minds e := Unused minds e

structure Initial (jobId : String) (w : World) : Prop where
  known : forall pid e, w.table pid = some e ->
    (pid, e.stat.start.text, e.serial) ∈ w.history
  sole : forall pid start i j, (pid, start, i) ∈ w.history -> (pid, start, j) ∈ w.history -> i = j
  marks : forall pid e, w.table pid = some e -> e.Tagged jobId -> e.serial ∈ w.marked
  struck : w.struck = []

def machine (jobId : String) := (site jobId).machine (Initial jobId)

abbrev State := Site.State World Call Call.Answer Mind

def Orderly (jobId : String) (s : State) : Site.Action Command Event Call Call.Answer -> Prop :=
  (site jobId).Orderly admitted s

/-!
## What the programs keep to
-/

section Programs

variable {jobId : String} {k : Mind}

theorem obeys_bootId {alpha : Type} {f : String -> Program alpha} {post : alpha -> Mind -> Prop}
    (h : forall boot, (discipline jobId).Obeys (f boot) k post) :
    (discipline jobId).Obeys (Calls.ask .bootId >>= f) k post :=
  Discipline.obeys_call trivial fun boot _ => h boot

theorem obeys_taggedAmong {skip pids : List Nat} (hzero : 0 ∉ pids) :
    (discipline jobId).Obeys (taggedAmong jobId skip pids) k fun found k' =>
      0 ∉ found ∧ k' = { k with pending := found.reverse ++ k.pending } := by
  induction pids generalizing k with
  | nil => exact ⟨List.not_mem_nil, rfl⟩
  | cons pid rest ih =>
      have hrest : 0 ∉ rest := List.not_mem_of_not_mem_cons hzero
      unfold taggedAmong
      split
      · exact ih hrest
      · refine Discipline.obeys_call trivial fun a _ => ?_
        refine Discipline.Obeys.bind (ih hrest) fun others k' h => ?_
        rcases h with ⟨hothers, hk'⟩
        rw [hk']
        by_cases hcarries : Option.any (carries jobId) a = true
        · rw [if_pos hcarries]
          refine Discipline.obeys_pure ⟨?_, ?_⟩
          · exact List.not_mem_cons_of_ne_of_not_mem (List.ne_of_not_mem_cons hzero) hothers
          · simp only [discipline, learn, if_pos hcarries]
            simp
        · rw [if_neg hcarries]
          refine Discipline.obeys_pure ⟨hothers, ?_⟩
          simp only [discipline, learn, if_neg hcarries]

theorem obeys_taggedProcesses (skip : List Nat) :
    (discipline jobId).Obeys (taggedProcesses jobId skip) k fun found k' =>
      0 ∉ found ∧ k' = { k with pending := found.reverse ++ k.pending } := by
  unfold taggedProcesses
  split
  · exact Discipline.obeys_pure ⟨List.not_mem_nil, rfl⟩
  · exact Discipline.obeys_call trivial fun pids hzero => obeys_taggedAmong hzero

def Captured (k : Mind) (ids : List Identity) : Prop :=
  forall id, id ∈ ids -> (id.pid, id.start) ∈ k.captured

theorem Captured.congr {k' : Mind} {ids : List Identity} (h : Captured k ids)
    (heq : k'.captured = k.captured) : Captured k' ids := by
  rw [Captured, heq]
  exact h

theorem obeys_identitiesOf {boot : String} {pids : List Nat} (hzero : 0 ∉ pids)
    (hpending : k.pending.Perm pids) :
    (discipline jobId).Obeys (identitiesOf boot pids) k fun ids k' =>
      k'.pending = [] ∧ k.captured ⊆ k'.captured ∧ Captured k' ids := by
  induction pids generalizing k with
  | nil => exact ⟨hpending.eq_nil, List.Subset.refl _, fun id hid => absurd hid List.not_mem_nil⟩
  | cons pid rest ih =>
      have hrest : 0 ∉ rest := List.not_mem_of_not_mem_cons hzero
      have hmem : pid ∈ k.pending := hpending.mem_iff.mpr List.mem_cons_self
      unfold identitiesOf starttime
      rw [if_neg (Ne.symm (List.ne_of_not_mem_cons hzero))]
      refine Discipline.obeys_call trivial fun a _ => ?_
      have herase : (k.pending.erase pid).Perm rest := by
        have hperm := hpending.erase pid
        rw [List.erase_cons_head] at hperm
        exact hperm
      have hlearn : (discipline jobId).learn k (.stat pid) a =
          { pending := k.pending.erase pid
            captured := if liveStart a = "" then k.captured
              else (pid, liveStart a) :: k.captured } := by
        simp only [discipline, learn, if_pos hmem]
      rw [hlearn]
      refine Discipline.Obeys.bind (ih hrest herase) fun others k' h => ?_
      rcases h with ⟨hnil, hsub, hothers⟩
      by_cases hstart : liveStart a = ""
      · rw [if_pos hstart] at hsub ⊢
        exact Discipline.obeys_pure ⟨hnil, hsub, hothers⟩
      · rw [if_neg hstart] at hsub ⊢
        refine Discipline.obeys_pure ⟨hnil, ?_, fun id hid => ?_⟩
        · exact fun x hx => hsub (List.mem_cons_of_mem _ hx)
        · rcases List.mem_cons.mp hid with heq | hid
          · rw [heq]
            exact hsub List.mem_cons_self
          · exact hothers id hid

theorem obeys_taggedIdentities (skip : List Nat) (hnil : k.pending = []) :
    (discipline jobId).Obeys (taggedIdentities jobId skip) k fun ids k' =>
      k'.pending = [] ∧ Captured k' ids := by
  refine obeys_bootId fun boot => ?_
  refine Discipline.Obeys.bind (obeys_taggedProcesses skip) fun found k' h => ?_
  rcases h with ⟨hzero, hk'⟩
  have hperm : k'.pending.Perm found := by
    rw [hk', hnil]
    simp
  exact (obeys_identitiesOf hzero hperm).weaken fun ids k' h => ⟨h.left, h.right.right⟩

theorem obeys_alive {id : Identity} (hnil : k.pending = [])
    (hcaptured : (id.pid, id.start) ∈ k.captured) :
    (discipline jobId).Obeys (alive id) k fun same k' =>
      k'.pending = [] ∧ k'.captured = k.captured ∧
        (same = true -> k'.checked = some (id.pid, id.start)) := by
  unfold alive
  split
  · exact Discipline.obeys_pure ⟨hnil, rfl, fun h => by cases h⟩
  · next hpid =>
      refine obeys_bootId fun boot => ?_
      split
      · exact Discipline.obeys_pure ⟨hnil, rfl, fun h => by cases h⟩
      · unfold starttime
        rw [if_neg hpid]
        refine Discipline.obeys_call trivial fun a _ => ?_
        have hlearn : (discipline jobId).learn k (.stat id.pid) a =
            { k with checked := (if liveStart a ≠ "" ∧ (id.pid, liveStart a) ∈ k.captured then
                some (id.pid, liveStart a) else none) } := by
          have hnot : id.pid ∉ k.pending := by
            rw [hnil]
            exact List.not_mem_nil
          simp only [discipline, learn, if_neg hnot]
        rw [hlearn]
        refine And.intro hnil (And.intro rfl fun hsame => ?_)
        have hboth : liveStart a ≠ "" ∧ liveStart a = id.start := by simpa using hsame
        rcases hboth with ⟨hne, heq⟩
        rw [heq] at hne ⊢
        exact if_pos (And.intro hne hcaptured)

theorem obeys_signalIdentities (sig : Nat) {ids : List Identity} (hnil : k.pending = [])
    (hcaptured : Captured k ids) :
    (discipline jobId).Obeys (signalIdentities sig ids) k fun _ k' =>
      k'.pending = [] ∧ k'.captured = k.captured := by
  induction ids generalizing k with
  | nil => exact Discipline.obeys_pure ⟨hnil, rfl⟩
  | cons id rest ih =>
      have hrest : Captured k rest := fun other hother =>
        hcaptured other (List.mem_cons_of_mem _ hother)
      unfold signalIdentities
      refine Discipline.Obeys.bind (obeys_alive hnil (hcaptured id List.mem_cons_self))
        fun same k' h => ?_
      rcases h with ⟨hnil', hsame, hchecked⟩
      have hrest' : Captured k' rest := hrest.congr hsame
      split
      · next htrue =>
          refine Discipline.obeys_call ⟨_, hchecked htrue⟩ fun sent _ => ?_
          have hnext : Captured ((discipline jobId).learn k' (.kill id.pid sig) sent) rest := hrest'
          refine Discipline.Obeys.bind (ih hnil' hnext) fun others k'' h => ?_
          exact Discipline.obeys_pure ⟨h.left, h.right.trans hsame⟩
      · exact (ih hnil' hrest').weaken fun _ k'' h => ⟨h.left, h.right.trans hsame⟩

theorem sweeps_disciplined (jobId : String) : (site jobId).Disciplined := by
  intro c
  cases c with
  | signalTagged sig skip =>
      have hsweep : (discipline jobId).Obeys (signalTagged jobId sig skip) {}
          fun _ _ => True := by
        refine Discipline.Obeys.bind (obeys_taggedIdentities skip rfl) fun ids k h => ?_
        exact (obeys_signalIdentities sig h.left h.right).weaken fun _ _ _ => trivial
      exact hsweep.bind fun _ _ _ => Discipline.obeys_pure fun _ => trivial
  | lastSweep skip =>
      have hlook : forall {k : Mind}, (discipline jobId).Obeys (taggedProcesses jobId skip) k
          fun _ _ => True :=
        (obeys_taggedProcesses skip).weaken fun _ _ _ => trivial
      have hsweep : (discipline jobId).Obeys (lastSweep jobId skip) {} fun _ _ => True := by
        refine Discipline.Obeys.bind (obeys_taggedIdentities skip rfl) fun ids k h => ?_
        split
        · exact hlook
        · refine Discipline.Obeys.bind (obeys_signalIdentities sigterm h.left h.right)
            fun _ k' h' => ?_
          have hcaptured : Captured k' ids := h.right.congr h'.right
          exact Discipline.Obeys.bind (obeys_signalIdentities sigkill h'.left hcaptured)
            fun _ _ _ => hlook
      exact hsweep.bind fun _ _ _ => Discipline.obeys_pure fun _ => trivial

end Programs

/-!
## The invariant
-/

section Invariant

variable {jobId : String} {w w' : World} {minds : Nat -> Option Mind} {p q : Nat} {k : Mind}
  {start : String} {e : Entry}

/-- The processes of the job are marked, and what the sweeps know is of marked ones. -/
structure Inv (jobId : String) (w : World) (minds : Nat -> Option Mind) : Prop where
  known : forall {p e}, w.table p = some e -> (p, e.stat.start.text, e.serial) ∈ w.history
  sole : forall {p start i j}, (p, start, i) ∈ w.history -> (p, start, j) ∈ w.history -> i = j
  marks : forall {p e}, w.table p = some e -> e.Tagged jobId -> e.serial ∈ w.marked
  pending : forall {q k p e}, minds q = some k -> p ∈ k.pending -> w.table p = some e ->
    e.serial ∈ w.marked
  captured : forall {q k p start}, minds q = some k -> (p, start) ∈ k.captured ->
    (exists i, (p, start, i) ∈ w.history) ∧
      forall i, (p, start, i) ∈ w.history -> i ∈ w.marked
  checked : forall {q k p start}, minds q = some k -> k.checked = some (p, start) ->
    (p, start) ∈ k.captured ∧ forall e, w.table p = some e -> e.stat.start.text = start
  struck : forall {i sig}, (i, sig) ∈ w.struck -> i ∈ w.marked

theorem Inv.initial (h : Initial jobId w) : Inv jobId w fun _ => none where
  known := h.known _ _
  sole := h.sole _ _ _ _
  marks := h.marks _ _
  pending hq := by cases hq
  captured hq := by cases hq
  checked hq := by cases hq
  struck hmem := by
    rw [h.struck] at hmem
    cases hmem

theorem Inv.learn (h : Inv jobId w minds) {k' : Mind}
    (hpending : forall p e, p ∈ k'.pending -> w.table p = some e -> e.serial ∈ w.marked)
    (hcaptured : forall p start, (p, start) ∈ k'.captured ->
      (exists i, (p, start, i) ∈ w.history) ∧
        forall i, (p, start, i) ∈ w.history -> i ∈ w.marked)
    (hchecked : forall p start, k'.checked = some (p, start) ->
      (p, start) ∈ k'.captured ∧ forall e, w.table p = some e -> e.stat.start.text = start) :
    Inv jobId w (Function.update minds q (some k')) where
  known := h.known
  sole := h.sole
  marks := h.marks
  pending hq hp he := by
    rcases update_some_cases hq with ⟨_, heq⟩ | ⟨_, hold⟩
    · cases heq
      exact hpending _ _ hp he
    · exact h.pending hold hp he
  captured hq hmem := by
    rcases update_some_cases hq with ⟨_, heq⟩ | ⟨_, hold⟩
    · cases heq
      exact hcaptured _ _ hmem
    · exact h.captured hold hmem
  checked hq hc := by
    rcases update_some_cases hq with ⟨_, heq⟩ | ⟨_, hold⟩
    · cases heq
      exact hchecked _ _ hc
    · exact h.checked hold hc
  struck := h.struck

theorem Inv.same (h : Inv jobId w minds) (hq : minds q = some k) :
    Inv jobId w (Function.update minds q (some k)) :=
  h.learn (fun _ _ => h.pending hq) (fun _ _ => h.captured hq) fun _ _ => h.checked hq

/-- The text of a process that is there gives its start time, or nothing if it is gone. -/
theorem liveStart_stat {a : Option String}
    (ha : a = none ∨ a = (w.table p).map fun e => e.stat.text) (hne : liveStart a ≠ "") :
    exists e, w.table p = some e ∧ liveStart a = e.stat.start.text := by
  rcases ha with hnone | htext
  · rw [hnone] at hne
    exact absurd rfl hne
  · cases he : w.table p with
    | none =>
        rw [htext, he] at hne
        exact absurd rfl hne
    | some e =>
        refine ⟨e, rfl, ?_⟩
        rw [htext, he] at hne ⊢
        unfold liveStart at hne ⊢
        simp only [Option.map_some, Option.bind_some, parseStat_text] at hne ⊢
        split
        · next hgone =>
            rw [if_pos hgone] at hne
            exact absurd rfl hne
        · rfl

theorem answered_environ (hjob : Char.ofNat 0 ∉ jobId.toList) (h : Inv jobId w minds)
    (hq : minds q = some k) {a : Option (List UInt8)}
    (ha : a = none ∨ a = (w.table p).map fun e => environText e.vars) :
    Inv jobId w (Function.update minds q (some (Ident.learn jobId k (.environ p) a))) := by
  simp only [Ident.learn]
  split
  · next hcarries =>
      refine h.learn (fun p' e hp he => ?_) (fun _ _ => h.captured (k := k) hq)
        fun _ _ => h.checked (k := k) hq
      rcases List.mem_cons.mp hp with heq | hp
      · rw [heq] at he
        rcases ha with hnone | htext
        · rw [hnone] at hcarries
          cases hcarries
        · rw [htext, he] at hcarries
          exact h.marks he ((carries_iff hjob e.vars).mp hcarries)
      · exact h.pending hq hp he
  · exact h.same hq

theorem answered_stat (h : Inv jobId w minds) (hq : minds q = some k) {a : Option String}
    (ha : a = none ∨ a = (w.table p).map fun e => e.stat.text) :
    Inv jobId w (Function.update minds q (some (Ident.learn jobId k (.stat p) a))) := by
  simp only [Ident.learn]
  split
  · next hpending =>
      refine h.learn (fun p' e hp he => h.pending hq (List.mem_of_mem_erase hp) he)
        (fun p' start hmem => ?_) fun p' start hc => by cases hc
      simp only at hmem
      split at hmem
      · exact h.captured hq hmem
      · next hne =>
          rcases List.mem_cons.mp hmem with heq | hmem
          · cases heq
            rcases liveStart_stat ha hne with ⟨e, he, hstart⟩
            rw [hstart]
            refine ⟨⟨e.serial, h.known he⟩, fun i hi => ?_⟩
            rw [h.sole hi (h.known he)]
            exact h.pending hq hpending he
          · exact h.captured hq hmem
  · refine h.learn (fun _ _ => h.pending (k := k) hq) (fun _ _ => h.captured (k := k) hq)
      fun p' start hc => ?_
    simp only at hc
    split at hc
    · next hboth =>
        cases hc
        refine ⟨hboth.right, fun e he => ?_⟩
        rcases liveStart_stat ha hboth.left with ⟨e', he', hstart⟩
        rw [he] at he'
        cases he'
        exact hstart.symm
    · cases hc

theorem struck_captured (h : Inv jobId w minds) (hq : minds q = some k)
    (hc : k.checked = some (p, start)) (he : w.table p = some e) : e.serial ∈ w.marked := by
  rcases h.checked hq hc with ⟨hmem, hstart⟩
  refine (h.captured hq hmem).right _ ?_
  rw [← hstart e he]
  exact h.known he

theorem calls_answered (hjob : Char.ofNat 0 ∉ jobId.toList) (h : Inv jobId w minds)
    (hq : minds q = some k) {c : Call} {a : c.Answer} (hallowed : Allowed k c)
    (hperform : perform w c a = some w') :
    Expected k c a ∧
      Inv jobId w' (Function.update minds q (some (Ident.learn jobId k c a))) := by
  cases c with
  | listdir =>
      simp only [perform] at hperform
      split at hperform
      · cases hperform
      · next hzero =>
          cases hperform
          exact ⟨hzero, h.same hq⟩
  | environ p =>
      rcases Option.ite_none_right_eq_some.mp hperform with ⟨ha, heq⟩
      cases heq
      exact ⟨trivial, answered_environ hjob h hq ha⟩
  | stat p =>
      rcases Option.ite_none_right_eq_some.mp hperform with ⟨ha, heq⟩
      cases heq
      exact ⟨trivial, answered_stat h hq ha⟩
  | bootId =>
      cases hperform
      exact ⟨trivial, h.same hq⟩
  | kill p sig =>
      have hforget : Inv jobId w (Function.update minds q (some { k with checked := none })) :=
        h.learn (fun _ _ => h.pending (k := k) hq) (fun _ _ => h.captured (k := k) hq)
          fun _ _ hc => by cases hc
      refine ⟨trivial, ?_⟩
      cases a with
      | false =>
          cases hperform
          exact hforget
      | true =>
          rcases Option.map_eq_some_iff.mp hperform with ⟨e, he, heq⟩
          rcases hallowed with ⟨start, hc⟩
          have hmarked : e.serial ∈ w.marked := struck_captured h hq hc he
          rw [← heq]
          exact { hforget with
            struck := fun hmem => by
              rcases List.mem_cons.mp hmem with hnew | hold
              · cases hnew
                exact hmarked
              · exact h.struck hold }

/-!
## What else happens
-/

theorem mem_put {i : Nat} (h : i ∈ w.marked) : i ∈ (w.put jobId p e).marked := by
  unfold World.put
  simp only
  split
  · exact List.mem_cons_of_mem _ h
  · exact h

/-- A process that is marked if it is tagged, at a pid that no sweep holds, or in the place of
one that was the same. -/
theorem Inv.put (h : Inv jobId w minds)
    (hknown : (p, e.stat.start.text, e.serial) ∈ w.history)
    (hheld : forall q k, minds q = some k ->
      (p ∈ k.pending -> e.serial ∈ w.marked) ∧
        forall start, k.checked = some (p, start) -> e.stat.start.text = start) :
    Inv jobId (w.put jobId p e) minds where
  known he := by
    rcases update_some_cases he with ⟨hp, heq⟩ | ⟨_, hold⟩
    · cases heq
      rw [hp]
      exact hknown
    · exact h.known hold
  sole := h.sole
  marks he htagged := by
    rcases update_some_cases he with ⟨_, heq⟩ | ⟨_, hold⟩
    · cases heq
      unfold World.put
      simp only
      rw [if_pos htagged]
      exact List.mem_cons_self
    · exact mem_put (h.marks hold htagged)
  pending hq hp he := by
    rcases update_some_cases he with ⟨hpid, heq⟩ | ⟨_, hold⟩
    · cases heq
      rw [hpid] at hp
      exact mem_put ((hheld _ _ hq).left hp)
    · exact mem_put (h.pending hq hp hold)
  captured hq hmem :=
    ⟨(h.captured hq hmem).left, fun i hi => mem_put ((h.captured hq hmem).right i hi)⟩
  checked hq hc := by
    refine ⟨(h.checked hq hc).left, fun e' he => ?_⟩
    rcases update_some_cases he with ⟨hpid, heq⟩ | ⟨_, hold⟩
    · cases heq
      rw [hpid] at hc
      exact (hheld _ _ hq).right _ hc
    · exact (h.checked hq hc).right e' hold
  struck hmem := mem_put (h.struck hmem)

theorem Inv.enter (h : Inv jobId w minds)
    (hnew : forall x, x ∈ w.history -> x.2.2 ≠ e.serial ∧ (x.1, x.2.1) ≠ (p, e.stat.start.text)) :
    Inv jobId { w with history := (p, e.stat.start.text, e.serial) :: w.history } minds where
  known he := List.mem_cons_of_mem _ (h.known he)
  sole hi hj := by
    rcases List.mem_cons.mp hi with hi | hi <;> rcases List.mem_cons.mp hj with hj | hj
    · cases hi
      cases hj
      rfl
    · cases hi
      exact absurd rfl (hnew _ hj).right
    · cases hj
      exact absurd rfl (hnew _ hi).right
    · exact h.sole hi hj
  marks := h.marks
  pending := h.pending
  captured hq hmem := by
    rcases (h.captured hq hmem).left with ⟨i, hi⟩
    refine ⟨⟨i, List.mem_cons_of_mem _ hi⟩, fun j hj => ?_⟩
    rcases List.mem_cons.mp hj with heq | hj
    · cases heq
      exact absurd rfl (hnew _ hi).right
    · exact (h.captured hq hmem).right j hj
  checked := h.checked
  struck := h.struck

theorem Inv.reap (h : Inv jobId w minds) (p : Nat) :
    Inv jobId { w with table := Function.update w.table p none } minds := by
  have hthere : forall {p' e}, Function.update w.table p none p' = some e ->
      w.table p' = some e := by
    intro p' e he
    rcases update_some_cases he with ⟨_, hnone⟩ | ⟨_, hold⟩
    · cases hnone
    · exact hold
  exact
    { known := fun he => h.known (hthere he)
      sole := h.sole
      marks := fun he => h.marks (hthere he)
      pending := fun hq hp he => h.pending hq hp (hthere he)
      captured := h.captured
      checked := fun hq hc => ⟨(h.checked hq hc).left,
        fun e he => (h.checked hq hc).right e (hthere he)⟩
      struck := h.struck }

theorem happens (h : Inv jobId w minds) {event : Event} (hunused : Unused minds event)
    (hhappen : happen jobId w event = some w') : Inv jobId w' minds := by
  cases event with
  | spawn p e =>
      rcases Option.ite_none_right_eq_some.mp hhappen with ⟨⟨_, hnew⟩, heq⟩
      cases heq
      have hput := Inv.put (h.enter hnew) (p := p) (e := e) List.mem_cons_self
        fun q k hq => ⟨fun hp => absurd hp (hunused q k hq).left,
          fun start hc => absurd hc ((hunused q k hq).right start)⟩
      exact hput
  | become p e =>
      simp only [happen] at hhappen
      split at hhappen
      · next old hold =>
          rcases Option.ite_none_right_eq_some.mp hhappen with ⟨⟨hserial, hstart⟩, heq⟩
          cases heq
          refine h.put ?_ fun q k hq => ⟨fun hp => ?_, fun start hc => ?_⟩
          · rw [hserial, hstart]
            exact h.known hold
          · rw [hserial]
            exact h.pending hq hp hold
          · rw [hstart]
            exact (h.checked hq hc).right old hold
      · cases hhappen
  | reap p =>
      cases hhappen
      exact h.reap p

theorem inv_upheld (hjob : Char.ofNat 0 ∉ jobId.toList) :
    (site jobId).Upholds admitted (Inv jobId) where
  joined h _ := h.learn (fun _ _ hp => absurd hp List.not_mem_nil)
    (fun _ _ hmem => absurd hmem List.not_mem_nil) fun _ _ hc => by cases hc
  answered h hq hallowed _ hperform := calls_answered hjob h hq hallowed hperform
  left h _ _ :=
    { known := h.known
      sole := h.sole
      marks := h.marks
      pending := fun hq => by
        rcases update_some_cases hq with ⟨_, hnone⟩ | ⟨_, hold⟩
        · cases hnone
        · exact h.pending hold
      captured := fun hq => by
        rcases update_some_cases hq with ⟨_, hnone⟩ | ⟨_, hold⟩
        · cases hnone
        · exact h.captured hold
      checked := fun hq => by
        rcases update_some_cases hq with ⟨_, hnone⟩ | ⟨_, hold⟩
        · cases hnone
        · exact h.checked hold
      struck := h.struck }
  happened h hunused hhappen := happens h hunused hhappen

/-- Whatever comes and goes, what a sweep signals is a process that was tagged. -/
theorem struck_marked (hjob : Char.ofNat 0 ∉ jobId.toList) {st : State}
    (hreach : (machine jobId).Reaches (Orderly jobId) st) :
    forall i sig, (i, sig) ∈ st.world.struck -> i ∈ st.world.marked := by
  have hinv := Site.upheld (inv_upheld hjob) (sweeps_disciplined jobId)
    (fun _ hw => Inv.initial hw) hreach
  exact fun i sig => hinv.struck

end Invariant

/-!
## Pids that change hands
-/

/-- The guard of runs in which nobody sweeps but processes with numbers below `n`. -/
def Checkable (n : Nat) (s : State) :
    Site.Action Command Event Call Call.Answer -> Prop
  | .start q _ => q < n
  | .event (.spawn pid _) => forall q, q < n -> (s.known q).all (fun k =>
      pid ∉ k.pending ∧ k.checked.map Prod.fst ≠ some pid) = true
  | .act _ _ | .leave _ | .event (.become _ _) | .event (.reap _) => True

instance (n : Nat) (s : State) : DecidablePred (Checkable n s)
  | .start q _ => inferInstanceAs (Decidable (q < n))
  | .event (.spawn _ _) => inferInstanceAs (Decidable (forall q, q < n -> _ = true))
  | .act _ _ | .leave _ | .event (.become _ _) | .event (.reap _) => .isTrue trivial

theorem orderly_of_checkable {jobId : String} {n : Nat}
    {run : List (Site.Action Command Event Call Call.Answer)} {w : World}
    (h : (machine jobId).Guarded (Checkable n) { world := w } run) :
    (machine jobId).Guarded (Orderly jobId) { world := w } run := by
  have hbelow : forall s a, Checkable n s a -> a.Below n := by
    intro s a ha
    cases a with
    | start q c => exact ha
    | act q reply => trivial
    | leave q => trivial
    | event e => trivial
  have hamong : (machine jobId).Preserved (Checkable n) (Site.Among n) :=
    fun s a next hs ha hstep => Site.among_preserved _ n s a next hs (hbelow s a ha) hstep
  refine Machine.guarded_mono hamong (fun s a hs ha => ?_) (fun _ _ => rfl) h
  cases a with
  | start q c => trivial
  | act q reply => exact fun _ _ _ _ => trivial
  | leave q => exact fun _ _ => trivial
  | event e =>
      cases e with
      | become pid e => trivial
      | reap pid => trivial
      | spawn pid e =>
          intro q k hk
          have hq : q < n := by
            refine Nat.lt_of_not_le fun hle => ?_
            have hnone : s.known q = none := congrArg (Option.map _) (hs q hle)
            rw [hnone] at hk
            cases hk
          have hall := ha q hq
          rw [hk, Option.all_some, decide_eq_true_iff] at hall
          refine ⟨hall.left, fun start hc => hall.right ?_⟩
          rw [hc]
          rfl

def zero : Word := ⟨"0", by decide, by decide⟩

def process (serial : Nat) (start : Word) (vars : List Variable) : Entry where
  serial := serial
  vars := vars
  stat :=
    { pid := 10
      comm := "a) S 1"
      state := ⟨"S", by decide, by decide⟩
      between := List.replicate 18 zero
      length := rfl
      start := start
      more := [zero] }

def ours : Entry := process 0 ⟨"7", by decide, by decide⟩ [⟨tag "j", by decide⟩]

def stranger : Entry := process 1 ⟨"8", by decide, by decide⟩ []

def oneProcess : World where
  table := Function.update (fun _ => none) 10 (some ours)
  history := [(10, "7", 0)]
  marked := [0]

theorem oneProcess_table {pid : Nat} {e : Entry} (he : oneProcess.table pid = some e) :
    pid = 10 ∧ e = ours := by
  have hupdate : Function.update (fun _ => none) 10 (some ours) pid = some e := he
  rcases update_some_cases hupdate with ⟨hpid, heq⟩ | ⟨_, hnone⟩
  · exact ⟨hpid, (Option.some.inj heq).symm⟩
  · cases hnone

theorem oneProcess_initial : Initial "j" oneProcess where
  known pid e he := by
    rcases oneProcess_table he with ⟨hpid, heq⟩
    rw [hpid, heq]
    exact List.mem_cons_self
  sole pid start i j hi hj := by
    cases List.mem_singleton.mp hi
    cases List.mem_singleton.mp hj
    rfl
  marks pid e he _ := by
    rw [(oneProcess_table he).right]
    exact List.mem_cons_self
  struck := rfl

def told (e : Entry) : (c : Call) -> c.Answer
  | .listdir => [1, 10]
  | .environ _ => some (environText e.vars)
  | .stat _ => some e.stat.text
  | .bootId => "b"
  | .kill _ _ => true

abbrev Run := List (Site.Action Command Event Call Call.Answer)

def replaced : Run := [.event (.reap 10), .event (.spawn 10 stranger)]

def graceRun : Run :=
  .start 1 (.lastSweep [1]) :: List.replicate 7 (.act 1 (told ours)) ++ replaced ++
    List.replicate 4 (.act 1 (told stranger))

theorem struck_marked_grace :
    exists st, (machine "j").Reaches (Orderly "j") st ∧ st.world.struck = [(0, sigterm)] ∧
      forall i sig, (i, sig) ∈ st.world.struck -> i ∈ st.world.marked := by
  have hreach : (machine "j").Reaches (Orderly "j")
      (((machine "j").exec { world := oneProcess } graceRun).get (by decide +kernel)) :=
    ⟨_, graceRun, ⟨oneProcess, oneProcess_initial, rfl⟩,
      orderly_of_checkable (n := 2) (by decide), (Option.some_get _).symm⟩
  exact ⟨_, hreach, by decide, struck_marked (by decide) hreach⟩

/-- The pid changes hands between the looks at its environment and at its start time. -/
theorem first_look_misses : exists st, (machine "j").Reaches Machine.Free st ∧
    (1, sigterm) ∈ st.world.struck ∧ 1 ∉ st.world.marked := by
  let run : Run := .start 1 (.signalTagged sigterm [1]) ::
    List.replicate 3 (.act 1 (told ours)) ++ replaced ++ List.replicate 4 (.act 1 (told stranger))
  exact ⟨((machine "j").exec { world := oneProcess } run).get (by decide),
    ⟨_, run, ⟨oneProcess, oneProcess_initial, rfl⟩, Machine.guarded_free _ run _,
      (Option.some_get _).symm⟩, by decide, by decide⟩

/-- The pid changes hands between the last look and the signal. -/
theorem last_look_misses : exists st, (machine "j").Reaches Machine.Free st ∧
    (1, sigterm) ∈ st.world.struck ∧ 1 ∉ st.world.marked := by
  let run : Run := .start 1 (.signalTagged sigterm [1]) ::
    List.replicate 6 (.act 1 (told ours)) ++ replaced ++ List.replicate 1 (.act 1 (told stranger))
  exact ⟨((machine "j").exec { world := oneProcess } run).get (by decide),
    ⟨_, run, ⟨oneProcess, oneProcess_initial, rfl⟩, Machine.guarded_free _ run _,
      (Option.some_get _).symm⟩, by decide, by decide⟩

end Ident
end Job
end MightyColab
