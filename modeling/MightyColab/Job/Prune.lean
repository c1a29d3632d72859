import MightyColab.Lib.Runs
import MightyColab.Lib.Slots
import MightyColab.Job.WriteBack

/-!
# `jobs prune` beside the other commands

The record of one job, the VMs that its applies were assigned, and any number of `apply`,
`status`, `destroy` and `prune` processes, each of which does one deed at a time. `prune`
looks at the record and deletes it in separate steps, and looks at the claim of `apply`
only where there is no envelope.
-/

namespace MightyColab
namespace Job

open Lib

namespace Prune

open Concurrent

/-!
## The machine
-/

structure Reader where
  work : Work
  copyIn : Nat
  lateIn : Nat

/-- What `prune` knows when it has found a record removable. -/
structure Look where
  begun : Nat
  /-- No `job apply` was in progress. -/
  quiet : Bool

structure State where
  /-- `envelope.json`. -/
  disk : Option JobEnvelope
  /-- The VMs assigned by applies of this job that exist. -/
  live : List String
  work : Nat -> Option Reader
  looked : Nat -> Option Look
  /-- The applies between their claim and their end. -/
  applies : List Nat
  /-- How many applies have begun, and what the last of them has done. -/
  begun : Nat
  trace : List Deed
  /-- `prune` has deleted the record while a VM existed. -/
  forgotten : Bool

inductive Action where
  | begin (p : Nat) (task : Task)
  | reread (p : Nat)
  | act (p : Nat)
  /-- A process ends, or dies. -/
  | finish (p : Nat)
  /-- The server takes a VM back by itself. -/
  | reclaim (endpoint : String)
  /-- `prune` finds the record removable; `applyLog` if there is an `apply.log`. -/
  | look (p : Nat) (applyLog : Bool)
  | delete (p : Nat)

def without (endpoint : String) (live : List String) : List String :=
  live.filter (· ≠ endpoint)

def afterDeed (s : State) (task : Task) : Deed -> State
  | .wrote env => { s with disk := some env }
  | .assigned endpoint => if isApply task then { s with live := endpoint :: s.live } else s
  | .absent endpoint => if isApply task then { s with live := without endpoint s.live } else s
  | .release endpoint =>
      if confirms task endpoint then { s with live := without endpoint s.live } else s

/-- What `prune` removes: an unapplied plan, or a job that is done with its VM gone. -/
def removable (s : State) (applyLog : Bool) : Bool :=
  match s.disk with
  | none => s.applies.isEmpty && !applyLog
  | some env => env.done && env.cleanup.gone

def step (s : State) : Action -> Option State
  | .begin p task =>
      let reader : Reader := ⟨{ task, copy := s.disk }, s.begun, s.begun⟩
      match s.work p with
      | some _ => none
      | none =>
          if isApply task then
            -- an apply of a job that has an endpoint is refused, and does nothing
            if (s.disk.bind fun env => nonempty env.endpoint).isSome then none
            else
              some { s with
                work := Function.update s.work p (some reader)
                applies := p :: s.applies
                begun := s.begun + 1
                trace := [] }
          else some { s with work := Function.update s.work p (some reader) }
  | .reread p =>
      match s.work p with
      | some ⟨⟨.destroy args a, copy, _, 0⟩, copyIn, _⟩ =>
          some { s with
            work := Function.update s.work p
              (some ⟨⟨.destroy args a, copy, s.disk, 0⟩, copyIn, s.begun⟩) }
      | _ => none
  | .act p =>
      match s.work p with
      | none => none
      | some r =>
          match r.work.deeds[r.work.next]? with
          | none => none
          | some deed =>
              let s' := afterDeed s r.work.task deed
              some { s' with
                work := Function.update s.work p
                  (some { r with work := { r.work with next := r.work.next + 1 } })
                trace := if isApply r.work.task then deed :: s.trace else s.trace }
  | .finish p =>
      match s.work p with
      | none => none
      | some _ =>
          some { s with
            work := Function.update s.work p none
            applies := s.applies.filter (· ≠ p) }
  | .reclaim endpoint => some { s with live := without endpoint s.live }
  | .look p applyLog =>
      if removable s applyLog then
        some { s with looked := Function.update s.looked p (some ⟨s.begun, s.applies.isEmpty⟩) }
      else none
  | .delete p =>
      match s.looked p with
      | none => none
      | some _ =>
          some { s with
            disk := none
            looked := Function.update s.looked p none
            forgotten := s.forgotten || !s.live.isEmpty }

def init : State where
  disk := none
  live := []
  work := fun _ => none
  looked := fun _ => none
  applies := []
  begun := 0
  trace := []
  forgotten := false

def machine : Machine State Action where
  start := fun s => s = init
  step := step

/-- No record of a VM that exists was deleted, and none says that it is gone. -/
structure Remembers (s : State) : Prop where
  kept : s.forgotten = false
  truthful : forall env, s.disk = some env -> env.cleanup.gone = true -> s.live = []

/-!
## The condition
-/

def unrecorded : List Deed -> List String
  | [] => []
  | .assigned endpoint :: older => endpoint :: unrecorded older
  | .wrote _ :: _ => []
  | .release _ :: older => unrecorded older
  | .absent _ :: older => unrecorded older

def Reader.basisIn (r : Reader) : Nat :=
  match r.work.task, r.work.copy, r.work.late with
  | .destroy args a, some copy, some _ => if takesOver args a copy then r.lateIn else r.copyIn
  | _, _, _ => r.copyIn

/-- A `status` or a `destroy` writes a record that it has read since the last apply began;
and from a record that names no VM it writes only while there is none, and that it is gone
only while no apply is in progress. -/
def WritesBack (s : State) (r : Reader) (env : JobEnvelope) : Prop :=
  r.basisIn = s.begun ∧
    forall basis, r.work.basis = some basis -> nonempty basis.endpoint = none ->
      s.live = [] ∧ (env.cleanup.gone = true -> s.applies = [])

def Careful (s : State) : Action -> Prop
  | .begin _ (.apply args a) =>
      s.applies = [] ∧
        Apply.AllSeen (Apply.candidates args.plan.spec) a.body.provision.candidates
  | .finish p =>
      -- an apply does not end with a VM that it has not recorded
      p ∈ s.applies -> forall e, e ∈ unrecorded s.trace -> e ∉ s.live
  | .act p =>
      forall r env, s.work p = some r -> isApply r.work.task = false ->
        r.work.deeds[r.work.next]? = some (.wrote env) -> WritesBack s r env
  | .delete p =>
      forall look, s.looked p = some look -> look.quiet = true ∧ look.begun = s.begun
  | _ => True

/-!
## The invariant
-/

/-- A `status` or a `destroy` has a record that it read since the last apply began. -/
def HeldBy (work : Nat -> Option Reader) (begun : Nat) (env : JobEnvelope) : Prop :=
  exists p r, work p = some r ∧ isApply r.work.task = false ∧
    (r.work.copy = some env ∧ r.copyIn = begun ∨ r.work.late = some env ∧ r.lateIn = begun)

/-- Such a record, or the one on disk. -/
def Reads (s : State) (env : JobEnvelope) : Prop :=
  s.disk = some env ∨ HeldBy s.work s.begun env

/-- The record on disk names the VM. -/
def OnDisk (s : State) (endpoint : String) : Prop :=
  exists env, s.disk = some env ∧ nonempty env.endpoint = some endpoint

/-- What the record, the last apply's deeds and the records that commands have read say of
the VMs that exist. -/
structure Accounts (s : State) : Prop where
  kept : s.forgotten = false
  ordered : Apply.Ordered s.trace
  held : forall e, e ∈ s.live -> e ∈ Apply.held s.trace
  gone : forall env, s.disk = some env -> env.cleanup.gone = true -> s.live = []
  recorded : forall e, e ∈ s.live -> e ∈ unrecorded s.trace ∨ OnDisk s e
  settled : s.applies = [] -> forall e, e ∈ s.live -> OnDisk s e
  /-- A VM that a record names has been named by the last apply. -/
  named : forall env e, Reads s env -> nonempty env.endpoint = some e ->
    exists w, .wrote w ∈ s.trace ∧ nonempty w.endpoint = some e
  goneRead : forall env e, Reads s env -> nonempty env.endpoint = some e ->
    env.cleanup.gone = true -> s.live = []
  /-- A VM whose release a command has seen confirmed does not exist. -/
  released : forall p r basis e, s.work p = some r -> r.basisIn = s.begun ->
    r.work.basis = some basis -> nonempty basis.endpoint = some e ->
    .release e ∈ r.work.deeds.take r.work.next -> confirms r.work.task e = true -> e ∉ s.live
  /-- Before an apply has named a VM, the record does not say that none is left. -/
  pending : s.applies ≠ [] -> Apply.Written s.trace -> Apply.Unnamed s.trace ->
    forall env, s.disk = some env -> env.cleanup.gone = false
  looked : forall p look, s.looked p = some look -> look.quiet = true ->
    look.begun = s.begun -> s.applies = [] ∧ s.live = []
  past : forall p r, s.work p = some r -> r.copyIn ≤ s.begun ∧ r.lateIn ≤ s.begun
  pastLook : forall p look, s.looked p = some look -> look.begun ≤ s.begun
  applying : forall p, p ∈ s.applies <->
    exists r, s.work p = some r ∧ isApply r.work.task = true
  only : forall p q, p ∈ s.applies -> q ∈ s.applies -> p = q
  running : forall p r, s.work p = some r -> isApply r.work.task = true ->
    Apply.Ordered r.work.deeds.reverse ∧
      s.trace = (r.work.deeds.take r.work.next).reverse

variable {s next : State} {p : Nat} {r : Reader} {endpoint : String}
  {basis env : JobEnvelope}

theorem nil_of_subset {live live' : List String} (hsub : forall e, e ∈ live' -> e ∈ live)
    (hnil : live = []) : live' = [] := by
  refine List.eq_nil_iff_forall_not_mem.mpr fun e he => ?_
  have hmem := hsub e he
  rw [hnil] at hmem
  cases hmem

theorem mem_without {e : String} {live : List String} (h : e ∈ without endpoint live) :
    e ∈ live ∧ e ≠ endpoint := by
  simpa [without] using h

theorem accounts_fewer {live : List String} (hs : Accounts s)
    (hsub : forall e, e ∈ live -> e ∈ s.live) : Accounts { s with live } :=
  { hs with
    held := fun e he => hs.held e (hsub e he)
    gone := fun env henv hgone => nil_of_subset hsub (hs.gone env henv hgone)
    recorded := fun e he => hs.recorded e (hsub e he)
    settled := fun hidle e he => hs.settled hidle e (hsub e he)
    goneRead := fun env e henv hend hgone =>
      nil_of_subset hsub (hs.goneRead env e henv hend hgone)
    released := fun p r basis e hr hin hbasis hend hmem hconfirms he =>
      hs.released p r basis e hr hin hbasis hend hmem hconfirms (hsub e he)
    looked := fun p look hlook hquiet hbegun =>
      ⟨(hs.looked p look hlook hquiet hbegun).left,
        nil_of_subset hsub (hs.looked p look hlook hquiet hbegun).right⟩ }

theorem accounts_init : Accounts init where
  kept := rfl
  ordered := trivial
  held e he := False.elim (List.not_mem_nil he)
  gone env henv := by cases henv
  recorded e he := False.elim (List.not_mem_nil he)
  settled _ e he := False.elim (List.not_mem_nil he)
  named env e hread := by
    rcases hread with hdisk | ⟨p, r, hr, _⟩
    · cases hdisk
    · cases hr
  goneRead _ _ _ _ _ := rfl
  released p r basis e hr := by cases hr
  pending h := absurd rfl h
  looked p look hlook := by cases hlook
  past p r hr := by cases hr
  pastLook p look hlook := by cases hlook
  applying p := by
    constructor
    · intro h
      exact False.elim (List.not_mem_nil h)
    · rintro ⟨r, hr, _⟩
      cases hr
  only p q hp := False.elim (List.not_mem_nil hp)
  running p r hr := by cases hr

/-!
## The processes
-/

theorem basis_heldBy (hr : s.work p = some r) (hcommand : isApply r.work.task = false)
    (hin : r.basisIn = s.begun) (hbasis : r.work.basis = some basis) :
    HeldBy s.work s.begun basis := by
  refine ⟨p, r, hr, hcommand, ?_⟩
  rcases r with ⟨⟨task, copy, late, next⟩, copyIn, lateIn⟩
  cases task with
  | apply args a => cases hcommand
  | status args a => exact Or.inl ⟨hbasis, hin⟩
  | destroy args a =>
      cases copy with
      | none => cases hbasis
      | some copy =>
          cases late with
          | none =>
              simp only [Work.basis, Option.none_or, ite_self] at hbasis
              exact Or.inl ⟨hbasis, hin⟩
          | some late =>
              simp only [Work.basis, Reader.basisIn] at hbasis hin
              split at hbasis
              · next htakes =>
                  rw [if_pos htakes] at hin
                  exact Or.inr ⟨by simpa using hbasis, hin⟩
              · next htakes =>
                  rw [if_neg htakes] at hin
                  exact Or.inl ⟨hbasis, hin⟩

/-- A process whose records are among those already read, and whose apply if any is
accounted for. -/
theorem accounts_process {r' : Reader} (hs : Accounts s)
    (hheld : forall env, isApply r'.work.task = false ->
      r'.work.copy = some env ∧ r'.copyIn = s.begun ∨
        r'.work.late = some env ∧ r'.lateIn = s.begun -> Reads s env)
    (hreleased : forall basis e, r'.basisIn = s.begun -> r'.work.basis = some basis ->
      nonempty basis.endpoint = some e -> .release e ∈ r'.work.deeds.take r'.work.next ->
      confirms r'.work.task e = true -> e ∉ s.live)
    (hpast : r'.copyIn ≤ s.begun ∧ r'.lateIn ≤ s.begun)
    (hcommand : isApply r'.work.task = false) (hidle : p ∉ s.applies) :
    Accounts { s with work := Function.update s.work p (some r') } := by
  have hreads : forall env,
      Reads { s with work := Function.update s.work p (some r') } env -> Reads s env := by
    intro env hread
    rcases hread with hdisk | ⟨q, r, hr, hkind, hrecord⟩
    · exact Or.inl hdisk
    · rcases update_cases hr with ⟨_, heq⟩ | ⟨_, hr⟩
      · subst heq
        exact hheld env hkind hrecord
      · exact Or.inr ⟨q, r, hr, hkind, hrecord⟩
  exact
    { hs with
      named := fun env e hread => hs.named env e (hreads env hread)
      goneRead := fun env e hread => hs.goneRead env e (hreads env hread)
      released := fun q r basis e hr => by
        rcases update_cases hr with ⟨_, heq⟩ | ⟨_, hr⟩
        · subst heq
          exact hreleased basis e
        · exact hs.released q r basis e hr
      past := fun q r hr => by
        rcases update_cases hr with ⟨_, heq⟩ | ⟨_, hr⟩
        · subst heq
          exact hpast
        · exact hs.past q r hr
      applying := fun q => by
        by_cases hq : q = p
        · subst hq
          constructor
          · intro h
            exact absurd h hidle
          · rintro ⟨r, hr, hkind⟩
            rcases update_cases hr with ⟨_, heq⟩ | ⟨hne, _⟩
            · rw [heq, hcommand] at hkind
              cases hkind
            · exact absurd rfl hne
        · simp only [Function.update_of_ne hq]
          exact hs.applying q
      running := fun q r hr hkind => by
        rcases update_cases hr with ⟨_, heq⟩ | ⟨_, hr⟩
        · rw [heq, hcommand] at hkind
          cases hkind
        · exact hs.running q r hr hkind }

theorem idle_of_none (hs : Accounts s) (hnone : s.work p = none) : p ∉ s.applies := by
  intro hmem
  rcases (hs.applying p).mp hmem with ⟨r, hr, _⟩
  rw [hnone] at hr
  cases hr

theorem idle_of_command (hs : Accounts s) (hr : s.work p = some r)
    (hcommand : isApply r.work.task = false) : p ∉ s.applies := by
  intro hmem
  rcases (hs.applying p).mp hmem with ⟨r', hr', hkind⟩
  rw [hr] at hr'
  cases hr'
  rw [hcommand] at hkind
  cases hkind

/-- A command goes on after a deed, which if it is a confirmed release has left no such
VM. -/
theorem accounts_next (hs : Accounts s) (hr : s.work p = some r)
    (hcommand : isApply r.work.task = false)
    (hrelease : forall e, r.work.deeds[r.work.next]? = some (.release e) ->
      confirms r.work.task e = true -> e ∉ s.live) :
    Accounts { s with
      work := Function.update s.work p
        (some { r with work := { r.work with next := r.work.next + 1 } }) } := by
  refine accounts_process hs (fun env hkind hrecord => Or.inr ⟨p, r, hr, hkind, hrecord⟩)
    (fun basis e hin hbasis hend hmem hconfirms => ?_) (hs.past p r hr) hcommand
    (idle_of_command hs hr hcommand)
  have hdeeds : .release e ∈ r.work.deeds.take (r.work.next + 1) := hmem
  rw [List.take_add_one, List.mem_append] at hdeeds
  rcases hdeeds with hbefore | hnow
  · exact hs.released p r basis e hr hin hbasis hend hbefore hconfirms
  · exact hrelease e (by simpa using hnow) hconfirms

theorem accounts_beginCommand {task : Task} (hs : Accounts s) (hnone : s.work p = none)
    (hcommand : isApply task = false) :
    Accounts { s with
      work := Function.update s.work p
        (some ⟨{ task, copy := s.disk }, s.begun, s.begun⟩) } := by
  refine accounts_process hs (fun env _ hrecord => ?_) (fun _ _ _ _ _ hmem => ?_)
    ⟨le_rfl, le_rfl⟩ hcommand (idle_of_none hs hnone)
  · rcases hrecord with ⟨hcopy, _⟩ | ⟨hlate, _⟩
    · exact Or.inl hcopy
    · cases hlate
  · simp at hmem

theorem accounts_reread (hs : Accounts s) (hstep : step s (.reread p) = some next) :
    Accounts next := by
  simp only [step] at hstep
  split at hstep
  · next args a copy late copyIn lateIn hr =>
      cases hstep
      refine accounts_process hs (fun env hkind hrecord => ?_) (fun _ _ _ _ _ hmem => ?_)
        ⟨(hs.past p _ hr).left, le_rfl⟩ rfl (idle_of_command hs hr rfl)
      · rcases hrecord with hcopy | ⟨hlate, _⟩
        · exact Or.inr ⟨p, _, hr, hkind, Or.inl hcopy⟩
        · exact Or.inl hlate
      · simp at hmem
  · cases hstep

/-!
## The records that commands write
-/

theorem live_named (hs : Accounts s) {e : String} (hread : Reads s env)
    (hend : nonempty env.endpoint = some e) : forall e', e' ∈ s.live -> e' = e := by
  rcases hs.named env e hread hend with ⟨w, hwrote, hnames⟩
  intro e' he'
  exact Apply.ordered_names hs.ordered hwrote hnames e' (hs.held e' he')

theorem accounts_write (hs : Accounts s) (hread : Reads s basis)
    (hend : env.endpoint = basis.endpoint)
    (hunnamed : nonempty basis.endpoint = none ->
      s.live = [] ∧ (env.cleanup.gone = true -> s.applies = []))
    (hgone : forall e, nonempty basis.endpoint = some e -> env.cleanup.gone = true ->
      s.live = []) : Accounts { s with disk := some env } := by
  have hread' : forall env', Reads { s with disk := some env } env' ->
      env' = env ∨ Reads s env' := by
    intro env' hread'
    rcases hread' with hdisk | hheld
    · exact Or.inl (Option.some.inj hdisk).symm
    · exact Or.inr (Or.inr hheld)
  have hnone : env.cleanup.gone = true -> s.live = [] := by
    intro hcleanup
    cases hbasis : nonempty basis.endpoint with
    | none => exact (hunnamed hbasis).left
    | some e => exact hgone e hbasis hcleanup
  have hondisk : forall e, e ∈ s.live -> OnDisk { s with disk := some env } e := by
    intro e he
    cases hbasis : nonempty basis.endpoint with
    | none =>
        rw [(hunnamed hbasis).left] at he
        cases he
    | some e' =>
        refine ⟨env, rfl, ?_⟩
        rw [hend, hbasis, live_named hs hread hbasis e he]
  exact
    { hs with
      gone := fun env' henv => by
        cases henv
        exact hnone
      recorded := fun e he => Or.inr (hondisk e he)
      settled := fun _ e he => hondisk e he
      named := fun env' e hr hnames => by
        rcases hread' env' hr with heq | hr
        · rw [heq, hend] at hnames
          exact hs.named basis e hread hnames
        · exact hs.named env' e hr hnames
      goneRead := fun env' e hr hnames hcleanup => by
        rcases hread' env' hr with heq | hr
        · rw [heq] at hcleanup
          exact hnone hcleanup
        · exact hs.goneRead env' e hr hnames hcleanup
      pending := fun hbusy hwritten hunsaid env' henv => by
        cases henv
        cases hbasis : nonempty basis.endpoint with
        | none =>
            cases hcleanup : env.cleanup.gone with
            | false => rfl
            | true => exact absurd ((hunnamed hbasis).right hcleanup) hbusy
        | some e =>
            rcases hs.named basis e hread hbasis with ⟨w, hwrote, hnames⟩
            rw [(hunsaid w hwrote).right] at hnames
            cases hnames }

theorem accounts_command (hs : Accounts s) (hr : s.work p = some r)
    (hcommand : isApply r.work.task = false)
    (hcareful : Careful s (.act p)) (hstep : step s (.act p) = some next) :
    Accounts next := by
  simp only [step, hr, hcommand, Bool.false_eq_true, if_false] at hstep
  split at hstep
  · cases hstep
  · next deed hdeed =>
      cases hstep
      cases deed with
      | assigned e =>
          simp only [afterDeed, hcommand, Bool.false_eq_true, if_false]
          exact accounts_next hs hr hcommand fun e h => by simp [hdeed] at h
      | absent e =>
          simp only [afterDeed, hcommand, Bool.false_eq_true, if_false]
          exact accounts_next hs hr hcommand fun e h => by simp [hdeed] at h
      | release e =>
          simp only [afterDeed]
          split
          · have hfewer : Accounts { s with live := without e s.live } :=
              accounts_fewer hs fun _ he => (mem_without he).left
            refine accounts_next hfewer hr hcommand fun e' h _ hmem => ?_
            rw [hdeed] at h
            cases h
            exact (mem_without hmem).right rfl
          · next hnot =>
              refine accounts_next hs hr hcommand fun e' h hconfirms => ?_
              rw [hdeed] at h
              cases h
              exact absurd hconfirms hnot
      | wrote env =>
          simp only [afterDeed]
          rcases hcareful r env hr hcommand hdeed with ⟨hin, hunnamed⟩
          rcases work_follows hcommand hdeed with ⟨basis, hbasis, hend, hgone⟩
          have hread : Reads s basis := Or.inr (basis_heldBy hr hcommand hin hbasis)
          have hwritten : Accounts { s with disk := some env } := by
            refine accounts_write hs hread hend (hunnamed basis hbasis) fun e hnames hcleanup => ?_
            rcases hgone hcleanup with hbasisGone | hnone | ⟨e', hnames', hmem, hconfirms⟩
            · exact hs.goneRead basis e hread hnames hbasisGone
            · rw [hnames] at hnone
              cases hnone
            · rw [hnames] at hnames'
              cases hnames'
              have hreleased := hs.released p r basis e hr hin hbasis hnames
                (List.mem_reverse.mp hmem) hconfirms
              refine List.eq_nil_iff_forall_not_mem.mpr fun e' he' => hreleased ?_
              rw [← live_named hs hread hnames e' he']
              exact he'
          exact accounts_next hwritten hr hcommand fun e h => by simp [hdeed] at h

/-!
## The deeds of an apply
-/

theorem only_apply (hs : Accounts s) (hr : s.work p = some r)
    (hkind : isApply r.work.task = true) : p ∈ s.applies :=
  (hs.applying p).mpr ⟨r, hr, hkind⟩

theorem heldBy_apply {begun : Nat} {work : Nat -> Option Reader} (r' : Reader)
    (hkind : isApply r'.work.task = true)
    (h : HeldBy (Function.update work p (some r')) begun env) : HeldBy work begun env := by
  rcases h with ⟨q, r, hr, hcommand, hrecord⟩
  rcases update_cases hr with ⟨_, heq⟩ | ⟨_, hr⟩
  · rw [heq, hkind] at hcommand
    cases hcommand
  · exact ⟨q, r, hr, hcommand, hrecord⟩

theorem ordered_next (hs : Accounts s) (hr : s.work p = some r)
    (hkind : isApply r.work.task = true) {deed : Deed}
    (hdeed : r.work.deeds[r.work.next]? = some deed) :
    Apply.Ordered (deed :: s.trace) ∧
      deed :: s.trace = (r.work.deeds.take (r.work.next + 1)).reverse := by
  rcases hs.running p r hr hkind with ⟨hordered, htrace⟩
  have hnext : deed :: s.trace = (r.work.deeds.take (r.work.next + 1)).reverse := by
    rw [List.take_add_one, hdeed, htrace]
    simp
  refine ⟨?_, hnext⟩
  rw [hnext]
  exact Apply.ordered_suffix hordered
    (List.reverse_suffix.mpr (List.take_prefix _ _))

def applied (s : State) (p : Nat) (r : Reader) (deed : Deed) (disk : Option JobEnvelope)
    (live : List String) : State :=
  { s with
    disk, live
    work := Function.update s.work p
      (some { r with work := { r.work with next := r.work.next + 1 } })
    trace := deed :: s.trace }

/-- A deed of an apply, as far as it depends on what it does to the record and the VMs. -/
theorem accounts_applied (hs : Accounts s) (hr : s.work p = some r)
    (hkind : isApply r.work.task = true) {deed : Deed}
    (hdeed : r.work.deeds[r.work.next]? = some deed) {disk : Option JobEnvelope}
    {live : List String}
    (hheld : forall e, e ∈ live -> e ∈ Apply.held (deed :: s.trace))
    (hrecord : forall env, disk = some env ->
      (env.cleanup.gone = true -> live = []) ∧
        (forall e, nonempty env.endpoint = some e ->
          exists w, .wrote w ∈ deed :: s.trace ∧ nonempty w.endpoint = some e) ∧
        (Apply.Written (deed :: s.trace) -> Apply.Unnamed (deed :: s.trace) ->
          env.cleanup.gone = false))
    (hrecorded : forall e, e ∈ live -> e ∈ unrecorded (deed :: s.trace) ∨
      exists env, disk = some env ∧ nonempty env.endpoint = some e)
    (hlive : forall env e, HeldBy s.work s.begun env -> nonempty env.endpoint = some e ->
      forall e', e' ∈ live -> e' ∈ s.live) :
    Accounts (applied s p r deed disk live) := by
  rcases ordered_next hs hr hkind hdeed with ⟨hordered, hnext⟩
  have hbusy := only_apply hs hr hkind
  have hothers : forall env, HeldBy (applied s p r deed disk live).work
      (applied s p r deed disk live).begun env -> HeldBy s.work s.begun env :=
    fun _ hby =>
      heldBy_apply { r with work := { r.work with next := r.work.next + 1 } } hkind hby
  have hnamed : forall env e, HeldBy s.work s.begun env -> nonempty env.endpoint = some e ->
      exists w, .wrote w ∈ deed :: s.trace ∧ nonempty w.endpoint = some e := by
    intro env e hby hend
    rcases hs.named env e (Or.inr hby) hend with ⟨w, hwrote, hnames⟩
    exact ⟨w, List.mem_cons_of_mem _ hwrote, hnames⟩
  refine
    { kept := hs.kept
      ordered := hordered
      held := hheld
      gone := fun env henv => (hrecord env henv).1
      recorded := hrecorded
      settled := fun hidle => ?_
      named := fun env e hread hend => ?_
      goneRead := fun env e hread hend hgone => ?_
      released := fun q r' basis e hr' hin hbasis hend hmem hconfirms he => ?_
      pending := fun _ hwritten hunnamed env henv => (hrecord env henv).2.2 hwritten hunnamed
      looked := fun q look hlook hquiet hbegun => ?_
      past := fun q r' hr' => ?_
      pastLook := hs.pastLook
      applying := fun q => ?_
      only := hs.only
      running := fun q r' hr' hkind' => ?_ }
  · have hnil : s.applies = [] := hidle
    rw [hnil] at hbusy
    cases hbusy
  · rcases hread with hdisk | hby
    · exact (hrecord env hdisk).2.1 e hend
    · exact hnamed env e (hothers env hby) hend
  · rcases hread with hdisk | hby
    · exact (hrecord env hdisk).1 hgone
    · have hby' := hothers env hby
      exact nil_of_subset (hlive env e hby' hend) (hs.goneRead env e (Or.inr hby') hend hgone)
  · rcases update_cases hr' with ⟨_, heq⟩ | ⟨_, hr'⟩
    · subst heq
      rw [show confirms r.work.task e = false by
        cases htask : r.work.task <;> simp_all [confirms, isApply]] at hconfirms
      cases hconfirms
    · cases hcommand : isApply r'.work.task with
      | true =>
          rw [show confirms r'.work.task e = false by
            cases htask : r'.work.task <;> simp_all [confirms, isApply]] at hconfirms
          cases hconfirms
      | false =>
          have hby := basis_heldBy hr' hcommand hin hbasis
          exact hs.released q r' basis e hr' hin hbasis hend hmem hconfirms
            (hlive basis e hby hend e he)
  · have hidle := (hs.looked q look hlook hquiet hbegun).left
    rw [hidle] at hbusy
    cases hbusy
  · rcases update_cases hr' with ⟨_, heq⟩ | ⟨_, hr'⟩
    · rw [heq]
      exact hs.past p r hr
    · exact hs.past q r' hr'
  · by_cases hq : q = p
    · subst hq
      simp only [applied, Function.update_self]
      exact ⟨fun _ => ⟨_, rfl, hkind⟩, fun _ => hbusy⟩
    · simp only [applied, Function.update_of_ne hq]
      exact hs.applying q
  · rcases update_cases hr' with ⟨_, heq⟩ | ⟨hne, hr'⟩
    · rw [heq]
      exact ⟨(hs.running p r hr hkind).left, hnext⟩
    · exact absurd (hs.only q p (only_apply hs hr' hkind') hbusy) hne

theorem written_older {deed : Deed} {older : List Deed} (hdeed : forall env, deed ≠ .wrote env)
    (h : Apply.Written (deed :: older)) : Apply.Written older := by
  rcases h with ⟨env, henv⟩
  rcases List.mem_cons.mp henv with heq | henv
  · exact absurd heq.symm (hdeed env)
  · exact ⟨env, henv⟩

theorem unnamed_older {deed : Deed} {older : List Deed} (h : Apply.Unnamed (deed :: older)) :
    Apply.Unnamed older :=
  fun env henv => h env (List.mem_cons_of_mem _ henv)

theorem record_stays (hs : Accounts s) (hbusy : p ∈ s.applies) {deed : Deed}
    (hdeed : forall env, deed ≠ .wrote env) {live : List String}
    (hgone : forall env, s.disk = some env -> env.cleanup.gone = true -> live = []) :
    forall env, s.disk = some env ->
      (env.cleanup.gone = true -> live = []) ∧
        (forall e, nonempty env.endpoint = some e ->
          exists w, .wrote w ∈ deed :: s.trace ∧ nonempty w.endpoint = some e) ∧
        (Apply.Written (deed :: s.trace) -> Apply.Unnamed (deed :: s.trace) ->
          env.cleanup.gone = false) := by
  intro env henv
  refine ⟨hgone env henv, fun e hend => ?_, fun hwritten hunnamed => ?_⟩
  · rcases hs.named env e (Or.inl henv) hend with ⟨w, hwrote, hnames⟩
    exact ⟨w, List.mem_cons_of_mem _ hwrote, hnames⟩
  · exact hs.pending (List.ne_nil_of_mem hbusy) (written_older hdeed hwritten)
      (unnamed_older hunnamed) env henv

theorem accounts_assigned (hs : Accounts s) (hr : s.work p = some r)
    (hkind : isApply r.work.task = true) {e : String}
    (hdeed : r.work.deeds[r.work.next]? = some (.assigned e)) :
    Accounts (applied s p r (.assigned e) s.disk (e :: s.live)) := by
  have hbusy := only_apply hs hr hkind
  rcases (ordered_next hs hr hkind hdeed).left with ⟨⟨hwritten, hunnamed⟩, _⟩
  refine accounts_applied hs hr hkind hdeed ?_ ?_ ?_ ?_
  · intro e' he'
    rcases List.mem_cons.mp he' with heq | he'
    · exact List.mem_cons.mpr (Or.inl heq)
    · exact List.mem_cons_of_mem _ (hs.held e' he')
  · refine record_stays hs hbusy (by intro _ h; cases h) fun env henv hgone => ?_
    rw [hs.pending (List.ne_nil_of_mem hbusy) hwritten hunnamed env henv] at hgone
    cases hgone
  · intro e' he'
    rcases List.mem_cons.mp he' with heq | he'
    · exact Or.inl (List.mem_cons.mpr (Or.inl heq))
    · rcases hs.recorded e' he' with hunrecorded | hdisk
      · exact Or.inl (List.mem_cons_of_mem _ hunrecorded)
      · exact Or.inr hdisk
  · intro env e' hby hend
    -- no command can have read of a VM before the apply has named one
    rcases hs.named env e' (Or.inr hby) hend with ⟨w, hwrote, hnames⟩
    rw [(hunnamed w hwrote).right] at hnames
    cases hnames

theorem accounts_wrote (hs : Accounts s) (hr : s.work p = some r)
    (hkind : isApply r.work.task = true) {env : JobEnvelope}
    (hdeed : r.work.deeds[r.work.next]? = some (.wrote env)) :
    Accounts (applied s p r (.wrote env) (some env) s.live) := by
  have hsayable := (ordered_next hs hr hkind hdeed).left.left
  refine accounts_applied hs hr hkind hdeed (fun e he => hs.held e he) ?_ ?_ ?_
  · intro env' henv
    cases henv
    refine ⟨fun hgone => nil_of_subset (fun e he => hs.held e he) (hsayable.gone hgone),
      fun e hend => ⟨env, List.mem_cons_self, hend⟩, fun _ hunnamed => ?_⟩
    rw [(hunnamed env List.mem_cons_self).left]
    rfl
  · intro e he
    exact Or.inr ⟨env, rfl, hsayable.names e (hs.held e he)⟩
  · intro _ _ _ _ e' he'
    exact he'

theorem accounts_absent (hs : Accounts s) (hr : s.work p = some r)
    (hkind : isApply r.work.task = true) {e : String}
    (hdeed : r.work.deeds[r.work.next]? = some (.absent e)) :
    Accounts (applied s p r (.absent e) s.disk (without e s.live)) := by
  have hbusy := only_apply hs hr hkind
  have hfewer : forall e', e' ∈ without e s.live -> e' ∈ s.live :=
    fun _ he' => (mem_without he').left
  refine accounts_applied hs hr hkind hdeed ?_ ?_ (fun e' he' => hs.recorded e' (hfewer e' he'))
    (fun _ _ _ _ => hfewer)
  · intro e' he'
    rw [Apply.held, List.mem_filter]
    exact ⟨hs.held e' (hfewer e' he'), by simpa using (mem_without he').right⟩
  · exact record_stays hs hbusy (by intro _ h; cases h)
      fun env henv hgone => nil_of_subset hfewer (hs.gone env henv hgone)

theorem accounts_release (hs : Accounts s) (hr : s.work p = some r)
    (hkind : isApply r.work.task = true) {e : String}
    (hdeed : r.work.deeds[r.work.next]? = some (.release e)) :
    Accounts (applied s p r (.release e) s.disk s.live) :=
  accounts_applied hs hr hkind hdeed (fun e' he' => hs.held e' he')
    (record_stays hs (only_apply hs hr hkind) (by intro _ h; cases h) hs.gone)
    (fun e' he' => hs.recorded e' he') (fun _ _ _ _ _ he' => he')

theorem confirms_apply {task : Task} (hkind : isApply task = true) (e : String) :
    confirms task e = false := by
  cases task with
  | apply args a => rfl
  | status args a => cases hkind
  | destroy args a => cases hkind

theorem accounts_apply (hs : Accounts s) (hr : s.work p = some r)
    (hkind : isApply r.work.task = true) (hstep : step s (.act p) = some next) :
    Accounts next := by
  simp only [step, hr, hkind, if_true] at hstep
  split at hstep
  · cases hstep
  · next deed hdeed =>
      cases hstep
      cases deed with
      | assigned e =>
          simp only [afterDeed, hkind, if_true]
          exact accounts_assigned hs hr hkind hdeed
      | absent e =>
          simp only [afterDeed, hkind, if_true]
          exact accounts_absent hs hr hkind hdeed
      | release e =>
          simp only [afterDeed, confirms_apply hkind, Bool.false_eq_true, if_false]
          exact accounts_release hs hr hkind hdeed
      | wrote env => exact accounts_wrote hs hr hkind hdeed

/-!
## Begin and end
-/

theorem live_unnamed (hs : Accounts s) (hidle : s.applies = [])
    (hunnamed : (s.disk.bind fun env => nonempty env.endpoint) = none) : s.live = [] := by
  refine List.eq_nil_iff_forall_not_mem.mpr fun e he => ?_
  rcases hs.settled hidle e he with ⟨env, hdisk, hend⟩
  rw [hdisk, Option.bind_some, hend] at hunnamed
  cases hunnamed

theorem accounts_beginApply {args : Apply.Args} {a : Apply.Answers} (hs : Accounts s)
    (hidle : s.applies = [])
    (hseen : Apply.AllSeen (Apply.candidates args.plan.spec) a.body.provision.candidates)
    (hunnamed : (s.disk.bind fun env => nonempty env.endpoint) = none) :
    Accounts { s with
      work := Function.update s.work p
        (some ⟨{ task := .apply args a, copy := s.disk }, s.begun, s.begun⟩)
      applies := p :: s.applies
      begun := s.begun + 1
      trace := [] } := by
  have hnone := live_unnamed hs hidle hunnamed
  have hempty : forall {e : String}, e ∉ s.live := by
    intro e he
    rw [hnone] at he
    cases he
  have hnames : forall env e, Reads { s with
      work := Function.update s.work p
        (some ⟨{ task := .apply args a, copy := s.disk }, s.begun, s.begun⟩)
      applies := p :: s.applies
      begun := s.begun + 1
      trace := [] } env -> nonempty env.endpoint ≠ some e := by
    intro env e hread hend
    rcases hread with hdisk | ⟨q, r, hr, hcommand, hrecord⟩
    · have hdisk' : s.disk = some env := hdisk
      rw [hdisk', Option.bind_some, hend] at hunnamed
      cases hunnamed
    · rcases update_cases hr with ⟨_, heq⟩ | ⟨_, hr⟩
      · rw [heq] at hcommand
        cases hcommand
      · have hpast := hs.past q r hr
        rcases hrecord with ⟨_, hin⟩ | ⟨_, hin⟩ <;> simp only at hin <;> omega
  have hnotApplying : forall q r, s.work q = some r -> isApply r.work.task ≠ true := by
    intro q r hr hkind
    have hmem := (hs.applying q).mpr ⟨r, hr, hkind⟩
    rw [hidle] at hmem
    cases hmem
  exact
    { kept := hs.kept
      ordered := trivial
      held := fun e he => absurd he hempty
      gone := fun _ _ _ => hnone
      recorded := fun e he => absurd he hempty
      settled := fun _ e he => absurd he hempty
      named := fun env e hread hend => absurd hend (hnames env e hread)
      goneRead := fun _ _ _ _ _ => hnone
      released := fun _ _ _ _ _ _ _ _ _ _ => hempty
      pending := fun _ hwritten => by
        rcases hwritten with ⟨env, henv⟩
        cases henv
      looked := fun q look hlook _ hbegun => by
        have hpast := hs.pastLook q look hlook
        simp only at hbegun
        omega
      past := fun q r hr => by
        rcases update_cases hr with ⟨_, heq⟩ | ⟨_, hr⟩
        · rw [heq]
          exact ⟨Nat.le_succ _, Nat.le_succ _⟩
        · have hpast := hs.past q r hr
          simp only
          omega
      pastLook := fun q look hlook => Nat.le_succ_of_le (hs.pastLook q look hlook)
      applying := fun q => by
        simp only [hidle, List.mem_singleton]
        by_cases hq : q = p
        · subst hq
          simp [isApply]
        · simp only [Function.update_of_ne hq, hq, false_iff]
          rintro ⟨r, hr, hkind⟩
          exact hnotApplying q r hr hkind
      only := fun q q' hq hq' => by
        simp only [hidle, List.mem_singleton] at hq hq'
        rw [hq, hq']
      running := fun q r hr hkind => by
        rcases update_cases hr with ⟨_, heq⟩ | ⟨_, hr⟩
        · rw [heq]
          refine ⟨?_, rfl⟩
          simp only [Work.deeds, List.reverse_reverse]
          exact Apply.apply_ordered args a s.disk hseen
        · exact absurd hkind (hnotApplying q r hr) }

theorem accounts_finish (hs : Accounts s) (hcareful : Careful s (.finish p)) :
    Accounts { s with
      work := Function.update s.work p none
      applies := s.applies.filter (· ≠ p) } := by
  have hreads : forall env, Reads { s with
      work := Function.update s.work p none
      applies := s.applies.filter (· ≠ p) } env -> Reads s env := by
    intro env hread
    rcases hread with hdisk | ⟨q, r, hr, hrest⟩
    · exact Or.inl hdisk
    · exact Or.inr ⟨q, r, (update_none hr).right, hrest⟩
  exact
    { hs with
      settled := fun hidle e he => by
        by_cases hp : p ∈ s.applies
        · rcases hs.recorded e he with hunrecorded | hdisk
          · exact absurd he (hcareful hp e hunrecorded)
          · exact hdisk
        · have hsame : s.applies.filter (· ≠ p) = s.applies :=
            List.filter_eq_self.mpr fun q hq =>
              decide_eq_true fun heq => hp (heq ▸ hq)
          exact hs.settled (hsame.symm.trans hidle) e he
      named := fun env e hread => hs.named env e (hreads env hread)
      goneRead := fun env e hread => hs.goneRead env e (hreads env hread)
      released := fun q r basis e hr => hs.released q r basis e (update_none hr).right
      pending := fun hbusy => hs.pending fun hidle => hbusy (by simp [hidle])
      looked := fun q look hlook hquiet hbegun => by
        rcases hs.looked q look hlook hquiet hbegun with ⟨hidle, hnone⟩
        exact ⟨by simp [hidle], hnone⟩
      past := fun q r hr => hs.past q r (update_none hr).right
      applying := fun q => by
        simp only [List.mem_filter, decide_eq_true_eq]
        constructor
        · rintro ⟨hmem, hne⟩
          rw [Function.update_of_ne hne]
          exact (hs.applying q).mp hmem
        · rintro ⟨r, hr, hkind⟩
          exact ⟨(hs.applying q).mpr ⟨r, (update_none hr).right, hkind⟩, (update_none hr).left⟩
      only := fun q q' hq hq' =>
        hs.only q q' (List.mem_filter.mp hq).left (List.mem_filter.mp hq').left
      running := fun q r hr => hs.running q r (update_none hr).right }

/-!
## `prune`
-/

/-- A record that may be removed while no apply is in progress is that of a job without a
VM. -/
theorem removable_none {applyLog : Bool} (hs : Accounts s)
    (hremovable : removable s applyLog = true) (hidle : s.applies = []) : s.live = [] := by
  unfold removable at hremovable
  cases hdisk : s.disk with
  | none =>
      refine live_unnamed hs hidle ?_
      rw [hdisk, Option.bind_none]
  | some env =>
      rw [hdisk] at hremovable
      simp only [Bool.and_eq_true] at hremovable
      exact hs.gone env hdisk hremovable.right

theorem accounts_look {applyLog : Bool} (hs : Accounts s)
    (hremovable : removable s applyLog = true) :
    Accounts { s with
      looked := Function.update s.looked p (some ⟨s.begun, s.applies.isEmpty⟩) } :=
  { hs with
    looked := fun q look hlook hquiet hbegun => by
      rcases update_cases hlook with ⟨_, heq⟩ | ⟨_, hlook⟩
      · rw [heq] at hquiet
        have hidle : s.applies = [] := List.isEmpty_iff.mp hquiet
        have hnone : s.live = [] := removable_none hs hremovable hidle
        exact ⟨hidle, hnone⟩
      · exact hs.looked q look hlook hquiet hbegun
    pastLook := fun q look hlook => by
      rcases update_cases hlook with ⟨_, heq⟩ | ⟨_, hlook⟩
      · rw [heq]
      · exact hs.pastLook q look hlook }

theorem accounts_delete {look : Look} (hs : Accounts s) (hlook : s.looked p = some look)
    (hquiet : look.quiet = true) (hbegun : look.begun = s.begun) :
    Accounts { s with
      disk := none
      looked := Function.update s.looked p none
      forgotten := s.forgotten || !s.live.isEmpty } := by
  rcases hs.looked p look hlook hquiet hbegun with ⟨_, hnone⟩
  have hempty : forall {e : String}, e ∉ s.live := by
    intro e he
    rw [hnone] at he
    cases he
  have hreads : forall env, Reads { s with
      disk := none
      looked := Function.update s.looked p none
      forgotten := s.forgotten || !s.live.isEmpty } env -> Reads s env := by
    intro env hread
    rcases hread with hdisk | hby
    · cases hdisk
    · exact Or.inr hby
  exact
    { hs with
      kept := by simp [hs.kept, hnone]
      gone := fun _ _ _ => hnone
      recorded := fun e he => absurd he hempty
      settled := fun _ e he => absurd he hempty
      named := fun env e hread => hs.named env e (hreads env hread)
      goneRead := fun _ _ _ _ _ => hnone
      pending := fun _ _ _ env henv => by cases henv
      looked := fun q look h => hs.looked q look (update_none h).right
      pastLook := fun q look h => hs.pastLook q look (update_none h).right }

/-!
## Every run
-/

theorem accounts_preserved : machine.Preserved Careful Accounts := by
  intro s action next hs hcareful hstep
  have hstep' := hstep
  cases action with
  | begin p task =>
      simp only [machine, step] at hstep
      split at hstep
      · cases hstep
      · next hnone =>
          cases htask : isApply task with
          | false =>
              rw [htask, if_neg Bool.false_ne_true] at hstep
              cases hstep
              exact accounts_beginCommand hs hnone htask
          | true =>
              rw [htask, if_pos rfl] at hstep
              split at hstep
              · cases hstep
              · next hunnamed =>
                  cases hstep
                  cases task with
                  | status args a => cases htask
                  | destroy args a => cases htask
                  | apply args a =>
                      exact accounts_beginApply hs hcareful.left hcareful.right
                        (by simpa using hunnamed)
  | reread p => exact accounts_reread hs hstep
  | act p =>
      cases hr : s.work p with
      | none => simp [machine, step, hr] at hstep
      | some r =>
          cases hkind : isApply r.work.task with
          | true => exact accounts_apply hs hr hkind hstep
          | false => exact accounts_command hs hr hkind hcareful hstep
  | finish p =>
      simp only [machine, step] at hstep
      split at hstep
      · cases hstep
      · cases hstep
        exact accounts_finish hs hcareful
  | reclaim endpoint =>
      cases hstep
      exact accounts_fewer hs fun _ he => (mem_without he).left
  | look p applyLog =>
      simp only [machine, step] at hstep
      split at hstep
      · next hremovable =>
          cases hstep
          exact accounts_look hs hremovable
      · cases hstep
  | delete p =>
      simp only [machine, step] at hstep
      split at hstep
      · cases hstep
      · next look hlook =>
          cases hstep
          rcases hcareful look hlook with ⟨hquiet, hbegun⟩
          exact accounts_delete hs hlook hquiet hbegun

/-- In every run whose steps meet the condition no record is deleted while a VM that an
apply of the job was assigned exists, and no record that says that the VM is gone does so
while there is one. -/
theorem prune_remembers (h : machine.Reaches Careful s) : Remembers s := by
  have hs : Accounts s := by
    refine Machine.reaches_invariant (fun s0 hs0 => ?_) accounts_preserved h
    have hinit : s0 = init := hs0
    rw [hinit]
    exact accounts_init
  exact ⟨hs.kept, hs.gone⟩

/-!
## Two runs
-/

theorem act_work (hstep : machine.step s (.act p) = some next) (hr : s.work p = some r) :
    next.work p = some { r with work := { r.work with next := r.work.next + 1 } } := by
  simp only [machine, step, hr] at hstep
  split at hstep
  · cases hstep
  · cases hstep
    exact Function.update_self ..

theorem careful_apply (hr : s.work p = some r) (hkind : isApply r.work.task = true) :
    Careful s (.act p) := by
  intro r' env hr' hcommand _
  rw [hr] at hr'
  cases hr'
  rw [hkind] at hcommand
  cases hcommand

def applyTask : Task := .apply Apply.t4Job Apply.stoppedTwice

/-- A run that meets the condition: the plan is pruned before it is applied, and the apply
records its VM. -/
theorem prune_remembers_assigned :
    exists s, machine.Reaches Careful s ∧ s.live = ["e"] ∧ Remembers s := by
  let run : List Action :=
    [.look 1 false, .delete 1, .begin 0 applyTask, .act 0, .act 0, .act 0]
  have hruns : ((machine.exec init run).any fun s => decide (s.live = ["e"])) = true := by
    decide
  have hguard : machine.Guarded Careful init run := by
    refine ⟨trivial, fun s1 h1 => ⟨?_, fun s2 h2 => ⟨?_, fun s3 h3 => ?_⟩⟩⟩
    · cases h1
      intro look hlook
      cases hlook
      exact ⟨rfl, rfl⟩
    · cases h1
      cases h2
      exact ⟨rfl, ⟨rfl, rfl, rfl, rfl⟩, fun hmore => by cases hmore.left⟩
    · cases h1
      cases h2
      cases h3
      refine ⟨careful_apply rfl rfl, fun s4 h4 => ?_⟩
      have hr4 := act_work h4 rfl
      refine ⟨careful_apply hr4 rfl, fun s5 h5 => ?_⟩
      exact ⟨careful_apply (act_work h5 hr4) rfl, fun _ _ => trivial⟩
  rcases Option.any_eq_true_iff_get _ _ |>.mp hruns with ⟨hsome, hlive⟩
  have hreach : machine.Reaches Careful ((machine.exec init run).get hsome) :=
    ⟨init, run, rfl, hguard, (Option.some_get hsome).symm⟩
  exact ⟨_, hreach, of_decide_eq_true hlive, prune_remembers hreach⟩

/-- A `destroy` of a job that has not been assigned a VM. -/
def destroyTask : Task :=
  .destroy ⟨"j", false, 300⟩ (Destroy.allGuardedFail (.ok none))

/-- `destroy` reads the record that an apply has written before its first request, and
writes that no VM is left; the apply is assigned one, and `prune` deletes the record. -/
theorem prune_forgets : exists s, machine.Reaches Machine.Free s ∧ ¬Remembers s := by
  let run : List Action :=
    [.begin 0 applyTask, .act 0, .begin 1 destroyTask, .act 1, .act 0, .look 2 false,
      .delete 2]
  have hruns : ((machine.exec init run).any fun s => s.forgotten) = true := by
    decide
  rcases Option.any_eq_true_iff_get _ _ |>.mp hruns with ⟨hsome, hforgotten⟩
  refine ⟨(machine.exec init run).get hsome,
    ⟨init, run, rfl, Machine.guarded_free machine run _, (Option.some_get hsome).symm⟩, ?_⟩
  intro h
  rw [h.kept] at hforgotten
  cases hforgotten

end Prune
end Job
end MightyColab
