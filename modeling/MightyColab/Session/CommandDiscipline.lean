import MightyColab.Lib.Custody
import MightyColab.Session.Commands

/-!
# The discipline of the session commands

What each command has in mind of records and VMs as it goes, and that it saves only records that
it has read or made, and removes a name only when the VM that it knows under it is gone.
-/

namespace MightyColab
namespace Session
namespace Commands

open Lib Lib.Custody
open Pruning (Assignment)

abbrev Mind := Known String String

/-- The records that a process has read or made, by name and endpoint, and the VM that it got. -/
def learn (k : Mind) : (c : Call) -> c.Answer -> Mind
  | .get _, some s => { k with carried := (s.name, s.endpoint) :: k.carried }
  | .get name, none =>
      let mine := k.carried.filter fun b => b.1 = name ∧ k.hand ≠ some b.2
      { k with gone := mine.map Prod.snd ++ k.gone }
  | .list, items =>
      { k with carried := items.map (fun item => (item.2.name, item.2.endpoint)) ++ k.carried }
  | .add s, _ => { k with hand := k.hand.filter (· ≠ s.endpoint) }
  | .assign name, some res =>
      { k with carried := (name, res.endpoint) :: k.carried, hand := some res.endpoint }
  | .unassign endpoint, true =>
      { k with gone := endpoint :: k.gone, hand := k.hand.filter (· ≠ endpoint) }
  | .assignments, some found =>
      let absent := (k.carried.map Prod.snd).filter (· ∉ found.map Assignment.endpoint)
      { k with gone := absent ++ k.gone }
  | .remove _, _ | .assign _, none | .ping _, _ | .unassign _, false | .assignments, none
  | .kill _, _ => k

def Allowed (k : Mind) : Call -> Prop
  | .add s => (s.name, s.endpoint) ∈ k.carried
  | .remove name => exists endpoint, (name, endpoint) ∈ k.carried ∧ endpoint ∈ k.gone
  | .assign _ => k.hand = none
  | .unassign endpoint => exists name, (name, endpoint) ∈ k.carried
  | .get _ | .list | .ping _ | .assignments | .kill _ => True

/-- Records lie under their names; with a VM in hand, pings raise nothing but a
`ColabRequestError`, and `unassign` returns. -/
def Expected (k : Mind) : (c : Call) -> c.Answer -> Prop
  | .get name, some s => s.name = name
  | .list, items => forall item, item ∈ items -> item.2.name = item.1
  | .ping _, .raised => k.hand = none
  | .unassign endpoint, false => k.hand ≠ some endpoint
  | _, _ => True

def discipline : Discipline Call Call.Answer Mind where
  allowed := Allowed
  expected := Expected
  learn := learn

variable {k k' k'' : Mind} {name endpoint : String} {s : SessionState}

/-!
## What is kept in mind
-/

structure After (k k' : Mind) : Prop where
  idle : k'.hand = none
  carried : k.carried ⊆ k'.carried
  gone : k.gone ⊆ k'.gone

theorem After.refl (h : k.hand = none) : After k k := ⟨h, fun _ => id, fun _ => id⟩

theorem After.trans (h : After k k') (h' : After k' k'') : After k k'' :=
  ⟨h'.idle, fun _ hb => h'.carried (h.carried hb), fun _ he => h'.gone (h.gone he)⟩

def Copied (name : String) (copy : Option SessionState) (k : Mind) : Prop :=
  forall s, copy = some s -> s.name = name ∧ (name, s.endpoint) ∈ k.carried

theorem Copied.mono {copy : Option SessionState} (h : Copied name copy k) (hk : After k k') :
    Copied name copy k' :=
  fun s hs => ⟨(h s hs).left, hk.carried (h s hs).right⟩

theorem copied_none (name : String) (k : Mind) : Copied name none k := fun s hs => by cases hs

theorem learn_after (hidle : k.hand = none) (c : Call) (a : c.Answer)
    (hassign : forall name, c ≠ .assign name) : After k (learn k c a) := by
  have hfilter : forall endpoint, k.hand.filter (· ≠ endpoint) = none := by
    intro endpoint
    rw [hidle]
    rfl
  cases c with
  | get name =>
      cases a with
      | none => exact ⟨hidle, fun _ => id, fun _ he => List.mem_append_right _ he⟩
      | some s => exact ⟨hidle, fun _ hb => List.mem_cons_of_mem _ hb, fun _ => id⟩
  | list => exact ⟨hidle, fun _ hb => List.mem_append_right _ hb, fun _ => id⟩
  | add s => exact ⟨hfilter s.endpoint, fun _ => id, fun _ => id⟩
  | remove name => exact After.refl hidle
  | assign name => exact absurd rfl (hassign name)
  | ping endpoint => exact After.refl hidle
  | unassign endpoint =>
      cases a with
      | true => exact ⟨hfilter endpoint, fun _ => id, fun _ he => List.mem_cons_of_mem _ he⟩
      | false => exact After.refl hidle
  | assignments =>
      cases a with
      | none => exact After.refl hidle
      | some found => exact ⟨hidle, fun _ => id, fun _ he => List.mem_append_right _ he⟩
  | kill pid => exact After.refl hidle

theorem gone_of_absent (hidle : k.hand = none) (hmem : (name, endpoint) ∈ k.carried) :
    endpoint ∈ (learn k (.get name) none).gone := by
  refine List.mem_append_left _ (List.mem_map.mpr ⟨(name, endpoint), ?_, rfl⟩)
  refine List.mem_filter.mpr ⟨hmem, decide_eq_true ⟨rfl, ?_⟩⟩
  rw [hidle]
  exact fun h => by cases h

theorem gone_of_unlisted {found : List Assignment} (hmem : (name, endpoint) ∈ k.carried)
    (hnot : endpoint ∉ found.map Assignment.endpoint) :
    endpoint ∈ (learn k .assignments (some found)).gone := by
  refine List.mem_append_left _ (List.mem_filter.mpr ⟨?_, decide_eq_true hnot⟩)
  exact List.mem_map.mpr ⟨(name, endpoint), hmem, rfl⟩

/-!
## Calls
-/

section
variable {alpha : Type} {post : alpha -> Mind -> Prop}

theorem obeys_get {f : Option SessionState -> Program alpha} (hidle : k.hand = none)
    (hnone : forall k', After k k' ->
      (forall endpoint, (name, endpoint) ∈ k.carried -> endpoint ∈ k'.gone) ->
      discipline.Obeys (f none) k' post)
    (hsome : forall s k', After k k' -> s.name = name -> (name, s.endpoint) ∈ k'.carried ->
      discipline.Obeys (f (some s)) k' post) :
    discipline.Obeys (get name >>= f) k post := by
  refine Discipline.obeys_call trivial fun a ha => ?_
  have hafter := learn_after hidle (.get name) a fun name h => by cases h
  cases a with
  | none => exact hnone _ hafter fun endpoint hmem => gone_of_absent hidle hmem
  | some s =>
      refine hsome s _ hafter ha ?_
      have hname : s.name = name := ha
      rw [← hname]
      exact List.mem_cons_self

theorem obeys_add {f : Unit -> Program alpha} (hidle : k.hand = none)
    (hmem : (s.name, s.endpoint) ∈ k.carried)
    (hf : forall k', After k k' -> discipline.Obeys (f ()) k' post) :
    discipline.Obeys (add s >>= f) k post :=
  Discipline.obeys_call hmem fun a _ =>
    hf _ (learn_after hidle (.add s) a fun name h => by cases h)

theorem obeys_remove {f : Unit -> Program alpha}
    (hgone : exists endpoint, (name, endpoint) ∈ k.carried ∧ endpoint ∈ k.gone)
    (hf : discipline.Obeys (f ()) k post) : discipline.Obeys (remove name >>= f) k post :=
  Discipline.obeys_call hgone fun _ _ => hf

theorem obeys_kill {f : Bool -> Program alpha} {pid : Nat}
    (hf : forall gone, discipline.Obeys (f gone) k post) :
    discipline.Obeys (kill pid >>= f) k post :=
  Discipline.obeys_call trivial fun gone _ => hf gone

theorem obeys_assignments {f : Option (List Assignment) -> Program alpha} (hidle : k.hand = none)
    (hnone : discipline.Obeys (f none) k post)
    (hsome : forall found k', After k k' ->
      (forall name endpoint, (name, endpoint) ∈ k.carried ->
        endpoint ∉ found.map Assignment.endpoint -> endpoint ∈ k'.gone) ->
      discipline.Obeys (f (some found)) k' post) :
    discipline.Obeys (assignments >>= f) k post := by
  refine Discipline.obeys_call trivial fun a _ => ?_
  cases a with
  | none => exact hnone
  | some found =>
      refine hsome found _ (learn_after hidle .assignments (some found) fun name h => by cases h) ?_
      exact fun name endpoint hmem hnot => gone_of_unlisted hmem hnot

theorem obeys_killRecorded {f : Unit -> Program alpha} {pid : Option Nat}
    (hf : discipline.Obeys (f ()) k post) :
    discipline.Obeys (killRecorded pid >>= f) k post := by
  unfold killRecorded
  cases pid.filter (· ≠ 0) with
  | none => exact hf
  | some pid => exact obeys_kill fun _ => hf

end

/-!
## Scripts
-/

def KeepsRecord : Script -> Prop
  | .done => True
  | .get next => forall s, KeepsRecord (next s)
  | .assign _ _ next | .add next | .kill _ _ next => KeepsRecord next
  | .remove _ => False

theorem set_name (f : Field) (value : f.Value) : (s.set f value).name = s.name := by
  cases f <;> rfl

theorem set_endpoint (f : Field) (value : f.Value) : (s.set f value).endpoint = s.endpoint := by
  cases f <;> rfl

theorem Copied.set {copy : Option SessionState} (h : Copied name copy k) (f : Field)
    (value : f.Value) : Copied name (copy.map (·.set f value)) k := by
  intro s hs
  rcases Option.map_eq_some_iff.mp hs with ⟨s0, hs0, heq⟩
  rw [← heq, set_name, set_endpoint]
  exact h s0 hs0

theorem obeys_script {script : Script} (hkeeps : KeepsRecord script) {copy : Option SessionState}
    (hidle : k.hand = none) (hcopied : Copied name copy k) :
    discipline.Obeys (ofScript name script copy) k
      fun copy' k' => After k k' ∧ Copied name copy' k' := by
  induction script generalizing copy k with
  | done => exact ⟨After.refl hidle, hcopied⟩
  | get next ih =>
      refine obeys_get hidle (fun k' hafter _ => ?_) fun s k' hafter hname hmem => ?_
      · exact (ih none (hkeeps none) hafter.idle (copied_none name k')).weaken
          fun _ _ h => ⟨hafter.trans h.left, h.right⟩
      · refine (ih (some s) (hkeeps (some s)) hafter.idle ?_).weaken
          fun _ _ h => ⟨hafter.trans h.left, h.right⟩
        intro s' hs'
        cases hs'
        exact ⟨hname, hmem⟩
  | assign f value next ih => exact ih hkeeps hidle (hcopied.set f value)
  | add next ih =>
      cases copy with
      | none => exact ih hkeeps hidle hcopied
      | some s =>
          rcases hcopied s rfl with ⟨hname, hmem⟩
          rw [← hname] at hmem
          refine obeys_add hidle hmem fun k' hafter => ?_
          exact (ih hkeeps hafter.idle (hcopied.mono hafter)).weaken
            fun _ _ h => ⟨hafter.trans h.left, h.right⟩
  | remove next ih => exact False.elim hkeeps
  | kill pid gone next ih => exact obeys_kill fun _ => ih hkeeps hidle hcopied

theorem keepAlive_keeps (endpoint : String) (ticks : List Tick) (consecutive4xx : Nat) :
    KeepsRecord (Session.keepAlive endpoint ticks consecutive4xx) := by
  induction ticks generalizing consecutive4xx with
  | nil => trivial
  | cons tick rest ih =>
      intro s
      cases s with
      | none => trivial
      | some s =>
          simp only
          split
          · trivial
          · cases tick with
            | answered time => exact ih 0
            | failed code =>
                simp only [KeepsRecord]
                split
                · split
                  · trivial
                  · exact ih _
                · exact ih _

theorem ensureKeepAlive_keeps (alive : Bool) (pid : Option Nat) :
    KeepsRecord (Session.ensureKeepAlive alive pid) := by
  intro s
  cases s with
  | none => trivial
  | some s =>
      cases alive <;> cases pid <;> trivial

theorem recordId_keeps {f : Field} {value : String -> f.Value} {before found : Option String}
    {next : Script} (h : KeepsRecord next) : KeepsRecord (recordId f value before found next) := by
  unfold recordId
  split
  · exact h
  · exact h

theorem execBlocks_keeps (source : String) (blocks : List Block) :
    KeepsRecord (execBlocks source blocks) := by
  induction blocks with
  | nil => trivial
  | cons block rest ih =>
      simp only [execBlocks, KeepsRecord]
      split
      · trivial
      · exact ih

theorem execCommand_keeps {a : ExecAnswers} (h : a.fault ≠ some true) :
    KeepsRecord (execCommand a) := by
  intro s
  cases s with
  | none => trivial
  | some s =>
      have hlost : KeepsRecord (if a.fault.getD false then Session.pruneSession a.listed a.gone
          else .done) := by
        rcases hfault : a.fault with _ | _ | _
        · trivial
        · trivial
        · exact absurd hfault h
      simp only
      split
      · exact hlost
      · refine recordId_keeps (recordId_keeps ?_)
        split
        · exact hlost
        · exact execBlocks_keeps a.source a.blocks

theorem execAsync_keeps (accepted : Bool) (logPath : String) (pid : Option Nat) :
    KeepsRecord (Session.execAsync accepted logPath pid) := by
  intro s
  cases s with
  | none => trivial
  | some s => cases accepted <;> cases pid <;> trivial

theorem refreshTokens_keeps (refreshes : List (Option (String × Option String))) :
    KeepsRecord (refreshTokens refreshes) := by
  induction refreshes with
  | nil => trivial
  | cons refresh rest ih => rcases refresh with _ | ⟨token, _ | url⟩ <;> exact ih

theorem jobTransport_keeps (refreshes : List (Option (String × Option String))) :
    KeepsRecord (Session.jobTransport refreshes) := by
  intro s
  cases s with
  | none => trivial
  | some s => exact refreshTokens_keeps refreshes

theorem restartKernel_keeps (kernel session : Option String) :
    KeepsRecord (restartKernel kernel session) := by
  intro s
  cases s with
  | none => trivial
  | some s => exact recordId_keeps (recordId_keeps trivial)

theorem runScript_keeps (a : RunAnswers) (s : SessionState) : KeepsRecord (runScript a s) := by
  unfold runScript
  split
  · trivial
  · refine recordId_keeps (recordId_keeps ?_)
    split <;> trivial

/-!
## Lost sessions
-/

theorem obeys_forget (hidle : k.hand = none) (hname : (name, s.endpoint) ∈ k.carried)
    (hgone : s.endpoint ∈ k.gone) :
    discipline.Obeys (forget name s) k fun _ k' => After k k' :=
  obeys_killRecorded (obeys_remove ⟨s.endpoint, hname, hgone⟩ (After.refl hidle))

/-- A session that has been in mind is pruned, on confirmation if that was in mind too. -/
theorem obeys_pruneSession {confirmedAbsent : Bool} (hidle : k.hand = none)
    (hmem : (name, endpoint) ∈ k.carried)
    (hgone : confirmedAbsent = true -> endpoint ∈ k.gone) :
    discipline.Obeys (pruneSession name confirmedAbsent) k fun _ k' => After k k' := by
  refine obeys_get hidle (fun k' hafter hdead => ?_) fun s k' hafter hname hfound => ?_
  · exact obeys_remove ⟨endpoint, hafter.carried hmem, hdead endpoint hmem⟩ hafter
  · cases confirmedAbsent with
    | true =>
        refine obeys_killRecorded (obeys_remove ⟨endpoint, hafter.carried hmem, ?_⟩ hafter)
        exact hafter.gone (hgone rfl)
    | false =>
        refine obeys_assignments hafter.idle hafter fun found k'' hafter' hunlisted => ?_
        have hboth := hafter.trans hafter'
        cases hfind : found.find? fun a => a.endpoint = s.endpoint with
        | none =>
            simp only [hfind]
            refine (obeys_forget hboth.idle (hafter'.carried hfound) ?_).weaken
              fun _ _ => hboth.trans
            refine hunlisted name s.endpoint hfound fun hlisted => ?_
            rcases List.mem_map.mp hlisted with ⟨a, ha, heq⟩
            exact List.find?_eq_none.mp hfind a ha (decide_eq_true heq)
        | some a =>
            simp only [hfind]
            split
            · refine obeys_add hboth.idle ?_ fun _ hlast => hboth.trans hlast
              rw [hname]
              exact hafter'.carried hfound
            · exact hboth

theorem obeys_pruneAll {names : List String} (hidle : k.hand = none)
    (hgone : forall name, name ∈ names ->
      exists endpoint, (name, endpoint) ∈ k.carried ∧ endpoint ∈ k.gone) :
    discipline.Obeys (pruneAll names) k fun _ k' => After k k' := by
  induction names generalizing k with
  | nil => exact After.refl hidle
  | cons name rest ih =>
      rcases hgone name List.mem_cons_self with ⟨endpoint, hmem, hdead⟩
      refine (obeys_pruneSession hidle hmem fun _ => hdead).bind fun _ k' hafter => ?_
      refine (ih hafter.idle fun name hname => ?_).weaken fun _ _ => hafter.trans
      rcases hgone name (List.mem_cons_of_mem _ hname) with ⟨endpoint, hmem, hdead⟩
      exact ⟨endpoint, hafter.carried hmem, hafter.gone hdead⟩

theorem obeys_syncSessions (hidle : k.hand = none) :
    discipline.Obeys syncSessions k fun _ k' => After k k' := by
  refine Discipline.obeys_call trivial fun items hitems => ?_
  have hafter := learn_after hidle .list items fun name h => by cases h
  cases items with
  | nil =>
      exact obeys_assignments hafter.idle hafter fun _ _ hafter' _ => hafter.trans hafter'
  | cons first rest =>
      refine obeys_assignments hafter.idle hafter fun found k' hafter' hunlisted => ?_
      have hboth := hafter.trans hafter'
      refine (obeys_pruneAll hboth.idle fun name hname => ?_).bind fun _ k'' hlast =>
        hboth.trans hlast
      rcases List.mem_map.mp hname with ⟨item, hitem, heq⟩
      rcases List.mem_filter.mp hitem with ⟨hitem, hstale⟩
      have hcarried : (item.2.name, item.2.endpoint) ∈
          (learn k .list (first :: rest)).carried :=
        List.mem_append_left _ (List.mem_map.mpr ⟨item, hitem, rfl⟩)
      rw [hitems item hitem, heq] at hcarried
      refine ⟨item.2.endpoint, hafter'.carried hcarried, ?_⟩
      exact hunlisted name _ hcarried (of_decide_eq_true hstale)

theorem obeys_resolveSession {session : Option String} (hidle : k.hand = none) :
    discipline.Obeys (resolveSession session) k fun _ k' => After k k' := by
  unfold resolveSession
  split
  · exact After.refl hidle
  · refine Discipline.obeys_call trivial fun items _ => ?_
    have hafter := learn_after hidle .list items fun name h => by cases h
    cases items with
    | nil => exact hafter
    | cons first rest =>
        refine (obeys_syncSessions hafter.idle).bind fun left k' hafter' => ?_
        split <;> exact hafter.trans hafter'

theorem obeys_onSession {session : Option String} {script : Script} (hkeeps : KeepsRecord script)
    (hidle : k.hand = none) :
    discipline.Obeys (onSession session script) k fun _ k' => After k k' := by
  refine (obeys_resolveSession hidle).bind fun resolved k' hafter => ?_
  cases resolved with
  | none => exact hafter
  | some name =>
      refine (obeys_script hkeeps hafter.idle (copied_none name k')).bind fun _ k'' h => ?_
      exact hafter.trans h.left

/-!
## VMs
-/

theorem obeys_release (hidle : k.hand = none) (hmem : (name, endpoint) ∈ k.carried) :
    discipline.Obeys (release name endpoint) k fun _ k' => After k k' := by
  refine Discipline.obeys_call ⟨name, hmem⟩ fun returned _ => ?_
  cases returned with
  | false => exact After.refl hidle
  | true =>
      have hafter := learn_after hidle (.unassign endpoint) true fun name h => by cases h
      exact obeys_remove ⟨endpoint, hafter.carried hmem, List.mem_cons_self⟩ hafter

def Ready (o : Options) (k : Mind) (r : Option SessionState) (k' : Mind) : Prop :=
  After k k' ∧ Copied o.name r k'

structure InHand (k k' : Mind) (name endpoint : String) : Prop where
  hand : k'.hand = some endpoint
  carried : k.carried ⊆ k'.carried
  gone : k.gone ⊆ k'.gone
  mem : (name, endpoint) ∈ k'.carried

theorem InHand.let_go (h : InHand k k' name endpoint) :
    k'.hand.filter (· ≠ endpoint) = none := by
  rw [h.hand]
  exact Option.filter_eq_none_iff.mpr fun e he => by cases he; simp

theorem obeys_addFirst {alpha : Type} {post : alpha -> Mind -> Prop} {f : Unit -> Program alpha}
    (h : InHand k k' s.name s.endpoint)
    (hf : forall k'', After k k'' -> (s.name, s.endpoint) ∈ k''.carried ->
      discipline.Obeys (f ()) k'' post) :
    discipline.Obeys (add s >>= f) k' post :=
  Discipline.obeys_call h.mem fun _ _ => hf _ ⟨h.let_go, h.carried, h.gone⟩ h.mem

theorem obeys_withKeepAlive {o : Options} {daemonPid : Option Nat} (hname : s.name = o.name)
    (h : InHand k k' o.name s.endpoint) :
    discipline.Obeys (withKeepAlive daemonPid s) k' (Ready o k) := by
  rw [← hname] at h
  refine obeys_addFirst h fun k'' hafter hmem => ?_
  cases daemonPid with
  | none => exact ⟨hafter, copied_none o.name k''⟩
  | some pid =>
      refine obeys_add hafter.idle hmem fun _ hlast => ⟨hafter.trans hlast, ?_⟩
      intro s' hs'
      cases hs'
      rw [hname] at hmem
      exact ⟨hname, hlast.carried hmem⟩

theorem obeys_provision {o : Options} (hidle : k.hand = none) :
    discipline.Obeys (provision o) k (Ready o k) := by
  refine Discipline.obeys_call hidle fun a _ => ?_
  cases a with
  | none => exact ⟨After.refl hidle, copied_none o.name _⟩
  | some res =>
      have hhand : InHand k (learn k (.assign o.name) (some res)) o.name res.endpoint :=
        ⟨rfl, fun _ hb => List.mem_cons_of_mem _ hb, fun _ => id, List.mem_cons_self⟩
      simp only
      split
      · refine obeys_addFirst hhand fun k' hafter hmem => ⟨hafter, ?_⟩
        intro s' hs'
        cases hs'
        exact ⟨rfl, hmem⟩
      · refine Discipline.obeys_call trivial fun answer hexpected => ?_
        cases answer with
        | answered => exact obeys_withKeepAlive rfl hhand
        | refused code scopeError =>
            simp only
            split
            · refine Discipline.obeys_call ⟨o.name, hhand.mem⟩ fun returned hreturned => ?_
              refine ⟨?_, copied_none o.name _⟩
              cases returned with
              | false => exact absurd rfl hreturned
              | true =>
                  exact ⟨hhand.let_go, hhand.carried,
                    fun _ he => List.mem_cons_of_mem _ (hhand.gone he)⟩
            · exact obeys_withKeepAlive rfl hhand
        | raised => cases hexpected

theorem obeys_clearRunningState {terminalPruned : Option Bool} (hidle : k.hand = none)
    (hname : s.name = name) (hmem : (name, s.endpoint) ∈ k.carried) :
    discipline.Obeys (clearRunningState name s terminalPruned) k
      fun current k' => After k k' ∧ Copied name current k' := by
  rcases terminalPruned with _ | _ | _
  · have hown := hmem
    rw [← hname] at hown
    refine obeys_add hidle hown fun k' hafter => ⟨hafter, ?_⟩
    intro s' hs'
    cases hs'
    exact ⟨hname, hafter.carried hmem⟩
  · refine obeys_get hidle (fun k' hafter _ => ⟨hafter, copied_none name k'⟩)
      fun s' k' hafter hname' hmem' => ?_
    have hown := hmem'
    rw [← hname'] at hown
    refine obeys_add hafter.idle hown fun k'' hlast => ⟨hafter.trans hlast, ?_⟩
    intro s'' hs''
    cases hs''
    exact ⟨hname', hlast.carried hmem'⟩
  · exact ⟨After.refl hidle, copied_none name k⟩

theorem obeys_runEnd {terminalPruned : Option Bool} {keep : Bool} (hidle : k.hand = none)
    (hname : s.name = name) (hmem : (name, s.endpoint) ∈ k.carried) :
    discipline.Obeys (runEnd name s terminalPruned keep) k fun _ k' => After k k' := by
  refine (obeys_clearRunningState hidle hname hmem).bind fun current k' h => ?_
  rcases h with ⟨hafter, hcopied⟩
  split
  · exact hafter
  · refine obeys_killRecorded ((obeys_release hafter.idle ?_).weaken fun _ _ => hafter.trans)
    cases current with
    | none => exact hafter.carried hmem
    | some s' => exact (hcopied s' rfl).right

/-!
## The commands
-/

theorem obeys_run {o : Options} {a : RunAnswers} {keep : Bool} (hidle : k.hand = none) :
    discipline.Obeys (run o a keep) k fun _ k' => After k k' := by
  refine (obeys_provision hidle).bind fun ready k' h => ?_
  rcases h with ⟨hafter, hcopied⟩
  cases ready with
  | none => exact hafter
  | some s =>
      refine (obeys_script (runScript_keeps a s) hafter.idle hcopied).bind fun copy k'' h => ?_
      rcases h with ⟨hafter', hcopied'⟩
      have hboth := hafter.trans hafter'
      cases copy with
      | none => exact hboth
      | some s' =>
          rcases hcopied' s' rfl with ⟨hname, hmem⟩
          simp only
          split
          · refine (obeys_pruneSession hboth.idle hmem fun h => by cases h).bind
              fun pruned _ hlast => ?_
            exact (obeys_runEnd hlast.idle hname (hlast.carried hmem)).weaken
              fun _ _ h => hboth.trans (hlast.trans h)
          · exact (obeys_runEnd hboth.idle hname hmem).weaken fun _ _ => hboth.trans

theorem obeys_exec {session : Option String} {a : ExecAnswers} (hidle : k.hand = none) :
    discipline.Obeys (exec session a) k fun _ k' => After k k' := by
  refine (obeys_resolveSession hidle).bind fun resolved k' hafter => ?_
  cases resolved with
  | none => exact hafter
  | some name =>
      have hscript : forall {a}, a.fault ≠ some true -> discipline.Obeys
          (ofScript name (execCommand a) none) k'
          fun copy k'' => After k' k'' ∧ Copied name copy k'' :=
        fun ha => obeys_script (execCommand_keeps ha) hafter.idle (copied_none name k')
      simp only
      split
      · refine (hscript fun h => by cases h).bind fun copy k'' h => ?_
        rcases h with ⟨hafter', hcopied⟩
        have hboth := hafter.trans hafter'
        cases copy with
        | none => exact hboth
        | some s =>
            exact (obeys_pruneSession hboth.idle (hcopied s rfl).right fun h => by cases h).bind
              fun _ _ hlast => hboth.trans hlast
      · next hfault => exact (hscript hfault).bind fun _ _ h => hafter.trans h.left

theorem obeys_stop {session : Option String} (hidle : k.hand = none) :
    discipline.Obeys (stop session) k fun _ k' => After k k' := by
  refine (obeys_resolveSession hidle).bind fun resolved k' hafter => ?_
  cases resolved with
  | none => exact hafter
  | some name =>
      refine obeys_get hafter.idle (fun k'' hafter' _ => hafter.trans hafter')
        fun s k'' hafter' _ hmem => ?_
      have hboth := hafter.trans hafter'
      refine obeys_killRecorded (obeys_killRecorded ?_)
      exact (obeys_release hboth.idle hmem).weaken fun _ _ => hboth.trans

/-- A command that begins with nothing in hand ends so, and keeps to the discipline. -/
theorem obeys_program (c : Command) (hidle : k.hand = none) :
    discipline.Obeys c.program k fun _ k' => After k k' := by
  have hscript : forall {name script}, KeepsRecord script -> discipline.Obeys
      (do let _ <- ofScript name script none; pure () : Program Unit) k fun _ k' => After k k' :=
    fun hkeeps => (obeys_script hkeeps hidle (copied_none _ k)).bind fun _ _ h => h.left
  cases c with
  | new o => exact (obeys_provision hidle).bind fun _ _ h => h.left
  | run o a keep => exact obeys_run hidle
  | exec session a => exact obeys_exec hidle
  | execAsync session accepted logPath pid =>
      exact obeys_onSession (execAsync_keeps accepted logPath pid) hidle
  | restartKernel session kernelId sessionId =>
      exact obeys_onSession (restartKernel_keeps kernelId sessionId) hidle
  | stop session => exact obeys_stop hidle
  | sync => exact (obeys_syncSessions hidle).bind fun _ _ h => h
  | keepAlive endpoint name ticks => exact hscript (keepAlive_keeps endpoint ticks 0)
  | ensureKeepAlive name alive pid => exact hscript (ensureKeepAlive_keeps alive pid)
  | jobTransport name refreshes => exact hscript (jobTransport_keeps refreshes)

end Commands
end Session
end MightyColab
