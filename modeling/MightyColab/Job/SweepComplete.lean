import MightyColab.Job.IdentSweeps

/-!
# Whom a sweep reaches

A process that is there whenever a sweep looks, with the job's tag in its environment, has got the
signal when the sweep has come to its end. What other sweeps do, and what becomes of other
processes, does not matter.
-/

namespace MightyColab
namespace Job
namespace Ident

open Lib

structure Target where
  pid : Nat
  positive : pid ≠ 0
  serial : Nat
  start : Word

/-- It is there, runs, and is tagged. -/
def Target.There (t : Target) (jobId : String) (w : World) : Prop :=
  exists e, w.table t.pid = some e ∧ e.serial = t.serial ∧ e.stat.start.text = t.start.text ∧
    e.Tagged jobId ∧ isGone e.stat.state.text = false

/-- What is asked of it is answered, and the VM stays the same. -/
def Target.Answers (t : Target) (boot : String) : (c : Call) -> c.Answer -> Prop
  | .listdir, pids => t.pid ∈ pids
  | .environ pid, a => pid = t.pid -> a ≠ none
  | .stat pid, a => pid = t.pid -> a ≠ none
  | .bootId, b => b = boot
  | .kill pid _, a => pid = t.pid -> a = true

/-- The sweep of process `q` goes on, and the target is there whenever it looks. -/
def Target.Attended (t : Target) (jobId boot : String) (q : Nat) (s : State) :
    Site.Action Command Event Call Call.Answer -> Prop
  | .act q' reply => q' = q -> t.There jobId s.world ∧
      forall c next k, s.procs q = some ⟨.call c next, k⟩ -> t.Answers boot c (reply c)
  | .leave q' | .start q' _ => q' ≠ q
  | .event _ => True

def Command.skip : Command -> List Nat
  | .signalTagged _ skip | .lastSweep skip => skip

def Command.signals : Command -> List Nat
  | .signalTagged sig _ => [sig]
  | .lastSweep _ => [sigterm, sigkill]

/-!
## What a sweep does about its target
-/

section Watching

variable {t : Target} {jobId boot : String} {sig : Nat} {k : Bool}

def Target.watching (t : Target) (jobId boot : String) (sig : Nat) :
    Discipline Call Call.Answer Bool where
  allowed _ _ := True
  expected
    | _, .listdir, pids => t.pid ∈ pids ∧ 0 ∉ pids
    | _, .environ pid, a => pid = t.pid -> Option.any (carries jobId) a = true
    | _, .stat pid, a => pid = t.pid -> liveStart a = t.start.text
    | _, .bootId, b => b = boot
    | _, .kill pid _, a => pid = t.pid -> a = true
  learn
    | k, .kill pid sent, a => k || (pid = t.pid && sent = sig && a)
    | k, .listdir, _ | k, .environ _, _ | k, .stat _, _ | k, .bootId, _ => k

def Target.identity (t : Target) (boot : String) : Identity := ⟨t.pid, t.start.text, boot⟩

theorem watching_taggedAmong {skip pids : List Nat} (hskip : t.pid ∉ skip) (hzero : 0 ∉ pids) :
    (t.watching jobId boot sig).Obeys (taggedAmong jobId skip pids) k fun found k' =>
      0 ∉ found ∧ (t.pid ∈ pids -> t.pid ∈ found) ∧ k' = k := by
  induction pids with
  | nil => exact ⟨List.not_mem_nil, fun h => h, rfl⟩
  | cons pid rest ih =>
      have hrest := ih (List.not_mem_of_not_mem_cons hzero)
      unfold taggedAmong
      split
      · next hin =>
          refine hrest.weaken fun found k' h =>
            ⟨h.left, fun hmem => h.right.left ?_, h.right.right⟩
          rcases List.mem_cons.mp hmem with heq | hmem
          · exact absurd (heq ▸ hin) hskip
          · exact hmem
      · refine Discipline.obeys_call trivial fun a ha => ?_
        refine Discipline.Obeys.bind hrest fun others k' h => ?_
        have hne : 0 ∉ pid :: others :=
          List.not_mem_cons_of_ne_of_not_mem (List.ne_of_not_mem_cons hzero) h.left
        split
        · refine Discipline.obeys_pure ⟨hne, fun hmem => ?_, h.right.right⟩
          rcases List.mem_cons.mp hmem with heq | hmem
          · rw [heq]
            exact List.mem_cons_self
          · exact List.mem_cons_of_mem _ (h.right.left hmem)
        · next hcarries =>
            refine Discipline.obeys_pure ⟨h.left, fun hmem => h.right.left ?_, h.right.right⟩
            rcases List.mem_cons.mp hmem with heq | hmem
            · exact absurd (ha heq.symm) hcarries
            · exact hmem

theorem watching_identitiesOf {pids : List Nat} (hzero : 0 ∉ pids) :
    (t.watching jobId boot sig).Obeys (identitiesOf boot pids) k fun ids k' =>
      (t.pid ∈ pids -> t.identity boot ∈ ids) ∧ k' = k := by
  induction pids with
  | nil => exact ⟨fun h => absurd h List.not_mem_nil, rfl⟩
  | cons pid rest ih =>
      unfold identitiesOf starttime
      rw [if_neg (Ne.symm (List.ne_of_not_mem_cons hzero))]
      refine Discipline.obeys_call trivial fun a ha => ?_
      refine Discipline.Obeys.bind (ih (List.not_mem_of_not_mem_cons hzero)) fun others k' h => ?_
      by_cases hstart : liveStart a = ""
      · rw [if_pos hstart]
        refine Discipline.obeys_pure ⟨fun hmem => h.left ?_, h.right⟩
        rcases List.mem_cons.mp hmem with heq | hmem
        · exact absurd ((ha heq.symm).symm.trans hstart) t.start.nonempty
        · exact hmem
      · rw [if_neg hstart]
        refine Discipline.obeys_pure ⟨fun hmem => ?_, h.right⟩
        rcases List.mem_cons.mp hmem with heq | hmem
        · rw [ha heq.symm, ← heq]
          exact List.mem_cons_self
        · exact List.mem_cons_of_mem _ (h.left hmem)

theorem watching_taggedProcesses {skip : List Nat} (hskip : t.pid ∉ skip) (hjob : jobId ≠ "") :
    (t.watching jobId boot sig).Obeys (taggedProcesses jobId skip) k fun found k' =>
      0 ∉ found ∧ t.pid ∈ found ∧ k' = k := by
  unfold taggedProcesses
  rw [if_neg hjob]
  refine Discipline.obeys_call trivial fun pids hpids => ?_
  refine (watching_taggedAmong hskip hpids.right).weaken fun found k' h => ?_
  exact ⟨h.left, h.right.left hpids.left, h.right.right⟩

theorem watching_taggedIdentities {skip : List Nat} (hskip : t.pid ∉ skip) (hjob : jobId ≠ "") :
    (t.watching jobId boot sig).Obeys (taggedIdentities jobId skip) k fun ids k' =>
      t.identity boot ∈ ids ∧ k' = k := by
  refine Discipline.obeys_call trivial fun b hb => ?_
  have hboot : b = boot := hb
  rw [hboot]
  refine Discipline.Obeys.bind (watching_taggedProcesses hskip hjob) fun found k' h => ?_
  refine (watching_identitiesOf h.left).weaken fun ids k'' h' => ?_
  exact ⟨h'.left h.right.left, h'.right.trans h.right.right⟩

theorem watching_alive {id : Identity} :
    (t.watching jobId boot sig).Obeys (alive id) k fun same k' =>
      (id = t.identity boot -> same = true) ∧ k' = k := by
  unfold alive
  split
  · next hzero =>
      refine Discipline.obeys_pure ⟨fun heq => ?_, rfl⟩
      rw [heq] at hzero
      exact absurd hzero t.positive
  · next hpid =>
      refine Discipline.obeys_call trivial fun b hb => ?_
      have hboot : b = boot := hb
      rw [hboot]
      split
      · next hne =>
          refine Discipline.obeys_pure ⟨fun heq => ?_, rfl⟩
          rw [heq] at hne
          exact absurd rfl hne
      · unfold starttime
        rw [if_neg hpid]
        refine Discipline.obeys_call trivial fun a ha => ?_
        refine And.intro (fun heq => ?_) rfl
        rw [heq] at ha ⊢
        have hstart : liveStart a = t.start.text := ha rfl
        simp [Target.identity, hstart, t.start.nonempty]

theorem watching_signalIdentities {sent : Nat} {ids : List Identity} :
    (t.watching jobId boot sig).Obeys (signalIdentities sent ids) k fun _ k' =>
      (k = true ∨ sent = sig ∧ t.identity boot ∈ ids) -> k' = true := by
  induction ids generalizing k with
  | nil =>
      refine Discipline.obeys_pure fun h => ?_
      rcases h with hk | hmem
      · exact hk
      · exact absurd hmem.right List.not_mem_nil
  | cons id rest ih =>
      unfold signalIdentities
      refine Discipline.Obeys.bind watching_alive fun same k' h => ?_
      rcases h with ⟨hsame, hk⟩
      rw [hk]
      split
      · refine Discipline.obeys_call trivial fun a ha => ?_
        refine Discipline.Obeys.bind ih fun others k'' h => ?_
        refine Discipline.obeys_pure fun hbefore => h ?_
        rcases hbefore with htrue | ⟨hsent, hmem⟩
        · exact Or.inl (by simp [Target.watching, htrue])
        · rcases List.mem_cons.mp hmem with heq | hmem
          · have hpid : id.pid = t.pid := by
              rw [← heq]
              rfl
            exact Or.inl (by simp [Target.watching, hpid, hsent, ha hpid])
          · exact Or.inr ⟨hsent, hmem⟩
      · next hfalse =>
          refine ih.weaken fun _ k'' h hbefore => h ?_
          rcases hbefore with htrue | ⟨hsent, hmem⟩
          · exact Or.inl htrue
          · rcases List.mem_cons.mp hmem with heq | hmem
            · exact absurd (hsame heq.symm) hfalse
            · exact Or.inr ⟨hsent, hmem⟩

theorem watching_program {c : Command} (hskip : t.pid ∉ c.skip) (hjob : jobId ≠ "")
    (hsig : sig ∈ c.signals) :
    (t.watching jobId boot sig).Obeys (c.program jobId) false fun _ k => k = true := by
  cases c with
  | signalTagged sent skip =>
      have hsweep : (t.watching jobId boot sig).Obeys (signalTagged jobId sent skip) false
          fun _ k => k = true := by
        refine Discipline.Obeys.bind (watching_taggedIdentities hskip hjob) fun ids k h => ?_
        refine watching_signalIdentities.weaken fun _ k' h' => h' (Or.inr ⟨?_, h.left⟩)
        exact (List.mem_singleton.mp hsig).symm
      exact hsweep.bind fun _ _ h => Discipline.obeys_pure h
  | lastSweep skip =>
      have hsweep : (t.watching jobId boot sig).Obeys (lastSweep jobId skip) false
          fun _ k => k = true := by
        refine Discipline.Obeys.bind (watching_taggedIdentities hskip hjob) fun ids k h => ?_
        rw [if_neg (List.ne_nil_of_mem h.left)]
        refine Discipline.Obeys.bind watching_signalIdentities fun _ k1 h1 => ?_
        refine Discipline.Obeys.bind watching_signalIdentities fun _ k2 h2 => ?_
        have htrue : k2 = true := by
          rcases List.mem_cons.mp hsig with hterm | hkill
          · exact h2 (Or.inl (h1 (Or.inr ⟨hterm.symm, h.left⟩)))
          · exact h2 (Or.inr ⟨(List.mem_singleton.mp hkill).symm, h.left⟩)
        exact (watching_taggedProcesses hskip hjob).weaken fun _ _ h => h.right.right.trans htrue
      exact hsweep.bind fun _ _ h => Discipline.obeys_pure h

end Watching

/-!
## In a run
-/

section Runs

variable {t : Target} {jobId boot : String} {sig q : Nat}

/-- What the sweep has sent to its target is in the world's list. -/
def Target.Sent (t : Target) (sig : Nat) (w : World) (k : Bool) : Prop :=
  k = true -> (t.serial, sig) ∈ w.struck

theorem happen_struck {w w' : World} {event : Event} (h : happen jobId w event = some w') :
    w'.struck = w.struck := by
  cases event with
  | spawn p e =>
      rcases Option.ite_none_right_eq_some.mp h with ⟨_, heq⟩
      cases heq
      rfl
  | become p e =>
      simp only [happen] at h
      split at h
      · rcases Option.ite_none_right_eq_some.mp h with ⟨_, heq⟩
        cases heq
        rfl
      · cases h
  | reap p =>
      cases h
      rfl

theorem perform_cases {w w' : World} {c : Call} {a : c.Answer}
    (h : perform w c a = some w') :
    w' = w ∨ exists strike, w' = { w with struck := strike :: w.struck } := by
  cases c with
  | listdir =>
      simp only [perform] at h
      split at h
      · cases h
      · exact Or.inl (Option.some.inj h).symm
  | environ pid | stat pid =>
      rcases Option.ite_none_right_eq_some.mp h with ⟨_, heq⟩
      exact Or.inl (Option.some.inj heq).symm
  | bootId => exact Or.inl (Option.some.inj h).symm
  | kill pid sent =>
      cases a with
      | false => exact Or.inl (Option.some.inj h).symm
      | true =>
          rcases Option.map_eq_some_iff.mp h with ⟨e, _, heq⟩
          exact Or.inr ⟨_, heq.symm⟩

theorem perform_struck {w w' : World} {c : Call} {a : c.Answer}
    (h : perform w c a = some w') : w.struck ⊆ w'.struck := by
  rcases perform_cases h with hsame | ⟨strike, hstrike⟩
  · rw [hsame]
    exact List.Subset.refl _
  · rw [hstrike]
    exact List.subset_cons_self _ _

theorem calls_expected (hjob : Char.ofNat 0 ∉ jobId.toList) {w w' : World} {k : Bool} {c : Call}
    {a : c.Answer} (hthere : t.There jobId w) (hanswers : t.Answers boot c a)
    (hsent : t.Sent sig w k) (hperform : perform w c a = some w') :
    (t.watching jobId boot sig).expected k c a ∧
      t.Sent sig w' ((t.watching jobId boot sig).learn k c a) := by
  rcases hthere with ⟨e, he, hserial, hstart, htagged, hrunning⟩
  have hkept : t.Sent sig w' k := fun hk => perform_struck hperform (hsent hk)
  cases c with
  | listdir =>
      refine ⟨⟨hanswers, fun hzero => ?_⟩, hkept⟩
      simp only [perform, if_pos hzero] at hperform
      cases hperform
  | environ pid =>
      refine ⟨fun hpid => ?_, hkept⟩
      rcases Option.ite_none_right_eq_some.mp hperform with ⟨hread, _⟩
      rcases hread with hnone | htext
      · exact absurd hnone (hanswers hpid)
      · rw [htext, hpid, he]
        exact (carries_iff hjob e.vars).mpr htagged
  | stat pid =>
      refine ⟨fun hpid => ?_, hkept⟩
      rcases Option.ite_none_right_eq_some.mp hperform with ⟨hread, _⟩
      rcases hread with hnone | htext
      · exact absurd hnone (hanswers hpid)
      · rw [htext, hpid, he, ← hstart]
        simp [liveStart, parseStat_text, hrunning]
  | bootId => exact ⟨hanswers, hkept⟩
  | kill pid sent =>
      refine ⟨hanswers, fun hk => ?_⟩
      rcases Bool.or_eq_true_iff.mp hk with hold | hnew
      · exact hkept hold
      · simp only [Bool.and_eq_true, decide_eq_true_eq] at hnew
        rcases hnew with ⟨⟨hpid, hsame⟩, htrue⟩
        rw [htrue] at hperform
        rcases Option.map_eq_some_iff.mp hperform with ⟨e', he', heq⟩
        rw [hpid, he] at he'
        cases he'
        rw [← heq, ← hserial, ← hsame]
        exact List.mem_cons_self

theorem sweep_guided (hjob : Char.ofNat 0 ∉ jobId.toList) :
    (site jobId).Guides (t.watching jobId boot sig) (t.Sent sig) q (t.Attended jobId boot q) where
  begun h := h rfl
  stays h := h rfl
  answered hguard hproc _ hgood hperform :=
    calls_expected hjob (hguard rfl).left ((hguard rfl).right _ _ _ hproc) hgood hperform
  performed hgood hperform hk := perform_struck hperform (hgood hk)
  happened hgood hhappen hk := by
    rw [happen_struck hhappen]
    exact hgood hk

/-- A sweep that has come to its end has signalled every process that it did not skip and that
was there, running and tagged, whenever it looked. -/
theorem sweep_complete (hjob : Char.ofNat 0 ∉ jobId.toList) (hne : jobId ≠ "") {c : Command}
    (hskip : t.pid ∉ c.skip) (hsig : sig ∈ c.signals) {s s' : State} {run : Run} {k : Mind}
    (hbegin : s.procs q = Site.Process.of (c.program jobId) k)
    (hattended : (machine jobId).Guarded (t.Attended jobId boot q) s run)
    (hexec : (machine jobId).exec s run = some s') (hend : s'.procs q = none) :
    (t.serial, sig) ∈ s'.world.struck := by
  have hfollows : Site.Follows (t.watching jobId boot sig) (· = true) (t.Sent sig) q s :=
    Site.follows_of hbegin (fun hfalse => by cases hfalse) (watching_program hskip hne hsig)
  rcases Site.followed (sweep_guided hjob) hfollows hattended hexec hend with ⟨k', hsent, htrue⟩
  exact hsent htrue

end Runs

/-!
## A sweep without company
-/

theorem perform_table {w w' : World} {c : Call} {a : c.Answer}
    (h : perform w c a = some w') : w'.table = w.table := by
  rcases perform_cases h with hsame | ⟨strike, hstrike⟩
  · rw [hsame]
  · rw [hstrike]

def target : Target := ⟨10, by decide, 0, ours.stat.start⟩

/-- A run in which one process sweeps, and is told of the same process all the time. -/
theorem attended_alone (n : Nat) {s : State} (hs : s.world.table 10 = some ours) :
    (machine "j").Guarded (target.Attended "j" "b" 1) s
      (List.replicate n (.act 1 (told ours))) := by
  have hkept : (machine "j").Preserved (fun _ a => a = .act 1 (told ours))
      fun s => s.world.table 10 = some ours := by
    intro s a next hs ha hstep
    rw [ha] at hstep
    have hsite : (site "j").step s (.act 1 (told ours)) = some next := hstep
    rcases Site.step_cases hsite with ⟨_, _, ha, _⟩ | ⟨_, _, _, _, _, w, _, _, hperform, hnext⟩ |
      ⟨_, ha, _⟩ | ⟨_, _, ha, _⟩
    · cases ha
    · rw [hnext]
      exact (congrFun (perform_table hperform) 10).trans hs
    · cases ha
    · cases ha
  refine Machine.guarded_mono hkept (fun s a hs ha => ?_) hs (Machine.guarded_iff.mpr ?_)
  · rw [ha]
    refine fun _ => ⟨⟨ours, hs, rfl, rfl, by decide, by decide⟩, fun c _ _ _ => ?_⟩
    cases c with
    | listdir => exact List.mem_cons_of_mem _ List.mem_cons_self
    | environ pid | stat pid => exact fun _ hnone => by cases hnone
    | bootId => rfl
    | kill pid sent => exact fun _ => rfl
  · intro before a after s' hsplit _
    have hmem : a ∈ List.replicate n (Site.Action.act 1 (told ours)) := by
      rw [hsplit]
      exact List.mem_append_right _ List.mem_cons_self
    exact List.eq_of_mem_replicate hmem

def begun : State :=
  { world := oneProcess
    procs := Function.update (fun _ => none) 1
      (Site.Process.of (Command.program "j" (.lastSweep [1])) {}) }

theorem sweep_complete_alone :
    exists s', (machine "j").exec begun (List.replicate 12 (.act 1 (told ours))) = some s' ∧
      (0, sigkill) ∈ s'.world.struck := by
  have hexec : (machine "j").exec begun (List.replicate 12 (.act 1 (told ours))) =
      some (((machine "j").exec begun (List.replicate 12 (.act 1 (told ours)))).get
        (by decide)) := (Option.some_get _).symm
  exact ⟨_, hexec, sweep_complete (t := target) (c := .lastSweep [1]) (k := {}) (by decide)
    (by decide) (by decide) (by decide) rfl (attended_alone 12 rfl) hexec
    (Option.isNone_iff_eq_none.mp (by decide))⟩

end Ident
end Job
end MightyColab
