import MightyColab.Job.Models
import MightyColab.Job.Resources

/-!
# The watch of one subscription

A subscription to `job://<id>` reads the job's envelope once, and its watch reads it again and
again, however the record comes and goes in between. It tells of nothing twice, and, where the
record was there when it was made, of nothing that had happened before.
-/

namespace MightyColab
namespace Mcp

open Lib Job

/-!
## The subscription
-/

/-- What a read of the envelope finds. -/
inductive Read where
  | unreadable
  | absent
  | found (env : JobEnvelope)

def Read.isDone : Read -> Bool
  | found env => env.done
  | unreadable | absent => false

def Read.leftPending : Read -> Bool
  | found env => env.workload ≠ .pending
  | unreadable | absent => false

/-- What `subscribe` comes to before it touches any task. -/
inductive Request where
  /-- a list, a log or a file, which is accepted and not watched -/
  | ignored
  | notAJob
  | unreadable
  | alreadyDone
  | watch (workloadNotified : Bool)
  deriving DecidableEq

def Ignored (uri : String) : Prop :=
  uri ∈ Resources.jobsListUris ∨ Text.endsWith uri Resources.jobLogsSuffix = true ∨
    (Resources.jobFileFromUri uri).isSome = true

instance (uri : String) : Decidable (Ignored uri) := inferInstanceAs (Decidable (_ ∨ _ ∨ _))

def subscribeTo (uri : String) (existing : Read) : Request :=
  if Ignored uri then .ignored
  else if (Resources.jobIdFromUri uri).isNone then .notAJob
  else
    match existing with
    | .unreadable => .unreadable
    | .absent => .watch false
    | .found env => if env.done then .alreadyDone else .watch (env.workload ≠ .pending)

/-!
## The loop
-/

inductive Event where
  | leftPending
  | finished
  deriving DecidableEq

def Event.observed : Event -> Read -> Bool
  | leftPending => Read.leftPending
  | finished => Read.isDone

/-- One turn of `_watch` up to its notification. -/
def turn (workloadNotified : Bool) (r : Read) : Option Event :=
  match r with
  | .unreadable | .absent => none
  | .found env =>
      if env.done then some .finished
      else if workloadNotified = false ∧ env.workload ≠ .pending then some .leftPending
      else none

structure Sent where
  turn : Nat
  event : Event

/-- `_watch` over some reads, where every notification is delivered. -/
def watch (workloadNotified : Bool) (n : Nat) : List Read -> List Sent
  | [] => []
  | r :: rest =>
      match turn workloadNotified r with
      | none => watch workloadNotified (n + 1) rest
      | some .leftPending => ⟨n, .leftPending⟩ :: watch true (n + 1) rest
      | some .finished => [⟨n, .finished⟩]

/-- What a subscription sends, by the read of `subscribe` and those of the watch. -/
def subscription (uri : String) (existing : Read) (reads : List Read) : List Sent :=
  match subscribeTo uri existing with
  | .watch workloadNotified => watch workloadNotified 0 reads
  | .ignored | .notAJob | .unreadable | .alreadyDone => []

variable {notified : Bool} {r : Read} {n : Nat} {reads front : List Read} {e : Sent}

theorem turn_finished : turn notified r = some .finished <-> r.isDone = true := by
  cases r with
  | unreadable => exact iff_of_false nofun nofun
  | absent => exact iff_of_false nofun nofun
  | found env =>
      simp only [turn, Read.isDone]
      split
      · next hdone => exact iff_of_true rfl hdone
      · next hdone =>
          refine iff_of_false (fun h => ?_) hdone
          split at h <;> cases h

theorem turn_leftPending : turn notified r = some .leftPending <->
    r.isDone = false ∧ notified = false ∧ r.leftPending = true := by
  cases r with
  | unreadable => exact iff_of_false nofun fun h => by cases h.right.right
  | absent => exact iff_of_false nofun fun h => by cases h.right.right
  | found env =>
      simp only [turn, Read.isDone, Read.leftPending, decide_eq_true_eq]
      split
      · next hdone =>
          refine iff_of_false nofun fun h => ?_
          rw [hdone] at h
          cases h.left
      · next hdone =>
          rw [Bool.not_eq_true] at hdone
          rw [hdone, and_iff_right rfl]
          split
          · next h => exact iff_of_true rfl h
          · next h => exact iff_of_false nofun h

def Read.news (r : Read) : Option Event :=
  if r.isDone then some .finished else if r.leftPending then some .leftPending else none

theorem turn_news {event : Event} (h : turn notified r = some event) : r.news = some event := by
  cases event with
  | leftPending =>
      have hturn := turn_leftPending.mp h
      rw [Read.news, hturn.left, if_neg Bool.false_ne_true, if_pos hturn.right.right]
  | finished => rw [Read.news, if_pos (turn_finished.mp h)]

theorem news_observed {event : Event} (h : r.news = some event) : event.observed r = true := by
  unfold Read.news at h
  split at h
  · next hdone =>
      cases h
      exact hdone
  · split at h
    · next hleft =>
        cases h
        exact hleft
    · cases h

theorem watch_cons (notified : Bool) (n : Nat) (r : Read) (rest : List Read) :
    watch notified n (r :: rest) =
      match turn notified r with
      | none => watch notified (n + 1) rest
      | some .leftPending => ⟨n, .leftPending⟩ :: watch true (n + 1) rest
      | some .finished => [⟨n, .finished⟩] := rfl

theorem watch_length_notified (n : Nat) (reads : List Read) : (watch true n reads).length ≤ 1 := by
  induction reads generalizing n with
  | nil => exact Nat.zero_le _
  | cons r rest ih =>
      unfold watch
      split
      · exact ih (n + 1)
      · next h => cases (turn_leftPending.mp h).right.left
      · exact Nat.le_refl _

theorem watch_length (notified : Bool) (n : Nat) (reads : List Read) :
    (watch notified n reads).length ≤ 2 := by
  induction reads generalizing notified n with
  | nil => exact Nat.zero_le _
  | cons r rest ih =>
      unfold watch
      split
      · exact ih notified (n + 1)
      · exact Nat.succ_le_succ (watch_length_notified (n + 1) rest)
      · exact Nat.le_succ _

structure TellsOf (reads : List Read) (k : Nat) (event : Event) : Prop where
  news : exists r, reads[k]? = some r ∧ r.news = some event
  undone : forall j r, j < k -> reads[j]? = some r -> r.isDone = false
  pending : event = .leftPending -> forall j r, j < k -> reads[j]? = some r -> r.leftPending = false

theorem TellsOf.cons {event : Event} {k : Nat} (h : TellsOf reads k event)
    (hdone : r.isDone = false)
    (hleft : event = .leftPending -> r.leftPending = false) :
    TellsOf (r :: reads) (k + 1) event where
  news := h.news
  undone
    | 0, _, _, hr => by
        cases hr
        exact hdone
    | j + 1, r', hj, hr => h.undone j r' (Nat.lt_of_succ_lt_succ hj) hr
  pending hevent
    | 0, _, _, hr => by
        cases hr
        exact hleft hevent
    | j + 1, r', hj, hr => h.pending hevent j r' (Nat.lt_of_succ_lt_succ hj) hr

theorem tellsOf_head {event : Event} (h : turn notified r = some event) :
    TellsOf (r :: reads) 0 event where
  news := ⟨r, rfl, turn_news h⟩
  undone j _ hj := absurd hj (Nat.not_lt_zero j)
  pending _ j _ hj := absurd hj (Nat.not_lt_zero j)

theorem not_done_of_turn (h : turn notified r ≠ some .finished) : r.isDone = false :=
  Bool.eq_false_iff.mpr fun hdone => h (turn_finished.mpr hdone)

theorem watch_sent (h : e ∈ watch notified n reads) :
    exists k, e.turn = n + k ∧ TellsOf reads k e.event ∧
      (e.event = .leftPending -> notified = false) := by
  induction reads generalizing notified n with
  | nil => cases h
  | cons r rest ih =>
      unfold watch at h
      split at h
      · next hturn =>
          rcases ih h with ⟨k, hk, htells, hnotified⟩
          have hdone : r.isDone = false := not_done_of_turn (by rw [hturn]; decide)
          refine ⟨k + 1, by omega, htells.cons hdone fun hevent => ?_, hnotified⟩
          refine Bool.eq_false_iff.mpr fun hleft => ?_
          rw [turn_leftPending.mpr ⟨hdone, hnotified hevent, hleft⟩] at hturn
          cases hturn
      · next hturn =>
          cases h with
          | head => exact ⟨0, rfl, tellsOf_head hturn, fun _ => (turn_leftPending.mp hturn).right.left⟩
          | tail _ h =>
              rcases ih h with ⟨k, hk, htells, hnotified⟩
              have hfinished : e.event ≠ .leftPending := fun hevent => by cases hnotified hevent
              exact ⟨k + 1, by omega, htells.cons (turn_leftPending.mp hturn).left
                fun hevent => absurd hevent hfinished, fun hevent => absurd hevent hfinished⟩
      · next hturn =>
          rw [List.mem_singleton] at h
          rw [h]
          exact ⟨0, rfl, tellsOf_head hturn, fun h => by cases h⟩

theorem watch_done (hfront : forall r', r' ∈ front -> r'.isDone = false) (hdone : r.isDone = true)
    (rest : List Read) :
    watch notified n (front ++ r :: rest) =
      watch notified n front ++ [⟨n + front.length, .finished⟩] := by
  induction front generalizing notified n with
  | nil =>
      have hturn : turn notified r = some .finished := turn_finished.mpr hdone
      rw [List.nil_append, watch_cons, hturn]
      rfl
  | cons first front ih =>
      have hrest : forall r', r' ∈ front -> r'.isDone = false :=
        fun r' hr' => hfront r' (List.mem_cons_of_mem _ hr')
      have hlength : n + (first :: front).length = n + 1 + front.length := by
        rw [List.length_cons]
        omega
      rw [List.cons_append, watch_cons, watch_cons, hlength]
      cases hturn : turn notified first with
      | none => exact ih hrest
      | some event =>
          cases event with
          | leftPending => exact congrArg _ (ih hrest)
          | finished =>
              have hfirst := hfront first List.mem_cons_self
              rw [turn_finished.mp hturn] at hfirst
              cases hfirst

/-- The first read that finds the workload past pending is told of, unless it finds the job
done as well. -/
theorem watch_left (hfront : forall r', r' ∈ front -> r'.isDone = false ∧ r'.leftPending = false)
    (hdone : r.isDone = false) (hleft : r.leftPending = true) (rest : List Read) :
    ⟨n + front.length, .leftPending⟩ ∈ watch false n (front ++ r :: rest) := by
  induction front generalizing n with
  | nil =>
      have hturn : turn false r = some .leftPending := turn_leftPending.mpr ⟨hdone, rfl, hleft⟩
      rw [List.nil_append, watch_cons, hturn]
      exact List.mem_cons_self
  | cons first front ih =>
      have hfirst := hfront first List.mem_cons_self
      have hnone : turn false first = none := by
        cases hturn : turn false first with
        | none => rfl
        | some event =>
            have hobserved := news_observed (turn_news hturn)
            cases event with
            | leftPending => exact Bool.noConfusion (hfirst.right.symm.trans hobserved)
            | finished => exact Bool.noConfusion (hfirst.left.symm.trans hobserved)
      have hlength : n + (first :: front).length = n + 1 + front.length := by
        rw [List.length_cons]
        omega
      rw [List.cons_append, watch_cons, hnone, hlength]
      exact ih fun r' hr' => hfront r' (List.mem_cons_of_mem _ hr')

/-!
## What a subscriber is told
-/

/-- What the record has last said of an event, up to some moment. -/
def known (event : Event) (contents : Nat -> Read) : Nat -> Bool
  | 0 => event.observed (contents 0)
  | m + 1 =>
      match contents (m + 1) with
      | .found env => event.observed (.found env)
      | .unreadable | .absent => known event contents m

theorem known_found {event : Event} {contents : Nat -> Read} {m : Nat} {env : JobEnvelope}
    (h : contents m = .found env) : known event contents m = event.observed (contents m) := by
  cases m with
  | zero => rfl
  | succ m => rw [known, h]

theorem known_of_observed {event : Event} {contents : Nat -> Read} {m : Nat}
    (h : event.observed (contents m) = true) : known event contents m = true := by
  cases hread : contents m with
  | found env => rw [known_found hread, h]
  | unreadable =>
      rw [hread] at h
      cases event <;> cases h
  | absent =>
      rw [hread] at h
      cases event <;> cases h

/-- The event is new in the record at some moment after the first and not after the last. -/
def Happens (event : Event) (contents : Nat -> Read) (first last : Nat) : Prop :=
  exists m, first ≤ m ∧ m < last ∧ known event contents m = false ∧
    known event contents (m + 1) = true

theorem happens_of {event : Event} {contents : Nat -> Read} {first middle : Nat}
    (hle : first ≤ middle) (hmiddle : known event contents middle = false) :
    forall {last}, middle ≤ last -> known event contents last = true ->
      Happens event contents first last := by
  intro last hlast
  induction last, hlast using Nat.le_induction with
  | base => exact fun hknown => Bool.noConfusion (hmiddle.symm.trans hknown)
  | succ last hlast ih =>
      intro hknown
      cases hbefore : known event contents last with
      | false => exact ⟨last, Nat.le_trans hle hlast, Nat.lt_succ_self last, hbefore, hknown⟩
      | true =>
          rcases ih hbefore with ⟨m, hfirst, hlt, h⟩
          exact ⟨m, hfirst, Nat.lt_succ_of_lt hlt, h⟩

/-- The reads of a watch, of which each comes some time after the subscription. -/
def readsAfter (contents : Nat -> Read) (subscribed : Nat) (delay : Nat -> Nat) (n : Nat) :
    List Read :=
  (List.range n).map fun k => contents (subscribed + delay k)

/-- The transitions that matter, in what was sent over the first `n` turns of a watch. -/
structure SeesTransitions (uri : String) (contents : Nat -> Read) (subscribed : Nat)
    (delay : Nat -> Nat) (n : Nat) (sent : List Sent) : Prop where
  two : sent.length ≤ 2
  /-- What is told of has happened after the subscription, up to the read. -/
  fresh : forall e, e ∈ sent ->
    Happens e.event contents subscribed (subscribed + delay e.turn)
  /-- The first read that finds the job done is told of, and nothing after it. -/
  final : forall notified k, subscribeTo uri (contents subscribed) = .watch notified -> k < n ->
    (contents (subscribed + delay k)).isDone = true ->
    (forall j, j < k -> (contents (subscribed + delay j)).isDone = false) ->
    exists before, sent = before ++ [⟨k, .finished⟩] ∧ forall e, e ∈ before -> e.turn < k
  /-- The first read that finds the workload past pending is told of, if the job is not done. -/
  left : forall k, subscribeTo uri (contents subscribed) = .watch false -> k < n ->
    (contents (subscribed + delay k)).isDone = false ->
    (contents (subscribed + delay k)).leftPending = true ->
    (forall j, j < k -> (contents (subscribed + delay j)).isDone = false ∧
      (contents (subscribed + delay j)).leftPending = false) ->
    ⟨k, .leftPending⟩ ∈ sent

/-- The record is absent at the subscription, and a read of the watch finds what it said when it
was last there, and has said whenever it was there since. -/
def FoundAgain (uri : String) (contents : Nat -> Read) (subscribed : Nat) (delay : Nat -> Nat)
    (n : Nat) : Prop :=
  ¬ Ignored uri ∧ (Resources.jobIdFromUri uri).isSome = true ∧ contents subscribed = .absent ∧
    exists k event, TellsOf (readsAfter contents subscribed delay n) k event ∧
      forall m, m ≤ delay k -> known event contents (subscribed + m) = true

/-- What a subscription that is watched has found: the record, or that there is none. -/
theorem subscribeTo_watch {uri : String} {existing : Read}
    (h : subscribeTo uri existing = .watch notified) :
    ¬ Ignored uri ∧ (Resources.jobIdFromUri uri).isSome = true ∧
      (existing = .absent ∨ exists env, existing = .found env ∧ existing.isDone = false ∧
        (notified = false -> existing.leftPending = false)) := by
  unfold subscribeTo at h
  split at h
  · cases h
  next hignored =>
  split at h
  · cases h
  next hjob =>
  refine ⟨hignored, ?_, ?_⟩
  · rwa [Bool.not_eq_true, Option.isNone_eq_false_iff] at hjob
  cases existing with
  | unreadable => cases h
  | absent => exact Or.inl rfl
  | found env =>
      simp only at h
      split at h
      · cases h
      · next hdone =>
          cases h
          exact Or.inr ⟨env, rfl, Bool.not_eq_true _ ▸ hdone, id⟩

theorem subscribeTo_absent {uri : String} (hignored : ¬ Ignored uri)
    (hjob : (Resources.jobIdFromUri uri).isSome = true) :
    subscribeTo uri .absent = .watch false := by
  have hsome : ¬ (Resources.jobIdFromUri uri).isNone = true := by
    rwa [Bool.not_eq_true, Option.isNone_eq_false_iff]
  rw [subscribeTo, if_neg hignored, if_neg hsome]

variable {contents : Nat -> Read} {subscribed : Nat} {delay : Nat -> Nat}

theorem readsAfter_get {k : Nat}
    (h : (readsAfter contents subscribed delay n)[k]? = some r) :
    r = contents (subscribed + delay k) := by
  unfold readsAfter at h
  rw [List.getElem?_map] at h
  rcases Option.map_eq_some_iff.mp h with ⟨j, hj, heq⟩
  rcases List.getElem?_eq_some_iff.mp hj with ⟨_, hjk⟩
  rw [List.getElem_range] at hjk
  rw [← heq, hjk]

theorem readsAfter_lt {k : Nat}
    (h : (readsAfter contents subscribed delay n)[k]? = some r) : k < n := by
  rcases List.getElem?_eq_some_iff.mp h with ⟨hlt, _⟩
  rwa [readsAfter, List.length_map, List.length_range] at hlt

theorem readsAfter_at {k : Nat} (hk : k < n) :
    (readsAfter contents subscribed delay n)[k]? = some (contents (subscribed + delay k)) := by
  rw [readsAfter, List.getElem?_map, List.getElem?_range hk]
  rfl

theorem mem_readsAfter {k : Nat} (h : r ∈ readsAfter contents subscribed delay k) :
    exists j, j < k ∧ r = contents (subscribed + delay j) := by
  rcases List.mem_map.mp h with ⟨j, hj, heq⟩
  exact ⟨j, List.mem_range.mp hj, heq.symm⟩

theorem readsAfter_length (k : Nat) : (readsAfter contents subscribed delay k).length = k := by
  rw [readsAfter, List.length_map, List.length_range]

theorem readsAfter_split {k : Nat} (hk : k < n) :
    exists rest, readsAfter contents subscribed delay n =
      readsAfter contents subscribed delay k ++ contents (subscribed + delay k) :: rest := by
  rcases Nat.exists_eq_add_of_lt hk with ⟨m, hm⟩
  have hrange : List.range n = List.range k ++ (List.range (m + 1)).map (k + ·) := by
    rw [hm, Nat.add_assoc]
    exact List.range_add
  rw [List.range_succ_eq_map, List.map_cons, Nat.add_zero] at hrange
  have hreads := congrArg (List.map fun k => contents (subscribed + delay k)) hrange
  rw [List.map_append, List.map_cons] at hreads
  exact ⟨_, hreads⟩

theorem mem_subscription {uri : String} {existing : Read}
    (h : e ∈ subscription uri existing reads) :
    exists notified, subscribeTo uri existing = .watch notified ∧ e ∈ watch notified 0 reads := by
  unfold subscription at h
  split at h
  · next notified hwatch => exact ⟨notified, hwatch, h⟩
  all_goals cases h

theorem subscription_watch {uri : String} {existing : Read}
    (h : subscribeTo uri existing = .watch notified) (reads : List Read) :
    subscription uri existing reads = watch notified 0 reads := by
  rw [subscription, h]

theorem subscription_final {uri : String} {k : Nat}
    (hwatch : subscribeTo uri (contents subscribed) = .watch notified) (hk : k < n)
    (hdone : (contents (subscribed + delay k)).isDone = true)
    (hbefore : forall j, j < k -> (contents (subscribed + delay j)).isDone = false) :
    exists before, subscription uri (contents subscribed) (readsAfter contents subscribed delay n) =
      before ++ [⟨k, .finished⟩] ∧ forall e, e ∈ before -> e.turn < k := by
  rcases readsAfter_split hk with ⟨rest, hsplit⟩
  have hfront : forall r, r ∈ readsAfter contents subscribed delay k -> r.isDone = false := by
    intro r hr
    rcases mem_readsAfter hr with ⟨j, hj, heq⟩
    rw [heq]
    exact hbefore j hj
  refine ⟨watch notified 0 (readsAfter contents subscribed delay k), ?_, ?_⟩
  · rw [subscription_watch hwatch, hsplit, watch_done hfront hdone, readsAfter_length,
      Nat.zero_add]
  · intro e he
    rcases watch_sent he with ⟨j, hturn, ⟨⟨r, hread, _⟩, _, _⟩, _⟩
    have hj := readsAfter_lt hread
    omega

theorem subscription_left {uri : String} {k : Nat}
    (hwatch : subscribeTo uri (contents subscribed) = .watch false) (hk : k < n)
    (hdone : (contents (subscribed + delay k)).isDone = false)
    (hleft : (contents (subscribed + delay k)).leftPending = true)
    (hbefore : forall j, j < k -> (contents (subscribed + delay j)).isDone = false ∧
      (contents (subscribed + delay j)).leftPending = false) :
    ⟨k, .leftPending⟩ ∈
      subscription uri (contents subscribed) (readsAfter contents subscribed delay n) := by
  rcases readsAfter_split hk with ⟨rest, hsplit⟩
  have hfront : forall r, r ∈ readsAfter contents subscribed delay k ->
      r.isDone = false ∧ r.leftPending = false := by
    intro r hr
    rcases mem_readsAfter hr with ⟨j, hj, heq⟩
    rw [heq]
    exact hbefore j hj
  have hmem := watch_left (n := 0) hfront hdone hleft rest
  rw [readsAfter_length, Nat.zero_add] at hmem
  rw [subscription_watch hwatch, hsplit]
  exact hmem

theorem FoundAgain.sent {uri : String} (h : FoundAgain uri contents subscribed delay n) :
    exists e, e ∈ subscription uri (contents subscribed) (readsAfter contents subscribed delay n) ∧
      ¬ Happens e.event contents subscribed (subscribed + delay e.turn) := by
  rcases h with ⟨hignored, hjob, habsent, k, event, ⟨⟨r, hread, hnews⟩, hundone, hpending⟩, hknown⟩
  have hwatch : subscribeTo uri (contents subscribed) = .watch false := by
    rw [habsent, subscribeTo_absent hignored hjob]
  have hk := readsAfter_lt hread
  have hr := readsAfter_get hread
  subst hr
  have hbefore : forall j, j < k -> (contents (subscribed + delay j)).isDone = false :=
    fun j hj => hundone j _ hj (readsAfter_at (Nat.lt_trans hj hk))
  have hnot : ¬ Happens event contents subscribed (subscribed + delay k) := by
    rintro ⟨m, hle, hlt, hfalse, _⟩
    have htrue := hknown (m - subscribed) (by omega)
    rw [Nat.add_sub_cancel' hle, hfalse] at htrue
    cases htrue
  refine ⟨⟨k, event⟩, ?_, hnot⟩
  cases event with
  | finished =>
      rcases subscription_final hwatch hk (news_observed hnews) hbefore with ⟨before, heq, _⟩
      rw [heq]
      simp
  | leftPending =>
      refine subscription_left hwatch hk ?_ (news_observed hnews) fun j hj => ⟨hbefore j hj,
        hpending rfl j _ hj (readsAfter_at (Nat.lt_trans hj hk))⟩
      refine Bool.eq_false_iff.mpr fun hdone => ?_
      rw [Read.news, if_pos hdone] at hnews
      cases hnews

/-- A subscriber sees exactly the transitions that matter, unless the record is absent at the
subscription and comes back with what it said before. -/
theorem sees_transitions_iff (uri : String) (contents : Nat -> Read) (subscribed : Nat)
    (delay : Nat -> Nat) (n : Nat) :
    SeesTransitions uri contents subscribed delay n
        (subscription uri (contents subscribed) (readsAfter contents subscribed delay n)) <->
      ¬ FoundAgain uri contents subscribed delay n := by
  constructor
  · intro hsees hagain
    rcases hagain.sent with ⟨e, he, hnot⟩
    exact hnot (hsees.fresh e he)
  intro hagain
  constructor
  · unfold subscription
    split
    · exact watch_length _ _ _
    all_goals exact Nat.zero_le _
  · intro e he
    rcases mem_subscription he with ⟨notified, hwatch, he⟩
    rcases watch_sent he with ⟨k, hturn, htells, hnotified⟩
    rw [Nat.zero_add] at hturn
    rw [hturn]
    rcases htells.news with ⟨r, hread, hnews⟩
    have hr := readsAfter_get hread
    subst hr
    have hlast := known_of_observed (news_observed hnews)
    rcases subscribeTo_watch hwatch with ⟨hignored, hjob, habsent | ⟨env, hfound, hdone, hleft⟩⟩
    · -- since the subscription the record has said something else
      have hforgotten : exists m, m ≤ delay k ∧ known e.event contents (subscribed + m) = false := by
        by_contra hnone
        refine hagain ⟨hignored, hjob, habsent, k, e.event, htells, fun m hm => ?_⟩
        cases hknown : known e.event contents (subscribed + m) with
        | false => exact absurd ⟨m, hm, hknown⟩ hnone
        | true => rfl
      rcases hforgotten with ⟨m, hm, hknown⟩
      exact happens_of (Nat.le_add_right subscribed m) hknown (Nat.add_le_add_left hm subscribed)
        hlast
    · refine happens_of (Nat.le_refl subscribed) ?_ (Nat.le_add_right subscribed _) hlast
      rw [known_found hfound]
      cases hevent : e.event with
      | leftPending => exact hleft (hnotified hevent)
      | finished => exact hdone
  · exact fun notified k hwatch hk hdone hbefore => subscription_final hwatch hk hdone hbefore
  · exact fun k hwatch hk hdone hleft hbefore => subscription_left hwatch hk hdone hleft hbefore

/-- The workload was running, the record was absent at the subscription, and it is there again. -/
def backAgain : Nat -> Read
  | 1 => .absent
  | _ => .found { jobId := "a", workload := .running }

theorem running_told_again :
    ¬ forall (uri : String) (contents : Nat -> Read) (subscribed : Nat) (delay : Nat -> Nat)
      (n : Nat), SeesTransitions uri contents subscribed delay n
        (subscription uri (contents subscribed) (readsAfter contents subscribed delay n)) := by
  intro h
  have hsees := h "job://a" backAgain 1 (· + 1) 1
  have hsent : (subscription "job://a" (backAgain 1) (readsAfter backAgain 1 (· + 1) 1)).map
      Sent.event = [.leftPending] := by decide
  rcases List.map_eq_singleton_iff.mp hsent with ⟨e, hsub, hevent⟩
  rcases hsees.fresh e (by rw [hsub]; exact List.mem_singleton_self e) with ⟨m, _, _, hfalse, _⟩
  have htrue : forall m, known .leftPending backAgain m = true := by
    intro m
    induction m with
    | zero => rfl
    | succ m ih =>
        cases m with
        | zero => exact ih
        | succ m => rfl
  rw [hevent, htrue m] at hfalse
  cases hfalse

end Mcp
end MightyColab
