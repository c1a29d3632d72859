import MightyColab.Lib.Runs
import MightyColab.Job.Transport

/-!
# Uploads

`JobTransport.upload` against a Contents server that may apply a request long after its
client has given up on it. The client and the server are one machine: each step is the end
of a request as the client sees it, or the server applying a request that timed out. The
server's file, and which attempt has last begun it anew, are part of the state.
-/

namespace MightyColab
namespace Job

open Lib

namespace Upload

open Transport (chunkSize)

abbrev Bytes := List UInt8

/-!
## The chunks of a file
-/

theorem chunkSize_pos : 0 < chunkSize := by decide

def Single (content : Bytes) : Prop := content.length ≤ chunkSize

instance (content : Bytes) : Decidable (Single content) :=
  inferInstanceAs (Decidable (content.length ≤ chunkSize))

/-- The bytes of the `k`-th request. -/
def piece (content : Bytes) (k : Nat) : Bytes :=
  (content.drop ((k - 1) * chunkSize)).take chunkSize

/-- `is_last`: every byte has been read once the `k`-th request is made up. -/
def isLast (content : Bytes) (k : Nat) : Bool := decide (content.length ≤ k * chunkSize)

/-- `chunk` of the `k`-th request. -/
def chunk (content : Bytes) (k : Nat) : Int :=
  if Single content then 1 else if isLast content k then -1 else k

def applyChunk (chunk : Int) (bytes : Bytes) (file : Option Bytes) : Bytes :=
  if chunk = 1 then bytes else file.getD [] ++ bytes

/-!
## The machine
-/

structure Put where
  attempt : Nat
  index : Nat
  deriving DecidableEq, Repr

inductive Control where
  | send (index : Nat)
  /-- About to refresh the token. -/
  | refresh
  /-- About to ask for the file's size. -/
  | confirm
  | returned
  | raised
  deriving DecidableEq, Repr

structure State where
  /-- The remote file. -/
  file : Option Bytes
  /-- The requests that timed out and may still be applied. -/
  flight : List Put := []
  attempt : Nat := 1
  control : Control := .send 1
  refreshAttempted : Bool := false
  transientRetries : Nat := 0
  /-- The attempt whose first request was applied last; 0 before any. -/
  first : Nat := 0
  /-- How many requests have been applied since then, with that one. -/
  upto : Nat := 0
  deriving Repr

/-- What `_confirm_size` gets. -/
inductive Confirmation where
  /-- The server answers for the path: a size, or a 404. -/
  | answered
  /-- A 404 for the token. -/
  | expired
  | failed
  deriving DecidableEq, Repr

inductive Action where
  /-- The request is applied, and answered. -/
  | answered
  | timedOut
  /-- The request is refused with an error status, and not applied. -/
  | refused (code : Nat)
  /-- The connection fails, or anything else does, before the request is sent. -/
  | lost (connection : Bool)
  /-- How the token refresh ends. -/
  | refreshed (ok : Bool)
  | confirmed (reply : Confirmation)
  /-- The server applies the `i`-th request in flight. -/
  | late (i : Nat)
  deriving DecidableEq, Repr

def State.apply (content : Bytes) (put : Put) (s : State) : State :=
  let flag := chunk content put.index
  { s with
    file := some (applyChunk flag (piece content put.index) s.file)
    first := if flag = 1 then put.attempt else s.first
    upto := if flag = 1 then 1 else s.upto + 1 }

def State.again (s : State) : State :=
  { s with attempt := s.attempt + 1, control := .send 1 }

def State.retry (maxRetries : Nat) (transient : Bool) (s : State) : State :=
  if transient && decide (s.transientRetries < maxRetries) then
    { s.again with transientRetries := s.transientRetries + 1 }
  else { s with control := .raised }

/-- `_confirm_size`: none when it is unknown. -/
def confirmSize (content : Bytes) (file : Option Bytes) : Confirmation -> Option Bool
  | .failed => none
  | .expired => some false
  | .answered => some (file.any fun bytes => decide (bytes.length = content.length))

def sendStep (maxRetries : Nat) (content : Bytes) (k : Nat) (s : State) :
    Action -> Option State
  | .answered =>
      let s := s.apply content ⟨s.attempt, k⟩
      some { s with control := if isLast content k then .returned else .send (k + 1) }
  | .timedOut =>
      some { s with flight := ⟨s.attempt, k⟩ :: s.flight, control := .confirm }
  | .refused code =>
      if (code = 401 ∨ code = 404) ∧ s.refreshAttempted = false then
        some { s with refreshAttempted := true, control := .refresh }
      else some (s.retry maxRetries (decide (500 ≤ code ∧ code < 600)))
  | .lost connection => some (s.retry maxRetries connection)
  | _ => none

def step (maxRetries : Nat) (content : Bytes) (s : State) (a : Action) : Option State :=
  match a with
  | .late i =>
      (s.flight[i]?).map fun put =>
        { s.apply content put with flight := s.flight.eraseIdx i }
  | .refreshed ok =>
      if s.control = .refresh then
        some (if ok then s.again else { s with control := .raised })
      else none
  | .confirmed reply =>
      if s.control = .confirm then
        match confirmSize content s.file reply with
        | some true => some { s with control := .returned }
        | some false => some (s.retry maxRetries true)
        | none => some { s with control := .raised }
      else none
  | a =>
      match s.control with
      | .send k => sendStep maxRetries content k s a
      | _ => none

/-- `upload` of a file to a path with this content. -/
def machine (maxRetries : Nat) (content : Bytes) (prior : Option Bytes) :
    Machine State Action where
  start := fun s => s = { file := prior }
  step := step maxRetries content

/-- What a run keeps to: a size is only confirmed of a file that this upload has written,
unless it had the local file's content before; and in an upload of several requests the
server applies nothing after the return, and no request of an attempt once a later one has
begun the file anew. -/
def InOrder (content : Bytes) (prior : Option Bytes) (s : State) : Action -> Prop
  | .confirmed reply =>
      confirmSize content s.file reply = some true ->
        s.first ≠ 0 ∨ prior = some content
  | .late i =>
      Single content ∨ s.control ≠ .returned ∧
        forall put, s.flight[i]? = some put -> s.first ≤ put.attempt
  | _ => True

/-!
## Chunks make up the file
-/

variable {content : Bytes} {prior : Option Bytes} {s : State} {maxRetries k : Nat}

theorem piece_single (h : Single content) : piece content 1 = content := by
  simp only [piece, Nat.sub_self, Nat.zero_mul, List.drop_zero]
  exact List.take_of_length_le h

theorem take_piece (content : Bytes) (k : Nat) :
    content.take (k * chunkSize) ++ piece content (k + 1) =
      content.take ((k + 1) * chunkSize) := by
  rw [piece, Nat.add_sub_cancel, Nat.succ_mul, List.take_add]

theorem piece_one (content : Bytes) : piece content 1 = content.take (1 * chunkSize) := by
  simp [piece]

theorem take_last (h : isLast content k = true) : content.take (k * chunkSize) = content :=
  List.take_of_length_le (of_decide_eq_true h)

theorem chunk_single (h : Single content) (k : Nat) : chunk content k = 1 := if_pos h

theorem last_single (h : Single content) : isLast content 1 = true := by
  have hlength : content.length ≤ chunkSize := h
  simpa [isLast] using hlength

theorem not_last_one (h : ¬Single content) : isLast content 1 = false := by
  simpa [isLast, Single] using h

theorem chunk_eq_one_iff (h : ¬Single content) (k : Nat) : chunk content k = 1 <-> k = 1 := by
  unfold chunk
  rw [if_neg h]
  constructor
  · intro hone
    split at hone
    · cases hone
    · exact_mod_cast hone
  · rintro rfl
    rw [not_last_one h]
    rfl

theorem confirmSize_true {file : Option Bytes} {reply : Confirmation}
    (h : confirmSize content file reply = some true) :
    exists bytes, file = some bytes ∧ bytes.length = content.length := by
  cases reply with
  | failed => cases h
  | expired => cases h
  | answered =>
      cases file with
      | none => cases h
      | some bytes => exact ⟨bytes, rfl, by simpa [confirmSize] using h⟩

inductive Moves (maxRetries : Nat) (content : Bytes) (s : State) : Action -> State -> Prop
  | applied (k : Nat) (hk : s.control = .send k) :
      Moves maxRetries content s .answered
        { s.apply content ⟨s.attempt, k⟩ with
          control := if isLast content k then .returned else .send (k + 1) }
  | timedOut (k : Nat) (hk : s.control = .send k) :
      Moves maxRetries content s .timedOut
        { s with flight := ⟨s.attempt, k⟩ :: s.flight, control := .confirm }
  | refresh (a : Action) :
      Moves maxRetries content s a { s with refreshAttempted := true, control := .refresh }
  | retried (a : Action) (transient : Bool) :
      Moves maxRetries content s a (s.retry maxRetries transient)
  | again (a : Action) : Moves maxRetries content s a s.again
  | raised (a : Action) : Moves maxRetries content s a { s with control := .raised }
  | returned (reply : Confirmation) (hsize : confirmSize content s.file reply = some true) :
      Moves maxRetries content s (.confirmed reply) { s with control := .returned }
  | late (i : Nat) (put : Put) (hput : s.flight[i]? = some put) :
      Moves maxRetries content s (.late i)
        { s.apply content put with flight := s.flight.eraseIdx i }

theorem sendStep_moves {a : Action} {next : State} (hk : s.control = .send k)
    (h : sendStep maxRetries content k s a = some next) :
    Moves maxRetries content s a next := by
  cases a with
  | answered =>
      cases h
      exact .applied k hk
  | timedOut =>
      cases h
      exact .timedOut k hk
  | refused code =>
      simp only [sendStep] at h
      split at h
      · cases h
        exact .refresh _
      · cases h
        exact .retried _ _
  | lost connection =>
      cases h
      exact .retried _ _
  | refreshed ok => cases h
  | confirmed reply => cases h
  | late i => cases h

theorem step_moves {a : Action} {next : State}
    (h : (machine maxRetries content prior).step s a = some next) :
    Moves maxRetries content s a next := by
  have hsend : forall {a : Action},
      (match s.control with
        | .send k => sendStep maxRetries content k s a
        | _ => none) = some next -> Moves maxRetries content s a next := by
    intro a h
    split at h
    · rename_i k hk
      exact sendStep_moves hk h
    · cases h
  cases a with
  | answered => exact hsend h
  | timedOut => exact hsend h
  | refused code => exact hsend h
  | lost connection => exact hsend h
  | refreshed ok =>
      simp only [machine, step] at h
      split at h
      · cases ok with
        | true =>
            cases h
            exact .again _
        | false =>
            cases h
            exact .raised _
      · cases h
  | confirmed reply =>
      simp only [machine, step] at h
      split at h
      · split at h
        · cases h
          exact .returned reply (by assumption)
        · cases h
          exact .retried _ true
        · cases h
          exact .raised _
      · cases h
  | late i =>
      simp only [machine, step, Option.map_eq_some_iff] at h
      rcases h with ⟨put, hput, rfl⟩
      exact .late i put hput

/-!
## Uploads of one request
-/

structure WholeInvariant (content : Bytes) (prior : Option Bytes) (s : State) : Prop where
  started : s.attempt ≠ 0
  flight : forall put, put ∈ s.flight -> put.index = 1 ∧ put.attempt ≠ 0
  sending : forall k, s.control = .send k -> k = 1
  unwritten : s.first = 0 -> s.file = prior
  written : s.first ≠ 0 -> s.file = some content
  returned : s.control = .returned -> s.file = some content

theorem WholeInvariant.again (h : WholeInvariant content prior s) :
    WholeInvariant content prior s.again where
  started := Nat.succ_ne_zero s.attempt
  flight := h.flight
  sending k hk := by
    cases hk
    rfl
  unwritten := h.unwritten
  written := h.written
  returned hret := by cases hret

theorem WholeInvariant.stop (h : WholeInvariant content prior s) (control : Control)
    (hsend : forall k, control ≠ .send k) (hret : control ≠ .returned) :
    WholeInvariant content prior { s with control } where
  started := h.started
  flight := h.flight
  sending k hk := absurd hk (hsend k)
  unwritten := h.unwritten
  written := h.written
  returned h := absurd h hret

theorem WholeInvariant.retry (h : WholeInvariant content prior s) (transient : Bool) :
    WholeInvariant content prior (s.retry maxRetries transient) := by
  unfold State.retry
  split
  · exact { h.again with }
  · exact h.stop .raised (by simp) (by simp)

theorem WholeInvariant.apply (hsingle : Single content) (h : WholeInvariant content prior s)
    {put : Put} (hindex : put.index = 1) (hattempt : put.attempt ≠ 0)
    (flight : List Put) (hflight : flight ⊆ s.flight) (control : Control)
    (hsend : forall k, control = .send k -> k = 1) :
    WholeInvariant content prior
      { s.apply content put with flight, control } := by
  have hfile : (s.apply content put).file = some content := by
    simp [State.apply, applyChunk, chunk_single hsingle, hindex, piece_single hsingle]
  have hfirst : (s.apply content put).first ≠ 0 := by
    simp [State.apply, chunk_single hsingle, hattempt]
  exact {
    started := h.started
    flight := fun other hother => h.flight other (hflight hother)
    sending := hsend
    unwritten := fun hzero => absurd hzero hfirst
    written := fun _ => hfile
    returned := fun _ => hfile }

theorem whole_preserved (hsingle : Single content) :
    (machine maxRetries content prior).Preserved (InOrder content prior)
      (WholeInvariant content prior) := by
  intro s a next h hguard hstep
  cases step_moves hstep with
  | applied k hk =>
      have hone := h.sending k hk
      refine h.apply hsingle hone h.started s.flight (fun _ hput => hput) _ fun j hj => ?_
      rw [hone, last_single hsingle] at hj
      cases hj
  | timedOut k hk =>
      have hstop := h.stop .confirm (by simp) (by simp)
      refine { hstop with flight := fun put hput => ?_ }
      rcases List.mem_cons.mp hput with rfl | hput
      · exact ⟨h.sending k hk, h.started⟩
      · exact h.flight put hput
  | refresh => exact { h.stop .refresh (by simp) (by simp) with }
  | retried _ transient => exact h.retry transient
  | again => exact h.again
  | raised => exact h.stop .raised (by simp) (by simp)
  | returned reply hsize =>
      have hcontent : s.file = some content := by
        rcases hguard hsize with hwritten | hprior
        · exact h.written hwritten
        · by_cases hzero : s.first = 0
          · exact (h.unwritten hzero).trans hprior
          · exact h.written hzero
      exact {
        started := h.started
        flight := h.flight
        sending := fun k hk => by cases hk
        unwritten := h.unwritten
        written := h.written
        returned := fun _ => hcontent }
  | late i put hput =>
      rcases h.flight put (List.mem_of_getElem? hput) with ⟨hindex, hattempt⟩
      exact h.apply hsingle hindex hattempt _ (List.eraseIdx_subset) s.control h.sending

/-!
## Uploads of several requests
-/

/-- The file is a prefix of the local one since it was last begun anew, and the requests
that may still be applied in order are the next ones. -/
structure PrefixInvariant (content : Bytes) (prior : Option Bytes) (s : State) :
    Prop where
  current : s.first ≤ s.attempt
  unwritten : s.first = 0 -> s.file = prior
  written : s.first ≠ 0 -> s.file = some (content.take (s.upto * chunkSize))
  begun : forall put, put ∈ s.flight -> put.attempt ≤ s.attempt ∧ put.attempt ≠ 0
  ahead : forall put, put ∈ s.flight -> s.first < put.attempt -> put.index = 1
  next : forall put, put ∈ s.flight -> put.attempt = s.first -> put.index = s.upto + 1
  distinct : (s.flight.map Put.attempt).Nodup
  started : s.attempt ≠ 0
  sending : forall k, s.control = .send k ->
    (forall put, put ∈ s.flight -> put.attempt < s.attempt) ∧
      ((k = 1 ∧ s.first < s.attempt) ∨ (2 ≤ k ∧ k = s.upto + 1 ∧ s.first = s.attempt))
  returned : s.control = .returned -> s.file = some content

theorem PrefixInvariant.again (h : PrefixInvariant content prior s) :
    PrefixInvariant content prior s.again where
  current := Nat.le_succ_of_le h.current
  unwritten := h.unwritten
  written := h.written
  begun put hput := ⟨Nat.le_succ_of_le (h.begun put hput).left, (h.begun put hput).right⟩
  ahead := h.ahead
  next := h.next
  distinct := h.distinct
  started := Nat.succ_ne_zero s.attempt
  sending k hk := by
    cases hk
    exact ⟨fun put hput => Nat.lt_succ_of_le (h.begun put hput).left,
      Or.inl ⟨rfl, Nat.lt_succ_of_le h.current⟩⟩
  returned hret := by cases hret

theorem PrefixInvariant.stop (h : PrefixInvariant content prior s) (control : Control)
    (hsend : forall k, control ≠ .send k) (hret : control = .returned -> s.file = some content) :
    PrefixInvariant content prior { s with control } :=
  { h with
    sending := fun k hk => absurd hk (hsend k)
    returned := hret }

theorem PrefixInvariant.retry (h : PrefixInvariant content prior s) (transient : Bool) :
    PrefixInvariant content prior (s.retry maxRetries transient) := by
  unfold State.retry
  split
  · exact { h.again with }
  · exact h.stop .raised (by simp) (by simp)

theorem apply_first (hmany : ¬Single content) (attempt : Nat) (s : State) :
    s.apply content ⟨attempt, 1⟩ =
      { s with
        file := some (content.take (1 * chunkSize)), first := attempt, upto := 1 } := by
  have hone : chunk content 1 = 1 := (chunk_eq_one_iff hmany 1).mpr rfl
  simp [State.apply, hone, applyChunk, piece_one]

theorem apply_next (hmany : ¬Single content) (attempt : Nat) (hk : k ≠ 1)
    (hnext : k = s.upto + 1) (hfile : s.file = some (content.take (s.upto * chunkSize))) :
    s.apply content ⟨attempt, k⟩ =
      { s with
        file := some (content.take ((s.upto + 1) * chunkSize)), upto := s.upto + 1 } := by
  have hflag : chunk content k ≠ 1 := fun h => hk ((chunk_eq_one_iff hmany k).mp h)
  have hpiece : content.take (s.upto * chunkSize) ++ piece content k =
      content.take ((s.upto + 1) * chunkSize) := by
    rw [hnext]
    exact take_piece content s.upto
  have hbytes : applyChunk (chunk content k) (piece content k) s.file =
      content.take ((s.upto + 1) * chunkSize) := by
    rw [applyChunk, if_neg hflag, hfile, Option.getD_some]
    exact hpiece
  simp only [State.apply, hbytes, if_neg hflag]

theorem PrefixInvariant.apply_current (hmany : ¬Single content)
    (h : PrefixInvariant content prior s) (hk : s.control = .send k) :
    PrefixInvariant content prior
      { s.apply content ⟨s.attempt, k⟩ with
        control := if isLast content k then .returned else .send (k + 1) } := by
  rcases h.sending k hk with ⟨hothers, ⟨rfl, hfirst⟩ | ⟨htwo, hnext, hfirst⟩⟩
  · rw [apply_first hmany, not_last_one hmany]
    exact {
      current := Nat.le_refl _
      unwritten := fun hzero => absurd hzero h.started
      written := fun _ => rfl
      begun := h.begun
      ahead := fun put hput hlt => absurd hlt (Nat.lt_asymm (hothers put hput))
      next := fun put hput heq => absurd heq (Nat.ne_of_lt (hothers put hput))
      distinct := h.distinct
      started := h.started
      sending := fun j hj => by
        cases hj
        exact ⟨hothers, Or.inr ⟨Nat.le_refl 2, rfl, rfl⟩⟩
      returned := fun hret => by cases hret }
  · have hwritten := h.written (by rw [hfirst]; exact h.started)
    rw [apply_next hmany s.attempt (by omega) hnext hwritten]
    exact {
      current := h.current
      unwritten := fun hzero => absurd (hfirst.symm.trans hzero) h.started
      written := fun _ => rfl
      begun := h.begun
      ahead := h.ahead
      next := fun put hput heq =>
        absurd (heq.trans hfirst) (Nat.ne_of_lt (hothers put hput))
      distinct := h.distinct
      started := h.started
      sending := fun j hj => by
        cases hlast : isLast content k with
        | true =>
            rw [hlast] at hj
            cases hj
        | false =>
            rw [hlast] at hj
            cases hj
            exact ⟨hothers, Or.inr ⟨by omega, by rw [hnext], hfirst⟩⟩
      returned := fun hret => by
        cases hlast : isLast content k with
        | true =>
            rw [hnext] at hlast
            exact congrArg some (take_last hlast)
        | false =>
            rw [hlast] at hret
            cases hret }

theorem eraseIdx_distinct {flight : List Put} (hdistinct : (flight.map Put.attempt).Nodup)
    {i : Nat} {put other : Put} (hput : flight[i]? = some put)
    (hother : other ∈ flight.eraseIdx i) : other.attempt ≠ put.attempt := by
  rcases List.mem_eraseIdx_iff_getElem?.mp hother with ⟨j, hne, hj⟩
  intro heq
  have hsame : (flight.map Put.attempt)[j]? = (flight.map Put.attempt)[i]? := by
    simp [hj, hput, heq]
  have hlt : j < (flight.map Put.attempt).length := by
    rw [List.length_map]
    exact (List.getElem?_eq_some_iff.mp hj).1
  exact hne ((List.getElem?_inj hlt hdistinct).mp hsame)

theorem PrefixInvariant.apply_late (hmany : ¬Single content)
    (h : PrefixInvariant content prior s) {i : Nat} {put : Put}
    (hput : s.flight[i]? = some put) (hrunning : s.control ≠ .returned)
    (hfirst : s.first ≤ put.attempt) :
    PrefixInvariant content prior
      { s.apply content put with flight := s.flight.eraseIdx i } := by
  have hmem : put ∈ s.flight := List.mem_of_getElem? hput
  have hrest : forall other, other ∈ s.flight.eraseIdx i -> other ∈ s.flight :=
    fun _ hother => List.eraseIdx_subset hother
  have hothers : forall other, other ∈ s.flight.eraseIdx i ->
      other.attempt ≠ put.attempt :=
    fun _ hother => eraseIdx_distinct h.distinct hput hother
  have hdistinct : ((s.flight.eraseIdx i).map Put.attempt).Nodup :=
    (List.Sublist.map _ (List.eraseIdx_sublist s.flight i)).nodup h.distinct
  rcases put with ⟨attempt, index⟩
  by_cases hindex : index = 1
  · subst hindex
    rw [apply_first hmany]
    exact {
      current := (h.begun _ hmem).left
      unwritten := fun hzero => absurd hzero (h.begun _ hmem).right
      written := fun _ => rfl
      begun := fun other hother => h.begun other (hrest other hother)
      ahead := fun other hother hlt =>
        h.ahead other (hrest other hother) (Nat.lt_of_le_of_lt hfirst hlt)
      next := fun other hother heq => absurd heq (hothers other hother)
      distinct := hdistinct
      started := h.started
      sending := fun j hj => by
        rcases h.sending j hj with ⟨hbefore, hplace⟩
        refine ⟨fun other hother => hbefore other (hrest other hother), ?_⟩
        have hlt : attempt < s.attempt := hbefore _ hmem
        rcases hplace with ⟨hone, _⟩ | ⟨_, _, heq⟩
        · exact Or.inl ⟨hone, hlt⟩
        · exact absurd hfirst (by rw [heq]; exact Nat.not_le.mpr hlt)
      returned := fun hret => absurd hret hrunning }
  · have hsame : attempt = s.first := by
      rcases Nat.lt_or_eq_of_le hfirst with hlt | heq
      · exact absurd (h.ahead _ hmem hlt) hindex
      · exact heq.symm
    have hzero : s.first ≠ 0 := by
      rw [← hsame]
      exact (h.begun _ hmem).right
    rw [apply_next hmany attempt hindex (h.next _ hmem hsame) (h.written hzero)]
    exact {
      current := h.current
      unwritten := fun hz => absurd hz hzero
      written := fun _ => rfl
      begun := fun other hother => h.begun other (hrest other hother)
      ahead := fun other hother => h.ahead other (hrest other hother)
      next := fun other hother heq =>
        absurd (heq.trans hsame.symm) (hothers other hother)
      distinct := hdistinct
      started := h.started
      sending := fun j hj => by
        rcases h.sending j hj with ⟨hbefore, hplace⟩
        refine ⟨fun other hother => hbefore other (hrest other hother), ?_⟩
        have hlt : attempt < s.attempt := hbefore _ hmem
        rcases hplace with hone | ⟨_, _, heq⟩
        · exact Or.inl hone
        · exact absurd (hsame.trans heq) (Nat.ne_of_lt hlt)
      returned := fun hret => absurd hret hrunning }

theorem prefix_preserved (hmany : ¬Single content) :
    (machine maxRetries content prior).Preserved (InOrder content prior)
      (PrefixInvariant content prior) := by
  intro s a next h hguard hstep
  cases step_moves hstep with
  | applied k hk => exact h.apply_current hmany hk
  | timedOut k hk =>
      rcases h.sending k hk with ⟨hothers, hplace⟩
      refine { h with
        begun := ?_, ahead := ?_, next := ?_, distinct := ?_
        sending := fun j hj => by cases hj
        returned := fun hret => by cases hret }
      · intro put hput
        rcases List.mem_cons.mp hput with rfl | hput
        · exact ⟨Nat.le_refl _, h.started⟩
        · exact h.begun put hput
      · intro put hput hlt
        rcases List.mem_cons.mp hput with rfl | hput
        · rcases hplace with ⟨hone, _⟩ | ⟨_, _, heq⟩
          · exact hone
          · exact absurd hlt (by simp [heq])
        · exact h.ahead put hput hlt
      · intro put hput heq
        rcases List.mem_cons.mp hput with rfl | hput
        · rcases hplace with ⟨_, hlt⟩ | ⟨_, hnext, _⟩
          · exact absurd heq (Nat.ne_of_gt hlt)
          · exact hnext
        · exact h.next put hput heq
      · refine List.nodup_cons.mpr ⟨fun hmem => ?_, h.distinct⟩
        rcases List.mem_map.mp hmem with ⟨put, hput, heq⟩
        exact absurd heq (Nat.ne_of_lt (hothers put hput))
  | refresh => exact { h.stop .refresh (by simp) (by simp) with }
  | retried _ transient => exact h.retry transient
  | again => exact h.again
  | raised => exact h.stop .raised (by simp) (by simp)
  | returned reply hsize =>
      refine h.stop .returned (by simp) fun _ => ?_
      rcases confirmSize_true hsize with ⟨bytes, hfile, hlength⟩
      by_cases hzero : s.first = 0
      · rcases hguard hsize with hwritten | hprior
        · exact absurd hzero hwritten
        · exact (h.unwritten hzero).trans hprior
      · have hinitial := h.written hzero
        rw [hfile] at hinitial
        cases hinitial
        rw [hfile]
        rw [List.length_take] at hlength
        rw [List.take_of_length_le (by omega)]
  | late i put hput =>
      rcases hguard with hsingle | ⟨hrunning, hfirst⟩
      · exact absurd hsingle hmany
      · exact h.apply_late hmany hput hrunning (hfirst put hput)

/-!
## A successful upload
-/

/-- Once the upload has returned, the remote file is the local one. -/
def Faithful (content : Bytes) (s : State) : Prop :=
  s.control = .returned -> s.file = some content

/-- In every run in which the server applies what it applies late in order, and no size is
confirmed of a file that was not written, a successful upload means the bytes are there. -/
theorem upload_faithful (maxRetries : Nat) (content : Bytes) (prior : Option Bytes)
    {s : State}
    (hreach : (machine maxRetries content prior).Reaches (InOrder content prior) s) :
    Faithful content s := by
  by_cases hsingle : Single content
  · have hinv : WholeInvariant content prior s :=
      Machine.reaches_invariant (fun s hs => by
        rw [hs]
        exact {
          started := Nat.one_ne_zero
          flight := fun put hput => False.elim (List.not_mem_nil hput)
          sending := fun k hk => by
            cases hk
            rfl
          unwritten := fun _ => rfl
          written := fun hne => absurd rfl hne
          returned := fun hret => by cases hret })
        (whole_preserved hsingle) hreach
    exact hinv.returned
  · have hinv : PrefixInvariant content prior s :=
      Machine.reaches_invariant (fun s hs => by
        rw [hs]
        exact {
          current := Nat.zero_le 1
          unwritten := fun _ => rfl
          written := fun hne => absurd rfl hne
          begun := fun put hput => False.elim (List.not_mem_nil hput)
          ahead := fun put hput => False.elim (List.not_mem_nil hput)
          next := fun put hput => False.elim (List.not_mem_nil hput)
          distinct := List.nodup_nil
          started := Nat.one_ne_zero
          sending := fun k hk => by
            cases hk
            exact ⟨fun put hput => False.elim (List.not_mem_nil hput),
              Or.inl ⟨rfl, Nat.one_pos⟩⟩
          returned := fun hret => by cases hret })
        (prefix_preserved hsingle) hreach
    exact hinv.returned

/-- A request that times out, is applied, and whose size is then confirmed. -/
theorem upload_faithful_late :
    exists s, (machine 2 [7] (some [1, 2])).Reaches (InOrder [7] (some [1, 2])) s ∧
      s.control = .returned ∧ Faithful [7] s := by
  let run : List Action := [.timedOut, .late 0, .confirmed .answered]
  have hguard : (machine 2 [7] (some [1, 2])).Guarded (InOrder [7] (some [1, 2]))
      { file := some [1, 2] } run := by
    refine ⟨trivial, fun s1 h1 => ⟨Or.inl (by decide), fun s2 h2 => ⟨fun _ => ?_, fun _ _ =>
      trivial⟩⟩⟩
    cases h1
    cases h2
    exact Or.inl Nat.one_ne_zero
  have hreach : (machine 2 [7] (some [1, 2])).Reaches (InOrder [7] (some [1, 2]))
      (((machine 2 [7] (some [1, 2])).exec { file := some [1, 2] } run).get rfl) :=
    ⟨_, run, rfl, hguard, rfl⟩
  exact ⟨_, hreach, rfl, upload_faithful 2 [7] (some [1, 2]) hreach⟩

/-- The request times out and is never applied; the file from before has the same size. -/
theorem upload_not_faithful :
    exists s, (machine 2 [7] (some [9])).Reaches Machine.Free s ∧
      s.control = .returned ∧ s.file = some [9] ∧ ¬Faithful [7] s := by
  let run : List Action := [.timedOut, .confirmed .answered]
  refine ⟨((machine 2 [7] (some [9])).exec { file := some [9] } run).get rfl,
    ⟨_, run, rfl, Machine.guarded_free _ run _, rfl⟩, rfl, rfl, fun hfaithful => ?_⟩
  have hfile := hfaithful rfl
  cases hfile

/-- The second of two requests times out and is sent again; the server applies it late
after the new first one, so its bytes are in the file twice. -/
theorem upload_appends_twice (content : Bytes) (prior : Option Bytes)
    (hmany : ¬Single content) (htwo : content.length ≤ 2 * chunkSize) :
    exists s, (machine 1 content prior).Reaches Machine.Free s ∧ s.control = .returned ∧
      s.file = some (content ++ piece content 2) := by
  let half : Bytes := content.take (1 * chunkSize)
  have hlast : isLast content 2 = true := decide_eq_true htwo
  have hhalf : half ++ piece content 2 = content := by
    rw [show half ++ piece content 2 = content.take (2 * chunkSize) from take_piece content 1]
    exact take_last hlast
  have hshort : half.length ≠ content.length := by
    have hlong : ¬content.length ≤ chunkSize := hmany
    simp only [half, List.length_take, Nat.one_mul]
    omega
  have hflag : chunk content 2 ≠ 1 := fun h => by
    cases (chunk_eq_one_iff hmany 2).mp h
  let begun : State := { file := some half, control := .send 2, first := 1, upto := 1 }
  let lost : State := { begun with flight := [⟨1, 2⟩], control := .confirm }
  let retried : State :=
    { lost with attempt := 2, control := .send 1, transientRetries := 1 }
  let again : State := { retried with control := .send 2, first := 2, upto := 1 }
  let whole : State := { again with file := some content, flight := [], upto := 2 }
  let final : State :=
    { whole with file := some (content ++ piece content 2), control := .returned, upto := 3 }
  have h1 : (machine 1 content prior).step { file := prior } .answered = some begun := by
    simp [machine, step, sendStep, apply_first hmany, not_last_one hmany, begun, half]
  have h2 : (machine 1 content prior).step begun .timedOut = some lost := rfl
  have h3 : (machine 1 content prior).step lost (.confirmed .answered) = some retried := by
    simp [machine, step, confirmSize, lost, begun, hshort, State.retry, State.again, retried]
  have h4 : (machine 1 content prior).step retried .answered = some again := by
    simp [machine, step, sendStep, apply_first hmany, not_last_one hmany, retried, lost,
      begun, again, half]
  have h5 : (machine 1 content prior).step again (.late 0) = some whole := by
    simp [machine, step, State.apply, hflag, applyChunk, again, retried, lost, begun, whole,
      hhalf]
  have h6 : (machine 1 content prior).step whole .answered = some final := by
    simp [machine, step, sendStep, State.apply, hflag, applyChunk, hlast, whole, again,
      retried, lost, begun, final]
  let run : List Action :=
    [.answered, .timedOut, .confirmed .answered, .answered, .late 0, .answered]
  refine ⟨final, ⟨{ file := prior }, run, rfl, Machine.guarded_free _ run _, ?_⟩, rfl, rfl⟩
  simp only [run, Machine.exec, h1, h2, h3, h4, h5, h6]

end Upload
end Job
end MightyColab
