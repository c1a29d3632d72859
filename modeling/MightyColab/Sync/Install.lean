import MightyColab.Sync.Unpacking

/-!
# All or nothing

However the steps of the extract script fail, what it leaves at the destination is what was
there or the payload of the archive, unless a link could not be made: `tarfile` goes on then,
and so does the script.
-/

namespace MightyColab
namespace Sync

open Lib
open Node (at? alter isDir)
open Prog

variable {data result : Type}

def Args.path (a : Args) : List String := a.absPath a.destination

def Args.archive (a : Args) : List String := a.contentRoot ++ [a.archiveName]

def Args.payload (a : Args) (w : World data) (disk : Option (Node data)) :
    Option (Node data) :=
  match at? a.archive disk with
  | some (.file content) =>
      match w.getmembers content with
      | .ok members =>
          match unpacked w.budget members members (some (.dir [])) with
          | .ok t => at? ["payload"] t
          | .error _ => none
      | .error _ => none
  | _ => none

/-- The operation's names are its own: `sync` draws the identifier in both of them, a
`uuid4`, after the destination was named. -/
structure Args.Fresh (a : Args) : Prop where
  stage : a.stageName ∉ a.parts
  archive : a.archiveName ∉ a.parts
  distinct : a.stageName ≠ a.archiveName

/-!
## Paths
-/

theorem relPath_inside {start path : List String}
    (h : (relPath start path).head? ≠ some "..") : path = start ++ relPath start path := by
  induction start generalizing path with
  | nil => cases path <;> rfl
  | cons s start ih =>
      cases path with
      | nil => exact absurd rfl h
      | cons p path =>
          by_cases hs : s = p
          · have hrel : relPath (s :: start) (p :: path) = relPath start path := if_pos hs
            rw [hrel] at h ⊢
            rw [List.cons_append, ← ih h, hs]
          · have hrel : relPath (s :: start) (p :: path) =
                List.replicate (start.length + 1) ".." ++ p :: path := if_neg hs
            rw [hrel] at h
            exact absurd rfl h

theorem destinationParts_ok {a : Args} {parts : List String} {basename : String}
    (h : destinationParts a = .ok (parts, basename)) :
    a.path = a.contentRoot ++ parts ++ [basename] ∧ a.parts = parts ++ [basename] := by
  unfold destinationParts at h
  split at h
  · cases h
  · next hhead =>
      cases hlast : a.parts.getLast? with
      | none =>
          rw [hlast] at h
          cases h
      | some last =>
          rw [hlast] at h
          simp only at h
          split at h
          · cases h
          · cases h
            have hparts := List.dropLast_append_getLast? _ hlast
            refine ⟨?_, hparts.symm⟩
            rw [List.append_assoc, hparts]
            exact relPath_inside hhead

def Args.OnWay (a : Args) (p : List String) : Prop :=
  exists name rest, a.path = p ++ name :: rest ∧ name ∈ a.parts

/-- What a directory on the way holds under another name is apart from the destination. -/
theorem Args.OnWay.apart {a : Args} {p : List String} (hp : a.OnWay p) {other : String}
    (h : other ∉ a.parts) : Node.Apart (p ++ [other]) a.path := by
  rcases hp with ⟨name, rest, hpath, hname⟩
  rw [hpath]
  have hne : other ≠ name := fun heq => h (heq ▸ hname)
  exact Node.apart_siblings p hne [] rest

theorem Args.Fresh.archive_apart {a : Args} (h : a.Fresh) {name : String}
    {rest : List String} (hname : name ∈ a.parts) :
    Node.Apart (a.contentRoot ++ name :: rest) a.archive := by
  have hne : name ≠ a.archiveName := fun heq => h.archive (heq ▸ hname)
  exact Node.apart_siblings a.contentRoot hne rest []

/-!
## Single steps
-/

section Steps

variable {w : World data} {inv : State data -> Prop}

theorem call_exits {pre bad : State data -> Prop} {m : result -> State data -> Prop}
    {step : FileStep} {work : Option (List String)}
    {op : Option (Node data) -> Except Exc (result × Option (Node data))}
    (hlook : forall s e, pre s -> bad (s.left step s.disk e))
    (hop : forall s value disk e, pre s -> op s.disk = .ok (value, disk) ->
      m value (s.left step disk e))
    (hpart : forall s p rest e, pre s -> work = some p ->
      bad (s.left step (alter (fun _ => rest) p s.disk) e))
    (hgood : forall value s, m value s -> bad s) :
    Triple pre (call w step work op) (Exits bad m) :=
  Ends.exits (c := fun _ => bad)
    (call_ends (fun s _ hs => hlook s _ hs) (fun s value disk hs hok => hop s value disk _ hs hok)
      (fun s value disk _ hs hok => hgood value _ (hop s value disk _ hs hok))
      fun s p rest _ hs hp => hpart s p rest _ hs hp) fun _ _ h => h

theorem call_keeps {step : FileStep} {work : Option (List String)}
    {op : Option (Node data) -> Except Exc (result × Option (Node data))}
    (hlook : forall s e, inv s -> inv (s.left step s.disk e))
    (hop : forall s value disk e, inv s -> op s.disk = .ok (value, disk) ->
      inv (s.left step disk e))
    (hpart : forall s p rest e, inv s -> work = some p ->
      inv (s.left step (alter (fun _ => rest) p s.disk) e)) :
    Keeps inv (call w step work op) := by
  intro s hs
  have hends := call_exits (w := w) (m := fun _ => inv) hlook hop hpart (fun _ _ h => h) s hs
  rcases hrun : call w step work op s with ⟨o, t⟩
  rw [hrun] at hends
  cases o <;> exact hends

theorem look_keeps {step : FileStep} {ask : Option (Node data) -> Except Exc result}
    (hlook : forall s e, inv s -> inv (s.left step s.disk e)) : Keeps inv (look w step ask) := by
  refine call_keeps hlook (fun s value disk e hs hok => ?_) fun s p rest e _ hp => (by cases hp)
  rcases look_ok hok with ⟨_, rfl⟩
  exact hlook s e hs

theorem asking_keeps {step : FileStep} {ask : Option (Node data) -> Bool}
    (hlook : forall s e, inv s -> inv (s.left step s.disk e)) :
    Keeps inv (asking w step ask) := by
  intro s hs
  unfold asking
  split
  · split
    · exact hlook s _ hs
    · exact hlook s _ hs
  · exact hlook s _ hs

theorem catching_keeps {kind : Kind} {value : result} {p : Script data result}
    (hp : Keeps inv p) : Keeps inv (catching kind value p) :=
  fun s hs => Keeps.after_attempt (hp s hs) fun e => by
    by_cases he : e.kind = kind
    · rw [if_pos he]
      exact Keeps.pure value
    · rw [if_neg he]
      exact Keeps.raise e

theorem unlink_keeps {parent : List String} {name : String}
    (hlook : forall s step e, inv s -> inv (s.left step s.disk e))
    (halter : forall s step f e, inv s ->
      inv (s.left step (alter f (parent ++ [name]) s.disk) e)) :
    Keeps inv (unlink w parent name) := by
  refine call_keeps (fun s e hs => hlook s _ e hs) (fun s value disk e hs hok => ?_)
    fun s p rest e _ hp => (by cases hp)
  split at hok
  · cases hok
  · cases hok
  · cases hok
    exact halter s _ _ e hs

theorem removeEntry_keeps {parent : List String} {name : String}
    (hlook : forall s step e, inv s -> inv (s.left step s.disk e))
    (halter : forall s step f e, inv s ->
      inv (s.left step (alter f (parent ++ [name]) s.disk) e)) :
    Keeps inv (removeEntry w parent name) := by
  refine fun s hs => Keeps.after_bind (catching_keeps (fun s hs => ?_) s hs) fun found => ?_
  · exact Keeps.after_bind (look_keeps (fun s e hs => hlook s _ e hs) s hs) fun n => Keeps.pure _
  · match found with
    | none => exact Keeps.pure _
    | some (.dir _) =>
        refine call_keeps (fun s e hs => hlook s _ e hs) (fun s value disk e hs hok => ?_)
          fun s p rest e hs hp => ?_
        · split at hok
          · cases hok
            exact halter s _ _ e hs
          · cases hok
          · cases hok
        · cases hp
          exact halter s _ _ e hs
    | some (.file _) => exact unlink_keeps hlook halter
    | some (.link _) => exact unlink_keeps hlook halter

theorem look_exits {bad : State data -> Prop} {step : FileStep}
    {ask : Option (Node data) -> Except Exc result}
    (hlook : forall s e, inv s -> inv (s.left step s.disk e)) (hbad : forall s, inv s -> bad s) :
    Triple inv (look w step ask) (Exits bad fun value s => inv s ∧ ask s.disk = .ok value) := by
  refine call_exits (fun s e hs => hbad _ (hlook s e hs)) (fun s value disk e hs hok => ?_)
    (fun s p rest e _ hp => (by cases hp)) fun _ s hs => hbad s hs.1
  rcases look_ok hok with ⟨hask, rfl⟩
  exact ⟨hlook s e hs, hask⟩

theorem orRaise_exits {bad : State data -> Prop} (value : Except Exc result)
    (hbad : forall s, inv s -> bad s) :
    Triple inv (orRaise value : Script data result)
      (Exits bad fun found s => inv s ∧ value = .ok found) := by
  cases value with
  | ok found => exact fun s hs => ⟨hs, rfl⟩
  | error e => exact fun s hs => hbad s hs

theorem assign_exits {bad : State data -> Prop} {pre post : State data -> Prop} (f : Vars -> Vars)
    (h : forall s, pre s -> post { s with vars := f s.vars }) :
    Triple pre (assign f : Script data PUnit) (Exits bad fun _ => post) := h

end Steps

/-!
## Up to the exchange
-/

section Run

variable (w : World data) (a : Args) (disk0 : Option (Node data))

structure Fds (v : Vars) : Prop where
  root : forall r, v.rootFd = some r -> r = a.contentRoot ∧ a.OnWay r
  parent : forall p, v.parentFd = some p -> a.OnWay p

structure Ready (s : State data) : Prop where
  dest : at? a.path s.disk = at? a.path disk0
  archive : at? a.archive s.disk = at? a.archive disk0
  fds : Fds a s.vars
  silent : s.printed = []

structure Inside (parent : List String) (s : State data) : Prop extends Ready a disk0 s where
  opened : s.vars.parentFd = some parent
  there : isDir (at? parent s.disk) = true

structure Staged (parent : List String) (n : Node data) (s : State data) : Prop
    extends Inside a disk0 parent s where
  stage : at? (parent ++ [a.stageName]) s.disk = some n

structure Unpacked (parent : List String) (s : State data) : Prop
    extends Inside a disk0 parent s where
  payload : LinksMade s -> forall n,
    at? (parent ++ [a.stageName] ++ ["payload"]) s.disk = some n -> a.payload w disk0 = some n

/-- The destination has one tree, the archive's payload if the links were made. -/
def Delivered (s : State data) : Prop :=
  exists n, at? a.path s.disk = some n ∧ (LinksMade s -> a.payload w disk0 = some n)

structure Installed (s : State data) : Prop where
  dest : Delivered w a disk0 s
  traced : FileStep.exchange ∈ s.trace ∨ FileStep.rename ∈ s.trace
  fds : Fds a s.vars
  silent : s.printed = []

def Whole (s : State data) : Prop := Ready a disk0 s ∨ Installed w a disk0 s

variable {w a disk0}

theorem Ready.left {s : State data} (h : Ready a disk0 s) (step : FileStep)
    (raised : Option Exc) : Ready a disk0 (s.left step s.disk raised) :=
  ⟨h.dest, h.archive, h.fds, h.silent⟩

theorem Inside.left {parent : List String} {s : State data} (h : Inside a disk0 parent s)
    (step : FileStep) (raised : Option Exc) :
    Inside a disk0 parent (s.left step s.disk raised) :=
  ⟨h.toReady.left step raised, h.opened, h.there⟩

theorem Staged.left {parent : List String} {n : Node data} {s : State data}
    (h : Staged a disk0 parent n s) (step : FileStep) (raised : Option Exc) :
    Staged a disk0 parent n (s.left step s.disk raised) :=
  ⟨h.toInside.left step raised, h.stage⟩

theorem Unpacked.left {parent : List String} {s : State data}
    (h : Unpacked w a disk0 parent s) (step : FileStep) (raised : Option Exc) :
    Unpacked w a disk0 parent (s.left step s.disk raised) :=
  ⟨h.toInside.left step raised, fun hmade => h.payload hmade.before⟩

theorem Ready.whole {s : State data} (h : Ready a disk0 s) : Whole w a disk0 s := Or.inl h

/-- Where the destination and the archive are apart from what is altered, both stay. -/
theorem Ready.alter {s : State data} (h : Ready a disk0 s) {p : List String}
    (hdest : Node.Apart p a.path) (harchive : Node.Apart p a.archive)
    (f : Option (Node data) -> Option (Node data)) (step : FileStep) (raised : Option Exc) :
    Ready a disk0 (s.left step (alter f p s.disk) raised) where
  dest := (Node.at?_alter_apart hdest s.disk).trans h.dest
  archive := (Node.at?_alter_apart harchive s.disk).trans h.archive
  fds := h.fds
  silent := h.silent

theorem Inside.alter {parent : List String} {s : State data} (h : Inside a disk0 parent s)
    {name : String} (hdest : Node.Apart (parent ++ [name]) a.path)
    (harchive : Node.Apart (parent ++ [name]) a.archive)
    (f : Option (Node data) -> Option (Node data)) (step : FileStep) (raised : Option Exc) :
    Inside a disk0 parent (s.left step (Node.alter f (parent ++ [name]) s.disk) raised) where
  toReady := h.toReady.alter hdest harchive f step raised
  opened := h.opened
  there := Node.isDir_alter (List.cons_ne_nil _ _) h.there

/-!
### The way to the destination
-/

structure Reached (a : Args) (parent rest : List String) : Prop where
  path : exists basename, a.path = parent ++ rest ++ [basename] ∧ basename ∈ a.parts
  below : exists done, parent = a.contentRoot ++ done ∧ forall name, name ∈ done -> name ∈ a.parts
  names : forall name, name ∈ rest -> name ∈ a.parts

theorem Reached.onWay {parent rest : List String} (h : Reached a parent rest) :
    a.OnWay parent := by
  rcases h.path with ⟨basename, hpath, hname⟩
  cases rest with
  | nil => exact ⟨basename, [], by rw [hpath, List.append_nil], hname⟩
  | cons part rest =>
      refine ⟨part, rest ++ [basename], ?_, h.names part List.mem_cons_self⟩
      rw [hpath, List.append_assoc, List.cons_append]

theorem Reached.next {parent rest : List String} {part : String}
    (h : Reached a parent (part :: rest)) : Reached a (parent ++ [part]) rest where
  path := by
    rcases h.path with ⟨basename, hpath, hname⟩
    refine ⟨basename, ?_, hname⟩
    rw [hpath, List.append_assoc parent [part], List.singleton_append]
  below := by
    rcases h.below with ⟨done, hparent, hdone⟩
    refine ⟨done ++ [part], by rw [hparent, List.append_assoc], fun name hname => ?_⟩
    rcases List.mem_append.mp hname with hname | hname
    · exact hdone name hname
    · exact List.mem_singleton.mp hname ▸ h.names part List.mem_cons_self
  names name hname := h.names name (List.mem_cons_of_mem part hname)

theorem Reached.last {parent rest : List String} (h : Reached a parent rest) :
    Reached a (parent ++ rest) [] := by
  induction rest generalizing parent with
  | nil => rwa [List.append_nil]
  | cons part rest ih =>
      have hnext := ih h.next
      rwa [List.append_assoc, List.singleton_append] at hnext

/-- What is next to the destination under one of its names, or under the stage's, is apart
from the archive. -/
theorem Reached.archive_apart {parent rest : List String} (h : Reached a parent rest)
    (hfresh : a.Fresh) {name : String} (hname : name ≠ a.archiveName) :
    Node.Apart (parent ++ [name]) a.archive := by
  rcases h.below with ⟨done, hparent, hdone⟩
  cases done with
  | nil =>
      rw [hparent, List.append_nil]
      exact Node.apart_siblings a.contentRoot hname [] []
  | cons first between =>
      rw [hparent, List.append_assoc, List.cons_append]
      exact hfresh.archive_apart (hdone first List.mem_cons_self)

theorem openDirectory_exits {inv : State data -> Prop} {bad : State data -> Prop}
    (path : List String) (hlook : forall s step e, inv s -> inv (s.left step s.disk e))
    (hbad : forall s, inv s -> bad s) :
    Triple inv (openDirectory w path) (Exits bad fun found s =>
      inv s ∧ found = path ∧ isDir (at? path s.disk) = true) := by
  refine Exits.weaken (look_exits (fun s e hs => hlook s _ e hs) hbad) fun found s hs => ?_
  refine ⟨hs.1, ?_⟩
  have hask := hs.2
  split at hask
  · next hdir =>
      cases hask
      exact ⟨rfl, by rw [hdir]; rfl⟩
  · cases hask
  · cases hask

/-- A directory that is missing on the way is made where nothing of the destination was. -/
theorem mkdir_keeps {parent rest : List String} {part : String}
    (hreached : Reached a parent (part :: rest)) (hfresh : a.Fresh) :
    Keeps (Inside a disk0 parent) (mkdir w parent part) := by
  refine call_keeps (fun s e hs => hs.left _ e) (fun s value disk e hs hok => ?_)
    fun s p rest e _ hp => (by cases hp)
  split at hok
  · cases hok
  · split at hok
    · cases hok
    · next hnone =>
        cases hok
        have hpart : part ≠ a.archiveName := fun heq =>
          hfresh.archive (heq ▸ hreached.names part List.mem_cons_self)
        have hmissing : at? (parent ++ [part]) s.disk = none := by
          simpa using hnone
        rcases hreached.path with ⟨basename, hpath, _⟩
        have hsplit : a.path = parent ++ part :: (rest ++ [basename]) := by
          rw [hpath, List.append_assoc, List.cons_append]
        have hold : at? a.path s.disk = none := by
          rw [hsplit, List.append_cons, Node.at?_append, hmissing, Node.at?_none]
        have hnew : at? a.path
            (alter (fun _ => some (.dir [])) (parent ++ [part]) s.disk) = none := by
          rw [hsplit, Node.at?_alter_below hs.there]
          cases rest with
          | nil => rfl
          | cons next rest => exact Node.at?_none _
        exact
          { dest := by rw [← hs.dest, hold]; exact hnew
            archive := (Node.at?_alter_apart (hreached.archive_apart hfresh hpart) _).trans
              hs.archive
            fds := hs.fds
            silent := hs.silent
            opened := hs.opened
            there := Node.isDir_alter (List.cons_ne_nil _ _) hs.there }

theorem enterPart_exits {parent rest : List String} {part : String}
    (hreached : Reached a parent (part :: rest)) (hfresh : a.Fresh) :
    Triple (Inside a disk0 parent) (enterPart w parent part) (Exits (Whole w a disk0)
      fun next s => Inside a disk0 parent s ∧ next = parent ++ [part] ∧
        isDir (at? next s.disk) = true) := by
  have hwhole : forall s : State data, Inside a disk0 parent s -> Whole w a disk0 s :=
    fun s hs => hs.toReady.whole
  have hopened : forall {bad : State data -> Prop},
      (forall s, Inside a disk0 parent s -> bad s) ->
        Triple (Inside a disk0 parent) (openDirectory w (parent ++ [part])) (Exits bad
          fun next s => Inside a disk0 parent s ∧ next = parent ++ [part] ∧
            isDir (at? next s.disk) = true) := by
    intro bad hbad
    refine Exits.weaken (openDirectory_exits _ (fun s step e hs => hs.left step e) hbad) ?_
    rintro _ s ⟨hs, rfl, hdir⟩
    exact ⟨hs, rfl, hdir⟩
  refine Exits.attempt (hopened fun _ hs => hs) (fun e => ?_) hwhole
  split
  · refine Exits.bind (Keeps.exits (catching_keeps (mkdir_keeps hreached hfresh)) hwhole) ?_
    exact fun _ => hopened hwhole
  · split <;> exact Exits.raise hwhole _

theorem walkParts_exits (hfresh : a.Fresh) {rest : List String} : forall {parent : List String},
    Reached a parent rest ->
    Triple (Inside a disk0 parent) (walkParts w parent rest) (Exits (Whole w a disk0)
      fun found s => Inside a disk0 found s ∧ found = parent ++ rest) := by
  induction rest with
  | nil =>
      intro parent _ s hs
      exact ⟨hs, (List.append_nil parent).symm⟩
  | cons part rest ih =>
      intro parent hreached
      refine Exits.bind (enterPart_exits hreached hfresh) fun next => ?_
      refine Exits.bind (m := fun _ s => Inside a disk0 parent s ∧ next = parent ++ [part] ∧
          isDir (at? next s.disk) = true)
        (Keeps.exits (look_keeps fun s e hs => ⟨hs.1.left _ e, hs.2⟩) fun s hs => hs.1.whole)
        fun _ => ?_
      refine Exits.bind (m := fun _ s => Inside a disk0 next s ∧ next = parent ++ [part])
        (assign_exits _ ?_) fun _ => ?_
      · rintro s ⟨hs, rfl, hdir⟩
        refine ⟨⟨⟨hs.dest, hs.archive, ⟨hs.fds.root, ?_⟩, hs.silent⟩, rfl, hdir⟩, rfl⟩
        intro p hp
        cases hp
        exact hreached.next.onWay
      · rintro s ⟨hs, rfl⟩
        have hrest := ih hreached.next s hs
        rwa [List.append_assoc, List.singleton_append] at hrest

/-!
### The stage
-/

theorem makeStage_exits (hfresh : a.Fresh) {parent : List String}
    (hreached : Reached a parent []) :
    Triple (Inside a disk0 parent) (makeStage w parent a) (Exits (Whole w a disk0)
      fun stage s => Staged a disk0 parent (.dir []) s ∧ stage = parent ++ [a.stageName]) := by
  have hdest := hreached.onWay.apart hfresh.stage
  have harchive := hreached.archive_apart hfresh hfresh.distinct
  have hstaged : forall s : State data,
      Staged a disk0 parent (.dir []) s -> Whole w a disk0 s := fun s hs => hs.toReady.whole
  refine Exits.bind (m := fun _ => Inside a disk0 parent)
    (Keeps.exits (removeEntry_keeps (fun s step e hs => hs.left step e)
      fun s step f e hs => hs.alter hdest harchive f step e) fun s hs => hs.whole) fun _ => ?_
  refine Exits.bind (m := fun _ => Staged a disk0 parent (.dir []))
    (call_exits (fun s e hs => (hs.left _ e).whole) (fun s value disk e hs hok => ?_)
      (fun s p rest e _ hp => (by cases hp)) fun _ => hstaged) fun _ => ?_
  · split at hok
    · cases hok
    · split at hok
      · cases hok
      · cases hok
        exact ⟨hs.alter hdest harchive _ _ e, Node.at?_alter_self hs.there⟩
  refine Exits.bind (m := fun stage s => Staged a disk0 parent (.dir []) s ∧
      stage = parent ++ [a.stageName])
    (Exits.weaken (openDirectory_exits _ (fun s step e hs => hs.left step e) hstaged)
      fun stage s hs => ⟨hs.1, hs.2.1⟩) fun stage => ?_
  let kept : State data -> Prop := fun s =>
    Staged a disk0 parent (.dir []) s ∧ stage = parent ++ [a.stageName]
  have hopen : Keeps kept (assertFdUnderContent w) :=
    look_keeps fun s e hs => ⟨hs.1.left _ e, hs.2⟩
  have hwhole : forall s, kept s -> Whole w a disk0 s := fun s hs => hs.1.whole
  refine Exits.bind (m := fun _ => kept) (assign_exits _ fun s hs => ?_) fun _ => ?_
  · exact ⟨⟨⟨⟨hs.1.dest, hs.1.archive, ⟨hs.1.fds.root, hs.1.fds.parent⟩, hs.1.silent⟩,
      hs.1.opened, hs.1.there⟩, hs.1.stage⟩, hs.2⟩
  · refine Exits.bind (hopen.exits hwhole) fun _ => ?_
    refine Exits.bind (hopen.exits hwhole) fun _ => ?_
    exact fun s hs => hs

theorem inside_confined {parent : List String} (hfresh : a.Fresh)
    (hreached : Reached a parent []) :
    Confined (Inside a disk0 parent) (parent ++ [a.stageName]) where
  looked _ step raised hs := hs.left step raised
  worked _ step f raised hs := hs.alter (hreached.onWay.apart hfresh.stage)
    (hreached.archive_apart hfresh hfresh.distinct) f step raised
  put _ _ hs := Node.at?_alter_self hs.there

theorem payload_unpacked {content : data} {members : List (TarInfo data)}
    (hcontent : at? a.archive disk0 = some (.file content))
    (hmembers : w.getmembers content = .ok members) {t : Option (Node data)}
    (ht : unpacked w.budget members members (some (.dir [])) = .ok t) :
    a.payload w disk0 = at? ["payload"] t := by
  unfold Args.payload
  rw [hcontent]
  simp only [hmembers, ht]

theorem unpack_exits (hfresh : a.Fresh) {parent : List String}
    (hreached : Reached a parent []) :
    Triple (Staged a disk0 parent (.dir []))
      (unpack w a.contentRoot (parent ++ [a.stageName]) a) (Exits (Whole w a disk0)
        fun _ => Unpacked w a disk0 parent) := by
  let staged : State data -> Prop := Staged a disk0 parent (.dir [])
  have hwhole : forall s : State data, staged s -> Whole w a disk0 s := fun s hs => hs.whole
  refine Exits.bind (m := fun content s => staged s ∧
      at? a.archive disk0 = some (.file content))
    (Exits.weaken (look_exits (fun s e hs => hs.left _ e) hwhole) fun content s hs => ?_)
    fun content => ?_
  · refine ⟨hs.1, ?_⟩
    rw [← hs.1.archive]
    have hask := hs.2
    unfold archiveData at hask
    split at hask
    · next hfile =>
        cases hask
        exact hfile
    · cases hask
    · cases hask
    · cases hask
  refine Exits.bind (m := fun members s => (staged s ∧
      at? a.archive disk0 = some (.file content)) ∧ w.getmembers content = .ok members)
    (look_exits (fun s e hs => ⟨hs.1.left _ e, hs.2⟩) fun s hs => hs.1.whole) fun members => ?_
  refine Exits.bind (Exits.weaken (orRaise_exits _ fun s hs => hs.1.1.whole)
    fun _ s hs => hs.1) fun _ => ?_
  intro s hs
  have hstart : Holds (Inside a disk0 parent) (parent ++ [a.stageName])
      (fun t => t = some (.dir [])) s := ⟨hs.1.1.toInside, fun _ => hs.1.1.stage⟩
  have hdone := extractall_exits (w := w) (inside_confined hfresh hreached) members s hstart
  rcases hrun : extractall w (parent ++ [a.stageName]) members s with ⟨o, t⟩
  rw [hrun] at hdone
  cases o with
  | raised e => exact hdone.toReady.whole
  | ended => exact hdone.toReady.whole
  | ok _ =>
      refine ⟨hdone.1, fun hmade n hn => ?_⟩
      rcases hdone.2 hmade with ⟨_, rfl, hunpacked⟩
      rw [payload_unpacked hs.1.2 hs.2 hunpacked, ← hn, Node.at?_append _ ["payload"]]

/-!
### The exchange
-/

theorem install_moved {parent : List String} {basename : String}
    (hpath : a.path = parent ++ [basename]) (hne : a.stageName ≠ basename)
    {s : State data} (hs : Unpacked w a disk0 parent s) {new : Node data}
    (hnew : at? (parent ++ [a.stageName] ++ ["payload"]) s.disk = some new)
    (f : Option (Node data) -> Option (Node data)) {step : FileStep} (raised : Option Exc)
    (hstep : step = .exchange ∨ step = .rename) :
    Installed w a disk0 (s.left step (alter f (parent ++ [a.stageName] ++ ["payload"])
      (alter (fun _ => some new) (parent ++ [basename]) s.disk)) raised) where
  dest := by
    refine ⟨new, ?_, fun hmade => hs.payload hmade.before new hnew⟩
    have hsplit : parent ++ [a.stageName] ++ ["payload"] =
        parent ++ a.stageName :: ["payload"] := by
      rw [List.append_assoc, List.singleton_append]
    have hapart : Node.Apart (parent ++ [a.stageName] ++ ["payload"]) a.path := by
      rw [hsplit, hpath]
      exact Node.apart_siblings parent hne ["payload"] []
    refine (Node.at?_alter_apart hapart _).trans ?_
    rw [hpath]
    exact Node.at?_alter_self hs.there
  traced := by
    rcases hstep with rfl | rfl
    · exact Or.inl (List.mem_append_right _ List.mem_cons_self)
    · exact Or.inr (List.mem_append_right _ List.mem_cons_self)
  fds := hs.fds
  silent := hs.silent

theorem install_exits {parent : List String} {basename : String}
    (hpath : a.path = parent ++ [basename]) (hne : a.stageName ≠ basename) :
    Triple (Unpacked w a disk0 parent)
      (install w parent (parent ++ [a.stageName]) basename) (Exits (Whole w a disk0)
        fun _ => Installed w a disk0) := by
  have hwhole : forall s : State data, Unpacked w a disk0 parent s -> Whole w a disk0 s :=
    fun s hs => hs.whole
  have hinstalled : forall s : State data, Installed w a disk0 s -> Whole w a disk0 s :=
    fun s hs => Or.inr hs
  have hlook : forall {result : Type} (step : FileStep)
      (ask : Option (Node data) -> Except Exc result),
      Triple (Unpacked w a disk0 parent) (look w step ask)
        (Exits (Whole w a disk0) fun _ => Unpacked w a disk0 parent) :=
    fun step ask => (look_keeps fun s e hs => hs.left step e).exits hwhole
  refine Exits.bind ((asking_keeps fun s e hs => hs.left _ e).exits hwhole) fun present => ?_
  split
  · exact Exits.raise hwhole _
  · refine Exits.bind (hlook .readlinks _) fun _ => ?_
    refine Exits.bind (hlook .underContent _) fun _ => ?_
    refine Exits.bind ((catching_keeps ?_).exits hwhole) fun found => ?_
    · exact fun s hs => Keeps.after_bind (look_keeps (fun s e hs => hs.left _ e) s hs)
        fun _ => Keeps.pure _
    · split
      · refine call_exits (fun s e hs => hwhole _ (hs.left _ e)) (fun s value disk e hs hok => ?_)
          (fun s p rest e _ hp => (by cases hp)) fun _ => hinstalled
        split at hok
        · cases hok
        · split at hok
          · next hnew _ =>
              cases hok
              exact install_moved hpath hne hs hnew _ e (Or.inl rfl)
          · cases hok
      · refine call_exits (fun s e hs => hwhole _ (hs.left _ e)) (fun s value disk e hs hok => ?_)
          (fun s p rest e _ hp => (by cases hp)) fun _ => hinstalled
        simp only at hok
        split at hok
        · cases hok
        · split at hok
          all_goals first
            | cases hok; done
            | next hnew _ =>
                cases hok
                exact install_moved hpath hne hs hnew _ e (Or.inr rfl)

theorem body_exits (hfresh : a.Fresh) :
    Triple (Ready a disk0) (body w a) (Exits (Whole w a disk0)
      fun _ => Installed w a disk0) := by
  have hwhole : forall s : State data, Ready a disk0 s -> Whole w a disk0 s :=
    fun s hs => hs.whole
  refine Exits.bind (m := fun found s => Ready a disk0 s ∧ destinationParts a = .ok found)
    (orRaise_exits _ hwhole) ?_
  rintro ⟨parts, basename⟩
  by_cases hparts : destinationParts a = .ok (parts, basename)
  case neg => exact fun s hs => absurd hs.2 hparts
  rcases destinationParts_ok hparts with ⟨hpath, hsplit⟩
  have hbasename : basename ∈ a.parts := by
    rw [hsplit]
    exact List.mem_append_right _ List.mem_cons_self
  have hreached : Reached a a.contentRoot parts :=
    { path := ⟨basename, hpath, hbasename⟩
      below := ⟨[], (List.append_nil _).symm, fun name hname => (by cases hname)⟩
      names := fun name hname => hsplit ▸ List.mem_append_left _ hname }
  have hne : a.stageName ≠ basename := fun heq => hfresh.stage (heq ▸ hbasename)
  refine Exits.bind (m := fun _ => Ready a disk0) (Exits.weaken
    (orRaise_exits _ fun s hs => hs.1.whole) fun _ s hs => hs.1.1) fun _ => ?_
  refine Exits.bind (m := fun root s => Ready a disk0 s ∧ root = a.contentRoot ∧
      isDir (at? a.contentRoot s.disk) = true)
    (openDirectory_exits _ (fun s step e hs => hs.left step e) hwhole) fun root => ?_
  refine Exits.bind (m := fun _ s => Ready a disk0 s ∧ root = a.contentRoot ∧
      isDir (at? a.contentRoot s.disk) = true) (assign_exits _ ?_) fun _ => ?_
  · rintro s ⟨hs, rfl, hdir⟩
    refine ⟨⟨hs.dest, hs.archive, ⟨?_, hs.fds.parent⟩, hs.silent⟩, rfl, hdir⟩
    intro r hr
    cases hr
    exact ⟨rfl, hreached.onWay⟩
  refine Exits.bind (Keeps.exits (look_keeps fun s e hs => ⟨hs.1.left _ e, hs.2⟩)
    fun s hs => hs.1.whole) fun _ => ?_
  refine Exits.bind (m := fun _ s => Inside a disk0 root s ∧ root = a.contentRoot)
    (assign_exits _ ?_) fun _ => ?_
  · rintro s ⟨hs, rfl, hdir⟩
    refine ⟨⟨⟨hs.dest, hs.archive, ⟨hs.fds.root, ?_⟩, hs.silent⟩, rfl, hdir⟩, rfl⟩
    intro p hp
    cases hp
    exact hreached.onWay
  by_cases hroot : root = a.contentRoot
  case neg => exact fun s hs => absurd hs.2 hroot
  subst hroot
  have hlast := hreached.last
  refine Exits.bind (m := fun parent s => Inside a disk0 parent s ∧
      parent = a.contentRoot ++ parts)
    (Triple.conseq (walkParts_exits hfresh hreached) (fun s hs => hs.1) fun _ _ h => h)
    fun parent => ?_
  by_cases hparent : parent = a.contentRoot ++ parts
  case neg => exact fun s hs => absurd hs.2 hparent
  subst hparent
  refine Exits.bind (m := fun stage s => Staged a disk0 (a.contentRoot ++ parts) (.dir []) s ∧
      stage = a.contentRoot ++ parts ++ [a.stageName])
    (Triple.conseq (makeStage_exits hfresh hlast) (fun s hs => hs.1) fun _ _ h => h)
    fun stage => ?_
  by_cases hstage : stage = a.contentRoot ++ parts ++ [a.stageName]
  case neg => exact fun s hs => absurd hs.2 hstage
  subst hstage
  refine Exits.bind (Triple.conseq (unpack_exits hfresh hlast) (fun s hs => hs.1)
    fun _ _ h => h) fun _ => ?_
  refine Exits.bind (install_exits hpath hne) fun _ => ?_
  exact assign_exits _ fun s hs => ⟨hs.dest, hs.traced, ⟨hs.fds.root, hs.fds.parent⟩,
    hs.silent⟩

/-!
## The clean-up
-/

/-- What the clean-up keeps: the destination is as it was or installed, and the script only
ends without a failure where it is installed. -/
structure Settled (w : World data) (a : Args) (disk0 : Option (Node data)) (s : State data) :
    Prop where
  dest : at? a.path s.disk = at? a.path disk0 ∨
    Delivered w a disk0 s ∧ (FileStep.exchange ∈ s.trace ∨ FileStep.rename ∈ s.trace)
  installed : s.vars.failure = none -> Delivered w a disk0 s
  silent : s.printed = []

theorem Delivered.left {s : State data} (h : Delivered w a disk0 s) (step : FileStep)
    {disk : Option (Node data)} (raised : Option Exc)
    (hdest : at? a.path disk = at? a.path s.disk) :
    Delivered w a disk0 (s.left step disk raised) := by
  rcases h with ⟨n, hn, hpayload⟩
  exact ⟨n, hdest.trans hn, fun hmade => hpayload hmade.before⟩

theorem Settled.left {s : State data} (h : Settled w a disk0 s) (step : FileStep)
    {disk : Option (Node data)} (raised : Option Exc)
    (hdest : at? a.path disk = at? a.path s.disk) :
    Settled w a disk0 (s.left step disk raised) where
  dest := h.dest.imp hdest.trans fun hmoved => ⟨hmoved.1.left step raised hdest,
    hmoved.2.imp (List.mem_append_left _) (List.mem_append_left _)⟩
  installed hfailure := (h.installed hfailure).left step raised hdest
  silent := h.silent

theorem tidy_keeps {item : Script data PUnit} (h : Keeps (Settled w a disk0) item) :
    Keeps (Settled w a disk0) (tidy item) := by
  refine Keeps.attempt h fun e => Keeps.modify fun s hs => ⟨hs.dest, fun hfailure => ?_, hs.silent⟩
  refine hs.installed ?_
  simp only at hfailure
  split at hfailure
  · exact hfailure
  · rw [Option.or_eq_none_iff] at hfailure
    exact hfailure.1

theorem close_keeps : Keeps (Settled w a disk0) (close w) :=
  look_keeps fun _ e hs => hs.left _ e rfl

theorem withFd_keeps {fd : Option (List String)} {f : List String -> Script data PUnit}
    (h : forall path, fd = some path -> Keeps (Settled w a disk0) (f path)) :
    Keeps (Settled w a disk0) (withFd fd f) := by
  cases fd with
  | none => exact Keeps.pure _
  | some path => exact tidy_keeps (h path rfl)

theorem cleanupItems_keeps (hfresh : a.Fresh) {v : Vars} (hfds : Fds a v) :
    Keeps (Settled w a disk0) (cleanupItems w a v) := by
  have hremove : forall parent, v.parentFd = some parent ->
      Keeps (Settled w a disk0) (removeEntry w parent a.stageName) := by
    intro parent hparent
    have hapart := (hfds.parent parent hparent).apart hfresh.stage
    exact removeEntry_keeps (fun _ step e ht => ht.left step e rfl)
      fun t step f e ht => ht.left step e (Node.at?_alter_apart hapart t.disk)
  have hunlink : forall root, v.rootFd = some root ->
      Keeps (Settled w a disk0) (unlink w root a.archiveName) := by
    intro root hroot
    have hapart := (hfds.root root hroot).2.apart hfresh.archive
    exact unlink_keeps (fun _ step e ht => ht.left step e rfl)
      fun t step f e ht => ht.left step e (Node.at?_alter_apart hapart t.disk)
  refine Keeps.bind (withFd_keeps fun _ _ => close_keeps) fun _ => ?_
  refine Keeps.bind (withFd_keeps hremove) fun _ => ?_
  refine Keeps.bind (withFd_keeps fun root hroot => catching_keeps (hunlink root hroot))
    fun _ => ?_
  refine Keeps.bind (withFd_keeps fun _ _ => close_keeps) fun _ => ?_
  exact withFd_keeps fun _ _ => close_keeps

/-- The destination is as it was or has the archive's payload, the script says so only in
the second case, and without an exchange or a rename it is as it was. -/
structure AllOrNothing (w : World data) (a : Args) (disk0 : Option (Node data))
    (s : State data) : Prop where
  whole : at? a.path s.disk = at? a.path disk0 ∨
    exists n, a.payload w disk0 = some n ∧ at? a.path s.disk = some n
  confirmed : okLine a ∈ s.printed ->
    exists n, a.payload w disk0 = some n ∧ at? a.path s.disk = some n
  untouched : FileStep.exchange ∉ s.trace -> FileStep.rename ∉ s.trace ->
    at? a.path s.disk = at? a.path disk0

theorem Delivered.payload {s : State data} (h : Delivered w a disk0 s) (hmade : LinksMade s) :
    exists n, a.payload w disk0 = some n ∧ at? a.path s.disk = some n := by
  rcases h with ⟨n, hn, hpayload⟩
  exact ⟨n, hpayload hmade, hn⟩

theorem Settled.allOrNothing {s : State data} (h : Settled w a disk0 s) (hmade : LinksMade s) :
    AllOrNothing w a disk0 s where
  whole := h.dest.imp id fun hmoved => hmoved.1.payload hmade
  confirmed hok := by
    rw [h.silent] at hok
    cases hok
  untouched hexchange hrename := by
    rcases h.dest with hold | ⟨_, htraced⟩
    · exact hold
    · exact absurd htraced (not_or.mpr ⟨hexchange, hrename⟩)

theorem Whole.allOrNothing {s : State data} (h : Whole w a disk0 s) (hmade : LinksMade s) :
    AllOrNothing w a disk0 s := by
  have hsilent : s.printed = [] := h.elim (·.silent) (·.silent)
  have hconfirmed : okLine a ∈ s.printed ->
      exists n, a.payload w disk0 = some n ∧ at? a.path s.disk = some n := by
    intro hok
    rw [hsilent] at hok
    cases hok
  rcases h with hready | hinstalled
  · exact ⟨Or.inl hready.dest, hconfirmed, fun _ _ => hready.dest⟩
  · exact ⟨Or.inr (hinstalled.dest.payload hmade), hconfirmed, fun hexchange hrename =>
      absurd hinstalled.traced (not_or.mpr ⟨hexchange, hrename⟩)⟩

theorem Whole.settled {s : State data} (h : Whole w a disk0 s) {vars : Vars}
    (hfailure : vars.failure ≠ none) : Settled w a disk0 { s with vars } where
  dest := h.imp (·.dest) fun hinstalled => ⟨hinstalled.dest, hinstalled.traced⟩
  installed hnone := absurd hnone hfailure
  silent := h.elim (·.silent) (·.silent)

theorem Installed.settled {s : State data} (h : Installed w a disk0 s) :
    Settled w a disk0 s :=
  ⟨Or.inr ⟨h.dest, h.traced⟩, fun _ => h.dest, h.silent⟩

theorem report_allOrNothing {s : State data} (h : Settled w a disk0 s)
    (hmade : LinksMade (report a s).2) : AllOrNothing w a disk0 (report a s).2 := by
  unfold report at hmade ⊢
  rw [bind_run_ok (get_run s)] at hmade ⊢
  cases hfailure : s.vars.failure with
  | some e =>
      rw [hfailure] at hmade
      exact h.allOrNothing hmade
  | none =>
      rw [hfailure] at hmade
      have hall := h.allOrNothing hmade
      exact ⟨hall.whole, fun _ => (h.installed hfailure).payload hmade, hall.untouched⟩

theorem finish_allOrNothing (hfresh : a.Fresh) {s : State data} (h : Settled w a disk0 s)
    (hfds : Fds a s.vars) (hmade : LinksMade ((cleanup w a >>= fun _ => report a) s).2) :
    AllOrNothing w a disk0 ((cleanup w a >>= fun _ => report a) s).2 := by
  have hclean : Settled w a disk0 (cleanup w a s).2 := cleanupItems_keeps hfresh hfds s h
  rw [bind_run] at hmade ⊢
  rcases hrun : cleanup w a s with ⟨o, t⟩
  rw [hrun] at hclean hmade
  cases o with
  | ok u => exact report_allOrNothing hclean hmade
  | raised e => exact hclean.allOrNothing hmade
  | ended => exact hclean.allOrNothing hmade

theorem script_run (w : World data) (a : Args) (s : State data) : script w a s =
    match body w a s with
    | (.ok _, t) => (cleanup w a >>= fun _ => report a) t
    | (.raised e, t) =>
        (cleanup w a >>= fun _ => report a) { t with vars := { t.vars with failure := some e } }
    | (.ended, t) => (.ended, t) := by
  unfold script
  rw [bind_run]
  unfold Prog.attempt
  rcases body w a s with ⟨o, t⟩
  cases o <;> rfl

end Run

def knownArgs : Args where
  archivePath := "/content/.mighty-colab-sync-known.tar.gz"
  destination := "/content/out/model"
  operationId := "known"

def knownDisk : Option (Node Nat) :=
  some (.dir [("content", .dir [
    (".mighty-colab-sync-known.tar.gz", .file 7),
    ("out", .dir [("model", .dir [("old.txt", .file 1)])])])])

def knownMembers : List (TarInfo Nat) :=
  [⟨"payload", 0, some .dir⟩, ⟨"payload/current", 512, some (.link false "new.txt")⟩,
    ⟨"payload/new.txt", 1024, some (.file 2)⟩]

def knownWorld (fault : List FileStep -> Option (Fault Nat)) : World Nat where
  fault
  getmembers _ := .ok knownMembers
  unseen _ := false
  recursion := 10
  budget := 100

theorem knownArgs_fresh : knownArgs.Fresh := by
  constructor <;> decide

def stageKept (trace : List FileStep) : Option (Fault Nat) :=
  if trace.getLast? = some .stat ∧ FileStep.exchange ∈ trace then
    some (.partway (osError "Input/output error") (some (.dir [])))
  else none

def noSymlinks (trace : List FileStep) : Option (Fault Nat) :=
  if trace.getLast? = some .placeExists then some (.before (osError "Operation not permitted"))
  else none

end Sync
end MightyColab
