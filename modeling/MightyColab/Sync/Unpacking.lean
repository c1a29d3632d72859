import MightyColab.Sync.Extract

/-!
# What is unpacked

Unless a call of `makelink` raises what `makelink` catches, the stage has after each step of
`extractall` what the members so far unpack to.
-/

namespace MightyColab
namespace Sync

open Lib
open Node (at? alter isDir)
open Prog

variable {data result : Type}

/-- No call of `makelink` raised what its `try` catches. -/
def LinksMade (s : State data) : Prop :=
  forall f, f ∈ s.failed -> f.1.makesLink = true -> f.2.isSymlinkException = false

instance (s : State data) : Decidable (LinksMade s) :=
  inferInstanceAs (Decidable (forall f, f ∈ s.failed -> f.1.makesLink = true ->
    f.2.isSymlinkException = false))

theorem LinksMade.before {s : State data} {step : FileStep} {disk : Option (Node data)}
    {raised : Option Exc} (h : LinksMade (s.left step disk raised)) : LinksMade s :=
  fun f hf => h f (List.mem_append_left _ hf)

theorem failed_left (s : State data) (step : FileStep) (disk : Option (Node data)) (e : Exc) :
    (step, e) ∈ (s.left step disk (some e)).failed :=
  List.mem_append_right _ List.mem_cons_self

/-!
## What the stage has
-/

/-- What is done in the stage keeps the invariant, and the stage has what is put there. -/
structure Confined (inv : State data -> Prop) (stage : List String) : Prop where
  looked : forall s step raised, inv s -> inv (s.left step s.disk raised)
  worked : forall s step f raised, inv s -> inv (s.left step (alter f stage s.disk) raised)
  put : forall s t, inv s -> at? stage (alter (fun _ => t) stage s.disk) = t

/-- As long as the links are made, this is true of the stage. -/
def Holds (inv : State data -> Prop) (stage : List String)
    (P : Option (Node data) -> Prop) (s : State data) : Prop :=
  inv s ∧ (LinksMade s -> P (at? stage s.disk))

def After (P : Option (Node data) -> Prop)
    (op : Option (Node data) -> Except Exc (Option (Node data))) (t' : Option (Node data)) :
    Prop :=
  exists t, P t ∧ op t = .ok t'

theorem After.bind {P : Option (Node data) -> Prop}
    {f g : Option (Node data) -> Except Exc (Option (Node data))} {t : Option (Node data)}
    (h : After (After P f) g t) : After P (fun t => f t >>= g) t := by
  rcases h with ⟨mid, ⟨first, hfirst, hf⟩, hg⟩
  refine ⟨first, hfirst, ?_⟩
  simp only [hf]
  exact hg

section Steps

variable {w : World data} {inv : State data -> Prop} {stage : List String}
  {P P' : Option (Node data) -> Prop}

theorem Holds.mono {s : State data} (h : Holds inv stage P s) (hP : forall t, P t -> P' t) :
    Holds inv stage P' s :=
  ⟨h.1, fun hmade => hP _ (h.2 hmade)⟩

theorem Holds.spoiled {s : State data} (hinv : inv s) (h : ¬LinksMade s) :
    Holds inv stage P s :=
  ⟨hinv, fun hmade => absurd hmade h⟩

theorem Holds.left (hc : Confined inv stage) {s : State data} (h : Holds inv stage P s)
    (step : FileStep) (raised : Option Exc) :
    Holds inv stage P (s.left step s.disk raised) :=
  ⟨hc.looked s step raised h.1, fun hmade => h.2 hmade.before⟩

theorem not_linksMade {s : State data} {step : FileStep} {e : Exc} (hstep : step.makesLink = true)
    (hfailed : (step, e) ∈ s.failed) (he : e.isSymlinkException = true) : ¬LinksMade s := by
  intro hmade
  have hnot := hmade _ hfailed hstep
  rw [he] at hnot
  cases hnot

theorem call_ends {pre bad : State data -> Prop} {caught : Exc -> State data -> Prop}
    {good : result -> State data -> Prop} {step : FileStep} {work : Option (List String)}
    {op : Option (Node data) -> Except Exc (result × Option (Node data))}
    (hlook : forall s e, pre s -> caught e (s.left step s.disk (some e)))
    (hop : forall s value disk, pre s -> op s.disk = .ok (value, disk) ->
      good value (s.left step disk none))
    (hafter : forall s value disk e, pre s -> op s.disk = .ok (value, disk) ->
      caught e (s.left step disk (some e)))
    (hpart : forall s p rest e, pre s -> work = some p ->
      caught e (s.left step (alter (fun _ => rest) p s.disk) (some e))) :
    Triple pre (call w step work op) (Ends bad caught good) := by
  intro s hs
  unfold call
  split
  · exact hlook s _ hs
  · split
    · exact hpart s _ _ _ hs rfl
    · exact hlook s _ hs
  · split
    · next hok => exact hafter s _ _ _ hs hok
    · exact hlook s _ hs
  · split
    · next hok => exact hop s _ _ hs hok
    · exact hlook s _ hs

theorem look_ok {ask : Option (Node data) -> Except Exc result} {disk disk' : Option (Node data)}
    {value : result} (h : (ask disk).map (·, disk) = .ok (value, disk')) :
    ask disk = .ok value ∧ disk' = disk := by
  cases hask : ask disk with
  | ok found =>
      rw [hask] at h
      cases h
      exact ⟨rfl, rfl⟩
  | error e =>
      rw [hask] at h
      cases h

theorem look_ends (hc : Confined inv stage) {step : FileStep}
    {ask : Option (Node data) -> Except Exc result} :
    Triple (Holds inv stage P) (look w step ask)
      (Ends inv (fun e s => Holds inv stage P s ∧ (step, e) ∈ s.failed)
        fun value s => Holds inv stage P s ∧ ask s.disk = .ok value) := by
  refine call_ends (fun s e hs => ⟨hs.left hc step _, failed_left ..⟩) ?_ ?_
    fun s p rest e _ hp => (by cases hp)
  · intro s value disk hs hok
    rcases look_ok hok with ⟨hask, rfl⟩
    exact ⟨hs.left hc step _, hask⟩
  · intro s value disk e hs hok
    rcases look_ok hok with ⟨_, rfl⟩
    exact ⟨hs.left hc step _, failed_left ..⟩

theorem inStage_ends (hc : Confined inv stage) {step : FileStep} {work : Option (List String)}
    {op : Option (Node data) -> Except Exc (Option (Node data))}
    (hwork : work = none ∨ work = some stage) :
    Triple (Holds inv stage P) (inStage w stage step work op)
      (Ends inv (fun e s => inv s ∧ (step, e) ∈ s.failed ∧
          (work = none -> Holds inv stage (fun t => P t ∨ After P op t) s))
        fun _ => Holds inv stage (After P op)) := by
  have hdone : forall (s : State data) value disk raised, Holds inv stage P s ->
      (op (at? stage s.disk)).map (fun t => (PUnit.unit, alter (fun _ => t) stage s.disk)) =
        .ok (value, disk) -> Holds inv stage (After P op) (s.left step disk raised) := by
    intro s value disk raised hs hok
    cases hop : op (at? stage s.disk) with
    | error e =>
        rw [hop] at hok
        cases hok
    | ok t =>
        rw [hop] at hok
        cases hok
        refine ⟨hc.worked s step _ raised hs.1, fun hmade => ?_⟩
        change After P op (at? stage (alter (fun _ => t) stage s.disk))
        rw [hc.put s t hs.1]
        exact ⟨_, hs.2 hmade.before, hop⟩
  refine call_ends (fun s e hs => ?_) (fun s value disk hs hok => hdone s value disk none hs hok)
    (fun s value disk e hs hok => ?_) fun s p rest e hs hp => ?_
  · have hleft := hs.left hc step (some e)
    exact ⟨hleft.1, failed_left .., fun _ => hleft.mono fun _ => Or.inl⟩
  · have hleft := hdone s value disk (some e) hs hok
    exact ⟨hleft.1, failed_left .., fun _ => hleft.mono fun _ => Or.inr⟩
  · rcases hwork with rfl | rfl
    · cases hp
    · cases hp
      exact ⟨hc.worked s step _ _ hs.1, failed_left .., fun hnone => (by cases hnone)⟩

theorem inStage_exits (hc : Confined inv stage) {step : FileStep} {work : Option (List String)}
    {op : Option (Node data) -> Except Exc (Option (Node data))}
    (hwork : work = none ∨ work = some stage) :
    Triple (Holds inv stage P) (inStage w stage step work op)
      (Exits inv fun _ => Holds inv stage (After P op)) :=
  Ends.exits (inStage_ends hc hwork) fun _ _ h => h.1

theorem askStage_ends (hc : Confined inv stage) {step : FileStep}
    {ask : Option (Node data) -> Bool} :
    Triple (Holds inv stage P) (askStage w stage step ask)
      (Ends inv (fun e s => inv s ∧ (step, e) ∈ s.failed)
        fun b => Holds inv stage fun t => P t ∧ (b = true -> ask t = true)) := by
  intro s hs
  unfold askStage asking
  split
  · next e _ =>
      split
      · have hleft := hs.left hc step none
        exact ⟨hleft.1, fun hmade => ⟨hleft.2 hmade, fun hb => (by cases hb)⟩⟩
      · exact ⟨(hs.left hc step (some e)).1, failed_left ..⟩
  · refine ⟨hc.looked s step none hs.1, fun hmade => ⟨hs.2 hmade.before, fun hb => hb⟩⟩

theorem askStage_exits (hc : Confined inv stage) {step : FileStep}
    {ask : Option (Node data) -> Bool} :
    Triple (Holds inv stage P) (askStage w stage step ask)
      (Exits inv fun b => Holds inv stage fun t => P t ∧ (b = true -> ask t = true)) :=
  Ends.exits (askStage_ends hc) fun _ _ h => h.1

/-!
## One member
-/

theorem setAttributes_exits (hc : Confined inv stage) :
    Triple (Holds inv stage P) (setAttributes w) (Exits inv fun _ => Holds inv stage P) := by
  refine Ends.exits (c := fun _ => inv) ?_ fun _ _ h => h
  refine Ends.attempt (M := fun _ => Holds inv stage P) ?_ fun e => ?_
  · exact Ends.bind (m := fun _ => Holds inv stage P)
      (Ends.weaken (look_ends hc) (fun _ _ h => h.1) fun _ _ h => h.1) fun _ s hs => hs
  · split
    · exact fun s hs => hs
    · exact fun s hs => hs.1

theorem enterUpperDirs_exits (hc : Confined inv stage) (path : List String) :
    Triple (Holds inv stage P) (enterUpperDirs w stage path)
      (Exits inv fun _ => Holds inv stage (After P (upperDirs w.budget path))) := by
  refine Exits.bind (askStage_exits hc) fun b => ?_
  cases b with
  | true =>
      rw [if_pos rfl]
      refine fun s hs => hs.mono fun t ht => ⟨t, ht.1, ?_⟩
      rw [upperDirs, if_pos (ht.2 rfl)]
  | false =>
      rw [if_neg Bool.false_ne_true]
      refine Exits.weaken (inStage_exits hc (Or.inr rfl)) fun _ s hs => hs.mono ?_
      rintro t' ⟨t, ht, hop⟩
      refine ⟨t, ht.1, ?_⟩
      rw [upperDirs]
      split
      · next hthere =>
          unfold makedirs at hop
          rw [if_pos hthere] at hop
          cases hop
      · exact hop

theorem lookup_unfollowed {t : Option (Node data)} : forall {budget : Nat}
    {here path place : List String}, lookup t true budget here path = .ok place ->
      (at? place t).isSome = true -> exists link, lookup t false budget here path = .ok link ∧
        (at? link t).isSome = true
  | 0, _, _, _, h, _ => by cases h
  | _ + 1, here, [], place, h, hsome => ⟨place, h, hsome⟩
  | budget + 1, here, name :: rest, place, h, hsome => by
      unfold lookup at h ⊢
      split at h
      · cases h
      · split at h
        · next hup =>
            simp only [if_pos hup]
            exact lookup_unfollowed h hsome
        · next hdown =>
            simp only [if_neg hdown]
            split at h
            · next target hlink =>
                rw [if_neg (by simp)] at h
                split
                · exact ⟨here ++ [name], rfl, by rw [hlink]; rfl⟩
                · exact lookup_unfollowed h hsome
            · exact lookup_unfollowed h hsome
      · cases h

theorem pathLexists_of_found {budget : Nat} {path : List String} {t : Option (Node data)}
    (h : (foundAt budget true path t).isSome = true) : pathLexists budget path t = true := by
  unfold foundAt at h
  split at h
  · next place hplace =>
      rcases lookup_unfollowed hplace h with ⟨link, hlink, hsome⟩
      unfold pathLexists foundAt
      rw [hlink]
      exact hsome
  · cases h

theorem isSome_of_isDir {n : Option (Node data)} (h : isDir n = true) : n.isSome = true := by
  cases n with
  | none => cases h
  | some n => rfl

theorem newEntry_taken {budget : Nat} {n : Node data} {path : List String}
    {t : Option (Node data)} (h : pathLexists budget path t = true) :
    newEntry budget n path t = .error fileExists := by
  unfold pathLexists foundAt at h
  unfold newEntry
  cases hplace : lookup t false budget [] path with
  | error e =>
      rw [hplace] at h
      cases h
  | ok place =>
      rw [hplace] at h
      exact if_pos h

theorem newEntry_place {budget : Nat} {n : Node data} {path : List String}
    {t t' : Option (Node data)} (h : newEntry budget n path t = .ok t') :
    pathLexists budget path t = false := by
  cases hthere : pathLexists budget path t with
  | false => rfl
  | true =>
      rw [newEntry_taken hthere] at h
      cases h

theorem makedir_exits (hc : Confined inv stage) (path : List String) :
    Triple (Holds inv stage P) (makedir w stage path)
      (Exits inv fun _ => Holds inv stage (After P (makeDirectory w.budget path))) := by
  have hmade : forall t, After P (makeEntryDir w.budget path) t ->
      After P (makeDirectory w.budget path) t := by
    rintro t' ⟨t, ht, hop⟩
    refine ⟨t, ht, ?_⟩
    unfold makeDirectory
    rw [hop]
  refine Ends.exits (c := fun _ => inv) ?_ fun _ _ h => h
  refine Ends.attempt (Ends.weaken (inStage_ends hc (Or.inl rfl)) (fun e s h => h.2.2 rfl)
    fun _ s hs => hs.mono hmade) fun e => ?_
  split
  case isFalse => exact fun s hs => hs.1
  refine Ends.bind (Ends.weaken (askStage_ends hc) (fun e s h => h.1) fun _ _ h => h) fun b => ?_
  cases b with
  | false => exact fun s hs => hs.1
  | true =>
      refine fun s hs => Holds.mono (P := _) hs ?_
      rintro t ⟨ht | ht, hdir⟩
      · refine ⟨t, ht, ?_⟩
        have hthere := pathLexists_of_found (isSome_of_isDir (hdir rfl))
        unfold makeDirectory makeEntryDir
        rw [newEntry_taken hthere]
        exact if_pos ⟨rfl, hdir rfl⟩
      · exact hmade t ht

theorem clearPlace_ends (hc : Confined inv stage) (path : List String) :
    Triple (Holds inv stage P) (clearPlace w stage path)
      (Ends inv (fun e s => inv s ∧ (e.isSymlinkException = true -> ¬LinksMade s))
        fun _ => Holds inv stage fun t' => exists t, P t ∧
          ((pathLexists w.budget path t = true ∧ removeFile w.budget path t = .ok t') ∨
            t' = t)) := by
  refine Ends.bind (m := fun b => Holds inv stage fun t =>
      P t ∧ (b = true -> pathLexists w.budget path t = true))
    (Ends.weaken (askStage_ends hc) (fun e s h => ⟨h.1, not_linksMade rfl h.2⟩)
      fun _ _ h => h) fun b => ?_
  cases b with
  | true =>
      rw [if_pos rfl]
      refine Ends.weaken (inStage_ends hc (Or.inl rfl))
        (fun e s h => ⟨h.1, not_linksMade rfl h.2.1⟩) fun _ s hs => hs.mono ?_
      rintro t' ⟨t, ht, hop⟩
      exact ⟨t, ht.1, Or.inl ⟨ht.2 rfl, hop⟩⟩
  | false =>
      rw [if_neg Bool.false_ne_true]
      exact fun s hs => ⟨hs.1, fun hmade => ⟨_, (hs.2 hmade).1, Or.inr rfl⟩⟩

theorem softLink_ends (hc : Confined inv stage) (linkname : String) (copied : Bool)
    (path : List String) :
    Triple (Holds inv stage P) (linkSteps w stage false linkname copied path)
      (Ends inv (fun e s => inv s ∧ (e.isSymlinkException = true -> ¬LinksMade s))
        fun linked s => linked = .made ∧
          Holds inv stage (After P (replaceLink w.budget linkname path)) s) := by
  refine Ends.bind (clearPlace_ends hc path) fun _ => ?_
  refine Ends.bind (Ends.weaken (inStage_ends hc (Or.inl rfl))
    (fun e s h => ⟨h.1, not_linksMade rfl h.2.1⟩) fun _ _ h => h) fun _ s hs => ?_
  refine ⟨rfl, hs.mono ?_⟩
  rintro t' ⟨cleared, ⟨t, ht, hcleared⟩, hop⟩
  refine ⟨t, ht, ?_⟩
  unfold replaceLink
  rcases hcleared with ⟨hthere, hremoved⟩ | rfl
  · rw [if_pos hthere, hremoved]
    exact hop
  · rw [newEntry_place hop]
    exact hop

theorem hardLink_ends (hc : Confined inv stage) (linkname : String) (copied : Bool)
    (path : List String) :
    Triple (Holds inv stage P) (linkSteps w stage true linkname copied path)
      (Ends inv (fun e s => inv s ∧ (e.isSymlinkException = true -> ¬LinksMade s))
        fun linked => Holds inv stage fun t' => exists t, P t ∧ copied = false ∧
          ((linked = .made ∧ pathExists w.budget (Path.names linkname) t = true ∧
              hardLink w.budget (Path.names linkname) path t = .ok t') ∨
            (linked = .missing ∧ pathExists w.budget (Path.names linkname) t = false ∧
              t' = t))) := by
  refine Ends.bind (m := fun b => Holds inv stage fun t => P t ∧ copied = false ∧
    pathExists w.budget (Path.names linkname) t = b) ?_ fun b => ?_
  · refine Ends.attempt (M := fun e s => inv s ∧ (FileStep.sourceExists, e) ∈ s.failed)
      (Ends.weaken (look_ends hc) (fun e s h => ⟨h.1.1, h.2⟩) fun b s h => ?_) fun e => ?_
    · refine ⟨h.1.1, fun hmade => ⟨h.1.2 hmade, ?_⟩⟩
      have hask := h.2
      split at hask
      · cases hask
      · next hcopied => 
          cases hask
          exact ⟨by simpa using hcopied, rfl⟩
    · split
      · next hos =>
          have hcaught : e.isSymlinkException = true := by
            rw [Exc.isSymlinkException, hos, Bool.true_or]
          exact Ends.pure fun s hs => Holds.spoiled hs.1 (not_linksMade rfl hs.2 hcaught)
      · exact fun s hs => ⟨hs.1, not_linksMade rfl hs.2⟩
  · cases b with
    | true =>
        rw [if_pos rfl]
        refine Ends.bind (Ends.weaken (inStage_ends hc (Or.inl rfl))
          (fun e s h => ⟨h.1, not_linksMade rfl h.2.1⟩) fun _ _ h => h) fun _ => ?_
        refine Ends.pure fun s hs => hs.mono ?_
        rintro t' ⟨t, ⟨ht, hcopied, hthere⟩, hop⟩
        exact ⟨t, ht, hcopied, Or.inl ⟨rfl, hthere, hop⟩⟩
    | false =>
        rw [if_neg Bool.false_ne_true]
        exact fun s hs => ⟨hs.1, fun hmade =>
          ⟨_, (hs.2 hmade).1, (hs.2 hmade).2.1, Or.inr ⟨rfl, (hs.2 hmade).2.2, rfl⟩⟩⟩

theorem tryLink_exits {hard : Bool} {linkname : String} {copied : Bool} {path : List String}
    {m : Linked -> State data -> Prop}
    (hsteps : Triple (Holds inv stage P) (linkSteps w stage hard linkname copied path)
      (Ends inv (fun e s => inv s ∧ (e.isSymlinkException = true -> ¬LinksMade s)) m)) :
    Triple (Holds inv stage P) (tryLink w stage hard linkname copied path)
      (Exits inv fun linked s =>
        m linked s ∨ linked = .failed ∧ Holds inv stage (fun _ => False) s) := by
  refine Ends.exits (c := fun _ => inv) ?_ fun _ _ h => h
  refine Ends.attempt (Ends.weaken hsteps (fun _ _ h => h) fun _ _ h => Or.inl h) fun e => ?_
  split
  · next hcaught =>
      exact Ends.pure fun s hs => Or.inr ⟨rfl, Holds.spoiled hs.1 (hs.2 hcaught)⟩
  · exact fun s hs => hs.1

theorem filterTarget_exits (hc : Confined inv stage) (m target : TarInfo data) :
    Triple (Holds inv stage P) (filterTarget w stage m target)
      (Exits inv fun entry => Holds inv stage fun t =>
        P t ∧ dataFilter w.budget target t = .ok entry) := by
  refine Ends.exits (c := fun _ => inv) ?_ fun _ _ h => h
  refine Ends.attempt (M := fun _ => inv) (Ends.weaken (look_ends hc) (fun _ _ h => h.1.1)
    fun _ _ h => ⟨h.1.1, fun hmade => ⟨h.1.2 hmade, h.2⟩⟩) fun e => ?_
  split
  · exact fun s hs => hs
  · exact fun s hs => hs

def extraction (budget : Nat) (members : List (TarInfo data)) (m : TarInfo data)
    (entry : Member data) (copied : Bool) (path : List String) (t : Option (Node data)) :
    Except Exc (Option (Node data)) :=
  if copied then putEntry budget entry path t else extracted budget members m entry t

theorem extraction_put {budget : Nat} {members : List (TarInfo data)} {m : TarInfo data}
    {entry : Member data} {copied : Bool} {path : List String}
    (hpath : copied = false -> path = m.path) (hentry : forall name, entry ≠ .link true name) :
    extraction budget members m entry copied path = putEntry budget entry path := by
  funext t
  cases copied with
  | true => rfl
  | false =>
      rw [hpath rfl]
      cases entry with
      | file content => rfl
      | dir => rfl
      | link hard linkname =>
          cases hard with
          | false => rfl
          | true => exact absurd rfl (hentry linkname)

section Link

variable {members : List (TarInfo data)} {m : TarInfo data} {path : List String}
  {extract : TarInfo data -> Member data -> Script data Bool}

theorem copyTarget_exits (hc : Confined inv stage) {hard : Bool} {linkname : String}
    {linked : Linked} (hfailed : linked = .failed -> forall t, ¬P t)
    (hextract : forall (Q : Option (Node data) -> Prop) target copy,
      Triple (Holds inv stage Q) (extract target copy)
        (Exits inv fun _ => Holds inv stage (After Q (putEntry w.budget copy path)))) :
    Triple (Holds inv stage P) (copyTarget w stage members m hard linkname linked extract)
      (Exits inv fun _ => Holds inv stage fun t' => exists t target copy, P t ∧
        findLinkTarget members m hard linkname = some target ∧
        dataFilter w.budget target t = .ok copy ∧ putEntry w.budget copy path t = .ok t') := by
  unfold copyTarget
  split
  · split
    · next hlinked =>
        exact fun s hs => ⟨hs.1, fun hmade => absurd (hs.2 hmade) (hfailed hlinked _)⟩
    · exact fun s hs => hs.1
  · next target htarget =>
      refine Exits.bind (filterTarget_exits hc m target) fun copy => ?_
      refine Exits.weaken (hextract _ target copy) fun _ s hs => hs.mono ?_
      rintro t' ⟨t, ⟨ht, hfilter⟩, hplaced⟩
      exact ⟨t, target, copy, ht, htarget, hfilter, hplaced⟩

theorem makelink_soft (hc : Confined inv stage) (linkname : String) (copied : Bool)
    (hextract : forall (Q : Option (Node data) -> Prop) target copy,
      Triple (Holds inv stage Q) (extract target copy)
        (Exits inv fun _ => Holds inv stage (After Q (putEntry w.budget copy path)))) :
    Triple (Holds inv stage P) (makelink w stage members m false linkname copied path extract)
      (Exits inv fun _ => Holds inv stage (After P (replaceLink w.budget linkname path))) := by
  refine Exits.bind (tryLink_exits (softLink_ends hc linkname copied path)) fun linked => ?_
  split
  · next hmade =>
      rintro s (⟨_, hs⟩ | ⟨hfailed, _⟩)
      · exact hs
      · rw [hmade] at hfailed
        cases hfailed
  · next hmade =>
      refine Triple.conseq (P := Holds inv stage fun _ => False)
        (Exits.weaken (copyTarget_exits hc (fun _ _ h => h) hextract) fun _ s hs => hs.mono ?_)
        ?_ fun _ _ h => h
      · rintro t' ⟨t, target, copy, hfalse, _⟩
        exact hfalse.elim
      · rintro s (⟨hlinked, _⟩ | ⟨_, hs⟩)
        · exact absurd hlinked hmade
        · exact hs

theorem makelink_hard (hc : Confined inv stage) (linkname : String) (copied : Bool)
    (hextract : forall (Q : Option (Node data) -> Prop) target copy,
      Triple (Holds inv stage Q) (extract target copy)
        (Exits inv fun _ => Holds inv stage (After Q (putEntry w.budget copy path)))) :
    Triple (Holds inv stage P) (makelink w stage members m true linkname copied path extract)
      (Exits inv fun _ => Holds inv stage fun t' => exists t, P t ∧ copied = false ∧
        ((pathExists w.budget (Path.names linkname) t = true ∧
            hardLink w.budget (Path.names linkname) path t = .ok t') ∨
          (pathExists w.budget (Path.names linkname) t = false ∧ exists target copy,
            findLinkTarget members m true linkname = some target ∧
            dataFilter w.budget target t = .ok copy ∧ putEntry w.budget copy path t = .ok t'))) := by
  refine Exits.bind (tryLink_exits (hardLink_ends hc linkname copied path)) fun linked => ?_
  split
  · next hlinked =>
      subst hlinked
      refine Exits.pure fun s h => ?_
      rcases h with hs | ⟨hfailed, _⟩
      · refine hs.mono ?_
        rintro t' ⟨t, ht, hcopied, ⟨_, hthere, hlink⟩ | ⟨hmissing, _⟩⟩
        · exact ⟨t, ht, hcopied, Or.inl ⟨hthere, hlink⟩⟩
        · cases hmissing
      · cases hfailed
  · next hlinked =>
      let left : Option (Node data) -> Prop := fun t => P t ∧ copied = false ∧
        linked = .missing ∧ pathExists w.budget (Path.names linkname) t = false
      have hleft : linked = .failed -> forall t, ¬left t := by
        rintro rfl t ht
        cases ht.2.2.1
      refine Triple.conseq (P := Holds inv stage left)
        (Exits.weaken (copyTarget_exits hc hleft hextract) fun _ s hs => hs.mono ?_)
        ?_ fun _ _ h => h
      · rintro t' ⟨t, target, copy, ⟨ht, hcopied, _, hnot⟩, hfound⟩
        exact ⟨t, ht, hcopied, Or.inr ⟨hnot, target, copy, hfound⟩⟩
      · rintro s (hs | ⟨_, hs⟩)
        · refine hs.mono ?_
          rintro t' ⟨t, ht, hcopied, ⟨hmade, _⟩ | ⟨hmissing, hnot, rfl⟩⟩
          · exact absurd hmade hlinked
          · exact ⟨ht, hcopied, hmissing, hnot⟩
        · exact hs.mono fun _ h => h.elim

end Link

theorem extractMember_exits (hc : Confined inv stage) (members : List (TarInfo data)) :
    forall (depth : Nat) {P : Option (Node data) -> Prop} (m : TarInfo data)
      (entry : Member data) (copied : Bool) (path : List String),
      (copied = false -> path = m.path) ->
      Triple (Holds inv stage P) (extractMember w stage members depth m entry copied path)
        (Exits inv fun _ => Holds inv stage
          (After P (extraction w.budget members m entry copied path))) := by
  intro depth
  induction depth with
  | zero => exact fun m entry copied path _ s hs => hs.1
  | succ depth ih =>
      intro P m entry copied path hpath
      have hextract : forall (Q : Option (Node data) -> Prop) target copy,
          Triple (Holds inv stage Q) (extractMember w stage members depth target copy true path)
            (Exits inv fun _ => Holds inv stage (After Q (putEntry w.budget copy path))) :=
        fun Q target copy => ih target copy true path fun h => (by cases h)
      have hset : forall (Q : Option (Node data) -> Prop) (done : Bool),
          Triple (Holds inv stage Q) (if done then setAttributes w else pure false)
            (Exits inv fun _ => Holds inv stage Q) := by
        intro Q done
        split
        · exact setAttributes_exits hc
        · exact fun s hs => hs
      refine Exits.bind (enterUpperDirs_exits hc path) fun _ => ?_
      cases entry with
      | file content =>
          rw [extraction_put hpath fun name h => (by cases h)]
          refine Exits.bind (inStage_exits hc (Or.inr rfl)) fun _ => ?_
          exact Exits.weaken (setAttributes_exits hc) fun _ s hs => hs.mono fun t ht => ht.bind
      | dir =>
          rw [extraction_put hpath fun name h => (by cases h)]
          refine Exits.bind (makedir_exits hc path) fun _ => ?_
          split
          · exact Exits.weaken (setAttributes_exits hc) fun _ s hs => hs.mono fun t ht => ht.bind
          · exact fun s hs => Holds.mono hs fun t ht => ht.bind
      | link hard linkname =>
          cases hard with
          | false =>
              rw [extraction_put hpath fun name h => (by cases h)]
              refine Exits.bind (makelink_soft hc linkname copied hextract) fun done => ?_
              exact Exits.weaken (hset _ done) fun _ s hs => hs.mono fun t ht => ht.bind
          | true =>
              refine Exits.bind (makelink_hard hc linkname copied hextract) fun done => ?_
              refine Exits.weaken (hset _ done) fun _ s hs => hs.mono ?_
              rintro t' ⟨upper, ⟨t, ht, hupper⟩, rfl, hlink⟩
              refine ⟨t, ht, ?_⟩
              rw [hpath rfl] at hupper hlink
              change putHardLink w.budget members m linkname t = _
              unfold putHardLink
              rw [hupper]
              rcases hlink with ⟨hthere, hlink⟩ | ⟨hnot, target, copy, htarget, hfilter, hplaced⟩
              · simp only [bind, Except.bind, hthere, if_true]
                exact hlink
              · simp only [bind, Except.bind, hnot, htarget, hfilter]
                exact hplaced

theorem extractOne_exits (hc : Confined inv stage) (members : List (TarInfo data))
    (m : TarInfo data) :
    Triple (Holds inv stage P) (extractOne w stage members m)
      (Exits inv fun _ => Holds inv stage (After P fun t => do
        let entry ← dataFilter w.budget m t
        extracted w.budget members m entry t)) := by
  refine Exits.bind (m := fun entry => Holds inv stage fun t =>
      P t ∧ dataFilter w.budget m t = .ok entry)
    (Ends.exits (Ends.weaken (look_ends hc) (fun _ _ h => h.1.1) fun _ _ h =>
      ⟨h.1.1, fun hmade => ⟨h.1.2 hmade, h.2⟩⟩) fun _ _ h => h) fun entry => ?_
  refine Exits.bind (extractMember_exits hc members w.recursion m entry false m.path
    fun _ => rfl) fun _ s hs => Holds.mono hs ?_
  rintro t' ⟨t, ⟨ht, hfilter⟩, hextracted⟩
  refine ⟨t, ht, ?_⟩
  simp only [hfilter]
  exact hextracted

theorem extractEach_exits (hc : Confined inv stage) (members : List (TarInfo data)) :
    forall (rest : List (TarInfo data)) {P : Option (Node data) -> Prop},
      Triple (Holds inv stage P) (Prog.forEach (extractOne w stage members) rest)
        (Exits inv fun _ => Holds inv stage (After P (unpacked w.budget members rest))) := by
  intro rest
  induction rest with
  | nil => exact fun s hs => Holds.mono hs fun t ht => ⟨t, ht, rfl⟩
  | cons m rest ih =>
      intro P
      refine Exits.bind (extractOne_exits hc members m) fun _ => ?_
      exact Exits.weaken ih fun _ s hs => hs.mono fun t ht => ht.bind

theorem extractall_exits (hc : Confined inv stage) (members : List (TarInfo data)) :
    Triple (Holds inv stage P) (extractall w stage members)
      (Exits inv fun _ => Holds inv stage (After P (unpacked w.budget members members))) := by
  refine Exits.bind (extractEach_exits hc members members) fun _ => ?_
  generalize members.filter _ = directories
  induction directories with
  | nil => exact fun s hs => hs
  | cons m rest ih =>
      refine Exits.bind (Exits.bind (setAttributes_exits hc) fun _ => ?_) fun _ => ih
      exact Exits.pure fun _ hs => hs

end Steps

end Sync
end MightyColab
