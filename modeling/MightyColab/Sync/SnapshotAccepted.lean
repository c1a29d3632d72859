import MightyColab.Sync.Snapshot

/-!
# The links of a snapshot stay in it

What `realpath` makes of the links of a snapshot is in the snapshot, wherever it lies and
whatever lies around it. So no snapshot is refused after it was made: not by the check before it
is packed, not by the filter that packs it, and not by the check on the VM.
-/

namespace MightyColab
namespace Sync

open Lib
open Lib.Symlinks (Chain Look Way lookAt)
open Node (at?)

variable {data : Type} {disk : Option (Node data)} {payload p q rest : List String}

/-!
## Where `realpath` goes
-/

theorem joinRealPath_walk (seen : List (List String)) (budget : Nat)
    (hchain : Chain (lookAt disk) (p ++ q)) :
    joinRealPath disk budget seen p (q ++ rest) = (p ++ q ++ rest, false) ∨
      exists left, joinRealPath disk budget seen p (q ++ rest) =
        joinRealPath disk left seen (p ++ q) rest := by
  induction q generalizing p budget with
  | nil => exact Or.inr ⟨budget, by simp⟩
  | cons name q ih =>
      have hsplit : p ++ name :: q = p ++ [name] ++ q := by simp
      cases budget with
      | zero => exact Or.inl (by simp [joinRealPath])
      | succ budget =>
          have hname : name ≠ ".." := fun heq => hchain.plain (by simp [heq])
          have hdir : lookAt disk (p ++ [name]) = some .dir := by
            refine hchain.dirs _ ?_ (by simp)
            rw [hsplit]
            exact List.prefix_append _ _
          rcases Symlinks.lookAt_dir.mp hdir with ⟨entries, hat⟩
          rw [hsplit] at hchain ⊢
          rw [List.cons_append, joinRealPath, if_neg hname]
          simp only [hat]
          exact ih budget hchain

def Pending (q names : List String) : Prop := exists rel, ".." ∉ rel ∧ Way q rel names

def Staying (payload path : List String) : Prop :=
  exists q names, path = payload ++ q ++ names ∧ ".." ∉ q ∧ Pending q names

theorem not_mem_append {front names : List String} (hfront : ".." ∉ front)
    (hnames : ".." ∉ names) : ".." ∉ front ++ names := by
  intro hmem
  rcases List.mem_append.mp hmem with hmem | hmem
  · exact hfront hmem
  · exact hnames hmem

theorem pending_down (hq : ".." ∉ q) {names : List String} (hnames : ".." ∉ names) :
    Pending q names :=
  ⟨q ++ names, not_mem_append hq hnames, q, [], names, by simp, rfl, rfl⟩

theorem pending_append (h : Pending q rest) {names : List String} (hnames : ".." ∉ names) :
    Pending q (rest ++ names) := by
  rcases h with ⟨rel, hrel, common, s, down, hq, hpath, heq⟩
  refine ⟨rel ++ names, not_mem_append hrel hnames, common, s, down ++ names, hq, ?_, ?_⟩
  · rw [hpath, List.append_assoc]
  · rw [heq, List.append_assoc]

theorem pending_up (h : Pending q (".." :: rest)) :
    q ≠ [] ∧ Pending q.dropLast rest := by
  rcases h with ⟨rel, hrel, common, s, down, heq, hpath, hnames⟩
  rcases List.eq_nil_or_concat s with hs | ⟨s, last, hs⟩
  · rw [hs, List.length_nil, List.replicate_zero, List.nil_append] at hnames
    rw [hpath, ← hnames] at hrel
    exact absurd (List.mem_append_right _ List.mem_cons_self) hrel
  · rw [hs, List.concat_eq_append] at heq hnames
    rw [List.length_append, List.length_singleton, List.replicate_succ,
      List.cons_append] at hnames
    rw [heq, ← List.append_assoc, List.dropLast_concat]
    exact ⟨by simp, rel, hrel, common, s, down, rfl, hpath, (List.cons.inj hnames).right⟩

theorem pending_name {name : String} (hname : name ≠ "..") (h : Pending q (name :: rest)) :
    ".." ∉ name :: rest := by
  rcases h with ⟨rel, hrel, common, s, down, _, hpath, hnames⟩
  cases s with
  | nil =>
      rw [hnames]
      rw [hpath] at hrel
      exact fun hmem => hrel (List.mem_append_right _ hmem)
  | cons first s =>
      rw [List.length_cons, List.replicate_succ, List.cons_append] at hnames
      exact absurd (List.cons.inj hnames).left hname

theorem Staying.append (h : Staying payload p) {names : List String} (hnames : ".." ∉ names) :
    Staying payload (p ++ names) := by
  rcases h with ⟨q, pending, heq, hq, hpending⟩
  exact ⟨q, pending ++ names, by rw [heq, List.append_assoc], hq, pending_append hpending hnames⟩

theorem Staying.resolve (hpayload : ".." ∉ payload) (h : Staying payload p) :
    payload <+: Path.resolve [] p := by
  rcases h with ⟨q, names, heq, hq, rel, hrel, hway⟩
  have hresolve : Path.resolve [] p = payload ++ rel := by
    rw [heq, Path.resolve, List.foldl_append, ← Path.resolve, ← Path.resolve,
      Path.resolve_down (not_mem_append hpayload hq), List.nil_append]
    exact Symlinks.resolve_way (hway.append payload) (not_mem_append hpayload hrel)
  rw [hresolve]
  exact List.prefix_append _ _

def TameBelow (disk : Option (Node data)) (payload : List String) : Prop :=
  forall r text, at? (payload ++ r) disk = some (.link text) -> TameLink (r, text)

/-- By induction on the names that are entered: what is found is in the payload, and so is what
is left to be found. -/
theorem joinRealPath_below (htame : TameBelow disk payload) :
    forall (budget : Nat) (seen : List (List String)) (q rest : List String), ".." ∉ q ->
      Pending q rest ->
      Staying payload (joinRealPath disk budget seen (payload ++ q) rest).1 ∧
        ((joinRealPath disk budget seen (payload ++ q) rest).2 = true -> exists r, ".." ∉ r ∧
          (joinRealPath disk budget seen (payload ++ q) rest).1 = payload ++ r) := by
  intro budget
  induction budget with
  | zero =>
      intro seen q rest hq hpending
      unfold joinRealPath
      exact ⟨⟨q, rest, rfl, hq, hpending⟩, fun h => by cases h⟩
  | succ budget ih =>
      intro seen q rest hq hpending
      cases rest with
      | nil =>
          unfold joinRealPath
          exact ⟨⟨q, [], by simp, hq, hpending⟩, fun _ => ⟨q, hq, rfl⟩⟩
      | cons name rest =>
          rw [joinRealPath]
          by_cases hup : name = ".."
          · rw [hup] at hpending
            rcases pending_up hpending with ⟨hne, hrest⟩
            rw [if_pos hup, List.dropLast_append_of_ne_nil hne]
            exact ih seen q.dropLast rest (fun hmem => hq (List.mem_of_mem_dropLast hmem)) hrest
          · have hplain := pending_name hup hpending
            have hrest : ".." ∉ rest := List.not_mem_of_not_mem_cons hplain
            have hnext : ".." ∉ q ++ [name] := by
              intro hmem
              rcases List.mem_append.mp hmem with hmem | hmem
              · exact hq hmem
              · exact hup (List.mem_singleton.mp hmem).symm
            rw [if_neg hup]
            simp only [List.append_assoc]
            split
            · next text hlink =>
                split
                · refine ⟨⟨q ++ [name], rest, by simp, hnext, pending_down hnext hrest⟩, ?_⟩
                  intro h
                  cases h
                · rcases htame _ _ hlink with ⟨q', last, heq, htext⟩
                  have hdir : q' = q := (List.append_inj_left' heq rfl).symm
                  rw [hdir] at htext
                  rcases htext.way with ⟨habs, rel, hrel, hway⟩
                  have hrel' : ".." ∉ rel := fun hmem => (hrel _ hmem).2.2.1 rfl
                  rw [habs]
                  have hinner := ih ((payload ++ (q ++ [name])) :: seen) q (Path.names text) hq
                    ⟨rel, hrel', hway⟩
                  simp only [Bool.false_eq_true, if_false]
                  split
                  · next found hfound =>
                      rw [hfound] at hinner
                      rcases hinner.right rfl with ⟨r, hr, hpath⟩
                      simp only at hpath
                      rw [hpath]
                      exact ih seen r rest hr (pending_down hr hrest)
                  · next found hfound =>
                      rw [hfound] at hinner
                      exact ⟨hinner.left.append hrest, fun h => by cases h⟩
            · exact ih seen (q ++ [name]) rest hnext (pending_down hnext hrest)

theorem realPath_below (htame : TameBelow disk payload)
    (hchain : Chain (lookAt disk) (payload ++ q)) (budget : Nat) {names : List String}
    (hpending : Pending q names) : payload <+: realPath disk budget (payload ++ q ++ names) := by
  have hplain := hchain.plain
  have hq : ".." ∉ q := fun hmem => hplain (List.mem_append_right _ hmem)
  have hpayload : ".." ∉ payload := fun hmem => hplain (List.mem_append_left _ hmem)
  unfold realPath
  have hwalk := @joinRealPath_walk _ disk [] (payload ++ q) names [] budget
    (by rw [List.nil_append]; exact hchain)
  rw [List.nil_append] at hwalk
  rcases hwalk with hstopped | ⟨left, hleft⟩
  · rw [hstopped]
    exact Staying.resolve hpayload ⟨q, names, rfl, hq, hpending⟩
  · rw [hleft]
    exact Staying.resolve hpayload (joinRealPath_below htame left [] q names hq hpending).left

/-!
## The links of a tree
-/

section Links

variable {entries : List (String × Node data)} {n : Node data} {here : List String}
  {name text : String} {l : List String × String}

theorem mem_linksIn : l ∈ linksIn here entries <->
    exists name n, (name, n) ∈ entries ∧ l ∈ links (here ++ [name]) n := by
  induction entries with
  | nil =>
      unfold linksIn
      simp
  | cons e rest ih =>
      unfold linksIn
      rw [List.mem_append, ih]
      constructor
      · intro h
        rcases h with h | ⟨name, n, hmem, h⟩
        · exact ⟨e.1, e.2, List.mem_cons_self, h⟩
        · exact ⟨name, n, List.mem_cons_of_mem _ hmem, h⟩
      · intro h
        rcases h with ⟨name, n, hmem, h⟩
        rcases List.mem_cons.mp hmem with heq | hmem
        · rw [← heq]
          exact Or.inl h
        · exact Or.inr ⟨name, n, hmem, h⟩

theorem mem_links_of_at {r : List String} (h : at? r (some n) = some (.link text)) :
    (here ++ r, text) ∈ links here n := by
  induction r generalizing n here with
  | nil =>
      rw [Node.at?_nil] at h
      rw [Option.some.inj h, List.append_nil]
      unfold links
      exact List.mem_singleton_self _
  | cons name r ih =>
      cases n with
      | file d => cases h
      | link target => cases h
      | dir entries =>
          change at? r (entries.lookup name) = _ at h
          cases hlookup : entries.lookup name with
          | none =>
              rw [hlookup, Node.at?_none] at h
              cases h
          | some m =>
              rw [hlookup] at h
              rcases List.lookup_eq_some_iff.mp hlookup with ⟨first, rest, heq, _⟩
              have hin : (here ++ [name] ++ r, text) ∈ links (here ++ [name]) m := ih h
              rw [List.append_assoc, List.singleton_append] at hin
              unfold links
              refine mem_linksIn.mpr ⟨name, m, ?_, hin⟩
              rw [heq]
              exact List.mem_append_right _ List.mem_cons_self

theorem namedIn_mem (h : NamedIn entries) (hmem : (name, n) ∈ entries) :
    Path.Segment name ∧ Named n ∧ entries.lookup name = some n := by
  induction entries with
  | nil => cases hmem
  | cons e rest ih =>
      rcases e with ⟨first, m⟩
      unfold NamedIn at h
      rcases h with ⟨hname, hfresh, hm, hrest⟩
      rcases List.mem_cons.mp hmem with heq | hmem
      · cases heq
        exact ⟨hname, hm, List.lookup_cons_self⟩
      · rcases ih hrest hmem with ⟨hsegment, hn, hlookup⟩
        have hne : name ≠ first := by
          intro heq
          rw [heq] at hmem
          exact hfresh (List.mem_map.mpr ⟨_, hmem, rfl⟩)
        rw [List.lookup_cons, beq_eq_false_iff_ne.mpr hne]
        exact ⟨hsegment, hn, hlookup⟩

theorem links_at {here : List String} {l : List String × String} : (n : Node data) ->
    Named n -> l ∈ links here n ->
    exists r, l.1 = here ++ r ∧ Segments r ∧ at? r (some n) = some (.link l.2)
  | .file d, _, h => by
      unfold links at h
      cases h
  | .link text, _, h => by
      unfold links at h
      rw [List.mem_singleton.mp h]
      exact ⟨[], by simp, fun _ hmem => absurd hmem List.not_mem_nil, rfl⟩
  | .dir entries, hn, h => by
      unfold links at h
      unfold Named at hn
      rcases mem_linksIn.mp h with ⟨name, m, hmem, hl⟩
      rcases namedIn_mem hn hmem with ⟨hname, hm, hlookup⟩
      have hsize : sizeOf m < sizeOf entries := by
        have hentry := List.sizeOf_lt_of_mem hmem
        simp only [Prod.mk.sizeOf_spec] at hentry
        omega
      rcases links_at m hm hl with ⟨r, hpath, hr, hat⟩
      refine ⟨name :: r, by rw [hpath]; simp, fun other hother => ?_, ?_⟩
      · rcases List.mem_cons.mp hother with heq | hmem
        · rw [heq]
          exact hname
        · exact hr other hmem
      · change at? r (entries.lookup name) = _
        rw [hlookup]
        exact hat
  termination_by n => sizeOf n
  decreasing_by
    rw [Node.dir.sizeOf_spec]
    omega

end Links

/-!
## A snapshot in its place
-/

section Place

variable {copy : Node data}

structure TameTree (copy : Node data) : Prop where
  named : Named copy
  tame : forall l, l ∈ links [] copy -> TameLink l

theorem TameTree.tameBelow (h : TameTree copy) (hat : at? payload disk = some copy) :
    TameBelow disk payload := by
  intro r text hlink
  rw [Node.at?_append, hat] at hlink
  exact h.tame _ (mem_links_of_at hlink)

theorem TameTree.link (h : TameTree copy) (hpayload : Segments payload)
    (hat : at? payload disk = some copy) {l : List String × String}
    (hl : l ∈ links payload copy) :
    exists q name, l.1 = payload ++ q ++ [name] ∧ name ≠ ".." ∧ Tame q l.2 ∧
      Chain (lookAt disk) (payload ++ q) := by
  rcases links_at copy h.named hl with ⟨r, hpath, hr, hlink⟩
  rcases h.tame (r, l.2) (mem_links_of_at hlink) with ⟨q, name, heq, htame⟩
  simp only at heq
  have hplain : ".." ∉ payload ++ q := by
    intro hmem
    rcases List.mem_append.mp hmem with hmem | hmem
    · exact (hpayload _ hmem).2.2.1 rfl
    · exact (hr ".." (by rw [heq]; exact List.mem_append_left _ hmem)).2.2.1 rfl
  refine ⟨q, name, by rw [hpath, heq, List.append_assoc], ?_, htame, ?_⟩
  · exact (hr name (by rw [heq]; simp)).2.2.1
  · refine Symlinks.chain_above (q := [name]) (n := .link l.2) ?_ (by simp) hplain
    rw [List.append_assoc, ← heq, Node.at?_append, hat]
    exact hlink

theorem at?_placed (payload : List String) (copy : Node data) :
    at? payload (some (placed payload copy)) = some copy := by
  induction payload with
  | nil => exact Node.at?_nil _
  | cons name rest ih =>
      unfold placed
      change at? rest (List.lookup name [(name, placed rest copy)]) = _
      rw [List.lookup_cons_self]
      exact ih

/-- The links can be followed to their ends. -/
def Followed (budget : Nat) (payload : List String) (copy : Node data) : Prop :=
  forall l, l ∈ links payload copy ->
    (joinRealPath (some (placed payload copy)) budget [] []
      (l.1.dropLast ++ Path.names l.2)).2 = true

theorem TameTree.validated (h : TameTree copy) (hpayload : Segments payload)
    (loopsRaise : Bool) (budget : Nat) :
    validatePayloadSymlinks loopsRaise budget payload copy = .ok ⟨⟩ <->
      loopsRaise = false ∨ Followed budget payload copy := by
  have hat := at?_placed payload copy
  have hone : forall l, l ∈ links payload copy ->
      (validateLink loopsRaise budget payload (some (placed payload copy)) l = .ok ⟨⟩ <->
        ¬(loopsRaise = true ∧ (joinRealPath (some (placed payload copy)) budget [] []
          (l.1.dropLast ++ Path.names l.2)).2 = false)) := by
    intro l hl
    rcases h.link hpayload hat hl with ⟨q, name, hpath, _, htame, hchain⟩
    rcases htame.way with ⟨habs, rel, hrel, hway⟩
    have hprefix := realPath_below (h.tameBelow hat) hchain budget ⟨rel, hrel.plain, hway⟩
    have hpath' : l.1.dropLast = payload ++ q := by rw [hpath, List.dropLast_concat]
    unfold validateLink pathResolve
    rw [if_neg (by rw [habs]; decide), hpath']
    constructor
    · intro hok hcircle
      rw [if_pos hcircle] at hok
      cases hok
    · intro hno
      rw [if_neg hno, Fallible.ok_bind, if_pos hprefix]
  unfold validatePayloadSymlinks
  rw [Fallible.forM_ok]
  constructor
  · intro hall
    cases hraise : loopsRaise with
    | false => exact Or.inl rfl
    | true =>
        refine Or.inr fun l hl => ?_
        have hno := (hone l hl).mp (hall l hl)
        rw [hraise] at hno
        exact (Bool.not_eq_false _).mp fun hfalse => hno ⟨rfl, hfalse⟩
  · intro hall l hl
    refine (hone l hl).mpr fun hcircle => ?_
    rcases hall with hraise | hfollowed
    · rw [hraise] at hcircle
      cases hcircle.left
    · rw [hfollowed l hl] at hcircle
      cases hcircle.right

theorem TameTree.validatedThere (h : TameTree copy) (hpayload : Segments payload)
    (hat : at? payload disk = some copy) (hroot : forall text, copy ≠ .link text)
    (w : World data) : validatePayloadLinks w payload disk = .ok ⟨⟩ := by
  unfold validatePayloadLinks
  have hnone : (links payload copy).find? (fun l => !w.unseen l.1 &&
      (Path.isAbs l.2 || !payload.isPrefixOf (realPath disk w.budget l.1))) = none := by
    rw [List.find?_eq_none]
    intro l hl
    rcases h.link hpayload hat hl with ⟨q, name, hpath, hname, htame, hchain⟩
    have hpending : Pending q [name] :=
      pending_down (fun hmem => hchain.plain (List.mem_append_right _ hmem))
        fun hmem => hname (List.mem_singleton.mp hmem).symm
    have hprefix := realPath_below (h.tameBelow hat) hchain w.budget hpending
    rw [htame.way.left, hpath, List.isPrefixOf_iff_prefix.mpr hprefix]
    simp
  rw [hat]
  cases copy with
  | link text => exact absurd rfl (hroot text)
  | file d => simp only [hnone]
  | dir entries => simp only [hnone]

/-!
## The archive
-/

theorem lexical_tame {root : List String} {text : String} (hroot : Segments root)
    (h : Tame q text) :
    exists rel, lexicalRelativeToRoot (root ++ q) text root = .ok rel ∧
      text = relText (relPath q rel) := by
  rcases h with ⟨rel, hrel, htext⟩
  have hway := relText_way hrel q
  rw [← htext] at hway
  have hresolve : Path.resolve (root ++ q) (Path.names text) = root ++ rel :=
    Symlinks.resolve_way (hway.right.append root) (not_mem_append hroot.plain hrel.plain)
  refine ⟨rel, ?_, htext⟩
  unfold lexicalRelativeToRoot
  simp only [hway.left, hresolve, Bool.false_eq_true, if_false]
  rw [if_pos (List.prefix_append _ _), List.drop_left]

mutual

theorem archiveNode_same {root : List String} (hroot : Segments root) (here : List String) :
    (n : Node data) -> (forall l, l ∈ links here n -> TameLink l) ->
    archiveNode root here n = .ok n
  | .file d, _ => by
      unfold archiveNode
      rfl
  | .link text, h => by
      rcases h (here, text) (by unfold links; exact List.mem_singleton_self _) with
        ⟨q, name, heq, htame⟩
      simp only at heq htame
      rcases lexical_tame hroot htame with ⟨rel, hrel, htext⟩
      unfold archiveNode
      rw [heq, List.dropLast_concat, hrel, Fallible.ok_bind]
      have hpath := relPath_append ["payload"] q rel
      rw [List.singleton_append, List.singleton_append] at hpath
      rw [hpath, ← htext]
      rfl
  | .dir entries, h => by
      unfold archiveNode
      rw [archiveEntries_same hroot here entries (by unfold links at h; exact h),
        Fallible.ok_bind]
      rfl

theorem archiveEntries_same {root : List String} (hroot : Segments root) (here : List String) :
    (entries : List (String × Node data)) ->
    (forall l, l ∈ linksIn here entries -> TameLink l) ->
    archiveEntries root here entries = .ok entries
  | [], _ => by
      unfold archiveEntries
      rfl
  | (name, n) :: rest, h => by
      unfold linksIn at h
      unfold archiveEntries
      rw [archiveNode_same hroot (here ++ [name]) n
          fun l hl => h l (List.mem_append_left _ hl), Fallible.ok_bind,
        archiveEntries_same hroot here rest fun l hl => h l (List.mem_append_right _ hl),
        Fallible.ok_bind]
      rfl

end

theorem copyPayload_root {excludeGit : Bool} {source : List String} {tree : Local data}
    (h : copyPayloadSnapshot excludeGit source payload tree = .ok copy) (text : String) :
    copy ≠ .link text := by
  unfold copyPayloadSnapshot at h
  split at h
  · rcases Fallible.bind_ok h with ⟨copied, _, h⟩
    cases h
    exact fun heq => by cases heq
  · cases h
    exact fun heq => by cases heq
  · cases h
  · cases h

theorem createSyncArchive_ok {source : List String} (hsource : Segments source)
    (hpayload : Segments payload) (hgit : ".git" ∉ source) {tree : Local data}
    (hnamed : Named tree) (loopsRaise : Bool) (budget : Nat) (packed : Node data) :
    createSyncArchive loopsRaise budget source payload (some tree) = .ok packed <->
      copyPayloadSnapshot true source payload tree = .ok packed ∧
        (loopsRaise = false ∨ Followed budget payload packed) := by
  have hstep (hroot : forall text, tree ≠ .link text) :
      createSyncArchive loopsRaise budget source payload (some tree) =
        (copyPayloadSnapshot true source payload tree >>= fun copy =>
          validatePayloadSymlinks loopsRaise budget payload copy >>= fun _ =>
            archiveNode payload [] copy) := by
    cases tree with
    | link text => exact absurd rfl (hroot text)
    | file d =>
        change (if ".git" ∈ source then _ else _) = _
        rw [if_neg hgit]
    | dir entries =>
        change (if ".git" ∈ source then _ else _) = _
        rw [if_neg hgit]
  constructor
  · intro h
    have hroot : forall text, tree ≠ .link text := by
      intro text heq
      rw [heq] at h
      cases h
    rw [hstep hroot] at h
    rcases Fallible.bind_ok h with ⟨copy, hcopy, h⟩
    rcases Fallible.bind_ok h with ⟨_, hvalid, h⟩
    have htree := copyPayload_tame hsource hnamed hcopy
    rw [archiveNode_same hpayload [] copy htree.right] at h
    cases h
    exact ⟨hcopy, (TameTree.validated ⟨htree.left, htree.right⟩ hpayload _ _).mp hvalid⟩
  · intro h
    have hroot : forall text, tree ≠ .link text := by
      intro text heq
      rw [heq] at h
      cases h.left
    have htree := copyPayload_tame hsource hnamed h.left
    have hvalid := (TameTree.validated ⟨htree.left, htree.right⟩ hpayload _ _).mpr h.right
    rw [hstep hroot, h.left, Fallible.ok_bind, hvalid, Fallible.ok_bind]
    exact archiveNode_same hpayload [] packed htree.right

/-- A tree that was copied is packed as it was copied, unless its links lead in circles; and a
VM that unpacks what was packed accepts it, wherever the stage is and whatever lies around. -/
theorem snapshot_accepted {source : List String} (hsource : Segments source)
    (hpayload : Segments payload) (hgit : ".git" ∉ source) {tree : Local data}
    (hnamed : Named tree) (loopsRaise : Bool) (budget : Nat) (packed : Node data) :
    (createSyncArchive loopsRaise budget source payload (some tree) = .ok packed <->
      copyPayloadSnapshot true source payload tree = .ok packed ∧
        (loopsRaise = false ∨ Followed budget payload packed)) ∧
    (createSyncArchive loopsRaise budget source payload (some tree) = .ok packed ->
      forall (w : World data) (stage : List String) (disk : Option (Node data)),
        Segments stage -> at? stage disk = some packed ->
        validatePayloadLinks w stage disk = .ok ⟨⟩) := by
  have hok := createSyncArchive_ok hsource hpayload hgit hnamed loopsRaise budget packed
  refine ⟨hok, fun h w stage disk hstage hat => ?_⟩
  have hcopy := (hok.mp h).left
  have htree := copyPayload_tame hsource hnamed hcopy
  exact TameTree.validatedThere ⟨htree.left, htree.right⟩ hstage hat (copyPayload_root hcopy) w

end Place

def straightEntries : List (String × Local Nat) :=
  [("d", .dir [("up", .link "../g")]), ("g", .file (some 1)), ("l", .link "d/../g"),
    (".git", .dir [])]

def straightCopy : Node Nat :=
  .dir [("d", .dir [("up", .link "../g")]), ("g", .file 1), ("l", .link "g")]

theorem snapshot_accepted_straight :
    createSyncArchive true 99 ["src"] ["tmp", "payload"] (some (.dir straightEntries)) =
        .ok straightCopy ∧
      validatePayloadLinks ⟨fun _ => none, fun _ => .ok [], fun _ => false, 1, 99⟩
        ["content", "stage", "payload"]
        (some (placed ["content", "stage", "payload"] straightCopy)) = .ok ⟨⟩ := by
  have hnamed : Named (Node.dir straightEntries) := by
    simp only [straightEntries, Named, NamedIn]
    decide
  have hpacked : createSyncArchive true 99 ["src"] ["tmp", "payload"]
      (some (.dir straightEntries)) = .ok straightCopy := rfl
  have hboth := snapshot_accepted (by decide : Segments ["src"])
    (by decide : Segments ["tmp", "payload"]) (by decide) hnamed true 99 straightCopy
  exact ⟨hboth.left.mpr (hboth.left.mp hpacked),
    hboth.right hpacked _ _ _ (by decide) (at?_placed _ _)⟩

end Sync
end MightyColab
