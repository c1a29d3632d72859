import MightyColab.Sync.SnapshotAccepted

/-!
# What the links of a snapshot lead to

The links are packed with new texts, and `..` in a text means the directory above what came
before, which need not be what the text says on paper. Where every `..` comes after real
directories, paths lead to the same places of the tree on the VM.
-/

namespace MightyColab
namespace Sync

open Lib
open Lib.Symlinks (Chain Look Straight Alike Copied Leads Entry entryOf lookAt)
open Node (at?)

variable {data : Type}

mutual

def pruned : Node data -> Node data
  | .dir entries => .dir (prunedIn entries)
  | .file d => .file d
  | .link text => .link text

def prunedIn : List (String × Node data) -> List (String × Node data)
  | [] => []
  | (name, n) :: rest =>
      if name = ".git" then prunedIn rest else (name, pruned n) :: prunedIn rest

end

def readable : Entry data -> Entry (Option data)
  | .file d => .file (some d)
  | .link text => .link text
  | .dir => .dir

section Copy

variable {source payload q : List String} {name text : String} {n : Local data}
  {entries : List (String × Local data)} {copied : List (String × Node data)}

/-!
## Entry by entry
-/

inductive Counterpart (source : List String) :
    List String -> Option (Local data) -> Option (Node data) -> Prop where
  | nothing (q : List String) : Counterpart source q none none
  | file (q : List String) (d : data) :
      Counterpart source q (some (.file (some d))) (some (.file d))
  | dir (q : List String) (entries : List (String × Local data))
      (copied : List (String × Node data)) :
      Counterpart source q (some (.dir entries)) (some (.dir copied))
  | link {q rel : List String} (name : String) {text : String} :
      lexicalRelativeToRoot (source ++ q) text source = .ok rel ->
      Counterpart source (q ++ [name]) (some (.link text)) (some (.link (relText (relPath q rel))))

theorem copyEntries_lookup (name : String)
    (h : copyEntries true source payload q entries = .ok copied) :
    (prunedIn entries).lookup name = none ∧ copied.lookup name = none ∨
      exists n c, (prunedIn entries).lookup name = some (pruned n) ∧
        copied.lookup name = some c ∧ copyNode true source payload q name n = .ok c := by
  induction entries generalizing copied with
  | nil =>
      unfold copyEntries at h
      cases h
      exact Or.inl ⟨rfl, rfl⟩
  | cons e rest ih =>
      rcases e with ⟨first, m⟩
      unfold prunedIn
      rcases copyEntries_cons h with ⟨_, hgit, h⟩ | ⟨hgit, c, others, heq, hc, hothers⟩
      · rw [if_pos hgit]
        exact ih h
      · rw [if_neg fun heq => hgit ⟨rfl, heq⟩, heq]
        by_cases hname : name = first
        · rw [← hname] at hc ⊢
          exact Or.inr ⟨m, c, List.lookup_cons_self, List.lookup_cons_self, hc⟩
        · rw [List.lookup_cons, List.lookup_cons, beq_eq_false_iff_ne.mpr hname]
          exact ih hothers

theorem copyEntries_at {r : List String} (hr : r ≠ [])
    (h : copyEntries true source payload q entries = .ok copied) :
    Counterpart source (q ++ r) (at? r (some (.dir (prunedIn entries))))
      (at? r (some (.dir copied))) := by
  induction r generalizing q entries copied with
  | nil => exact absurd rfl hr
  | cons name r ih =>
      change Counterpart source _ (at? r ((prunedIn entries).lookup name))
        (at? r (copied.lookup name))
      rcases copyEntries_lookup name h with ⟨hnone, hnone'⟩ | ⟨n, c, hn, hc, hcopy⟩
      · rw [hnone, hnone', Node.at?_none, Node.at?_none]
        exact Counterpart.nothing _
      · rw [hn, hc]
        cases n with
        | link text =>
            unfold copyNode at hcopy
            rcases Fallible.bind_ok hcopy with ⟨rel, hrel, hcopy⟩
            cases hcopy
            rw [relPath_append]
            unfold pruned
            cases r with
            | nil => exact Counterpart.link name hrel
            | cons next r => exact Counterpart.nothing _
        | file d =>
            unfold pruned
            cases d with
            | none =>
                unfold copyNode at hcopy
                cases hcopy
            | some d =>
                unfold copyNode at hcopy
                cases hcopy
                cases r with
                | nil => exact Counterpart.file _ d
                | cons next r => exact Counterpart.nothing _
        | dir below =>
            unfold copyNode at hcopy
            rcases Fallible.bind_ok hcopy with ⟨copied', hcopied, hcopy⟩
            cases hcopy
            unfold pruned
            cases r with
            | nil => exact Counterpart.dir _ _ _
            | cons next r =>
                have hnext := ih (q := q ++ [name]) (by simp) hcopied
                rw [List.append_assoc, List.singleton_append] at hnext
                exact hnext

/-!
## The whole tree
-/

theorem named_at {m n : Node data} {r : List String} (hn : Named n)
    (h : at? r (some n) = some m) : Segments r := by
  induction r generalizing n with
  | nil => exact fun _ hmem => absurd hmem List.not_mem_nil
  | cons name r ih =>
      cases n with
      | file d => cases h
      | link text => cases h
      | dir entries =>
          change at? r (entries.lookup name) = some m at h
          cases hlookup : entries.lookup name with
          | none =>
              rw [hlookup, Node.at?_none] at h
              cases h
          | some c =>
              rw [hlookup] at h
              rcases List.lookup_eq_some_iff.mp hlookup with ⟨front, rest, heq, _⟩
              unfold Named at hn
              have hmem : (name, c) ∈ entries := by
                rw [heq]
                exact List.mem_append_right _ List.mem_cons_self
              have hentry := namedIn_mem hn hmem
              intro other hother
              rcases List.mem_cons.mp hother with hsame | hmem
              · rw [hsame]
                exact hentry.left
              · exact ih hentry.right.left h other hmem

/-- On the side of the source and on that of the VM, with any disk around them. -/
structure Placed (look look' : Look (Option data)) (source base : List String)
    (tree : Local data) (copy : Node data) : Prop where
  root : Chain look source
  there : forall q, look (source ++ q) = lookAt (some (pruned tree)) q
  packed : forall q, look' (base ++ q) = (lookAt (some copy) q).map readable

theorem copied_counterpart {tree : Local data} {copy : Node data}
    (hcopy : copyPayloadSnapshot true source payload tree = .ok copy) (q : List String) :
    Counterpart source q (at? q (some (pruned tree))) (at? q (some copy)) := by
  unfold copyPayloadSnapshot at hcopy
  split at hcopy
  · rcases Fallible.bind_ok hcopy with ⟨copied, hcopied, hcopy⟩
    cases hcopy
    unfold pruned
    cases q with
    | nil => exact Counterpart.dir _ _ _
    | cons name q => exact copyEntries_at (q := []) (by simp) hcopied
  · cases hcopy
    unfold pruned
    cases q with
    | nil => exact Counterpart.file _ _
    | cons name q => exact Counterpart.nothing _
  · cases hcopy
  · cases hcopy

theorem relinked {rel : List String} (hsource : Segments source) (hq : Segments q)
    (h : lexicalRelativeToRoot (source ++ q) text source = .ok rel) :
    Symlinks.Relinked source q text (relText (relPath q rel)) := by
  have hrel := lexical_segments hsource hq h
  have hok := lexical_ok h
  have hway := relText_way hrel q
  exact ⟨hok.left, hway.left, rel, hrel.plain, hok.right, hway.right⟩

section Seen

variable {x : Option (Local data)} {y : Option (Node data)}

theorem Counterpart.same (h : Counterpart source q x y) :
    (x.map entryOf = some .dir <-> (y.map entryOf).map readable = some .dir) ∧
      forall d, x.map entryOf = some (.file d) <->
        (y.map entryOf).map readable = some (.file d) := by
  cases h with
  | nothing => simp
  | file d => simp [entryOf, readable]
  | dir entries copied => simp [entryOf, readable]
  | link name hrel => simp [entryOf, readable]

theorem Counterpart.seen (h : Counterpart source (q ++ [name]) x y)
    (hlink : x.map entryOf = some (.link text)) :
    exists rel, lexicalRelativeToRoot (source ++ q) text source = .ok rel ∧
      y = some (.link (relText (relPath q rel))) := by
  generalize hpath : q ++ [name] = path at h
  cases h with
  | nothing => cases hlink
  | file d => cases hlink
  | dir entries copied => cases hlink
  | @link q' rel name' text' hrel =>
      cases hlink
      have hq : q = q' := List.append_inj_left' hpath rfl
      rw [hq]
      exact ⟨rel, hrel, rfl⟩

theorem Counterpart.back (h : Counterpart source q x y)
    (hlink : (y.map entryOf).map readable = some (.link text)) :
    exists text', x.map entryOf = some (.link text') := by
  cases h with
  | nothing => cases hlink
  | file d => cases hlink
  | dir entries copied => cases hlink
  | @link q rel name text' hrel => exact ⟨text', rfl⟩

end Seen

theorem Placed.same {look look' : Look (Option data)} {base : List String}
    {tree : Local data} {copy : Node data} (h : Placed look look' source base tree copy)
    (hcopy : copyPayloadSnapshot true source payload tree = .ok copy) (q : List String) :
    (look (source ++ q) = some .dir <-> look' (base ++ q) = some .dir) ∧
      forall d, look (source ++ q) = some (.file d) <-> look' (base ++ q) = some (.file d) := by
  rw [h.there, h.packed]
  exact (copied_counterpart hcopy q).same

theorem Placed.isCopied {look look' : Look (Option data)} {base : List String}
    {tree : Local data} {copy : Node data} (h : Placed look look' source base tree copy)
    (hsource : Segments source)
    (hcopy : copyPayloadSnapshot true source payload tree = .ok copy) (hnamed : Named copy)
    (hstraight : forall q name text, look (source ++ (q ++ [name])) = some (.link text) ->
      Straight look (source ++ q) (Path.names text)) :
    Copied look look' source base := by
  have hcounterpart := copied_counterpart hcopy
  refine ⟨h.root, fun q => (h.same hcopy q).left, fun q => (h.same hcopy q).right,
    fun q name text hlink => ?_, fun q name text' hlink => ?_, hstraight⟩
  · rw [h.there] at hlink
    rcases (hcounterpart (q ++ [name])).seen hlink with ⟨rel, hrel, hat⟩
    have hpath := named_at hnamed hat
    refine ⟨_, ?_, relinked hsource (fun _ hmem => hpath _ (List.mem_append_left _ hmem)) hrel⟩
    rw [h.packed, lookAt, hat]
    rfl
  · rw [h.packed] at hlink
    rw [h.there]
    exact (hcounterpart (q ++ [name])).back hlink

/-- What is packed of a directory, put anywhere, has the same files and directories. Where `..`
comes after real directories in each link of the source, every path leads to the same place,
with as many links followed, and to no place outside. -/
theorem snapshot_leads (hsource : Segments source) (hpayload : Segments payload)
    (hgit : ".git" ∉ source) {tree : Local data} (hnamed : Named tree) {loopsRaise : Bool}
    {budget : Nat} {packed : Node data}
    (hpacked : createSyncArchive loopsRaise budget source payload (some tree) = .ok packed)
    {look look' : Look (Option data)} {base : List String}
    (hplaced : Placed look look' source base tree packed) :
    (forall q, (look (source ++ q) = some .dir <-> look' (base ++ q) = some .dir) ∧
      forall d, look (source ++ q) = some (.file d) <-> look' (base ++ q) = some (.file d)) ∧
    ((forall q name text, look (source ++ (q ++ [name])) = some (.link text) ->
        Straight look (source ++ q) (Path.names text)) ->
      forall n names, ".." ∉ names -> Alike look look' source base n [] names) := by
  have hcopy := ((createSyncArchive_ok hsource hpayload hgit hnamed _ _ _).mp hpacked).left
  refine ⟨hplaced.same hcopy, fun hstraight n names hplain => ?_⟩
  have htree := copyPayload_tame hsource hnamed hcopy
  have hcopied := hplaced.isCopied hsource hcopy htree.left hstraight
  exact hcopied.alike n [] names (by rw [List.append_nil]; exact hplaced.root) hplain

end Copy

theorem placed_both {source : List String} (hsource : ".." ∉ source) (base : List String)
    (entries : List (String × Local data)) (copy : Node data) :
    Placed (lookAt (some (placed source (pruned (.dir entries)))))
      (fun p => (lookAt (some (placed base copy)) p).map readable) source base
      (.dir entries) copy := by
  refine ⟨⟨hsource, fun q hq _ => ?_⟩, fun q => ?_, fun q => ?_⟩
  · have hat := at?_placed source (pruned (Node.dir entries))
    rcases hq with ⟨r, hr⟩
    cases r with
    | nil =>
        rw [List.append_nil] at hr
        rw [lookAt, hr, hat]
        unfold pruned
        rfl
    | cons name r =>
        rw [← hr] at hat ⊢
        exact Symlinks.lookAt_dir.mpr (Symlinks.at?_above hat (by simp))
  · rw [lookAt, Node.at?_append, at?_placed]
    rfl
  · rw [lookAt, Node.at?_append, at?_placed]
    rfl

def bentEntries : List (String × Local Nat) :=
  [("e", .dir [("h", .dir []), ("g", .file (some 2))]), ("g", .file (some 1)),
    ("l", .link "e/h"), ("m", .link "l/../g")]

def bentCopy : Node Nat :=
  .dir [("e", .dir [("h", .dir []), ("g", .file 2)]), ("g", .file 1), ("l", .link "e/h"),
    ("m", .link "g")]

theorem snapshot_leads_straight :
    Alike (lookAt (some (placed ["src"] (pruned (.dir straightEntries)))))
      (fun p => (lookAt (some (placed ["content", "to"] straightCopy)) p).map readable)
      ["src"] ["content", "to"] 1 [] ["l"] := by
  have hpacked : createSyncArchive true 99 ["src"] ["tmp", "payload"]
      (some (.dir straightEntries)) = .ok straightCopy := rfl
  have hplaced := placed_both (by decide : ".." ∉ ["src"]) ["content", "to"] straightEntries
    straightCopy
  have hnamed : Named (Node.dir straightEntries) := by
    simp only [straightEntries, Named, NamedIn]
    decide
  refine (snapshot_leads (by decide) (by decide) (by decide) hnamed hpacked hplaced).right
    ?_ 1 ["l"] (by decide)
  intro q name text hlink
  rw [hplaced.there] at hlink
  have hmem := @mem_links_of_at _ _ [] _ _ (Symlinks.lookAt_link.mp hlink)
  change _ ∈ [(["d", "up"], "../g"), (["l"], "d/../g")] at hmem
  have hup : Path.names "../g" = ["..", "g"] := by decide
  have hdown : Path.names "d/../g" = ["d", "..", "g"] := by decide
  rcases List.mem_cons.mp hmem with heq | hmem
  · rcases Prod.mk.inj heq with ⟨hpath, htext⟩
    have hq : q = ["d"] := List.append_inj_left' (hpath : q ++ [name] = ["d"] ++ ["up"]) rfl
    rw [htext, hup, hq]
    exact Or.inl List.not_mem_nil
  · rcases Prod.mk.inj (List.mem_singleton.mp hmem) with ⟨hpath, htext⟩
    have hq : q = [] := List.append_inj_left' (hpath : q ++ [name] = [] ++ ["l"]) rfl
    rw [htext, hdown, hq]
    exact Or.inr ⟨rfl, Or.inl List.not_mem_nil⟩

/-- Where a text goes up from a link, it leads elsewhere than it says on paper. -/
theorem bent_misleads :
    createSyncArchive true 99 ["src"] ["tmp", "payload"] (some (.dir bentEntries)) =
        .ok bentCopy ∧
      Leads (lookAt (some (placed ["src"] (pruned (.dir bentEntries))))) 2 ["src"] ["m"]
        ["src", "e", "g"] ∧
      Leads (lookAt (some (placed ["to"] bentCopy))) 1 ["to"] ["m"] ["to", "g"] := by
  have hm : Path.names "l/../g" = ["l", "..", "g"] := by decide +kernel
  have hl : Path.names "e/h" = ["e", "h"] := by decide
  have hg : Path.names "g" = ["g"] := by decide
  refine ⟨rfl, ?_, ?_⟩
  · refine Leads.link (by decide) rfl ?_
    rw [hm]
    refine Leads.link (by decide) rfl ?_
    rw [hl]
    refine Leads.down (by decide) rfl (Leads.down (by decide) rfl (Leads.up ?_))
    exact Leads.file (by decide) rfl
  · refine Leads.link (by decide) rfl ?_
    rw [hg]
    exact Leads.file (by decide) rfl

end Sync
end MightyColab
