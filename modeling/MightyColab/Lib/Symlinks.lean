import Mathlib.Data.List.Induction
import MightyColab.Lib.FileTree

/-!
# Paths through symbolic links

Where a path leads in a file system that is given by what lies at each name, with links followed
one by one. A link may be written anew, by the way from its directory to what its text comes to
on paper, where the text goes up from real directories only.
-/

namespace MightyColab
namespace Lib
namespace Symlinks

variable {data : Type}

inductive Entry (data : Type) where
  | file (d : data)
  | link (text : String)
  | dir

/-- What lies at an absolute path. -/
abbrev Look (data : Type) := List String -> Option (Entry data)

/-- Where the names lead from a directory, with so many links followed. -/
inductive Leads (look : Look data) : Nat -> List String -> List String -> List String -> Prop where
  | here (p : List String) : Leads look 0 p [] p
  | up {n : Nat} {p rest q : List String} : Leads look n p.dropLast rest q ->
      Leads look n p (".." :: rest) q
  | down {n : Nat} {p rest q : List String} {name : String} : name ≠ ".." ->
      look (p ++ [name]) = some .dir -> Leads look n (p ++ [name]) rest q ->
      Leads look n p (name :: rest) q
  | file {p : List String} {name : String} {d : data} : name ≠ ".." ->
      look (p ++ [name]) = some (.file d) -> Leads look 0 p [name] (p ++ [name])
  | link {n : Nat} {p rest q : List String} {name text : String} : name ≠ ".." ->
      look (p ++ [name]) = some (.link text) ->
      Leads look n (if Path.isAbs text then [] else p) (Path.names text ++ rest) q ->
      Leads look (n + 1) p (name :: rest) q

structure Chain (look : Look data) (p : List String) : Prop where
  plain : ".." ∉ p
  dirs : forall q, q <+: p -> q ≠ [] -> look q = some .dir

/-- Every `..` among the names comes after real directories only. -/
def Straight (look : Look data) : List String -> List String -> Prop
  | _, [] => True
  | p, name :: rest =>
      if name = ".." then Straight look p.dropLast rest
      else ".." ∉ rest ∨ look (p ++ [name]) = some .dir ∧ Straight look (p ++ [name]) rest

variable {look : Look data} {n : Nat} {p q r rest : List String} {name : String}

/-!
## Real directories
-/

theorem Chain.sub (h : Chain look p) (hq : q <+: p) : Chain look q :=
  ⟨fun hmem => h.plain (hq.subset hmem), fun _ hr => h.dirs _ (hr.trans hq)⟩

theorem Chain.dropLast (h : Chain look p) : Chain look p.dropLast :=
  h.sub (List.dropLast_prefix p)

theorem Chain.concat (h : Chain look p) (hname : name ≠ "..")
    (hdir : look (p ++ [name]) = some .dir) : Chain look (p ++ [name]) := by
  refine ⟨fun hmem => ?_, fun q hq hne => ?_⟩
  · rcases List.mem_append.mp hmem with hold | hlast
    · exact h.plain hold
    · exact hname (List.mem_singleton.mp hlast).symm
  · rcases List.prefix_concat_iff.mp hq with heq | hold
    · rw [heq]
      exact hdir
    · exact h.dirs q hold hne

theorem leads_dir (hname : name ≠ "..") (hdir : look (p ++ [name]) = some .dir) :
    Leads look n p (name :: rest) r <-> Leads look n (p ++ [name]) rest r := by
  constructor
  · intro h
    cases h with
    | up _ => exact absurd rfl hname
    | down _ _ h => exact h
    | file _ hfile =>
        rw [hdir] at hfile
        cases hfile
    | link _ hlink _ =>
        rw [hdir] at hlink
        cases hlink
  · exact Leads.down hname hdir

theorem leads_down (h : Chain look (p ++ q)) :
    Leads look n p (q ++ rest) r <-> Leads look n (p ++ q) rest r := by
  induction q generalizing p with
  | nil => simp
  | cons name q ih =>
      have hsplit : p ++ name :: q = p ++ [name] ++ q := by simp
      rw [hsplit] at h ⊢
      have hname : name ≠ ".." := fun heq => h.plain (by simp [heq])
      have hdir : look (p ++ [name]) = some .dir :=
        h.dirs (p ++ [name]) (List.prefix_append _ _) (by simp)
      rw [List.cons_append, leads_dir hname hdir]
      exact ih h

theorem leads_up_iff : Leads look n p (".." :: rest) r <-> Leads look n p.dropLast rest r := by
  constructor
  · intro h
    cases h with
    | up h => exact h
    | down hne _ _ => exact absurd rfl hne
    | file hne _ => exact absurd rfl hne
    | link hne _ _ => exact absurd rfl hne
  · exact Leads.up

theorem leads_ups : Leads look n (p ++ q) (List.replicate q.length ".." ++ rest) r <->
    Leads look n p rest r := by
  induction q using List.reverseRecOn with
  | nil => simp
  | append_singleton q name ih =>
      rw [List.length_append, List.length_singleton, List.replicate_succ, List.cons_append,
        leads_up_iff, ← List.append_assoc, List.dropLast_concat]
      exact ih

/-!
## The entries of a tree
-/

section Tree

open Node (at?)

def entryOf : Node data -> Entry data
  | .file d => .file d
  | .link text => .link text
  | .dir _ => .dir

def lookAt (disk : Option (Node data)) : Look data := fun p => (at? p disk).map entryOf

variable {disk : Option (Node data)} {n : Node data} {p q : List String}

theorem lookAt_dir :
    lookAt disk p = some .dir <-> exists entries, at? p disk = some (.dir entries) := by
  unfold lookAt
  cases at? p disk with
  | none => simp
  | some n => cases n <;> simp [entryOf]

theorem lookAt_link {text : String} :
    lookAt disk p = some (.link text) <-> at? p disk = some (.link text) := by
  unfold lookAt
  cases at? p disk with
  | none => simp
  | some n => cases n <;> simp [entryOf]

theorem at?_above (h : at? (p ++ q) disk = some n) (hq : q ≠ []) :
    exists entries, at? p disk = some (.dir entries) := by
  rw [Node.at?_append] at h
  cases q with
  | nil => exact absurd rfl hq
  | cons name q =>
      cases hp : at? p disk with
      | none =>
          rw [hp, Node.at?_none] at h
          cases h
      | some m =>
          rw [hp] at h
          cases m with
          | dir entries => exact ⟨entries, rfl⟩
          | file d => cases h
          | link text => cases h

theorem chain_above (h : at? (p ++ q) disk = some n) (hq : q ≠ []) (hplain : ".." ∉ p) :
    Chain (lookAt disk) p := by
  refine ⟨hplain, fun r hr _ => lookAt_dir.mpr ?_⟩
  rcases hr with ⟨s, hs⟩
  rw [← hs, List.append_assoc] at h
  exact at?_above h (by simp [hq])

end Tree

/-!
## Links written anew
-/

def Way (start path way : List String) : Prop :=
  exists common s q, start = common ++ s ∧ path = common ++ q ∧
    way = List.replicate s.length ".." ++ q

theorem Way.append {start path way : List String} (h : Way start path way)
    (front : List String) : Way (front ++ start) (front ++ path) way := by
  rcases h with ⟨common, s, q, hstart, hpath, hway⟩
  exact ⟨front ++ common, s, q, by rw [hstart, List.append_assoc],
    by rw [hpath, List.append_assoc], hway⟩

theorem resolve_way {start path way : List String} (h : Way start path way)
    (hpath : ".." ∉ path) : Path.resolve start way = path := by
  rcases h with ⟨common, s, q, hstart, heq, hway⟩
  have hups : forall s : List String,
      Path.resolve (common ++ s) (List.replicate s.length "..") = common := by
    intro s
    induction s using List.reverseRecOn with
    | nil => simp
    | append_singleton s name ih =>
        rw [List.length_append, List.length_singleton, List.replicate_succ, Path.resolve,
          List.foldl_cons, Path.enter, if_pos rfl, ← List.append_assoc, List.dropLast_concat]
        exact ih
  have hdown : ".." ∉ q := by
    rw [heq] at hpath
    exact fun hmem => hpath (List.mem_append_right _ hmem)
  rw [hstart, hway, Path.resolve, List.foldl_append, ← Path.resolve, ← Path.resolve, hups,
    Path.resolve_down hdown, heq]

/-- What names come to on paper leads where they do: up from real directories, and down by names
that do not lead up. -/
theorem straight_split {names : List String} (hchain : Chain look p)
    (h : Straight look p names) :
    exists p' down, Chain look p' ∧ ".." ∉ down ∧ Path.resolve p names = p' ++ down ∧
      forall n rest r, Leads look n p (names ++ rest) r <-> Leads look n p' (down ++ rest) r := by
  induction names generalizing p with
  | nil => exact ⟨p, [], hchain, List.not_mem_nil, by simp, fun _ _ _ => Iff.rfl⟩
  | cons name names ih =>
      unfold Straight at h
      by_cases hup : name = ".."
      · rw [if_pos hup] at h
        rcases ih hchain.dropLast h with ⟨p', down, hchain', hdown, hresolve, hleads⟩
        refine ⟨p', down, hchain', hdown, ?_, fun n rest r => ?_⟩
        · rw [← hresolve, Path.resolve, List.foldl_cons, Path.enter, if_pos hup]
          rfl
        · rw [hup, List.cons_append, leads_up_iff]
          exact hleads n rest r
      · rw [if_neg hup] at h
        rcases h with hplain | ⟨hdir, hrest⟩
        · have hnames : ".." ∉ name :: names := by
            intro hmem
            rcases List.mem_cons.mp hmem with heq | hmem
            · exact hup heq.symm
            · exact hplain hmem
          exact ⟨p, name :: names, hchain, hnames, Path.resolve_down hnames p,
            fun _ _ _ => Iff.rfl⟩
        · rcases ih (hchain.concat hup hdir) hrest with
            ⟨p', down, hchain', hdown, hresolve, hleads⟩
          refine ⟨p', down, hchain', hdown, ?_, fun n rest r => ?_⟩
          · rw [← hresolve, Path.resolve, List.foldl_cons, Path.enter, if_neg hup]
            rfl
          · rw [List.cons_append, leads_dir hup hdir]
            exact hleads n rest r

/-- A way between real directories leads where it should, whatever it has in common. -/
theorem leads_way {p' down way : List String} (hchain : Chain look p) (hchain' : Chain look p')
    (hway : Way p (p' ++ down) way) :
    Leads look n p (way ++ rest) r <-> Leads look n p' (down ++ rest) r := by
  rcases hway with ⟨common, s, q, hp, hpath, hway⟩
  rw [hway, hp, List.append_assoc, leads_ups]
  rw [hp] at hchain
  rcases List.append_eq_append_iff.mp hpath with ⟨mid, hcommon, hdown⟩ | ⟨mid, hp', hq⟩
  · rw [hdown, List.append_assoc]
    rw [hcommon] at hchain ⊢
    exact (leads_down (hchain.sub (List.prefix_append _ _))).symm
  · rw [hq, List.append_assoc]
    rw [hp'] at hchain' ⊢
    exact leads_down hchain'

/-- A link that leads straight may be replaced by the way to what its text comes to. -/
theorem leads_relinked {names way : List String} (hchain : Chain look p)
    (hstraight : Straight look p names) (hway : Way p (Path.resolve p names) way) :
    Leads look n p (names ++ rest) r <-> Leads look n p (way ++ rest) r := by
  rcases straight_split hchain hstraight with ⟨p', down, hchain', _, hresolve, hleads⟩
  rw [hresolve] at hway
  rw [hleads n rest r]
  exact (leads_way hchain hchain' hway).symm

/-!
## A copy of a directory
-/

/-- A relative link of the directory `q`, written as the way to what its text comes to. -/
def Relinked (base q : List String) (text text' : String) : Prop :=
  Path.isAbs text = false ∧ Path.isAbs text' = false ∧
    exists rel, ".." ∉ rel ∧ Path.resolve (base ++ q) (Path.names text) = base ++ rel ∧
      Way q rel (Path.names text')

/-- What lies below one directory lies below another as well, with links written anew. -/
structure Copied (look look' : Look data) (base base' : List String) : Prop where
  root : Chain look base
  dir : forall q, look (base ++ q) = some .dir <-> look' (base' ++ q) = some .dir
  file : forall q d, look (base ++ q) = some (.file d) <-> look' (base' ++ q) = some (.file d)
  link : forall q name text, look (base ++ (q ++ [name])) = some (.link text) ->
    exists text', look' (base' ++ (q ++ [name])) = some (.link text') ∧ Relinked base q text text'
  linked : forall q name text', look' (base' ++ (q ++ [name])) = some (.link text') ->
    exists text, look (base ++ (q ++ [name])) = some (.link text)
  straight : forall q name text, look (base ++ (q ++ [name])) = some (.link text) ->
    Straight look (base ++ q) (Path.names text)

variable {look' : Look data} {base base' : List String}

/-- In the directory and in its copy the names lead to the same place, and to none outside. -/
def Alike (look look' : Look data) (base base' : List String) (n : Nat)
    (q names : List String) : Prop :=
  (forall x, Leads look n (base ++ q) names x ->
    exists r, x = base ++ r ∧ Leads look' n (base' ++ q) names (base' ++ r)) ∧
  forall x, Leads look' n (base' ++ q) names x ->
    exists r, x = base' ++ r ∧ Leads look n (base ++ q) names (base ++ r)

theorem alike_relinked {text text' : String}
    (hchain : Chain look (base ++ q)) (hrelinked : Relinked base q text text')
    (hstraight : Straight look (base ++ q) (Path.names text)) (hrest : ".." ∉ rest)
    (ih : forall q names, Chain look (base ++ q) -> ".." ∉ names ->
      Alike look look' base base' n q names) :
    (forall x, Leads look n (base ++ q) (Path.names text ++ rest) x ->
      exists r, x = base ++ r ∧
        Leads look' n (base' ++ q) (Path.names text' ++ rest) (base' ++ r)) ∧
    forall x, Leads look' n (base' ++ q) (Path.names text' ++ rest) x ->
      exists r, x = base' ++ r ∧
        Leads look n (base ++ q) (Path.names text ++ rest) (base ++ r) := by
  rcases hrelinked with ⟨_, _, rel, hrel, hresolve, hway⟩
  have hsame : forall {x}, Leads look n (base ++ q) (Path.names text ++ rest) x <->
      Leads look n (base ++ q) (Path.names text' ++ rest) x := by
    intro x
    refine leads_relinked hchain hstraight ?_
    rw [hresolve]
    exact hway.append base
  rcases hway with ⟨common, s, down, hq, hpath, hnames⟩
  have hcommon : Chain look (base ++ common) := by
    refine hchain.sub ?_
    rw [hq, ← List.append_assoc]
    exact List.prefix_append _ _
  have hdown : ".." ∉ down ++ rest := by
    intro hmem
    rcases List.mem_append.mp hmem with hmem | hmem
    · rw [hpath] at hrel
      exact hrel (List.mem_append_right _ hmem)
    · exact hrest hmem
  have halike := ih common (down ++ rest) hcommon hdown
  have hups : forall (look : Look data) (base : List String) {x},
      Leads look n (base ++ q) (Path.names text' ++ rest) x <->
        Leads look n (base ++ common) (down ++ rest) x := by
    intro look base x
    rw [hq, hnames, List.append_assoc, ← List.append_assoc]
    exact leads_ups
  constructor
  · intro x hx
    rcases halike.left x ((hups look base).mp (hsame.mp hx)) with ⟨r, heq, hleads⟩
    exact ⟨r, heq, (hups look' base').mpr hleads⟩
  · intro x hx
    rcases halike.right x ((hups look' base').mp hx) with ⟨r, heq, hleads⟩
    exact ⟨r, heq, hsame.mpr ((hups look base).mpr hleads)⟩

theorem Copied.alike (hcopied : Copied look look' base base') :
    forall (n : Nat) (q names : List String), Chain look (base ++ q) -> ".." ∉ names ->
      Alike look look' base base' n q names := by
  intro n
  induction n using Nat.strongRecOn with
  | ind n ihn =>
      intro q names
      induction names generalizing q with
      | nil =>
          intro _ _
          constructor
          · intro x h
            cases h
            exact ⟨q, rfl, Leads.here _⟩
          · intro x h
            cases h
            exact ⟨q, rfl, Leads.here _⟩
      | cons name rest ih =>
          intro hchain hplain
          have hname : name ≠ ".." := Ne.symm (List.ne_of_not_mem_cons hplain)
          have hrest : ".." ∉ rest := List.not_mem_of_not_mem_cons hplain
          constructor
          · intro x h
            cases h with
            | up _ => exact absurd rfl hname
            | down _ hdir h =>
                have hnext := hchain.concat hname hdir
                rw [List.append_assoc] at hdir h hnext
                rcases (ih (q ++ [name]) hnext hrest).left x h with ⟨r, heq, hleads⟩
                rw [← List.append_assoc] at hleads
                have hdir' := (hcopied.dir (q ++ [name])).mp hdir
                rw [← List.append_assoc] at hdir'
                exact ⟨r, heq, Leads.down hname hdir' hleads⟩
            | file _ hfile =>
                rw [List.append_assoc] at hfile
                have hfile' := (hcopied.file (q ++ [name]) _).mp hfile
                refine ⟨q ++ [name], by rw [List.append_assoc], ?_⟩
                rw [← List.append_assoc] at hfile' ⊢
                exact Leads.file hname hfile'
            | @link m _ _ _ _ text _ hlink h =>
                rw [List.append_assoc] at hlink
                rcases hcopied.link q name text hlink with ⟨text', hlink', hrelinked⟩
                rw [← List.append_assoc] at hlink'
                rw [hrelinked.left] at h
                have hboth := alike_relinked hchain hrelinked
                  (hcopied.straight q name text hlink) hrest (ihn m (Nat.lt_succ_self m))
                rcases hboth.left x h with ⟨r, heq, hleads⟩
                refine ⟨r, heq, Leads.link hname hlink' ?_⟩
                rw [hrelinked.right.left]
                exact hleads
          · intro x h
            cases h with
            | up _ => exact absurd rfl hname
            | down _ hdir' h =>
                rw [List.append_assoc] at hdir' h
                have hdir := (hcopied.dir (q ++ [name])).mpr hdir'
                rw [← List.append_assoc] at hdir
                have hnext := hchain.concat hname hdir
                rw [List.append_assoc] at hnext
                rcases (ih (q ++ [name]) hnext hrest).right x h with ⟨r, heq, hleads⟩
                rw [← List.append_assoc] at hleads
                exact ⟨r, heq, Leads.down hname hdir hleads⟩
            | file _ hfile' =>
                rw [List.append_assoc] at hfile'
                have hfile := (hcopied.file (q ++ [name]) _).mpr hfile'
                refine ⟨q ++ [name], by rw [List.append_assoc], ?_⟩
                rw [← List.append_assoc] at hfile ⊢
                exact Leads.file hname hfile
            | @link m _ _ _ _ text' _ hlink' h =>
                rw [List.append_assoc] at hlink'
                rcases hcopied.linked q name text' hlink' with ⟨text, hlink⟩
                rcases hcopied.link q name text hlink with ⟨text'', hsame, hrelinked⟩
                rw [hlink'] at hsame
                cases hsame
                rw [hrelinked.right.left] at h
                have hboth := alike_relinked hchain hrelinked
                  (hcopied.straight q name text hlink) hrest (ihn m (Nat.lt_succ_self m))
                rcases hboth.right x h with ⟨r, heq, hleads⟩
                rw [← List.append_assoc] at hlink
                refine ⟨r, heq, Leads.link hname hlink ?_⟩
                rw [hrelinked.left]
                exact hleads

end Symlinks
end Lib
end MightyColab
