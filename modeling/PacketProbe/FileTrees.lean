import Mathlib.Data.List.AList

/-!
# File trees

A file system as the kinds of its files. A path is the list of its components, the last one
first; the empty path is the directory that all others are in, and it is always there.
-/

namespace FileTrees

universe u

inductive FileKind where
  | socket | file | directory
  deriving DecidableEq

/-- Every file is in a directory. -/
structure FileTree (α : Type u) [DecidableEq α] where
  entries : AList fun _ : List α => FileKind
  inDirectory : ∀ name dir, name :: dir ∈ entries → dir = [] ∨ entries.lookup dir = some .directory

namespace FileTree

variable {α : Type u} [DecidableEq α]

def kind (tree : FileTree α) (path : List α) : Option FileKind :=
  if path = [] then some .directory else tree.entries.lookup path

/-- Whether there is anything in the directory. -/
def hasEntries (tree : FileTree α) (dir : List α) : Bool :=
  tree.entries.keys.any fun path => path ≠ [] ∧ path.tail = dir

/-- An empty directory that can be removed. -/
def IsEmptyDirectory (tree : FileTree α) (path : List α) : Prop :=
  path ≠ [] ∧ tree.kind path = some .directory ∧ tree.hasEntries path = false

variable {tree other third : FileTree α} {name : α} {path path' dir : List α}

theorem kind_nil : tree.kind [] = some .directory := if_pos rfl

theorem kind_cons : tree.kind (name :: dir) = tree.entries.lookup (name :: dir) :=
  if_neg (List.cons_ne_nil name dir)

theorem kind_parent {k : FileKind} (h : tree.kind (name :: dir) = some k) :
    tree.kind dir = some .directory := by
  rw [kind_cons] at h
  have hmem : name :: dir ∈ tree.entries := AList.lookup_isSome.1 (by rw [h]; rfl)
  rcases tree.inDirectory name dir hmem with rfl | hdir
  · exact kind_nil
  · unfold kind
    split
    · rfl
    · exact hdir

theorem hasEntries_eq_false_iff :
    tree.hasEntries dir = false ↔ ∀ name, tree.kind (name :: dir) = none := by
  rw [hasEntries, List.any_eq_false]
  constructor
  · intro h name
    rw [kind_cons, AList.lookup_eq_none]
    intro hmem
    exact h _ hmem (decide_eq_true ⟨List.cons_ne_nil name dir, rfl⟩)
  · intro h path hmem hchild
    obtain ⟨hne, rfl⟩ := of_decide_eq_true hchild
    cases path with
    | nil => exact hne rfl
    | cons name dir =>
      have hnone := h name
      rw [List.tail_cons, kind_cons, AList.lookup_eq_none] at hnone
      exact hnone hmem

/-! ### Removing -/

/-- The tree without a file that has nothing in it. -/
def erase (tree : FileTree α) (path : List α) (h : ∀ name, tree.kind (name :: path) = none) :
    FileTree α where
  entries := tree.entries.erase path
  inDirectory := by
    intro name dir hmem
    have hold := (AList.mem_erase.1 hmem).2
    apply (tree.inDirectory name dir hold).imp_right
    intro hdir
    have hne : dir ≠ path := by
      rintro rfl
      have hnone := h name
      rw [kind_cons, AList.lookup_eq_none] at hnone
      exact hnone hold
    rwa [AList.lookup_erase_ne hne]

theorem kind_erase_self {h : ∀ name, tree.kind (name :: path) = none} (hne : path ≠ []) :
    (tree.erase path h).kind path = none := by
  rw [kind, if_neg hne]
  exact AList.lookup_erase path tree.entries

theorem kind_erase_of_ne {h : ∀ name, tree.kind (name :: path) = none} (hne : path' ≠ path) :
    (tree.erase path h).kind path' = tree.kind path' := by
  unfold kind
  split
  · rfl
  · exact AList.lookup_erase_ne hne

/-- `remove`: a file, a socket or an empty directory goes, anything else stays. -/
def remove (tree : FileTree α) (path : List α) : FileTree α :=
  if h : path ≠ [] ∧ tree.hasEntries path = false then
    tree.erase path (hasEntries_eq_false_iff.1 h.2)
  else tree

/-- Only directories have anything in them. -/
theorem hasEntries_of_ne_directory (h : tree.kind path ≠ some .directory) :
    tree.hasEntries path = false := by
  rw [hasEntries_eq_false_iff]
  intro name
  by_contra hsome
  obtain ⟨k, hk⟩ := Option.ne_none_iff_exists'.1 hsome
  exact h (kind_parent hk)

theorem kind_remove_of_ne (hne : path' ≠ path) :
    (tree.remove path).kind path' = tree.kind path' := by
  unfold remove
  split
  · exact kind_erase_of_ne hne
  · rfl

theorem kind_remove_self (hne : path ≠ []) (hempty : tree.hasEntries path = false) :
    (tree.remove path).kind path = none := by
  rw [remove, dif_pos ⟨hne, hempty⟩]
  exact kind_erase_self hne

theorem remove_of_hasEntries (h : tree.hasEntries path = true) : tree.remove path = tree := by
  refine dif_neg ?_
  rintro ⟨-, hempty⟩
  rw [h] at hempty
  cases hempty

theorem remove_nil : tree.remove [] = tree := dif_neg fun h => h.1 rfl

/-! ### Sockets -/

/-- A socket where nothing is, in a directory. -/
def insertSocket (tree : FileTree α) (name : α) (dir : List α)
    (h : tree.kind (name :: dir) = none ∧ tree.kind dir = some .directory) : FileTree α where
  entries := tree.entries.insert (name :: dir) .socket
  inDirectory := by
    have hkept : ∀ dir', dir' ≠ [] → tree.kind dir' = some .directory →
        (tree.entries.insert (name :: dir) .socket).lookup dir' = some .directory := by
      intro dir' hne hdir'
      have hother : dir' ≠ name :: dir := by
        rintro rfl
        rw [h.1] at hdir'
        cases hdir'
      rw [AList.lookup_insert_ne hother]
      rwa [kind, if_neg hne] at hdir'
    intro name' dir' hmem
    by_cases hne : dir' = []
    · exact .inl hne
    · refine .inr (hkept dir' hne ?_)
      rcases (AList.mem_insert tree.entries).1 hmem with heq | hold
      · cases heq
        exact h.2
      · obtain ⟨k, hk⟩ := Option.isSome_iff_exists.1 (AList.lookup_isSome.2 hold)
        exact kind_parent (kind_cons.trans hk)

theorem kind_insertSocket_self {h : tree.kind (name :: dir) = none ∧
    tree.kind dir = some .directory} :
    (tree.insertSocket name dir h).kind (name :: dir) = some .socket :=
  kind_cons.trans (AList.lookup_insert tree.entries)

theorem kind_insertSocket_of_ne {h : tree.kind (name :: dir) = none ∧
    tree.kind dir = some .directory}
    (hne : path' ≠ name :: dir) : (tree.insertSocket name dir h).kind path' = tree.kind path' := by
  unfold kind
  split
  · rfl
  · exact AList.lookup_insert_ne hne

/-- `bind` on a socket: it is at the path afterwards if nothing was there. -/
def bind (tree : FileTree α) : List α → FileTree α
  | [] => tree
  | name :: dir =>
    if h : tree.kind (name :: dir) = none ∧ tree.kind dir = some .directory then
      tree.insertSocket name dir h
    else tree

/-! ### Trees that keep the files of others -/

/-- The files and directories of the one are in the other. -/
def Keeps (tree other : FileTree α) : Prop :=
  ∀ path k, k ≠ .socket → tree.kind path = some k → other.kind path = some k

namespace Keeps

theorem refl (tree : FileTree α) : tree.Keeps tree := fun _ _ _ h => h

theorem trans (h : tree.Keeps other) (h' : other.Keeps third) : tree.Keeps third :=
  fun path k hk hkind => h' path k hk (h path k hk hkind)

end Keeps

/-- Binding a socket changes neither files nor directories. -/
theorem keeps_bind (tree : FileTree α) (path : List α) :
    tree.Keeps (tree.bind path) ∧ (tree.bind path).Keeps tree := by
  cases path with
  | nil => exact ⟨.refl tree, .refl tree⟩
  | cons name dir =>
    by_cases h : tree.kind (name :: dir) = none ∧ tree.kind dir = some .directory
    · have hbind : tree.bind (name :: dir) = tree.insertSocket name dir h := dif_pos h
      rw [hbind]
      constructor
      · intro path k hk hkind
        have hne : path ≠ name :: dir := by
          rintro rfl
          rw [h.1] at hkind
          cases hkind
        rwa [kind_insertSocket_of_ne hne]
      · intro path k hk hkind
        have hne : path ≠ name :: dir := by
          rintro rfl
          rw [kind_insertSocket_self] at hkind
          exact hk (Option.some.inj hkind).symm
        rwa [kind_insertSocket_of_ne hne] at hkind
    · have hbind : tree.bind (name :: dir) = tree := dif_neg h
      rw [hbind]
      exact ⟨.refl tree, .refl tree⟩

/-- Removing adds nothing. -/
theorem remove_keeps (tree : FileTree α) (path : List α) : (tree.remove path).Keeps tree := by
  intro path' k hk hkind
  by_cases hne : path' = path
  · subst hne
    unfold remove at hkind
    split at hkind
    · rename_i h
      rw [kind_erase_self h.1] at hkind
      cases hkind
    · exact hkind
  · rwa [kind_remove_of_ne hne] at hkind

/-- Removing a path takes a file or a directory away if there is one that can be removed. -/
theorem keeps_remove_iff :
    tree.Keeps (tree.remove path) ↔ tree.kind path ≠ some .file ∧ ¬ tree.IsEmptyDirectory path := by
  constructor
  · intro h
    have hgone : ∀ k, k ≠ .socket → path ≠ [] → tree.hasEntries path = false →
        tree.kind path ≠ some k := by
      intro k hk hne hempty hkind
      have hkept := h path k hk hkind
      rw [kind_remove_self hne hempty] at hkept
      cases hkept
    constructor
    · intro hfile
      have hne : path ≠ [] := by
        rintro rfl
        rw [kind_nil] at hfile
        cases hfile
      have hdir : tree.kind path ≠ some .directory := by
        rw [hfile]
        decide
      exact hgone .file (by decide) hne (hasEntries_of_ne_directory hdir) hfile
    · rintro ⟨hne, hdir, hempty⟩
      exact hgone .directory (by decide) hne hempty hdir
  · rintro ⟨hfile, hdir⟩ path' k hk hkind
    by_cases hpath : path' = path
    · subst hpath
      cases k with
      | socket => exact absurd rfl hk
      | file => exact absurd hkind hfile
      | directory =>
        by_cases hne : path' = []
        · rw [hne, remove_nil, kind_nil]
        · have hfull : tree.hasEntries path' = true := by
            rw [← Bool.not_eq_false]
            exact fun hempty => hdir ⟨hne, hkind, hempty⟩
          rwa [remove_of_hasEntries hfull]
    · rwa [kind_remove_of_ne hpath]

end FileTree

end FileTrees
