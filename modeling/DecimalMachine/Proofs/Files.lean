import Mathlib.Data.List.Forall2
import DecimalMachine.CommandLine.Files

/-!
Trees of files: those that differ only in the bytes of the standard input, and what is in a tree
after a file was written.

Where a path leads does not depend on these bytes. A file that is written is there to be read by its
path, and nothing else changes: a path leads only to places whose directories are known, so that no
directory comes into being with the file.
-/

namespace DecimalMachine

/-- The same node, but for the bytes that the standard input has. -/
inductive Node.Same : Node → Node → Prop where
  | rfl (node : Node) : Same node node
  | input (bytes bytes' : List UInt8) :
      Same (.device (.input bytes)) (.device (.input bytes'))

namespace FileTree

structure Same (t t' : FileTree) : Prop where
  current : t.current = t'.current
  nodes : List.Forall₂ (fun node node' => node.1 = node'.1 ∧ node.2.Same node'.2) t.nodes t'.nodes

theorem Same.refl (t : FileTree) : t.Same t :=
  ⟨rfl, List.forall₂_same.mpr fun node _ => ⟨rfl, .rfl node.2⟩⟩

theorem same_withInput (t : FileTree) (bytes bytes' : List UInt8) :
    (t.withInput bytes).Same (t.withInput bytes') := by
  refine ⟨rfl, List.rel_append ?_ (Same.refl t).nodes⟩
  rw [List.forall₂_map_left_iff, List.forall₂_map_right_iff, List.forall₂_same]
  exact fun path _ => ⟨rfl, .input bytes bytes'⟩

namespace Same

variable {t t' : FileTree}

theorem find? {nodes nodes' : List (List String × Node)}
    (same : List.Forall₂ (fun node node' => node.1 = node'.1 ∧ node.2.Same node'.2) nodes nodes')
    (path : List String) :
    Option.Rel (fun node node' => node.2.Same node'.2) (nodes.find? fun node => node.1 == path)
      (nodes'.find? fun node => node.1 == path) := by
  induction same with
  | nil => exact .none
  | @cons node node' nodes nodes' first _ ih =>
    rw [List.find?_cons, List.find?_cons, ← first.1]
    split
    · exact .some first.2
    · exact ih

theorem any (same : t.Same t') (path : List String) :
    (t.nodes.any fun node => path.isPrefixOf node.1) =
      t'.nodes.any fun node => path.isPrefixOf node.1 := by
  have nodes := same.nodes
  generalize t.nodes = ns at nodes ⊢
  generalize t'.nodes = ns' at nodes ⊢
  induction nodes with
  | nil => rfl
  | cons first _ ih => rw [List.any_cons, List.any_cons, first.1, ih]

theorem lookup (same : t.Same t') (path : List String) :
    Option.Rel Node.Same (t.lookup path) (t'.lookup path) := by
  have found := find? same.nodes path
  unfold FileTree.lookup
  generalize (t.nodes.find? fun node => node.1 == path) = f at found
  generalize (t'.nodes.find? fun node => node.1 == path) = f' at found
  cases found with
  | none =>
    dsimp only
    rw [same.any, same.current]
    split
    · exact .some (.rfl _)
    · exact .none
  | some related => exact .some related

theorem walk (same : t.Same t') (place names : List String) :
    t.walk place names = t'.walk place names := by
  induction names generalizing place with
  | nil => rfl
  | cons name rest ih =>
    have found := same.lookup place
    unfold FileTree.walk
    generalize t.lookup place = n at found
    generalize t'.lookup place = n' at found
    cases found with
    | none => rfl
    | some related =>
      cases related with
      | rfl => simp only [ih]
      | input bytes bytes' => rfl

theorem destinationAt (same : t.Same t') (place : List String) :
    t.destinationAt place = t'.destinationAt place := by
  have found := same.lookup place
  unfold FileTree.destinationAt
  generalize t.lookup place = n at found
  generalize t'.lookup place = n' at found
  cases found with
  | none => rfl
  | some related => cases related <;> rfl

theorem destination (same : t.Same t') (path : String) :
    t.destination path = t'.destination path := by
  have start : t.start path = t'.start path := by rw [FileTree.start, FileTree.start, same.current]
  unfold FileTree.destination
  rw [start]
  cases components path with
  | error e => rfl
  | ok names =>
    simp only [bind, Except.bind, same.walk]
    split
    · rfl
    · cases t'.walk (t'.start path) names with
      | error e => rfl
      | ok place => exact same.destinationAt place

theorem put (same : t.Same t') (path : List String) (bytes : List UInt8) :
    (t.put path bytes).Same (t'.put path bytes) := by
  refine ⟨same.current, .cons ⟨rfl, .rfl _⟩ ?_⟩
  have nodes := same.nodes
  generalize t.nodes = ns at nodes ⊢
  generalize t'.nodes = ns' at nodes ⊢
  induction nodes with
  | nil => exact .nil
  | @cons node node' _ _ first _ ih =>
    rw [List.filter_cons, List.filter_cons, ← first.1]
    split
    · exact .cons first ih
    · exact ih

end Same

/-! ### Writing a file -/

variable {t : FileTree} {place : List String}

/-- Something lies at the path or below it. -/
def Known (t : FileTree) (path : List String) : Prop :=
  path <+: t.current ∨ ∃ node ∈ t.nodes, path <+: node.1

theorem known_iff {path : List String} : (path.isPrefixOf t.current ||
    t.nodes.any fun node => path.isPrefixOf node.1) = true ↔ t.Known path := by
  simp only [Bool.or_eq_true, List.any_eq_true, List.isPrefixOf_iff_prefix, Known]

theorem known_of_lookup {node : Node} (held : t.lookup place = some node) : t.Known place := by
  unfold lookup at held
  split at held
  · rename_i path _ found
    have same : path = place := eq_of_beq (List.find?_some found :)
    exact .inr ⟨_, List.mem_of_find?_eq_some found, same ▸ List.prefix_refl path⟩
  · split at held
    · exact known_iff.mp ‹_›
    · cases held

theorem Known.above {path above : List String} (known : t.Known path) (prefixes : above <+: path) :
    t.Known above :=
  known.imp prefixes.trans fun ⟨node, mem, below⟩ => ⟨node, mem, prefixes.trans below⟩

/-- Everything above the path is known. -/
def Grounded (t : FileTree) (path : List String) : Prop :=
  ∀ above, above <+: path → above ≠ path → t.Known above

theorem Known.grounded (known : t.Known place) : t.Grounded place :=
  fun _ prefixes _ => known.above prefixes

theorem grounded_start (t : FileTree) (path : String) : t.Grounded (t.start path) := by
  unfold start
  split
  · exact fun above prefixes below => absurd (List.prefix_nil.mp prefixes) below
  · exact Known.grounded (.inl (List.prefix_refl t.current))

theorem Known.grounded_enter (known : t.Known place) (name : String) :
    t.Grounded (enter place name) := by
  unfold enter
  split
  · exact known.grounded
  · exact (known.above (List.dropLast_prefix place)).grounded
  · intro above prefixes below
    rcases List.prefix_concat_iff.mp prefixes with same | prefixes
    · exact absurd same below
    · exact known.above prefixes

theorem Grounded.walk {names last : List String} (grounded : t.Grounded place)
    (walked : t.walk place names = .ok last) : t.Grounded last := by
  induction names generalizing place with
  | nil =>
    cases walked
    exact grounded
  | cons name rest ih =>
    unfold FileTree.walk at walked
    split at walked
    · rename_i directory
      split at walked
      · cases walked
      · exact ih ((known_of_lookup directory).grounded_enter name) walked
    · cases walked
    · cases walked

theorem lookup_put_self (t : FileTree) (place : List String) (bytes : List UInt8) :
    (t.put place bytes).lookup place = some (.file bytes) := by
  have found : (t.put place bytes).nodes.find? (fun node => node.1 == place) =
      some (place, .file bytes) := List.find?_cons_of_pos (beq_self_eq_true place)
  simp only [lookup, found]

theorem lookup_put_other {other : List String} (grounded : t.Grounded place) (bytes : List UInt8)
    (different : other ≠ place) : (t.put place bytes).lookup other = t.lookup other := by
  have found : (t.put place bytes).nodes.find? (fun node => node.1 == other) =
      t.nodes.find? fun node => node.1 == other := by
    unfold put
    rw [List.find?_cons_of_neg (by simpa using different.symm), List.find?_filter]
    congr 1
    funext node
    by_cases same : node.1 = other
    · simp [same, different]
    · simp [same]
  -- The file makes nothing known but the directories above it, and those were known before.
  have known : (t.put place bytes).Known other ↔ t.Known other := by
    unfold Known put
    simp only [List.mem_cons, List.mem_filter, bne_iff_ne]
    constructor
    · rintro (above | ⟨node, rfl | ⟨mem, -⟩, prefixes⟩)
      · exact .inl above
      · exact grounded other prefixes different
      · exact .inr ⟨node, mem, prefixes⟩
    · rintro (above | ⟨node, mem, prefixes⟩)
      · exact .inl above
      · by_cases same : node.1 = place
        · exact .inr ⟨_, .inl rfl, same ▸ prefixes⟩
        · exact .inr ⟨node, .inr ⟨mem, same⟩, prefixes⟩
  have fallback := Bool.eq_iff_iff.mpr (known_iff.trans (known.trans known_iff.symm))
  unfold lookup
  rw [found, fallback]

theorem walk_put {names last : List String} (grounded : t.Grounded place)
    (vacant : t.lookup place ≠ some .directory) (bytes : List UInt8) {here : List String}
    (walked : t.walk here names = .ok last) : (t.put place bytes).walk here names = .ok last := by
  induction names generalizing here with
  | nil => exact walked
  | cons name rest ih =>
    unfold FileTree.walk at walked ⊢
    split at walked
    · rename_i directory
      have different : here ≠ place := fun same => vacant (same ▸ directory)
      simp only [lookup_put_other grounded bytes different, directory]
      split at walked
      · cases walked
      · rw [if_neg ‹_›]
        exact ih walked
    · cases walked
    · cases walked

theorem destinationAt_file {last : List String}
    (leads : t.destinationAt last = .ok (.file place)) :
    last = place ∧ t.lookup place ≠ some .directory := by
  unfold destinationAt at leads
  cases held : t.lookup last with
  | none =>
    simp only [held] at leads
    split at leads
    · cases leads
    · cases leads
      exact ⟨rfl, by rw [held]; simp⟩
  | some node =>
    simp only [held] at leads
    cases node with
    | file bytes =>
      cases leads
      exact ⟨rfl, by rw [held]; simp⟩
    | directory => cases leads
    | device d => cases d <;> cases leads

theorem destination_file {path : String} (leads : t.destination path = .ok (.file place)) :
    ∃ names, components path = .ok names ∧ t.walk (t.start path) names = .ok place ∧
      endsInSlash path = false ∧ t.lookup place ≠ some .directory := by
  unfold destination at leads
  cases named : components path with
  | error e =>
    rw [named] at leads
    cases leads
  | ok names =>
    simp only [named, bind, Except.bind] at leads
    split at leads
    · split at leads <;> cases leads
    · rename_i file
      cases walked : t.walk (t.start path) names with
      | error e =>
        rw [walked] at leads
        cases leads
      | ok last =>
        rw [walked] at leads
        obtain ⟨rfl, vacant⟩ := destinationAt_file leads
        exact ⟨names, rfl, walked, eq_false_of_ne_true file, vacant⟩

/-- A file that is written by path is the file that the path leads to. It is read there, and every
other path of the tree holds what it held. -/
theorem put_of_destination {path : String} (leads : t.destination path = .ok (.file place))
    (bytes : List UInt8) : (t.put place bytes).read path = .ok bytes ∧
      (t.put place bytes).lookup place = some (.file bytes) ∧
      ∀ other, other ≠ place → (t.put place bytes).lookup other = t.lookup other := by
  obtain ⟨names, named, walked, file, vacant⟩ := destination_file leads
  have grounded := (grounded_start t path).walk walked
  have held := lookup_put_self t place bytes
  have found : (t.put place bytes).resolve path = .ok place := by
    simp only [resolve, named, bind, Except.bind]
    exact walk_put grounded vacant bytes walked
  refine ⟨?_, held, fun other => lookup_put_other grounded bytes⟩
  simp only [read, found, bind, Except.bind, held, file, contents, Bool.false_eq_true, if_false]

end FileTree

end DecimalMachine
