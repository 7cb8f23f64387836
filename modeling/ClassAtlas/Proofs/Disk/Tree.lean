import ClassAtlas.Disk.Basic
import ClassAtlas.Proofs.Disk.Paths
import ClassAtlas.Tally
import Mathlib.Data.List.Nodup

/-! Directory trees and the disks that hold them. A disk lists its files in any order, so many disks
hold the same tree; what stands at a place is the same on all of them. -/

namespace ClassAtlas

open Disk (Place IsStep)

/-- A directory tree without links. Entries are found by their names. -/
inductive FileTree where
  | file (bytes : ByteArray)
  | directory (entries : List (String × FileTree))

/-- A name that an entry of a directory can have. -/
structure EntryName (name : String) : Prop extends IsStep name where
  not_parent : name ≠ ".."

instance (name : String) : Decidable (EntryName name) :=
  decidable_of_iff (((name ≠ "" ∧ '/' ∉ name.toList) ∧ name ≠ ".") ∧ name ≠ "..")
    ⟨fun h => ⟨⟨h.1.1.1, h.1.1.2, h.1.2⟩, h.2⟩,
      fun h => ⟨⟨⟨h.nonempty, h.single⟩, h.not_here⟩, h.not_parent⟩⟩

namespace FileTree

/-- At every depth the entries of a directory have proper names, and no two the same. -/
inductive Proper : FileTree → Prop where
  | file (bytes : ByteArray) : Proper (.file bytes)
  | directory {entries : List (String × FileTree)} (names : ∀ e ∈ entries, EntryName e.1)
      (distinct : (entries.map (·.1)).Nodup) (below : ∀ e ∈ entries, Proper e.2) :
      Proper (.directory entries)

/-- What stands at the end of a way, if it leads anywhere. -/
def at? : FileTree → Place → Option FileTree
  | tree, [] => some tree
  | .file _, _ :: _ => none
  | .directory entries, name :: way => (entries.lookup name).bind fun tree => tree.at? way

variable {tree t : FileTree} {place way : Place} {entries : List (String × FileTree)}

theorem at?_nil (tree : FileTree) : tree.at? [] = some tree := by
  cases tree <;> rfl

/-- A way through two parts goes on from where the first part ends. -/
theorem at?_append (tree : FileTree) (place way : Place) :
    tree.at? (place ++ way) = (tree.at? place).bind fun t => t.at? way := by
  induction place generalizing tree with
  | nil => rw [List.nil_append, at?_nil, Option.bind_some]
  | cons name place ih =>
    cases tree with
    | file bytes => rfl
    | directory entries =>
      rw [List.cons_append, at?, at?, Option.bind_assoc]
      exact congrArg (entries.lookup name).bind (funext ih)

/-- Only a directory leads on. -/
theorem exists_directory_above (h : tree.at? (place ++ way) = some t) (hway : way ≠ []) :
    ∃ entries, tree.at? place = some (.directory entries) := by
  rw [at?_append] at h
  obtain ⟨u, hu, hrest⟩ := Option.bind_eq_some_iff.1 h
  cases u with
  | directory entries => exact ⟨entries, hu⟩
  | file bytes =>
    cases way with
    | nil => exact absurd rfl hway
    | cons name way => cases hrest

theorem exists_directory_of_isPrefixOf {other : Place} (hle : place.isPrefixOf other = true)
    (h : tree.at? other = some (.directory entries)) :
    ∃ entries, tree.at? place = some (.directory entries) := by
  obtain ⟨way, rfl⟩ := List.isPrefixOf_iff_prefix.1 hle
  cases way with
  | nil =>
    rw [List.append_nil] at h
    exact ⟨entries, h⟩
  | cons name way => exact exists_directory_above h (List.cons_ne_nil name way)

/-- Every place in a proper tree is given by names of entries. -/
theorem Proper.entryName (proper : tree.Proper) (h : tree.at? place = some t) :
    ∀ name ∈ place, EntryName name := by
  induction place generalizing tree with
  | nil => exact List.forall_mem_nil _
  | cons name place ih =>
    cases proper with
    | file bytes => cases h
    | directory names distinct below =>
      rw [at?] at h
      obtain ⟨child, hchild, hrest⟩ := Option.bind_eq_some_iff.1 h
      have hmem := mem_of_lookup hchild
      exact List.forall_mem_cons.2 ⟨names _ hmem, ih (below _ hmem) hrest⟩

theorem Proper.isStep (proper : tree.Proper) (h : tree.at? (place ++ way) = some t) :
    ∀ part ∈ way, IsStep part := by
  intro part hpart
  exact (proper.entryName h part (List.mem_append_right place hpart)).toIsStep

/-! ### All that a tree holds -/

mutual

/-- All that a tree holds at any depth, with the ways there. -/
def nodes : FileTree → List (Place × FileTree)
  | .file bytes => [([], .file bytes)]
  | .directory entries => ([], .directory entries) :: nodesIn entries

def nodesIn : List (String × FileTree) → List (Place × FileTree)
  | [] => []
  | (name, tree) :: rest => (tree.nodes.map fun node => (name :: node.1, node.2)) ++ nodesIn rest

end

theorem nodesIn_eq (entries : List (String × FileTree)) :
    nodesIn entries = entries.flatMap fun e => e.2.nodes.map fun node =>
      (e.1 :: node.1, node.2) := by
  induction entries with
  | nil => rw [nodesIn, List.flatMap_nil]
  | cons e rest ih => rw [nodesIn, ih, List.flatMap_cons]

theorem mem_nodesIn :
    (place, t) ∈ nodesIn entries ↔
      ∃ name child way, (name, child) ∈ entries ∧ (way, t) ∈ child.nodes ∧ place = name :: way := by
  rw [nodesIn_eq, List.mem_flatMap]
  constructor
  · rintro ⟨⟨name, child⟩, hentry, hnode⟩
    obtain ⟨⟨way, u⟩, hmem, heq⟩ := List.mem_map.1 hnode
    obtain ⟨rfl, rfl⟩ := Prod.mk.inj heq
    exact ⟨name, child, way, hentry, hmem, rfl⟩
  · rintro ⟨name, child, way, hentry, hmem, rfl⟩
    exact ⟨(name, child), hentry, List.mem_map.2 ⟨(way, t), hmem, rfl⟩⟩

theorem Proper.mem_nodes_iff (proper : tree.Proper) :
    (place, t) ∈ tree.nodes ↔ tree.at? place = some t := by
  induction proper generalizing place with
  | file bytes => cases place <;> simp [nodes, at?, eq_comm]
  | @directory entries names distinct below ih =>
    rw [nodes, List.mem_cons, mem_nodesIn]
    cases place with
    | nil => simp [at?, eq_comm]
    | cons name way =>
      rw [at?, Option.bind_eq_some_iff]
      -- no two entries share the name, so the way goes on in the one that looking it up finds
      constructor
      · rintro (h | ⟨_, child, _, hentry, hmem, heq⟩)
        · cases h
        · obtain ⟨rfl, rfl⟩ := List.cons.inj heq
          exact ⟨child, lookup_of_mem distinct hentry, (ih _ hentry).1 hmem⟩
      · rintro ⟨child, hchild, hway⟩
        have hentry := mem_of_lookup hchild
        exact .inr ⟨name, child, way, hentry, (ih _ hentry).2 hway, rfl⟩

/-- No two nodes stand at the same place. -/
theorem Proper.nodup_places (proper : tree.Proper) : (tree.nodes.map (·.1)).Nodup := by
  induction proper with
  | file bytes => exact List.nodup_singleton []
  | @directory entries names distinct below ih =>
    have hin : ((nodesIn entries).map (·.1)).Nodup := by
      have hplaces : (nodesIn entries).map (·.1) =
          entries.flatMap fun e => (e.2.nodes.map (·.1)).map (e.1 :: ·) := by
        rw [nodesIn_eq, List.map_flatMap]
        simp only [List.map_map, Function.comp_def]
      rw [hplaces, List.nodup_flatMap]
      constructor
      · exact fun e he => (ih e he).map fun _ _ heq => (List.cons.inj heq).2
      · -- places below two entries differ in the name that they start with
        refine (List.pairwise_map.1 distinct).imp fun {a b} hne => ?_
        intro place ha hb
        obtain ⟨_, _, rfl⟩ := List.mem_map.1 ha
        obtain ⟨_, _, heq⟩ := List.mem_map.1 hb
        exact hne (List.cons.inj heq).1.symm
    rw [nodes, List.map_cons, List.nodup_cons]
    refine ⟨fun hnil => ?_, hin⟩
    obtain ⟨⟨place, t⟩, hmem, rfl⟩ := List.mem_map.1 hnil
    obtain ⟨_, _, _, _, _, heq⟩ := mem_nodesIn.1 hmem
    cases heq

/-- The disk with the files and the directories of a tree. -/
def disk (tree : FileTree) (workingDirectory : Place) : Disk where
  files := tree.nodes.filterMap fun node =>
    match node.2 with
    | .file bytes => some (node.1, bytes)
    | .directory _ => none
  directories := tree.nodes.filterMap fun node =>
    match node.2 with
    | .file _ => none
    | .directory _ => some node.1
  workingDirectory := workingDirectory

theorem Proper.mem_files_disk (proper : tree.Proper) {workingDirectory : Place}
    {bytes : ByteArray} :
    (place, bytes) ∈ (tree.disk workingDirectory).files ↔ tree.at? place = some (.file bytes) := by
  rw [← proper.mem_nodes_iff, disk, List.mem_filterMap]
  constructor
  · rintro ⟨⟨other, t⟩, hmem, heq⟩
    cases t with
    | file _ =>
      cases heq
      exact hmem
    | directory _ => cases heq
  · exact fun hmem => ⟨_, hmem, rfl⟩

theorem Proper.mem_directories_disk (proper : tree.Proper) {workingDirectory : Place} :
    place ∈ (tree.disk workingDirectory).directories ↔
      ∃ entries, tree.at? place = some (.directory entries) := by
  simp only [← proper.mem_nodes_iff]
  rw [disk, List.mem_filterMap]
  constructor
  · rintro ⟨⟨other, t⟩, hmem, heq⟩
    cases t with
    | file _ => cases heq
    | directory entries =>
      cases heq
      exact ⟨entries, hmem⟩
  · rintro ⟨entries, hmem⟩
    exact ⟨_, hmem, rfl⟩

end FileTree

namespace Disk

/-- The files and the directories of a disk are those of a tree, in whatever order it lists them. -/
structure Holds (disk : Disk) (tree : FileTree) : Prop where
  files : ∀ place bytes, (place, bytes) ∈ disk.files ↔ tree.at? place = some (.file bytes)
  distinct : (disk.files.map (·.1)).Nodup
  directories : ∀ place,
    disk.isDirectory place = true ↔ ∃ entries, tree.at? place = some (.directory entries)

theorem Holds.bytesAt?_eq_some_iff {disk : Disk} {tree : FileTree} (holds : disk.Holds tree)
    {place : Place} {bytes : ByteArray} :
    disk.bytesAt? place = some bytes ↔ tree.at? place = some (.file bytes) := by
  rw [← holds.files]
  exact ⟨mem_of_lookup, lookup_of_mem holds.distinct⟩

theorem Holds.of_perm {disk : Disk} {tree : FileTree} (holds : disk.Holds tree)
    {files : List (Place × ByteArray)} (h : files.Perm disk.files) :
    { disk with files := files : Disk }.Holds tree := by
  refine ⟨fun place bytes => ?_, (h.map _).nodup_iff.2 holds.distinct, fun place => ?_⟩
  · rw [← holds.files]
    exact h.mem_iff
  · rw [← holds.directories, isDirectory, isDirectory, h.any_eq]

end Disk

/-- Every proper tree is held by a disk, with any of its directories as the working directory. -/
theorem FileTree.Proper.holds_disk {tree : FileTree} (proper : tree.Proper)
    {workingDirectory : Place} {entries : List (String × FileTree)}
    (h : tree.at? workingDirectory = some (.directory entries)) :
    (tree.disk workingDirectory).Holds tree := by
  refine ⟨fun place bytes => proper.mem_files_disk, ?_, fun place => ?_⟩
  · rw [List.Nodup, List.pairwise_map, disk, List.pairwise_filterMap]
    refine (List.pairwise_map.1 proper.nodup_places).imp ?_
    rintro ⟨place, t⟩ ⟨other, u⟩ hne _ ht _ hu
    cases t <;> cases u <;> cases ht <;> cases hu
    exact hne
  · rw [Disk.isDirectory, Bool.or_eq_true, Bool.or_eq_true, List.any_eq_true, List.any_eq_true]
    constructor
    · rintro ((hle | ⟨other, hother, hle⟩) | ⟨⟨other, bytes⟩, hother, hle⟩)
      · exact exists_directory_of_isPrefixOf hle h
      · obtain ⟨_, hdir⟩ := proper.mem_directories_disk.1 hother
        exact exists_directory_of_isPrefixOf hle hdir
      · rw [Bool.and_eq_true, bne_iff_ne] at hle
        obtain ⟨way, rfl⟩ := List.isPrefixOf_iff_prefix.1 hle.1
        refine exists_directory_above (proper.mem_files_disk.1 hother) fun hnil => hle.2 ?_
        rw [hnil, List.append_nil]
    · intro hdir
      refine .inl (.inr ⟨place, proper.mem_directories_disk.2 hdir, ?_⟩)
      exact List.isPrefixOf_iff_prefix.2 (List.prefix_refl place)

end ClassAtlas
