import ClassAtlas.Disk.Expand
import ClassAtlas.Proofs.Disk.Tree
import ClassAtlas.Proofs.StableSort

/-! A directory stands for the sources below it: each file at any depth whose name ends in the
suffix is listed once, in increasing order, and on every disk that holds the same tree the list is
the same. -/

namespace ClassAtlas.Disk

variable {disk other : Disk} {tree t : FileTree} {suffix path dir : String} {place way : Place}
  {entries : List (String × FileTree)}

/-! ### Following a path -/

/-- A path leads from its origin to a place. -/
def LeadsTo (disk : Disk) (path : String) (place : Place) : Prop :=
  disk.walk (disk.origin path) (steps path) = .ok place

theorem walk_append {mid : Place} {front : List String} (back : List String)
    (h : disk.walk place front = .ok mid) :
    disk.walk place (front ++ back) = disk.walk mid back := by
  induction front generalizing place with
  | nil =>
    cases h
    rfl
  | cons part front ih =>
    rw [walk] at h
    rw [List.cons_append, walk]
    split at h
    · cases h
    · next hdir =>
      rw [if_neg hdir]
      split at h
      · next hhere => rw [if_pos hhere, ih h]
      · next hhere =>
        rw [if_neg hhere]
        split at h
        · next hparent => rw [if_pos hparent, ih h]
        · next hparent => rw [if_neg hparent, ih h]

theorem isDirectory_nil (disk : Disk) : disk.isDirectory [] = true := by
  rw [isDirectory, List.isPrefixOf_nil_left, Bool.true_or, Bool.true_or]

theorem walk_blank (h : disk.isDirectory place = true) (count : Nat) (rest : List String) :
    disk.walk place (List.replicate count "" ++ rest) = disk.walk place rest := by
  induction count with
  | zero => rfl
  | succ count ih =>
    rw [List.replicate_succ, List.cons_append, walk, h, ih]
    rfl

namespace Holds

variable (holds : disk.Holds tree) (proper : tree.Proper)

include holds proper

/-- Names lead down to where they stand in the tree. -/
theorem walk_down (h : tree.at? (place ++ way) = some t) :
    disk.walk place way = .ok (place ++ way) := by
  induction way generalizing place with
  | nil => rw [walk, List.append_nil]
  | cons name way ih =>
    have hdir : disk.isDirectory place = true :=
      (holds.directories place).2 (FileTree.exists_directory_above h (List.cons_ne_nil name way))
    have hname : EntryName name := proper.entryName h name (by simp)
    have happend : place ++ name :: way = place ++ [name] ++ way := by simp
    rw [happend] at h ⊢
    rw [walk, hdir, ← ih h]
    have hstay : (name.isEmpty || name == ".") = false := by
      rw [Bool.or_eq_false_iff, beq_eq_false_iff_ne, ← Bool.not_eq_true, String.isEmpty_iff]
      exact ⟨hname.nonempty, hname.not_here⟩
    have hup : (name == "..") = false := beq_eq_false_iff_ne.2 hname.not_parent
    rw [hstay, hup]
    rfl

/-- The path that goes on from a directory by a way reads the file at its end. -/
theorem readBytes_extend {bytes : ByteArray} (hdir : disk.LeadsTo dir place) (hne : way ≠ [])
    (h : tree.at? (place ++ way) = some (.file bytes)) :
    disk.readBytes (extend dir way) = .ok bytes := by
  have hstep := proper.isStep h
  have horigin : disk.origin (extend dir way) = disk.origin dir := by
    have habsolute : isAbsolute (extend dir way) = isAbsolute dir := by
      rw [Bool.eq_iff_iff, isAbsolute_iff, isAbsolute_iff, root_extend dir hne hstep]
    rw [origin, origin, habsolute]
  -- the slashes of the root are empty parts, and those stay in the root directory
  have hblank : disk.walk (disk.origin dir)
      (List.replicate (root dir).length "" ++ (steps dir ++ way)) =
        disk.walk (disk.origin dir) (steps dir ++ way) := by
    by_cases hroot : root dir = ""
    · rw [hroot]
      rfl
    · have hnil : disk.origin dir = [] := if_pos ((isAbsolute_iff dir).2 hroot)
      exact walk_blank (hnil ▸ isDirectory_nil disk) _ _
  have hplace : disk.place (extend dir way) = .ok (place ++ way) := by
    have hempty : ¬(extend dir way).isEmpty = true := by
      rw [String.isEmpty_iff]
      exact extend_ne_empty dir hne hstep
    rw [Disk.place, if_neg hempty, horigin, extend,
      splitAt_rooted dir (List.append_ne_nil_of_right_ne_nil _ hne) (isStep_extended dir hstep),
      hblank, walk_append way hdir, walk_down holds proper h]
  have hbytes := holds.bytesAt?_eq_some_iff.2 h
  simp only [readBytes, hplace, bind, Except.bind, hbytes]
  rfl

end Holds

/-! ### The sources below a directory -/

/-- The last component of a way is a name that ends in the suffix. -/
def EndsIn (suffix : String) (way : Place) : Prop :=
  ∃ name, way.getLast? = some name ∧ suffix.toList <:+ name.toList

theorem EndsIn.ne_nil (h : EndsIn suffix way) : way ≠ [] := by
  rintro rfl
  obtain ⟨_, hlast, _⟩ := h
  cases hlast

/-- A way ends like a star and the suffix if the name at its end ends in the suffix. -/
theorem endsLike_iff (plain : PlainSuffix suffix) :
    endsLike (steps ("*" ++ suffix)) way = true ↔ EndsIn suffix way := by
  rw [steps_star plain]
  rcases List.eq_nil_or_concat way with rfl | ⟨front, last, rfl⟩
  · exact iff_of_false (by simp [endsLike]) fun h => h.ne_nil rfl
  · rw [List.concat_eq_append, EndsIn, endsLike]
    simp [matchesGlob_star plain]

/-- The order of ways: no way comes before a smaller one. -/
def NotBehind (a b : Place) : Prop := ¬b < a

instance : DecidableRel NotBehind := fun a b => inferInstanceAs (Decidable (¬b < a))

instance : IsTrans Place NotBehind := ⟨fun _ _ _ hab hbc => List.le_trans hab hbc⟩

instance : Std.Total NotBehind := ⟨fun a b => List.le_total a b⟩

theorem sortBy_notBehind (ways : List Place) :
    sortBy (fun a b => !decide (b < a)) ways = ways.insertionSort NotBehind := by
  rw [← sortBy_decide]
  refine congrArg (sortBy · ways) ?_
  funext a b
  exact decide_not.symm

/-- The ways below a directory of a tree that lead to sources. -/
structure IsSource (tree : FileTree) (place : Place) (suffix : String) (way : Place) : Prop where
  file : ∃ bytes, tree.at? (place ++ way) = some (.file bytes)
  ends : EndsIn suffix way

namespace Holds

variable (holds : disk.Holds tree) (plain : PlainSuffix suffix)

include holds plain

theorem mem_sourcesBelow :
    way ∈ disk.sourcesBelow place suffix ↔ IsSource tree place suffix way := by
  rw [sourcesBelow, sortBy_notBehind, List.mem_insertionSort, List.mem_filter, endsLike_iff plain,
    List.mem_filterMap]
  constructor
  · rintro ⟨⟨⟨other, bytes⟩, hmem, hway⟩, hends⟩
    simp only [Option.ite_none_right_eq_some, Bool.and_eq_true, Option.some.injEq] at hway
    obtain ⟨⟨hle, _⟩, rfl⟩ := hway
    obtain ⟨way, rfl⟩ := List.isPrefixOf_iff_prefix.1 hle
    rw [List.drop_left] at hends ⊢
    exact ⟨⟨bytes, (holds.files _ _).1 hmem⟩, hends⟩
  · rintro ⟨⟨bytes, hfile⟩, hends⟩
    refine ⟨⟨(place ++ way, bytes), (holds.files _ _).2 hfile, ?_⟩, hends⟩
    have hle : place.isPrefixOf (place ++ way) = true :=
      List.isPrefixOf_iff_prefix.2 (List.prefix_append place way)
    have hne : place ++ way ≠ place := fun heq => hends.ne_nil (List.append_right_eq_self.1 heq)
    simp [hle, hne]

end Holds

/-- Sorting ways that differ puts them in strictly increasing order. -/
theorem increasing_insertionSort {ways : List Place} (h : ways.Nodup) :
    (ways.insertionSort NotBehind).Pairwise (· < ·) := by
  refine (pairwise_insertionSort_stable h).imp ?_
  rintro a b ⟨hle, hne⟩
  rcases List.le_iff_lt_or_eq.1 hle with hlt | heq
  · exact hlt
  · by_contra hlt
    exact hne hlt heq

/-- Ways in strictly increasing order are determined by which they are. -/
theorem eq_of_increasing {ways others : List Place} (hways : ways.Pairwise (· < ·))
    (hothers : others.Pairwise (· < ·)) (h : ∀ way, way ∈ ways ↔ way ∈ others) : ways = others := by
  have hne : ∀ {a b : Place}, a < b → a ≠ b := by
    rintro a _ hlt rfl
    exact List.lt_irrefl a hlt
  have hperm : ways.Perm others :=
    (List.perm_ext_iff_of_nodup (hways.imp hne) (hothers.imp hne)).2 h
  exact hperm.eq_of_pairwise (fun a b _ _ hab hba => absurd hba (List.lt_asymm hab)) hways hothers

namespace Holds

variable (holds : disk.Holds tree)

include holds

theorem increasing_sourcesBelow (place : Place) (suffix : String) :
    (disk.sourcesBelow place suffix).Pairwise (· < ·) := by
  rw [sourcesBelow, sortBy_notBehind]
  refine increasing_insertionSort (List.Nodup.filter _ ?_)
  rw [List.Nodup, List.pairwise_filterMap]
  refine (List.pairwise_map.1 holds.distinct).imp ?_
  rintro ⟨p, _⟩ ⟨q, _⟩ hne a ha b hb rfl
  simp only [Option.ite_none_right_eq_some, Bool.and_eq_true, Option.some.injEq] at ha hb
  obtain ⟨x, rfl⟩ := List.isPrefixOf_iff_prefix.1 ha.1.1
  obtain ⟨y, rfl⟩ := List.isPrefixOf_iff_prefix.1 hb.1.1
  have heq := ha.2.trans hb.2.symm
  rw [List.drop_left, List.drop_left] at heq
  exact hne (congrArg (place ++ ·) heq)

/-- Disks that hold the same tree have the same files and directories. -/
theorem agree (others : other.Holds tree) (place : Place) :
    other.isDirectory place = disk.isDirectory place ∧
      other.bytesAt? place = disk.bytesAt? place := by
  constructor
  · rw [Bool.eq_iff_iff, others.directories, holds.directories]
  · refine Option.ext fun bytes => ?_
    rw [others.bytesAt?_eq_some_iff, holds.bytesAt?_eq_some_iff]

theorem walk_eq (others : other.Holds tree) (place : Place) (parts : List String) :
    other.walk place parts = disk.walk place parts := by
  induction parts generalizing place with
  | nil => rfl
  | cons part parts ih =>
    obtain ⟨hdir, hbytes⟩ := holds.agree others place
    rw [walk, walk, hdir, hbytes, ih, ih, ih]

theorem sourcesBelow_eq (others : other.Holds tree) (plain : PlainSuffix suffix) (place : Place) :
    other.sourcesBelow place suffix = disk.sourcesBelow place suffix := by
  refine eq_of_increasing (others.increasing_sourcesBelow place suffix)
    (holds.increasing_sourcesBelow place suffix) fun way => ?_
  rw [others.mem_sourcesBelow plain, holds.mem_sourcesBelow plain]

/-- A path stands for the same sources on all disks that hold the same tree. -/
theorem expandPath_eq (others : other.Holds tree)
    (hworking : other.workingDirectory = disk.workingDirectory) (plain : PlainSuffix suffix)
    (path : String) : other.expandPath suffix path = disk.expandPath suffix path := by
  have horigin : other.origin path = disk.origin path := by rw [origin, origin, hworking]
  rw [expandPath, expandPath, horigin, holds.walk_eq others]
  split
  · next place _ =>
    rw [(holds.agree others place).1, holds.sourcesBelow_eq others plain]
  · rfl

end Holds

/-! ### Expansion -/

/-- What it takes for paths to be the sources below the directory at a place, which a path leads
to. -/
structure ListsSources (disk : Disk) (tree : FileTree) (dir : String) (place : Place)
    (suffix : String) (paths : List String) : Prop where
  /-- The files at any depth whose names end in the suffix are listed, and nothing else. -/
  mem_iff : ∀ path, path ∈ paths ↔ ∃ way, IsSource tree place suffix way ∧ path = extend dir way
  nodup : paths.Nodup
  /-- Components are compared one by one, each by the code points of its characters. -/
  increasing : paths.Pairwise fun a b => components a < components b
  /-- The path to a file has the way there as its last components, and reads the file. -/
  reads : ∀ way bytes, tree.at? (place ++ way) = some (.file bytes) →
    components (extend dir way) = components dir ++ way ∧
      disk.readBytes (extend dir way) = .ok bytes

theorem expandPaths_singleton (disk : Disk) (suffix path : String) :
    disk.expandPaths suffix [path] = disk.expandPath suffix path :=
  List.flatMap_singleton _ _

theorem Holds.expandPath_directory (holds : disk.Holds tree) (hdir : disk.LeadsTo dir place)
    (h : tree.at? place = some (.directory entries)) :
    disk.expandPath suffix dir = (disk.sourcesBelow place suffix).map (extend dir) := by
  have hisdir : disk.isDirectory place = true := (holds.directories place).2 ⟨entries, h⟩
  rw [expandPath, hdir]
  exact if_pos hisdir

theorem Holds.expandPath_other (holds : disk.Holds tree)
    (h : ∀ place entries, disk.LeadsTo path place → tree.at? place ≠ some (.directory entries)) :
    disk.expandPath suffix path = [path] := by
  unfold expandPath
  split
  · next place hplace =>
    refine if_neg fun hisdir => ?_
    obtain ⟨entries, hentries⟩ := (holds.directories place).1 hisdir
    exact h place entries hplace hentries
  · rfl

theorem Holds.listsSources (holds : disk.Holds tree) (proper : tree.Proper)
    (plain : PlainSuffix suffix)
    (hdir : disk.LeadsTo dir place) (h : tree.at? place = some (.directory entries)) :
    ListsSources disk tree dir place suffix
      ((disk.sourcesBelow place suffix).map (extend dir)) := by
  have hcomponents : ∀ way ∈ disk.sourcesBelow place suffix,
      components (extend dir way) = components dir ++ way := by
    intro way hway
    obtain ⟨⟨_, hfile⟩, hends⟩ := (holds.mem_sourcesBelow plain).1 hway
    exact components_extend dir hends.ne_nil (proper.isStep hfile)
  have hincreasing : ((disk.sourcesBelow place suffix).map (extend dir)).Pairwise
      fun a b => components a < components b := by
    refine List.pairwise_map.2 ((holds.increasing_sourcesBelow place suffix).imp_of_mem ?_)
    intro a b ha hb hlt
    rw [hcomponents a ha, hcomponents b hb]
    exact List.append_left_lt hlt
  have hne : ∀ {way bytes}, tree.at? (place ++ way) = some (.file bytes) → way ≠ [] := by
    rintro _ bytes hfile rfl
    rw [List.append_nil, h] at hfile
    cases hfile
  refine ⟨fun path => ?_, hincreasing.imp ?_, hincreasing, fun way bytes hfile => ⟨?_, ?_⟩⟩
  · simp only [List.mem_map, holds.mem_sourcesBelow plain, eq_comm]
  · rintro a _ hlt rfl
    exact List.lt_irrefl _ hlt
  · exact components_extend dir (hne hfile) (proper.isStep hfile)
  · exact holds.readBytes_extend proper hdir (hne hfile) hfile

/-- A directory stands for the sources below it, each of them once and in increasing order, and any
other path for itself; the order in which the disk lists its files does not matter. -/
theorem expandPaths_of_holds (holds : disk.Holds tree) (proper : tree.Proper)
    (plain : PlainSuffix suffix) :
    (∀ dir place entries, disk.LeadsTo dir place → tree.at? place = some (.directory entries) →
        ListsSources disk tree dir place suffix (disk.expandPaths suffix [dir])) ∧
      (∀ path, (∀ place entries, disk.LeadsTo path place →
          tree.at? place ≠ some (.directory entries)) → disk.expandPaths suffix [path] = [path]) ∧
      (∀ paths, disk.expandPaths suffix paths =
        paths.flatMap fun path => disk.expandPaths suffix [path]) ∧
      ∀ other : Disk, other.Holds tree → other.workingDirectory = disk.workingDirectory →
        ∀ paths, other.expandPaths suffix paths = disk.expandPaths suffix paths := by
  simp only [expandPaths_singleton]
  refine ⟨?_, fun path => holds.expandPath_other, fun _ => rfl, ?_⟩
  · intro dir place entries hdir hentries
    rw [holds.expandPath_directory hdir hentries]
    exact holds.listsSources proper plain hdir hentries
  · intro other others hworking paths
    rw [expandPaths, expandPaths, funext (holds.expandPath_eq others hworking plain)]

/-- The names of two directories are ordered in another way than the texts of the paths through
them, and a directory is named like a source. -/
def nestedTree : FileTree :=
  .directory
    [("src", .directory
      [("b.java", .directory [("K.java", .file .empty), ("notes", .file .empty)]),
        ("a.b", .directory [("Z.java", .file .empty)]),
        ("a", .directory [("W.java", .file .empty)])]),
      ("X.java", .file .empty)]

theorem expandPaths_of_holds_nested :
    (nestedTree.disk []).Holds nestedTree ∧ nestedTree.Proper ∧ PlainSuffix ".java" ∧
      ListsSources (nestedTree.disk []) nestedTree "src" ["src"] ".java"
        ["src/a/W.java", "src/a.b/Z.java", "src/b.java/K.java"] ∧
      ∀ files : List (Place × ByteArray), files.Perm (nestedTree.disk []).files →
        { nestedTree.disk [] with files := files }.expandPaths ".java" ["src", "X.java"] =
          ["src/a/W.java", "src/a.b/Z.java", "src/b.java/K.java", "X.java"] := by
  have hleaves : ∀ names : List String, (∀ name ∈ names, EntryName name) → names.Nodup →
      (FileTree.directory (names.map fun name => (name, .file .empty))).Proper := by
    intro names hnames hnodup
    refine .directory ?_ ?_ ?_
    · exact List.forall_mem_map.2 hnames
    · rw [List.map_map]
      exact (List.map_id names).symm ▸ hnodup
    · exact List.forall_mem_map.2 fun _ _ => .file .empty
  have proper : nestedTree.Proper := by
    refine .directory (by decide) (by decide) (List.forall_mem_cons.2 ⟨?_, ?_⟩)
    · refine .directory (by decide) (by decide) (List.forall_mem_cons.2 ⟨?_, ?_⟩)
      · exact hleaves ["K.java", "notes"] (by decide) (by decide)
      · refine List.forall_mem_cons.2 ⟨hleaves ["Z.java"] (by decide) (by decide), ?_⟩
        exact List.forall_mem_singleton.2 (hleaves ["W.java"] (by decide) (by decide))
    · exact List.forall_mem_singleton.2 (.file .empty)
  have holds : (nestedTree.disk []).Holds nestedTree := proper.holds_disk (FileTree.at?_nil _)
  have plain : PlainSuffix ".java" := by unfold PlainSuffix; decide
  obtain ⟨hlists, hother, hconcat, hsame⟩ := expandPaths_of_holds holds proper plain
  have hsrc : (nestedTree.disk []).expandPaths ".java" ["src"] =
      ["src/a/W.java", "src/a.b/Z.java", "src/b.java/K.java"] := by decide +kernel
  refine ⟨holds, proper, plain, ?_, fun files hperm => ?_⟩
  · rw [← hsrc]
    exact hlists "src" ["src"] _ rfl rfl
  · have hfile : (nestedTree.disk []).expandPaths ".java" ["X.java"] = ["X.java"] := by
      refine hother "X.java" fun place entries hplace hentries => ?_
      obtain rfl : ["X.java"] = place := Except.ok.inj hplace
      cases hentries
    rw [hsame _ (holds.of_perm hperm) rfl, hconcat, List.flatMap_cons, List.flatMap_singleton,
      hsrc, hfile]
    rfl

end ClassAtlas.Disk
