import GoComplexity.Proofs.Source.Files
import GoComplexity.Proofs.Workspace.Places

/-!
# Packages as a partition

Loading sorts the paths that the patterns name, reads the file at each and groups the files by
directory and package clause. All of this depends on the paths alone and not on the order or the number
of the patterns. The groups are in order, their files are in order, and every path is in one of them.
-/

namespace GoComplexity

open Syntax

/-! ## Results and lists -/

/-- Reading all files succeeds exactly if each can be read, with the values one by one. -/
theorem mapM_eq_ok_iff {ε α β : Type} {f : α → Except ε β} {l : List α} {values : List β} :
    l.mapM f = .ok values ↔ List.Forall₂ (fun a b ↦ f a = .ok b) l values := by
  induction l generalizing values with
  | nil => simp [pure, Except.pure, eq_comm]
  | cons a l ih =>
    rw [List.mapM_cons, bind_eq_ok_iff, List.forall₂_cons_left_iff]
    simp only [bind_eq_ok_iff, ih]
    constructor
    · rintro ⟨value, hvalue, rest, hrest, hvalues⟩
      exact ⟨value, rest, hvalue, hrest, (Except.ok.inj hvalues).symm⟩
    · rintro ⟨value, rest, hvalue, hrest, rfl⟩
      exact ⟨value, hvalue, rest, hrest, rfl⟩

theorem isOk_iff_exists {ε α : Type} {x : Except ε α} : x.isOk = true ↔ ∃ a, x = .ok a := by
  cases x <;> simp [Except.isOk, Except.toBool]

theorem exists_of_toOption_any {ε α : Type} {x : Except ε α} {p : α → Bool}
    (h : x.toOption.any p = true) : ∃ a, x = .ok a ∧ p a = true := by
  cases x with
  | error e => simp [Except.toOption] at h
  | ok a => exact ⟨a, rfl, by simpa [Except.toOption] using h⟩

theorem isOk_mapM_iff {ε α β : Type} {f : α → Except ε β} {l : List α} :
    (l.mapM f).isOk = true ↔ ∀ a ∈ l, (f a).isOk = true := by
  simp only [isOk_iff_exists, mapM_eq_ok_iff]
  induction l with
  | nil => simp
  | cons a l ih =>
    rw [List.forall_mem_cons, ← ih]
    simp only [List.forall₂_cons_left_iff]
    constructor
    · rintro ⟨_, value, values, hvalue, hvalues, -⟩
      exact ⟨⟨value, hvalue⟩, values, hvalues⟩
    · rintro ⟨⟨value, hvalue⟩, values, hvalues⟩
      exact ⟨_, value, values, hvalue, hvalues, rfl⟩

/-- Picking out the members of one group after the other picks out every member once. -/
theorem flatMap_filter_perm {α κ : Type} [BEq κ] [LawfulBEq κ] (group : α → κ) {keys : List κ}
    (hkeys : keys.Nodup) {l : List α} (hl : ∀ a ∈ l, group a ∈ keys) :
    (keys.flatMap fun k ↦ l.filter fun a ↦ group a == k).Perm l := by
  induction keys generalizing l with
  | nil =>
    obtain rfl : l = [] := List.eq_nil_iff_forall_not_mem.mpr fun a ha ↦ List.not_mem_nil (hl a ha)
    exact List.Perm.refl _
  | cons k keys ih =>
    obtain ⟨hfresh, hkeys⟩ := List.nodup_cons.mp hkeys
    -- The other groups do not lose a member with the first group.
    have hothers : (keys.flatMap fun k' ↦ l.filter fun a ↦ group a == k') =
        keys.flatMap fun k' ↦ (l.filter fun a ↦ !(group a == k)).filter fun a ↦ group a == k' := by
      apply List.flatMap_congr
      intro k' hk'
      rw [List.filter_filter]
      apply List.filter_congr
      intro a _
      have hne : k' ≠ k := fun heq ↦ hfresh (heq ▸ hk')
      by_cases ha : group a = k' <;> simp [ha, hne]
    rw [List.flatMap_cons, hothers]
    refine ((ih hkeys ?_).append_left _).trans (List.filter_append_perm _ l)
    intro a ha
    obtain ⟨hmem, hne⟩ := List.mem_filter.mp ha
    exact (List.mem_cons.mp (hl a hmem)).resolve_left (by simpa using hne)

/-! ## Packages -/

namespace Workspace

variable {ws : Workspace} {s : Selection} {patterns : List String}

section Grouping

variable {files : List Loaded}

/-- A package has the files with its directory and name, and at least one. -/
theorem exists_of_mem_packages {p : Package} (h : p ∈ ws.packages files) :
    (∃ l ∈ files, l.key = (p.dir, p.name)) ∧
      p.files = (files.filter fun l ↦ l.key == (p.dir, p.name)).map Loaded.file := by
  obtain ⟨key, hkey, rfl⟩ := List.mem_map.mp h
  refine ⟨?_, rfl⟩
  rw [mem_eraseReps_mergeSort] at hkey
  exact List.mem_map.mp hkey

theorem exists_of_mem_files {p : Package} (h : p ∈ ws.packages files) {f : SourceFile}
    (hf : f ∈ p.files) : ∃ l ∈ files, l.key = (p.dir, p.name) ∧ l.file = f := by
  rw [(exists_of_mem_packages h).2] at hf
  obtain ⟨l, hl, rfl⟩ := List.mem_map.mp hf
  obtain ⟨hmem, hkey⟩ := List.mem_filter.mp hl
  exact ⟨l, hmem, beq_iff_eq.mp hkey, rfl⟩

/-- Packages are ordered by directory, then by name. -/
theorem pairwise_packages (ws : Workspace) (files : List Loaded) :
    (ws.packages files).Pairwise Package.Before := by
  unfold packages
  rw [List.pairwise_map]
  refine (pairwise_lt_eraseReps_mergeSort Package.keyLe_iff_keyOf_le Package.keyOf_injective
    (files.map Loaded.key)).imp ?_
  intro a b hab
  rwa [Package.before_iff_key_lt]

/-- Every file is in one package. -/
theorem flatMap_packages_perm (ws : Workspace) (files : List Loaded) :
    ((ws.packages files).flatMap Package.files).Perm (files.map Loaded.file) := by
  let keys := ((files.map Loaded.key).mergeSort Package.keyLe).eraseReps
  have hkeys : keys.Nodup :=
    nodup_eraseReps_mergeSort Package.keyLe_iff_keyOf_le Package.keyOf_injective _
  have hgroup : ∀ l ∈ files, l.key ∈ keys := fun l hl ↦
    mem_eraseReps_mergeSort.mpr (List.mem_map_of_mem hl)
  calc
    (ws.packages files).flatMap Package.files =
        keys.flatMap fun key ↦ (files.filter fun l ↦ l.key == key).map Loaded.file := by
      unfold packages
      rw [List.flatMap_map]
    _ = (keys.flatMap fun key ↦ files.filter fun l ↦ l.key == key).map Loaded.file := by
      rw [List.map_flatMap]
    List.Perm _ (files.map Loaded.file) := (flatMap_filter_perm Loaded.key hkeys hgroup).map _

end Grouping

/-! ## Loading -/

/-- The paths that the patterns name, each as often as they do. -/
def matched (ws : Workspace) (s : Selection) (patterns : List String) : List Path :=
  patterns.flatMap fun pattern ↦ (ws.expand? s pattern).getD []

theorem expand_eq_ok_iff {pattern : String} {paths : List Path} :
    ws.expand s pattern = .ok paths ↔
      (ws.expand? s pattern).isSome ∧ (ws.expand? s pattern).getD [] = paths := by
  unfold expand
  cases ws.expand? s pattern <;> simp

/-- Patterns can be expanded exactly if each of them names something. -/
theorem expandAll_eq_ok_iff {paths : List Path} :
    ws.expandAll s patterns = .ok paths ↔
      (∀ pattern ∈ patterns, (ws.expand? s pattern).isSome) ∧
        paths = Path.inOrder (ws.matched s patterns) := by
  unfold expandAll
  rw [bind_eq_ok_iff]
  have hlists (lists : List (List Path)) : patterns.mapM (ws.expand s) = .ok lists ↔
      (∀ pattern ∈ patterns, (ws.expand? s pattern).isSome) ∧
        patterns.map (fun pattern ↦ (ws.expand? s pattern).getD []) = lists := by
    rw [← List.forall₂_eq_eq_eq, List.forall₂_map_left_iff, ← List.forall₂_and_left, mapM_eq_ok_iff]
    simp only [expand_eq_ok_iff]
  simp only [hlists]
  constructor
  · rintro ⟨lists, ⟨hsome, rfl⟩, hpaths⟩
    exact ⟨hsome, (Except.ok.inj hpaths).symm⟩
  · rintro ⟨hsome, rfl⟩
    exact ⟨_, ⟨hsome, rfl⟩, rfl⟩

/-- A file is loaded from where its path leads. -/
theorem loadFile_eq_ok_iff {path : Path} {l : Loaded} :
    ws.loadFile path = .ok l ↔ l.path = path ∧
      ∃ bytes, ws.tree.read path = .ok bytes ∧
        Source.readSource (ws.relative path) bytes = .ok l.file := by
  obtain ⟨shown, file⟩ := l
  unfold loadFile
  cases ws.tree.read path with
  | error cause => simp
  | ok bytes =>
    cases hsource : Source.readSource (ws.relative path) bytes with
    | error cause => simp [hsource]
    | ok source => simp [hsource, eq_comm]

theorem mapM_loadFile_eq_ok_iff {paths : List Path} {files : List Loaded} :
    paths.mapM ws.loadFile = .ok files ↔
      (∀ l ∈ files, ws.loadFile l.path = .ok l) ∧ files.map Loaded.path = paths := by
  have hpath {path : Path} {l : Loaded} :
      ws.loadFile path = .ok l ↔ ws.loadFile l.path = .ok l ∧ l.path = path := by
    constructor
    · intro h
      obtain rfl := (loadFile_eq_ok_iff.mp h).1
      exact ⟨h, rfl⟩
    · rintro ⟨h, rfl⟩
      exact h
  rw [mapM_eq_ok_iff, ← List.forall₂_eq_eq_eq, List.forall₂_map_left_iff, ← List.forall₂_and_left]
  constructor
  · intro h
    exact List.Forall₂.flip (h.imp fun _ _ ↦ hpath.mp)
  · intro h
    exact List.Forall₂.flip (h.imp fun _ _ ↦ hpath.mpr)

/-- What the files of a load are: those at the matched paths, in the order of these. -/
structure LoadedFiles (ws : Workspace) (s : Selection) (patterns : List String)
    (files : List Loaded) : Prop where
  paths : files.map Loaded.path = Path.inOrder (ws.matched s patterns)
  load : ∀ l ∈ files, ws.loadFile l.path = .ok l

/-- A load succeeds exactly if all patterns name something and all files can be read. -/
theorem load_eq_ok_iff {packages : List Package} :
    ws.load s patterns = .ok packages ↔
      (∀ pattern ∈ patterns, (ws.expand? s pattern).isSome) ∧
        ∃ files, ws.LoadedFiles s patterns files ∧ packages = ws.packages files := by
  unfold load
  rw [bind_eq_ok_iff]
  simp only [bind_eq_ok_iff, expandAll_eq_ok_iff, mapM_loadFile_eq_ok_iff]
  constructor
  · rintro ⟨paths, ⟨hsome, rfl⟩, files, ⟨hload, hpaths⟩, hpackages⟩
    exact ⟨hsome, files, ⟨hpaths, hload⟩, (Except.ok.inj hpackages).symm⟩
  · rintro ⟨hsome, files, hfiles, rfl⟩
    exact ⟨_, ⟨hsome, rfl⟩, files, ⟨hfiles.load, hfiles.paths⟩, rfl⟩

theorem mem_matched {p : Path} :
    p ∈ ws.matched s patterns ↔
      ∃ pattern ∈ patterns, ∃ paths, ws.expand? s pattern = some paths ∧ p ∈ paths := by
  unfold matched
  rw [List.mem_flatMap]
  refine exists_congr fun pattern ↦ and_congr_right fun _ ↦ ?_
  cases ws.expand? s pattern <;> simp

theorem isSome_filePlace?_of_mem_matched {p : Path} (h : p ∈ ws.matched s patterns) :
    (ws.tree.filePlace? p).isSome = true := by
  obtain ⟨pattern, -, paths, hexpand, hmem⟩ := mem_matched.mp h
  obtain ⟨names, place, -, hplace⟩ := exists_of_mem_expand? hexpand hmem
  exact Option.isSome_iff_exists.mpr ⟨place, hplace⟩

/-- A load succeeds if each pattern names something and what they name can be read. -/
theorem isOk_load_iff :
    (ws.load s patterns).isOk = true ↔
      (∀ pattern ∈ patterns, (ws.expand? s pattern).isSome = true) ∧
        ∀ path ∈ ws.matched s patterns, (ws.loadFile path).isOk = true := by
  have hfiles : (∃ packages files, ws.LoadedFiles s patterns files ∧ packages = ws.packages files) ↔
      ((Path.inOrder (ws.matched s patterns)).mapM ws.loadFile).isOk = true := by
    simp only [isOk_iff_exists, mapM_loadFile_eq_ok_iff]
    constructor
    · rintro ⟨_, files, hfiles, -⟩
      exact ⟨files, hfiles.load, hfiles.paths⟩
    · rintro ⟨files, hload, hpaths⟩
      exact ⟨_, files, ⟨hpaths, hload⟩, rfl⟩
  simp only [isOk_iff_exists (x := ws.load s patterns), load_eq_ok_iff, exists_and_left, hfiles,
    isOk_mapM_iff, Path.mem_inOrder]

/-- What a load gives depends on which patterns there are, and on nothing else about them. -/
theorem load_eq_ok_congr {patterns' : List String}
    (h : ∀ pattern, pattern ∈ patterns ↔ pattern ∈ patterns') {packages : List Package} :
    ws.load s patterns = .ok packages ↔ ws.load s patterns' = .ok packages := by
  have hpaths : Path.inOrder (ws.matched s patterns) = Path.inOrder (ws.matched s patterns') := by
    apply Path.inOrder_eq _ (Path.pairwise_inOrder _)
    intro p
    simp only [Path.mem_inOrder, mem_matched, h]
  have hfiles (files : List Loaded) :
      ws.LoadedFiles s patterns files ↔ ws.LoadedFiles s patterns' files := by
    constructor
    · rintro ⟨hpaths', hload⟩
      exact ⟨hpaths'.trans hpaths, hload⟩
    · rintro ⟨hpaths', hload⟩
      exact ⟨hpaths'.trans hpaths.symm, hload⟩
  simp only [load_eq_ok_iff, hfiles, h]

/-! ## The loaded files -/

namespace LoadedFiles

variable {files : List Loaded} (h : ws.LoadedFiles s patterns files)

include h

theorem mem_matched {l : Loaded} (hl : l ∈ files) : l.path ∈ ws.matched s patterns := by
  rw [← Path.mem_inOrder, ← h.paths]
  exact List.mem_map_of_mem hl

/-- A loaded file is what is read at its path. -/
theorem exists_read {l : Loaded} (hl : l ∈ files) :
    ∃ bytes, ws.tree.read l.path = .ok bytes ∧
      Source.readSource (ws.relative l.path) bytes = .ok l.file :=
  (loadFile_eq_ok_iff.mp (h.load l hl)).2

theorem path_file {l : Loaded} (hl : l ∈ files) : l.file.path = ws.relative l.path := by
  obtain ⟨bytes, -, hsource⟩ := h.exists_read hl
  exact Source.path_of_readSource hsource

theorem isSome_filePlace? {l : Loaded} (hl : l ∈ files) :
    (ws.tree.filePlace? l.path).isSome = true :=
  isSome_filePlace?_of_mem_matched (h.mem_matched hl)

/-- The path that a file is shown with leads back to it. -/
theorem resolve_path_file (ht : ws.tree.WellFormed) {l : Loaded} (hl : l ∈ files) :
    ws.resolve l.file.path = l.path := by
  obtain ⟨place, hplace⟩ := Option.isSome_iff_exists.mp (h.isSome_filePlace? hl)
  rw [h.path_file hl, resolve_relative (ht.proper_of_filePlace? hplace)]

theorem pairwise : files.Pairwise fun l l' ↦ l.path.key < l'.path.key := by
  have hpaths := Path.pairwise_inOrder (ws.matched s patterns)
  rwa [← h.paths, List.pairwise_map] at hpaths

/-- Within a package the files keep the order of their paths. -/
theorem pairwise_files {r : SourceFile → SourceFile → Prop}
    (hr : ∀ l ∈ files, ∀ l' ∈ files, l.path.parent = l'.path.parent → l.path.key < l'.path.key →
      r l.file l'.file) {p : Package} (hp : p ∈ ws.packages files) : p.files.Pairwise r := by
  rw [(exists_of_mem_packages hp).2, List.pairwise_map]
  refine (h.pairwise.filter _).imp_of_mem ?_
  intro l l' hl hl' hlt
  obtain ⟨hmem, hkey⟩ := List.mem_filter.mp hl
  obtain ⟨hmem', hkey'⟩ := List.mem_filter.mp hl'
  have hsame : l.key = l'.key := (beq_iff_eq.mp hkey).trans (beq_iff_eq.mp hkey').symm
  exact hr l hmem l' hmem' (congrArg Prod.fst hsame) hlt

/-- The files of the packages are at the matched paths. -/
theorem map_resolve_perm (ht : ws.tree.WellFormed) :
    (((ws.packages files).flatMap Package.files).map fun f ↦ ws.resolve f.path).Perm
      (Path.inOrder (ws.matched s patterns)) := by
  rw [← h.paths]
  refine ((flatMap_packages_perm ws files).map _).trans ?_
  rw [List.map_map]
  exact List.Perm.of_eq (List.map_congr_left fun l hl ↦ h.resolve_path_file ht hl)

end LoadedFiles

/-- What makes packages a partition of the files that the patterns name. -/
structure IsPartition (ws : Workspace) (s : Selection) (patterns : List String)
    (packages : List Package) : Prop where
  named : ∀ pattern ∈ patterns, (ws.expand? s pattern).isSome = true
  increasing : packages.Pairwise Package.Before
  nonempty : ∀ p ∈ packages, p.files ≠ []
  read : ∀ p ∈ packages, ∀ f ∈ p.files, ∃ bytes, ws.tree.read (ws.resolve f.path) = .ok bytes ∧
    Source.readSource f.path bytes = .ok f
  belongs : ∀ p ∈ packages, ∀ f ∈ p.files,
    (ws.resolve f.path).parent = p.dir ∧ f.package = p.name
  sorted : ∀ p ∈ packages,
    p.files.Pairwise fun f g ↦ (ws.resolve f.path).lt (ws.resolve g.path) = true
  shown : (ws.tree.dirPlace? ws.base).isSome = true →
    ∀ p ∈ packages, p.files.Pairwise fun f g ↦ f.path < g.path
  whole : ((packages.flatMap Package.files).map fun f ↦ ws.resolve f.path).Perm
    (ws.matched s patterns).dedup

/-- What is loaded is a partition of the matched files by directory and package name. -/
theorem isPartition_of_load (ht : ws.tree.WellFormed) {packages : List Package}
    (h : ws.load s patterns = .ok packages) : ws.IsPartition s patterns packages := by
  obtain ⟨hnamed, files, hfiles, rfl⟩ := load_eq_ok_iff.mp h
  constructor
  case named => exact hnamed
  case increasing => exact pairwise_packages ws files
  case nonempty =>
    intro p hp
    obtain ⟨⟨l, hl, hkey⟩, hpackage⟩ := exists_of_mem_packages hp
    rw [hpackage]
    exact List.ne_nil_of_mem (List.mem_map_of_mem (List.mem_filter.mpr ⟨hl, beq_iff_eq.mpr hkey⟩))
  case read =>
    intro p hp f hf
    obtain ⟨l, hl, -, rfl⟩ := exists_of_mem_files hp hf
    rw [hfiles.resolve_path_file ht hl, hfiles.path_file hl]
    exact hfiles.exists_read hl
  case belongs =>
    intro p hp f hf
    obtain ⟨l, hl, hkey, rfl⟩ := exists_of_mem_files hp hf
    rw [hfiles.resolve_path_file ht hl]
    exact Prod.mk.inj hkey
  case sorted =>
    intro p hp
    refine hfiles.pairwise_files ?_ hp
    intro l hl l' hl' _ hlt
    rwa [hfiles.resolve_path_file ht hl, hfiles.resolve_path_file ht hl', Path.lt_iff_key_lt]
  case shown =>
    intro hbase p hp
    refine hfiles.pairwise_files ?_ hp
    intro l hl l' hl' hdir hlt
    rw [hfiles.path_file hl, hfiles.path_file hl']
    exact WellFormed.relative_lt ⟨ht, hbase⟩ (hfiles.isSome_filePlace? hl)
      (hfiles.isSome_filePlace? hl') hdir hlt
  case whole =>
    refine (hfiles.map_resolve_perm ht).trans ?_
    rw [List.perm_ext_iff_of_nodup (Path.nodup_inOrder _) (List.nodup_dedup _)]
    intro path
    rw [Path.mem_inOrder, List.mem_dedup]

/-- A load succeeds if its patterns name something and what they name can be read. Whether it does, and
with which packages, depends on the set of the patterns only. The packages are in order and not empty,
each holds the files of its directory with its package clause in order, and together they hold the file
at every path that a pattern names, each once. -/
theorem load_partition (ws : Workspace) (s : Selection) :
    (∀ patterns, (ws.load s patterns).isOk = true ↔
      (∀ pattern ∈ patterns, (ws.expand? s pattern).isSome = true) ∧
        ∀ path ∈ ws.matched s patterns, (ws.loadFile path).isOk = true) ∧
    (∀ patterns patterns' : List String, (∀ pattern, pattern ∈ patterns ↔ pattern ∈ patterns') →
      (∃ packages, ws.load s patterns = .ok packages ∧ ws.load s patterns' = .ok packages) ∨
        ∃ e e', ws.load s patterns = .error e ∧ ws.load s patterns' = .error e') ∧
    (ws.tree.WellFormed → ∀ patterns packages, ws.load s patterns = .ok packages →
      ws.IsPartition s patterns packages) := by
  refine ⟨fun patterns ↦ isOk_load_iff, fun patterns patterns' hsame ↦ ?_,
    fun ht patterns packages ↦ isPartition_of_load ht⟩
  cases hload : ws.load s patterns with
  | ok packages => exact Or.inl ⟨packages, rfl, (load_eq_ok_congr hsame).mp hload⟩
  | error e =>
    cases hload' : ws.load s patterns' with
    | error e' => exact Or.inr ⟨e, e', rfl, rfl⟩
    | ok packages =>
      rw [(load_eq_ok_congr hsame).mpr hload'] at hload
      contradiction

/-- Two packages in one directory and one below it, named by patterns that overlap. -/
theorem load_partition_overlapping_patterns :
    let ws : Workspace :=
      ⟨⟨[(["w", "b.go"], "package q\n".toUTF8), (["w", "a.go"], "package p\n".toUTF8),
        (["w", "x", "c.go"], "package p\n".toUTF8), (["w", "c.go"], "package p\n".toUTF8)], []⟩,
        .ofNames ["w"]⟩
    let s : Selection := ⟨false, []⟩
    let patterns := ["...", "./a.go", "x"]
    ws.tree.WellFormed ∧ ∃ packages, ws.load s patterns = .ok packages ∧
      ws.load s ["x", "...", "./a.go", "x"] = .ok packages ∧ ws.IsPartition s patterns packages ∧
      (packages.flatMap Package.files).length = 4 := by
  intro ws s patterns
  have htree : ws.tree.WellFormed := by constructor <;> decide +kernel
  obtain ⟨hsuccess, hset, hpartition⟩ := load_partition ws s
  obtain ⟨packages, hload⟩ :=
    isOk_iff_exists.mp ((hsuccess patterns).mpr ⟨by decide +kernel, by decide +kernel⟩)
  have hparts := hpartition htree patterns packages hload
  refine ⟨htree, packages, hload, ?_, hparts, ?_⟩
  · obtain ⟨_, hload', h⟩ | ⟨_, _, hload', -⟩ :=
        hset patterns ["x", "...", "./a.go", "x"] (by simp [patterns])
    · rw [h, ← hload', hload]
    · rw [hload] at hload'
      contradiction
  · rw [← List.length_map fun f ↦ ws.resolve f.path, hparts.whole.length_eq]
    decide +kernel

end Workspace

end GoComplexity
