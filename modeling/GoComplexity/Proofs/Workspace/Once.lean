import GoComplexity.Proofs.Lint.Places
import GoComplexity.Proofs.Workspace.Partition

/-!
# Files that are loaded once

Paths are told apart by their segments. Names lead from a directory to different places, so different
paths that continue one path by names lead to different files. A step up in the middle leads back to a
place that a shorter path names as well. A load takes a file twice exactly if two paths of it are
matched. Otherwise it takes no more files than there are and reports no violation twice.
-/

namespace GoComplexity

open Syntax

/-! ## Violations file by file -/

/-- The files of the packages, each with the scope it is analysed in. -/
def scopedFiles (packages : List Package) : List (Scope × SourceFile) :=
  packages.flatMap fun p ↦ p.files.map fun f ↦ (Scope.ofFiles p.path p.files, f)

theorem map_snd_scopedFiles (packages : List Package) :
    (scopedFiles packages).map Prod.snd = packages.flatMap Package.files := by
  unfold scopedFiles
  simp [List.map_flatMap, Function.comp_def]

/-- A run reports what each file in its scope gives, in some order. -/
theorem violations_runPackages_perm (settings : Settings) (packages : List Package) :
    (runPackages settings packages).violations.Perm
      ((scopedFiles packages).flatMap fun x ↦ (Outcome.ofFile settings x.1 x.2).violations) := by
  refine (Outcome.sort_perm _).trans (List.Perm.of_eq ?_)
  rw [Outcome.foldl_merge_eq]
  simp only [Outcome.empty, List.nil_append, scopedFiles, Package.outcomes, List.flatMap_assoc,
    List.flatMap_map]

theorem file_of_mem_violations {settings : Settings} {scope : Scope} {file : SourceFile} {v : Violation}
    (h : v ∈ (Outcome.ofFile settings scope file).violations) : v.file = file.path := by
  obtain ⟨f, -, hv⟩ := List.mem_flatMap.mp h
  obtain ⟨finding, -, rfl⟩ := List.mem_map.mp hv
  rfl

/-- A file that was read has no two violations of one metric at one place. -/
theorem nodup_place_of_readSource {path : String} {source : ByteArray} {file : SourceFile}
    (h : Source.readSource path source = .ok file) (settings : Settings) (scope : Scope) :
    ((Outcome.ofFile settings scope file).violations.map Violation.place).Nodup := by
  obtain ⟨trees, htrees, hfunctions, himports⟩ := Source.exists_treesOf_of_readSource h
  have hplaces := htrees.isAt_of_mem_places hfunctions himports
  refine Subject.nodup_place_violations hplaces ?_ settings scope
  rw [hfunctions]
  exact htrees.pairwise_functions []

/-- If files are told apart by where they are, so are their violations by that and their place. -/
theorem nodup_violations_runPackages {α : Type} {at? : String → α} {packages : List Package}
    (hfiles : ((packages.flatMap Package.files).map fun f ↦ at? f.path).Nodup)
    (hread : ∀ f ∈ packages.flatMap Package.files, ∃ path source,
      Source.readSource path source = .ok f) (settings : Settings) :
    ((runPackages settings packages).violations.map fun v ↦ (at? v.file, v.place)).Nodup := by
  rw [((violations_runPackages_perm settings packages).map _).nodup_iff, List.map_flatMap,
    List.nodup_flatMap]
  constructor
  · intro x hx
    have hmem : x.2 ∈ packages.flatMap Package.files :=
      map_snd_scopedFiles packages ▸ List.mem_map_of_mem hx
    obtain ⟨path, source, hsource⟩ := hread x.2 hmem
    refine List.Nodup.of_map Prod.snd ?_
    rw [List.map_map]
    exact nodup_place_of_readSource hsource settings x.1
  · rw [← map_snd_scopedFiles, List.map_map, List.Nodup, List.pairwise_map] at hfiles
    refine hfiles.imp ?_
    intro x y hne key hkey hkey'
    obtain ⟨v, hv, rfl⟩ := List.mem_map.mp hkey
    obtain ⟨w, hw, heq⟩ := List.mem_map.mp hkey'
    apply hne
    have hat := congrArg Prod.fst heq
    rw [file_of_mem_violations hv, file_of_mem_violations hw] at hat
    exact hat.symm

/-! ## Paths and the files they lead to -/

theorem FileTree.eq_of_filePlace?_eq {t : FileTree} {root : Path} {names names' : List String}
    (hsome : (t.filePlace? (root.append (names.map .name))).isSome = true)
    (h : t.filePlace? (root.append (names.map .name)) = t.filePlace? (root.append (names'.map .name))) :
    names = names' := by
  obtain ⟨place, hplace⟩ := Option.isSome_iff_exists.mp hsome
  have hplace' := h.symm.trans hplace
  obtain ⟨here, hhere, hnames⟩ := exists_of_locate_append_names (filePlace?_eq_some_iff.mp hplace).1
  obtain ⟨here', hhere', hnames'⟩ := exists_of_locate_append_names (filePlace?_eq_some_iff.mp hplace').1
  obtain rfl : here = here' := Except.ok.inj (hhere.symm.trans hhere')
  exact List.append_cancel_left (hnames.symm.trans hnames')

namespace Workspace

variable {ws : Workspace} {s : Selection} {patterns : List String} {packages : List Package}

/-- The file of the tree that a text leads to. -/
def fileAt? (ws : Workspace) (text : String) : Option Place := ws.tree.filePlace? (ws.resolve text)

/-- Whether no file is matched by two paths. -/
def OneSpelling (ws : Workspace) (s : Selection) (patterns : List String) : Prop :=
  ∀ p ∈ ws.matched s patterns, ∀ q ∈ ws.matched s patterns,
    ws.tree.filePlace? p = ws.tree.filePlace? q → p = q

instance : Decidable (ws.OneSpelling s patterns) := inferInstanceAs (Decidable (∀ p ∈ _, ∀ q ∈ _, _))

/-- Whether the paths of the patterns continue one path by names: steps up, if any, come first and are
the same in all of them. -/
def ContinueBy (ws : Workspace) (patterns : List String) (root : Path) : Prop :=
  ∀ pattern ∈ patterns, ∃ names : List String,
    ws.resolve (FilePattern.ofText pattern).root = root.append (names.map .name)

theorem ContinueBy.exists_names {root p : Path} (hroot : ws.ContinueBy patterns root)
    (hp : p ∈ ws.matched s patterns) : ∃ names : List String, p = root.append (names.map .name) := by
  obtain ⟨pattern, hpattern, paths, hexpand, hmem⟩ := mem_matched.mp hp
  obtain ⟨names, place, rfl, -⟩ := exists_of_mem_expand? hexpand hmem
  obtain ⟨lead, hlead⟩ := hroot pattern hpattern
  refine ⟨lead ++ names, ?_⟩
  rw [hlead]
  simp [Path.append]

/-- Paths that go on by names from one root lead to one file only if they are equal. -/
theorem ContinueBy.oneSpelling {root : Path} (hroot : ws.ContinueBy patterns root) :
    ws.OneSpelling s patterns := by
  intro p hp q hq heq
  obtain ⟨names, rfl⟩ := hroot.exists_names hp
  obtain ⟨names', rfl⟩ := hroot.exists_names hq
  rw [FileTree.eq_of_filePlace?_eq (isSome_filePlace?_of_mem_matched hp) heq]

/-- What it means that no file of the tree is taken twice. -/
structure TakesOnce (ws : Workspace) (packages : List Package) : Prop where
  found : ∀ f ∈ packages.flatMap Package.files, (ws.fileAt? f.path).isSome = true
  distinct : ((packages.flatMap Package.files).map fun f ↦ ws.fileAt? f.path).Nodup
  scanned : ∀ settings, (runPackages settings packages).scanned ≤ ws.tree.files.length
  violations : ∀ settings,
    ((runPackages settings packages).violations.map fun v ↦ (ws.fileAt? v.file, v.place)).Nodup

/-- A load reads a file twice exactly if two spellings of it are matched. -/
theorem nodup_fileAt?_iff (ht : ws.tree.WellFormed) (h : ws.load s patterns = .ok packages) :
    ((packages.flatMap Package.files).map fun f ↦ ws.fileAt? f.path).Nodup ↔
      ws.OneSpelling s patterns := by
  obtain ⟨-, files, hfiles, rfl⟩ := load_eq_ok_iff.mp h
  have hperm := (hfiles.map_resolve_perm ht).map ws.tree.filePlace?
  rw [List.map_map] at hperm
  refine hperm.nodup_iff.trans ?_
  rw [List.nodup_map_iff_inj_on (Path.nodup_inOrder _)]
  simp only [Path.mem_inOrder]
  rfl

theorem isSome_fileAt?_of_load (ht : ws.tree.WellFormed) (h : ws.load s patterns = .ok packages) :
    ∀ f ∈ packages.flatMap Package.files, (ws.fileAt? f.path).isSome = true := by
  obtain ⟨-, files, hfiles, rfl⟩ := load_eq_ok_iff.mp h
  intro f hf
  obtain ⟨l, hl, rfl⟩ := List.mem_map.mp ((flatMap_packages_perm ws files).mem_iff.mp hf)
  unfold fileAt?
  rw [hfiles.resolve_path_file ht hl]
  exact hfiles.isSome_filePlace? hl

/-- There are not more files than places with a file. -/
theorem scanned_le_of_nodup {settings : Settings}
    (hfound : ∀ f ∈ packages.flatMap Package.files, (ws.fileAt? f.path).isSome = true)
    (hdistinct : ((packages.flatMap Package.files).map fun f ↦ ws.fileAt? f.path).Nodup) :
    (runPackages settings packages).scanned ≤ ws.tree.files.length := by
  rw [scanned_runPackages, ← List.length_map fun f ↦ ws.fileAt? f.path,
    ← List.length_map fun file : Place × ByteArray ↦ some file.1]
  refine hdistinct.length_le_of_subset ?_
  intro found hmem
  obtain ⟨f, hf, rfl⟩ := List.mem_map.mp hmem
  obtain ⟨place, hplace⟩ := Option.isSome_iff_exists.mp (hfound f hf)
  obtain ⟨file, hfile, rfl⟩ :=
    List.mem_map.mp (FileTree.isFile_iff.mp (FileTree.filePlace?_eq_some_iff.mp hplace).2)
  exact List.mem_map.mpr ⟨file, hfile, hplace.symm⟩

/-- A load takes each file once exactly if each has one spelling among the matched paths. -/
theorem takesOnce_iff (ht : ws.tree.WellFormed) (h : ws.load s patterns = .ok packages) :
    ws.TakesOnce packages ↔ ws.OneSpelling s patterns := by
  refine ⟨fun honce ↦ (nodup_fileAt?_iff ht h).mp honce.distinct, fun hspelling ↦ ?_⟩
  have hfound := isSome_fileAt?_of_load ht h
  have hdistinct := (nodup_fileAt?_iff ht h).mpr hspelling
  refine ⟨hfound, hdistinct, fun settings ↦ scanned_le_of_nodup hfound hdistinct, ?_⟩
  apply nodup_violations_runPackages hdistinct
  intro f hf
  obtain ⟨p, hp, hf⟩ := List.mem_flatMap.mp hf
  obtain ⟨bytes, -, hsource⟩ := (isPartition_of_load ht h).read p hp f hf
  exact ⟨_, bytes, hsource⟩

/-- A load takes no file of the tree twice exactly if it matches each by one path, which it does when
its patterns continue one path by names. Then it counts at most the files of the tree and reports no
violation twice. -/
theorem load_takes_once {ws : Workspace} {s : Selection} {patterns : List String}
    {packages : List Package} (ht : ws.tree.WellFormed) (h : ws.load s patterns = .ok packages) :
    (ws.TakesOnce packages ↔ ws.OneSpelling s patterns) ∧
      ((∃ root, ws.ContinueBy patterns root) → ws.TakesOnce packages) := by
  refine ⟨takesOnce_iff ht h, ?_⟩
  rintro ⟨root, hroot⟩
  exact (takesOnce_iff ht h).mpr hroot.oneSpelling

/-- Overlapping patterns from the working directory and from the root. -/
theorem load_takes_once_overlapping_patterns :
    let ws : Workspace := ⟨⟨[(["w", "a.go"], "package p\n".toUTF8),
      (["w", "x", "b.go"], "package p\n".toUTF8)], []⟩, .ofNames ["w"]⟩
    let patterns := ["./...", "/w//a.go", "x/./b.go", "/w/x"]
    ws.tree.WellFormed ∧ (∃ root, ws.ContinueBy patterns root) ∧
      ∃ packages, ws.load ⟨false, []⟩ patterns = .ok packages ∧ ws.TakesOnce packages ∧
        (packages.flatMap Package.files).length = 2 := by
  intro ws patterns
  have htree : ws.tree.WellFormed := by constructor <;> decide +kernel
  have hroot : ws.ContinueBy patterns (.ofNames ["w"]) := by
    unfold ContinueBy
    simp only [patterns, List.forall_mem_cons]
    exact ⟨⟨[], by decide +kernel⟩, ⟨["a.go"], by decide +kernel⟩, ⟨["x", "b.go"], by decide +kernel⟩,
      ⟨["x"], by decide +kernel⟩, List.forall_mem_nil _⟩
  have hok : (ws.load ⟨false, []⟩ patterns).isOk = true :=
    isOk_load_iff.mpr ⟨by decide +kernel, by decide +kernel⟩
  obtain ⟨packages, hload⟩ := isOk_iff_exists.mp hok
  refine ⟨htree, ⟨_, hroot⟩, packages, hload, (load_takes_once htree hload).2 ⟨_, hroot⟩, ?_⟩
  rw [← List.length_map fun f ↦ ws.resolve f.path,
    (isPartition_of_load htree hload).whole.length_eq]
  decide +kernel

/-- The package of a file that is alone in its directory. -/
def alone (ws : Workspace) (l : Loaded) : Package :=
  ⟨l.path.parent, l.file.package, ws.importPath l.path.parent, [l.file]⟩

theorem packages_pair {l m : Loaded} (h : l.path.parent.lt m.path.parent = true) :
    ws.packages [l, m] = [ws.alone l, ws.alone m] := by
  have hlt : Package.keyOf l.key < Package.keyOf m.key :=
    (Package.before_iff_key_lt (ws.alone l) (ws.alone m)).mp (Or.inl h)
  have hne : l.key ≠ m.key := fun heq ↦ hlt.ne (congrArg Package.keyOf heq)
  have hkeys : (([l, m].map Loaded.key).mergeSort Package.keyLe).eraseReps = [l.key, m.key] := by
    apply eraseReps_mergeSort_eq Package.keyLe_iff_keyOf_le Package.keyOf_injective fun _ ↦ Iff.rfl
    exact List.pairwise_pair.mpr hlt
  unfold packages
  dsimp only
  rw [hkeys]
  simp only [List.map_cons, List.map_nil, List.filter_cons, List.filter_nil, beq_self_eq_true, if_true,
    beq_false_of_ne hne, beq_false_of_ne hne.symm, Bool.false_eq_true, if_false]
  rfl

/-- A step up out of a directory makes a second path to a file, and the load takes it twice. -/
theorem load_takes_twice_through_step_up :
    let ws : Workspace :=
      ⟨⟨[(["work", "a.go"], "package p\n\nfunc F(a, b, c, d, e int) \x7b\x7d\n".toUTF8)],
        [["work", "x"]]⟩, .ofNames ["work"]⟩
    ws.tree.WellFormed ∧ (ws.tree.dirPlace? ws.base).isSome = true ∧
      ∃ packages, ws.load ⟨false, []⟩ ["a.go", "x/../a.go"] = .ok packages ∧
        ¬ ((packages.flatMap Package.files).map fun f ↦ ws.fileAt? f.path).Nodup ∧
        (runPackages .defaults packages).scanned = 2 ∧ ws.tree.files.length = 1 ∧
        ¬ ((runPackages .defaults packages).violations.map fun v ↦
          (ws.fileAt? v.file, v.place)).Nodup := by
  intro ws
  have htree : ws.tree.WellFormed := by constructor <;> decide +kernel
  let p : Path := ⟨[.name "work", .name "a.go"]⟩
  let q : Path := ⟨[.name "work", .name "x", .up, .name "a.go"]⟩
  let reported (l : Loaded) : List (Option Place × ℕ × ℕ × Metric) :=
    (Outcome.ofFile .defaults (Scope.ofFiles (ws.importPath l.path.parent) [l.file])
      l.file).violations.map fun v ↦ (ws.fileAt? v.file, v.place)
  -- Either path gives the file with the same violation.
  have hreported {path : Path} (h : path = p ∨ path = q) : ∃ l, ws.loadFile path = .ok l ∧
      (reported l == [(some ["work", "a.go"], 3, 1, .params)]) = true := by
    rcases h with rfl | rfl <;> exact exists_of_toOption_any (by decide +kernel)
  obtain ⟨l, hl, hlfile⟩ := hreported (Or.inl rfl)
  obtain ⟨m, hm, hmfile⟩ := hreported (Or.inr rfl)
  have hlpath : l.path = p := (loadFile_eq_ok_iff.mp hl).1
  have hmpath : m.path = q := (loadFile_eq_ok_iff.mp hm).1
  have hmatched : Path.inOrder (ws.matched ⟨false, []⟩ ["a.go", "x/../a.go"]) = [p, q] := by
    have hpaths : ws.matched ⟨false, []⟩ ["a.go", "x/../a.go"] = [p, q] := by decide +kernel
    rw [hpaths]
    apply Path.inOrder_eq fun _ ↦ Iff.rfl
    exact List.pairwise_pair.mpr ((Path.lt_iff_key_lt p q).mp (by decide +kernel))
  have hload : ws.load ⟨false, []⟩ ["a.go", "x/../a.go"] = .ok [ws.alone l, ws.alone m] := by
    refine load_eq_ok_iff.mpr ⟨by decide +kernel, [l, m], ⟨?_, ?_⟩, (packages_pair ?_).symm⟩
    · rw [hmatched, List.map_cons, List.map_singleton, hlpath, hmpath]
    · rw [List.forall_mem_cons, List.forall_mem_singleton, hlpath, hmpath]
      exact ⟨hl, hm⟩
    · rw [hlpath, hmpath]
      decide +kernel
  refine ⟨htree, by decide +kernel, _, hload, ?_, ?_, rfl, ?_⟩
  · rw [nodup_fileAt?_iff htree hload]
    decide +kernel
  · rw [scanned_runPackages]
    rfl
  · rw [((violations_runPackages_perm .defaults _).map _).nodup_iff]
    have htwice : ((scopedFiles [ws.alone l, ws.alone m]).flatMap fun x ↦
        (Outcome.ofFile .defaults x.1 x.2).violations).map (fun v ↦ (ws.fileAt? v.file, v.place)) =
        reported l ++ reported m := by
      simp only [scopedFiles, alone, List.flatMap_cons, List.flatMap_nil, List.map_cons, List.map_nil,
        List.append_nil, List.map_append, List.nil_append, List.cons_append]
      rfl
    rw [htwice, beq_iff_eq.mp hlfile, beq_iff_eq.mp hmfile]
    decide +kernel

end Workspace

end GoComplexity
