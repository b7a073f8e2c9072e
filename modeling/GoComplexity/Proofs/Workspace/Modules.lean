import GoComplexity.Proofs.Text.Search
import GoComplexity.Proofs.Workspace.Places
import GoComplexity.Workspace.Module

/-!
# Import paths of directories

The module directive of a file is the first match of an expression. The import path of a directory is the
module path that the nearest directory at or above it declares, with the names from there down to the
directory behind it. No other module file has a say in it, so below a directory the import path goes on by
the names, as long as none of them declares a module of its own.
-/

namespace GoComplexity

/-! ## Module directives -/

namespace ModuleFile

open Text Text.Search

/-- What stands in a module path: no blanks and no quotes. -/
def isPathChar (c : Char) : Bool := !(isBlank c || c == '\x22')

/-- Blanks and a path between quotes, which may be left out. -/
def pathParts : List Part :=
  [.take .many isBlank, .take .optional (· == '\x22'), .group .many isPathChar,
    .take .optional (· == '\x22')]

/-- The word at the start of a line, blanks on both sides of it, and a path that may be quoted. -/
def moduleDirective : List Part :=
  [.lineStart, .take .any isBlank] ++ word "module".toList ++ pathParts

theorem head?_matchesAt_pathParts (start : Bool) (cs : List Char) :
    (matchesAt pathParts start cs).head? =
      if cs.takeWhile isBlank = [] then none
      else
        let path := (skip (· == '\x22') (trimStart cs)).takeWhile isPathChar
        if path = [] then none else some [path] := by
  have hquote : Avoids [.group .many isPathChar, .take .optional (· == '\x22')] (· == '\x22') := by
    apply avoids_group_many
    intro c hc
    rw [beq_iff_eq.mp hc]
    decide
  have hblank : Avoids [.take .optional (· == '\x22'), .group .many isPathChar,
      .take .optional (· == '\x22')] isBlank := by
    apply avoids_take_optional
    · intro c hc
      rw [beq_eq_false_iff_ne]
      rintro rfl
      exact absurd hc (by decide)
    · apply avoids_group_many
      intro c hc
      simp [isPathChar, hc]
  rw [pathParts, matchesAt_take_many hblank]
  split_ifs with hgap
  · rfl
  · obtain ⟨start', hwritten⟩ := exists_matchesAt_take_optional hquote
      (startsLine start (cs.takeWhile isBlank)) (cs.dropWhile isBlank)
    rw [hwritten, head?_matchesAt_group_many]
    rfl

/-- The text of a module directive, read without searching. -/
theorem directive?_eq (cs : List Char) :
    directive? cs = (after? "module".toList (trimStart cs)).bind fun rest ↦
      if rest.takeWhile isBlank = [] then none
      else
        let path := (skip (· == '\x22') (trimStart rest)).takeWhile isPathChar
        if path = [] then none else some path := by
  change (after? "module".toList (trimStart cs)).bind _ = _
  congr 1
  funext rest
  simp only [List.isEmpty_iff]
  cases trimStart rest with
  | nil => rfl
  | cons c more =>
    by_cases hc : c = '\x22'
    · rw [hc]
      rfl
    · have hplain : isPathChar = fun c ↦ !(isBlank c || c == '\x22') := rfl
      simp [skip, hc, hplain]

/-- The preferred match of the pattern at the start of a line is the directive there. -/
theorem head?_matchesAt_moduleDirective (cs : List Char) :
    (matchesAt moduleDirective true cs).head? = (directive? cs).map ([·]) := by
  have hword : Avoids (word "module".toList ++ pathParts) isBlank := by
    apply avoids_take_one
    intro c hc
    rw [beq_eq_false_iff_ne]
    rintro rfl
    exact absurd hc (by decide)
  have hline : matchesAt moduleDirective true cs =
      matchesAt (.take .any isBlank :: (word "module".toList ++ pathParts)) true cs := rfl
  obtain ⟨start, hrest⟩ := exists_matchesAt_word pathParts "module".toList
    (startsLine true (cs.takeWhile isBlank)) (cs.dropWhile isBlank)
  rw [hline, matchesAt_take_any hword, hrest, directive?_eq, trimStart]
  cases after? "module".toList (cs.dropWhile isBlank) with
  | none => rfl
  | some rest =>
    rw [Option.map_some, Option.getD_some, head?_matchesAt_pathParts, Option.bind_some,
      apply_ite (Option.map _)]
    dsimp only
    rw [apply_ite (Option.map _)]
    rfl

/-- Searching finds the directive of the first line that has one. -/
theorem first?_moduleDirective (start : Bool) (cs : List Char) :
    first? moduleDirective start cs =
      ((if start then lineStarts cs else (lineStarts cs).tail).findSome? directive?).map ([·]) := by
  have hmiddle (cs : List Char) : matchesAt moduleDirective false cs = [] := rfl
  induction cs generalizing start with
  | nil => cases start <;> rfl
  | cons c cs ih =>
    have hrest : first? moduleDirective (c == '\n') cs =
        ((if c = '\n' then lineStarts cs else (lineStarts cs).tail).findSome? directive?).map ([·]) := by
      rw [ih]
      simp only [beq_iff_eq]
    rw [first?, hrest]
    cases start with
    | false => rfl
    | true =>
      rw [head?_matchesAt_moduleDirective, if_pos rfl, lineStarts, List.findSome?_cons]
      cases directive? (c :: cs) <;> rfl

/-- The module path of a file is the group of the first match. -/
theorem modulePath?_eq_some_iff {text m : String} :
    modulePath? text = some m ↔ first? moduleDirective true text.toList = some [m.toList] := by
  rw [first?_moduleDirective, if_pos rfl, modulePath?]
  cases (lineStarts text.toList).findSome? directive? with
  | none => simp
  | some path =>
    simp only [Option.map_some, Option.some.injEq, List.cons.injEq, and_true]
    exact ⟨fun h ↦ h ▸ String.toList_ofList.symm, fun h ↦ h ▸ String.ofList_toList⟩

end ModuleFile

/-! ## Cutting a path in two -/

namespace Path

/-- A longer path has itself as its first cut; the others are those of the shorter one. -/
theorem cuts_concat (segments : List Segment) (s : Segment) :
    cuts ⟨segments ++ [s]⟩ =
      (⟨segments ++ [s]⟩, []) :: (cuts ⟨segments⟩).map fun cut ↦ (cut.1, cut.2 ++ [s]) := by
  unfold cuts
  dsimp only
  rw [List.length_append, List.length_singleton, List.range_succ, List.reverse_concat, List.map_cons,
    List.map_map]
  congr 1
  · rw [List.take_of_length_le (by simp), List.drop_eq_nil_of_le (by simp)]
  · apply List.map_congr_left
    intro k hk
    have hle : k ≤ segments.length := Nat.lt_succ_iff.mp (List.mem_range.mp (List.mem_reverse.mp hk))
    rw [List.take_append_of_le_length hle, List.drop_append_of_le_length hle]
    rfl

theorem ofNames_concat (names : List String) (name : String) :
    ofNames (names ++ [name]) = ⟨(ofNames names).segments ++ [.name name]⟩ := by
  unfold ofNames
  rw [List.map_append, List.map_singleton]

theorem fileName?_ofNames (names : List String) : (ofNames names).fileName? = names.getLast? := by
  unfold fileName? ofNames
  rw [List.getLast?_map]
  cases names.getLast? <;> rfl

end Path

/-! ## Modules of a file tree -/

namespace FileTree

/-- Whether the `go.mod` of a directory is a readable text whose first directive has the module path. -/
def DeclaresModule (t : FileTree) (dir : Place) (modulePath : String) : Prop :=
  ∃ bytes text, t.file? (dir ++ ["go.mod"]) = some bytes ∧ Text.decode? bytes = some text ∧
    Text.Search.first? ModuleFile.moduleDirective true text.toList = some [modulePath.toList]

/-- Whether `root` is the nearest directory at or above a directory that declares a module; the names lead
down from it. -/
structure IsNearestModule (t : FileTree) (dir root : Place) (names : List String)
    (modulePath : String) : Prop where
  below : dir = root ++ names
  declares : t.DeclaresModule root modulePath
  nearest : ∀ front back, names = front ++ back → front ≠ [] → ∀ m, ¬ t.DeclaresModule (root ++ front) m

variable {t : FileTree} {dir root : Place} {names : List String} {modulePath : String}

/-- Names that declare no module of their own lead on. -/
theorem IsNearestModule.concat (h : t.IsNearestModule dir root names modulePath) {name : String}
    (hname : ∀ m, ¬ t.DeclaresModule (dir ++ [name]) m) :
    t.IsNearestModule (dir ++ [name]) root (names ++ [name]) modulePath where
  below := by rw [h.below, List.append_assoc]
  declares := h.declares
  nearest front back heq hne m := by
    rcases List.eq_nil_or_concat back with rfl | ⟨back, last, rfl⟩
    · rw [List.append_nil] at heq
      rw [← heq, ← List.append_assoc, ← h.below]
      exact hname m
    · rw [List.concat_eq_append, ← List.append_assoc] at heq
      exact h.nearest front back (List.append_inj' heq rfl).1 hne m

theorem IsNearestModule.of_concat {name : String}
    (h : t.IsNearestModule (dir ++ [name]) root (names ++ [name]) modulePath) :
    t.IsNearestModule dir root names modulePath where
  below := by
    have hbelow := h.below
    rw [← List.append_assoc] at hbelow
    exact (List.append_inj' hbelow rfl).1
  declares := h.declares
  nearest front back heq hne := h.nearest front (back ++ [name]) (by rw [heq, List.append_assoc]) hne

theorem DeclaresModule.isNearestModule (h : t.DeclaresModule dir modulePath) :
    t.IsNearestModule dir dir [] modulePath where
  below := (List.append_nil dir).symm
  declares := h
  nearest _ _ heq hne := absurd (List.append_eq_nil_iff.mp heq.symm).1 hne

/-- Below a module there is a nearest one. -/
theorem DeclaresModule.exists_isNearestModule (h : t.DeclaresModule root modulePath)
    (names : List String) : ∃ root' names' m, t.IsNearestModule (root ++ names) root' names' m := by
  induction names using List.reverseRecOn with
  | nil =>
    rw [List.append_nil]
    exact ⟨root, [], modulePath, h.isNearestModule⟩
  | append_singleton names name ih =>
    rw [← List.append_assoc]
    by_cases hown : ∃ m, t.DeclaresModule (root ++ names ++ [name]) m
    · obtain ⟨m, hm⟩ := hown
      exact ⟨_, [], m, hm.isNearestModule⟩
    · push Not at hown
      obtain ⟨root', names', m, hnearest⟩ := ih
      exact ⟨root', names' ++ [name], m, hnearest.concat hown⟩

end FileTree

/-! ## Import paths -/

namespace Workspace

variable {ws : Workspace} {p : Path} {dir root : Place} {names : List String} {m : String}

/-- A directory is read as a module exactly if its module file declares one. -/
theorem moduleAt?_eq_some_iff (hdir : ws.tree.isDir dir = true) :
    ws.moduleAt? (Path.ofNames dir) = some m ↔ ws.tree.DeclaresModule dir m := by
  have hlocate : ws.tree.locate ((Path.ofNames dir).append [.name "go.mod"]) =
      .ok (dir ++ ["go.mod"]) := by
    apply FileTree.locate_concat_eq_ok_iff.mpr
    exact ⟨dir, FileTree.foldlM_step_of_isDir hdir, FileTree.step_eq_ok_iff.mpr ⟨hdir, rfl⟩⟩
  unfold moduleAt? FileTree.readText FileTree.read FileTree.DeclaresModule
  rw [hlocate]
  cases hfile : ws.tree.file? (dir ++ ["go.mod"]) with
  | none => simp [hfile, bind, Except.bind, throw, throwThe, MonadExceptOf.throw, Except.toOption]
  | some bytes =>
    cases htext : Text.decode? bytes with
    | none =>
      simp [hfile, htext, bind, Except.bind, pure, Except.pure, throw, throwThe, MonadExceptOf.throw,
        Except.toOption]
    | some text =>
      simp [hfile, htext, bind, Except.bind, pure, Except.pure, Except.toOption,
        ModuleFile.modulePath?_eq_some_iff]

theorem moduleAt?_eq_none_iff (hdir : ws.tree.isDir dir = true) :
    ws.moduleAt? (Path.ofNames dir) = none ↔ ∀ m, ¬ ws.tree.DeclaresModule dir m := by
  rw [Option.eq_none_iff_forall_ne_some]
  exact forall_congr' fun m ↦ not_congr (moduleAt?_eq_some_iff hdir)

/-- A directory has one canonical path, whatever path leads to it. -/
theorem canonical?_of_dirPlace? (h : ws.tree.dirPlace? p = some dir) :
    ws.tree.canonical? p = some (Path.ofNames dir) := by
  have hlocate := (FileTree.dirPlace?_eq_some_iff.mp h).1
  unfold FileTree.canonical?
  cases hfile : ws.tree.filePlace? p with
  | none =>
    rw [h]
    rfl
  | some place =>
    obtain rfl : place = dir :=
      Except.ok.inj ((FileTree.filePlace?_eq_some_iff.mp hfile).1.symm.trans hlocate)
    rfl

/-- The module that the search from a path upwards finds, with what leads down from it. -/
def module? (ws : Workspace) (p : Path) : Option (String × List Segment) :=
  p.cuts.findSome? fun cut ↦ (ws.moduleAt? cut.1).map fun m ↦ (m, cut.2)

theorem module?_nil : ws.module? (Path.ofNames []) = (ws.moduleAt? (Path.ofNames [])).map (·, []) := by
  have hcuts : (Path.ofNames []).cuts = [(Path.ofNames [], [])] := rfl
  rw [module?, hcuts, List.findSome?_singleton]

/-- The search goes on with the parent directory if there is no module here. -/
theorem module?_concat (dir : Place) (name : String) :
    ws.module? (Path.ofNames (dir ++ [name])) =
      ((ws.moduleAt? (Path.ofNames (dir ++ [name]))).map (·, [])).or
        ((ws.module? (Path.ofNames dir)).map fun found ↦ (found.1, found.2 ++ [.name name])) := by
  have hfound : (ws.module? (Path.ofNames dir)).map (fun found ↦ (found.1, found.2 ++ [.name name])) =
      ((Path.ofNames dir).cuts.map fun cut ↦ (cut.1, cut.2 ++ [.name name])).findSome? fun cut ↦
        (ws.moduleAt? cut.1).map fun m ↦ (m, cut.2) := by
    rw [module?, List.findSome?_map, List.map_findSome?]
    congr 1
    funext cut
    exact Option.map_map _ _ _
  rw [hfound, module?, Path.ofNames_concat, Path.cuts_concat, List.findSome?_cons]
  cases ws.moduleAt? ⟨(Path.ofNames dir).segments ++ [.name name]⟩ <;> rfl

/-- The search ends at the nearest module. -/
theorem module?_of_isNearestModule (hdir : ws.tree.isDir dir = true)
    (h : ws.tree.IsNearestModule dir root names m) :
    ws.module? (Path.ofNames dir) = some (m, names.map .name) := by
  induction names using List.reverseRecOn generalizing dir with
  | nil =>
    obtain rfl : dir = root := by simpa using h.below
    have hown := (moduleAt?_eq_some_iff hdir).mpr h.declares
    rcases List.eq_nil_or_concat dir with rfl | ⟨above, name, rfl⟩
    · rw [module?_nil, hown]
      rfl
    · rw [List.concat_eq_append] at hown ⊢
      rw [module?_concat, hown]
      rfl
  | append_singleton names name ih =>
    obtain rfl : dir = (root ++ names) ++ [name] := by rw [h.below, List.append_assoc]
    have hown : ws.moduleAt? (Path.ofNames (root ++ names ++ [name])) = none := by
      rw [moduleAt?_eq_none_iff hdir, List.append_assoc]
      exact h.nearest (names ++ [name]) [] (List.append_nil _).symm (by simp)
    rw [module?_concat, hown, ih (FileTree.isDir_of_append hdir) h.of_concat, List.map_append]
    rfl

theorem module?_eq_none (hdir : ws.tree.isDir dir = true)
    (h : ∀ root names, dir = root ++ names → ∀ m, ¬ ws.tree.DeclaresModule root m) :
    ws.module? (Path.ofNames dir) = none := by
  induction dir using List.reverseRecOn with
  | nil =>
    rw [module?_nil, (moduleAt?_eq_none_iff hdir).mpr (h [] [] rfl)]
    rfl
  | append_singleton above name ih =>
    have hown : ws.moduleAt? (Path.ofNames (above ++ [name])) = none :=
      (moduleAt?_eq_none_iff hdir).mpr (h _ [] (List.append_nil _).symm)
    rw [module?_concat, hown, ih (FileTree.isDir_of_append hdir)]
    · rfl
    · intro root names heq
      exact h root (names ++ [name]) (by rw [heq, List.append_assoc])

theorem join_cons (m : String) (names : List String) :
    Text.join "/" (m :: names) = names.foldl (fun path name ↦ path ++ "/" ++ name) m := by
  induction names generalizing m with
  | nil => rfl
  | cons name names ih =>
    rw [List.foldl_cons, ← ih]
    rfl

/-- An import path is that of the module with the names below it, or else the name of the directory. -/
theorem importPath_eq (hdir : ws.tree.dirPlace? p = some dir) :
    ws.importPath p = match ws.module? (Path.ofNames dir) with
      | some (m, rest) => Text.join "/" (m :: rest.map Segment.text)
      | none => dir.getLast?.getD "main" := by
  unfold importPath
  rw [canonical?_of_dirPlace? hdir, Option.getD_some, ← Path.fileName?_ofNames]
  rfl

theorem importPath_of_isNearestModule (hdir : ws.tree.dirPlace? p = some dir)
    (h : ws.tree.IsNearestModule dir root names m) :
    ws.importPath p = names.foldl (fun path name ↦ path ++ "/" ++ name) m := by
  have hnames : (names.map Segment.name).map Segment.text = names := by
    rw [List.map_map]
    exact List.map_id names
  rw [importPath_eq hdir, module?_of_isNearestModule (FileTree.dirPlace?_eq_some_iff.mp hdir).2 h]
  dsimp only
  rw [hnames, join_cons]

/-- The import path of a directory depends on the nearest module at or above it alone: it is the module
path with the names that lead down from there, and it goes on below the directory by names that declare no
module. Other trees with the same nearest declaration give the same path. Where no directory at or above it
declares a module, the import path is the last name. -/
theorem importPath_follows_nearest_module (hdir : ws.tree.dirPlace? p = some dir) :
    ((∃ root names, dir = root ++ names ∧ ∃ m, ws.tree.DeclaresModule root m) →
      ∃ root names m, ws.tree.IsNearestModule dir root names m) ∧
    (∀ root names m, ws.tree.IsNearestModule dir root names m →
      ws.importPath p = names.foldl (fun path name ↦ path ++ "/" ++ name) m ∧
      (∀ (ws' : Workspace) (p' : Path), ws'.tree.dirPlace? p' = some dir →
          ws'.tree.IsNearestModule dir root names m → ws'.importPath p' = ws.importPath p) ∧
      ∀ c p', ws.tree.dirPlace? p' = some (dir ++ [c]) →
        (∀ m', ¬ ws.tree.DeclaresModule (dir ++ [c]) m') →
        ws.importPath p' = ws.importPath p ++ "/" ++ c) ∧
    ((∀ root names, dir = root ++ names → ∀ m, ¬ ws.tree.DeclaresModule root m) →
      ws.importPath p = dir.getLast?.getD "main") := by
  refine ⟨?_, fun root names m h ↦ ?_, fun hnone ↦ ?_⟩
  · rintro ⟨root, names, rfl, m, hm⟩
    exact hm.exists_isNearestModule names
  · have hpath := importPath_of_isNearestModule hdir h
    refine ⟨hpath, ?_, ?_⟩
    · intro ws' p' hdir' h'
      rw [importPath_of_isNearestModule hdir' h', hpath]
    · intro c p' hdir' hc
      rw [importPath_of_isNearestModule hdir' (h.concat hc), List.foldl_concat, hpath]
  · rw [importPath_eq hdir, module?_eq_none (FileTree.dirPlace?_eq_some_iff.mp hdir).2 hnone]

/-- A module file without a directive is passed by on the way up. -/
theorem importPath_follows_nearest_module_skipped_file :
    let ws : Workspace :=
      ⟨⟨[(["r", "go.mod"], "\n module \x22example.com/app\x22\nmodule other\n".toUTF8),
          (["r", "sub", "go.mod"], "go 1.22\n".toUTF8),
          (["r", "sub", "pkg", "a.go"], "package pkg\n".toUTF8)], []⟩, Path.ofNames ["r"]⟩
    let p := ws.resolve "sub/../sub"
    ws.tree.dirPlace? p = some ["r", "sub"] ∧
      ws.tree.IsNearestModule ["r", "sub"] ["r"] ["sub"] "example.com/app" ∧
      ws.importPath p = "example.com/app/sub" ∧
      ws.importPath (p.append [.name "pkg"]) = "example.com/app/sub/pkg" ∧
      ws.tree.dirPlace? ⟨[]⟩ = some [] ∧ ws.importPath ⟨[]⟩ = "main" := by
  intro ws p
  have hdir : ws.tree.dirPlace? p = some ["r", "sub"] := by decide +kernel
  have hroot : ws.tree.dirPlace? ⟨[]⟩ = some [] := by decide +kernel
  have hpkg : ws.tree.dirPlace? (p.append [.name "pkg"]) = some ["r", "sub", "pkg"] := by decide +kernel
  have hnone {place : Place} (hplace : ws.tree.isDir place = true)
      (h : ws.moduleAt? (Path.ofNames place) = none) : ∀ m, ¬ ws.tree.DeclaresModule place m :=
    (moduleAt?_eq_none_iff hplace).mp h
  have hnearest : ws.tree.IsNearestModule ["r", "sub"] ["r"] ["sub"] "example.com/app" := by
    have hdeclares : ws.tree.DeclaresModule ["r"] "example.com/app" :=
      (moduleAt?_eq_some_iff (by decide +kernel)).mp (by decide +kernel)
    have hsub : ∀ m, ¬ ws.tree.DeclaresModule (["r"] ++ ["sub"]) m :=
      hnone (by decide +kernel) (by decide +kernel)
    exact hdeclares.isNearestModule.concat hsub
  obtain ⟨hpath, -, hbelow⟩ := (importPath_follows_nearest_module hdir).2.1 _ _ _ hnearest
  refine ⟨hdir, hnearest, hpath, ?_, hroot, ?_⟩
  · rw [hbelow "pkg" _ hpkg (hnone (by decide +kernel) (by decide +kernel)), hpath]
    rfl
  · apply (importPath_follows_nearest_module hroot).2.2
    intro root names heq
    rw [(List.append_eq_nil_iff.mp heq.symm).1]
    exact hnone (by decide +kernel) (by decide +kernel)

end Workspace

end GoComplexity
