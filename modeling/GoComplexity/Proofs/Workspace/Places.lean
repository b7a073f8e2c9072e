import GoComplexity.Proofs.Workspace.Spelling

/-!
# Where paths lead

In a file tree no two files share a place, no file is a directory, and entries have names. Every
pattern is expanded to paths that continue the path of its root by names, and at each of them there is
a file. Names lead down one by one, so continuing a path by different names leads to different places.
-/

namespace GoComplexity

theorem bind_eq_ok_iff {ε α β : Type} {x : Except ε α} {f : α → Except ε β} {b : β} :
    x >>= f = .ok b ↔ ∃ a, x = .ok a ∧ f a = .ok b := by
  cases x <;> simp [bind, Except.bind]

namespace FileTree

variable {t : FileTree}

/-! ## Files and directories -/

/-- What is left of a place below a directory. -/
theorem below?_eq_some_iff {dir place rest : Place} :
    below? dir place = some rest ↔ place = dir ++ rest := by
  fun_induction below? dir place with
  | case1 place => simp
  | case2 d dir => simp
  | case3 dir p place ih => simpa using ih
  | case4 d dir p place hne => simp [Ne.symm hne]

theorem under?_eq_some_iff {dir place names : Place} :
    under? dir place = some names ↔ place = dir ++ names ∧ names ≠ [] := by
  rw [← below?_eq_some_iff]
  unfold under?
  split
  next name rest hbelow =>
    rw [hbelow, Option.some.injEq]
    exact ⟨fun h ↦ ⟨h, h ▸ List.cons_ne_nil name rest⟩, And.left⟩
  next hbelow =>
    refine iff_of_false (by rintro ⟨⟩) ?_
    rintro ⟨hsome, hne⟩
    obtain ⟨name, rest, rfl⟩ := List.exists_cons_of_ne_nil hne
    exact hbelow name rest hsome

theorem isFile_iff {place : Place} : t.isFile place = true ↔ place ∈ t.files.map Prod.fst := by
  unfold isFile
  simp

/-- Directories are the given ones and all places above a directory or file. -/
theorem isDir_iff {place : Place} :
    t.isDir place = true ↔ place = [] ∨ (∃ d ∈ t.dirs, ∃ rest, d = place ++ rest) ∨
      ∃ file ∈ t.files.map Prod.fst, ∃ rest, file = place ++ rest ∧ rest ≠ [] := by
  unfold isDir
  rw [Bool.or_eq_true, Bool.or_eq_true, List.isEmpty_iff, List.any_eq_true, List.any_eq_true, or_assoc]
  simp only [Option.isSome_iff_exists, below?_eq_some_iff, under?_eq_some_iff, List.mem_map,
    exists_exists_and_eq_and]

theorem isDir_of_append {place rest : Place} (h : t.isDir (place ++ rest) = true) :
    t.isDir place = true := by
  rw [isDir_iff] at h ⊢
  rcases h with hnil | ⟨d, hd, rest', rfl⟩ | ⟨file, hfile, rest', rfl, hne⟩
  · exact Or.inl (List.append_eq_nil_iff.mp hnil).1
  · exact Or.inr (Or.inl ⟨_, hd, rest ++ rest', List.append_assoc _ _ _⟩)
  · refine Or.inr (Or.inr ⟨_, hfile, rest ++ rest', List.append_assoc _ _ _, ?_⟩)
    exact List.append_ne_nil_of_right_ne_nil rest hne

theorem isDir_of_isFile_append {place rest : Place} (h : t.isFile (place ++ rest) = true)
    (hne : rest ≠ []) : t.isDir place = true :=
  isDir_iff.mpr (Or.inr (Or.inr ⟨_, isFile_iff.mp h, rest, rfl, hne⟩))

/-- What a list of files and directories has to satisfy to be a file tree. -/
structure WellFormed (t : FileTree) : Prop where
  distinct : (t.files.map Prod.fst).Nodup
  apart : ∀ place ∈ t.files.map Prod.fst, t.isDir place = false
  names : ∀ place ∈ t.files.map Prod.fst ++ t.dirs, ∀ name ∈ place, IsEntryName name

/-- No file is a directory. -/
theorem WellFormed.not_isDir (ht : t.WellFormed) {place : Place} (h : t.isFile place = true) :
    t.isDir place ≠ true := by
  rw [ht.apart place (isFile_iff.mp h)]
  exact Bool.false_ne_true

theorem WellFormed.isEntryName (ht : t.WellFormed) {place : Place}
    (h : t.isFile place = true ∨ t.isDir place = true) : ∀ name ∈ place, IsEntryName name := by
  intro name hname
  rcases h with hfile | hdir
  · exact ht.names place (List.mem_append_left _ (isFile_iff.mp hfile)) name hname
  · rcases isDir_iff.mp hdir with rfl | ⟨d, hd, rest, rfl⟩ | ⟨file, hfile, rest, rfl, -⟩
    · simp at hname
    · exact ht.names _ (List.mem_append_right _ hd) name (List.mem_append_left rest hname)
    · exact ht.names _ (List.mem_append_left _ hfile) name (List.mem_append_left rest hname)

/-! ## Following a path -/

/-- A step leads up or down, and only from a directory. -/
theorem step_eq_ok_iff {here place : Place} {s : Segment} :
    t.step here s = .ok place ↔ t.isDir here = true ∧
      place = match s with
        | .up => here.dropLast
        | .name text => here ++ [text] := by
  unfold step
  split_ifs with hdir hfile
  · cases s <;> simp [hdir, eq_comm]
  · simp [hdir]
  · simp [hdir]

theorem locate_append (segments segments' : List Segment) :
    t.locate ⟨segments ++ segments'⟩ = t.locate ⟨segments⟩ >>= (segments'.foldlM t.step ·) :=
  List.foldlM_append

/-- A path is followed to its last segment, and from there one step. -/
theorem locate_concat_eq_ok_iff {segments : List Segment} {s : Segment} {place : Place} :
    t.locate ⟨segments ++ [s]⟩ = .ok place ↔
      ∃ here, t.locate ⟨segments⟩ = .ok here ∧ t.step here s = .ok place := by
  rw [locate_append, bind_eq_ok_iff]
  have hlast (here : Place) : [s].foldlM t.step here = t.step here s := bind_pure _
  simp only [hlast]

/-- A path that leads to something has proper names only. -/
theorem WellFormed.proper (ht : t.WellFormed) {p : Path} {place : Place} (h : t.locate p = .ok place)
    (hplace : t.isFile place = true ∨ t.isDir place = true) : p.Proper := by
  obtain ⟨segments⟩ := p
  induction segments using List.reverseRecOn generalizing place with
  | nil =>
    intro name hname
    simp at hname
  | append_singleton segments s ih =>
    obtain ⟨here, hhere, hstep⟩ := locate_concat_eq_ok_iff.mp h
    obtain ⟨hdir, hsegment⟩ := step_eq_ok_iff.mp hstep
    intro name hname
    rcases List.mem_append.mp hname with hname | hname
    · exact ih (Or.inr hdir) hhere name hname
    · obtain rfl := List.mem_singleton.mp hname
      apply ht.isEntryName hplace
      rw [hsegment]
      exact List.mem_append_right _ (List.mem_singleton.mpr rfl)

/-- Names lead down, one by one. -/
theorem eq_append_of_foldlM_step {here place : Place} {names : List String}
    (h : (names.map Segment.name).foldlM t.step here = .ok place) : place = here ++ names := by
  induction names generalizing here with
  | nil =>
    obtain rfl : here = place := Except.ok.inj h
    rw [List.append_nil]
  | cons name rest ih =>
    rw [List.map_cons, List.foldlM_cons, bind_eq_ok_iff] at h
    obtain ⟨next, hstep, hrest⟩ := h
    rw [ih hrest, (step_eq_ok_iff.mp hstep).2, List.append_assoc]
    rfl

theorem foldlM_step_of_isFile {here : Place} {names : List String}
    (h : t.isFile (here ++ names) = true) :
    (names.map Segment.name).foldlM t.step here = .ok (here ++ names) := by
  induction names generalizing here with
  | nil =>
    rw [List.append_nil]
    rfl
  | cons name rest ih =>
    have hdir : t.isDir here = true := isDir_of_isFile_append h (List.cons_ne_nil _ _)
    have hstep : t.step here (.name name) = .ok (here ++ [name]) := step_eq_ok_iff.mpr ⟨hdir, rfl⟩
    have hmove : here ++ name :: rest = (here ++ [name]) ++ rest := by simp
    rw [hmove] at h ⊢
    rw [List.map_cons, List.foldlM_cons, hstep]
    exact ih h

theorem foldlM_step_of_isDir {here : Place} {names : List String}
    (h : t.isDir (here ++ names) = true) :
    (names.map Segment.name).foldlM t.step here = .ok (here ++ names) := by
  induction names generalizing here with
  | nil =>
    rw [List.append_nil]
    rfl
  | cons name rest ih =>
    have hstep : t.step here (.name name) = .ok (here ++ [name]) :=
      step_eq_ok_iff.mpr ⟨isDir_of_append h, rfl⟩
    have hmove : here ++ name :: rest = (here ++ [name]) ++ rest := by simp
    rw [hmove] at h ⊢
    rw [List.map_cons, List.foldlM_cons, hstep]
    exact ih h

/-- Where a path continued by names leads. -/
theorem exists_of_locate_append_names {segments : List Segment} {names : List String} {place : Place}
    (h : t.locate ⟨segments ++ names.map .name⟩ = .ok place) :
    ∃ here, t.locate ⟨segments⟩ = .ok here ∧ place = here ++ names := by
  rw [locate_append, bind_eq_ok_iff] at h
  obtain ⟨here, hhere, hnames⟩ := h
  exact ⟨here, hhere, eq_append_of_foldlM_step hnames⟩

theorem filePlace?_eq_some_iff {p : Path} {place : Place} :
    t.filePlace? p = some place ↔ t.locate p = .ok place ∧ t.isFile place = true := by
  unfold filePlace?
  cases t.locate p with
  | error e => simp [Except.toOption]
  | ok here =>
    simp only [Except.toOption, Option.filter_eq_some_iff, Option.some.injEq, Except.ok.injEq]

theorem dirPlace?_eq_some_iff {p : Path} {place : Place} :
    t.dirPlace? p = some place ↔ t.locate p = .ok place ∧ t.isDir place = true := by
  unfold dirPlace?
  cases t.locate p with
  | error e => simp [Except.toOption]
  | ok here =>
    simp only [Except.toOption, Option.filter_eq_some_iff, Option.some.injEq, Except.ok.injEq]

/-- The directories below a directory are reached by their names. -/
theorem dirPlace?_append_names {root : Path} {dir : Place} (hdir : t.dirPlace? root = some dir)
    {names : List String} (h : t.isDir (dir ++ names) = true) :
    t.dirPlace? (root.append (names.map .name)) = some (dir ++ names) := by
  refine dirPlace?_eq_some_iff.mpr ⟨?_, h⟩
  unfold Path.append
  rw [locate_append, (dirPlace?_eq_some_iff.mp hdir).1]
  exact foldlM_step_of_isDir h

theorem WellFormed.proper_of_filePlace? (ht : t.WellFormed) {p : Path} {place : Place}
    (h : t.filePlace? p = some place) : p.Proper := by
  obtain ⟨hlocate, hfile⟩ := filePlace?_eq_some_iff.mp h
  exact ht.proper hlocate (Or.inl hfile)

/-- The path of a file ends with a name: after a step up there is a directory. -/
theorem WellFormed.exists_concat_of_filePlace? (ht : t.WellFormed) {p : Path} {place : Place}
    (h : t.filePlace? p = some place) : ∃ dir name, p.segments = dir ++ [.name name] := by
  obtain ⟨segments⟩ := p
  obtain ⟨hlocate, hfile⟩ := filePlace?_eq_some_iff.mp h
  rcases List.eq_nil_or_concat segments with rfl | ⟨dir, last, rfl⟩
  · obtain rfl : [] = place := Except.ok.inj hlocate
    exact absurd rfl (ht.not_isDir hfile)
  · rw [List.concat_eq_append] at hlocate ⊢
    obtain ⟨here, -, hstep⟩ := locate_concat_eq_ok_iff.mp hlocate
    obtain ⟨hdir, hplace⟩ := step_eq_ok_iff.mp hstep
    cases last with
    | name text => exact ⟨dir, text, rfl⟩
    | up =>
      refine absurd ?_ (ht.not_isDir hfile)
      rw [hplace]
      rcases List.eq_nil_or_concat here with rfl | ⟨above, name, rfl⟩
      · exact hdir
      · rw [List.concat_eq_append] at hdir
        rw [List.concat_eq_append, List.dropLast_concat]
        exact isDir_of_append hdir

end FileTree

/-! ## Expanding patterns -/

namespace Workspace

variable {ws : Workspace} {s : Selection}

/-- A walk finds files below its root, spelled by the names that lead to them. -/
theorem exists_of_mem_filesIn {root p : Path} {dir : Place} {recursive : Bool}
    (h : p ∈ ws.filesIn s root dir recursive) :
    ∃ names, ws.tree.isFile (dir ++ names) = true ∧ p = root.append (names.map .name) := by
  unfold filesIn at h
  obtain ⟨names, hnames, rfl⟩ := List.mem_map.mp (List.mem_filter.mp h).1
  obtain ⟨file, hfile, hunder⟩ := List.mem_filterMap.mp (List.mem_filter.mp hnames).1
  rw [FileTree.under?_eq_some_iff] at hunder
  refine ⟨names, FileTree.isFile_iff.mpr ?_, rfl⟩
  rw [← hunder.1]
  exact List.mem_map_of_mem hfile

/-- A pattern names files, by paths that continue its own path by names. -/
theorem exists_of_mem_expand? {text : String} {paths : List Path} {p : Path}
    (h : ws.expand? s text = some paths) (hp : p ∈ paths) :
    ∃ (names : List String) (place : Place),
      p = (ws.resolve (FilePattern.ofText text).root).append (names.map .name) ∧
        ws.tree.filePlace? p = some place := by
  unfold expand? at h
  dsimp only at h
  split_ifs at h with hfile
  · obtain rfl := Option.some.inj h
    obtain rfl := List.mem_singleton.mp hp
    obtain ⟨place, hplace⟩ := Option.isSome_iff_exists.mp hfile
    exact ⟨[], place, by simp [Path.append], hplace⟩
  · obtain ⟨dir, hdir, rfl⟩ := Option.map_eq_some_iff.mp h
    obtain ⟨names, hnames, rfl⟩ := exists_of_mem_filesIn hp
    obtain ⟨hlocate, -⟩ := FileTree.dirPlace?_eq_some_iff.mp hdir
    refine ⟨names, dir ++ names, rfl, FileTree.filePlace?_eq_some_iff.mpr ⟨?_, hnames⟩⟩
    unfold Path.append
    rw [FileTree.locate_append, hlocate]
    exact FileTree.foldlM_step_of_isFile hnames

/-- A file tree and a directory of it. -/
structure WellFormed (ws : Workspace) : Prop where
  tree : ws.tree.WellFormed
  base : (ws.tree.dirPlace? ws.base).isSome = true

theorem WellFormed.base_ne (hws : ws.WellFormed) {p : Path} {place : Place}
    (h : ws.tree.filePlace? p = some place) : ws.base ≠ p := by
  rintro rfl
  obtain ⟨dir, hdir⟩ := Option.isSome_iff_exists.mp hws.base
  obtain ⟨hlocate, hisDir⟩ := FileTree.dirPlace?_eq_some_iff.mp hdir
  obtain ⟨hlocate', hisFile⟩ := FileTree.filePlace?_eq_some_iff.mp h
  obtain rfl : dir = place := Except.ok.inj (hlocate.symm.trans hlocate')
  exact hws.tree.not_isDir hisFile hisDir

/-- In one directory, what is shown for the files goes by the order of their paths. -/
theorem WellFormed.relative_lt (hws : ws.WellFormed) {p q : Path}
    (hp : (ws.tree.filePlace? p).isSome = true) (hq : (ws.tree.filePlace? q).isSome = true)
    (hdir : p.parent = q.parent) (hlt : p.key < q.key) : ws.relative p < ws.relative q := by
  obtain ⟨placep, hplacep⟩ := Option.isSome_iff_exists.mp hp
  obtain ⟨placeq, hplaceq⟩ := Option.isSome_iff_exists.mp hq
  have hbasep := hws.base_ne hplacep
  have hbaseq := hws.base_ne hplaceq
  obtain ⟨dir, name, hpath⟩ := hws.tree.exists_concat_of_filePlace? hplacep
  obtain ⟨dir', name', hpath'⟩ := hws.tree.exists_concat_of_filePlace? hplaceq
  obtain ⟨segments⟩ := p
  obtain ⟨segments'⟩ := q
  obtain rfl : segments = dir ++ [.name name] := hpath
  obtain rfl : segments' = dir' ++ [.name name'] := hpath'
  obtain rfl : dir = dir' := by
    have hsame := congrArg Path.segments hdir
    simpa [Path.parent] using hsame
  obtain ⟨lead, hlead⟩ := ws.exists_lead_relative dir
  have hname : name < name' := (Path.strictMono_key_concat dir).lt_iff_lt.mp hlt
  rw [String.lt_iff_toList_lt, hlead name fun h ↦ hbasep (congrArg Path.mk h),
    hlead name' fun h ↦ hbaseq (congrArg Path.mk h)]
  exact List.append_left_lt (String.lt_iff_toList_lt.mp hname)

end Workspace

end GoComplexity
