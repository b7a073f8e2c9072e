import GoComplexity.Proofs.Workspace.Places

/-!
# Recursive patterns

A recursive pattern takes what the patterns of its directory and of the directories below it take, as
far as they are entered. The names on the way down decide what is entered and the last name what is
taken; the name of the directory that the pattern starts from does not matter. A directory whose name
ends in three dots cannot be named by its path alone, which would be a recursive pattern itself; with a
slash at its end the path names the directory.
-/

namespace GoComplexity

theorem Text.before?_eq_some_iff {tail text front : List Char} :
    before? tail text = some front ↔ text = front ++ tail := by
  unfold before?
  simp only [Option.map_eq_some_iff, after?_eq_some_iff]
  constructor
  · rintro ⟨rest, hrest, rfl⟩
    rw [← List.reverse_reverse text, hrest, List.reverse_append, List.reverse_reverse]
  · rintro rfl
    exact ⟨front.reverse, List.reverse_append, List.reverse_reverse front⟩

/-! ## Names -/

namespace Selection

variable {s : Selection}

/-- Whether a name starts with a dot or an underscore. -/
def Hidden (name : String) : Prop := ['.'] <+: name.toList ∨ ['_'] <+: name.toList

/-- Whether a recursive pattern goes into directories of the name. -/
def Enters (name : String) : Prop := ¬ Hidden name ∧ name ≠ "testdata" ∧ name ≠ "vendor"

/-- Whether files of the name are taken from a directory. -/
structure Accepts (s : Selection) (name : String) : Prop where
  source : ".go".toList <:+ name.toList
  visible : ¬ Hidden name
  tested : s.tests = false → ¬ "_test.go".toList <:+ name.toList

theorem startsHidden_iff {name : String} : startsHidden name = true ↔ Hidden name := by
  unfold startsHidden Hidden
  cases name.toList with
  | nil => simp
  | cons c rest =>
    simp only [List.head?_cons, Bool.or_eq_true, beq_iff_eq, List.cons_prefix_cons, List.nil_prefix,
      and_true]
    rw [eq_comm, eq_comm (a := c)]

theorem ignoresDir_eq_false_iff {name : String} : ignoresDir name = false ↔ Enters name := by
  unfold ignoresDir Enters
  rw [← startsHidden_iff]
  simp [and_assoc]

theorem hasEnding_iff {name ending : String} :
    hasEnding name ending = true ↔ ending.toList <:+ name.toList := by
  unfold hasEnding
  rw [Option.isSome_iff_exists]
  exact exists_congr fun front ↦ Text.before?_eq_some_iff.trans eq_comm

/-- Which files a walk takes, said without computing. -/
theorem takesName_iff {name : String} : s.takesName name = true ↔ s.Accepts name := by
  unfold takesName
  rw [Bool.and_eq_true, Bool.and_eq_true, Bool.or_eq_true, Bool.not_eq_true', Bool.not_eq_true',
    ← Bool.not_eq_true, ← Bool.not_eq_true, startsHidden_iff, hasEnding_iff, hasEnding_iff]
  constructor
  · rintro ⟨⟨hvisible, hsource⟩, htested⟩
    refine ⟨hsource, hvisible, fun htests ↦ htested.resolve_left ?_⟩
    rw [htests]
    exact Bool.false_ne_true
  · intro h
    refine ⟨⟨h.visible, h.source⟩, ?_⟩
    cases htests : s.tests with
    | true => exact Or.inl rfl
    | false => exact Or.inr (h.tested htests)

/-- A walk takes a file exactly if it enters all directories on the way and accepts the name. -/
theorem takes_concat_iff {dirs : List String} {name : String} :
    s.takes (dirs ++ [name]) = true ↔ (∀ dir ∈ dirs, Enters dir) ∧ s.Accepts name := by
  unfold takes
  rw [List.dropLast_concat, List.getLast?_concat, Bool.and_eq_true, List.all_eq_true]
  simp only [Bool.not_eq_true', ignoresDir_eq_false_iff, Option.any_some, takesName_iff]

end Selection

open Selection

/-! ## Files below a directory -/

namespace Workspace

variable {ws : Workspace} {s : Selection}

/-- Whether a file is taken that the names `dirs` and then `name` lead to from `dir`, a directory with
the path `root`. -/
structure Takes (ws : Workspace) (s : Selection) (root : Path) (dir dirs : Place) (name : String) :
    Prop where
  file : ws.tree.isFile (dir ++ dirs ++ [name]) = true
  entered : ∀ name ∈ dirs, Enters name
  accepted : s.Accepts name
  kept : ∀ pattern ∈ s.excluded,
    pattern.covers (ws.relative (root.append ((dirs ++ [name]).map .name))) = false

/-- The files below a directory are listed with the names that lead to them. -/
theorem mem_filesBelow_iff {dir names : Place} :
    names ∈ ws.tree.filesBelow dir ↔ ws.tree.isFile (dir ++ names) = true ∧ names ≠ [] := by
  unfold FileTree.filesBelow
  simp only [List.mem_filterMap, FileTree.under?_eq_some_iff, FileTree.isFile_iff, List.mem_map]
  constructor
  · rintro ⟨file, hfile, hplace, hne⟩
    exact ⟨⟨file, hfile, hplace⟩, hne⟩
  · rintro ⟨⟨file, hfile, hplace⟩, hne⟩
    exact ⟨file, hfile, hplace, hne⟩

/-- A walk finds exactly the files it takes, right in the root or, if it is recursive, below. -/
theorem mem_filesIn_iff {root p : Path} {dir : Place} {recursive : Bool} :
    p ∈ ws.filesIn s root dir recursive ↔ ∃ dirs name,
      p = root.append ((dirs ++ [name]).map .name) ∧ ws.Takes s root dir dirs name ∧
        (recursive = true ∨ dirs = []) := by
  unfold filesIn
  simp only [List.mem_filter, List.mem_map, mem_filesBelow_iff, Bool.and_eq_true, Bool.or_eq_true,
    beq_iff_eq, Bool.not_eq_true']
  constructor
  · rintro ⟨⟨names, ⟨⟨hfile, hne⟩, hdepth, htakes⟩, rfl⟩, hkept⟩
    obtain ⟨dirs, name, rfl⟩ := (List.eq_nil_or_concat' names).resolve_left hne
    obtain ⟨hentered, haccepted⟩ := takes_concat_iff.mp htakes
    rw [← List.append_assoc] at hfile
    refine ⟨dirs, name, rfl, ⟨hfile, hentered, haccepted, ?_⟩, hdepth.imp_right fun hlength ↦ ?_⟩
    · simpa [Glob.PatternSet.covers] using hkept
    · simpa using hlength
  · rintro ⟨dirs, name, rfl, htakes, hdepth⟩
    refine ⟨⟨dirs ++ [name], ⟨⟨?_, by simp⟩, ?_, ?_⟩, rfl⟩, ?_⟩
    · rw [← List.append_assoc]
      exact htakes.file
    · exact hdepth.imp_right fun hnil ↦ by simp [hnil]
    · exact takes_concat_iff.mpr ⟨htakes.entered, htakes.accepted⟩
    · simpa [Glob.PatternSet.covers] using htakes.kept


theorem Takes.append {root : Path} {dir dirs : Place} {name : String}
    (hentered : ∀ name ∈ dirs, Enters name)
    (h : ws.Takes s (root.append (dirs.map .name)) (dir ++ dirs) [] name) :
    ws.Takes s root dir dirs name where
  file := by simpa using h.file
  entered := hentered
  accepted := h.accepted
  kept := by simpa [Path.append] using h.kept

theorem Takes.last {root : Path} {dir dirs : Place} {name : String}
    (h : ws.Takes s root dir dirs name) :
    ws.Takes s (root.append (dirs.map .name)) (dir ++ dirs) [] name where
  file := by simpa using h.file
  entered := List.forall_mem_nil _
  accepted := h.accepted
  kept := by simpa [Path.append] using h.kept

/-- What is below a directory is what is directly in the directories that are entered from it. -/
theorem mem_filesIn_true_iff {root p : Path} {dir : Place} :
    p ∈ ws.filesIn s root dir true ↔ ∃ dirs, ws.tree.isDir (dir ++ dirs) = true ∧
      (∀ name ∈ dirs, Enters name) ∧
      p ∈ ws.filesIn s (root.append (dirs.map .name)) (dir ++ dirs) false := by
  constructor
  · intro hp
    obtain ⟨dirs, name, rfl, htakes, -⟩ := mem_filesIn_iff.mp hp
    have hdir := FileTree.isDir_of_isFile_append htakes.file (List.cons_ne_nil name [])
    refine ⟨dirs, hdir, htakes.entered, mem_filesIn_iff.mpr ⟨[], name, ?_, htakes.last, Or.inr rfl⟩⟩
    simp [Path.append]
  · rintro ⟨dirs, -, hentered, hp⟩
    obtain ⟨below, name, rfl, htakes, hdepth⟩ := mem_filesIn_iff.mp hp
    obtain rfl : below = [] := hdepth.resolve_left Bool.false_ne_true
    refine mem_filesIn_iff.mpr ⟨dirs, name, ?_, htakes.append hentered, Or.inl rfl⟩
    simp [Path.append]

end Workspace

/-! ## Patterns as texts -/

namespace Path

theorem parts_append_slash (text rest : String) :
    parts (text ++ "/" ++ rest) = parts text ++ parts rest := by
  have hchars : (text ++ "/" ++ rest).toList = text.toList ++ '/' :: rest.toList := by simp
  have hsplit : (text.toList ++ '/' :: rest.toList).splitOn '/' =
      text.toList.splitOn '/' ++ rest.toList.splitOn '/' :=
    List.splitOnP_append_cons _ _ (beq_self_eq_true '/')
  unfold parts
  rw [hchars, Text.split_eq_splitOn, Text.split_eq_splitOn, Text.split_eq_splitOn, hsplit,
    List.filterMap_append]

/-- A text continued behind a slash leads on from where it leads. -/
theorem resolve_append_slash (base : Path) {text : String} (hne : text ≠ "") (rest : String) :
    base.resolve (text ++ "/" ++ rest) = (base.resolve text).append (parts rest) := by
  have hlist : text.toList ≠ [] := fun h ↦ hne (String.toList_inj.mp h)
  have hhead : isAbsolute (text ++ "/" ++ rest) = isAbsolute text := by
    unfold isAbsolute
    rw [String.toList_append, String.toList_append, List.append_assoc, List.head?_append_of_ne_nil _ hlist]
  unfold resolve
  rw [hhead, parts_append_slash]
  split_ifs <;> simp [append]

theorem resolve_slash (base : Path) {text : String} (hne : text ≠ "") :
    base.resolve (text ++ "/") = base.resolve text := by
  have h := base.resolve_append_slash hne ""
  rw [String.append_empty] at h
  rw [h]
  exact congrArg Path.mk (List.append_nil _)

/-- Slashes at the end of a path lead nowhere else. -/
theorem resolve_append_slashes (base : Path) {text slashes : List Char} (hne : text ≠ [])
    (hslashes : ∀ c ∈ slashes, c = '/') :
    base.resolve (String.ofList (text ++ slashes)) = base.resolve (String.ofList text) := by
  induction slashes generalizing text with
  | nil => rw [List.append_nil]
  | cons c slashes ih =>
    obtain ⟨rfl, hrest⟩ := List.forall_mem_cons.mp hslashes
    have hne' : String.ofList text ≠ "" := fun h ↦ hne (by simpa using congrArg String.toList h)
    calc
      base.resolve (String.ofList (text ++ '/' :: slashes)) =
          base.resolve (String.ofList ((text ++ ['/']) ++ slashes)) := by rw [← List.append_cons]
      _ = base.resolve (String.ofList (text ++ ['/'])) := ih (by simp) hrest
      _ = base.resolve (String.ofList text ++ "/") := by rw [String.ofList_append]
      _ = base.resolve (String.ofList text) := base.resolve_slash hne'

end Path

namespace FilePattern

theorem exists_eq_dropSlashes_append (cs : List Char) :
    ∃ slashes, cs = dropSlashes cs ++ slashes ∧ ∀ c ∈ slashes, c = '/' := by
  refine ⟨(cs.reverse.takeWhile (· == '/')).reverse, ?_, ?_⟩
  · rw [dropSlashes, ← List.reverse_append, List.takeWhile_append_dropWhile, List.reverse_reverse]
  · intro c hc
    have hslash := List.mem_takeWhile_imp (List.mem_reverse.mp hc)
    exact beq_iff_eq.mp hslash

/-- A pattern without dots at its end is a plain one. -/
theorem ofText_plain {text : String} (h : ¬ "...".toList <:+ text.toList) :
    ofText text = ⟨text, false⟩ := by
  have hnone : Text.before? "...".toList text.toList = none := by
    rw [Option.eq_none_iff_forall_ne_some]
    intro front hfront
    exact h ⟨front, (Text.before?_eq_some_iff.mp hfront).symm⟩
  rw [ofText, hnone]

/-- The root of a recursive pattern leads to the directory that it is made for. -/
theorem ofText_recursive {p : String} (h : ∃ c ∈ p.toList, c ≠ '/') :
    ∃ root, ofText (p ++ "/...") = ⟨root, true⟩ ∧ ∀ base : Path, base.resolve root = base.resolve p := by
  have hlead : Text.before? "...".toList (p ++ "/...").toList = some (p.toList ++ ['/']) := by
    rw [Text.before?_eq_some_iff, String.toList_append, List.append_assoc]
    rfl
  obtain ⟨slashes, hsplit, hslashes⟩ := exists_eq_dropSlashes_append (p.toList ++ ['/'])
  have hne : dropSlashes (p.toList ++ ['/']) ≠ [] := by
    intro hnil
    obtain ⟨c, hc, hslash⟩ := h
    rw [hnil, List.nil_append] at hsplit
    exact hslash (hslashes c (hsplit ▸ List.mem_append_left _ hc))
  refine ⟨String.ofList (dropSlashes (p.toList ++ ['/'])), ?_, fun base ↦ ?_⟩
  · rw [ofText, hlead]
    dsimp only
    rw [if_neg (by simpa using hne)]
  · have hp : p ≠ "" := by
      rintro rfl
      obtain ⟨c, hc, -⟩ := h
      simp at hc
    calc
      base.resolve (String.ofList (dropSlashes (p.toList ++ ['/']))) =
          base.resolve (String.ofList (p.toList ++ ['/'])) := by
        rw [← base.resolve_append_slashes hne hslashes, ← hsplit]
      _ = base.resolve (p ++ "/") := by rw [String.ofList_append, String.ofList_toList]
      _ = base.resolve p := base.resolve_slash hp

/-- The path of a directory below the one that `p` names. -/
def below (p : String) : List String → String
  | [] => p
  | dirs => p ++ "/" ++ Text.join "/" dirs

/-- The pattern that names a directory below the one that `p` names: its path, with a slash at the end
if it would be a recursive pattern otherwise. -/
def directory (p : String) (dirs : List String) : String :=
  if "...".toList <:+ (below p dirs).toList then below p dirs ++ "/" else below p dirs

theorem below_ne_empty {p : String} (hp : p ≠ "") (dirs : List String) : below p dirs ≠ "" := by
  intro hempty
  cases dirs with
  | nil => exact hp hempty
  | cons name rest =>
    have hchars := congrArg String.toList hempty
    simp [below] at hchars

/-- The text of a directory below another is resolved to its path. -/
theorem resolve_below (base : Path) {p : String} (hp : p ≠ "") {dirs : List String}
    (hdirs : ∀ name ∈ dirs, IsEntryName name) :
    base.resolve (below p dirs) = (base.resolve p).append (dirs.map .name) := by
  have hproper : (Path.ofNames dirs).Proper := by
    intro name hname
    obtain ⟨name', hmem, heq⟩ := List.mem_map.mp hname
    obtain rfl := Segment.name.inj heq
    exact hdirs _ hmem
  have hjoined : Path.joined (dirs.map .name) = Text.join "/" dirs := by
    unfold Path.joined
    rw [List.map_map]
    exact congrArg (Text.join "/") (List.map_id dirs)
  cases dirs with
  | nil => exact congrArg Path.mk (List.append_nil _).symm
  | cons name rest =>
    rw [below, base.resolve_append_slash hp, ← hjoined]
    · exact congrArg (Path.append _) hproper.parts_joined
    · exact List.cons_ne_nil _ _

theorem resolve_directory (base : Path) {p : String} (hp : p ≠ "") {dirs : List String}
    (hdirs : ∀ name ∈ dirs, IsEntryName name) :
    base.resolve (directory p dirs) = (base.resolve p).append (dirs.map .name) := by
  unfold directory
  split_ifs
  · rw [base.resolve_slash (below_ne_empty hp dirs), resolve_below base hp hdirs]
  · exact resolve_below base hp hdirs

theorem ofText_directory (p : String) (dirs : List String) :
    ofText (directory p dirs) = ⟨directory p dirs, false⟩ := by
  apply ofText_plain
  unfold directory
  split_ifs with hdots
  · rintro ⟨front, hfront⟩
    have hlast := congrArg List.getLast? hfront
    rw [String.toList_append] at hlast
    simp at hlast
  · exact hdots

end FilePattern

open FilePattern

/-! ## Recursive patterns -/

namespace Workspace

variable {ws : Workspace} {s : Selection}

theorem expand?_of_dirPlace? (ht : ws.tree.WellFormed) {text root : String} {recursive : Bool}
    (htext : ofText text = ⟨root, recursive⟩) {dir : Place}
    (hdir : ws.tree.dirPlace? (ws.resolve root) = some dir) :
    ws.expand? s text = some (ws.filesIn s (ws.resolve root) dir recursive) := by
  have hfile : ¬ (ws.tree.filePlace? (ws.resolve root)).isSome = true := by
    intro hfile
    obtain ⟨place, hplace⟩ := Option.isSome_iff_exists.mp hfile
    obtain ⟨hlocate, hisFile⟩ := FileTree.filePlace?_eq_some_iff.mp hplace
    obtain ⟨hlocate', hisDir⟩ := FileTree.dirPlace?_eq_some_iff.mp hdir
    obtain rfl : place = dir := Except.ok.inj (hlocate.symm.trans hlocate')
    exact ht.not_isDir hisFile hisDir
  unfold expand?
  rw [htext]
  dsimp only
  rw [if_neg hfile, hdir]
  rfl

/-- Whether a file is among those of the directory `dir` or of a directory below it that is entered,
where `pattern` gives the pattern of each. -/
def UnionHas (ws : Workspace) (s : Selection) (pattern : List String → String) (dir : Place)
    (p : Path) : Prop :=
  ∃ dirs, ws.tree.isDir (dir ++ dirs) = true ∧ (∀ name ∈ dirs, Enters name) ∧
    ∃ found, ws.expand? s (pattern dirs) = some found ∧ p ∈ found

/-- The pattern of one directory takes the files right in it. -/
theorem expand?_directory (ht : ws.tree.WellFormed) {p : String} (hp : p ≠ "") {dir dirs : Place}
    (hdir : ws.tree.dirPlace? (ws.resolve p) = some dir) (h : ws.tree.isDir (dir ++ dirs) = true) :
    ws.expand? s (directory p dirs) =
      some (ws.filesIn s ((ws.resolve p).append (dirs.map .name)) (dir ++ dirs) false) := by
  have hnames : ∀ name ∈ dirs, IsEntryName name :=
    fun name hname ↦ ht.isEntryName (Or.inr h) name (List.mem_append_right dir hname)
  have hroot : ws.resolve (directory p dirs) = (ws.resolve p).append (dirs.map .name) :=
    resolve_directory ws.base hp hnames
  rw [← hroot]
  apply expand?_of_dirPlace? ht (ofText_directory p dirs)
  rw [hroot]
  exact FileTree.dirPlace?_append_names hdir h

/-- All directories that a recursive walk enters have together the files that it finds. -/
theorem unionHas_directory_iff (ht : ws.tree.WellFormed) {p : String} (hp : p ≠ "") {dir : Place}
    (hdir : ws.tree.dirPlace? (ws.resolve p) = some dir) {f : Path} :
    ws.UnionHas s (directory p) dir f ↔ f ∈ ws.filesIn s (ws.resolve p) dir true := by
  rw [mem_filesIn_true_iff]
  apply exists_congr
  intro dirs
  apply and_congr_right
  intro h
  rw [expand?_directory ht hp hdir h]
  simp

/-- A recursive pattern takes the files that the patterns of its directory and of the entered directories
below it take. These are the files that names of entered directories and an accepted name lead to and
that no exclusion covers. -/
theorem recursive_pattern_is_union {ws : Workspace} (ht : ws.tree.WellFormed) (s : Selection)
    {p : String} {dir : Place} (hdir : ws.tree.dirPlace? (ws.resolve p) = some dir)
    (hdots : ¬ "...".toList <:+ p.toList) (hslash : ∃ c ∈ p.toList, c ≠ '/') :
    ∃ files, ws.expand? s (p ++ "/...") = some files ∧ directory p [] = p ∧
      (∀ dirs, ws.tree.isDir (dir ++ dirs) = true →
        (ws.expand? s (directory p dirs)).isSome = true) ∧
      (∀ f, f ∈ files ↔ ws.UnionHas s (directory p) dir f) ∧
      ∀ f, f ∈ files ↔ ∃ dirs name, f = (ws.resolve p).append ((dirs ++ [name]).map .name) ∧
        ws.Takes s (ws.resolve p) dir dirs name := by
  have hp : p ≠ "" := by
    rintro rfl
    obtain ⟨c, hc, -⟩ := hslash
    simp at hc
  obtain ⟨root, htext, hroot⟩ := ofText_recursive hslash
  have hresolve : ws.resolve root = ws.resolve p := hroot ws.base
  refine ⟨ws.filesIn s (ws.resolve p) dir true, ?_, if_neg hdots, ?_, ?_, ?_⟩
  · rw [← hresolve]
    apply expand?_of_dirPlace? ht htext
    rw [hresolve]
    exact hdir
  · intro dirs h
    rw [expand?_directory ht hp hdir h]
    rfl
  · intro f
    exact (unionHas_directory_iff ht hp hdir).symm
  · intro f
    rw [mem_filesIn_iff]
    simp

/-- A file in the directory of the pattern and one in a directory of it, beside directories that are not
entered and names that are not accepted. -/
theorem recursive_pattern_is_union_skipped_names :
    let places := [["a.go"], ["a_test.go"], ["x", "b.go"], ["x", "_c.go"], ["x", "vendor", "d.go"],
      ["y...", "e.go"]]
    let ws : Workspace :=
      ⟨⟨places.map fun names ↦ (["w", ".d"] ++ names, ByteArray.empty), []⟩, .ofNames ["w"]⟩
    let files := [["a.go"], ["x", "b.go"], ["y...", "e.go"]].map fun names ↦
      Path.ofNames (["w", ".d"] ++ names)
    ws.tree.WellFormed ∧ ws.expand? ⟨false, []⟩ ".d/..." = some files ∧
      ∀ f, f ∈ files ↔ ws.UnionHas ⟨false, []⟩ (directory ".d") ["w", ".d"] f := by
  intro places ws files
  have htree : ws.tree.WellFormed := by constructor <;> decide +kernel
  have hfiles : ws.expand? ⟨false, []⟩ ".d/..." = some files := by decide +kernel
  have hdir : ws.tree.dirPlace? (ws.resolve ".d") = some ["w", ".d"] := by decide +kernel
  obtain ⟨found, hfound, -, -, hunion, -⟩ := recursive_pattern_is_union htree ⟨false, []⟩ hdir
    (by decide +kernel) ⟨'d', by decide +kernel, by decide⟩
  obtain rfl : found = files := Option.some.inj (hfound.symm.trans hfiles)
  exact ⟨htree, hfiles, hunion⟩

/-- The path of a directory whose name ends in three dots is a recursive pattern for another one, so the
union over the paths lacks its files. -/
theorem recursive_pattern_exceeds_paths :
    let ws : Workspace :=
      ⟨⟨[(["work", "a...", "x.go"], "package p\n".toUTF8)], []⟩, .ofNames ["work"]⟩
    let f := Path.ofNames ["work", "a...", "x.go"]
    ws.tree.WellFormed ∧ ws.tree.dirPlace? (ws.resolve ".") = some ["work"] ∧
      ws.expand? ⟨false, []⟩ "./..." = some [f] ∧ Enters "a..." ∧
      ws.tree.isDir ["work", "a..."] = true ∧ ws.expand? ⟨false, []⟩ "./a..." = none ∧
      ¬ ws.UnionHas ⟨false, []⟩ (below ".") ["work"] f := by
  intro ws f
  refine ⟨by constructor <;> decide +kernel, by decide +kernel, by decide +kernel, ?_, by decide +kernel,
    by decide +kernel, ?_⟩
  · rw [← ignoresDir_eq_false_iff]
    decide +kernel
  · rintro ⟨dirs, hdir, -, found, hfound, hf⟩
    have hdirs : dirs = [] ∨ dirs = ["a..."] := by
      rcases FileTree.isDir_iff.mp hdir with hnil | ⟨d, hd, -⟩ | ⟨file, hfile, rest, hplace, hne⟩
      · exact absurd hnil (List.cons_ne_nil _ _)
      · exact absurd hd List.not_mem_nil
      · have hrest : ["a...", "x.go"] = dirs ++ rest :=
          (List.cons.inj ((List.mem_singleton.mp hfile).symm.trans hplace)).2
        rcases List.append_eq_cons_iff.mp hrest.symm with ⟨hnil, -⟩ | ⟨others, hcons, hothers⟩
        · exact Or.inl hnil
        · rcases List.append_eq_cons_iff.mp hothers.symm with ⟨rfl, -⟩ | ⟨_, -, hlast⟩
          · exact Or.inr hcons
          · exact absurd (List.append_eq_nil_iff.mp hlast.symm).2 hne
    rcases hdirs with rfl | rfl
    · have hempty : ws.expand? ⟨false, []⟩ (below "." []) = some [] := by decide +kernel
      obtain rfl : found = [] := Option.some.inj (hfound.symm.trans hempty)
      simp at hf
    · have hnone : ws.expand? ⟨false, []⟩ (below "." ["a..."]) = none := by decide +kernel
      rw [hnone] at hfound
      cases hfound

end Workspace

end GoComplexity
