import GoComplexity.Proofs.Workspace.Spelling
import GoComplexity.Syntax.Import

/-!
# Names guessed from import paths

The package name of an import path comes from one segment of it, the last one or the one before a major
version, so slashes and a version at its end do not matter. What is left of the segment loses its dots and
hyphens, and a text that has neither and is one segment is its own package name.
-/

namespace GoComplexity.Syntax.ImportPath

open Text

/-! ## Segments -/

theorem segments_append_slash (path rest : List Char) :
    segments (path ++ '/' :: rest) = segments path ++ segments rest := by
  have hsplit : (path ++ '/' :: rest).splitOn '/' = path.splitOn '/' ++ rest.splitOn '/' :=
    List.splitOnP_append_cons _ _ (beq_self_eq_true '/')
  unfold segments
  rw [split_eq_splitOn, split_eq_splitOn, split_eq_splitOn, hsplit, List.filter_append]

/-- A text without slashes is one segment. -/
theorem segments_of_slash_notMem {text : List Char} (hslash : '/' ∉ text) (hne : text ≠ []) :
    segments text = [text] := by
  have hsplit : text.splitOn '/' = [text] := by
    apply List.splitOnP_eq_singleton
    intro c hc
    rw [beq_eq_false_iff_ne]
    rintro rfl
    exact hslash hc
  unfold segments
  rw [split_eq_splitOn, hsplit, List.filter_cons_of_pos (by simpa using hne), List.filter_nil]

theorem segments_cons_slash (path : List Char) : segments ('/' :: path) = segments path :=
  segments_append_slash [] path

theorem segments_cons_ne_nil {c : Char} (hc : c ≠ '/') (path : List Char) :
    segments (c :: path) ≠ [] := by
  unfold segments
  rw [split, if_neg hc]
  split <;> simp

/-- There are no segments only if there is nothing but slashes. -/
theorem segments_eq_nil_iff {path : List Char} : segments path = [] ↔ ∀ c ∈ path, c = '/' := by
  induction path with
  | nil => simp [segments, split]
  | cons c path ih =>
    rw [List.forall_mem_cons]
    by_cases hc : c = '/'
    · rw [hc, segments_cons_slash, ih, and_iff_right rfl]
    · exact iff_of_false (segments_cons_ne_nil hc path) fun h ↦ hc h.1

theorem sep_notMem_of_mem_split {sep : Char} {cs part : List Char} (h : part ∈ split sep cs) :
    sep ∉ part := by
  fun_induction split sep cs generalizing part with
  | case1 => simp_all
  | case2 cs ih =>
    rcases List.mem_cons.mp h with rfl | h
    · exact List.not_mem_nil
    · exact ih h
  | case3 c cs hc hparts ih =>
    rw [List.mem_singleton.mp h, List.mem_singleton]
    exact Ne.symm hc
  | case4 c cs hc first parts hparts ih =>
    rcases List.mem_cons.mp h with rfl | h
    · rw [List.mem_cons, not_or]
      exact ⟨Ne.symm hc, ih (hparts ▸ List.mem_cons_self)⟩
    · exact ih (hparts ▸ List.mem_cons_of_mem first h)

theorem slash_notMem_of_mem_segments {path s : List Char} (h : s ∈ segments path) : '/' ∉ s :=
  sep_notMem_of_mem_split (List.mem_of_mem_filter h)

theorem segments_ne_nil {path : List Char} (h : ∃ c ∈ path, c ≠ '/') : segments path ≠ [] := by
  rw [Ne, segments_eq_nil_iff]
  push Not
  exact h

theorem exists_segments_eq_concat {path : List Char} (h : segments path ≠ []) :
    ∃ front last, segments path = front ++ [last] :=
  ⟨_, _, (List.dropLast_append_getLast h).symm⟩

/-! ## The segment that names the package -/

theorem nameSegment_of_concat {path last : List Char} {front : List (List Char)}
    (h : segments path = front ++ [last]) :
    nameSegment path =
      if isMajorVersion last = true then front.getLast?.getD last else last := by
  unfold nameSegment
  dsimp only
  rw [h, List.getLast?_concat]
  dsimp only
  rcases List.eq_nil_or_concat front with rfl | ⟨rest, before, rfl⟩
  · simp
  · by_cases hversion : isMajorVersion last = true <;> simp [hversion]

theorem nameSegment_eq_self {name : List Char} (h : '/' ∉ name ∨ ∀ c ∈ name, c = '/') :
    nameSegment name = name := by
  by_cases hslashes : ∀ c ∈ name, c = '/'
  · unfold nameSegment
    rw [segments_eq_nil_iff.mpr hslashes]
    rfl
  · have hne : name ≠ [] := by
      rintro rfl
      simp at hslashes
    have hsegments : segments name = [] ++ [name] :=
      segments_of_slash_notMem (h.resolve_right hslashes) hne
    rw [nameSegment_of_concat hsegments]
    exact ite_self name

/-- The segment is one of the path, so it has no slash. -/
theorem slash_notMem_nameSegment {path : List Char} (h : ∃ c ∈ path, c ≠ '/') :
    '/' ∉ nameSegment path := by
  obtain ⟨front, last, hsegments⟩ := exists_segments_eq_concat (segments_ne_nil h)
  have hmem (s : List Char) (hs : s ∈ front ++ [last]) : '/' ∉ s :=
    slash_notMem_of_mem_segments (hsegments ▸ hs)
  have hlast : '/' ∉ last := hmem last (List.mem_append_right _ List.mem_cons_self)
  rw [nameSegment_of_concat hsegments]
  split_ifs
  · cases hfront : front.getLast? with
    | none => exact hlast
    | some before => exact hmem before (List.mem_append_left _ (List.mem_of_getLast? hfront))
  · exact hlast

/-- A slash at the end does not change which segment names the package. -/
theorem nameSegment_append_slash {path : List Char} (h : segments path ≠ []) :
    nameSegment (path ++ ['/']) = nameSegment path := by
  obtain ⟨front, last, hsegments⟩ := exists_segments_eq_concat h
  have hsame : segments (path ++ ['/']) = front ++ [last] := by
    rw [segments_append_slash, hsegments]
    exact List.append_nil _
  rw [nameSegment_of_concat hsegments, nameSegment_of_concat hsame]

/-- A major version at the end is passed over. -/
theorem nameSegment_append_version {path last digits : List Char}
    (h : (segments path).getLast? = some last) (hlast : isMajorVersion last = false)
    (hdigits : digits ≠ []) (hdecimal : digits.all isDigit = true) :
    nameSegment (path ++ '/' :: 'v' :: digits) = nameSegment path := by
  obtain ⟨front, hsegments⟩ := List.getLast?_eq_some_iff.mp h
  have hslash : '/' ∉ 'v' :: digits := by
    rw [List.mem_cons, not_or]
    refine ⟨by decide, fun hmem ↦ ?_⟩
    exact absurd (List.all_eq_true.mp hdecimal '/' hmem) (by decide)
  have hmore : segments (path ++ '/' :: 'v' :: digits) = segments path ++ ['v' :: digits] := by
    rw [segments_append_slash, segments_of_slash_notMem hslash (List.cons_ne_nil _ _)]
  have hversion : isMajorVersion ('v' :: digits) = true := by simp [isMajorVersion, hdigits, hdecimal]
  rw [nameSegment_of_concat hmore, if_pos hversion, h, nameSegment_of_concat hsegments, hlast]
  rfl

/-! ## Shortening the segment -/

/-- A name stays whole, or a dot, a `v` and digits are cut off behind what is left. -/
theorem exists_dropVersion_eq (name : List Char) :
    dropVersion name = name ∨ ∃ digits, name = dropVersion name ++ '.' :: 'v' :: digits := by
  unfold dropVersion
  dsimp only
  split
  next d digits stem hdigits hrest =>
    have hname : name.reverse = d :: digits ++ 'v' :: '.' :: stem := by
      rw [← hdigits, ← hrest, List.takeWhile_append_dropWhile]
    refine Or.inr ⟨(d :: digits).reverse, ?_⟩
    rw [List.reverse_eq_iff.mp hname]
    simp
  · exact Or.inl rfl

theorem dropVersion_prefix_self (name : List Char) : dropVersion name <+: name := by
  rcases exists_dropVersion_eq name with h | ⟨digits, h⟩
  · rw [h]
  · exact ⟨_, h.symm⟩

theorem dropVersion_of_dot_notMem {name : List Char} (h : '.' ∉ name) : dropVersion name = name := by
  rcases exists_dropVersion_eq name with hwhole | ⟨digits, hcut⟩
  · exact hwhole
  · apply absurd _ h
    rw [hcut]
    simp

theorem after?_go_of_hyphen_notMem {name : List Char} (h : '-' ∉ name) :
    after? "go-".toList name = none := by
  rw [Option.eq_none_iff_forall_ne_some]
  intro rest hrest
  apply h
  rw [after?_eq_some_iff.mp hrest]
  simp

theorem identifierChar_ne (c : Char) : identifierChar c ≠ '-' ∧ identifierChar c ≠ '.' := by
  unfold identifierChar
  split_ifs with h
  · decide
  · exact not_or.mp h

theorem eq_slash_of_identifierChar {c : Char} (h : identifierChar c = '/') : c = '/' := by
  unfold identifierChar at h
  split_ifs at h with hc
  · exact absurd h (by decide)
  · exact h

/-! ## Package names -/

/-- What a package name looks like: no hyphen, no dot, and one segment or slashes only. -/
structure IsSettled (name : List Char) : Prop where
  hyphen : '-' ∉ name
  dot : '.' ∉ name
  slash : '/' ∉ name ∨ ∀ c ∈ name, c = '/'

/-- A settled name is its own package name. -/
theorem IsSettled.packageChars_eq {name : List Char} (h : IsSettled name) : packageChars name = name := by
  have hsame : ∀ c ∈ name, identifierChar c = c := by
    intro c hc
    apply if_neg
    rintro (rfl | rfl)
    · exact h.hyphen hc
    · exact h.dot hc
  unfold packageChars
  dsimp only
  rw [nameSegment_eq_self h.slash, dropVersion_of_dot_notMem h.dot, after?_go_of_hyphen_notMem h.hyphen,
    Option.getD_none]
  exact (List.map_congr_left hsame).trans (List.map_id name)

/-- Whatever the segment is, its characters come from it. -/
theorem exists_of_mem_packageChars {path : List Char} {c : Char} (h : c ∈ packageChars path) :
    ∃ d ∈ nameSegment path, c = identifierChar d := by
  obtain ⟨d, hd, rfl⟩ := List.mem_map.mp h
  refine ⟨d, (dropVersion_prefix_self _).subset ?_, rfl⟩
  cases hgo : after? "go-".toList (dropVersion (nameSegment path)) with
  | none => rwa [hgo] at hd
  | some rest =>
    rw [hgo, Option.getD_some] at hd
    rw [after?_eq_some_iff.mp hgo]
    exact List.mem_append_right _ hd

theorem slash_notMem_packageChars {path : List Char} (h : ∃ c ∈ path, c ≠ '/') :
    '/' ∉ packageChars path := by
  intro hmem
  obtain ⟨d, hd, heq⟩ := exists_of_mem_packageChars hmem
  apply slash_notMem_nameSegment h
  rwa [← eq_slash_of_identifierChar heq.symm]

/-- A package name has no character that naming a package would take away. -/
theorem isSettled_packageChars (path : List Char) : IsSettled (packageChars path) where
  hyphen h := by
    obtain ⟨d, -, heq⟩ := exists_of_mem_packageChars h
    exact (identifierChar_ne d).1 heq.symm
  dot h := by
    obtain ⟨d, -, heq⟩ := exists_of_mem_packageChars h
    exact (identifierChar_ne d).2 heq.symm
  slash := by
    by_cases hpath : ∃ c ∈ path, c ≠ '/'
    · exact Or.inl (slash_notMem_packageChars hpath)
    · push Not at hpath
      have hsettled : IsSettled path :=
        ⟨fun h ↦ absurd (hpath _ h) (by decide), fun h ↦ absurd (hpath _ h) (by decide), Or.inr hpath⟩
      rw [hsettled.packageChars_eq]
      exact Or.inr hpath

theorem packageChars_congr {p q : List Char} (h : nameSegment p = nameSegment q) :
    packageChars p = packageChars q := by
  unfold packageChars
  rw [h]

/-- The guessed name is settled: guessing again changes nothing, it has no hyphen and no dot, and no slash
unless the path is made of slashes. A slash or a major version behind the path does not change it. -/
theorem packageName_settled (path : String) :
    packageName (packageName path) = packageName path ∧
    '-' ∉ (packageName path).toList ∧ '.' ∉ (packageName path).toList ∧
    ((∃ c ∈ path.toList, c ≠ '/') → '/' ∉ (packageName path).toList) ∧
    (segments path.toList ≠ [] → packageName (path ++ "/") = packageName path) ∧
    ∀ last, (segments path.toList).getLast? = some last → isMajorVersion last = false →
      ∀ digits, digits ≠ [] → digits.all isDigit = true →
        packageName (path ++ "/v" ++ String.ofList digits) = packageName path := by
  have hsettled := isSettled_packageChars path.toList
  have hchars : (packageName path).toList = packageChars path.toList := String.toList_ofList
  rw [hchars]
  refine ⟨?_, hsettled.hyphen, hsettled.dot, slash_notMem_packageChars, ?_, ?_⟩
  · rw [packageName, hchars, hsettled.packageChars_eq]
    rfl
  · intro hne
    unfold packageName
    rw [String.toList_append]
    exact congrArg String.ofList (packageChars_congr (nameSegment_append_slash hne))
  · intro last hlast hversion digits hdigits hdecimal
    have hmore : (path ++ "/v" ++ String.ofList digits).toList = path.toList ++ '/' :: 'v' :: digits := by
      simp
    unfold packageName
    rw [hmore]
    exact congrArg String.ofList
      (packageChars_congr (nameSegment_append_version hlast hversion hdigits hdecimal))

/-- A path with a prefix, a library suffix, a version and a slash at the end. -/
theorem packageName_settled_library_version :
    let path := "gopkg.in/go-some.lib.v3/"
    packageName path = "some_lib" ∧ packageName "some_lib" = "some_lib" ∧
      '/' ∉ (packageName path).toList ∧ packageName (path ++ "/") = "some_lib" ∧
      packageName (path ++ "/v" ++ String.ofList ['1', '2']) = "some_lib" := by
  intro path
  have hname : packageName path = "some_lib" := by decide +kernel
  have hsegments : segments path.toList = ["gopkg.in".toList, "go-some.lib.v3".toList] := by
    decide +kernel
  have hletter : ∃ c ∈ path.toList, c ≠ '/' := by simp [path]
  obtain ⟨hagain, -, -, hslash, htrailing, hversion⟩ := packageName_settled path
  refine ⟨hname, ?_, hslash hletter, ?_, ?_⟩
  · rwa [hname] at hagain
  · rw [htrailing (by simp [hsegments]), hname]
  · rw [hversion "go-some.lib.v3".toList (by simp [hsegments]) (by decide) _ (by decide) (by decide), hname]

end GoComplexity.Syntax.ImportPath
