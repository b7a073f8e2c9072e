import GoComplexity.Proofs.Workspace.Order

/-!
# How paths are spelled

The text of a path has its segments between slashes, so that it reads back as the same path if each
name could name an entry of a directory. A path as it is shown from the working directory therefore
leads from there to itself. The files of one directory are shown by one text and their names after it,
which makes the order of what is shown the order of the names.
-/

namespace GoComplexity

theorem Text.split_eq_splitOn (sep : Char) (cs : List Char) : split sep cs = cs.splitOn sep := by
  induction cs with
  | nil => rfl
  | cons c cs ih =>
    unfold split
    rw [ih, List.splitOn, List.splitOn, List.splitOnP_cons_eq_if_modifyHead]
    split_ifs with hsep hbeq hbeq
    · rfl
    · exact absurd (beq_iff_eq.mpr hsep) hbeq
    · exact absurd (beq_iff_eq.mp hbeq) hsep
    · cases hparts : List.splitOnP (· == sep) cs with
      | nil => exact absurd hparts (List.splitOnP_ne_nil _ _)
      | cons part parts => rfl

theorem Text.after?_eq_some_iff {lead text rest : List Char} :
    after? lead text = some rest ↔ text = lead ++ rest := by
  fun_induction after? lead text with
  | case1 text => simp
  | case2 l lead => simp
  | case3 lead c text ih => simpa using ih
  | case4 l lead c text hne => simp [Ne.symm hne]

/-- Whether a text can name an entry of a directory. -/
def IsEntryName (name : String) : Prop := name ∉ ["", ".", ".."] ∧ '/' ∉ name.toList

instance : DecidablePred IsEntryName := fun _ ↦ inferInstanceAs (Decidable (_ ∧ _))

/-- Whether every name on a path can name an entry. -/
def Path.Proper (p : Path) : Prop := ∀ name, .name name ∈ p.segments → IsEntryName name

namespace Segment

/-- The text of a segment stands for the segment and has no slash. -/
theorem ofPart?_text {s : Segment} (h : ∀ name, s = .name name → IsEntryName name) :
    ofPart? s.text.toList = some s ∧ '/' ∉ s.text.toList := by
  cases s with
  | up => exact ⟨rfl, by decide⟩
  | name text =>
    obtain ⟨hname, hslash⟩ := h text rfl
    simp only [List.mem_cons, List.not_mem_nil, or_false, not_or] at hname
    have hempty : text.toList ≠ [] := fun heq ↦ hname.1 (String.toList_inj.mp heq)
    have hdot : text.toList ≠ ['.'] := fun heq ↦ hname.2.1 (String.toList_inj.mp heq)
    have hup : text.toList ≠ ['.', '.'] := fun heq ↦ hname.2.2 (String.toList_inj.mp heq)
    refine ⟨?_, hslash⟩
    change ofPart? text.toList = _
    unfold ofPart?
    rw [if_neg (not_or.mpr ⟨hempty, hdot⟩), if_neg hup, String.ofList_toList]

end Segment

namespace Path

/-- Joined segments are their texts with slashes between them. -/
theorem toList_joined (segments : List Segment) :
    (joined segments).toList = ['/'].intercalate (segments.map fun s ↦ s.text.toList) := by
  unfold joined Text.join
  rw [String.toList_intercalate, List.map_map]
  rfl

section

variable {p : Path} (hp : p.Proper)

include hp

theorem Proper.ofPart?_text {s : Segment} (hs : s ∈ p.segments) :
    Segment.ofPart? s.text.toList = some s ∧ '/' ∉ s.text.toList := by
  apply Segment.ofPart?_text
  rintro name rfl
  exact hp name hs

/-- Proper segments are read back from their joined text. -/
theorem Proper.parts_joined : parts (joined p.segments) = p.segments := by
  unfold parts
  rw [Text.split_eq_splitOn, toList_joined]
  by_cases hnil : p.segments = []
  · rw [hnil]
    rfl
  · rw [List.splitOn_intercalate]
    · rw [List.filterMap_map]
      refine (List.filterMap_congr fun s hs ↦ (hp.ofPart?_text hs).1).trans ?_
      exact List.filterMap_some
    · intro part hpart
      obtain ⟨s, hs, rfl⟩ := List.mem_map.mp hpart
      exact (hp.ofPart?_text hs).2
    · simpa using hnil

theorem Proper.parts_display : parts p.display = p.segments := by
  have hlead : parts p.display = parts (joined p.segments) := by
    unfold parts display
    rw [String.toList_append]
    rfl
  rw [hlead, hp.parts_joined]

/-- A path relative to a base is not taken for an absolute one. -/
theorem Proper.isAbsolute_joined : isAbsolute (joined p.segments) = false := by
  unfold isAbsolute
  rw [toList_joined, beq_eq_false_iff_ne]
  cases hsegments : p.segments with
  | nil => simp [List.intercalate]
  | cons s rest =>
    obtain ⟨hpart, hslash⟩ := hp.ofPart?_text (hsegments ▸ List.mem_cons_self)
    intro hhead
    have hfirst : (['/'].intercalate ((s :: rest).map fun s ↦ s.text.toList)).head? =
        s.text.toList.head? := by
      cases hchars : s.text.toList with
      | nil =>
        rw [hchars] at hpart
        contradiction
      | cons c chars => cases rest <;> simp [hchars, List.intercalate]
    rw [hfirst] at hhead
    exact hslash (List.mem_of_head? hhead)

end

theorem below?_eq_some_iff {base segments rest : List Segment} :
    below? base segments = some rest ↔ segments = base ++ rest := by
  fun_induction below? base segments with
  | case1 segments => simp
  | case2 b base => simp
  | case3 base s segments ih => simpa using ih
  | case4 b base s segments hne => simp [Ne.symm hne]

theorem below?_concat {base segments : List Segment} {s : Segment} (hne : base ≠ segments ++ [s]) :
    below? base (segments ++ [s]) = (below? base segments).map (· ++ [s]) := by
  cases hbelow : below? base segments with
  | some rest =>
    rw [below?_eq_some_iff] at hbelow
    rw [hbelow, List.append_assoc]
    exact below?_eq_some_iff.mpr rfl
  | none =>
    cases hconcat : below? base (segments ++ [s]) with
    | none => rfl
    | some rest =>
      rw [below?_eq_some_iff] at hconcat
      rcases List.eq_nil_or_concat rest with rfl | ⟨rest, last, rfl⟩
      · rw [List.append_nil] at hconcat
        exact absurd hconcat.symm hne
      · rw [List.concat_eq_append, ← List.append_assoc] at hconcat
        rw [below?_eq_some_iff.mpr (List.append_inj_left' hconcat rfl)] at hbelow
        contradiction

/-- A path below the base is shown from there, any other one in full. -/
theorem relativeTo_eq (base p : Path) :
    relativeTo base p = ((below? base.segments p.segments).map joined).getD p.display := by
  unfold relativeTo
  cases below? base.segments p.segments <;> rfl

end Path

/-- What is shown for a path leads to the path. -/
theorem Workspace.resolve_relative {ws : Workspace} {p : Path} (hp : p.Proper) :
    ws.resolve (ws.relative p) = p := by
  unfold relative resolve Path.resolve
  rw [Path.relativeTo_eq]
  cases hbelow : Path.below? ws.base.segments p.segments with
  | some rest =>
    rw [Path.below?_eq_some_iff] at hbelow
    have hproper : (Path.mk rest).Proper := fun name hname ↦
      hp name (hbelow ▸ List.mem_append_right _ hname)
    rw [Option.map_some, Option.getD_some, hproper.isAbsolute_joined, hproper.parts_joined]
    exact congrArg Path.mk hbelow.symm
  | none =>
    have habsolute : Path.isAbsolute p.display = true := by
      unfold Path.isAbsolute Path.display
      rw [String.toList_append]
      rfl
    rw [Option.map_none, Option.getD_none, habsolute, hp.parts_display]
    rfl

/-! ## The files of one directory -/

/-- A last part can be exchanged without a change in what comes before it. -/
theorem exists_lead_intercalate (sep : List Char) (parts : List (List Char)) :
    ∃ lead, ∀ part, sep.intercalate (parts ++ [part]) = lead ++ part := by
  induction parts with
  | nil => exact ⟨[], fun part ↦ by simp [List.intercalate]⟩
  | cons first rest ih =>
    obtain ⟨lead, hlead⟩ := ih
    refine ⟨first ++ sep ++ lead, fun part ↦ ?_⟩
    cases hrest : rest ++ [part] with
    | nil => simp at hrest
    | cons next others =>
      rw [List.cons_append, hrest, List.intercalate_cons_cons, ← hrest, hlead, ← List.append_assoc]

theorem Path.exists_lead_joined (segments : List Segment) :
    ∃ lead, ∀ name, (joined (segments ++ [.name name])).toList = lead ++ name.toList := by
  obtain ⟨lead, hlead⟩ := exists_lead_intercalate ['/'] (segments.map fun s ↦ s.text.toList)
  refine ⟨lead, fun name ↦ ?_⟩
  rw [toList_joined, List.map_append]
  exact hlead name.toList

/-- The files of a directory are shown by their names after one text. -/
theorem Workspace.exists_lead_relative (ws : Workspace) (dir : List Segment) :
    ∃ lead, ∀ name, ws.base.segments ≠ dir ++ [.name name] →
      (ws.relative ⟨dir ++ [.name name]⟩).toList = lead ++ name.toList := by
  cases hbelow : Path.below? ws.base.segments dir with
  | some rest =>
    obtain ⟨lead, hlead⟩ := Path.exists_lead_joined rest
    refine ⟨lead, fun name hne ↦ ?_⟩
    unfold relative
    rw [Path.relativeTo_eq, Path.below?_concat hne, hbelow]
    exact hlead name
  | none =>
    obtain ⟨lead, hlead⟩ := Path.exists_lead_joined dir
    refine ⟨'/' :: lead, fun name hne ↦ ?_⟩
    unfold relative
    rw [Path.relativeTo_eq, Path.below?_concat hne, hbelow, Option.map_none, Option.map_none,
      Option.getD_none, Path.display, String.toList_append, hlead]
    rfl

end GoComplexity
