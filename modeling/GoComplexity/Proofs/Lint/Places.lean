import GoComplexity.Proofs.Lint.Subject
import GoComplexity.Proofs.Source.Places

/-!
# Places of findings

A file that was read from a source has each position where the source has it, and later declarations and
statements at later positions. Since a metric is reported once for a function and inside the function, it
has at most one finding at each line and column of the file.
-/

namespace GoComplexity

open Syntax Source

/-- What tells the findings of a file apart. -/
def Violation.place (v : Violation) : ℕ × ℕ × Metric := (v.line, v.column, v.rule)

namespace Subject

/-- Where a subject is reported, and for which metric. -/
def place (t : Subject) : ℕ × ℕ × Metric := (t.measured.2.line, t.measured.2.column, t.metric)

/-- A violation stands at a place of its function. -/
theorem measured_mem_places (t : Subject) : t.measured.2 ∈ t.function.places := by
  obtain ⟨view, file, f, body, hbody, metric⟩ := t
  cases metric with
  | nestDepth =>
    exact List.mem_cons_of_mem _ (List.mem_flatMap.mpr
      ⟨body, Option.mem_toList.mpr hbody, body.maxDepth_pos_mem_places⟩)
  | cyclo | params | fanOut => exact List.mem_cons_self

theorem function_of_mem_ofFunction {view : FileView} {file : SourceFile} {f : FunctionDecl}
    {t : Subject} (h : t ∈ ofFunction view file f) : t.function = f := by
  unfold ofFunction at h
  split at h
  · simp at h
  · obtain ⟨m, -, rfl⟩ := List.mem_map.mp h
    rfl

/-- A function is reported once for each metric. -/
theorem nodup_place_ofFunction (view : FileView) (file : SourceFile) (f : FunctionDecl) :
    ((ofFunction view file f).map place).Nodup := by
  refine List.Nodup.of_map (fun place ↦ place.2.2) ?_
  rw [List.map_map]
  unfold ofFunction
  split
  · exact List.nodup_nil
  · rw [List.map_map]
    exact (by decide : (Metric.all.map id).Nodup)

variable {bytes : List UInt8} {file : SourceFile}
  (hplaces : ∀ p ∈ file.places, p.IsAt bytes)
  (hfunctions : file.functions.Pairwise fun f g ↦
    ∀ p ∈ f.places, ∀ q ∈ g.places, p.offset < q.offset)

include hplaces hfunctions

/-- Functions that lie one after the other are reported at different places. -/
theorem nodup_place_ofFile (scope : Scope) : ((ofFile scope file).map place).Nodup := by
  have hisAt {view : FileView} {f : FunctionDecl} (hf : f ∈ file.functions) {t : Subject}
      (ht : t ∈ ofFunction view file f) : t.measured.2 ∈ f.places ∧ t.measured.2.IsAt bytes := by
    have hmem := t.measured_mem_places
    rw [function_of_mem_ofFunction ht] at hmem
    refine ⟨hmem, hplaces _ (List.mem_append_right _ ?_)⟩
    exact List.mem_flatMap.mpr ⟨f, hf, List.mem_append_left _ hmem⟩
  rw [ofFile, List.map_flatMap, List.nodup_flatMap]
  refine ⟨fun f _ ↦ nodup_place_ofFunction _ file f, hfunctions.imp_of_mem ?_⟩
  intro f g hf hg hlt key hkey hkey'
  obtain ⟨t, ht, rfl⟩ := List.mem_map.mp hkey
  obtain ⟨u, hu, heq⟩ := List.mem_map.mp hkey'
  obtain ⟨hmem, hat⟩ := hisAt hf ht
  obtain ⟨hmem', hat'⟩ := hisAt hg hu
  -- Equal lines and columns mean equal offsets, but the one function ends before the other starts.
  obtain ⟨hline, hrest⟩ := Prod.mk.inj heq
  have hoffset := hat'.offset_eq hat hline (Prod.mk.inj hrest).1
  exact absurd hoffset (Nat.ne_of_gt (hlt _ hmem _ hmem'))

/-- No file has two violations of one metric at one place. -/
theorem nodup_place_violations (settings : Settings) (scope : Scope) :
    ((Outcome.ofFile settings scope file).violations.map Violation.place).Nodup := by
  have hplace {t : Subject} {v : Violation} (h : t.violation? settings = some v) :
      v.place = t.place := by
    rw [violation?_eq_map settings t rfl] at h
    obtain ⟨severity, -, rfl⟩ := Option.map_eq_some_iff.mp h
    rfl
  rw [violations_ofFile, List.Nodup, List.pairwise_map, List.pairwise_filterMap]
  refine (List.pairwise_map.mp (nodup_place_ofFile hplaces hfunctions scope)).imp ?_
  intro t u hne v hv w hw
  rwa [hplace hv, hplace hw]

end Subject

end GoComplexity
