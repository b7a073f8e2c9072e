import GoComplexity.Proofs.Resolve.Identity

/-!
# Methods and the types of variables

A method is recorded under the type that its receiver shows, and a call of a method looks for the type
that the text behind a variable spells. The two leave out different things, but both come down to the
same name: a method is found from every pointer to its type and from every instantiation, and it is not
found if no file declares it on the type.
-/

namespace GoComplexity

open Syntax TypeText

/-- A type name with stars before it. -/
def starred (stars : ℕ) (type : String) : String :=
  String.ofList (List.replicate stars '*') ++ type

/-- The texts of a type name, of the pointers to it and of their instantiations. -/
def TextOf (type text : String) : Prop :=
  ∃ stars, text = starred stars type ∨ ∃ arguments, text = starred stars type ++ "[" ++ arguments

/-- Whether methods can be declared on the name: it starts no unnamed type and is not predeclared as
`error`. -/
structure IsBaseName (type : String) : Prop where
  isName : isName type.toList = true
  named : type ∉ unnamed
  ne_error : type ≠ "error"

/-- Whether one of the files declares the method on the type or on pointers to it. -/
def DeclaresMethod (files : List SourceFile) (type name : String) : Prop :=
  ∃ file ∈ files, ∃ f ∈ file.functions, f.name = name ∧ ∃ stars, f.receiver = some (starred stars type)

/-- Whether a binding is the first one of its name in a function. -/
def IsFirstBinding (f : FunctionDecl) (x : String) (b : Binding) : Prop :=
  b.name = x ∧ ∃ before after, f.bindings = before ++ b :: after ∧ ∀ c ∈ before, c.name ≠ x

/-! ## The name behind stars -/

theorem toList_starred (stars : ℕ) (type : String) :
    (starred stars type).toList = List.replicate stars '*' ++ type.toList := by
  rw [starred, String.toList_append, String.toList_ofList]

theorem head?_ne_star {type : String} (h : isName type.toList = true) :
    ∀ c ∈ type.toList.head?, (c == '*') = false := by
  intro c hc
  rw [beq_eq_false_iff_ne]
  exact ne_of_isNameChar ((isName_iff.mp h).2 c (List.mem_of_mem_head? hc)) isNameChar_star

/-- Receivers with the same base differ in their stars only. -/
theorem receiverBase_eq_iff {receiver type : String} (h : isName type.toList = true) :
    Scope.receiverBase receiver = type ↔ ∃ stars, receiver = starred stars type := by
  constructor
  · rintro rfl
    refine ⟨(receiver.toList.takeWhile (· == '*')).length, ?_⟩
    have hstars : receiver.toList.takeWhile (· == '*') =
        List.replicate (receiver.toList.takeWhile (· == '*')).length '*' :=
      List.eq_replicate_of_mem fun c hc ↦ by simpa using List.mem_takeWhile_imp hc
    rw [String.ext_iff, toList_starred, ← hstars, Scope.receiverBase, String.toList_ofList,
      List.takeWhile_append_dropWhile]
  · rintro ⟨stars, rfl⟩
    rw [Scope.receiverBase, toList_starred, Text.dropWhile_append_of_all _ (head?_ne_star h),
      String.ofList_toList]
    intro c hc
    rw [List.eq_of_mem_replicate hc]
    rfl

/-- The scope of some files has the methods that the files declare. -/
theorem hasMethod_ofFiles_iff (path : String) {files : List SourceFile} {type : String}
    (h : isName type.toList = true) (name : String) :
    (Scope.ofFiles path files).hasMethod type name = true ↔ DeclaresMethod files type name := by
  have hmethod (f : FunctionDecl) : Scope.method? f = some (type, name) ↔
      f.name = name ∧ ∃ stars, f.receiver = some (starred stars type) := by
    cases hreceiver : f.receiver with
    | none => simp [Scope.method?, hreceiver]
    | some receiver => simp [Scope.method?, hreceiver, receiverBase_eq_iff h, and_comm]
  rw [Scope.hasMethod, List.contains_iff_mem, Scope.ofFiles, Scope.foldl_add_eq]
  simp only [Scope.empty, List.nil_append, List.mem_flatMap, List.mem_filterMap, hmethod]
  rfl

/-! ## The name behind a variable -/

/-- Stars and type arguments around a name are what the reading of type texts skips. -/
theorem TextOf.spells {type text : String} (h : TextOf type text) :
    Spells text.toList type.toList := by
  have hstars (stars : ℕ) : ∀ c ∈ List.replicate stars '*', c = '*' :=
    fun c hc ↦ List.eq_of_mem_replicate hc
  obtain ⟨stars, rfl | ⟨arguments, rfl⟩⟩ := h
  · refine ⟨List.replicate stars '*', [], [], ?_, hstars stars, by simp, Or.inl (by simp)⟩
    simp [toList_starred]
  · refine ⟨List.replicate stars '*', [], '[' :: arguments.toList, ?_, hstars stars, by simp,
      Or.inr ⟨_, rfl⟩⟩
    simp [toList_starred]

/-- A name refers to its first binding in the function. -/
theorem binding?_of_isFirstBinding {f : FunctionDecl} {x : String} {b : Binding}
    (h : IsFirstBinding f x b) : FileView.binding? f.bindings x = some b := by
  obtain ⟨hname, before, after, hbindings, hbefore⟩ := h
  rw [FileView.binding?, List.find?_eq_some_iff_append]
  exact ⟨by simp [hname], before, after, hbindings, by simpa using hbefore⟩

theorem importPath?_ofFile_eq_none {scope : Scope} {file : SourceFile} {name : String}
    (h : ∀ i ∈ file.imports, i.localName ≠ some name) :
    (FileView.ofFile scope file).importPath? name = none := by
  simp only [FileView.importPath?, FileView.ofFile, Option.map_eq_none_iff, List.find?_eq_none,
    List.mem_reverse, List.mem_filterMap, Option.map_eq_some_iff]
  rintro _ ⟨i, hi, known, hlocal, rfl⟩
  rw [beq_iff_eq]
  rintro rfl
  exact h i hi hlocal

/-- A method call on a variable, and a method expression on the type, mean the method that the files of
the package declare on the type behind the text of the variable, however many stars the receiver and the
text have and whatever the type arguments are. If the files declare no such method, the call means
nothing. -/
theorem method_found_iff_declared (path : String) (files : List SourceFile) (file : SourceFile)
    (f : FunctionDecl) (name : String) {type : String} (htype : IsBaseName type) :
    (∀ x b, IsFirstBinding f x b → TextOf type b.type →
      (DeclaresMethod files type name →
        (FileView.ofFile (Scope.ofFiles path files) file).resolve f.bindings
          (.selector (.ident x) name) = .object ⟨path, type ++ "." ++ name⟩ (some path)) ∧
      (¬ DeclaresMethod files type name →
        (FileView.ofFile (Scope.ofFiles path files) file).resolve f.bindings
          (.selector (.ident x) name) = .unresolved)) ∧
    ((∀ b ∈ f.bindings, b.name ≠ type) → (∀ i ∈ file.imports, i.localName ≠ some type) →
      DeclaresMethod files type name →
        (FileView.ofFile (Scope.ofFiles path files) file).resolve f.bindings
          (.selector (.ident type) name) = .object ⟨path, type ++ "." ++ name⟩ (some path)) := by
  have hpath : (Scope.ofFiles path files).path = path := by
    rw [Scope.ofFiles, Scope.foldl_add_eq]
    rfl
  have hmethod : (Scope.ofFiles path files).hasMethod type name = true ↔
      DeclaresMethod files type name :=
    hasMethod_ofFiles_iff path htype.isName name
  constructor
  · intro x b hfirst htext
    have hnames : b.Names type := ⟨htext.spells, htype.isName, htype.named⟩
    have hresolve : (FileView.ofFile (Scope.ofFiles path files) file).resolve f.bindings
        (.selector (.ident x) name) =
        if (Scope.ofFiles path files).hasMethod type name then
          .object ⟨path, type ++ "." ++ name⟩ (some path)
        else .unresolved := by
      simp only [FileView.resolve, binding?_of_isFirstBinding hfirst]
      rw [FileView.resolveMethod_of_names _ hnames, if_neg fun herror ↦ htype.ne_error herror.1]
      simp only [FileView.ofFile, hpath, Resolve.object]
    rw [hresolve]
    exact ⟨fun hdeclared ↦ if_pos (hmethod.mpr hdeclared),
      fun hnot ↦ if_neg fun hdeclared ↦ hnot (hmethod.mp hdeclared)⟩
  · intro hfree himports hdeclared
    have hbinding : FileView.binding? f.bindings type = none := by
      simpa [FileView.binding?] using hfree
    simp only [FileView.resolve, hbinding, FileView.resolveQualified,
      importPath?_ofFile_eq_none himports]
    simp only [FileView.ofFile, hmethod.mpr hdeclared, if_true, hpath, Resolve.object]

/-- A function with a variable of an instantiated type. -/
def cacheUse : FunctionDecl :=
  { name := "work", receiver := none, pos := ⟨5, 1, 60⟩, params := [], body := none, doc := [],
    bindings := [⟨"x", "*Cache[string, [2]int]", ⟨5, 10, 69⟩⟩] }

/-- A method on a pointer to a pointer, and a function that uses the type. -/
def cacheFile : SourceFile :=
  { path := "cache.go"
    package := "cache"
    imports := [⟨"fmt", none, ⟨2, 8, 21⟩⟩]
    types := ["Cache"]
    vars := []
    functions :=
      [{ name := "Get", receiver := some "**Cache", pos := ⟨4, 1, 28⟩, params := [], body := none,
         doc := [], bindings := [⟨"s", "**Cache[K, [2]V]", ⟨4, 6, 33⟩⟩] },
       cacheUse] }

/-- A file that declares one of two methods called on a receiver. -/
theorem method_found_iff_declared_cacheFile :
    IsBaseName "Cache" ∧ DeclaresMethod [cacheFile] "Cache" "Get" ∧
      ¬ DeclaresMethod [cacheFile] "Cache" "Put" ∧
      (FileView.ofFile (Scope.ofFiles "ex.com/cache" [cacheFile]) cacheFile).resolve cacheUse.bindings
        (.selector (.ident "x") "Get") = .object ⟨"ex.com/cache", "Cache.Get"⟩ (some "ex.com/cache") ∧
      (FileView.ofFile (Scope.ofFiles "ex.com/cache" [cacheFile]) cacheFile).resolve cacheUse.bindings
        (.selector (.ident "x") "Put") = .unresolved ∧
      (FileView.ofFile (Scope.ofFiles "ex.com/cache" [cacheFile]) cacheFile).resolve cacheUse.bindings
        (.selector (.ident "Cache") "Get") =
          .object ⟨"ex.com/cache", "Cache.Get"⟩ (some "ex.com/cache") := by
  have hbase : IsBaseName "Cache" := ⟨by decide +kernel, by decide, by decide⟩
  have hget : DeclaresMethod [cacheFile] "Cache" "Get" :=
    ⟨cacheFile, List.mem_singleton_self cacheFile, _, List.mem_cons_self, rfl, 2, by decide +kernel⟩
  have hput : ¬ DeclaresMethod [cacheFile] "Cache" "Put" := by
    rintro ⟨file, hfile, g, hg, hname, -⟩
    rw [List.mem_singleton.mp hfile] at hg
    rcases List.mem_pair.mp hg with rfl | rfl <;> exact absurd hname (by decide)
  have hfirst : IsFirstBinding cacheUse "x" ⟨"x", "*Cache[string, [2]int]", ⟨5, 10, 69⟩⟩ :=
    ⟨rfl, [], [], rfl, List.forall_mem_nil _⟩
  have htext : TextOf "Cache" "*Cache[string, [2]int]" :=
    ⟨1, Or.inr ⟨"string, [2]int]", by decide +kernel⟩⟩
  obtain ⟨hcall, hexpression⟩ :=
    method_found_iff_declared "ex.com/cache" [cacheFile] cacheFile cacheUse "Get" hbase
  refine ⟨hbase, hget, hput, (hcall "x" _ hfirst htext).1 hget, ?_, hexpression ?_ ?_ hget⟩
  · have hcall := method_found_iff_declared "ex.com/cache" [cacheFile] cacheFile cacheUse "Put" hbase
    exact (hcall.1 "x" _ hfirst htext).2 hput
  · simp [cacheUse]
  · simp only [cacheFile, List.mem_singleton, forall_eq]
    decide +kernel

end GoComplexity
