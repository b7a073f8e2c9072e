import GoComplexity.Proofs.Resolve.Scope
import GoComplexity.Proofs.Resolve.TypeText
import Mathlib

/-!
# Symbols stand for targets

Fan-out counts symbols, which are pairs of texts. `Target` says what a callee means before anything is
written down, and `Denotes` which target a callee has. Every callee that resolves has a target, its
symbol is the target written down, and for names without dots and at signs no two targets are written
alike. So two callees have one symbol exactly if they mean the same function, method or value.
-/

namespace GoComplexity

open Syntax TypeText

/-! ## Targets -/

/-- What a callee can mean. -/
inductive Target where
  /-- The value that a name bound in the function holds. -/
  | value (name : String)
  /-- A function or variable of the package. -/
  | member (name : String)
  /-- A function or variable of an imported package. -/
  | imported (path name : String)
  /-- A method of a type of the package. -/
  | method (type name : String)
  /-- A method of a type of an imported package. -/
  | importedMethod (path type name : String)
  /-- The method of the predeclared type `error`. -/
  | errorText

namespace Syntax.Binding

/-- Whether the type text spells a type without qualifier, perhaps a pointer or an instantiation. -/
def Names (b : Binding) (type : String) : Prop :=
  Spells b.type.toList type.toList ∧ isName type.toList = true ∧ type ∉ unnamed

/-- Whether the type text spells a qualified type. -/
def NamesIn (b : Binding) (qualifier type : String) : Prop :=
  Spells b.type.toList (qualifier ++ "." ++ type).toList ∧ isName qualifier.toList = true ∧
    isName type.toList = true

end Syntax.Binding

/-- The targets of a callee inside a function with the given bindings. -/
inductive Denotes (v : FileView) (bindings : List Binding) : Expr → Target → Prop where
  | value {name : String} {b : Binding} (hbound : FileView.binding? bindings name = some b) :
      Denotes v bindings (.ident name) (.value name)
  | member {name : String} (hfree : FileView.binding? bindings name = none)
      (hdeclared : name ∈ v.scope.functions ∨ name ∈ v.scope.vars) :
      Denotes v bindings (.ident name) (.member name)
  | imported {qualifier name path : String} (hfree : FileView.binding? bindings qualifier = none)
      (himport : v.importPath? qualifier = some path) :
      Denotes v bindings (.selector (.ident qualifier) name) (.imported path name)
  | methodExpression {type name : String} (hfree : FileView.binding? bindings type = none)
      (himport : v.importPath? type = none) (hdeclared : (type, name) ∈ v.scope.methods) :
      Denotes v bindings (.selector (.ident type) name) (.method type name)
  | method {x type name : String} {b : Binding} (hbound : FileView.binding? bindings x = some b)
      (htype : b.Names type) (hdeclared : (type, name) ∈ v.scope.methods) :
      Denotes v bindings (.selector (.ident x) name) (.method type name)
  | importedMethod {x qualifier path type name : String} {b : Binding}
      (hbound : FileView.binding? bindings x = some b) (htype : b.NamesIn qualifier type)
      (himport : v.importPath? qualifier = some path) :
      Denotes v bindings (.selector (.ident x) name) (.importedMethod path type name)
  | errorText {x : String} {b : Binding} (hbound : FileView.binding? bindings x = some b)
      (htype : b.Names "error") :
      Denotes v bindings (.selector (.ident x) "Error") .errorText

/-! ## Targets written down -/

/-- The place of the first binding of a name. -/
def bindingPlace (bindings : List Binding) (name : String) : String :=
  ((FileView.binding? bindings name).map fun b ↦ b.pos.display).getD ""

namespace Target

/-- The symbol that a target is written down as. -/
def symbol (v : FileView) (bindings : List Binding) : Target → SymbolId
  | .value name => ⟨v.scope.path, name ++ "@" ++ bindingPlace bindings name⟩
  | .member name => ⟨v.scope.path, name⟩
  | .imported path name => ⟨path, name⟩
  | .method type name => ⟨v.scope.path, type ++ "." ++ name⟩
  | .importedMethod path type name => ⟨path, type ++ "." ++ name⟩
  | .errorText => ⟨"", "error.Error"⟩

/-- The callee that a target is written down as. Only `error` belongs to no package. -/
def callee (v : FileView) (bindings : List Binding) (t : Target) : Callee SymbolId :=
  .object (t.symbol v bindings) (match t with
    | .errorText => none
    | _ => some (t.symbol v bindings).package)

end Target

namespace Syntax.Binding

theorem namedType_of_names {b : Binding} {type : String} (h : b.Names type) :
    b.namedType = some type := by
  obtain ⟨hspells, hname, hunnamed⟩ := h
  exact named?_eq_some_iff.mpr ⟨hspells, .inl ⟨hname, by rwa [String.ofList_toList]⟩⟩

theorem namedType_of_namesIn {b : Binding} {qualifier type : String} (h : b.NamesIn qualifier type) :
    b.namedType = some (qualifier ++ "." ++ type) := by
  obtain ⟨hspells, hqualifier, hname⟩ := h
  refine named?_eq_some_iff.mpr ⟨hspells, .inr ⟨_, _, ?_, hqualifier, hname⟩⟩
  simp

/-- The named type of a binding, if it has one, is spelled by its type text. -/
theorem names_or_namesIn {b : Binding} {type : String} (h : b.namedType = some type) :
    b.Names type ∨ ∃ qualifier member, type = qualifier ++ "." ++ member ∧
      b.NamesIn qualifier member := by
  obtain ⟨hspells, ⟨hname, hunnamed⟩ | ⟨qualifier, member, hparts, hqualifier, hmember⟩⟩ :=
    named?_eq_some_iff.mp h
  · exact .inl ⟨hspells, hname, by rwa [String.ofList_toList] at hunnamed⟩
  · have htype : type = String.ofList qualifier ++ "." ++ String.ofList member := by
      rw [String.ext_iff, hparts]
      simp
    refine .inr ⟨String.ofList qualifier, String.ofList member, htype, ?_, ?_, ?_⟩
    · rwa [← htype]
    · rwa [String.toList_ofList]
    · rwa [String.toList_ofList]

end Syntax.Binding

namespace FileView

variable (v : FileView)

/-- On a name of a type of the package, a method is looked up there; `Error` of `error` belongs to no
package. -/
theorem resolveMethod_of_names {b : Binding} {type : String} (h : b.Names type) (name : String) :
    v.resolveMethod b name =
      if type = "error" ∧ name = "Error" then .object ⟨"", "error.Error"⟩ none
      else if v.scope.hasMethod type name then Resolve.object v.scope.path (type ++ "." ++ name)
      else .unresolved := by
  have hcut := Text.cut_eq_none_iff.mpr (not_mem_of_isName h.2.1 isNameChar_dot)
  simp only [resolveMethod, Binding.namedType_of_names h, resolveMethodOf, hcut]

/-- On a name of a type of another package, any method is taken to exist there. -/
theorem resolveMethod_of_namesIn {b : Binding} {qualifier type : String}
    (h : b.NamesIn qualifier type) (name : String) :
    v.resolveMethod b name = match v.importPath? qualifier with
      | some path => Resolve.object path (type ++ "." ++ name)
      | none => .unresolved := by
  have hcut : Text.cut '.' (qualifier ++ "." ++ type).toList = some (qualifier.toList, type.toList) :=
    Text.cut_eq_some_iff.mpr ⟨by simp, not_mem_of_isName h.2.1 isNameChar_dot⟩
  cases hpath : v.importPath? qualifier <;>
    simp only [resolveMethod, Binding.namedType_of_namesIn h, resolveMethodOf, hcut,
      String.ofList_toList, hpath]

end FileView

section Written

variable {v : FileView} {bindings : List Binding}

/-- A callee resolves to its target written down. -/
theorem Denotes.resolve_eq {c : Expr} {t : Target} (h : Denotes v bindings c t)
    (herror : ∀ name, ("error", name) ∉ v.scope.methods) :
    v.resolve bindings c = t.callee v bindings := by
  cases h with
  | value hbound =>
    have hname := List.find?_some hbound
    simp only [FileView.resolve, hbound, Target.callee, Target.symbol, bindingPlace,
      Option.map_some, Option.getD_some, beq_iff_eq.mp hname, Resolve.object]
  | @member name hfree hdeclared =>
    have hcontains : (v.scope.functions.contains name || v.scope.vars.contains name) = true := by
      rw [Bool.or_eq_true, List.contains_iff_mem, List.contains_iff_mem]
      exact hdeclared
    simp only [FileView.resolve, hfree, FileView.resolveName, hcontains, if_true, Target.callee, Target.symbol, Resolve.object]
  | imported hfree himport =>
    simp only [FileView.resolve, hfree, FileView.resolveQualified, himport, Target.callee, Target.symbol, Resolve.object]
  | methodExpression hfree himport hdeclared =>
    have hmethod := List.contains_iff_mem.mpr hdeclared
    simp only [FileView.resolve, hfree, FileView.resolveQualified, himport, Scope.hasMethod, hmethod,
      if_true, Target.callee, Target.symbol, Resolve.object]
  | method hbound htype hdeclared =>
    have hmethod : v.scope.hasMethod _ _ = true := List.contains_iff_mem.mpr hdeclared
    simp only [FileView.resolve, hbound]
    rw [FileView.resolveMethod_of_names v htype, if_neg, if_pos hmethod]
    · rfl
    · rintro ⟨rfl, -⟩
      exact herror _ hdeclared
  | importedMethod hbound htype himport =>
    simp only [FileView.resolve, hbound, FileView.resolveMethod_of_namesIn v htype, himport,
      Target.callee, Target.symbol, Resolve.object]
  | errorText hbound htype =>
    simp only [FileView.resolve, hbound, FileView.resolveMethod_of_names v htype, and_self, if_true,
      Target.callee, Target.symbol]

/-- Every object that a plain name is resolved to is one of the targets it can denote. -/
theorem exists_denotes_ident {name : String} {symbol : SymbolId} {package : Option String}
    (h : v.resolve bindings (.ident name) = .object symbol package) :
    ∃ t, Denotes v bindings (.ident name) t := by
  cases hbound : FileView.binding? bindings name with
  | some b => exact ⟨_, .value hbound⟩
  | none =>
    simp only [FileView.resolve, hbound, FileView.resolveName] at h
    split_ifs at h with hdeclared
    rw [Bool.or_eq_true, List.contains_iff_mem, List.contains_iff_mem] at hdeclared
    exact ⟨_, .member hbound hdeclared⟩

theorem exists_denotes_method {x name : String} {b : Binding} {symbol : SymbolId}
    {package : Option String} (hbound : FileView.binding? bindings x = some b)
    (h : v.resolveMethod b name = .object symbol package) :
    ∃ t, Denotes v bindings (.selector (.ident x) name) t := by
  cases htype : b.namedType with
  | none => simp [FileView.resolveMethod, htype] at h
  | some type =>
    rcases Binding.names_or_namesIn htype with hnames | ⟨qualifier, member, -, hnames⟩
    · rw [FileView.resolveMethod_of_names v hnames] at h
      split_ifs at h with herror hmethod
      · obtain ⟨rfl, rfl⟩ := herror
        exact ⟨_, .errorText hbound hnames⟩
      · exact ⟨_, .method hbound hnames (List.contains_iff_mem.mp hmethod)⟩
    · rw [FileView.resolveMethod_of_namesIn v hnames] at h
      cases himport : v.importPath? qualifier with
      | none => simp [himport] at h
      | some path => exact ⟨_, .importedMethod hbound hnames himport⟩

/-- Every object that a selector is resolved to is one of the targets it can denote. -/
theorem exists_denotes_selector {x name : String} {symbol : SymbolId} {package : Option String}
    (h : v.resolve bindings (.selector (.ident x) name) = .object symbol package) :
    ∃ t, Denotes v bindings (.selector (.ident x) name) t := by
  cases hbound : FileView.binding? bindings x with
  | some b =>
    simp only [FileView.resolve, hbound] at h
    exact exists_denotes_method hbound h
  | none =>
    simp only [FileView.resolve, hbound, FileView.resolveQualified] at h
    cases himport : v.importPath? x with
    | some path => exact ⟨_, .imported hbound himport⟩
    | none =>
      simp only [himport] at h
      split_ifs at h with hmethod
      exact ⟨_, .methodExpression hbound himport (List.contains_iff_mem.mp hmethod)⟩

end Written

/-! ## No two targets are written alike -/

/-- A name without the marks that join the parts of a symbol. -/
def IsPlain (name : String) : Prop := '.' ∉ name.toList ∧ '@' ∉ name.toList

instance (name : String) : Decidable (IsPlain name) :=
  inferInstanceAs (Decidable ('.' ∉ name.toList ∧ '@' ∉ name.toList))

theorem isPlain_of_isName {name : String} (h : isName name.toList = true) : IsPlain name :=
  ⟨not_mem_of_isName h isNameChar_dot, not_mem_of_isName h isNameChar_at⟩

/-- Two texts joined by a mark can be told apart, if the mark is not in the first ones. -/
theorem append_mark_inj_left {mark : Char} {a a' b b' : List Char} (ha : mark ∉ a) (ha' : mark ∉ a')
    (h : a ++ mark :: b = a' ++ mark :: b') : a = a' ∧ b = b' := by
  have hcut : Text.cut mark (a ++ mark :: b) = some (a', b') := Text.cut_eq_some_iff.mpr ⟨h, ha'⟩
  rw [Text.cut_eq_some_iff.mpr ⟨rfl, ha⟩] at hcut
  simpa using hcut

/-- Names without a dot can be read off the two joined by a dot. -/
theorem append_dot_inj {a a' b b' : String} (ha : IsPlain a) (ha' : IsPlain a')
    (h : a ++ "." ++ b = a' ++ "." ++ b') : a = a' ∧ b = b' := by
  have hlist := congrArg String.toList h
  simp only [String.toList_append, List.append_assoc] at hlist
  obtain ⟨hfirst, hsecond⟩ := append_mark_inj_left ha.1 ha'.1 hlist
  exact ⟨String.ext hfirst, String.ext hsecond⟩

theorem dot_not_mem_display (p : Position) : '.' ∉ p.display.toList := by
  have hdigits (n : ℕ) : '.' ∉ (toString n).toList := by
    intro hmem
    have hmem' : '.' ∈ Nat.toDigits 10 n := by simpa using hmem
    exact absurd (Nat.isDigit_of_mem_toDigits (by decide) (by decide) hmem') (by decide)
  simp only [Position.display, String.toList_append, List.mem_append, not_or]
  exact ⟨⟨hdigits p.line, by decide⟩, hdigits p.column⟩

/-- The place in the symbol of a bound name has no dot, so no such symbol is a method. -/
theorem dot_not_mem_bindingPlace (bindings : List Binding) (name : String) :
    '.' ∉ (bindingPlace bindings name).toList := by
  unfold bindingPlace
  cases FileView.binding? bindings name with
  | none => simp
  | some b => exact dot_not_mem_display b.pos

namespace Target

/-- Whether all names of a target are plain and its path is that of another package. -/
def IsPlain (path : String) : Target → Prop
  | .value name => GoComplexity.IsPlain name
  | .member name => GoComplexity.IsPlain name
  | .imported path' name => path' ≠ "" ∧ path' ≠ path ∧ GoComplexity.IsPlain name
  | .method type name => GoComplexity.IsPlain type ∧ GoComplexity.IsPlain name
  | .importedMethod path' type name =>
    path' ≠ "" ∧ path' ≠ path ∧ GoComplexity.IsPlain type ∧ GoComplexity.IsPlain name
  | .errorText => True

variable {v : FileView} {bindings : List Binding}

/-- Whether the symbol belongs to the package, whether to none, and which marks its name has. -/
def marks (path : String) (s : SymbolId) : Bool × Bool × Bool × Bool :=
  (s.package = path, s.package = "", s.name.toList.contains '.', s.name.toList.contains '@')

/-- Four marks of a symbol tell the routes of resolution from each other. -/
theorem marks_symbol (hpath : v.scope.path ≠ "") {t : Target} (ht : t.IsPlain v.scope.path) :
    marks v.scope.path (t.symbol v bindings) = match t with
      | .value _ => (true, false, false, true)
      | .member _ => (true, false, false, false)
      | .imported .. => (false, false, false, false)
      | .method .. => (true, false, true, false)
      | .importedMethod .. => (false, false, true, false)
      | .errorText => (false, true, true, false) := by
  cases t with
  | value name =>
    have := dot_not_mem_bindingPlace bindings name
    simp [marks, symbol, hpath, ht.1, this]
  | member name => simp [marks, symbol, hpath, ht.1, ht.2]
  | imported path name => simp [marks, symbol, ht.1, ht.2.1, ht.2.2.1, ht.2.2.2]
  | method type name => simp [marks, symbol, hpath, ht.1.2, ht.2.2]
  | importedMethod path type name => simp [marks, symbol, ht.1, ht.2.1, ht.2.2.1.2, ht.2.2.2.2]
  | errorText => simp [marks, symbol, Ne.symm hpath]

/-- Different targets have different symbols. -/
theorem symbol_injective (hpath : v.scope.path ≠ "") {t t' : Target} (ht : t.IsPlain v.scope.path)
    (ht' : t'.IsPlain v.scope.path) (h : t.symbol v bindings = t'.symbol v bindings) : t = t' := by
  have hmarks := congrArg (marks v.scope.path) h
  rw [marks_symbol hpath ht, marks_symbol hpath ht'] at hmarks
  -- The marks tell the kinds of targets apart, so only targets of one kind are left.
  cases t <;> cases t' <;> simp only [Prod.mk.injEq, reduceCtorEq, and_false, false_and] at hmarks
  case value.value name name' =>
    have hname := congrArg (fun s ↦ s.name.toList) h
    simp only [symbol, String.toList_append, List.append_assoc] at hname
    rw [String.ext (append_mark_inj_left ht.2 ht'.2 hname).1]
  case member.member => rw [(SymbolId.mk.inj h).2]
  case imported.imported => rw [(SymbolId.mk.inj h).1, (SymbolId.mk.inj h).2]
  case method.method =>
    obtain ⟨htype, hname⟩ := append_dot_inj ht.1 ht'.1 (SymbolId.mk.inj h).2
    rw [htype, hname]
  case importedMethod.importedMethod =>
    obtain ⟨htype, hname⟩ := append_dot_inj ht.2.2.1 ht'.2.2.1 (SymbolId.mk.inj h).2
    rw [(SymbolId.mk.inj h).1, htype, hname]
  case errorText.errorText => rfl

end Target

/-- Callees of the form `f` or `x.m` with plain names. -/
inductive PlainCallee : Expr → Prop where
  | name {f : String} (hf : IsPlain f) : PlainCallee (.ident f)
  | selector {x m : String} (hx : IsPlain x) (hm : IsPlain m) : PlainCallee (.selector (.ident x) m)

theorem importPath?_mem {scope : Scope} {file : SourceFile} {name path : String}
    (h : (FileView.ofFile scope file).importPath? name = some path) :
    ∃ i ∈ file.imports, i.path = path := by
  obtain ⟨entry, hfind, rfl⟩ := Option.map_eq_some_iff.mp h
  have hmem := List.mem_reverse.mp (List.mem_of_find?_eq_some hfind)
  obtain ⟨i, hi, hentry⟩ := List.mem_filterMap.mp hmem
  obtain ⟨_, _, rfl⟩ := Option.map_eq_some_iff.mp hentry
  exact ⟨i, hi, rfl⟩

/-- Targets are made of plain names, if the callee and the imports are. -/
theorem Denotes.isPlain {scope : Scope} {file : SourceFile} {bindings : List Binding} {c : Expr}
    {t : Target} (h : Denotes (FileView.ofFile scope file) bindings c t)
    (himports : ∀ i ∈ file.imports, i.path ≠ "" ∧ i.path ≠ scope.path) (hc : PlainCallee c) :
    t.IsPlain scope.path := by
  have hpath {name path : String} (h : (FileView.ofFile scope file).importPath? name = some path) :
      path ≠ "" ∧ path ≠ scope.path := by
    obtain ⟨i, hi, rfl⟩ := importPath?_mem h
    exact himports i hi
  cases hc with
  | name hf =>
    cases h with
    | value => exact hf
    | member => exact hf
  | selector hx hm =>
    cases h with
    | imported _ himport => exact ⟨(hpath himport).1, (hpath himport).2, hm⟩
    | methodExpression => exact ⟨hx, hm⟩
    | method _ htype => exact ⟨isPlain_of_isName htype.2.1, hm⟩
    | importedMethod _ htype himport =>
      exact ⟨(hpath himport).1, (hpath himport).2, isPlain_of_isName htype.2.2, hm⟩
    | errorText => trivial

/-- Two callees that resolve have the same symbol exactly if they denote the same target, and then
the same package too. -/
theorem symbol_eq_iff_same_target {scope : Scope} {file : SourceFile} {f : FunctionDecl}
    (hpath : scope.path ≠ "") (himports : ∀ i ∈ file.imports, i.path ≠ "" ∧ i.path ≠ scope.path)
    (herror : ∀ name, ("error", name) ∉ scope.methods) {c c' : Expr} (hc : PlainCallee c)
    (hc' : PlainCallee c') {symbol symbol' : SymbolId} {package package' : Option String}
    (h : (FileView.ofFile scope file).resolve f.bindings c = .object symbol package)
    (h' : (FileView.ofFile scope file).resolve f.bindings c' = .object symbol' package') :
    (symbol = symbol' ↔ ∃ target, Denotes (FileView.ofFile scope file) f.bindings c target ∧
      Denotes (FileView.ofFile scope file) f.bindings c' target) ∧
    (symbol = symbol' → package = package') := by
  have hexists {c : Expr} {symbol : SymbolId} {package : Option String} (hc : PlainCallee c)
      (h : (FileView.ofFile scope file).resolve f.bindings c = .object symbol package) :
      ∃ t, Denotes (FileView.ofFile scope file) f.bindings c t ∧
        t.callee (FileView.ofFile scope file) f.bindings = .object symbol package := by
    obtain ⟨t, ht⟩ : ∃ t, Denotes (FileView.ofFile scope file) f.bindings c t := by
      cases hc with
      | name => exact exists_denotes_ident h
      | selector => exact exists_denotes_selector h
    exact ⟨t, ht, (ht.resolve_eq herror).symm.trans h⟩
  obtain ⟨t, ht, hcallee⟩ := hexists hc h
  obtain ⟨t', ht', hcallee'⟩ := hexists hc' h'
  have hsame (heq : symbol = symbol') : t = t' := by
    have hsymbol : t.symbol (FileView.ofFile scope file) f.bindings =
        t'.symbol (FileView.ofFile scope file) f.bindings := by
      rw [(Callee.object.inj hcallee).1, (Callee.object.inj hcallee').1, heq]
    exact Target.symbol_injective hpath (ht.isPlain himports hc) (ht'.isPlain himports hc') hsymbol
  refine ⟨⟨fun heq ↦ ⟨t, ht, hsame heq ▸ ht'⟩, ?_⟩, ?_⟩
  · rintro ⟨target, htarget, htarget'⟩
    have hresolve := (htarget.resolve_eq herror).trans (htarget'.resolve_eq herror).symm
    rw [h, h'] at hresolve
    exact (Callee.object.inj hresolve).1
  · intro heq
    rw [hsame heq, hcallee'] at hcallee
    exact (Callee.object.inj hcallee).2.symm

/-- A package with a method on `Store`. -/
def storeScope : Scope := ⟨"example.com/demo", ["helper"], ["hook"], ["Store"], [("Store", "Put")]⟩

def storeFile : SourceFile :=
  ⟨"a.go", "demo", [⟨"example.com/errs", none, ⟨3, 8, 20⟩⟩], ["Store"], ["hook"], []⟩

/-- A function with a parameter whose type is an instantiation behind a pointer. -/
def storeFunction : FunctionDecl :=
  ⟨"Work", none, ⟨9, 1, 80⟩, [⟨["s"], "*Store[int]", false⟩], none, [],
    [⟨"s", "*Store[int]", ⟨9, 10, 89⟩⟩]⟩

/-- A method called on a variable is the method of the method expression, and neither is the function
of that name in an imported package. -/
theorem symbol_eq_iff_same_target_storeFunction :
    let view := FileView.ofFile storeScope storeFile
    let method := Expr.selector (.ident "s") "Put"
    let expression := Expr.selector (.ident "Store") "Put"
    let imported := Expr.selector (.ident "errs") "Put"
    (∃ target, Denotes view storeFunction.bindings method target ∧
      Denotes view storeFunction.bindings expression target) ∧
    ¬ ∃ target, Denotes view storeFunction.bindings method target ∧
      Denotes view storeFunction.bindings imported target := by
  intro view method expression imported
  have hput : view.resolve storeFunction.bindings method =
      .object ⟨"example.com/demo", "Store.Put"⟩ (some "example.com/demo") := by decide +kernel
  have hexpression : view.resolve storeFunction.bindings expression =
      .object ⟨"example.com/demo", "Store.Put"⟩ (some "example.com/demo") := by decide +kernel
  have himported : view.resolve storeFunction.bindings imported =
      .object ⟨"example.com/errs", "Put"⟩ (some "example.com/errs") := by decide +kernel
  have hpath : storeScope.path ≠ "" := by decide
  have himports : ∀ i ∈ storeFile.imports, i.path ≠ "" ∧ i.path ≠ storeScope.path := by
    decide +kernel
  have herror (name : String) : ("error", name) ∉ storeScope.methods := by simp [storeScope]
  have hmethodPlain : PlainCallee method := .selector (by decide) (by decide)
  constructor
  · exact (symbol_eq_iff_same_target hpath himports herror hmethodPlain
      (.selector (by decide) (by decide)) hput hexpression).1.mp rfl
  · intro hsame
    have heq := (symbol_eq_iff_same_target hpath himports herror hmethodPlain
      (.selector (by decide) (by decide)) hput himported).1.mpr hsame
    exact absurd heq (by decide +kernel)

end GoComplexity
