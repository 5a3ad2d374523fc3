import SourceModel.Proofs.Chain
import SourceModel.Proofs.Loading
import SourceModel.Resolution.Lookup

/-!
# What a simple name stands for

The rules for a name without dots, stated without a search: which declaration, import or namespace
each rule picks, and that the first rule that applies decides (`Lookup.rules`). In a loaded project
no two declarations share a qualified name, so a nested or top-level type is known by its name and
by what is around it, and the order in which a search meets it does not matter.
-/

namespace SourceModel

/-! ## Declarations by container and name -/

namespace Project.Loaded

variable {p : Project} {u v : SourceUnit} {i j : Nat} {name : String}

theorem wellFormed (h : p.Loaded) (hu : p.unit? i = some u) : u.WellFormed :=
  (h.units u (List.mem_of_getElem? hu)).1

/-- Declarations of one name in one package, with the same names around them, are the same. -/
theorem eq_of_names_eq (h : p.Loaded) (hu : p.unit? i = some u) (hv : p.unit? j = some v)
    {a b : Nat} {d e : Declaration} (ha : u.decl? a = some d) (hb : v.decl? b = some e)
    (hpackage : u.package = v.package) (hname : d.name = e.name)
    (haround : (u.chain d.container).map (·.2.name) = (v.chain e.container).map (·.2.name)) :
    (⟨i, a⟩ : DeclId) = ⟨j, b⟩ := by
  have hq : u.qualifiedName a = v.qualifiedName b := by
    rw [SourceUnit.qualifiedName_eq (h.wellFormed hu) ha,
      SourceUnit.qualifiedName_eq (h.wellFormed hv) hb, hpackage, haround, hname]
  have hlt : ∀ {w : SourceUnit} {k : Nat} {x : Declaration}, w.decl? k = some x →
      k < w.typeCount := fun hk => (List.getElem?_eq_some_iff.mp hk).1
  exact h.distinct _ _ (v.qualifiedName b)
    ⟨u, hu, (SourceUnit.isFullName_iff (h.wellFormed hu)).mpr ⟨hlt ha, hq⟩⟩
    ⟨v, hv, (SourceUnit.isFullName_iff (h.wellFormed hv)).mpr ⟨hlt hb, rfl⟩⟩

theorem isNamedIn_unique (h : p.Loaded) (hu : p.unit? i = some u) {c : Container} {a b : Nat}
    (ha : u.IsNamedIn c name a) (hb : u.IsNamedIn c name b) : a = b := by
  obtain ⟨d, hd, hdc, hdn⟩ := ha
  obtain ⟨e, he, hec, hen⟩ := hb
  have heq := h.eq_of_names_eq hu hu hd he rfl (hdn.trans hen.symm) (by rw [hdc, hec])
  exact (DeclId.mk.inj heq).2

/-- A nested type is found by its name. -/
theorem findNested?_eq_some_iff (h : p.Loaded) (hu : p.unit? i = some u) {id inner : Nat} :
    u.findNested? id name = some inner ↔ u.IsNamedIn (.type id) name inner := by
  rw [← SourceUnit.find?_entries_eq_some_iff (h.wellFormed hu) fun a b => h.isNamedIn_unique hu,
    SourceUnit.entries_type]
  unfold SourceUnit.findNested?
  cases u.decl? id <;> simp

/-- A top-level type is found by its name. -/
theorem findTopLevel?_eq_some_iff (h : p.Loaded) (hu : p.unit? i = some u) {id : Nat} :
    u.findTopLevel? name = some id ↔ u.IsNamedIn .unit name id := by
  rw [← SourceUnit.find?_entries_eq_some_iff (h.wellFormed hu) fun a b => h.isNamedIn_unique hu]
  rfl

end Project.Loaded

/-! ## The rules -/

/-- `a` is what the first of the rules that apply gives. -/
inductive Decides {α : Type} : List (α → Prop) → α → Prop where
  | first {rule : α → Prop} {rules : List (α → Prop)} {a : α} : rule a → Decides (rule :: rules) a
  | later {rule : α → Prop} {rules : List (α → Prop)} {a : α} : (∀ b, ¬ rule b) →
      Decides rules a → Decides (rule :: rules) a

theorem Decides.unique {α : Type} {rules : List (α → Prop)} {a b : α}
    (hrules : ∀ rule ∈ rules, ∀ a b, rule a → rule b → a = b) (ha : Decides rules a)
    (hb : Decides rules b) : a = b := by
  induction ha with
  | first hr =>
    cases hb with
    | first hr' => exact hrules _ (.head _) _ _ hr hr'
    | later hnone _ => exact absurd hr (hnone _)
  | later hnone _ ih =>
    cases hb with
    | first hr => exact absurd hr (hnone _)
    | later _ hb => exact ih (fun rule hmem => hrules rule (.tail _ hmem)) hb

namespace Lookup

variable (p : Project) (u : SourceUnit) (scope : Scope) (name : String)

/-- `index` is the least index of a type parameter of the name. -/
def IsFirstTypeParam (d : Declaration) (index : Nat) : Prop :=
  (∃ t, d.typeParams[index]? = some t ∧ t.name = name) ∧
    ∀ i < index, ∀ t, d.typeParams[i]? = some t → t.name ≠ name

/-- A type parameter of the innermost type that has one of the name. -/
def ByTypeParam : Target → Prop :=
  u.Innermost scope.container fun owner d t =>
    ∃ index, IsFirstTypeParam name d index ∧ t = .typeParam ⟨scope.unit, owner⟩ index

/-- The innermost type that has the name itself, or else has a type of the name nested in it. -/
def ByEnclosing : Target → Prop :=
  u.Innermost scope.container fun level d t =>
    d.name = name ∧ t = .declared ⟨scope.unit, level⟩ ∨
    d.name ≠ name ∧ ∃ inner, u.IsNamedIn (.type level) name inner ∧
      t = .declared ⟨scope.unit, inner⟩

/-- The import is of a single type, and the last segment is the name. -/
def Imports (i : Import) : Prop :=
  i.kind = .single ∧ Name.lastSegment i.name = name

instance (i : Import) : Decidable (Imports name i) :=
  inferInstanceAs (Decidable (_ ∧ _))

/-- The type that the first import of the name imports, a declared one if there is one. -/
def ByImport (t : Target) : Prop :=
  ∃ before i after, u.imports = before ++ i :: after ∧ Imports name i ∧
    (∀ other ∈ before, ¬ Imports name other) ∧
    ((∃ id, Project.Named p.units id i.name ∧ t = .declared id) ∨
      (∀ id, ¬ Project.Named p.units id i.name) ∧ t = .external i.name)

/-- `id` is a top-level type of the name in some unit of the package, or in one without a package
if none is given. -/
def InPackage (package : Option String) (id : DeclId) : Prop :=
  ∃ v, p.unit? id.unit = some v ∧ v.package = package ∧ v.IsNamedIn .unit name id.decl

def BySamePackage (t : Target) : Prop :=
  ∃ id, InPackage p name u.package id ∧ t = .declared id

def ByCore (t : Target) : Prop :=
  name ∈ coreTypes ∧ t = .external ("java.lang" ++ "." ++ name)

/-- The namespaces that are imported as a whole, in the order of the imports. -/
def namespaces : List String :=
  (u.imports.filter fun i => i.kind = .wildcard).map (·.name)

/-- The name in a namespace, with a dot between them. The empty namespace adds nothing. -/
def inNamespace (ns : String) : String :=
  if ns = "" then name else ns ++ "." ++ name

def ByWildcard (t : Target) : Prop :=
  ∃ ns, namespaces u = [ns] ∧ t = .external (inNamespace name ns)

def ByPackage (t : Target) : Prop :=
  namespaces u = [] ∧ t = .external (inNamespace name (u.package.getD ""))

def Ambiguous (e : LookupError) : Prop :=
  2 ≤ (namespaces u).length ∧ e = .ambiguous scope name (namespaces u)

def Yields (rule : Target → Prop) (r : Except LookupError Target) : Prop :=
  ∃ t, rule t ∧ r = .ok t

/-- The rules for simple names, the strongest first. -/
def rules : List (Except LookupError Target → Prop) :=
  [Yields (ByTypeParam u scope name), Yields (ByEnclosing u scope name),
    Yields (ByImport p u name), Yields (BySamePackage p u name), Yields (ByCore name),
    Yields (ByWildcard u name), Yields (ByPackage u name),
    fun r => ∃ e, Ambiguous u scope name e ∧ r = .error e]

/-! ## Each search follows its rule -/

variable {p u scope name} {t : Target}

theorem findIdx?_eq_some_iff {d : Declaration} {index : Nat} :
    d.typeParams.findIdx? (·.name == name) = some index ↔ IsFirstTypeParam name d index := by
  rw [List.findIdx?_eq_some_iff_getElem]
  constructor
  · rintro ⟨hi, hname, hmin⟩
    refine ⟨⟨d.typeParams[index], List.getElem?_eq_getElem hi, by simpa using hname⟩, ?_⟩
    intro i hlt t ht
    obtain ⟨hi', rfl⟩ := List.getElem?_eq_some_iff.mp ht
    simpa using hmin i hlt
  · rintro ⟨⟨t, ht, hname⟩, hmin⟩
    obtain ⟨hi, rfl⟩ := List.getElem?_eq_some_iff.mp ht
    refine ⟨hi, by simpa using hname, ?_⟩
    intro i hlt
    simpa using hmin i hlt _ (List.getElem?_eq_getElem (Nat.lt_trans hlt hi))

theorem typeParam?_eq_some_iff (hu : u.WellFormed) :
    typeParam? u scope name = some t ↔ ByTypeParam u scope name t := by
  refine SourceUnit.findSome?_chain_eq_some_iff hu fun id d _ t => ?_
  rw [Option.map_eq_some_iff]
  simp only [findIdx?_eq_some_iff]
  exact exists_congr fun index => and_congr_right fun _ => eq_comm

theorem enclosing?_eq_some_iff (hp : p.Loaded) (hu : p.unit? scope.unit = some u) :
    enclosing? u scope name = some t ↔ ByEnclosing u scope name t := by
  have hmap : enclosing? u scope name = (u.chain scope.container).findSome? fun x =>
      (if x.2.name == name then some x.1 else u.findNested? x.1 name).map
        fun id => .declared ⟨scope.unit, id⟩ := List.map_findSome?
  rw [hmap]
  refine SourceUnit.findSome?_chain_eq_some_iff (hp.wellFormed hu) fun id d _ t => ?_
  by_cases hn : d.name = name
  · simp [hn, eq_comm]
  · simp only [beq_iff_eq, hn, if_false, Option.map_eq_some_iff, hp.findNested?_eq_some_iff hu,
      false_and, false_or, ne_eq, not_false_eq_true, true_and]
    exact exists_congr fun inner => and_congr_right fun _ => eq_comm

theorem find?_singles (is : List Import) (name : String) :
    (is.filter (!·.isWildcard)).find? (fun i => Name.simple i.name == name) =
      is.find? (Imports name ·) := by
  rw [List.find?_filter]
  congr 1
  funext i
  rw [Name.simple_eq_lastSegment, decide_eq_decide]
  unfold Imports Import.isWildcard
  cases i.kind <;> simp

theorem findImport?_eq_find? (u : SourceUnit) (name : String) :
    u.findImport? name = u.imports.find? (Imports name ·) :=
  find?_singles u.imports name

theorem findImport?_eq_some_iff {i : Import} :
    u.findImport? name = some i ↔ ∃ before after, u.imports = before ++ i :: after ∧
      Imports name i ∧ ∀ other ∈ before, ¬ Imports name other := by
  rw [findImport?_eq_find?, List.find?_eq_some_iff_append]
  simp only [decide_eq_true_eq, Bool.not_eq_true', decide_eq_false_iff_not]
  constructor
  · rintro ⟨hi, before, after, himp, hbefore⟩
    exact ⟨before, after, himp, hi, hbefore⟩
  · rintro ⟨before, after, himp, hi, hbefore⟩
    exact ⟨hi, before, after, himp, hbefore⟩

theorem imported?_eq (p : Project) (u : SourceUnit) (name : String) :
    imported? p u name = (u.findImport? name).map fun i =>
      (p.findType? i.name).elim (.external i.name) Target.declared := by
  unfold imported?
  congr 1
  funext i
  cases p.findType? i.name <;> rfl

theorem imported?_eq_some_iff (hp : p.Loaded) :
    imported? p u name = some t ↔ ByImport p u name t := by
  have htarget : ∀ i : Import,
      (p.findType? i.name).elim (.external i.name) Target.declared = t ↔
      (∃ id, Project.Named p.units id i.name ∧ t = .declared id) ∨
        (∀ id, ¬ Project.Named p.units id i.name) ∧ t = .external i.name := by
    intro i
    simp only [← hp.findType?_eq_some_iff]
    cases p.findType? i.name <;> simp [eq_comm]
  rw [imported?_eq, Option.map_eq_some_iff]
  simp only [findImport?_eq_some_iff]
  constructor
  · rintro ⟨i, ⟨before, after, himp, hi, hbefore⟩, ht⟩
    exact ⟨before, i, after, himp, hi, hbefore, (htarget i).mp ht⟩
  · rintro ⟨before, i, after, himp, hi, hbefore, ht⟩
    exact ⟨i, ⟨before, after, himp, hi, hbefore⟩, (htarget i).mpr ht⟩

/-- The top-level types of one package have different names. -/
theorem inPackage_unique (hp : p.Loaded) {package : Option String} {a b : DeclId}
    (ha : InPackage p name package a) (hb : InPackage p name package b) : a = b := by
  obtain ⟨v, hv, hvp, d, hd, hdc, hdn⟩ := ha
  obtain ⟨w, hw, hwp, e, he, hec, hen⟩ := hb
  refine hp.eq_of_names_eq hv hw hd he (hvp.trans hwp.symm) (hdn.trans hen.symm) ?_
  rw [hdc, hec, SourceUnit.chain_unit, SourceUnit.chain_unit]

theorem mem_unitsOf_iff {package : Option String} {v : SourceUnit} {i : Nat} :
    (v, i) ∈ p.unitsOf package ↔ p.unit? i = some v ∧ v.package = package := by
  unfold Project.unitsOf Project.unit?
  rw [List.mem_filter, List.mk_mem_zipIdx_iff_getElem?, beq_iff_eq]

theorem samePackage?_eq_some_iff (hp : p.Loaded) :
    samePackage? p u name = some t ↔ BySamePackage p u name t := by
  have hfound : ∀ t, samePackage? p u name = some t → BySamePackage p u name t := by
    intro t ht
    obtain ⟨⟨v, i⟩, hmem, hv⟩ := List.exists_of_findSome?_eq_some ht
    obtain ⟨hi, hpackage⟩ := mem_unitsOf_iff.mp hmem
    obtain ⟨id, hid, rfl⟩ := Option.map_eq_some_iff.mp hv
    exact ⟨⟨i, id⟩, ⟨v, hi, hpackage, (hp.findTopLevel?_eq_some_iff hi).mp hid⟩, rfl⟩
  refine ⟨hfound t, ?_⟩
  rintro ⟨id, hid, rfl⟩
  cases hs : samePackage? p u name with
  | none =>
    obtain ⟨v, hv, hpackage, hn⟩ := hid
    have hnone := List.findSome?_eq_none_iff.mp hs (v, id.unit) (mem_unitsOf_iff.mpr ⟨hv, hpackage⟩)
    rw [Option.map_eq_none_iff, ((hp.findTopLevel?_eq_some_iff hv).mpr hn)] at hnone
    cases hnone
  | some t =>
    obtain ⟨id', hid', rfl⟩ := hfound t hs
    rw [inPackage_unique hp hid' hid]

theorem core?_eq_some_iff : core? name = some t ↔ ByCore name t := by
  unfold core? ByCore isCoreType
  rw [Option.ite_none_right_eq_some, List.contains_iff_mem]
  have hq : Name.qualify (some coreNamespace) name = "java.lang" ++ "." ++ name := rfl
  rw [hq]
  simp [eq_comm]

/-! ## The first rule that applies -/

variable {r : Except LookupError Target} {rules : List (Except LookupError Target → Prop)}

/-- A search that follows a rule stands for it: if it finds nothing, the rules after it decide. -/
theorem elim_eq_iff_decides {found : Option Target} {rule : Target → Prop}
    {other : Except LookupError Target} (h : ∀ t, found = some t ↔ rule t)
    (hother : other = r ↔ Decides rules r) :
    found.elim other .ok = r ↔ Decides (Yields rule :: rules) r := by
  cases found with
  | some t =>
    have ht : rule t := (h t).mp rfl
    show .ok t = r ↔ _
    constructor
    · rintro rfl
      exact .first ⟨t, ht, rfl⟩
    · intro hd
      cases hd with
      | first hr =>
        obtain ⟨t', ht', rfl⟩ := hr
        rw [Option.some.inj ((h t').mpr ht')]
      | later hnone _ => exact absurd ⟨t, ht, rfl⟩ (hnone (.ok t))
  | none =>
    have hnone : ∀ r, ¬ Yields rule r := by
      rintro r ⟨t, ht, -⟩
      cases (h t).mpr ht
    show other = r ↔ _
    rw [hother]
    constructor
    · intro hd
      exact .later hnone hd
    · intro hd
      cases hd with
      | first hr => exact absurd hr (hnone r)
      | later _ hd => exact hd

theorem elim_orElse {a b : Option Target} {other : Except LookupError Target} :
    (a <|> b).elim other .ok = a.elim (b.elim other .ok) .ok := by
  cases a <;> rfl

theorem resolveSimple_eq_elim (hu : p.unit? scope.unit = some u) :
    p.resolveSimple scope name =
      (typeParam? u scope name <|> enclosing? u scope name <|> imported? p u name <|>
        samePackage? p u name <|> core? name).elim (outside u scope name) .ok := by
  simp only [Project.resolveSimple, hu]
  split <;> next h => rw [h]; rfl

theorem map_wildcardImports (u : SourceUnit) :
    u.wildcardImports.map (·.name) = namespaces u := by
  have hkind : Import.isWildcard = fun i => decide (i.kind = .wildcard) := by
    funext i
    unfold Import.isWildcard
    cases i.kind <;> rfl
  unfold SourceUnit.wildcardImports namespaces
  rw [hkind]

theorem qualify_eq_inNamespace (ns : Option String) (name : String) :
    Name.qualify ns name = inNamespace name (ns.getD "") := by
  cases ns with
  | none => rfl
  | some q => simp [Name.qualify, inNamespace]

/-- Outside the project the number of namespaces decides. -/
theorem outside_eq (u : SourceUnit) (scope : Scope) (name : String) :
    outside u scope name =
      match namespaces u with
      | [] => .ok (.external (inNamespace name (u.package.getD "")))
      | [ns] => .ok (.external (inNamespace name ns))
      | nss => .error (.ambiguous scope name nss) := by
  rw [← map_wildcardImports]
  simp only [outside, qualify_eq_inNamespace]
  match u.wildcardImports with
  | [] => rfl
  | [i] => rfl
  | i :: j :: is => rfl

theorem decides_outside :
    Decides [Yields (ByWildcard u name), Yields (ByPackage u name),
      fun r => ∃ e, Ambiguous u scope name e ∧ r = .error e] (outside u scope name) := by
  rw [outside_eq]
  unfold ByWildcard ByPackage Ambiguous
  match namespaces u with
  | [] =>
    refine .later ?_ (.first ⟨_, ⟨rfl, rfl⟩, rfl⟩)
    rintro r ⟨t, ⟨ns, hns, -⟩, -⟩
    cases hns
  | [ns] => exact .first ⟨_, ⟨ns, rfl, rfl⟩, rfl⟩
  | ns :: ns' :: nss =>
    refine .later ?_ (.later ?_ (.first ⟨_, ⟨?_, rfl⟩, rfl⟩))
    · rintro r ⟨t, ⟨k, hk, -⟩, -⟩
      cases hk
    · rintro r ⟨t, ⟨hk, -⟩, -⟩
      cases hk
    · show 2 ≤ nss.length + 2
      omega

theorem outside_eq_iff_decides :
    outside u scope name = r ↔
      Decides [Yields (ByWildcard u name), Yields (ByPackage u name),
        fun r => ∃ e, Ambiguous u scope name e ∧ r = .error e] r := by
  constructor
  · rintro rfl
    exact decides_outside
  · intro h
    refine decides_outside.unique ?_ h
    intro rule hmem r r' hr hr'
    simp only [List.mem_cons, List.not_mem_nil, or_false] at hmem
    obtain rfl | rfl | rfl := hmem
    · obtain ⟨t, ⟨ns, hns, rfl⟩, rfl⟩ := hr
      obtain ⟨t, ⟨ns', hns', rfl⟩, rfl⟩ := hr'
      rw [hns] at hns'
      cases hns'
      rfl
    · obtain ⟨t, ⟨-, rfl⟩, rfl⟩ := hr
      obtain ⟨t, ⟨-, rfl⟩, rfl⟩ := hr'
      rfl
    · obtain ⟨e, ⟨-, rfl⟩, rfl⟩ := hr
      obtain ⟨e, ⟨-, rfl⟩, rfl⟩ := hr'
      rfl

theorem resolveSimple_eq_iff_decides (hp : p.Loaded) (hu : p.unit? scope.unit = some u) :
    p.resolveSimple scope name = r ↔ Decides (Lookup.rules p u scope name) r := by
  rw [resolveSimple_eq_elim hu, elim_orElse, elim_orElse, elim_orElse, elim_orElse]
  exact elim_eq_iff_decides (fun t => typeParam?_eq_some_iff (hp.wellFormed hu)) <|
    elim_eq_iff_decides (fun t => enclosing?_eq_some_iff hp hu) <|
    elim_eq_iff_decides (fun t => imported?_eq_some_iff hp) <|
    elim_eq_iff_decides (fun t => samePackage?_eq_some_iff hp) <|
    elim_eq_iff_decides (fun t => core?_eq_some_iff) outside_eq_iff_decides

end Lookup

namespace Project

variable {p : Project} {u : SourceUnit} {scope : Scope} {name : String}

theorem resolve_eq_resolveSimple (h : '.' ∉ name.toList) :
    p.resolve scope name = p.resolveSimple scope name := by
  unfold resolve
  rw [Name.segments_of_not_mem h]
  rfl

/-- A name without dots stands for what the first rule that applies gives, and at most one type
can be meant by the rule for types of the same package. -/
theorem resolve_simple_iff {strict : Bool} {sources : List (List Event)}
    (hp : load strict sources = .ok p) (hu : p.unit? scope.unit = some u)
    (hname : '.' ∉ name.toList) :
    (∀ r, p.resolve scope name = r ↔ Decides (Lookup.rules p u scope name) r) ∧
    ∀ id id', Lookup.InPackage p name u.package id → Lookup.InPackage p name u.package id' →
      id = id' := by
  have hl := loaded_of_load hp
  refine ⟨fun r => ?_, fun id id' => Lookup.inPackage_unique hl⟩
  rw [resolve_eq_resolveSimple hname]
  exact Lookup.resolveSimple_eq_iff_decides hl hu

/-- In a type nested in a generic one, the type parameter hides the nested type of the same name and
an import of that name. On the top level of that source the imports decide, and for other names the
only wildcard. A source without wildcards has its package decide, one with two cannot tell. -/
theorem resolve_simple_shadowed :
    ∃ p u v w, load true [[.package "a", .importName "b.Inner" .single,
        .importName "c.d.Other" .single, .importName "x.y" .wildcard,
        .enterType .classType "Outer", .typeParam "Inner", .enterType .classType "Inner",
        .exitType, .exitType],
        [.package "b", .enterType .classType "Inner", .exitType],
        [.importName "x" .wildcard, .importName "y" .wildcard]] = .ok p ∧
      p.unit? 0 = some u ∧ p.unit? 1 = some v ∧ p.unit? 2 = some w ∧
      p.resolve ⟨0, .type 1⟩ "Inner" = .ok (.typeParam ⟨0, 0⟩ 0) ∧
      Decides (Lookup.rules p u ⟨0, .type 1⟩ "Inner") (.ok (.typeParam ⟨0, 0⟩ 0)) ∧
      p.resolve ⟨0, .unit⟩ "Inner" = .ok (.declared ⟨1, 0⟩) ∧
      Decides (Lookup.rules p u ⟨0, .unit⟩ "Inner") (.ok (.declared ⟨1, 0⟩)) ∧
      p.resolve ⟨0, .unit⟩ "Other" = .ok (.external "c.d.Other") ∧
      Decides (Lookup.rules p u ⟨0, .unit⟩ "Other") (.ok (.external "c.d.Other")) ∧
      p.resolve ⟨0, .unit⟩ "Foo" = .ok (.external "x.y.Foo") ∧
      Decides (Lookup.rules p u ⟨0, .unit⟩ "Foo") (.ok (.external "x.y.Foo")) ∧
      p.resolve ⟨1, .unit⟩ "Foo" = .ok (.external "b.Foo") ∧
      Decides (Lookup.rules p v ⟨1, .unit⟩ "Foo") (.ok (.external "b.Foo")) ∧
      p.resolve ⟨2, .unit⟩ "Foo" = .error (.ambiguous ⟨2, .unit⟩ "Foo" ["x", "y"]) ∧
      Decides (Lookup.rules p w ⟨2, .unit⟩ "Foo")
        (.error (.ambiguous ⟨2, .unit⟩ "Foo" ["x", "y"])) := by
  obtain ⟨p, u, v, w, hp, hu, hv, hw, hparam, himport, hother, hwildcard, hpackage, htwo⟩ :
      ∃ p u v w, load true [[.package "a", .importName "b.Inner" .single,
        .importName "c.d.Other" .single, .importName "x.y" .wildcard,
        .enterType .classType "Outer", .typeParam "Inner", .enterType .classType "Inner",
        .exitType, .exitType],
        [.package "b", .enterType .classType "Inner", .exitType],
        [.importName "x" .wildcard, .importName "y" .wildcard]] = .ok p ∧
      p.unit? 0 = some u ∧ p.unit? 1 = some v ∧ p.unit? 2 = some w ∧
      p.resolve ⟨0, .type 1⟩ "Inner" = .ok (.typeParam ⟨0, 0⟩ 0) ∧
      p.resolve ⟨0, .unit⟩ "Inner" = .ok (.declared ⟨1, 0⟩) ∧
      p.resolve ⟨0, .unit⟩ "Other" = .ok (.external "c.d.Other") ∧
      p.resolve ⟨0, .unit⟩ "Foo" = .ok (.external "x.y.Foo") ∧
      p.resolve ⟨1, .unit⟩ "Foo" = .ok (.external "b.Foo") ∧
      p.resolve ⟨2, .unit⟩ "Foo" = .error (.ambiguous ⟨2, .unit⟩ "Foo" ["x", "y"]) :=
    ⟨_, _, _, _,
      load_of_built (.cons (by rfl) (.cons (by rfl) (.cons (by rfl) .nil))) (by decide +kernel),
      by rfl, by rfl, by rfl, by decide +kernel, by decide +kernel, by decide +kernel,
      by decide +kernel, by decide +kernel, by decide +kernel⟩
  exact ⟨p, u, v, w, hp, hu, hv, hw,
    hparam, ((resolve_simple_iff hp hu (by decide)).1 _).mp hparam,
    himport, ((resolve_simple_iff hp hu (by decide)).1 _).mp himport,
    hother, ((resolve_simple_iff hp hu (by decide)).1 _).mp hother,
    hwildcard, ((resolve_simple_iff hp hu (by decide)).1 _).mp hwildcard,
    hpackage, ((resolve_simple_iff hp hv (by decide)).1 _).mp hpackage,
    htwo, ((resolve_simple_iff hp hw (by decide)).1 _).mp htwo⟩

end Project

end SourceModel
