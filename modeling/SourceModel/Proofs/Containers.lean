import SourceModel.Proofs.Edits
import SourceModel.Proofs.Preorder
import SourceModel.Proofs.ReducedForm

/-!
# Where names are looked up

Every named type and every annotation in a unit remembers a container, from which its name is
looked up. In a unit that is read from events this container is told by the place alone: what
stands in the supertypes of a declaration is looked up in the container of the declaration, all
else in the declaration itself, at any depth of a type or a value.

1. What is read in a container has only that container in it (`Ty.allIn_ofWritten`,
   `AnnotationUse.allIn_ofWrittenList`, `Expr.allIn_ofLeaves`); reduction brings in no other.
2. So every edit keeps the containers of a declaration right (`Draft.Edits.atHome`).
-/

namespace SourceModel

/-! ## Containers in types and values -/

mutual

/-- The containers of all named types in a type, qualifiers and arguments included. -/
def Ty.containers : Ty → List Container
  | .primitive _ => []
  | .named ty => ty.containers
  | .array component _ => component.containers

def NamedType.containers : NamedType → List Container
  | ⟨c, none, _, args⟩ => c :: TyArg.containersOfList args
  | ⟨c, some q, _, args⟩ => c :: (q.containers ++ TyArg.containersOfList args)

def TyArg.containers : TyArg → List Container
  | .type ty => ty.containers
  | .wildcard => []
  | .bounded _ bound => bound.containers

def TyArg.containersOfList : List TyArg → List Container
  | [] => []
  | a :: as => a.containers ++ TyArg.containersOfList as

end

mutual

/-- The containers of all annotations and all types in a value. -/
def Expr.containers : Expr → List Container
  | .list items => Expr.containersOfList items
  | .annotationUse use => use.containers
  | .creation target args => target.containers ++ Expr.containersOfList args
  | .literal _ | .name _ | .token _ | .unknown _ => []

def Expr.containersOfList : List Expr → List Container
  | [] => []
  | e :: es => e.containers ++ Expr.containersOfList es

/-- The container of an annotation and those in its values. -/
def AnnotationUse.containers : AnnotationUse → List Container
  | ⟨c, _, values⟩ => c :: AnnotationValue.containersOfList values

def AnnotationValue.containersOfList : List AnnotationValue → List Container
  | [] => []
  | ⟨_, value⟩ :: rest => value.containers ++ AnnotationValue.containersOfList rest

end

/-! ## Containers in declarations -/

def AnnotationUse.containersOfList (uses : List AnnotationUse) : List Container :=
  uses.flatMap (·.containers)

def TypeParam.containers (p : TypeParam) : List Container :=
  AnnotationUse.containersOfList p.annotations ++ p.bounds.flatMap (·.containers)

def Parameter.containers (p : Parameter) : List Container :=
  AnnotationUse.containersOfList p.annotations ++ p.ty.containers

def Method.containers (m : Method) : List Container :=
  AnnotationUse.containersOfList m.annotations ++ m.returnType.containers ++
    m.params.flatMap (·.containers)

def Constructor.containers (c : Constructor) : List Container :=
  AnnotationUse.containersOfList c.annotations ++ c.params.flatMap (·.containers)

def Field.containers (f : Field) : List Container :=
  AnnotationUse.containersOfList f.annotations ++ f.ty.containers ++
    f.initializer.toList.flatMap (·.containers)

def EnumConstant.containers (k : EnumConstant) : List Container :=
  AnnotationUse.containersOfList k.annotations

namespace Declaration

/-- The containers in the supertypes. -/
def supertypeContainers (x : Declaration) : List Container :=
  x.superclass.toList.flatMap (·.containers) ++ x.interfaces.flatMap (·.containers)

/-- The containers in all other parts: annotations, type parameters and members. -/
def innerContainers (x : Declaration) : List Container :=
  AnnotationUse.containersOfList x.annotations ++ x.typeParams.flatMap (·.containers) ++
    x.fields.flatMap (·.containers) ++ x.constants.flatMap (·.containers) ++
    x.constructors.flatMap (·.containers) ++ x.methods.flatMap (·.containers)

end Declaration

/-- All containers in a unit. -/
def SourceUnit.containers (u : SourceUnit) : List Container :=
  u.decls.flatMap fun x => x.container :: (x.supertypeContainers ++ x.innerContainers)

/-! ## One container only -/

/-- No other container occurs. -/
def AllIn (c : Container) (containers : List Container) : Prop :=
  ∀ k ∈ containers, k = c

section AllIn

variable {c : Container} {α : Type}

theorem allIn_nil : AllIn c [] := by
  intro k hk
  cases hk

theorem allIn_cons {ks : List Container} : AllIn c (c :: ks) ↔ AllIn c ks := by
  unfold AllIn
  simp

theorem allIn_append {ks ls : List Container} : AllIn c (ks ++ ls) ↔ AllIn c ks ∧ AllIn c ls :=
  List.forall_mem_append

theorem allIn_flatMap {l : List α} {f : α → List Container} :
    AllIn c (l.flatMap f) ↔ ∀ a ∈ l, AllIn c (f a) := by
  unfold AllIn
  simp only [List.mem_flatMap]
  exact ⟨fun h a ha k hk => h k ⟨a, ha, hk⟩, fun h k ⟨a, ha, hk⟩ => h a ha k hk⟩

end AllIn

/-! ### Types -/

theorem Ty.containers_arrayOf (ty : Ty) (dimension : Nat) :
    (ty.arrayOf dimension).containers = ty.containers := by
  unfold Ty.arrayOf
  split
  · rfl
  · cases ty <;> simp only [Ty.containers]

mutual

theorem Ty.allIn_ofWritten (c : Container) (ty : WrittenType) :
    AllIn c (Ty.ofWritten c ty).containers := by
  cases ty with
  | named segments =>
    rw [Ty.ofWritten]
    split
    · exact allIn_nil
    · have hnone : ∀ q, (none : Option NamedType) = some q → AllIn c q.containers := by nofun
      have hsegments := NamedType.allIn_ofSegments c none segments hnone
      cases hn : NamedType.ofSegments c none segments with
      | none => exact allIn_cons.mpr allIn_nil
      | some n => exact hsegments n hn
  | array component dimension =>
    rw [Ty.ofWritten, Ty.containers_arrayOf]
    exact Ty.allIn_ofWritten c component

theorem NamedType.allIn_ofSegments (c : Container) (qualifier : Option NamedType)
    (segments : List Segment) (hq : ∀ q, qualifier = some q → AllIn c q.containers) :
    ∀ n, NamedType.ofSegments c qualifier segments = some n → AllIn c n.containers := by
  cases segments with
  | nil =>
    rw [NamedType.ofSegments]
    exact hq
  | cons segment rest =>
    cases segment with
    | mk name args =>
      rw [NamedType.ofSegments]
      refine NamedType.allIn_ofSegments c _ rest ?_
      rintro q ⟨⟩
      have hargs := TyArg.allIn_ofWrittenList c args
      cases qualifier with
      | none => exact allIn_cons.mpr hargs
      | some q => exact allIn_cons.mpr (allIn_append.mpr ⟨hq q rfl, hargs⟩)

theorem TyArg.allIn_ofWritten (c : Container) (arg : WrittenArg) :
    AllIn c (TyArg.ofWritten c arg).containers := by
  cases arg with
  | type ty => exact Ty.allIn_ofWritten c ty
  | wildcard => exact allIn_nil
  | bounded kind bound => exact Ty.allIn_ofWritten c bound

theorem TyArg.allIn_ofWrittenList (c : Container) (args : List WrittenArg) :
    AllIn c (TyArg.containersOfList (TyArg.ofWrittenList c args)) := by
  cases args with
  | nil => exact allIn_nil
  | cons a as =>
    exact allIn_append.mpr ⟨TyArg.allIn_ofWritten c a, TyArg.allIn_ofWrittenList c as⟩

end

theorem NamedType.allIn_of_ofWritten {c : Container} {ty : WrittenType} {n : NamedType}
    (h : Ty.ofWritten c ty = .named n) : AllIn c n.containers := by
  have hall := Ty.allIn_ofWritten c ty
  rw [h] at hall
  exact hall

/-! ### Values -/

theorem Expr.allIn_containersOfList {c : Container} {items : List Expr} :
    AllIn c (Expr.containersOfList items) ↔ ∀ e ∈ items, AllIn c e.containers := by
  induction items with
  | nil => exact ⟨fun _ => List.forall_mem_nil _, fun _ => allIn_nil⟩
  | cons e es ih => rw [Expr.containersOfList, allIn_append, ih, List.forall_mem_cons]

/-- A rule keeps items or makes a literal of them. -/
theorem Expr.Step.mem {items next : List Expr} (h : Expr.Step items next) :
    ∀ e ∈ next, e ∈ items ∨ ∃ l, e = .literal l := by
  intro e he
  rcases h.cases with ⟨rfl, -⟩ | ⟨l, -, -, rfl⟩ | ⟨l, n, -, -, rfl⟩ | ⟨target, args, rfl, rfl⟩ |
    ⟨a, b, rest, rfl, rfl⟩
  · exact .inl (List.mem_cons_of_mem _ (List.mem_append_left _ he))
  · exact .inr ⟨l, List.mem_singleton.mp he⟩
  · exact .inr ⟨n, List.mem_singleton.mp he⟩
  · exact .inl (List.mem_cons_of_mem _ he)
  · rcases List.mem_cons.mp he with rfl | he
    · exact .inr ⟨_, rfl⟩
    · exact .inl (by simp [he])

theorem Expr.mem_of_mem_reduce {items : List Expr} :
    ∀ e ∈ Expr.reduce items, e ∈ items ∨ ∃ l, e = .literal l := by
  induction items using Expr.reduce.induct with
  | case1 items next h _ ih =>
    intro e he
    rw [Expr.reduce_of_some h] at he
    rcases ih e he with hmem | hlit
    · exact (Expr.reduceOnce?_eq_some_iff.mp h).mem e hmem
    · exact .inr hlit
  | case2 items h =>
    intro e he
    rw [Expr.reduce_of_none h] at he
    exact .inl he

theorem Expr.allIn_reduce {c : Container} {items : List Expr}
    (h : AllIn c (Expr.containersOfList items)) :
    AllIn c (Expr.containersOfList (Expr.reduce items)) := by
  rw [Expr.allIn_containersOfList] at h ⊢
  intro e he
  rcases Expr.mem_of_mem_reduce e he with hmem | ⟨l, rfl⟩
  · exact h e hmem
  · exact allIn_nil

theorem Expr.allIn_ofSequence {c : Container} {items : List Expr}
    (h : AllIn c (Expr.containersOfList items)) : AllIn c (Expr.ofSequence items).containers := by
  have hreduce := Expr.allIn_reduce h
  unfold Expr.ofSequence Expr.ofItems
  split
  · next e heq =>
    rw [heq, Expr.allIn_containersOfList] at hreduce
    exact hreduce e List.mem_cons_self
  · exact hreduce

mutual

theorem Leaf.allIn_items (c : Container) (l : Leaf) {items : List Expr}
    (h : l.items c = .ok items) : AllIn c (Expr.containersOfList items) := by
  cases l with
  | literal text =>
    obtain ⟨value, -, h⟩ := bind_eq_ok_iff.mp h
    cases h
    exact allIn_nil
  | name text =>
    cases h
    exact allIn_nil
  | token text =>
    cases h
    exact allIn_nil
  | creation target args =>
    obtain ⟨values, hvalues, h⟩ := bind_eq_ok_iff.mp h
    cases h
    have hargs := Leaf.allIn_values c args hvalues
    exact allIn_append.mpr ⟨allIn_append.mpr ⟨Ty.allIn_ofWritten c target, hargs⟩, allIn_nil⟩
  | group leaves =>
    obtain ⟨inner, hinner, h⟩ := bind_eq_ok_iff.mp h
    cases h
    exact Expr.allIn_reduce (Leaf.allIn_itemsOfList c leaves hinner)
  | array elements =>
    obtain ⟨values, hvalues, h⟩ := bind_eq_ok_iff.mp h
    cases h
    exact allIn_append.mpr ⟨Leaf.allIn_values c elements hvalues, allIn_nil⟩
  | annotationUse a =>
    obtain ⟨use, huse, h⟩ := bind_eq_ok_iff.mp h
    cases h
    exact allIn_append.mpr ⟨AnnotationUse.allIn_ofWritten c a huse, allIn_nil⟩
  | unknown code =>
    cases h
    exact allIn_nil

theorem Leaf.allIn_itemsOfList (c : Container) (ls : List Leaf) {items : List Expr}
    (h : Leaf.itemsOfList c ls = .ok items) : AllIn c (Expr.containersOfList items) := by
  cases ls with
  | nil =>
    cases h
    exact allIn_nil
  | cons l ls =>
    obtain ⟨first, hfirst, h⟩ := bind_eq_ok_iff.mp h
    obtain ⟨rest, hrest, h⟩ := bind_eq_ok_iff.mp h
    cases h
    have hl := Expr.allIn_containersOfList.mp (Leaf.allIn_items c l hfirst)
    have hls := Expr.allIn_containersOfList.mp (Leaf.allIn_itemsOfList c ls hrest)
    exact Expr.allIn_containersOfList.mpr (List.forall_mem_append.mpr ⟨hl, hls⟩)

theorem Leaf.allIn_values (c : Container) (sequences : List (List Leaf)) {values : List Expr}
    (h : Leaf.values c sequences = .ok values) : AllIn c (Expr.containersOfList values) := by
  cases sequences with
  | nil =>
    cases h
    exact allIn_nil
  | cons leaves rest =>
    obtain ⟨items, hitems, h⟩ := bind_eq_ok_iff.mp h
    obtain ⟨others, hothers, h⟩ := bind_eq_ok_iff.mp h
    cases h
    exact allIn_append.mpr ⟨Expr.allIn_ofSequence (Leaf.allIn_itemsOfList c leaves hitems),
      Leaf.allIn_values c rest hothers⟩

theorem AnnotationUse.allIn_ofWritten (c : Container) (a : WrittenAnnotationUse)
    {use : AnnotationUse} (h : AnnotationUse.ofWritten c a = .ok use) : AllIn c use.containers := by
  cases a with
  | mk name values =>
    obtain ⟨read, hread, h⟩ := bind_eq_ok_iff.mp h
    cases h
    exact allIn_cons.mpr (AnnotationValue.allIn_ofWrittenList c values hread)

theorem AnnotationValue.allIn_ofWrittenList (c : Container) (values : List WrittenValue)
    {read : List AnnotationValue} (h : AnnotationValue.ofWrittenList c values = .ok read) :
    AllIn c (AnnotationValue.containersOfList read) := by
  cases values with
  | nil =>
    cases h
    exact allIn_nil
  | cons value rest =>
    cases value with
    | mk name leaves =>
      obtain ⟨items, hitems, h⟩ := bind_eq_ok_iff.mp h
      obtain ⟨others, hothers, h⟩ := bind_eq_ok_iff.mp h
      cases h
      exact allIn_append.mpr ⟨Expr.allIn_ofSequence (Leaf.allIn_itemsOfList c leaves hitems),
        AnnotationValue.allIn_ofWrittenList c rest hothers⟩

end

theorem Expr.allIn_ofLeaves {c : Container} {leaves : List Leaf} {e : Expr}
    (h : Expr.ofLeaves c leaves = .ok e) : AllIn c e.containers := by
  obtain ⟨items, hitems, rfl⟩ := map_eq_ok_iff.mp h
  exact Expr.allIn_ofSequence (Leaf.allIn_itemsOfList c leaves hitems)

theorem AnnotationUse.allIn_ofWrittenList {c : Container} {as : List WrittenAnnotationUse}
    {uses : List AnnotationUse} (h : AnnotationUse.ofWrittenList c as = .ok uses) :
    AllIn c (AnnotationUse.containersOfList uses) := by
  induction as generalizing uses with
  | nil =>
    cases h
    exact allIn_nil
  | cons a as ih =>
    obtain ⟨first, hfirst, h⟩ := bind_eq_ok_iff.mp h
    obtain ⟨rest, hrest, h⟩ := bind_eq_ok_iff.mp h
    cases h
    exact allIn_append.mpr ⟨AnnotationUse.allIn_ofWritten c a hfirst, ih hrest⟩

/-! ## Declarations -/

section Parts

variable {α : Type} {P : α → Prop} {l l' more : List α}

theorem forall_mem_of_append (h : l' = l ∨ l' = l ++ more) (hl : ∀ a ∈ l, P a)
    (hmore : ∀ a ∈ more, P a) : ∀ a ∈ l', P a := by
  rcases h with rfl | rfl
  · exact hl
  · exact List.forall_mem_append.mpr ⟨hl, hmore⟩

theorem forall_mem_concat {a : α} (hl : ∀ b ∈ l, P b) (ha : P a) : ∀ b ∈ l ++ [a], P b :=
  List.forall_mem_append.mpr ⟨hl, List.forall_mem_singleton.mpr ha⟩

theorem forall_mem_modify {index : Nat} {f : α → α} (hl : ∀ a ∈ l, P a)
    (hf : ∀ a, P a → P (f a)) : ∀ a ∈ l.modify index f, P a := by
  intro a ha
  obtain ⟨i, hi⟩ := List.getElem?_of_mem ha
  rw [List.getElem?_modify] at hi
  obtain ⟨b, hb, rfl⟩ := Option.map_eq_some_iff.mp hi
  have hPb := hl b (List.mem_of_getElem? hb)
  split
  · exact hf b hPb
  · exact hPb

end Parts

namespace Body

variable {around inner : Container} {b : Body}

/-- The superclass is looked up around the declaration, all members inside it. -/
structure AtHome (around inner : Container) (b : Body) : Prop where
  superclass : ∀ s ∈ b.superclass.toList, AllIn around s.containers
  fields : ∀ f ∈ b.fields, AllIn inner f.containers
  constants : ∀ k ∈ b.constants, AllIn inner k.containers
  constructors : ∀ k ∈ b.constructors, AllIn inner k.containers

theorem atHome_empty (around inner : Container) (kind : Kind) :
    (empty kind).AtHome around inner := by
  constructor <;> cases kind <;> exact List.forall_mem_nil _

theorem AtHome.withSuperclass (h : b.AtHome around inner) {s : NamedType}
    (hs : AllIn around s.containers) : (b.withSuperclass s).AtHome around inner where
  superclass := by
    rcases superclass_withSuperclass b s with heq | heq
    · rw [heq]
      exact h.superclass
    · rw [heq]
      exact List.forall_mem_singleton.mpr hs
  fields := by rw [fields_withSuperclass]; exact h.fields
  constants := by rw [constants_withSuperclass]; exact h.constants
  constructors := by rw [constructors_withSuperclass]; exact h.constructors

theorem AtHome.addConstant (h : b.AtHome around inner) {k : EnumConstant}
    (hk : AllIn inner k.containers) : (b.addConstant k).AtHome around inner where
  superclass := by rw [superclass_addConstant]; exact h.superclass
  fields := by rw [fields_addConstant]; exact h.fields
  constants := forall_mem_of_append (constants_addConstant b k) h.constants
    (List.forall_mem_singleton.mpr hk)
  constructors := by rw [constructors_addConstant]; exact h.constructors

theorem AtHome.addFields (h : b.AtHome around inner) {fields : List Field}
    (hfields : ∀ f ∈ fields, AllIn inner f.containers) :
    (b.addFields fields).AtHome around inner where
  superclass := by rw [superclass_addFields]; exact h.superclass
  fields := forall_mem_of_append (fields_addFields b fields) h.fields hfields
  constants := by rw [constants_addFields]; exact h.constants
  constructors := by rw [constructors_addFields]; exact h.constructors

theorem AtHome.mapConstructors (h : b.AtHome around inner)
    {f : List Constructor → List Constructor}
    (hf : ∀ k ∈ f b.constructors, AllIn inner k.containers) :
    (b.mapConstructors f).AtHome around inner where
  superclass := by rw [superclass_mapConstructors]; exact h.superclass
  fields := by rw [fields_mapConstructors]; exact h.fields
  constants := by rw [constants_mapConstructors]; exact h.constants
  constructors := by
    rcases constructors_mapConstructors_or b f with heq | heq
    · rw [heq]
      exact h.constructors
    · rw [heq]
      exact hf

end Body

namespace Declaration

/-- The names in a declaration are looked up in the declaration itself, those of its supertypes in
what is around it. -/
structure AtHome (x : Declaration) (id : Nat) : Prop where
  annotations : AllIn (.type id) (AnnotationUse.containersOfList x.annotations)
  typeParams : ∀ p ∈ x.typeParams, AllIn (.type id) p.containers
  interfaces : ∀ i ∈ x.interfaces, AllIn x.container i.containers
  methods : ∀ m ∈ x.methods, AllIn (.type id) m.containers
  body : x.body.AtHome x.container (.type id)

variable {x : Declaration} {id : Nat}

theorem AtHome.supertypes (h : x.AtHome id) : AllIn x.container x.supertypeContainers :=
  allIn_append.mpr ⟨allIn_flatMap.mpr h.body.superclass, allIn_flatMap.mpr h.interfaces⟩

theorem AtHome.inner (h : x.AtHome id) : AllIn (.type id) x.innerContainers := by
  simp only [innerContainers, allIn_append, allIn_flatMap]
  exact ⟨⟨⟨⟨⟨h.annotations, h.typeParams⟩, h.body.fields⟩, h.body.constants⟩,
    h.body.constructors⟩, h.methods⟩

end Declaration

namespace Draft

variable {d e : Draft} {event : Event} {id : Nat}

theorem allIn_of_mem_fieldsOf {c : Container} {modifiers : List Modifier}
    {annotations : List AnnotationUse} {ty : Ty} {declarators : List Declarator}
    {fields : List Field} (ha : AllIn c (AnnotationUse.containersOfList annotations))
    (hty : AllIn c ty.containers)
    (h : fieldsOf c modifiers annotations ty declarators = .ok fields) :
    ∀ f ∈ fields, AllIn c f.containers := by
  induction declarators generalizing fields with
  | nil =>
    cases h
    exact List.forall_mem_nil _
  | cons v vs ih =>
    obtain ⟨value, hvalue, rest, hrest, rfl⟩ := fieldsOf_cons_eq_ok_iff.mp h
    refine List.forall_mem_cons.mpr ⟨?_, ih hrest⟩
    refine allIn_append.mpr ⟨allIn_append.mpr ⟨ha, ?_⟩, ?_⟩
    · rw [Ty.containers_arrayOf]
      exact hty
    · unfold initialValue at hvalue
      cases hv : v.initializer with
      | none =>
        rw [hv] at hvalue
        cases hvalue
        exact allIn_nil
      | some leaves =>
        rw [hv] at hvalue
        obtain ⟨e, he, rfl⟩ := map_eq_ok_iff.mp hvalue
        exact allIn_append.mpr ⟨Expr.allIn_ofLeaves he, allIn_nil⟩

theorem allIn_params {c : Container} {head : List Container} {params : List Parameter}
    {p : Parameter} (h : AllIn c (head ++ params.flatMap (·.containers)))
    (hp : AllIn c p.containers) :
    AllIn c (head ++ (params ++ [p]).flatMap (·.containers)) := by
  obtain ⟨hhead, hparams⟩ := allIn_append.mp h
  rw [List.flatMap_append]
  exact allIn_append.mpr ⟨hhead,
    allIn_append.mpr ⟨hparams, allIn_append.mpr ⟨hp, allIn_nil⟩⟩⟩

/-- Every edit brings in the right containers. -/
theorem Edits.atHome {edit : Edit} {x : Declaration} (h : d.Edits id event edit)
    (hid : d.unit.decl? id = some x) (hx : x.AtHome id) : (edit.apply x).AtHome id := by
  cases h with
  | typeParam _ has =>
    refine { hx with typeParams := forall_mem_concat hx.typeParams ?_ }
    exact allIn_append.mpr ⟨AnnotationUse.allIn_ofWrittenList has, allIn_nil⟩
  | bound _ hb =>
    refine { hx with typeParams := forall_mem_modify hx.typeParams fun p hp => ?_ }
    obtain ⟨hpa, hpb⟩ := allIn_append.mp hp
    refine allIn_append.mpr ⟨hpa, ?_⟩
    rw [List.flatMap_append]
    exact allIn_append.mpr ⟨hpb, allIn_append.mpr ⟨NamedType.allIn_of_ofWritten hb, allIn_nil⟩⟩
  | superclass hty =>
    rw [around_eq hid] at hty
    exact { hx with body := hx.body.withSuperclass (NamedType.allIn_of_ofWritten hty) }
  | interface hty =>
    rw [around_eq hid] at hty
    exact { hx with
      interfaces := forall_mem_concat hx.interfaces (NamedType.allIn_of_ofWritten hty) }
  | fields has hfs =>
    exact { hx with body := hx.body.addFields (allIn_of_mem_fieldsOf
      (AnnotationUse.allIn_ofWrittenList has) (Ty.allIn_ofWritten _ _) hfs) }
  | component has =>
    refine { hx with body := hx.body.addFields (List.forall_mem_singleton.mpr ?_) }
    exact allIn_append.mpr ⟨allIn_append.mpr ⟨AnnotationUse.allIn_ofWrittenList has,
      Ty.allIn_ofWritten _ _⟩, allIn_nil⟩
  | constant has =>
    exact { hx with body := hx.body.addConstant (AnnotationUse.allIn_ofWrittenList has) }
  | method _ has =>
    refine { hx with methods := forall_mem_concat hx.methods ?_ }
    exact allIn_append.mpr ⟨allIn_append.mpr ⟨AnnotationUse.allIn_ofWrittenList has,
      Ty.allIn_ofWritten _ _⟩, allIn_nil⟩
  | constructor _ _ has =>
    refine { hx with
      body := hx.body.mapConstructors (forall_mem_concat hx.body.constructors ?_) }
    exact allIn_append.mpr ⟨AnnotationUse.allIn_ofWrittenList has, allIn_nil⟩
  | @param name ty varargs slot as _ has =>
    have hparam : AllIn (.type id) (Parameter.containers ⟨name, d.modifiers, as,
        (Ty.ofWritten (.type id) ty).arrayOf (if varargs then 1 else 0), varargs⟩) := by
      refine allIn_append.mpr ⟨AnnotationUse.allIn_ofWrittenList has, ?_⟩
      rw [Ty.containers_arrayOf]
      exact Ty.allIn_ofWritten _ _
    cases slot with
    | method index =>
      exact { hx with
        methods := forall_mem_modify hx.methods fun m hm => allIn_params hm hparam }
    | constructor index =>
      refine { hx with body := hx.body.mapConstructors ?_ }
      exact forall_mem_modify hx.body.constructors fun k hk => allIn_params hk hparam

/-- A declaration that begins has only its annotations, and its list of nested types holds no
container. -/
theorem DeclStep.atHome (h : DeclStep d e event)
    (hd : ∀ id x, d.unit.decl? id = some x → x.AtHome id) :
    ∀ id x, e.unit.decl? id = some x → x.AtHome id := by
  intro id x hx
  cases h with
  | same hdecls =>
    rw [SourceUnit.decl?, hdecls] at hx
    exact hd id x hx
  | @begins kind name as _ has hunit =>
    rw [hunit, SourceUnit.decl?_addDecl] at hx
    split at hx
    · next hid =>
      cases hx
      subst hid
      exact ⟨AnnotationUse.allIn_ofWrittenList has, List.forall_mem_nil _, List.forall_mem_nil _,
        List.forall_mem_nil _, Body.atHome_empty _ _ kind⟩
    · obtain ⟨y, hy, rfl⟩ := Option.map_eq_some_iff.mp hx
      have hhome := hd id y hy
      split
      · exact { hhome with }
      · exact hhome
  | @edits target edit _ hedit hunit =>
    rw [hunit, SourceUnit.decl?_modifyDecl] at hx
    split at hx
    · next hid =>
      subst hid
      obtain ⟨y, hy, rfl⟩ := Option.map_eq_some_iff.mp hx
      exact hedit.atHome hy (hd id y hy)
    · exact hd id x hx

theorem atHome_feedOn (events : List Event) :
    ∀ id x, (empty.feedOn events).1.unit.decl? id = some x → x.AtHome id := by
  refine feedOn_induction (P := fun d => ∀ id x, d.unit.decl? id = some x → x.AtHome id)
    (fun d event h => ?_) (fun id x hx => by cases hx) events
  cases hf : d.feed event with
  | ok e =>
    rw [next_of_eq_ok hf]
    exact (declStep_of_eq_ok hf).atHome h
  | error r =>
    rw [next_of_eq_error hf, (keeps_of_feed_eq_error hf).unit]
    exact h

end Draft

namespace SourceUnit

variable {u : SourceUnit} {strict : Bool} {events : List Event}

theorem atHome_of_ofEvents (h : SourceUnit.ofEvents strict events = .ok u) {id : Nat}
    {x : Declaration} (hx : u.decl? id = some x) : x.AtHome id := by
  obtain ⟨d, hd, hfinish⟩ := ofEvents_eq_ok_iff.mp h
  refine Draft.atHome_feedOn events id x ?_
  rw [Draft.feedOn_of_feedAll_eq_ok hd, Draft.unit_eq_of_finish_eq_ok hfinish]
  exact hx

theorem WellFormed.container_lt (hu : u.WellFormed) {id : Nat} {x : Declaration}
    (hx : u.decl? id = some x) :
    x.container = .unit ∨ ∃ i < u.typeCount, x.container = .type i := by
  cases hc : x.container with
  | unit => exact .inl rfl
  | type parent =>
    have hparent : u.containerOf? id = some (.type parent) := by
      rw [containerOf?_eq_some hx, hc]
    refine .inr ⟨parent, ?_, rfl⟩
    exact Nat.lt_trans (hu.parent_lt hparent) (lt_length_of_containerOf? hparent)

/-- Where the names of a unit are looked up, at any depth of a type or a value: those in the
supertypes of a declaration in what is around it, all others in the declaration itself. So every
container in the unit is the unit or one of its declarations. -/
theorem names_are_looked_up_at_home (h : SourceUnit.ofEvents strict events = .ok u) :
    (∀ id x, u.decl? id = some x →
      (∀ c ∈ x.supertypeContainers, c = x.container) ∧ ∀ c ∈ x.innerContainers, c = .type id) ∧
    ∀ c ∈ u.containers, c = .unit ∨ ∃ i < u.typeCount, c = .type i := by
  refine ⟨fun id x hx => ?_, fun c hc => ?_⟩
  · have hhome := atHome_of_ofEvents h hx
    exact ⟨hhome.supertypes, hhome.inner⟩
  · obtain ⟨x, hmem, hc⟩ := List.mem_flatMap.mp hc
    obtain ⟨id, hx⟩ := List.getElem?_of_mem hmem
    have hhome := atHome_of_ofEvents h hx
    have hcontainer := (wellFormed_of_ofEvents h).1.container_lt hx
    rcases List.mem_cons.mp hc with rfl | hc
    · exact hcontainer
    rcases List.mem_append.mp hc with hc | hc
    · rw [hhome.supertypes c hc]
      exact hcontainer
    · exact .inr ⟨id, (List.getElem?_eq_some_iff.mp hx).1, hhome.inner c hc⟩

/-- The superclass of the nested class and its type argument are looked up in the class around
it; the annotation in the annotation and the type of the created value in the nested class. -/
theorem names_of_nested_class :
    let events : List Event := [.enterType .classType "A",
      .annotate ⟨"N", [⟨"value", [.annotationUse ⟨"M", []⟩]⟩]⟩, .enterType .classType "B",
      .superclass (.named [⟨"S", [.bounded .extends (.named [⟨"T", []⟩])]⟩]),
      .field (.named [⟨"int", []⟩])
        [⟨"a", 0, some [.token "new", .creation (.named [⟨"U", []⟩]) []]⟩],
      .exitType, .exitType]
    ∃ u x, SourceUnit.ofEvents true events = .ok u ∧ u.decl? 1 = some x ∧
      x.supertypeContainers.length = 2 ∧ x.innerContainers.length = 3 ∧
      (∀ c ∈ x.supertypeContainers, c = .type 0) ∧ ∀ c ∈ x.innerContainers, c = .type 1 := by
  intro events
  obtain ⟨u, x, hu, hx, hc, hs, hi⟩ : ∃ u x, SourceUnit.ofEvents true events = .ok u ∧
      u.decl? 1 = some x ∧ x.container = .type 0 ∧ x.supertypeContainers.length = 2 ∧
      x.innerContainers.length = 3 :=
    ⟨_, _, by rfl, by rfl, by rfl, by rfl, by decide +kernel⟩
  obtain ⟨hsupertypes, hinner⟩ := (names_are_looked_up_at_home hu).1 1 x hx
  rw [hc] at hsupertypes
  exact ⟨u, x, hu, hx, hs, hi, hsupertypes, hinner⟩

end SourceUnit

end SourceModel
