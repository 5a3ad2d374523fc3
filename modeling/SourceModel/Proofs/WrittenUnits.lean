import SourceModel.Proofs.Contexts

/-!
# Units as they are written

A unit as it is written is a tree: a package, imports and types, each type with its parts in the
order in which they stand. Two things are made of it without a draft: the events that report it
(`WrittenUnit.events`), and the declarations that it stands for (`WrittenUnit.read`).

1. A type takes the next number, before the types nested in it. Its annotations and parts are
   looked up in the type itself, its supertypes in what is around it.
2. The parts of one sort are collected in the order in which they stand (`Contents`). What a kind
   of type cannot have is not kept.
3. A well-formed unit can be read (`WrittenDecl.exists_readList`), and its trees are numbered in
   preorder (`WrittenDecl.numbered_of_read`).
-/

namespace SourceModel

/-! ## Written declarations -/

/-- What stands before a declaration. -/
inductive Mark where
  | modifier (modifier : Modifier)
  | annotate (use : WrittenAnnotationUse)

namespace Mark

def modifier? : Mark → Option Modifier
  | .modifier m => some m
  | .annotate _ => none

def annotation? : Mark → Option WrittenAnnotationUse
  | .modifier _ => none
  | .annotate use => some use

def modifiers (marks : List Mark) : List Modifier :=
  marks.filterMap modifier?

def annotations (marks : List Mark) : List WrittenAnnotationUse :=
  marks.filterMap annotation?

end Mark

structure WrittenParameter where
  marks : List Mark
  name : String
  ty : WrittenType
  varargs : Bool

/-- A part of a type other than a nested type. -/
inductive Clause where
  | typeParam (annotations : List WrittenAnnotationUse) (name : String) (bounds : List WrittenType)
  | superclass (ty : WrittenType)
  | interface (ty : WrittenType)
  | field (marks : List Mark) (ty : WrittenType) (declarators : List Declarator)
  | constant (marks : List Mark) (name : String)
  | component (marks : List Mark) (name : String) (ty : WrittenType)
  | method (marks : List Mark) (name : String) (returnType : WrittenType)
      (params : List WrittenParameter)
  | constructor (marks : List Mark) (params : List WrittenParameter)

mutual

/-- A type with its parts in the order in which they stand. Type parameters and supertypes come
first as a rule, but the components of a record stand between them. -/
inductive WrittenDecl where
  | node (marks : List Mark) (kind : Kind) (name : String) (parts : List WrittenPart)

inductive WrittenPart where
  | clause (clause : Clause)
  | type (decl : WrittenDecl)

end

structure WrittenUnit where
  package : Option String
  imports : List Import
  types : List WrittenDecl

/-! ## Events -/

def Mark.event : Mark → Event
  | .modifier m => .modifier m.keyword
  | .annotate use => .annotate use

def WrittenParameter.events (p : WrittenParameter) : List Event :=
  p.marks.map Mark.event ++ [.parameter p.name p.ty p.varargs]

def Clause.events : Clause → List Event
  | .typeParam annotations name bounds =>
    annotations.map .annotate ++ .typeParam name :: bounds.map .typeParamBound
  | .superclass ty => [.superclass ty]
  | .interface ty => [.implement ty]
  | .field marks ty declarators => marks.map Mark.event ++ [.field ty declarators]
  | .constant marks name => marks.map Mark.event ++ [.enumConstant name]
  | .component marks name ty => marks.map Mark.event ++ [.recordComponent name ty]
  | .method marks name returnType params => marks.map Mark.event ++
      .enterMethod name returnType :: (params.flatMap WrittenParameter.events ++ [.exitMember])
  | .constructor marks params => marks.map Mark.event ++
      .enterConstructor :: (params.flatMap WrittenParameter.events ++ [.exitMember])

mutual

/-- The events that report a type, in source order. -/
def WrittenDecl.events : WrittenDecl → List Event
  | .node marks kind name parts =>
    marks.map Mark.event ++ .enterType kind name :: (WrittenPart.eventsOfList parts ++ [.exitType])

def WrittenPart.events : WrittenPart → List Event
  | .clause c => c.events
  | .type t => t.events

def WrittenPart.eventsOfList : List WrittenPart → List Event
  | [] => []
  | p :: ps => p.events ++ WrittenPart.eventsOfList ps

end

/-- The events that report a unit, in source order. -/
def WrittenUnit.events (s : WrittenUnit) : List Event :=
  s.package.toList.map .package ++ s.imports.map (fun i => .importName i.name i.kind) ++
    s.types.flatMap WrittenDecl.events

/-! ## Well-formed units -/

/-- Whether the literals in the annotations can be read. -/
def Mark.readable (marks : List Mark) : Bool :=
  Literal.allRead (WrittenAnnotationUse.textsOfList (annotations marks))

namespace Clause

/-- Whether a type of the kind can have the part. -/
def fits (kind : Kind) : Clause → Bool
  | .superclass _ => kind == .classType
  | .constant _ _ => kind == .enumType
  | .component _ _ _ => kind == .recordType
  | .constructor _ _ => kind.hasConstructors
  | .typeParam _ _ _ | .interface _ | .field _ _ _ | .method _ _ _ _ => true

/-- Whether all literals can be read, and supertypes and bounds are named types. -/
def readable : Clause → Bool
  | .typeParam annotations _ bounds =>
    Literal.allRead (WrittenAnnotationUse.textsOfList annotations) && bounds.all (·.isNamed)
  | .superclass ty | .interface ty => ty.isNamed
  | .field marks _ declarators =>
    Mark.readable marks && Literal.allRead (declarators.flatMap (·.texts))
  | .constant marks _ | .component marks _ _ => Mark.readable marks
  | .method marks _ _ params | .constructor marks params =>
    Mark.readable marks && params.all (Mark.readable ·.marks)

end Clause

mutual

/-- Whether every part stands in a type that can have it, and can be read. -/
def WrittenDecl.wellFormed : WrittenDecl → Bool
  | .node marks kind _ parts => Mark.readable marks && WrittenPart.allWellFormed kind parts

def WrittenPart.wellFormed (kind : Kind) : WrittenPart → Bool
  | .clause c => c.fits kind && c.readable
  | .type t => t.wellFormed

def WrittenPart.allWellFormed (kind : Kind) : List WrittenPart → Bool
  | [] => true
  | p :: ps => p.wellFormed kind && WrittenPart.allWellFormed kind ps

end

def WrittenUnit.wellFormed (s : WrittenUnit) : Bool :=
  s.types.all (·.wellFormed)

/-! ## The declarations that are written -/

/-- The number of the declaration at the root. -/
def DeclTree.id : DeclTree → Nat
  | .node id _ _ => id

/-- The parts of a type, those of one sort in the order in which they stand. -/
structure Contents where
  typeParams : List TypeParam
  superclasses : List NamedType
  interfaces : List NamedType
  fields : List Field
  constants : List EnumConstant
  constructors : List Constructor
  methods : List Method
  types : List DeclTree

namespace Contents

def empty : Contents := ⟨[], [], [], [], [], [], [], []⟩

instance : Append Contents where
  append a b := {
    typeParams := a.typeParams ++ b.typeParams
    superclasses := a.superclasses ++ b.superclasses
    interfaces := a.interfaces ++ b.interfaces
    fields := a.fields ++ b.fields
    constants := a.constants ++ b.constants
    constructors := a.constructors ++ b.constructors
    methods := a.methods ++ b.methods
    types := a.types ++ b.types }

theorem append_def (a b : Contents) : a ++ b =
    ⟨a.typeParams ++ b.typeParams, a.superclasses ++ b.superclasses, a.interfaces ++ b.interfaces,
      a.fields ++ b.fields, a.constants ++ b.constants, a.constructors ++ b.constructors,
      a.methods ++ b.methods, a.types ++ b.types⟩ := rfl

/-- The number of declarations in the nested types. -/
def typeCount (c : Contents) : Nat := (DeclTree.preorderList c.types).length

end Contents

/-- The body with more parts, as far as its kind has them. The superclass that comes last
stands. -/
def Body.add (c : Contents) : Body → Body
  | .classBody s cs fs =>
    .classBody (c.superclasses.getLast?.or s) (cs ++ c.constructors) (fs ++ c.fields)
  | .enumBody ks cs fs => .enumBody (ks ++ c.constants) (cs ++ c.constructors) (fs ++ c.fields)
  | .recordBody cs fs => .recordBody (cs ++ c.constructors) (fs ++ c.fields)
  | .interfaceBody => .interfaceBody
  | .annotationBody => .annotationBody

/-- The declaration with more parts. -/
def Declaration.add (x : Declaration) (c : Contents) : Declaration :=
  { x with
    typeParams := x.typeParams ++ c.typeParams
    interfaces := x.interfaces ++ c.interfaces
    methods := x.methods ++ c.methods
    body := x.body.add c
    nested := x.nested ++ c.types.map (·.id) }

/-- The annotations of the type and of its parts. -/
def readUses (id : Nat) (uses : List WrittenAnnotationUse) : Option (List AnnotationUse) :=
  (AnnotationUse.ofWrittenList (.type id) uses).toOption

def readNamed (c : Container) (ty : WrittenType) : Option NamedType :=
  match Ty.ofWritten c ty with
  | .named n => some n
  | .primitive _ | .array _ _ => none

def Declarator.read (id : Nat) (modifiers : List Modifier) (annotations : List AnnotationUse)
    (ty : Ty) (v : Declarator) : Option Field := do
  let value ← v.initializer.mapM fun leaves => (Expr.ofLeaves (.type id) leaves).toOption
  return ⟨v.name, modifiers, annotations, ty.arrayOf v.dimension, value⟩

/-- A parameter of variable arity has an array type. -/
def WrittenParameter.read (id : Nat) (p : WrittenParameter) : Option Parameter := do
  let annotations ← readUses id (Mark.annotations p.marks)
  let ty := (Ty.ofWritten (.type id) p.ty).arrayOf (if p.varargs then 1 else 0)
  return ⟨p.name, Mark.modifiers p.marks, annotations, ty, p.varargs⟩

/-- What a part of the type `id` stands for. Constants have no modifiers, and components are
private final fields. -/
def Clause.read (around : Container) (id : Nat) : Clause → Option Contents
  | .typeParam annotations name bounds => do
    let annotations ← readUses id annotations
    let bounds ← bounds.mapM (readNamed (.type id))
    return { Contents.empty with typeParams := [⟨name, annotations, bounds⟩] }
  | .superclass ty => do
    return { Contents.empty with superclasses := [← readNamed around ty] }
  | .interface ty => do
    return { Contents.empty with interfaces := [← readNamed around ty] }
  | .field marks ty declarators => do
    let annotations ← readUses id (Mark.annotations marks)
    let fields ← declarators.mapM
      (Declarator.read id (Mark.modifiers marks) annotations (Ty.ofWritten (.type id) ty))
    return { Contents.empty with fields }
  | .constant marks name => do
    let annotations ← readUses id (Mark.annotations marks)
    return { Contents.empty with constants := [⟨name, annotations⟩] }
  | .component marks name ty => do
    let annotations ← readUses id (Mark.annotations marks)
    let ty := Ty.ofWritten (.type id) ty
    return { Contents.empty with
      fields := [⟨name, [.privateAccess, .final], annotations, ty, none⟩] }
  | .method marks name returnType params => do
    let annotations ← readUses id (Mark.annotations marks)
    let params ← params.mapM (WrittenParameter.read id)
    let returnType := Ty.ofWritten (.type id) returnType
    return { Contents.empty with
      methods := [⟨name, Mark.modifiers marks, annotations, returnType, params⟩] }
  | .constructor marks params => do
    let annotations ← readUses id (Mark.annotations marks)
    let params ← params.mapM (WrittenParameter.read id)
    return { Contents.empty with constructors := [⟨Mark.modifiers marks, annotations, params⟩] }

mutual

/-- The tree of a type that takes the number `id`. -/
def WrittenDecl.read (around : Container) (id : Nat) : WrittenDecl → Option DeclTree
  | .node marks kind name parts => do
    let annotations ← readUses id (Mark.annotations marks)
    let contents ← WrittenPart.readList around id (id + 1) parts
    let begun := { Declaration.empty kind name around with
      modifiers := Mark.modifiers marks, annotations }
    return .node id (begun.add contents) contents.types

/-- What a part of the type `id` stands for; `next` is the next free number. -/
def WrittenPart.read (around : Container) (id next : Nat) : WrittenPart → Option Contents
  | .clause c => c.read around id
  | .type t => do
    return { Contents.empty with types := [← t.read (.type id) next] }

def WrittenPart.readList (around : Container) (id next : Nat) :
    List WrittenPart → Option Contents
  | [] => some .empty
  | p :: ps => do
    let first ← p.read around id next
    return first ++ (← WrittenPart.readList around id (next + first.typeCount) ps)

end

/-- The trees of the types at the top level; `next` is the next free number. -/
def WrittenDecl.readList (next : Nat) : List WrittenDecl → Option (List DeclTree)
  | [] => some []
  | t :: ts => do
    let tree ← t.read .unit next
    return tree :: (← WrittenDecl.readList (next + tree.preorder.length) ts)

/-- The trees of the types of a unit. -/
def WrittenUnit.read (s : WrittenUnit) : Option (List DeclTree) :=
  WrittenDecl.readList 0 s.types

/-! ## What is read -/

theorem readUses_eq_some_iff {id : Nat} {uses : List WrittenAnnotationUse}
    {as : List AnnotationUse} :
    readUses id uses = some as ↔ AnnotationUse.ofWrittenList (.type id) uses = .ok as :=
  toOption_eq_some_iff

theorem readNamed_eq_some_iff {c : Container} {ty : WrittenType} {n : NamedType} :
    readNamed c ty = some n ↔ Ty.ofWritten c ty = .named n := by
  unfold readNamed
  cases Ty.ofWritten c ty <;> simp

section MapM

variable {α β : Type} {f : α → Option β} {a : α} {l : List α} {bs : List β}

theorem mapM_nil_eq_some_iff : [].mapM f = some bs ↔ [] = bs := by
  rw [List.mapM_nil, Option.pure_def, Option.some.injEq]

theorem mapM_cons_eq_some_iff : (a :: l).mapM f = some bs ↔
    ∃ b, f a = some b ∧ ∃ rest, l.mapM f = some rest ∧ b :: rest = bs := by
  simp only [List.mapM_cons, Option.bind_eq_bind, Option.bind_eq_some_iff, Option.pure_def,
    Option.some.injEq]

end MapM

theorem Declarator.read_eq_some_iff {id : Nat} {modifiers : List Modifier}
    {annotations : List AnnotationUse} {ty : Ty} {v : Declarator} {field : Field} :
    v.read id modifiers annotations ty = some field ↔ ∃ value,
      (v.initializer.mapM fun leaves => (Expr.ofLeaves (.type id) leaves).toOption) = some value ∧
      ⟨v.name, modifiers, annotations, ty.arrayOf v.dimension, value⟩ = field := by
  simp only [read, Option.bind_eq_bind, Option.bind_eq_some_iff, Option.pure_def,
    Option.some.injEq]

theorem WrittenParameter.read_eq_some_iff {id : Nat} {p : WrittenParameter} {param : Parameter} :
    p.read id = some param ↔ ∃ as, readUses id (Mark.annotations p.marks) = some as ∧
      ⟨p.name, Mark.modifiers p.marks, as,
        (Ty.ofWritten (.type id) p.ty).arrayOf (if p.varargs then 1 else 0), p.varargs⟩ =
        param := by
  simp only [read, Option.bind_eq_bind, Option.bind_eq_some_iff, Option.pure_def,
    Option.some.injEq]

theorem WrittenDecl.read_eq_some_iff {around : Container} {id : Nat} {marks : List Mark}
    {kind : Kind} {name : String} {parts : List WrittenPart} {tree : DeclTree} :
    (WrittenDecl.node marks kind name parts).read around id = some tree ↔
      ∃ as, readUses id (Mark.annotations marks) = some as ∧
      ∃ contents, WrittenPart.readList around id (id + 1) parts = some contents ∧
      .node id (Declaration.add { Declaration.empty kind name around with
        modifiers := Mark.modifiers marks, annotations := as } contents) contents.types = tree := by
  simp only [read, Option.bind_eq_bind, Option.bind_eq_some_iff, Option.pure_def,
    Option.some.injEq]

theorem WrittenPart.read_type_eq_some_iff {around : Container} {id next : Nat} {t : WrittenDecl}
    {contents : Contents} :
    (WrittenPart.type t).read around id next = some contents ↔
      ∃ tree, t.read (.type id) next = some tree ∧
      { Contents.empty with types := [tree] } = contents := by
  simp only [read, Option.bind_eq_bind, Option.bind_eq_some_iff, Option.pure_def,
    Option.some.injEq]

theorem WrittenPart.readList_cons_eq_some_iff {around : Container} {id next : Nat}
    {p : WrittenPart} {ps : List WrittenPart} {contents : Contents} :
    WrittenPart.readList around id next (p :: ps) = some contents ↔
      ∃ first, p.read around id next = some first ∧
      ∃ rest, WrittenPart.readList around id (next + first.typeCount) ps = some rest ∧
      first ++ rest = contents := by
  simp only [readList, Option.bind_eq_bind, Option.bind_eq_some_iff, Option.pure_def,
    Option.some.injEq]

theorem WrittenDecl.readList_cons_eq_some_iff {next : Nat} {t : WrittenDecl}
    {ts : List WrittenDecl} {forest : List DeclTree} :
    WrittenDecl.readList next (t :: ts) = some forest ↔
      ∃ tree, t.read .unit next = some tree ∧
      ∃ rest, WrittenDecl.readList (next + tree.preorder.length) ts = some rest ∧
      tree :: rest = forest := by
  simp only [readList, Option.bind_eq_bind, Option.bind_eq_some_iff, Option.pure_def,
    Option.some.injEq]

/-! ## Well-formed units can be read -/

theorem exists_mapM {α β : Type} {f : α → Option β} {l : List α}
    (h : ∀ a ∈ l, ∃ b, f a = some b) : ∃ bs, l.mapM f = some bs := by
  induction l with
  | nil => exact ⟨[], mapM_nil_eq_some_iff.mpr rfl⟩
  | cons a l ih =>
    obtain ⟨⟨b, hb⟩, hl⟩ := List.forall_mem_cons.mp h
    obtain ⟨bs, hbs⟩ := ih hl
    exact ⟨b :: bs, mapM_cons_eq_some_iff.mpr ⟨b, hb, bs, hbs, rfl⟩⟩

theorem exists_readUses (id : Nat) {uses : List WrittenAnnotationUse}
    (h : Literal.allRead (WrittenAnnotationUse.textsOfList uses)) :
    ∃ as, readUses id uses = some as := by
  obtain ⟨as, has⟩ := (AnnotationUse.reads_ofWrittenList (.type id) uses).exists_ok_iff.mpr h
  exact ⟨as, readUses_eq_some_iff.mpr has⟩

theorem exists_readNamed (c : Container) {ty : WrittenType} (h : ty.isNamed) :
    ∃ n, readNamed c ty = some n := by
  obtain ⟨n, hn⟩ := (Ty.exists_ofWritten_eq_named_iff c ty).mpr h
  exact ⟨n, readNamed_eq_some_iff.mpr hn⟩

theorem Declarator.exists_read (id : Nat) (modifiers : List Modifier)
    (annotations : List AnnotationUse) (ty : Ty) {v : Declarator}
    (h : Literal.allRead v.texts) : ∃ f, v.read id modifiers annotations ty = some f := by
  unfold Declarator.texts at h
  cases hv : v.initializer with
  | none => exact ⟨_, read_eq_some_iff.mpr ⟨none, by rw [hv]; rfl, rfl⟩⟩
  | some leaves =>
    rw [hv] at h
    obtain ⟨e, he⟩ := (Expr.reads_ofLeaves (.type id) leaves).exists_ok_iff.mpr h
    refine ⟨_, read_eq_some_iff.mpr ⟨some e, ?_, rfl⟩⟩
    rw [hv, Option.mapM_some, toOption_eq_some_iff.mpr he]
    rfl

theorem WrittenParameter.exists_read (id : Nat) {p : WrittenParameter}
    (h : Mark.readable p.marks) : ∃ param, p.read id = some param := by
  obtain ⟨as, has⟩ := exists_readUses id h
  exact ⟨_, read_eq_some_iff.mpr ⟨as, has, rfl⟩⟩

theorem WrittenParameter.exists_mapM_read (id : Nat) {ps : List WrittenParameter}
    (h : ps.all (Mark.readable ·.marks)) : ∃ params, ps.mapM (WrittenParameter.read id) =
      some params :=
  exists_mapM fun p hp => p.exists_read id (List.all_eq_true.mp h p hp)

theorem Clause.exists_read (around : Container) (id : Nat) {c : Clause} (h : c.readable) :
    ∃ contents, c.read around id = some contents := by
  cases c with
  | typeParam annotations name bounds =>
    obtain ⟨has, hbs⟩ := Bool.and_eq_true_iff.mp h
    obtain ⟨as, has⟩ := exists_readUses id has
    obtain ⟨bs, hbs⟩ := exists_mapM (f := readNamed (.type id)) fun b hb =>
      exists_readNamed (.type id) (List.all_eq_true.mp hbs b hb)
    exact ⟨_, by rw [Clause.read, has, hbs]; rfl⟩
  | superclass ty =>
    obtain ⟨s, hs⟩ := exists_readNamed around h
    exact ⟨_, by rw [Clause.read, hs]; rfl⟩
  | interface ty =>
    obtain ⟨i, hi⟩ := exists_readNamed around h
    exact ⟨_, by rw [Clause.read, hi]; rfl⟩
  | field marks ty declarators =>
    obtain ⟨has, hvs⟩ := Bool.and_eq_true_iff.mp h
    obtain ⟨as, has⟩ := exists_readUses id has
    rw [Literal.allRead, List.all_flatMap] at hvs
    obtain ⟨fs, hfs⟩ := exists_mapM
      (f := Declarator.read id (Mark.modifiers marks) as (Ty.ofWritten (.type id) ty))
      fun v hv => v.exists_read id _ _ _ (List.all_eq_true.mp hvs v hv)
    refine ⟨{ Contents.empty with fields := fs }, ?_⟩
    rw [Clause.read, has, Option.bind_eq_bind, Option.bind_some, hfs]
    rfl
  | constant marks name =>
    obtain ⟨as, has⟩ := exists_readUses id h
    exact ⟨_, by rw [Clause.read, has]; rfl⟩
  | component marks name ty =>
    obtain ⟨as, has⟩ := exists_readUses id h
    exact ⟨_, by rw [Clause.read, has]; rfl⟩
  | method marks name returnType params =>
    obtain ⟨has, hps⟩ := Bool.and_eq_true_iff.mp h
    obtain ⟨as, has⟩ := exists_readUses id has
    obtain ⟨ps, hps⟩ := WrittenParameter.exists_mapM_read id hps
    exact ⟨_, by rw [Clause.read, has, hps]; rfl⟩
  | constructor marks params =>
    obtain ⟨has, hps⟩ := Bool.and_eq_true_iff.mp h
    obtain ⟨as, has⟩ := exists_readUses id has
    obtain ⟨ps, hps⟩ := WrittenParameter.exists_mapM_read id hps
    exact ⟨_, by rw [Clause.read, has, hps]; rfl⟩

mutual

theorem WrittenDecl.exists_read (around : Container) (id : Nat) (t : WrittenDecl)
    (h : t.wellFormed) : ∃ tree, t.read around id = some tree := by
  cases t with
  | node marks kind name parts =>
    rw [WrittenDecl.wellFormed] at h
    obtain ⟨has, hparts⟩ := Bool.and_eq_true_iff.mp h
    obtain ⟨as, has⟩ := exists_readUses id has
    obtain ⟨contents, hcontents⟩ := WrittenPart.exists_readList around id (id + 1) parts hparts
    exact ⟨_, WrittenDecl.read_eq_some_iff.mpr ⟨as, has, contents, hcontents, rfl⟩⟩

theorem WrittenPart.exists_read (around : Container) (id next : Nat) {kind : Kind}
    (p : WrittenPart) (h : p.wellFormed kind) :
    ∃ contents, p.read around id next = some contents := by
  cases p with
  | clause c =>
    rw [WrittenPart.wellFormed] at h
    rw [WrittenPart.read]
    exact c.exists_read around id (Bool.and_eq_true_iff.mp h).2
  | type t =>
    rw [WrittenPart.wellFormed] at h
    obtain ⟨tree, htree⟩ := WrittenDecl.exists_read (.type id) next t h
    exact ⟨_, WrittenPart.read_type_eq_some_iff.mpr ⟨tree, htree, rfl⟩⟩

theorem WrittenPart.exists_readList (around : Container) (id next : Nat) {kind : Kind}
    (ps : List WrittenPart) (h : WrittenPart.allWellFormed kind ps) :
    ∃ contents, WrittenPart.readList around id next ps = some contents := by
  cases ps with
  | nil => exact ⟨_, rfl⟩
  | cons p ps =>
    rw [WrittenPart.allWellFormed] at h
    obtain ⟨hp, hps⟩ := Bool.and_eq_true_iff.mp h
    obtain ⟨first, hfirst⟩ := WrittenPart.exists_read around id next p hp
    obtain ⟨rest, hrest⟩ :=
      WrittenPart.exists_readList around id (next + first.typeCount) ps hps
    exact ⟨_, WrittenPart.readList_cons_eq_some_iff.mpr ⟨first, hfirst, rest, hrest, rfl⟩⟩

end

theorem WrittenDecl.exists_readList {ts : List WrittenDecl} (h : ts.all (·.wellFormed))
    (next : Nat) : ∃ forest, WrittenDecl.readList next ts = some forest := by
  induction ts generalizing next with
  | nil => exact ⟨[], rfl⟩
  | cons t ts ih =>
    obtain ⟨ht, hts⟩ := Bool.and_eq_true_iff.mp h
    obtain ⟨tree, htree⟩ := t.exists_read .unit next ht
    obtain ⟨forest, hforest⟩ := ih hts (next + tree.preorder.length)
    exact ⟨_, readList_cons_eq_some_iff.mpr ⟨tree, htree, forest, hforest, rfl⟩⟩

/-! ## Trees are numbered in preorder -/

mutual

/-- The declarations are numbered in preorder from `n` on, and each lists those directly nested in
it. -/
def DeclTree.Numbered (n : Nat) : DeclTree → Prop
  | .node id x nested =>
    id = n ∧ x.nested = nested.map (·.id) ∧ DeclTree.AllNumbered (n + 1) nested

def DeclTree.AllNumbered (n : Nat) : List DeclTree → Prop
  | [] => True
  | t :: ts => t.Numbered n ∧ DeclTree.AllNumbered (n + t.preorder.length) ts

end

theorem DeclTree.preorderList_append (ts us : List DeclTree) :
    preorderList (ts ++ us) = preorderList ts ++ preorderList us := by
  induction ts with
  | nil => rfl
  | cons t ts ih => rw [List.cons_append, preorderList, ih, preorderList, List.append_assoc]

theorem DeclTree.allNumbered_append {n : Nat} {ts us : List DeclTree} :
    AllNumbered n (ts ++ us) ↔
      AllNumbered n ts ∧ AllNumbered (n + (preorderList ts).length) us := by
  induction ts generalizing n with
  | nil => simp [AllNumbered, preorderList]
  | cons t ts ih =>
    rw [List.cons_append, AllNumbered, AllNumbered, ih, preorderList, List.length_append, and_assoc,
      Nat.add_assoc]

/-- Only nested types bring in declarations. -/
theorem Clause.types_of_read {around : Container} {id : Nat} {c : Clause} {contents : Contents}
    (h : c.read around id = some contents) : contents.types = [] := by
  cases c <;> simp only [Clause.read, Option.bind_eq_bind, Option.bind_eq_some_iff,
    Option.pure_def, Option.some.injEq] at h
  case typeParam | field | method | constructor =>
    obtain ⟨as, -, rest, -, rfl⟩ := h
    rfl
  all_goals
    obtain ⟨a, -, rfl⟩ := h
    rfl

mutual

theorem WrittenDecl.numbered_of_read {around : Container} {id : Nat} {tree : DeclTree}
    (t : WrittenDecl) (h : t.read around id = some tree) : tree.Numbered id := by
  cases t with
  | node marks kind name parts =>
    obtain ⟨as, -, contents, hcontents, rfl⟩ := WrittenDecl.read_eq_some_iff.mp h
    exact ⟨rfl, rfl, WrittenPart.allNumbered_of_readList parts hcontents⟩

theorem WrittenPart.allNumbered_of_read {around : Container} {id next : Nat} {contents : Contents}
    (p : WrittenPart) (h : p.read around id next = some contents) :
    DeclTree.AllNumbered next contents.types := by
  cases p with
  | clause c =>
    rw [WrittenPart.read] at h
    rw [Clause.types_of_read h]
    trivial
  | type t =>
    obtain ⟨tree, htree, rfl⟩ := WrittenPart.read_type_eq_some_iff.mp h
    exact ⟨WrittenDecl.numbered_of_read t htree, trivial⟩

theorem WrittenPart.allNumbered_of_readList {around : Container} {id next : Nat}
    {contents : Contents} (ps : List WrittenPart)
    (h : WrittenPart.readList around id next ps = some contents) :
    DeclTree.AllNumbered next contents.types := by
  cases ps with
  | nil =>
    cases h
    trivial
  | cons p ps =>
    obtain ⟨first, hfirst, rest, hrest, rfl⟩ := WrittenPart.readList_cons_eq_some_iff.mp h
    exact DeclTree.allNumbered_append.mpr ⟨WrittenPart.allNumbered_of_read p hfirst,
      WrittenPart.allNumbered_of_readList ps hrest⟩

end

theorem WrittenDecl.allNumbered_of_readList {ts : List WrittenDecl} {next : Nat}
    {forest : List DeclTree} (h : WrittenDecl.readList next ts = some forest) :
    DeclTree.AllNumbered next forest := by
  induction ts generalizing next forest with
  | nil =>
    cases h
    trivial
  | cons t ts ih =>
    obtain ⟨tree, htree, rest, hrest, rfl⟩ := readList_cons_eq_some_iff.mp h
    exact ⟨t.numbered_of_read htree, ih hrest⟩

end SourceModel
