import SourceModel.Proofs.Drafts
import SourceModel.Reference

/-!
# Elements and their marks

The marks of an element of a unit (a type, a type parameter, a field, a constant, a constructor, a
method, a parameter) are the modifiers and annotations that are attached to it. An accepted event
makes elements of one declaration, with what waits in the draft as their marks, and leaves all
other elements as they are (`Draft.DeclStep.settles`); what it does not take goes on waiting
(`Draft.waiting_of_eq_ok`).
-/

namespace SourceModel

/-- What is attached to an element. Type parameters and constants have no modifiers. -/
@[ext]
structure Marks where
  modifiers : List Modifier
  annotations : List AnnotationUse

/-- What is attached to an element of a declaration, if there is such an element. -/
def Declaration.marksAt? (x : Declaration) : Element → Option Marks
  | .type => some ⟨x.modifiers, x.annotations⟩
  | .typeParam i => x.typeParams[i]?.map fun p => ⟨[], p.annotations⟩
  | .field i => x.fields[i]?.map fun f => ⟨f.modifiers, f.annotations⟩
  | .constant i => x.constants[i]?.map fun k => ⟨[], k.annotations⟩
  | .constructor i => x.constructors[i]?.map fun c => ⟨c.modifiers, c.annotations⟩
  | .constructorParam i j => x.constructors[i]?.bind fun c =>
      c.params[j]?.map fun p => ⟨p.modifiers, p.annotations⟩
  | .method i => x.methods[i]?.map fun m => ⟨m.modifiers, m.annotations⟩
  | .methodParam i j => x.methods[i]?.bind fun m =>
      m.params[j]?.map fun p => ⟨p.modifiers, p.annotations⟩

/-- What is attached to an element of the declaration `id`. -/
def SourceUnit.marksAt? (u : SourceUnit) (id : Nat) (element : Element) : Option Marks :=
  (u.decl? id).bind (·.marksAt? element)

namespace Event

/-- Whether elements of this sort are made by such an event. -/
def makes : Event → Element → Bool
  | .enterType _ _, .type => true
  | .typeParam _, .typeParam _ => true
  | .field _ _, .field _ => true
  | .recordComponent _ _, .field _ => true
  | .enumConstant _, .constant _ => true
  | .enterConstructor, .constructor _ => true
  | .enterMethod _ _, .method _ => true
  | .parameter _ _ _, .constructorParam _ _ => true
  | .parameter _ _ _, .methodParam _ _ => true
  | _, _ => false

/-- The modifiers of the elements that an event makes, given those that wait. -/
def modifiersOf (waiting : List Modifier) : Event → List Modifier
  | .recordComponent _ _ => [.privateAccess, .final]
  | .enumConstant _ | .typeParam _ => []
  | _ => waiting

end Event

/-! ## Elements of lists -/

/-- What was attached stays attached; what is new has the given marks. -/
def Adds (marks : Marks) (old new : Option Marks) : Prop :=
  new = old ∨ old = none ∧ new = some marks

section Lists

variable {α : Type} {marks : Marks} {l : List α}

theorem adds_append {more : List α} {f : α → Marks} (h : ∀ a ∈ more, f a = marks) (i : Nat) :
    Adds marks (l[i]?.map f) ((l ++ more)[i]?.map f) := by
  by_cases hi : i < l.length
  · left
    rw [List.getElem?_append_left hi]
  · have hle : l.length ≤ i := Nat.le_of_not_lt hi
    rw [List.getElem?_append_right hle, List.getElem?_eq_none hle]
    cases ha : more[i - l.length]? with
    | none => exact .inl rfl
    | some a => exact .inr ⟨rfl, congrArg some (h a (List.mem_of_getElem? ha))⟩

/-- One more part that has nothing inside. -/
theorem bind_getElem?_append {a : α} {f : α → Option Marks} (h : f a = none) (i : Nat) :
    (l ++ [a])[i]?.bind f = l[i]?.bind f := by
  by_cases hi : i < l.length
  · rw [List.getElem?_append_left hi]
  · have hle : l.length ≤ i := Nat.le_of_not_lt hi
    rw [List.getElem?_append_right hle, List.getElem?_eq_none hle]
    cases hj : i - l.length with
    | zero => exact h
    | succ j => rfl

theorem map_getElem?_modify {g : α → α} {f : α → Marks} (h : ∀ a, f (g a) = f a) (index i : Nat) :
    (l.modify index g)[i]?.map f = l[i]?.map f := by
  rw [List.getElem?_modify]
  cases l[i]? with
  | none => rfl
  | some a =>
    show some (f (if index = i then g a else a)) = some (f a)
    split
    · rw [h a]
    · rfl

theorem adds_bind_modify {g : α → α} {f : α → Option Marks} (h : ∀ a, Adds marks (f a) (f (g a)))
    (index i : Nat) : Adds marks (l[i]?.bind f) ((l.modify index g)[i]?.bind f) := by
  rw [List.getElem?_modify]
  cases l[i]? with
  | none => exact .inl rfl
  | some a =>
    show Adds marks (f a) (f (if index = i then g a else a))
    split
    · exact h a
    · exact .inl rfl

end Lists

/-! ## Elements that an event makes -/

namespace Draft

variable {d e : Draft} {event : Event} {id : Nat}

theorem marks_of_mem_fieldsOf {c : Container} {modifiers : List Modifier}
    {annotations : List AnnotationUse} {ty : Ty} {declarators : List Declarator}
    {fields : List Field} (h : fieldsOf c modifiers annotations ty declarators = .ok fields) :
    ∀ f ∈ fields, (⟨f.modifiers, f.annotations⟩ : Marks) = ⟨modifiers, annotations⟩ := by
  induction declarators generalizing fields with
  | nil =>
    cases h
    intro f hf
    cases hf
  | cons v vs ih =>
    obtain ⟨value, -, rest, hrest, rfl⟩ := fieldsOf_cons_eq_ok_iff.mp h
    intro f hf
    rcases List.mem_cons.mp hf with rfl | hf
    · rfl
    · exact ih hrest f hf

/-- An element of the declaration `id` before and after an event: it stays as it is, or the event
makes it and attaches what waits. -/
def Settles (d : Draft) (event : Event) (id : Nat) (element : Element) (old new : Option Marks) :
    Prop :=
  new = old ∨ event.makes element ∧ old = none ∧ ∃ as,
    AnnotationUse.ofWrittenList (.type id) d.annotations = .ok as ∧
    new = some ⟨event.modifiersOf d.modifiers, as⟩

theorem settles_of_adds {element : Element} {old new : Option Marks} {as : List AnnotationUse}
    (hmakes : event.makes element)
    (has : AnnotationUse.ofWrittenList (.type id) d.annotations = .ok as)
    (h : Adds ⟨event.modifiersOf d.modifiers, as⟩ old new) : d.Settles event id element old new :=
  h.imp_right fun ⟨hold, hnew⟩ => ⟨hmakes, hold, as, has, hnew⟩

/-- Fields that all have what waits. -/
theorem settles_fields {as : List AnnotationUse} {fields : List Field}
    (hmakes : ∀ i, event.makes (.field i))
    (has : AnnotationUse.ofWrittenList (.type id) d.annotations = .ok as)
    (hfields : ∀ f ∈ fields, (⟨f.modifiers, f.annotations⟩ : Marks) =
      ⟨event.modifiersOf d.modifiers, as⟩) (x : Declaration) (element : Element) :
    d.Settles event id element (x.marksAt? element)
      (((Edit.fields fields).apply x).marksAt? element) := by
  cases element with
  | field i =>
    refine settles_of_adds (hmakes i) has ?_
    show Adds _ (x.body.fields[i]?.map _) ((x.body.addFields fields).fields[i]?.map _)
    rcases Body.fields_addFields x.body fields with h | h
    · rw [h]
      exact .inl rfl
    · rw [h]
      exact adds_append hfields i
  | _ =>
    left
    simp only [Declaration.marksAt?, Declaration.constants, Declaration.constructors, Edit.apply,
      Body.constants_addFields, Body.constructors_addFields]

theorem Edits.settles {edit : Edit} (h : d.Edits id event edit) (x : Declaration)
    (element : Element) :
    d.Settles event id element (x.marksAt? element) ((edit.apply x).marksAt? element) := by
  cases h with
  | typeParam _ has =>
    cases element with
    | typeParam i => exact settles_of_adds rfl has (adds_append (by simp [Event.modifiersOf]) i)
    | _ => exact .inl rfl
  | bound _ _ =>
    left
    cases element with
    | typeParam i =>
      simp only [Declaration.marksAt?, Edit.apply]
      exact map_getElem?_modify (by intro a; rfl) _ i
    | _ => rfl
  | superclass _ =>
    left
    cases element <;> simp only [Declaration.marksAt?, Declaration.fields, Declaration.constants,
      Declaration.constructors, Edit.apply, Body.fields_withSuperclass,
      Body.constants_withSuperclass, Body.constructors_withSuperclass]
  | interface _ => exact .inl (by cases element <;> rfl)
  | fields has hfs => exact settles_fields (fun _ => rfl) has (marks_of_mem_fieldsOf hfs) x element
  | component has =>
    exact settles_fields (fun _ => rfl) has (by simp [Event.modifiersOf]) x element
  | constant has =>
    cases element with
    | constant i =>
      refine settles_of_adds rfl has ?_
      show Adds _ (x.body.constants[i]?.map _) ((x.body.addConstant _).constants[i]?.map _)
      rcases Body.constants_addConstant x.body _ with h | h
      · rw [h]
        exact .inl rfl
      · rw [h]
        exact adds_append (by simp [Event.modifiersOf]) i
    | _ =>
      left
      simp only [Declaration.marksAt?, Declaration.fields, Declaration.constructors, Edit.apply,
        Body.fields_addConstant, Body.constructors_addConstant]
  | method _ has =>
    cases element with
    | method i => exact settles_of_adds rfl has (adds_append (by simp [Event.modifiersOf]) i)
    | methodParam i j => exact .inl (bind_getElem?_append rfl i)
    | _ => exact .inl rfl
  | constructor _ _ has =>
    cases element with
    | constructor i =>
      refine settles_of_adds rfl has ?_
      show Adds _ (x.body.constructors[i]?.map _)
        ((x.body.mapConstructors (· ++ [_])).constructors[i]?.map _)
      rcases Body.constructors_mapConstructors_or x.body _ with h | h
      · rw [h]
        exact .inl rfl
      · rw [h]
        exact adds_append (by simp [Event.modifiersOf]) i
    | constructorParam i j =>
      left
      show ((x.body.mapConstructors (· ++ [_])).constructors[i]?.bind _) =
        x.body.constructors[i]?.bind _
      rcases Body.constructors_mapConstructors_or x.body _ with h | h
      · rw [h]
      · rw [h]
        exact bind_getElem?_append rfl i
    | _ =>
      left
      simp only [Declaration.marksAt?, Declaration.fields, Declaration.constants, Edit.apply,
        Body.fields_mapConstructors, Body.constants_mapConstructors]
  | @param name ty varargs slot as _ has =>
    cases slot with
    | method index =>
      cases element with
      | method i =>
        left
        simp only [Declaration.marksAt?, Edit.apply]
        exact map_getElem?_modify (by intro a; rfl) _ i
      | methodParam i j =>
        refine settles_of_adds rfl has (adds_bind_modify (fun m => ?_) index i)
        exact adds_append (by simp [Event.modifiersOf]) j
      | _ => exact .inl rfl
    | constructor index =>
      cases element with
      | constructor i =>
        left
        show ((x.body.mapConstructors _).constructors[i]?.map _) = x.body.constructors[i]?.map _
        rcases Body.constructors_mapConstructors_or x.body _ with h | h
        · rw [h]
        · rw [h]
          exact map_getElem?_modify (by intro a; rfl) _ i
      | constructorParam i j =>
        refine settles_of_adds rfl has ?_
        show Adds _ (x.body.constructors[i]?.bind _)
          ((x.body.mapConstructors _).constructors[i]?.bind _)
        rcases Body.constructors_mapConstructors_or x.body _ with h | h
        · rw [h]
          exact .inl rfl
        · rw [h]
          refine adds_bind_modify (fun c => ?_) index i
          exact adds_append (by simp [Event.modifiersOf]) j
      | _ =>
        left
        simp only [Declaration.marksAt?, Declaration.fields, Declaration.constants, Edit.apply,
          Body.fields_mapConstructors, Body.constants_mapConstructors]

/-! ## Events, one after the other -/

theorem marksAt?_begun {kind : Kind} {name : String} {c : Container} {modifiers : List Modifier}
    {as : List AnnotationUse} {element : Element} (h : element ≠ .type) :
    ({ Declaration.empty kind name c with modifiers, annotations := as } : Declaration).marksAt?
      element = none := by
  cases element with
  | type => exact absurd rfl h
  | typeParam i => rfl
  | method i => rfl
  | methodParam i j => rfl
  | _ => cases kind <;> rfl

theorem marksAt?_of_nested (x : Declaration) (nested : List Nat) (element : Element) :
    ({ x with nested } : Declaration).marksAt? element = x.marksAt? element := by
  cases element <;> rfl

/-- An accepted event makes elements of one declaration, and leaves all others as they are. -/
theorem DeclStep.settles (h : DeclStep d e event) : ∃ target, ∀ id element,
    d.Settles event id element (d.unit.marksAt? id element) (e.unit.marksAt? id element) ∧
      (id ≠ target → e.unit.marksAt? id element = d.unit.marksAt? id element) := by
  cases h with
  | same hdecls =>
    have hsame : ∀ id element, e.unit.marksAt? id element = d.unit.marksAt? id element := by
      intro id element
      unfold SourceUnit.marksAt? SourceUnit.decl?
      rw [hdecls]
    exact ⟨0, fun id element => ⟨.inl (hsame id element), fun _ => hsame id element⟩⟩
  | @begins kind name as hevent has hunit =>
    subst hevent
    have hold : ∀ id element, id ≠ d.unit.decls.length →
        e.unit.marksAt? id element = d.unit.marksAt? id element := by
      intro id element hne
      unfold SourceUnit.marksAt?
      rw [hunit, SourceUnit.decl?_addDecl, if_neg hne]
      cases d.unit.decl? id with
      | none => rfl
      | some y =>
        show Declaration.marksAt? (if _ then _ else y) element = y.marksAt? element
        split
        · exact marksAt?_of_nested y _ element
        · rfl
    refine ⟨d.unit.decls.length, fun id element => ⟨?_, hold id element⟩⟩
    by_cases hid : id = d.unit.decls.length
    · subst hid
      have hnone : d.unit.marksAt? d.unit.decls.length element = none := by
        unfold SourceUnit.marksAt? SourceUnit.decl?
        rw [List.getElem?_eq_none (Nat.le_refl _)]
        rfl
      have hnew : e.unit.marksAt? d.unit.decls.length element = Declaration.marksAt?
          { Declaration.empty kind name d.container with
            modifiers := d.modifiers, annotations := as } element := by
        unfold SourceUnit.marksAt?
        rw [hunit, SourceUnit.decl?_addDecl, if_pos rfl]
        rfl
      rw [hnone, hnew]
      by_cases hel : element = .type
      · subst hel
        exact .inr ⟨rfl, rfl, as, has, rfl⟩
      · exact .inl (marksAt?_begun hel)
    · exact .inl (hold id element hid)
  | @edits target edit _ hedit hunit =>
    have hold : ∀ id element, id ≠ target →
        e.unit.marksAt? id element = d.unit.marksAt? id element := by
      intro id element hne
      unfold SourceUnit.marksAt?
      rw [hunit, SourceUnit.decl?_modifyDecl, if_neg hne]
    refine ⟨target, fun id element => ⟨?_, hold id element⟩⟩
    by_cases hid : id = target
    · subst hid
      unfold SourceUnit.marksAt?
      rw [hunit, SourceUnit.decl?_modifyDecl, if_pos rfl]
      cases d.unit.decl? id with
      | none => exact .inl rfl
      | some x => exact hedit.settles x element
    · exact .inl (hold id element hid)

/-- What waits after an accepted event: what it did not take, and what it brings. -/
theorem waiting_of_eq_ok (h : d.feed event = .ok e) :
    e.modifiers = (d.drop event.share).modifiers ++ event.modifier?.toList ∧
      e.annotations = (d.drop event.share).annotations ++ event.annotation?.toList := by
  obtain ⟨effect, -, rfl⟩ := exists_effect_of_eq_ok h
  -- no effect touches what waits
  cases effect <;> exact ⟨rfl, rfl⟩

end Draft

end SourceModel
