import SourceModel.Proofs.Names
import SourceModel.Proofs.Preorder
import SourceModel.Proofs.ReferenceOrder

/-!
# Remembered targets

What is remembered never shows in an answer. A memo is faithful if it holds, for each reference,
what the reference stands for and nothing else (`Memo.Faithful`). A question is steady if a
faithful memo stays faithful and loses nothing, and if the answer is the one it has when nothing is
remembered (`Steady`). Looking up a single reference is steady, questions put together from steady
ones are, and so is a whole history of them.
-/

namespace SourceModel

/-! ## Faithful memos -/

/-- What may annotate: an annotation type of the project, or a type outside of it. -/
def Target.IsAnnotationType (p : Project) (t : Target) : Prop :=
  (∃ id d, t = .declared id ∧ p.decl? id = some d ∧ d.kind = .annotationType) ∨
    ∃ name, t = .external name

theorem Target.mayAnnotate_iff {p : Project} {t : Target} :
    t.mayAnnotate p = true ↔ t.IsAnnotationType p := by
  unfold IsAnnotationType mayAnnotate
  cases t with
  | declared id => simp [Option.any_eq_true]
  | typeParam owner index => simp
  | external name => simp

namespace Project

/-- An annotation that is written in a unit stands for the target. -/
def Annotates (p : Project) (unit : Nat) (use : AnnotationUse) (t : Target) : Prop :=
  p.resolve ⟨unit, use.container⟩ (Name.lastSegment use.name) = .ok t ∧ t.IsAnnotationType p

/-- The reference at the address stands for the target: a type for that of its dotted name, looked
up in its container, an annotation for that of the last segment. -/
def StandsFor (p : Project) : Address → Target → Prop
  | .annotationUse site, t =>
    ∃ use, p.annotationAt? site = some use ∧ p.Annotates site.decl.unit use t
  | .annotationValue decl site, t =>
    ∃ use, p.annotationValueAt? decl site = some use ∧ p.Annotates decl.unit use t
  | .type site, t =>
    ∃ ty, p.namedTypeAt? site = some ty ∧
      p.resolve ⟨site.decl.unit, ty.container⟩ ty.dottedName = .ok t

theorem resolveAnnotation_eq_ok_iff {p : Project} {unit : Nat} {use : AnnotationUse} {t : Target} :
    p.resolveAnnotation unit use = .ok t ↔ p.Annotates unit use t := by
  have hchoice : ∀ found e, (if found.mayAnnotate p then Except.ok found else .error e) =
      (Except.ok t : Except LookupError Target) ↔ found = t ∧ t.mayAnnotate p := by
    intro found e
    by_cases h : found.mayAnnotate p
    · rw [if_pos h, Except.ok.injEq]
      exact ⟨fun ht => ⟨ht, ht ▸ h⟩, fun ht => ht.1⟩
    · rw [if_neg h]
      constructor
      · intro ht
        cases ht
      · rintro ⟨rfl, ht⟩
        exact absurd ht h
  simp only [bind_eq_ok_iff, resolveAnnotation, hchoice, Annotates, Target.mayAnnotate_iff,
    AnnotationUse.simpleName, Name.simple_eq_lastSegment]
  constructor
  · rintro ⟨found, hr, rfl, ht⟩
    exact ⟨hr, ht⟩
  · rintro ⟨hr, ht⟩
    exact ⟨t, hr, rfl, ht⟩

end Project

namespace Memo

variable {p : Project} {m n : Memo}

/-- Every cell is empty or holds what the reference stands for. -/
def Faithful (p : Project) (m : Memo) : Prop :=
  ∀ a t, m.get? a = some t → p.StandsFor a t

/-- What is in `m` is in `n`. -/
def Sub (m n : Memo) : Prop :=
  ∀ a t, m.get? a = some t → n.get? a = some t

theorem Sub.refl (m : Memo) : m.Sub m := fun _ _ h => h

theorem Sub.trans {k : Memo} (h : m.Sub n) (h' : n.Sub k) : m.Sub k :=
  fun a t ha => h' a t (h a t ha)

theorem get?_empty (a : Address) : empty.get? a = none := rfl

theorem faithful_empty (p : Project) : empty.Faithful p := by
  intro a t h
  rw [get?_empty] at h
  cases h

theorem Faithful.insert (h : m.Faithful p) {a : Address} {t : Target} (ht : p.StandsFor a t) :
    (m.insert a t).Faithful p := by
  intro b s hb
  rw [get?_insert] at hb
  by_cases hba : b = a
  · rw [if_pos hba] at hb
    cases hb
    rw [hba]
    exact ht
  · rw [if_neg hba] at hb
    exact h b s hb

theorem sub_insert {a : Address} (h : m.get? a = none) (t : Target) : m.Sub (m.insert a t) := by
  intro b s hb
  have hba : b ≠ a := by
    rintro rfl
    rw [h] at hb
    cases hb
  rw [get?_insert, if_neg hba]
  exact hb

end Memo

/-! ## Steady questions -/

/-- From a faithful memo the question leads to a faithful one, loses nothing, and has the answer
that it has when nothing is remembered. -/
structure Steady {α : Type} (p : Project) (q : QueryM α) : Prop where
  answer : ∀ m : Memo, m.Faithful p → (q m).1 = (q .empty).1
  faithful : ∀ m : Memo, m.Faithful p → (q m).2.Faithful p
  sub : ∀ m : Memo, m.Sub (q m).2

section Steady

variable {p : Project} {α β : Type}

theorem steady_pure (a : α) : Steady p (pure a : QueryM α) where
  answer _ _ := rfl
  faithful _ hm := hm
  sub m := .refl m

theorem Steady.bind {q : QueryM α} {f : α → QueryM β} (hq : Steady p q)
    (hf : ∀ a, Steady p (f a)) : Steady p (q >>= f) where
  answer m hm := by
    show (f (q m).1 (q m).2).1 = (f (q .empty).1 (q .empty).2).1
    have hstart := Memo.faithful_empty p
    rw [hq.answer m hm, (hf _).answer _ (hq.faithful m hm),
      (hf _).answer _ (hq.faithful _ hstart)]
  faithful m hm := (hf _).faithful _ (hq.faithful m hm)
  sub m := (hq.sub m).trans ((hf _).sub _)

theorem Steady.map {q : QueryM α} (hq : Steady p q) (f : α → β) : Steady p (f <$> q) :=
  hq.bind fun a => steady_pure (f a)

/-- The answer for an address is steady if it succeeds with what the reference there stands for. -/
theorem steady_consult {a : Address} {answer : Except LookupError Target}
    (h : ∀ t, answer = .ok t ↔ p.StandsFor a t) : Steady p (consult a answer) where
  answer m hm := by
    have hfresh : (consult a answer .empty).1 = answer := by
      unfold consult
      rw [Memo.get?_empty]
      cases answer <;> rfl
    rw [hfresh]
    unfold consult
    cases hc : m.get? a with
    | none => cases answer <;> rfl
    | some t => exact ((h t).mpr (hm a t hc)).symm
  faithful m hm := by
    unfold consult
    cases hc : m.get? a with
    | some t => exact hm
    | none =>
      cases answer with
      | error e => exact hm
      | ok t => exact hm.insert ((h t).mp rfl)
  sub m := by
    unfold consult
    cases hc : m.get? a with
    | some t => exact .refl m
    | none =>
      cases answer with
      | error e => exact .refl m
      | ok t => exact Memo.sub_insert hc t

end Steady

/-! ## Types -/

section Types

variable {p : Project} {site : TypeSite}

theorem namedTypeAt?_of_typeAt? {n : NamedType} (h : p.typeAt? site = some (.named n)) :
    p.namedTypeAt? site = some n := by
  obtain ⟨spot, hs, ht⟩ := Option.bind_eq_some_iff.mp h
  unfold Project.namedTypeAt?
  rw [hs]
  cases spot with
  | type ty =>
    cases ht
    rfl
  | named ty => cases ht

theorem steady_targetOfType {ty : NamedType} (h : p.namedTypeAt? site = some ty) :
    Steady p (p.targetOfType site ty) := by
  refine steady_consult fun t => ?_
  unfold Project.StandsFor Project.resolveType
  simp [h]

theorem steady_canonicalName {ty : NamedType} (h : p.namedTypeAt? site = some ty) :
    Steady p (p.canonicalName site ty) :=
  (steady_targetOfType h).bind fun _ => steady_pure _

theorem steady_unboxed? {ty : Ty} (h : p.typeAt? site = some ty) :
    Steady p (p.unboxed? site ty) := by
  cases ty with
  | primitive q => exact steady_pure _
  | named n => exact (steady_canonicalName (namedTypeAt?_of_typeAt? h)).bind fun _ => steady_pure _
  | array component dimension => exact steady_pure _

theorem steady_isBoolean {ty : Ty} (h : p.typeAt? site = some ty) :
    Steady p (p.isBoolean site ty) :=
  (steady_unboxed? h).bind fun _ => steady_pure _

theorem steady_isNumber {ty : Ty} (h : p.typeAt? site = some ty) :
    Steady p (p.isNumber site ty) :=
  (steady_unboxed? h).bind fun _ => steady_pure _

theorem steady_isString {ty : Ty} (h : p.typeAt? site = some ty) :
    Steady p (p.isString site ty) := by
  cases ty with
  | primitive q => exact steady_pure _
  | named n =>
    refine (steady_canonicalName (namedTypeAt?_of_typeAt? h)).bind fun r => ?_
    cases r <;> exact steady_pure _
  | array component dimension => exact steady_pure _

end Types

/-! ## Annotations -/

section Annotations

variable {p : Project}

theorem steady_targetOfUse {site : AnnotationSite} {use : AnnotationUse}
    (h : p.annotationAt? site = some use) : Steady p <| p.targetOfAnnotation site use := by
  refine steady_consult fun t => ?_
  rw [Project.resolveAnnotation_eq_ok_iff]
  unfold Project.StandsFor
  simp [h]

theorem steady_targetOfValue {decl : DeclId} {site : ValueSite} {use : AnnotationUse}
    (h : p.annotationValueAt? decl site = some use) : Steady p (p.targetOfValue decl site use) := by
  refine steady_consult fun t => ?_
  rw [Project.resolveAnnotation_eq_ok_iff]
  unfold Project.StandsFor
  simp [h]

theorem annotationAt?_of_annotationsAt? {decl : DeclId} {element : Element}
    {uses : List AnnotationUse} (h : p.annotationsAt? decl element = some uses) (i : Nat) :
    p.annotationAt? ⟨decl, element, i⟩ = uses[i]? := by
  obtain ⟨d, hd, hu⟩ := Option.bind_eq_some_iff.mp h
  unfold Project.annotationAt? Declaration.annotationAt?
  rw [hd, Option.bind_some, hu, Option.bind_some]

/-- The search among annotations, of which those from number `i` on are left. -/
theorem steady_findUse {decl : DeclId} {element : Element} (name : String)
    {uses : List AnnotationUse} {i : Nat}
    (h : NumberedFrom (fun i => p.annotationAt? ⟨decl, element, i⟩) i uses) :
    Steady p <| p.findAnnotation decl element name i uses := by
  induction uses generalizing i with
  | nil => exact steady_pure _
  | cons use rest ih =>
    refine (steady_targetOfUse h.head).bind fun r => ?_
    cases r with
    | error e => exact steady_pure _
    | ok t =>
      show Steady p (if t.canonicalName p == name then _ else _)
      split
      · exact steady_pure _
      · exact ih h.tail

end Annotations

/-! ## Properties -/

section Properties

variable {p : Project} {id : DeclId} {d : Declaration} (hd : p.decl? id = some d)

include hd

theorem steady_returnsBoolean {i : Nat} {m : Method} (hm : d.methods[i]? = some m) :
    Steady p (p.returnsBoolean id i m) := by
  refine steady_isBoolean ?_
  simp [Project.typeAt?, Project.spotAt?, hd, Declaration.heldAt?, Declaration.spotAt?, hm,
    Spot.at?]

theorem steady_isGetter {i : Nat} {m : Method} (hm : d.methods[i]? = some m) :
    Steady p (p.isGetter id d i m) := by
  unfold Project.isGetter
  split
  · split
    · exact steady_pure _
    · split
      · exact steady_returnsBoolean hd hm
      · exact steady_pure _
  · exact steady_pure _

theorem steady_propertyName {i : Nat} {m : Method} (hm : d.methods[i]? = some m) :
    Steady p (p.propertyName id i m) := by
  unfold Project.propertyName
  split
  · exact steady_pure _
  · split
    · refine (steady_returnsBoolean hd hm).bind fun b => ?_
      split <;> exact steady_pure _
    · exact steady_pure _

theorem Project.typeAt?_field {i : Nat} {f : Field} (hf : d.fields[i]? = some f) :
    p.typeAt? ⟨id, Slot.field i, []⟩ = some f.ty := by
  simp [Project.typeAt?, Project.spotAt?, hd, Declaration.heldAt?, Declaration.spotAt?, hf,
    Spot.at?]

theorem steady_getterName {i : Nat} {f : Field} (hf : d.fields[i]? = some f) :
    Steady p (p.getterName id i f) := by
  refine (steady_isBoolean (Project.typeAt?_field hd hf)).bind fun b => ?_
  split <;> exact steady_pure _

/-- The getters among the methods, of which those from number `i` on are left. -/
theorem steady_addGetters {ms : List Method} {i : Nat} (h : NumberedFrom (d.methods[·]?) i ms)
    (qs : List Property) : Steady p (p.addGetters id d qs i ms) := by
  induction ms generalizing i qs with
  | nil => exact steady_pure _
  | cons m ms ih =>
    refine (steady_isGetter hd h.head).bind fun b => ?_
    split
    · refine (steady_propertyName hd h.head).bind fun r => ?_
      cases r with
      | ok name => exact ih h.tail _
      | error e => exact steady_pure _
    · exact ih h.tail qs

theorem steady_addSetters {ms : List Method} {i : Nat} (h : NumberedFrom (d.methods[·]?) i ms)
    (qs : List Property) : Steady p (p.addSetters id d qs i ms) := by
  induction ms generalizing i qs with
  | nil => exact steady_pure _
  | cons m ms ih =>
    unfold Project.addSetters
    split
    · refine (steady_propertyName hd h.head).bind fun r => ?_
      cases r with
      | ok name =>
        cases m.params with
        | nil => exact ih h.tail qs
        | cons param _ => exact ih h.tail _
      | error e => exact steady_pure _
    · exact ih h.tail qs

theorem steady_properties : Steady p (p.properties id d) := by
  have hall : NumberedFrom (d.methods[·]?) 0 d.methods := numberedFrom_zero fun _ => rfl
  unfold Project.properties
  split
  · refine (steady_addGetters hd hall _).bind fun r => ?_
    cases r with
    | ok qs => exact steady_addSetters hd hall qs
    | error e => exact steady_pure _
  · exact steady_pure _

end Properties

/-! ## Rendering -/

section Rendering

variable {p : Project} {decl : DeclId} {slot : TypeSlot} {α β : Type}

theorem Steady.bindExcept {x : RenderM α} {f : α → RenderM β} (hx : Steady p x.run)
    (hf : ∀ a, Steady p (f a).run) : Steady p (x >>= f).run := by
  show Steady p (x.run >>= ExceptT.bindCont f)
  refine hx.bind fun r => ?_
  cases r with
  | error e => exact steady_pure _
  | ok a => exact hf a

theorem Steady.lift {q : QueryM α} (hq : Steady p q) : Steady p (liftM q : RenderM α).run :=
  hq.map Except.ok

theorem steady_require {ty : Ty} {text : RenderM (Option String)} (h : Steady p text.run) :
    Steady p (Rendering.require ty text).run := by
  refine h.bindExcept fun s => ?_
  cases s <;> exact steady_pure _

theorem steady_requireWildcard {text : RenderM (Option String)} (h : Steady p text.run) :
    Steady p (Rendering.requireWildcard text).run := by
  refine h.bindExcept fun s => ?_
  cases s <;> exact steady_pure _

theorem spotAt?_snoc {path : Path} {spot next : Spot} {s : Step}
    (h : p.spotAt? ⟨decl, slot, path⟩ = some spot) (hs : spot.step? s = some next) :
    p.spotAt? ⟨decl, slot, path ++ [s]⟩ = some next := by
  obtain ⟨d, hd, h⟩ := Option.bind_eq_some_iff.mp h
  obtain ⟨held, hheld, h⟩ := Option.bind_eq_some_iff.mp h
  unfold Project.spotAt?
  rw [hd, Option.bind_some, hheld, Option.bind_some, Spot.at?_append, h, Option.bind_some,
    Spot.at?_singleton, hs]

mutual

theorem steady_render (path : Path) (ty : Ty)
    (h : p.spotAt? ⟨decl, slot, path⟩ = some (.type ty)) :
    Steady p ((Rendering.qualified p decl slot).render path ty).run := by
  match ty with
  | .primitive q =>
    rw [Rendering.render]
    exact steady_require (steady_pure _)
  | .named n =>
    rw [Rendering.render]
    exact steady_renderNamed path n h rfl
  | .array component dimension =>
    rw [Rendering.render]
    have hc := spotAt?_snoc h (s := .component) rfl
    exact steady_require ((steady_render _ component hc).bindExcept fun _ => steady_pure _)

theorem steady_renderNamed (path : Path) (ty : NamedType) {spot : Spot}
    (h : p.spotAt? ⟨decl, slot, path⟩ = some spot) (hs : spot.named? = some ty) :
    Steady p ((Rendering.qualified p decl slot).renderNamed path ty).run := by
  match ty with
  | ⟨container, qualifier, name, args⟩ =>
    rw [Rendering.renderNamed]
    have hn : p.namedTypeAt? ⟨decl, slot, path⟩ = some ⟨container, qualifier, name, args⟩ := by
      unfold Project.namedTypeAt?
      rw [h, Option.bind_some, hs]
    have hargs := steady_renderArgs path 0 args h hs (numberedFrom_zero fun _ => rfl)
    refine steady_require ?_
    refine (steady_canonicalName hn).lift.bindExcept fun r => ?_
    cases r with
    | error e => exact steady_pure _
    | ok canonical =>
      refine Steady.bindExcept (hargs.bindExcept fun _ => steady_pure _) fun _ => ?_
      exact steady_pure _

theorem steady_renderArg (path : Path) (a : TyArg)
    (h : ∀ ty, a.ty? = some ty → p.spotAt? ⟨decl, slot, path⟩ = some (.type ty)) :
    Steady p ((Rendering.qualified p decl slot).renderArg path a).run := by
  match a with
  | .type ty =>
    rw [Rendering.renderArg]
    exact steady_render path ty (h ty rfl)
  | .wildcard =>
    rw [Rendering.renderArg]
    exact steady_requireWildcard (steady_pure _)
  | .bounded kind bound =>
    rw [Rendering.renderArg]
    exact steady_requireWildcard
      ((steady_render path bound (h bound rfl)).bindExcept fun _ => steady_pure _)

theorem steady_renderArgs (path : Path) (i : Nat) (args : List TyArg) {spot : Spot}
    {ty : NamedType} (h : p.spotAt? ⟨decl, slot, path⟩ = some spot) (hs : spot.named? = some ty)
    (hargs : NumberedFrom (ty.args[·]?) i args) :
    Steady p ((Rendering.qualified p decl slot).renderArgs path i args).run := by
  match args with
  | [] =>
    rw [Rendering.renderArgs]
    exact steady_pure _
  | a :: rest =>
    rw [Rendering.renderArgs]
    have ha : ∀ inner, a.ty? = some inner →
        p.spotAt? ⟨decl, slot, path ++ [.arg i]⟩ = some (.type inner) :=
      fun inner hi => spotAt?_snoc h (Spot.step?_arg hs hargs.head hi)
    have hrest := steady_renderArgs path (i + 1) rest h hs hargs.tail
    exact (steady_renderArg _ a ha).bindExcept fun _ =>
      hrest.bindExcept fun _ => steady_pure _

end

end Rendering

/-! ## The check of a unit -/

section Check

variable {p : Project} {id : DeclId} {d : Declaration}

theorem steady_targetOf (hd : p.decl? id = some d) {r : Reference} (hr : r.StandsIn d) :
    Steady p (p.targetOf id r) := by
  cases r with
  | annotationUse element index use =>
    exact steady_targetOfUse (Project.annotationAt?_eq_some_iff.mpr ⟨d, hd, hr⟩)
  | type slot o => exact steady_targetOfType (Project.namedTypeAt?_eq_some_iff.mpr ⟨d, hd, hr⟩)

theorem steady_checkReferences (hd : p.decl? id = some d) (location : String)
    {rs : List Reference} (h : ∀ r ∈ rs, r.StandsIn d) :
    Steady p (p.checkReferences id location rs) := by
  induction rs with
  | nil => exact steady_pure _
  | cons r rs ih =>
    have hrest := ih fun r hr => h r (.tail _ hr)
    refine (steady_targetOf hd (h r (.head _))).bind fun answer => ?_
    cases answer with
    | ok t => exact hrest
    | error e => exact hrest.bind fun _ => steady_pure _

theorem steady_checkDecls {u : SourceUnit} {unit : Nat} (hu : p.unit? unit = some u)
    {decls : List (Nat × Declaration)} (h : ∀ x ∈ decls, u.decl? x.1 = some x.2) :
    Steady p (p.checkDecls u unit decls) := by
  induction decls with
  | nil => exact steady_pure _
  | cons x decls ih =>
    have hx : p.decl? ⟨unit, x.1⟩ = some x.2 := by
      unfold Project.decl?
      rw [hu, Option.bind_some]
      exact h x (.head _)
    refine (steady_checkReferences hx _ x.2.standsIn_of_mem_references).bind fun _ => ?_
    exact (ih fun y hy => h y (.tail _ hy)).bind fun _ => steady_pure _

theorem steady_checkUnit {u : SourceUnit} {unit : Nat} (hu : p.unit? unit = some u) :
    Steady p (p.checkUnit unit u) :=
  (steady_checkDecls hu fun _ hx => SourceUnit.decl?_of_mem_visit hx).bind fun _ => steady_pure _

end Check

/-! ## Histories -/

namespace Query

variable {p : Project} {α β : Type}

theorem steady_about {found : Option α} {ask : α → QueryM β}
    (h : ∀ a, found = some a → Steady p (ask a)) : Steady p (about found ask) := by
  cases found with
  | none => exact steady_pure _
  | some a => exact (h a rfl).map some

theorem steady_run (p : Project) (q : Query) : Steady p (q.run p) := by
  cases q with
  | target address =>
    cases address with
    | annotationUse site => exact steady_about fun use => steady_targetOfUse
    | annotationValue decl site => exact steady_about fun use => steady_targetOfValue
    | type site => exact steady_about fun ty => steady_targetOfType
  | canonicalName site => exact steady_about fun ty => steady_canonicalName
  | isBoolean site => exact steady_about fun ty => steady_isBoolean
  | isNumber site => exact steady_about fun ty => steady_isNumber
  | isString site => exact steady_about fun ty => steady_isString
  | isAnnotated decl element name =>
    refine steady_about fun uses h => ?_
    have hall := numberedFrom_zero (annotationAt?_of_annotationsAt? h)
    exact (steady_findUse name hall).bind fun _ => steady_pure _
  | annotationValue decl element name valueName =>
    refine steady_about fun uses h => ?_
    have hall := numberedFrom_zero (annotationAt?_of_annotationsAt? h)
    exact (steady_findUse name hall).bind fun _ => steady_pure _
  | isGetter decl method =>
    refine steady_about fun (d, m) h => ?_
    obtain ⟨d', hd, h⟩ := Option.bind_eq_some_iff.mp h
    obtain ⟨m', hm, heq⟩ := Option.map_eq_some_iff.mp h
    cases heq
    exact steady_isGetter hd hm
  | getterName decl field =>
    refine steady_about fun f h => ?_
    obtain ⟨d, hd, hf⟩ := Option.bind_eq_some_iff.mp h
    exact steady_getterName hd hf
  | properties decl => exact steady_about fun d => steady_properties
  | rendering site =>
    refine steady_about fun ty h => ?_
    obtain ⟨spot, hs, ht⟩ := Option.bind_eq_some_iff.mp h
    cases spot with
    | type ty' =>
      cases ht
      exact steady_render site.path ty hs
    | named n => cases ht
  | checkUnit unit => exact steady_about fun u => steady_checkUnit
  | dump unit => exact steady_about fun u _ => steady_pure u.dump

/-- Questions asked one after the other keep a memo faithful and lose nothing. -/
theorem faithful_foldl (history : List Query) {m : Memo} (hm : m.Faithful p) :
    (history.foldl (fun m q => (q.run p m).2) m).Faithful p ∧
      m.Sub (history.foldl (fun m q => (q.run p m).2) m) := by
  induction history generalizing m with
  | nil => exact ⟨hm, .refl m⟩
  | cons q history ih =>
    have hq := steady_run p q
    obtain ⟨hf, hs⟩ := ih (hq.faithful m hm)
    exact ⟨hf, (hq.sub m).trans hs⟩

theorem faithful_remembered (p : Project) (history : List Query) :
    (remembered p history).Faithful p :=
  (faithful_foldl history (Memo.faithful_empty p)).1

theorem sub_remembered_append (p : Project) (history later : List Query) :
    (remembered p history).Sub (remembered p (history ++ later)) := by
  unfold remembered
  rw [List.foldl_append]
  exact (faithful_foldl later (faithful_remembered p history)).2

theorem remembered_append_singleton (p : Project) (history : List Query) (q : Query) :
    remembered p (history ++ [q]) = (q.run p (remembered p history)).2 := by
  unfold remembered
  rw [List.foldl_append]
  rfl

/-- The cell that was consulted holds the answer if it is a target, and else nothing. -/
theorem get?_consult (a : Address) (answer : Except LookupError Target) (m : Memo) :
    (consult a answer m).2.get? a = (consult a answer m).1.toOption := by
  unfold consult
  cases hc : m.get? a with
  | some t => exact hc
  | none =>
    cases answer with
    | error e => exact hc
    | ok t =>
      show (m.insert a t).get? a = some t
      rw [Memo.get?_insert, if_pos rfl]

theorem get?_run_target {a : Address} {m : Memo} {r : Except LookupError Target}
    (h : ((target a).run p m).1 = some r) : ((target a).run p m).2.get? a = r.toOption := by
  have habout : ∀ {α : Type} (found : Option α) (answer : α → Except LookupError Target),
      (about found (fun x => consult a (answer x)) m).1 = some r →
        (about found (fun x => consult a (answer x)) m).2.get? a = r.toOption := by
    intro α found answer h
    cases found with
    | none => cases h
    | some x =>
      have hr : (consult a (answer x) m).1 = r := Option.some.inj h
      rw [← hr]
      exact get?_consult a (answer x) m
  cases a with
  | annotationUse site => exact habout _ _ h
  | annotationValue decl site => exact habout _ _ h
  | type site => exact habout _ _ h

/-- Whatever was asked before, a question has the answer that it has when nothing is remembered. A
cell that is filled holds what its reference stands for and keeps it, and the cell of a reference
that stands for nothing stays empty. Once a reference has been looked up, its cell holds the target
if there is one. -/
theorem answers_do_not_depend_on_history (p : Project) (history : List Query) :
    (∀ q : Query, (q.run p (remembered p history)).1 = (q.run p .empty).1) ∧
    (∀ a t, (remembered p history).get? a = some t → p.StandsFor a t) ∧
    (∀ later a t, (remembered p history).get? a = some t →
      (remembered p (history ++ later)).get? a = some t) ∧
    (∀ a, (∀ t, ¬ p.StandsFor a t) → (remembered p history).get? a = none) ∧
    ∀ (a : Address) (r : Except LookupError Target),
      ((target a).run p (remembered p history)).1 = some r →
        (remembered p (history ++ [target a])).get? a = r.toOption := by
  have hm := faithful_remembered p history
  refine ⟨fun q => ?_, hm, fun later => ?_, fun a hnone => ?_, fun a r hr => ?_⟩
  · exact (steady_run p q).answer _ hm
  · exact sub_remembered_append p history later
  · rw [Option.eq_none_iff_forall_ne_some]
    intro t ht
    exact hnone t (hm a t ht)
  · rw [remembered_append_singleton]
    exact get?_run_target hr

end Query

end SourceModel
