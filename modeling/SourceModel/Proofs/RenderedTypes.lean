import SourceModel.Proofs.DisplayNames
import SourceModel.Proofs.Remembering

/-!
# Rendered types

A type is rendered with the canonical names of the named types in it. Only the arguments of the
last segment come behind a name: those of a qualifier are neither looked up nor rendered
(`answers_render`). So the text is the display under canonical names (`Ty.displayWith`) for just
those types in which no qualifier has arguments.
-/

namespace SourceModel

/-! ## What is looked up -/

/-- Not in the arguments of a qualifier. -/
def Occurrence.isRendered (o : Occurrence) : Bool :=
  !o.path.contains .qualifier

theorem Occurrence.isRendered_iff {o : Occurrence} :
    o.isRendered = true ↔ Step.qualifier ∉ o.path := by
  simp [isRendered]

theorem Occurrence.isRendered_under {o : Occurrence} {s : Step} :
    (o.under s).isRendered = (s != .qualifier && o.isRendered) := by
  cases s <;> simp [isRendered, under]

namespace Project

/-- Why a named type written in the unit has no target. -/
def lookupError? (p : Project) (unit : Nat) (ty : NamedType) : Option LookupError :=
  match p.resolveType unit ty with
  | .ok _ => none
  | .error e => some e

/-- The canonical name of what a named type written in the unit stands for. -/
def canonicalText (p : Project) (unit : Nat) (ty : NamedType) : String :=
  match p.resolveType unit ty with
  | .ok t => t.canonicalName p
  | .error _ => ""

/-- What goes wrong first with those of the named types that are rendered. -/
def firstError? (p : Project) (unit : Nat) (os : List Occurrence) : Option LookupError :=
  (os.filter (·.isRendered)).findSome? fun o => p.lookupError? unit o.ty

variable {p : Project} {unit : Nat}

theorem lookupError?_eq_none_iff {ty : NamedType} :
    p.lookupError? unit ty = none ↔ ∃ t, p.resolveType unit ty = .ok t := by
  unfold lookupError?
  cases p.resolveType unit ty <;> simp

theorem firstError?_eq_none_iff {os : List Occurrence} :
    p.firstError? unit os = none ↔
      ∀ o ∈ os, Step.qualifier ∉ o.path → ∃ t, p.resolveType unit o.ty = .ok t := by
  simp only [firstError?, List.findSome?_eq_none_iff, List.mem_filter, lookupError?_eq_none_iff,
    Occurrence.isRendered_iff, and_imp]

theorem firstError?_append (os os' : List Occurrence) :
    p.firstError? unit (os ++ os') = (p.firstError? unit os).or (p.firstError? unit os') := by
  rw [firstError?, List.filter_append, List.findSome?_append]
  rfl

theorem firstError?_here (ty : NamedType) (os : List Occurrence) :
    p.firstError? unit (⟨[], ty⟩ :: os) =
      (p.lookupError? unit ty).or (p.firstError? unit os) := by
  rw [firstError?, List.filter_cons_of_pos rfl, List.findSome?_cons]
  cases p.lookupError? unit ty <;> rfl

theorem firstError?_under {s : Step} (hs : s ≠ .qualifier) (os : List Occurrence) :
    p.firstError? unit (os.map (·.under s)) = p.firstError? unit os := by
  have hkeep : ∀ o : Occurrence, (o.under s).isRendered = o.isRendered := by
    intro o
    rw [Occurrence.isRendered_under, bne_iff_ne.mpr hs, Bool.true_and]
  rw [firstError?, firstError?, List.filter_map, List.findSome?_map]
  simp only [Function.comp_def, hkeep]
  rfl

theorem firstError?_underQualifier (os : List Occurrence) :
    p.firstError? unit (os.map (·.under .qualifier)) = none := by
  refine firstError?_eq_none_iff.mpr fun o ho hrendered => ?_
  obtain ⟨o, -, rfl⟩ := List.mem_map.mp ho
  exact absurd List.mem_cons_self hrendered

/-- In a qualifier nothing is looked up. -/
theorem firstError?_inside (ty : NamedType) :
    p.firstError? unit ty.inside = p.firstError? unit (TyArg.occurrencesFrom 0 ty.args) := by
  obtain ⟨container, qualifier, name, args⟩ := ty
  cases qualifier with
  | none => rw [NamedType.inside]
  | some q => rw [NamedType.inside, firstError?_append, firstError?_underQualifier, Option.or_none]

end Project

/-! ## Plain types -/

theorem NamedType.inside_of_bare (ty : NamedType) (h : ty.bare = true) : ty.inside = [] := by
  match ty with
  | ⟨_, none, _, args⟩ =>
    rw [bare, List.isEmpty_iff] at h
    rw [inside, h, TyArg.occurrencesFrom]
  | ⟨_, some q, _, args⟩ =>
    rw [bare, Bool.and_eq_true, List.isEmpty_iff] at h
    rw [inside, h.2, TyArg.occurrencesFrom, inside_of_bare q h.1]
    rfl

mutual

/-- In a plain type everything is rendered. -/
theorem Ty.isRendered_of_plain (t : Ty) (h : t.plain = true) :
    ∀ o ∈ t.occurrences, o.isRendered = true := by
  match t with
  | .primitive p =>
    rw [Ty.occurrences]
    exact List.forall_mem_nil _
  | .named ty =>
    rw [Ty.plain] at h
    rw [Ty.occurrences, List.forall_mem_cons]
    exact ⟨rfl, NamedType.isRendered_of_plain ty h⟩
  | .array component dimension =>
    rw [Ty.plain] at h
    rw [Ty.occurrences, List.forall_mem_map]
    intro o ho
    rw [Occurrence.isRendered_under, Ty.isRendered_of_plain component h o ho]
    rfl

theorem NamedType.isRendered_of_plain (ty : NamedType) (h : ty.plain = true) :
    ∀ o ∈ ty.inside, o.isRendered = true := by
  match ty with
  | ⟨_, none, _, args⟩ =>
    rw [NamedType.plain] at h
    rw [NamedType.inside]
    exact TyArg.isRendered_of_plainList 0 args h
  | ⟨_, some q, _, args⟩ =>
    rw [NamedType.plain, Bool.and_eq_true] at h
    rw [NamedType.inside, NamedType.inside_of_bare q h.1, List.map_nil, List.append_nil]
    exact TyArg.isRendered_of_plainList 0 args h.2

theorem TyArg.isRendered_of_plain (a : TyArg) (h : a.plain = true) :
    ∀ o ∈ a.occurrences, o.isRendered = true := by
  match a with
  | .type ty =>
    rw [TyArg.plain] at h
    rw [TyArg.occurrences]
    exact Ty.isRendered_of_plain ty h
  | .wildcard =>
    rw [TyArg.occurrences]
    exact List.forall_mem_nil _
  | .bounded kind bound =>
    rw [TyArg.plain] at h
    rw [TyArg.occurrences]
    exact Ty.isRendered_of_plain bound h

theorem TyArg.isRendered_of_plainList (i : Nat) (args : List TyArg)
    (h : TyArg.plainList args = true) :
    ∀ o ∈ TyArg.occurrencesFrom i args, o.isRendered = true := by
  match args with
  | [] =>
    rw [TyArg.occurrencesFrom]
    exact List.forall_mem_nil _
  | a :: as =>
    rw [TyArg.plainList, Bool.and_eq_true] at h
    rw [TyArg.occurrencesFrom, List.forall_mem_append, List.forall_mem_map]
    refine ⟨fun o ho => ?_, TyArg.isRendered_of_plainList (i + 1) as h.2⟩
    rw [Occurrence.isRendered_under, TyArg.isRendered_of_plain a h.1 o ho]
    rfl

end

/-! ## Answers -/

/-- The first failure, or else the value. -/
def settle {α : Type} (error? : Option LookupError) (a : α) : Except RenderError α :=
  match error? with
  | some e => .error (.lookup e)
  | none => .ok a

/-- Whatever is remembered, the rendering has the answer, and the memo stays faithful. -/
structure Answers {α : Type} (p : Project) (x : RenderM α) (r : Except RenderError α) : Prop where
  answer : ∀ m : Memo, m.Faithful p → (x.run m).1 = r
  faithful : ∀ m : Memo, m.Faithful p → (x.run m).2.Faithful p

section Answers

variable {p : Project} {α β : Type} {x : RenderM α} {f : α → RenderM β}

theorem answers_pure (a : α) : Answers p (pure a) (settle none a) where
  answer _ _ := rfl
  faithful _ hm := hm

theorem answers_throw (e : LookupError) (a : α) :
    Answers p (throw (.lookup e)) (settle (some e) a) where
  answer _ _ := rfl
  faithful _ hm := hm

theorem Steady.answers {q : QueryM α} (hq : Steady p q) :
    Answers p (liftM q : RenderM α) (.ok (q .empty).1) where
  answer m hm := congrArg Except.ok (hq.answer m hm)
  faithful := hq.faithful

theorem Answers.bind_ok {a : α} {r : Except RenderError β} (hx : Answers p x (.ok a))
    (hf : Answers p (f a) r) : Answers p (x >>= f) r := by
  have hrun : ∀ m : Memo, m.Faithful p → (x >>= f).run m = (f a).run (x.run m).2 := by
    intro m hm
    show ExceptT.bindCont f (x.run m).1 (x.run m).2 = _
    rw [hx.answer m hm]
    rfl
  constructor
  · intro m hm
    rw [hrun m hm]
    exact hf.answer _ (hx.faithful m hm)
  · intro m hm
    rw [hrun m hm]
    exact hf.faithful _ (hx.faithful m hm)

theorem Answers.bind_error {e : RenderError} (hx : Answers p x (.error e)) :
    Answers p (x >>= f) (.error e) := by
  have hrun : ∀ m : Memo, m.Faithful p → (x >>= f).run m = (.error e, (x.run m).2) := by
    intro m hm
    show ExceptT.bindCont f (x.run m).1 (x.run m).2 = _
    rw [hx.answer m hm]
    rfl
  constructor
  · intro m hm
    rw [hrun m hm]
  · intro m hm
    rw [hrun m hm]
    exact hx.faithful m hm

/-- One rendering after the other: the first failure counts. -/
theorem Answers.bind {a : α} {b : β} {error? error?' : Option LookupError}
    (hx : Answers p x (settle error? a)) (hf : Answers p (f a) (settle error?' b)) :
    Answers p (x >>= f) (settle (error?.or error?') b) := by
  cases error? with
  | none => exact hx.bind_ok hf
  | some e => exact hx.bind_error

theorem Answers.bind_pure {a : α} {b : β} {error? : Option LookupError}
    (hx : Answers p x (settle error? a)) (hf : f a = pure b) :
    Answers p (x >>= f) (settle error? b) := by
  have hb : Answers p (f a) (settle none b) := by
    rw [hf]
    exact answers_pure b
  rw [← Option.or_none (o := error?)]
  exact hx.bind hb

end Answers

/-! ## The rendering -/

section Rendering

variable {p : Project} {decl : DeclId} {slot : TypeSlot}

theorem Answers.require {ty : Ty} {text : RenderM (Option String)} {s : String}
    {error? : Option LookupError} (h : Answers p text (settle error? (some s))) :
    Answers p (Rendering.require ty text) (settle error? s) :=
  h.bind_pure rfl

theorem Answers.requireWildcard {text : RenderM (Option String)} {s : String}
    {error? : Option LookupError} (h : Answers p text (settle error? (some s))) :
    Answers p (Rendering.requireWildcard text) (settle error? s) :=
  h.bind_pure rfl

theorem fst_canonicalName_empty (site : TypeSite) (ty : NamedType) :
    (p.canonicalName site ty .empty).1 =
      (p.resolveType site.decl.unit ty).map (·.canonicalName p) := by
  show Except.map _ (consult _ _ .empty).1 = _
  unfold consult
  rw [Memo.get?_empty]
  cases p.resolveType site.decl.unit ty <;> rfl

/-- The name of a named type, with its rendered arguments behind it. -/
theorem answers_named {path : Path} {ty : NamedType} {args : RenderM String} {s : String}
    {error? : Option LookupError} (hty : p.namedTypeAt? ⟨decl, slot, path⟩ = some ty)
    (hargs : Answers p args (settle error? s)) :
    Answers p ((Rendering.qualified p decl slot).named path ty args)
      (settle ((p.lookupError? decl.unit ty).or error?)
        (some (p.canonicalText decl.unit ty ++ s))) := by
  have hname := (steady_canonicalName hty).answers
  rw [fst_canonicalName_empty] at hname
  unfold Project.lookupError? Project.canonicalText
  refine hname.bind_ok ?_
  cases p.resolveType decl.unit ty with
  | error e => exact answers_throw e _
  | ok t =>
    rw [Option.none_or]
    exact hargs.bind_pure rfl

mutual

theorem answers_render (path : Path) (ty : Ty)
    (h : p.spotAt? ⟨decl, slot, path⟩ = some (.type ty)) :
    Answers p ((Rendering.qualified p decl slot).render path ty)
      (settle (p.firstError? decl.unit ty.occurrences)
        (ty.shortWith (p.canonicalText decl.unit))) := by
  match ty with
  | .primitive q =>
    rw [Rendering.render, Ty.occurrences, Ty.shortWith]
    exact (answers_pure (some q.keyword)).require
  | .named n =>
    rw [Rendering.render, Ty.occurrences, Ty.shortWith, Project.firstError?_here]
    exact answers_renderNamed path n h rfl
  | .array component dimension =>
    have hc := answers_render _ component (spotAt?_snoc h (s := .component) rfl)
    rw [Rendering.render, Ty.occurrences, Ty.shortWith,
      Project.firstError?_under (s := .component) (by decide)]
    exact Answers.require (hc.bind_pure rfl)

theorem answers_renderNamed (path : Path) (ty : NamedType) {spot : Spot}
    (h : p.spotAt? ⟨decl, slot, path⟩ = some spot) (hs : spot.named? = some ty) :
    Answers p ((Rendering.qualified p decl slot).renderNamed path ty)
      (settle ((p.lookupError? decl.unit ty).or (p.firstError? decl.unit ty.inside))
        (ty.shortWith (p.canonicalText decl.unit))) := by
  rw [Project.firstError?_inside]
  match ty with
  | ⟨container, qualifier, name, args⟩ =>
    have hty : p.namedTypeAt? ⟨decl, slot, path⟩ = some ⟨container, qualifier, name, args⟩ := by
      unfold Project.namedTypeAt?
      rw [h, Option.bind_some, hs]
    have hargs := answers_renderArgs path 0 args h hs (numberedFrom_zero fun _ => rfl)
    rw [Rendering.renderNamed, NamedType.shortWith]
    exact (answers_named hty (hargs.bind_pure rfl)).require

theorem answers_renderArg (path : Path) (a : TyArg)
    (h : ∀ ty, a.ty? = some ty → p.spotAt? ⟨decl, slot, path⟩ = some (.type ty)) :
    Answers p ((Rendering.qualified p decl slot).renderArg path a)
      (settle (p.firstError? decl.unit a.occurrences)
        (a.shortWith (p.canonicalText decl.unit))) := by
  match a with
  | .type ty =>
    rw [Rendering.renderArg, TyArg.occurrences, TyArg.shortWith]
    exact answers_render path ty (h ty rfl)
  | .wildcard =>
    rw [Rendering.renderArg, TyArg.occurrences, TyArg.shortWith]
    exact (answers_pure (some "?")).requireWildcard
  | .bounded kind bound =>
    have hbound := answers_render path bound (h bound rfl)
    rw [Rendering.renderArg, TyArg.occurrences, TyArg.shortWith]
    exact Answers.requireWildcard (hbound.bind_pure rfl)

theorem answers_renderArgs (path : Path) (i : Nat) (args : List TyArg) {spot : Spot}
    {ty : NamedType} (h : p.spotAt? ⟨decl, slot, path⟩ = some spot) (hs : spot.named? = some ty)
    (hargs : NumberedFrom (ty.args[·]?) i args) :
    Answers p ((Rendering.qualified p decl slot).renderArgs path i args)
      (settle (p.firstError? decl.unit (TyArg.occurrencesFrom i args))
        (TyArg.shortListWith (p.canonicalText decl.unit) args)) := by
  match args with
  | [] =>
    rw [Rendering.renderArgs, TyArg.occurrencesFrom, TyArg.shortListWith]
    exact answers_pure []
  | a :: rest =>
    have ha : ∀ inner, a.ty? = some inner →
        p.spotAt? ⟨decl, slot, path ++ [.arg i]⟩ = some (.type inner) :=
      fun inner hi => spotAt?_snoc h (Spot.step?_arg hs hargs.head hi)
    have hrest := answers_renderArgs path (i + 1) rest h hs hargs.tail
    rw [Rendering.renderArgs, TyArg.occurrencesFrom, TyArg.shortListWith,
      Project.firstError?_append, Project.firstError?_under (s := .arg i) (by simp)]
    exact (answers_renderArg _ a ha).bind (hrest.bind_pure rfl)

end

end Rendering

namespace Project

variable {p : Project}

theorem spotAt?_of_typeAt? {site : TypeSite} {t : Ty} (h : p.typeAt? site = some t) :
    p.spotAt? site = some (.type t) := by
  obtain ⟨spot, hspot, ht⟩ := Option.bind_eq_some_iff.mp h
  cases spot with
  | type ty =>
    cases ht
    exact hspot
  | named n => cases ht

/-- The text of the type at a place, after any questions. -/
def rendered (p : Project) (history : List Query) (site : TypeSite) (t : Ty) :
    Except RenderError String :=
  (((Rendering.qualified p site.decl site.slot).render site.path t).run
    (Query.remembered p history)).1

theorem rendered_eq_settle (history : List Query) {site : TypeSite} {t : Ty}
    (ht : p.typeAt? site = some t) :
    p.rendered history site t =
      settle (p.firstError? site.decl.unit t.occurrences)
        (t.shortWith (p.canonicalText site.decl.unit)) :=
  (answers_render site.path t (spotAt?_of_typeAt? ht)).answer _
    (Query.faithful_remembered p history)

theorem exists_settle_eq_ok_iff {error? : Option LookupError} {s : String} :
    (∃ text, settle error? s = .ok text) ↔ error? = none := by
  cases error? <;> simp [settle]

theorem settle_eq_ok_iff {error? : Option LookupError} {s text : String} :
    settle error? s = .ok text ↔ error? = none ∧ s = text := by
  cases error? <;> simp [settle]

/-- A type is rendered if the named types outside of qualifiers are found, and only then; else the
first failure among them is told. The text is that of the display with canonical names, less the
arguments of qualifiers. So all named types have to be found, and no argument is lost, for just
those types that are not rendered at all or have no arguments in a qualifier. -/
theorem rendering_skips_qualifier_arguments (history : List Query) {site : TypeSite} {t : Ty}
    (ht : p.typeAt? site = some t) :
    let found (o : Occurrence) := ∃ target, p.resolveType site.decl.unit o.ty = .ok target
    let names := p.canonicalText site.decl.unit
    ((∃ s, p.rendered history site t = .ok s) ↔
      ∀ o ∈ t.occurrences, Step.qualifier ∉ o.path → found o) ∧
    (∀ s, p.rendered history site t = .ok s → s = t.shortWith names) ∧
    (∀ e, p.rendered history site t = .error e →
      ∃ e', p.firstError? site.decl.unit t.occurrences = some e' ∧ e = .lookup e') ∧
    ((((∃ s, p.rendered history site t = .ok s) ↔ ∀ o ∈ t.occurrences, found o) ∧
        ∀ s, p.rendered history site t = .ok s → s = t.displayWith names) ↔
      ((∃ s, p.rendered history site t = .ok s) → t.plain = true)) := by
  intro found names
  rw [rendered_eq_settle history ht]
  have hok : (∃ s, settle (p.firstError? site.decl.unit t.occurrences) (t.shortWith names) = .ok s) ↔
      ∀ o ∈ t.occurrences, Step.qualifier ∉ o.path → found o := by
    rw [exists_settle_eq_ok_iff, firstError?_eq_none_iff]
  refine ⟨hok, fun s hs => (settle_eq_ok_iff.mp hs).2.symm, ?_, ?_⟩
  · intro e he
    cases herror : p.firstError? site.decl.unit t.occurrences with
    | none =>
      rw [herror] at he
      cases he
    | some e' =>
      rw [herror] at he
      cases he
      exact ⟨e', rfl, rfl⟩
  · constructor
    · rintro ⟨-, htext⟩ ⟨s, hs⟩
      have hshort := (settle_eq_ok_iff.mp hs).2
      exact Ty.shortWith_eq_displayWith_iff.mp (hshort.trans (htext s hs))
    · intro hplain
      refine ⟨?_, fun s hs => ?_⟩
      · rw [hok]
        refine ⟨fun h o ho => ?_, fun h o ho _ => h o ho⟩
        exact h o ho (Occurrence.isRendered_iff.mp (t.isRendered_of_plain (hplain (hok.mpr h)) o ho))
      · rw [← (settle_eq_ok_iff.mp hs).2]
        exact Ty.shortWith_eq_displayWith_iff.mpr (hplain ⟨s, hs⟩)

/-- The argument of the outer class is no type, yet the type is rendered, also after a check of the
unit, and with the arguments of the inner class alone. -/
theorem rendering_with_missing_qualifier_argument :
    ∃ p t o, load true [[.package "p", .enterType .classType "Outer", .enterType .classType "Inner",
        .exitType,
        .field (.named [⟨"Outer", [.type (.ofName "Outer.Missing")]⟩,
          ⟨"Inner", [.bounded .super (.array (.ofName "String") 1)]⟩]) [⟨"f", 0, none⟩],
        .exitType]] = .ok p ∧
      p.typeAt? ⟨⟨0, 0⟩, Slot.field 0, []⟩ = some t ∧
      o ∈ t.occurrences ∧ ¬ (∃ target, p.resolveType 0 o.ty = .ok target) ∧
      p.rendered [.checkUnit 0] ⟨⟨0, 0⟩, Slot.field 0, []⟩ t =
        .ok "p.Outer.Inner<? super java.lang.String[]>" := by
  obtain ⟨p, t, o, hp, ht, ho, hmissing, hfound, htext⟩ : ∃ p t o,
      load true [[.package "p", .enterType .classType "Outer", .enterType .classType "Inner",
        .exitType,
        .field (.named [⟨"Outer", [.type (.ofName "Outer.Missing")]⟩,
          ⟨"Inner", [.bounded .super (.array (.ofName "String") 1)]⟩]) [⟨"f", 0, none⟩],
        .exitType]] = .ok p ∧
      p.typeAt? ⟨⟨0, 0⟩, Slot.field 0, []⟩ = some t ∧
      t.occurrences[2]? = some o ∧ p.lookupError? 0 o.ty ≠ none ∧
      p.firstError? 0 t.occurrences = none ∧
      t.shortWith (p.canonicalText 0) = "p.Outer.Inner<? super java.lang.String[]>" :=
    ⟨_, _, _, load_of_built (.cons (by rfl) .nil) (by decide +kernel), by rfl, by rfl,
      by decide +kernel, by decide +kernel, by decide +kernel⟩
  obtain ⟨hok, hshort, -, -⟩ := rendering_skips_qualifier_arguments [.checkUnit 0] ht
  obtain ⟨s, hs⟩ := hok.mpr (firstError?_eq_none_iff.mp hfound)
  have hs' : s = _ := (hshort s hs).trans htext
  refine ⟨p, t, o, hp, ht, List.mem_of_getElem? ho, ?_, hs.trans (congrArg Except.ok hs')⟩
  rw [← lookupError?_eq_none_iff]
  exact hmissing

/-- All named types are found, and still the argument of the outer class is lost. -/
theorem rendering_loses_qualifier_argument :
    ∃ p t, load true [[.package "p", .enterType .classType "Outer", .enterType .classType "Inner",
        .exitType,
        .field (.named [⟨"Outer", [.type (.ofName "String")]⟩,
          ⟨"Inner", [.type (.ofName "Number")]⟩]) [⟨"f", 0, none⟩],
        .exitType]] = .ok p ∧
      p.typeAt? ⟨⟨0, 0⟩, Slot.field 0, []⟩ = some t ∧
      t.display = "Outer<String>.Inner<Number>" ∧
      (∀ o ∈ t.occurrences, p.lookupError? 0 o.ty = none) ∧
      t.displayWith (p.canonicalText 0) = "p.Outer<java.lang.String>.Inner<java.lang.Number>" ∧
      p.rendered [] ⟨⟨0, 0⟩, Slot.field 0, []⟩ t = .ok "p.Outer.Inner<java.lang.Number>" :=
  ⟨_, _, load_of_built (.cons (by rfl) .nil) (by decide +kernel), by rfl, by decide +kernel,
    by decide +kernel, by decide +kernel, by decide +kernel⟩

end Project

end SourceModel
