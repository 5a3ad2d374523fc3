import SourceModel.Proofs.Contexts
import SourceModel.Proofs.DumpedParts
import SourceModel.Proofs.Forest
import SourceModel.Proofs.Loading
import SourceModel.Query

/-!
# Dumps tell units apart

A dump leaves out the numbers of declarations, the lists of those nested in them and every
container. For a unit that is read from events all of these follow from what is left: the trees of
the unit are numbered in preorder and stand where their containers say, and names are looked up at
home (`DeclTree.eq_of_dump`). So two units with the same dump are equal
(`SourceUnit.eq_of_dump`), if only their doubles are finite: all infinities are dumped alike.
-/

namespace SourceModel

/-! ## Declarations -/

/-- The keys of a declaration that do not depend on its body. -/
def Declaration.headKeys : List String :=
  ["name", "modifiers", "annotations", "type_params", "interfaces", "methods"]

namespace Body

variable {b b' : Body} {items items' : List Document} {around inner : Container}

theorem lookup_constructors (hb : b.hasConstructors) (more : List (String × Document)) :
    (b.dumpFields ++ more).lookup "constructors" = some (.array (b.constructors.map (·.dump))) := by
  cases b with
  | classBody s cs fs => cases s <;> rfl
  | enumBody ks cs fs => rfl
  | recordBody cs fs => rfl
  | interfaceBody | annotationBody => cases hb

theorem lookup_fields (hb : b.hasConstructors) (more : List (String × Document)) :
    (b.dumpFields ++ more).lookup "fields" = some (.array (b.fields.map (·.dump))) := by
  cases b with
  | classBody s cs fs => cases s <;> rfl
  | enumBody ks cs fs => rfl
  | recordBody cs fs => rfl
  | interfaceBody | annotationBody => cases hb

theorem lookup_superclass (s : Option NamedType) (cs : List Constructor) (fs : List Field) :
    ((classBody s cs fs).dumpFields ++ Document.nonempty "types" items).lookup "superclass" =
      s.map (·.dump) := by
  cases s with
  | none => exact Document.lookup_nonempty_of_ne (by decide) items
  | some s => rfl

theorem lookup_types (b : Body) :
    (b.dumpFields ++ Document.nonempty "types" items).lookup "types" =
      Document.nonempty? items := by
  rw [← Document.lookup_nonempty "types" items]
  cases b with
  | classBody s cs fs => cases s <;> rfl
  | _ => rfl

/-- Every double in the body is finite. -/
structure IsFinite (b : Body) : Prop where
  constants : ∀ k ∈ b.constants, ∀ a ∈ k.annotations, a.IsFinite
  constructors : ∀ k ∈ b.constructors,
    (∀ a ∈ k.annotations, a.IsFinite) ∧ ∀ p ∈ k.params, ∀ a ∈ p.annotations, a.IsFinite
  fields : ∀ f ∈ b.fields,
    (∀ a ∈ f.annotations, a.IsFinite) ∧ ∀ e, f.initializer = some e → e.IsFinite

theorem eq_of_dump
    (h : ∀ key ∉ Declaration.headKeys, Option.Rel Document.Same
      ((b.dumpFields ++ Document.nonempty "types" items).lookup key)
      ((b'.dumpFields ++ Document.nonempty "types" items').lookup key))
    (hb : b.AtHome around inner) (hb' : b'.AtHome around inner) (hf : b.IsFinite) : b' = b := by
  have hkind : b'.kind = b.kind := by
    cases h "kind" (by decide) with
    | some hsame => exact Kind.dumpName_inj hsame.string_eq
  have hhas : b.hasConstructors → b'.hasConstructors := by
    rw [hasConstructors_eq, hasConstructors_eq, hkind]
    exact id
  have hconstructors : b.hasConstructors → b'.constructors = b.constructors := by
    intro hc
    have hrel := h "constructors" (by decide)
    rw [lookup_constructors hc, lookup_constructors (hhas hc)] at hrel
    cases hrel with
    | some hsame =>
      exact Document.eq_of_forall₂_dump hsame.items fun k hk l hl hkl =>
        Constructor.eq_of_dump hkl (hb.constructors k hk) (hb'.constructors l hl)
          (hf.constructors k hk).1 (hf.constructors k hk).2
  have hfields : b.hasConstructors → b'.fields = b.fields := by
    intro hc
    have hrel := h "fields" (by decide)
    rw [lookup_fields hc, lookup_fields (hhas hc)] at hrel
    cases hrel with
    | some hsame =>
      exact Document.eq_of_forall₂_dump hsame.items fun f hfm g hgm hfg =>
        Field.eq_of_dump hfg (hb.fields f hfm) (hb'.fields g hgm) (hf.fields f hfm).1
          (hf.fields f hfm).2
  cases b with
  | classBody s cs fs =>
    obtain ⟨s', cs', fs', rfl⟩ := kind_eq_classType_iff.mp hkind
    have hrel := h "superclass" (by decide)
    rw [lookup_superclass, lookup_superclass] at hrel
    have hs : s' = s := by
      refine Document.eq_of_rel_map_dump hrel fun a ha a' ha' haa' => ?_
      exact NamedType.eq_of_dump a a' haa' (hb.superclass a (by simp [superclass, ha]))
        (hb'.superclass a' (by simp [superclass, ha']))
    have hcs : cs' = cs := hconstructors rfl
    have hfs : fs' = fs := hfields rfl
    rw [hs, hcs, hfs]
  | enumBody ks cs fs =>
    obtain ⟨ks', cs', fs', rfl⟩ := kind_eq_enumType_iff.mp hkind
    have hks : ks' = ks := by
      cases h "constants" (by decide) with
      | some hsame =>
        exact Document.eq_of_forall₂_dump hsame.items fun k hk l hl hkl =>
          EnumConstant.eq_of_dump hkl (hb.constants k hk) (hb'.constants l hl)
            (hf.constants k hk)
    have hcs : cs' = cs := hconstructors rfl
    have hfs : fs' = fs := hfields rfl
    rw [hks, hcs, hfs]
  | recordBody cs fs =>
    cases b' with
    | recordBody cs' fs' =>
      have hcs : cs' = cs := hconstructors rfl
      have hfs : fs' = fs := hfields rfl
      rw [hcs, hfs]
    | _ => cases hkind
  | interfaceBody =>
    cases b' with
    | interfaceBody => rfl
    | _ => cases hkind
  | annotationBody =>
    cases b' with
    | annotationBody => rfl
    | _ => cases hkind

end Body

namespace Declaration

variable {x y : Declaration} {items items' : List Document} {id : Nat}

/-- Every double in the declaration is finite. -/
def IsFinite (x : Declaration) : Prop :=
  ∀ site y, x.valueAt? site = some (.literal (.float y)) → y.isFinite

theorem IsFinite.annotations (h : x.IsFinite) (element : Element) {uses : List AnnotationUse}
    (hu : x.annotationsAt? element = some uses) : ∀ a ∈ uses, a.IsFinite := by
  intro a ha v hv path y hy
  obtain ⟨i, hi⟩ := List.mem_iff_getElem?.mp ha
  obtain ⟨j, hj⟩ := List.mem_iff_getElem?.mp hv
  refine h ⟨.annotationValue element i j, path⟩ y ?_
  simp [valueAt?, rootAt?, annotationAt?, hu, hi, hj, hy]

theorem IsFinite.body (h : x.IsFinite) : x.body.IsFinite where
  constants := by
    intro k hk
    obtain ⟨i, hi⟩ := List.mem_iff_getElem?.mp hk
    exact h.annotations (.constant i) (Option.map_eq_some_iff.mpr ⟨k, hi, rfl⟩)
  constructors := by
    intro k hk
    obtain ⟨i, hi⟩ := List.mem_iff_getElem?.mp hk
    refine ⟨h.annotations (.constructor i) (Option.map_eq_some_iff.mpr ⟨k, hi, rfl⟩),
      fun p hp => ?_⟩
    obtain ⟨j, hj⟩ := List.mem_iff_getElem?.mp hp
    exact h.annotations (.constructorParam i j)
      (Option.bind_eq_some_iff.mpr ⟨k, hi, Option.map_eq_some_iff.mpr ⟨p, hj, rfl⟩⟩)
  fields := by
    intro f hf
    obtain ⟨i, hi⟩ := List.mem_iff_getElem?.mp hf
    refine ⟨h.annotations (.field i) (Option.map_eq_some_iff.mpr ⟨f, hi, rfl⟩),
      fun e he path y hy => ?_⟩
    refine h ⟨.initializer i, path⟩ y ?_
    have hroot : x.rootAt? (.initializer i) = some e := Option.bind_eq_some_iff.mpr ⟨f, hi, he⟩
    rw [valueAt?, hroot]
    exact hy

theorem lookup_dumpFields (x : Declaration) (more : List (String × Document)) {key : String}
    (h : key ∉ headKeys) :
    (x.dumpFields ++ more).lookup key = (x.body.dumpFields ++ more).lookup key := by
  simp only [headKeys, List.mem_cons, List.not_mem_nil, or_false, not_or] at h
  obtain ⟨h1, h2, h3, h4, h5, h6⟩ := h
  simp only [dumpFields, List.cons_append, List.nil_append, List.lookup_cons, beq_false_of_ne h1,
    beq_false_of_ne h2, beq_false_of_ne h3, beq_false_of_ne h4, beq_false_of_ne h5,
    beq_false_of_ne h6]

theorem rel_lookup_body
    (h : (Document.object (x.dumpFields ++ Document.nonempty "types" items)).Same
      (.object (y.dumpFields ++ Document.nonempty "types" items')))
    (key : String) (hkey : key ∉ headKeys) :
    Option.Rel Document.Same
      ((x.body.dumpFields ++ Document.nonempty "types" items).lookup key)
      ((y.body.dumpFields ++ Document.nonempty "types" items').lookup key) := by
  rw [← lookup_dumpFields x _ hkey, ← lookup_dumpFields y _ hkey]
  exact h.field? key

theorem items_of_dump
    (h : (Document.object (x.dumpFields ++ Document.nonempty "types" items)).Same
      (.object (y.dumpFields ++ Document.nonempty "types" items'))) :
    List.Forall₂ Document.Same items items' := by
  have hrel := rel_lookup_body h "types" (by decide)
  rw [Body.lookup_types, Body.lookup_types] at hrel
  exact Document.items_of_nonempty? hrel

theorem eq_of_dump
    (h : (Document.object (x.dumpFields ++ Document.nonempty "types" items)).Same
      (.object (y.dumpFields ++ Document.nonempty "types" items')))
    (hx : x.AtHome id) (hy : y.AtHome id) (hf : x.IsFinite)
    (hcontainer : y.container = x.container) (hnested : y.nested = x.nested) : y = x := by
  have hname := (h.field "name" rfl rfl).string_eq
  have hmodifiers := Modifier.eq_of_dumps (h.field "modifiers" rfl rfl)
  have hannotations := AnnotationUse.eq_of_dumps (h.field "annotations" rfl rfl).items
    hx.annotations hy.annotations (hf.annotations .type rfl)
  have htypeParams : y.typeParams = x.typeParams :=
    Document.eq_of_forall₂_dump (h.field "type_params" rfl rfl).items fun p hp q hq hpq => by
      obtain ⟨i, hi⟩ := List.mem_iff_getElem?.mp hp
      exact TypeParam.eq_of_dump hpq (hx.typeParams p hp) (hy.typeParams q hq)
        (hf.annotations (.typeParam i) (Option.map_eq_some_iff.mpr ⟨p, hi, rfl⟩))
  have hinterfaces := NamedType.eq_of_dumps (h.field "interfaces" rfl rfl) hx.interfaces
    (hcontainer ▸ hy.interfaces)
  have hmethods : y.methods = x.methods :=
    Document.eq_of_forall₂_dump (h.field "methods" rfl rfl).items fun m hm n hn hmn => by
      obtain ⟨i, hi⟩ := List.mem_iff_getElem?.mp hm
      refine Method.eq_of_dump hmn (hx.methods m hm) (hy.methods n hn)
        (hf.annotations (.method i) (Option.map_eq_some_iff.mpr ⟨m, hi, rfl⟩))
        fun p hp => ?_
      obtain ⟨j, hj⟩ := List.mem_iff_getElem?.mp hp
      exact hf.annotations (.methodParam i j)
        (Option.bind_eq_some_iff.mpr ⟨m, hi, Option.map_eq_some_iff.mpr ⟨p, hj, rfl⟩⟩)
  have hbody := Body.eq_of_dump (rel_lookup_body h) hx.body (hcontainer ▸ hy.body) hf.body
  show Declaration.mk y.name y.modifiers y.annotations y.typeParams y.interfaces y.methods y.body
    y.container y.nested = x
  rw [hname, hmodifiers, hannotations, htypeParams, hinterfaces, hmethods, hbody, hcontainer,
    hnested]

end Declaration

/-! ## Trees and units -/

/-- Every double in the unit is finite. -/
def SourceUnit.IsFinite (u : SourceUnit) : Prop :=
  ∀ id x, u.decl? id = some x → x.IsFinite

section

variable {u v : SourceUnit}

mutual

/-- Trees with the same dump that stand in the same place are equal: the numbers of the
declarations follow from their order, and the containers from the place. -/
theorem DeclTree.eq_of_dump (hu : ∀ id x, u.decl? id = some x → x.AtHome id)
    (hv : ∀ id x, v.decl? id = some x → x.AtHome id) (hf : u.IsFinite) {n : Nat} {c : Container}
    (t s : DeclTree)
    (ht : t.StandsIn u c) (hs : s.StandsIn v c) (hnt : t.Numbered n) (hns : s.Numbered n)
    (h : t.dump.Same s.dump) : s = t := by
  cases t with
  | node id x nested =>
    cases s with
    | node id' y nested' =>
      obtain ⟨hx, hxc, hxn, hchildren⟩ := ht
      obtain ⟨hy, hyc, hyn, hchildren'⟩ := hs
      obtain ⟨rfl, -, hnumbered⟩ := hnt
      obtain ⟨rfl, -, hnumbered'⟩ := hns
      have hnested := DeclTree.eq_of_dumpList hu hv hf nested nested' hchildren hchildren'
        hnumbered hnumbered' (Declaration.items_of_dump h)
      have hdecl : y = x := by
        refine Declaration.eq_of_dump h (hu _ x hx) (hv _ y hy) (hf _ x hx) (hyc.trans hxc.symm) ?_
        rw [hyn, hxn, hnested]
      rw [hdecl, hnested]
termination_by structural t

theorem DeclTree.eq_of_dumpList (hu : ∀ id x, u.decl? id = some x → x.AtHome id)
    (hv : ∀ id x, v.decl? id = some x → x.AtHome id) (hf : u.IsFinite) {n : Nat} {c : Container}
    (ts ss : List DeclTree)
    (ht : DeclTree.AllStandIn u c ts) (hs : DeclTree.AllStandIn v c ss)
    (hnt : DeclTree.AllNumbered n ts) (hns : DeclTree.AllNumbered n ss)
    (h : List.Forall₂ Document.Same (DeclTree.dumpList ts) (DeclTree.dumpList ss)) : ss = ts := by
  cases ts with
  | nil =>
    cases ss with
    | nil => rfl
    | cons s ss => cases h
  | cons t ts =>
    cases ss with
    | nil => cases h
    | cons s ss =>
      cases h with
      | cons hfirst hrest =>
        have heq := DeclTree.eq_of_dump hu hv hf t s ht.1 hs.1 hnt.1 hns.1 hfirst
        subst heq
        rw [DeclTree.eq_of_dumpList hu hv hf ts ss ht.2 hs.2 hnt.2 hns.2 hrest]
termination_by structural ts

end

end

namespace SourceUnit

variable {strict strict' : Bool} {events events' : List Event} {u v : SourceUnit}

theorem field?_package (u : SourceUnit) :
    u.dump.field? "package" = u.package.map Document.string := by
  obtain ⟨package, imports, decls, topLevel⟩ := u
  cases package <;> rfl

theorem field?_imports (u : SourceUnit) :
    u.dump.field? "imports" = some (.array (u.imports.map (·.dump))) := by
  obtain ⟨package, imports, decls, topLevel⟩ := u
  cases package <;> rfl

theorem field?_types (u : SourceUnit) :
    u.dump.field? "types" = some (.array (DeclTree.dumpList u.forest)) := by
  obtain ⟨package, imports, decls, topLevel⟩ := u
  cases package <;> rfl

theorem eq_of_dump (hu : ofEvents strict events = .ok u) (hv : ofEvents strict' events' = .ok v)
    (hf : u.IsFinite) (h : u.dump.Same v.dump) : v = u := by
  obtain ⟨huw, huo⟩ := wellFormed_of_ofEvents hu
  obtain ⟨hvw, hvo⟩ := wellFormed_of_ofEvents hv
  have hforest : v.forest = u.forest :=
    DeclTree.eq_of_dumpList (fun _ _ => atHome_of_ofEvents hu) (fun _ _ => atHome_of_ofEvents hv)
      hf u.forest v.forest huw.forest.2 hvw.forest.2 (allNumbered_forest huw huo)
      (allNumbered_forest hvw hvo) (h.field "types" u.field?_types v.field?_types).items
  have hdecls : v.decls = u.decls := by
    rw [← map_snd_visit hvw hvo, ← map_snd_visit huw huo, visit, visit, hforest]
  have htopLevel : v.topLevel = u.topLevel := by
    rw [← hvw.forest.1, ← huw.forest.1, hforest]
  have hpackage : v.package = u.package := by
    have hrel := h.field? "package"
    rw [u.field?_package, v.field?_package] at hrel
    exact Document.eq_of_rel_map_dump hrel fun _ _ _ _ hab => hab.string_eq
  have himports : v.imports = u.imports :=
    Document.eq_of_forall₂_dump (h.field "imports" u.field?_imports v.field?_imports).items
      fun i _ j _ hij => by
        have hname := (hij.field "name" rfl rfl).string_eq
        have hkind := ImportKind.keyword_inj (hij.field "kind" rfl rfl).string_eq
        show Import.mk j.name j.kind = i
        rw [hname, hkind]
  show SourceUnit.mk v.package v.imports v.decls v.topLevel = u
  rw [hpackage, himports, hdecls, htopLevel]

end SourceUnit

/-! ## Dumps of a project in use -/

/-- The dump of a unit is the answer whatever is remembered, and it adds nothing to that. -/
theorem Query.run_dump (p : Project) (unit : Nat) (m : Memo) :
    (Query.dump unit).run p m = ((p.unit? unit).map (·.dump), m) := by
  show about (p.unit? unit) (fun u => return u.dump) m = _
  cases p.unit? unit <;> rfl

/-- A unit is told by its dump, as a JSON value, if no double in it is infinite: ids, lists of
nested declarations and all containers are the same if the dumps are. And what is remembered of the
references is no part of a dump: after any history of questions every unit of a project is dumped as
its source alone, and the dump itself leaves nothing behind. -/
theorem SourceUnit.dump_is_faithful :
    (∀ {strict strict' : Bool} {events events' : List Event} {u v : SourceUnit},
      ofEvents strict events = .ok u → ofEvents strict' events' = .ok v → u.IsFinite →
      (u.dump.Same v.dump ↔ u = v)) ∧
    ∀ {strict : Bool} {sources : List (List Event)} {p : Project} (history : List Query) (i : Nat),
      Project.load strict sources = .ok p →
      (Query.dump i).run p (Query.remembered p history) =
        (sources[i]?.bind fun events => (ofEvents strict events).toOption.map (·.dump),
          Query.remembered p history) := by
  refine ⟨fun hu hv hf => ⟨fun h => (eq_of_dump hu hv hf h).symm, fun h => ?_⟩,
    fun history i hp => ?_⟩
  · rw [h]
    exact .refl _
  · obtain ⟨units, hbuilt, -, rfl⟩ := Project.load_eq_ok_iff.mp hp
    rw [Query.run_dump]
    show (units[i]?.map (·.dump), _) = _
    rw [hbuilt.getElem?_eq i, Option.map_bind]
    rfl

/-- A class with a field of value zero and another class, once inside it and once beside it. And a
class with a field of its own type: once this has been looked up, the target is remembered and not
dumped. -/
theorem SourceUnit.dump_of_class_inside_and_beside :
    ∃ u v,
      ofEvents true [.enterType .classType "A",
        .field (.named [⟨"double", []⟩]) [⟨"x", 0, some [.literal "0.0"]⟩],
        .enterType .classType "B", .exitType, .exitType] = .ok u ∧
      ofEvents true [.enterType .classType "A",
        .field (.named [⟨"double", []⟩]) [⟨"x", 0, some [.literal "0.0"]⟩],
        .exitType, .enterType .classType "B", .exitType] = .ok v ∧
      u.IsFinite ∧ ¬u.dump.Same v.dump ∧
    ∃ p w, Project.load true [[.enterType .classType "A",
        .field (.named [⟨"A", []⟩]) [⟨"x", 0, none⟩], .exitType]] = .ok p ∧
      ofEvents true [.enterType .classType "A",
        .field (.named [⟨"A", []⟩]) [⟨"x", 0, none⟩], .exitType] = .ok w ∧
      (Query.remembered p [.checkUnit 0]).get? (.type ⟨⟨0, 0⟩, Slot.field 0, []⟩) =
        some (.declared ⟨0, 0⟩) ∧
      (Query.dump 0).run p (Query.remembered p [.checkUnit 0]) =
        (some w.dump, Query.remembered p [.checkUnit 0]) := by
  let zero : Expr := .ofSequence [.literal (.float ⟨0⟩)]
  have hzero : zero = .literal (.float ⟨0⟩) := by
    show Expr.ofItems (Expr.reduce [.literal (.float ⟨0⟩)]) = _
    rw [Expr.reduce_of_none rfl]
    rfl
  let x : Field := ⟨"x", [], [], .primitive .double, some zero⟩
  let b : Declaration := .empty .classType "B" .unit
  let u : SourceUnit := ⟨none, [], [⟨"A", [], [], [], [], [], .classBody none [] [x], .unit, [1]⟩,
    { b with container := .type 0 }], [0]⟩
  let v : SourceUnit :=
    ⟨none, [], [⟨"A", [], [], [], [], [], .classBody none [] [x], .unit, []⟩, b], [0, 1]⟩
  have hu : ofEvents true [.enterType .classType "A",
      .field (.named [⟨"double", []⟩]) [⟨"x", 0, some [.literal "0.0"]⟩],
      .enterType .classType "B", .exitType, .exitType] = .ok u := by rfl
  have hv : ofEvents true [.enterType .classType "A",
      .field (.named [⟨"double", []⟩]) [⟨"x", 0, some [.literal "0.0"]⟩],
      .exitType, .enterType .classType "B", .exitType] = .ok v := by rfl
  have hf : u.IsFinite := by
    rintro (_ | _ | id) d hd ⟨root, path⟩ y hy
    · cases hd
      cases root with
      | initializer i =>
        cases i with
        | zero =>
          have hat : zero.at? path = some (.literal (.float y)) := hy
          rw [hzero] at hat
          cases path <;> cases hat
          rfl
        | succ i => cases hy
      | annotationValue element i j =>
        cases element with
        | field k => cases k <;> cases hy
        | _ => cases hy
    · cases hd
      cases root with
      | initializer i => cases hy
      | annotationValue element i j => cases element <;> cases hy
    · cases hd
  obtain ⟨p, w, hp, hw, hcell⟩ : ∃ p w,
      Project.load true [[.enterType .classType "A",
        .field (.named [⟨"A", []⟩]) [⟨"x", 0, none⟩], .exitType]] = .ok p ∧
      ofEvents true [.enterType .classType "A",
        .field (.named [⟨"A", []⟩]) [⟨"x", 0, none⟩], .exitType] = .ok w ∧
      (Query.remembered p [.checkUnit 0]).get? (.type ⟨⟨0, 0⟩, Slot.field 0, []⟩) =
        some (.declared ⟨0, 0⟩) :=
    ⟨_, _, Project.load_of_built (.cons (by rfl) .nil) (by decide +kernel), by rfl,
      by decide +kernel⟩
  refine ⟨u, v, hu, hv, hf, fun h => ?_, p, w, hp, hw, hcell, ?_⟩
  · have heq := (dump_is_faithful.1 hu hv hf).mp h
    exact absurd (congrArg (·.topLevel) heq) (by decide)
  · rw [dump_is_faithful.2 [.checkUnit 0] 0 hp, List.getElem?_cons_zero, Option.bind_some, hw]
    rfl

end SourceModel
