import SourceModel.Proofs.Gathering
import SourceModel.Proofs.Remembering

/-!
# What properties are made of

Which property a method gives access to is asked of the project, and what has been asked before
shows neither in these answers nor in the properties. So the passes over the methods are folds over
what the methods get and set (`Project.gets?`, `Project.sets?`), and only a repeated name of a field
can make them fail.
-/

namespace SourceModel

namespace Project

/-- The name of the property that a method, which stands with its number, is a getter of. -/
def gets? (p : Project) (m : Memo) (id : DeclId) (d : Declaration) (x : Method × Nat) :
    Option String :=
  if (p.isGetter id d x.2 x.1 m).1 then (p.propertyName id x.2 x.1 m).1.toOption else none

/-- The name of the property that a method, which stands with its number, is a setter of. -/
def sets? (p : Project) (m : Memo) (id : DeclId) (d : Declaration) (x : Method × Nat) :
    Option String :=
  if d.isSetter x.1 then (p.propertyName id x.2 x.1 m).1.toOption else none

end Project

/-! ## The passes over the methods -/

theorem Steady.answer_eq {α : Type} {p : Project} {q : QueryM α} (h : Steady p q) {m n : Memo}
    (hm : m.Faithful p) (hn : n.Faithful p) : (q m).1 = (q n).1 :=
  (h.answer m hm).trans (h.answer n hn).symm

namespace Project

variable {p : Project} {id : DeclId} {d : Declaration} {x : Method} {i : Nat} {m asked : Memo}

/-- What is accepted as a getter has a property to get: the test of the shape and the derivation of
the name agree. -/
theorem exists_propertyName_of_isGetter (h : (p.isGetter id d i x m).1 = true) :
    ∃ name, (p.propertyName id i x m).1 = .ok name := by
  unfold isGetter at h
  unfold propertyName
  cases hget : afterVerb? "get" x.name with
  | some rest => exact ⟨_, rfl⟩
  | none =>
    cases hset : afterVerb? "set" x.name with
    | some rest => exact ⟨_, rfl⟩
    | none =>
      rw [hget] at h
      split at h
      · cases his : afterVerb? "is" x.name with
        | some rest =>
          rw [his] at h
          have hb : (p.returnsBoolean id i x m).1 = true := h
          refine ⟨Name.decapitalize rest, ?_⟩
          show ((if (p.returnsBoolean id i x m).1 then _ else _ : QueryM _) _).1 = _
          rw [if_pos hb]
          rfl
        | none =>
          rw [his] at h
          cases h
      · cases h

theorem exists_propertyName_of_isSetter (h : d.isSetter x = true) (p : Project) (id : DeclId)
    (i : Nat) (m : Memo) :
    ∃ name, (p.propertyName id i x m).1 = .ok name := by
  have hset : (afterVerb? "set" x.name).isSome := by
    simp only [Declaration.isSetter, Bool.and_eq_true] at h
    exact h.2
  obtain ⟨rest, hrest⟩ := Option.isSome_iff_exists.mp hset
  unfold propertyName
  rw [hrest]
  cases afterVerb? "get" x.name with
  | some rest => exact ⟨_, rfl⟩
  | none => exact ⟨_, rfl⟩

theorem params_of_isSetter (h : d.isSetter x = true) : ∃ param, x.params = [param] := by
  simp only [Declaration.isSetter, Bool.and_eq_true] at h
  obtain ⟨⟨-, h⟩, -⟩ := h
  split at h
  · next param hp => exact ⟨param, hp⟩
  · cases h

theorem gets?_eq_some_iff {y : Method × Nat} {name : String} :
    p.gets? m id d y = some name ↔
      (p.isGetter id d y.2 y.1 m).1 = true ∧ (p.propertyName id y.2 y.1 m).1 = .ok name := by
  unfold gets?
  split
  · next h => rw [toOption_eq_some_iff, and_iff_right h]
  · next h => simp [h]

theorem sets?_eq_some_iff {y : Method × Nat} {name : String} :
    p.sets? m id d y = some name ↔
      d.isSetter y.1 = true ∧ (p.propertyName id y.2 y.1 m).1 = .ok name := by
  unfold sets?
  split
  · next h => rw [toOption_eq_some_iff, and_iff_right h]
  · next h => simp [h]

theorem addGetters_cons (p : Project) (id : DeclId) (d : Declaration) (qs : List Property) (i : Nat)
    (x : Method) (xs : List Method) (m : Memo) :
    p.addGetters id d qs i (x :: xs) m =
      if (p.isGetter id d i x m).1 then
        (match (p.propertyName id i x (p.isGetter id d i x m).2).1 with
        | .ok name => p.addGetters id d (Property.addGetter name x qs) (i + 1) xs
        | .error e => pure (.error e)) (p.propertyName id i x (p.isGetter id d i x m).2).2
      else p.addGetters id d qs (i + 1) xs (p.isGetter id d i x m).2 := by
  show (if (p.isGetter id d i x m).1 then _ else _ : QueryM _) _ = _
  split <;> rfl

/-- The pass over the getters, whatever was remembered before: it never fails. -/
theorem answer_addGetters (hd : p.decl? id = some d) (hm : m.Faithful p) (ha : asked.Faithful p)
    {xs : List Method} (h : NumberedFrom (d.methods[·]?) i xs) (qs : List Property) :
    (p.addGetters id d qs i xs m).1 =
      .ok ((xs.zipIdx i).foldl (Property.withGetter (p.gets? asked id d)) qs) := by
  induction xs generalizing i qs m with
  | nil => rfl
  | cons x xs ih =>
    have hgetter := steady_isGetter hd h.head
    have hname := steady_propertyName hd h.head
    have hm₁ := hgetter.faithful m hm
    rw [addGetters_cons, hgetter.answer_eq hm ha, List.zipIdx_cons, List.foldl_cons,
      Property.withGetter]
    by_cases hx : (p.isGetter id d i x asked).1
    · obtain ⟨name, hn⟩ := exists_propertyName_of_isGetter hx
      have hsome : p.gets? asked id d (x, i) = some name := gets?_eq_some_iff.mpr ⟨hx, hn⟩
      rw [if_pos hx, hname.answer_eq hm₁ ha, hn, hsome]
      exact ih (hname.faithful _ hm₁) h.tail _
    · have hnone : p.gets? asked id d (x, i) = none := if_neg hx
      rw [if_neg hx, hnone]
      exact ih hm₁ h.tail qs

theorem addSetters_cons (p : Project) (id : DeclId) (d : Declaration) (qs : List Property) (i : Nat)
    (x : Method) (xs : List Method) (m : Memo) :
    p.addSetters id d qs i (x :: xs) m =
      if d.isSetter x then
        (match (p.propertyName id i x m).1 with
        | .ok name =>
          match x.params with
          | param :: _ => p.addSetters id d (Property.addSetter name x param.ty qs) (i + 1) xs
          | [] => p.addSetters id d qs (i + 1) xs
        | .error e => pure (.error e)) (p.propertyName id i x m).2
      else p.addSetters id d qs (i + 1) xs m := by
  rw [addSetters]
  split <;> rfl

/-- The pass over the setters does not fail either. -/
theorem answer_addSetters (hd : p.decl? id = some d) (hm : m.Faithful p) (ha : asked.Faithful p)
    {xs : List Method} (h : NumberedFrom (d.methods[·]?) i xs) (qs : List Property) :
    (p.addSetters id d qs i xs m).1 =
      .ok ((xs.zipIdx i).foldl (Property.withSetter (p.sets? asked id d)) qs) := by
  induction xs generalizing i qs m with
  | nil => rfl
  | cons x xs ih =>
    have hname := steady_propertyName hd h.head
    rw [addSetters_cons, List.zipIdx_cons, List.foldl_cons, Property.withSetter]
    by_cases hx : d.isSetter x
    · obtain ⟨name, hn⟩ := exists_propertyName_of_isSetter hx p id i asked
      obtain ⟨param, hparam⟩ := params_of_isSetter hx
      have hsome : p.sets? asked id d (x, i) = some name := sets?_eq_some_iff.mpr ⟨hx, hn⟩
      rw [if_pos hx, hname.answer_eq hm ha, hn, hsome, hparam]
      exact ih (hname.faithful m hm) h.tail _
    · have hnone : p.sets? asked id d (x, i) = none := if_neg hx
      rw [if_neg hx, hnone]
      exact ih hm h.tail qs

theorem properties_of_addFields {qs : List Property} (h : Property.addFields [] d.fields = .ok qs)
    (p : Project) (id : DeclId) (m : Memo) :
    p.properties id d m =
      (match (p.addGetters id d qs 0 d.methods m).1 with
      | .ok found => p.addSetters id d found 0 d.methods
      | .error e => pure (.error e)) (p.addGetters id d qs 0 d.methods m).2 := by
  rw [properties, h]
  rfl

/-- All passes together: only a repeated name of a field can fail. -/
theorem answer_properties (hd : p.decl? id = some d) (hm : m.Faithful p) (ha : asked.Faithful p) :
    (∃ name, firstRepeated? [] (d.instanceFields.map (·.name)) = some name ∧
      (p.properties id d m).1 = .error (.duplicateField name)) ∨
    firstRepeated? [] (d.instanceFields.map (·.name)) = none ∧
      ∃ qs, (p.properties id d m).1 = .ok qs ∧
        Property.Gathers (p.gets? asked id d) (p.sets? asked id d) d.instanceFields
          d.methods.zipIdx d.methods.zipIdx qs := by
  have hall : NumberedFrom (d.methods[·]?) 0 d.methods := numberedFrom_zero fun _ => rfl
  rcases Property.addFields_cases d with ⟨name, hname, hfields⟩ | ⟨hnone, hfields⟩
  · refine .inl ⟨name, hname, ?_⟩
    rw [properties, hfields]
    rfl
  · refine .inr ⟨hnone, ?_⟩
    have hnodup := firstRepeated?_names_eq_none_iff.mp hnone
    have hgetters := answer_addGetters hd hm ha hall (d.instanceFields.map Property.ofField)
    have hm₁ := (steady_addGetters hd hall (d.instanceFields.map Property.ofField)).faithful m hm
    have hgathers : Property.Gathers (p.gets? asked id d) (p.sets? asked id d) d.instanceFields
        d.methods.zipIdx [] _ :=
      (Property.gathers_ofFields hnodup).foldl_withGetter d.methods.zipIdx
    refine ⟨_, ?_, hgathers.foldl_withSetter ?_ d.methods.zipIdx⟩
    · rw [properties_of_addFields hfields, hgetters]
      exact answer_addSetters hd hm₁ ha hall _
    · intro x name hx
      exact params_of_isSetter (sets?_eq_some_iff.mp hx).1

theorem gathers_of_properties {qs : List Property} (hd : p.decl? id = some d) (hm : m.Faithful p)
    (ha : asked.Faithful p) (hqs : (p.properties id d m).1 = .ok qs) :
    (d.instanceFields.map (·.name)).Nodup ∧
      Property.Gathers (p.gets? asked id d) (p.sets? asked id d) d.instanceFields
        d.methods.zipIdx d.methods.zipIdx qs := by
  rcases answer_properties hd hm ha with ⟨name, -, heq⟩ | ⟨hnone, found, heq, hgathers⟩
  · cases heq.symm.trans hqs
  · cases heq.symm.trans hqs
    exact ⟨firstRepeated?_names_eq_none_iff.mp hnone, hgathers⟩

/-- The properties of a declaration, as they follow from its members. What is a getter or a setter
of which property is asked with the given memo. -/
structure Derives (p : Project) (asked : Memo) (id : DeclId) (d : Declaration)
    (qs : List Property) : Prop where
  distinct : (qs.map (·.name)).Nodup
  /-- First the fields, then what only getters name, then what only setters name. -/
  order : qs.map (·.name) =
    d.instanceFields.map (·.name) ++
      ((d.methods.zipIdx.filterMap (p.gets? asked id d)).removeAll
        (d.instanceFields.map (·.name))).eraseDups ++
      ((d.methods.zipIdx.filterMap (p.sets? asked id d)).removeAll
        (d.instanceFields.map (·.name) ++ d.methods.zipIdx.filterMap (p.gets? asked id d))).eraseDups
  /-- The field of that name, the last getter and the last setter. -/
  parts : ∀ q ∈ qs, q.MadeOf (p.gets? asked id d) (p.sets? asked id d) d.instanceFields
    d.methods.zipIdx d.methods.zipIdx
  /-- Every getter belongs to one property, which has the name that is derived for it. -/
  getters : ∀ x ∈ d.methods.zipIdx, (p.isGetter id d x.2 x.1 asked).1 = true →
    ∃ q ∈ qs, (p.propertyName id x.2 x.1 asked).1 = .ok q.name ∧
      ∀ r ∈ qs, x ∈ Property.accessors (p.gets? asked id d) d.methods.zipIdx r.name ↔ r = q
  setters : ∀ x ∈ d.methods.zipIdx, d.isSetter x.1 = true →
    ∃ q ∈ qs, (p.propertyName id x.2 x.1 asked).1 = .ok q.name ∧
      ∀ r ∈ qs, x ∈ Property.accessors (p.sets? asked id d) d.methods.zipIdx r.name ↔ r = q

/-- An accessor belongs to the one property of its name. -/
theorem exists_property_of_accessor {names : Method × Nat → Option String}
    {xs : List (Method × Nat)} {y : Method × Nat} {qs : List Property} {name : String}
    (hqs : (qs.map (·.name)).Nodup) (hname : name ∈ qs.map (·.name)) (hy : y ∈ xs)
    (h : names y = some name) :
    ∃ q ∈ qs, q.name = name ∧ ∀ r ∈ qs, y ∈ Property.accessors names xs r.name ↔ r = q := by
  obtain ⟨q, hq, rfl⟩ := List.mem_map.mp hname
  refine ⟨q, hq, rfl, fun r hr => ?_⟩
  rw [Property.mem_accessors_iff, h]
  constructor
  · rintro ⟨-, heq⟩
    exact (List.inj_on_of_nodup_map hqs hq hr (Option.some.inj heq)).symm
  · rintro rfl
    exact ⟨hy, rfl⟩

theorem derives_of_gathers {qs : List Property}
    (hfields : (d.instanceFields.map (·.name)).Nodup)
    (h : Property.Gathers (p.gets? asked id d) (p.sets? asked id d) d.instanceFields
      d.methods.zipIdx d.methods.zipIdx qs) : p.Derives asked id d qs where
  distinct := h.nodup
  order := by
    rw [h.names, List.eraseDups_append, List.eraseDups_append, eraseDups_of_nodup hfields]
  parts := h.madeOf
  getters y hy hgetter := by
    obtain ⟨name, hn⟩ := exists_propertyName_of_isGetter hgetter
    have hsome := gets?_eq_some_iff.mpr ⟨hgetter, hn⟩
    have hmem := h.mem_map_name_iff.mpr (.inr (.inl (List.mem_filterMap.mpr ⟨y, hy, hsome⟩)))
    obtain ⟨q, hq, rfl, honly⟩ := exists_property_of_accessor h.nodup hmem hy hsome
    exact ⟨q, hq, hn, honly⟩
  setters y hy hsetter := by
    obtain ⟨name, hn⟩ := exists_propertyName_of_isSetter hsetter p id y.2 asked
    have hsome := sets?_eq_some_iff.mpr ⟨hsetter, hn⟩
    have hmem := h.mem_map_name_iff.mpr (.inr (.inr (List.mem_filterMap.mpr ⟨y, hy, hsome⟩)))
    obtain ⟨q, hq, rfl, honly⟩ := exists_property_of_accessor h.nodup hmem hy hsome
    exact ⟨q, hq, hn, honly⟩

theorem derives_of_properties {qs : List Property} (hd : p.decl? id = some d) (hm : m.Faithful p)
    (ha : asked.Faithful p) (hqs : (p.properties id d m).1 = .ok qs) : p.Derives asked id d qs :=
  have ⟨hnodup, hgathers⟩ := gathers_of_properties hd hm ha hqs
  derives_of_gathers hnodup hgathers

/-- The properties of a declaration fail exactly if two fields that are not static share a name,
and then the first name that has occurred before is reported. Otherwise they follow from the
members. None of this depends on what was asked before. -/
theorem properties_follow_from_members (hd : p.decl? id = some d) (history later : List Query) :
    (∀ e, (p.properties id d (Query.remembered p history)).1 = .error e ↔
      ∃ name, FirstRepeated (d.instanceFields.map (·.name)) name ∧ e = .duplicateField name) ∧
    ((∃ e, (p.properties id d (Query.remembered p history)).1 = .error e) ↔
      ¬ (d.instanceFields.map (·.name)).Nodup) ∧
    ∀ qs, (p.properties id d (Query.remembered p history)).1 = .ok qs →
      p.Derives (Query.remembered p later) id d qs := by
  have hm := Query.faithful_remembered p history
  have ha := Query.faithful_remembered p later
  rw [← and_assoc]
  refine ⟨?_, fun qs hqs => derives_of_properties hd hm ha hqs⟩
  simp only [← firstRepeated?_names_eq_some_iff, ← firstRepeated?_names_eq_none_iff]
  rcases answer_properties hd hm ha with ⟨name, hname, heq⟩ | ⟨hnone, qs, heq, -⟩
  · rw [heq, hname]
    refine ⟨fun e => ?_, by simp⟩
    constructor
    · rintro ⟨⟩
      exact ⟨name, rfl, rfl⟩
    · rintro ⟨_, ⟨⟩, rfl⟩
      rfl
  · rw [heq, hnone]
    simp

/-- A field with two getters, of which the later one counts, and a setter without either. -/
theorem properties_of_overloaded_accessors :
    ∃ p d qs, load true [[.enterType .classType "C", .modifier "static",
        .field (.ofName "int") [⟨"a", 0, none⟩], .field (.ofName "int") [⟨"b", 0, none⟩],
        .modifier "public", .enterMethod "isB" (.ofName "Boolean"), .exitMember,
        .modifier "public", .enterMethod "getB" (.ofName "int"), .exitMember,
        .modifier "public", .enterMethod "setURL" (.ofName "void"),
        .parameter "u" (.ofName "int") false, .exitMember, .exitType]] = .ok p ∧
      p.decl? ⟨0, 0⟩ = some d ∧
      (p.properties ⟨0, 0⟩ d (Query.remembered p [.checkUnit 0])).1 = .ok qs ∧
      qs.map (fun q => (q.name, q.getter.map (·.name), q.setter.map (·.name))) =
        [("b", some "getB", none), ("URL", none, some "setURL")] ∧
      p.Derives .empty ⟨0, 0⟩ d qs := by
  obtain ⟨p, d, hp, hd, hall⟩ : ∃ p d,
      load true [[.enterType .classType "C", .modifier "static",
        .field (.ofName "int") [⟨"a", 0, none⟩], .field (.ofName "int") [⟨"b", 0, none⟩],
        .modifier "public", .enterMethod "isB" (.ofName "Boolean"), .exitMember,
        .modifier "public", .enterMethod "getB" (.ofName "int"), .exitMember,
        .modifier "public", .enterMethod "setURL" (.ofName "void"),
        .parameter "u" (.ofName "int") false, .exitMember, .exitType]] = .ok p ∧
      p.decl? ⟨0, 0⟩ = some d ∧
      (p.properties ⟨0, 0⟩ d (Query.remembered p [.checkUnit 0])).1.map
        (·.map fun q => (q.name, q.getter.map (·.name), q.setter.map (·.name))) =
        .ok [("b", some "getB", none), ("URL", none, some "setURL")] :=
    ⟨_, _, load_of_built (.cons (by rfl) .nil) (by decide +kernel), by rfl, by decide +kernel⟩
  obtain ⟨qs, hqs, hparts⟩ := map_eq_ok_iff.mp hall
  exact ⟨p, d, qs, hp, hd, hqs, hparts,
    (properties_follow_from_members hd [.checkUnit 0] []).2.2 qs hqs⟩

/-! ## Types -/

/-- The first setter may be replaced by the last if both take the same type, and else only where
there is a getter or a field. -/
theorem hasTypeOf_last_iff {q : Property} {setters : List (Method × Nat)}
    (hparams : ∀ y ∈ setters, ∃ param, y.1.params = [param])
    (h : q.HasTypeOf (setters.head?.map (·.1))) :
    q.HasTypeOf (setters.getLast?.map (·.1)) ↔ (q.getter = none → q.field = none →
      setters.head?.map (·.1.params.map (·.ty)) =
        setters.getLast?.map (·.1.params.map (·.ty))) := by
  unfold Property.HasTypeOf at h ⊢
  cases hg : q.getter with
  | some g =>
    rw [hg] at h
    simp [h]
  | none =>
    cases hf : q.field with
    | some f =>
      rw [hg, hf] at h
      simp [h]
    | none =>
      rw [hg, hf] at h
      obtain ⟨_, param, hhead, hparam, hty⟩ := h
      obtain ⟨first, hfirst, rfl⟩ := Option.map_eq_some_iff.mp hhead
      obtain ⟨last, hlast⟩ : ∃ last, setters.getLast? = some last :=
        Option.isSome_iff_exists.mp (List.getLast?_isSome.mpr fun hnil => by simp [hnil] at hfirst)
      obtain ⟨param', hparam'⟩ := hparams last (List.mem_of_getLast? hlast)
      rw [hfirst, hlast]
      simp [hparam, hparam', hty]

/-- A property has the type of its getter, else of its field, else of the first of its setters. So
this is the type of its own members, unless it has only setters and the first of them takes another
type than the last, which is the one that the property has. -/
theorem property_has_type_of_first_setter (hd : p.decl? id = some d) (history later : List Query)
    {qs : List Property} (hqs : (p.properties id d (Query.remembered p history)).1 = .ok qs)
    {q : Property} (hq : q ∈ qs) :
    let setters := Property.accessors (p.sets? (Query.remembered p later) id d) d.methods.zipIdx
      q.name
    q.HasTypeOf (setters.head?.map (·.1)) ∧
      (q.HasTypeOf q.setter ↔ (q.getter = none → q.field = none →
        setters.head?.map (·.1.params.map (·.ty)) =
          setters.getLast?.map (·.1.params.map (·.ty)))) := by
  intro setters
  obtain ⟨-, hgathers⟩ := gathers_of_properties hd (Query.faithful_remembered p history)
    (Query.faithful_remembered p later) hqs
  have hfirst : q.HasTypeOf (setters.head?.map (·.1)) := hgathers.hasType q hq
  have hlast : q.setter = setters.getLast?.map (·.1) := (hgathers.madeOf q hq).setter
  refine ⟨hfirst, ?_⟩
  have hparams : ∀ y ∈ setters, ∃ param, y.1.params = [param] := fun y hy =>
    params_of_isSetter (sets?_eq_some_iff.mp (Property.mem_accessors_iff.mp hy).2).1
  rw [hlast]
  exact hasTypeOf_last_iff hparams hfirst

/-- Two setters of one name: the property has the type of the first and the setter of the second. -/
theorem property_type_of_other_setter :
    ∃ p d q, load true [[.enterType .classType "C",
        .modifier "public", .enterMethod "setX" (.ofName "void"),
        .parameter "x" (.ofName "int") false, .exitMember,
        .modifier "public", .enterMethod "setX" (.ofName "void"),
        .parameter "x" (.ofName "String") false, .exitMember, .exitType]] = .ok p ∧
      p.decl? ⟨0, 0⟩ = some d ∧ (p.properties ⟨0, 0⟩ d .empty).1 = .ok [q] ∧
      ¬ q.HasTypeOf q.setter := by
  obtain ⟨p, d, hp, hd, hall⟩ : ∃ p d, load true [[.enterType .classType "C",
        .modifier "public", .enterMethod "setX" (.ofName "void"),
        .parameter "x" (.ofName "int") false, .exitMember,
        .modifier "public", .enterMethod "setX" (.ofName "void"),
        .parameter "x" (.ofName "String") false, .exitMember, .exitType]] = .ok p ∧
      p.decl? ⟨0, 0⟩ = some d ∧
      (p.properties ⟨0, 0⟩ d .empty).1.map (·.map fun q => (q.getter.isSome, q.field.isSome,
        q.ty.display, q.setter.map (·.params.map (·.ty.display)))) =
        .ok [(false, false, "int", some ["String"])] :=
    ⟨_, _, load_of_built (.cons (by rfl) .nil) (by decide +kernel), by rfl, by decide +kernel⟩
  obtain ⟨qs, hqs, hparts⟩ := map_eq_ok_iff.mp hall
  obtain ⟨q, rfl, hq⟩ := List.map_eq_singleton_iff.mp hparts
  refine ⟨p, d, q, hp, hd, hqs, ?_⟩
  obtain ⟨name, ty, field, getter, setter⟩ := q
  simp only [Prod.mk.injEq, Option.isSome_eq_false_iff, Option.isNone_iff_eq_none] at hq
  obtain ⟨rfl, rfl, hty, hsetter⟩ := hq
  rintro ⟨s, param, rfl, hparams, rfl⟩
  simp [hparams, hty] at hsetter

/-- With a getter the two setters do no harm. -/
theorem property_type_of_getter :
    ∃ p d q, load true [[.enterType .classType "C",
        .modifier "public", .enterMethod "setX" (.ofName "void"),
        .parameter "x" (.ofName "int") false, .exitMember,
        .modifier "public", .enterMethod "setX" (.ofName "void"),
        .parameter "x" (.ofName "String") false, .exitMember,
        .modifier "public", .enterMethod "getX" (.ofName "long"), .exitMember, .exitType]] = .ok p ∧
      p.decl? ⟨0, 0⟩ = some d ∧ (p.properties ⟨0, 0⟩ d .empty).1 = .ok [q] ∧
      q.getter ≠ none ∧ q.HasTypeOf q.setter := by
  obtain ⟨p, d, hp, hd, hall⟩ : ∃ p d, load true [[.enterType .classType "C",
        .modifier "public", .enterMethod "setX" (.ofName "void"),
        .parameter "x" (.ofName "int") false, .exitMember,
        .modifier "public", .enterMethod "setX" (.ofName "void"),
        .parameter "x" (.ofName "String") false, .exitMember,
        .modifier "public", .enterMethod "getX" (.ofName "long"), .exitMember, .exitType]] = .ok p ∧
      p.decl? ⟨0, 0⟩ = some d ∧
      (p.properties ⟨0, 0⟩ d .empty).1.map (·.map (·.getter.isSome)) = .ok [true] :=
    ⟨_, _, load_of_built (.cons (by rfl) .nil) (by decide +kernel), by rfl, by decide +kernel⟩
  obtain ⟨qs, hqs, hparts⟩ := map_eq_ok_iff.mp hall
  obtain ⟨q, rfl, hsome⟩ := List.map_eq_singleton_iff.mp hparts
  have hg : q.getter ≠ none := Option.isSome_iff_ne_none.mp hsome
  refine ⟨p, d, q, hp, hd, hqs, hg, ?_⟩
  exact (property_has_type_of_first_setter hd [] [] hqs List.mem_cons_self).2.mpr
    fun hnone => absurd hnone hg

end Project

end SourceModel
