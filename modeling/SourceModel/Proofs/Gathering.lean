import SourceModel.Proofs.Loading
import SourceModel.Property

/-!
# Gathering properties

The properties of a declaration are gathered in three passes over its members: the fields that are
not static, the getters, the setters. `Property.Gathers` says what has been gathered after some of
the members: the names in the order in which they came up, and for each property its field, the last
of its getters and the last of its setters. Every member that is added keeps this so.

The type of a property is set when the property begins and later only by getters. So it is the type
of the getter, or else of the field, or else of the first setter, which need not be the setter that
the property ends up with (`Property.HasTypeOf`).
-/

namespace SourceModel

/-- The fields that are not static. -/
def Declaration.instanceFields (d : Declaration) : List Field :=
  d.fields.filter (!·.modifiers.contains .static)

/-- The type of the property is that of its getter, else that of its field, else that of the only
parameter of the given setter. -/
def Property.HasTypeOf (q : Property) (setter : Option Method) : Prop :=
  match q.getter, q.field with
  | some g, _ => q.ty = g.returnType
  | none, some f => q.ty = f.ty
  | none, none => ∃ s param, setter = some s ∧ s.params = [param] ∧ q.ty = param.ty

theorem Property.HasTypeOf.imp {q : Property} {s t : Option Method} (h : q.HasTypeOf s)
    (hst : ∀ m, s = some m → t = some m) : q.HasTypeOf t := by
  unfold HasTypeOf at h ⊢
  split at h
  · exact h
  · exact h
  · obtain ⟨m, param, hs, hp, hty⟩ := h
    exact ⟨m, param, hst m hs, hp, hty⟩

/-! ## First occurrences -/

section FirstOccurrences

variable {α : Type} [BEq α] [LawfulBEq α]

theorem eraseDups_concat (l : List α) (a : α) :
    (l ++ [a]).eraseDups = if a ∈ l then l.eraseDups else l.eraseDups ++ [a] := by
  rw [List.eraseDups_append]
  by_cases h : a ∈ l <;> simp [List.removeAll, List.eraseDups_cons, h]

theorem nodup_eraseDups (l : List α) : l.eraseDups.Nodup := by
  induction l using List.reverseRecOn with
  | nil => exact List.nodup_nil
  | append_singleton l a ih =>
    rw [eraseDups_concat]
    split
    · exact ih
    · next h =>
      rw [← List.concat_eq_append]
      exact ih.concat (mt List.mem_eraseDups.mp h)

theorem eraseDups_of_nodup {l : List α} (h : l.Nodup) : l.eraseDups = l := by
  induction l using List.reverseRecOn with
  | nil => rfl
  | append_singleton l a ih =>
    obtain ⟨hl, -, hdisjoint⟩ := List.nodup_append.mp h
    have ha : a ∉ l := fun hmem => hdisjoint a hmem a List.mem_cons_self rfl
    rw [eraseDups_concat, if_neg ha, ih hl]

end FirstOccurrences

namespace Property

/-! ## One property changed -/

section Upsert

variable {name : String} {new q : Property} {change : Property → Property} {qs : List Property}

theorem map_name_upsert (hnew : (change new).name = name) (hchange : ∀ q, (change q).name = q.name)
    (qs : List Property) :
    (upsert name new change qs).map (·.name) =
      if name ∈ qs.map (·.name) then qs.map (·.name) else qs.map (·.name) ++ [name] := by
  induction qs with
  | nil => simp [upsert, hnew]
  | cons q qs ih =>
    unfold upsert
    by_cases h : q.name = name
    · simp [h, hchange]
    · have h' : name ≠ q.name := Ne.symm h
      simp only [beq_iff_eq, h, if_false, List.map_cons, List.mem_cons, h', false_or, ih]
      split <;> rfl

theorem map_name_upsert_eq_eraseDups {names : List String}
    (h : qs.map (·.name) = names.eraseDups) (hnew : (change new).name = name)
    (hchange : ∀ q, (change q).name = q.name) :
    (upsert name new change qs).map (·.name) = (names ++ [name]).eraseDups := by
  rw [map_name_upsert hnew hchange, h, eraseDups_concat]
  simp only [List.mem_eraseDups]

theorem map_name_addGetter {names : List String} (h : qs.map (·.name) = names.eraseDups)
    (name : String) (m : Method) :
    (addGetter name m qs).map (·.name) = (names ++ [name]).eraseDups :=
  map_name_upsert_eq_eraseDups h rfl fun _ => rfl

theorem map_name_addSetter {names : List String} (h : qs.map (·.name) = names.eraseDups)
    (name : String) (m : Method) (ty : Ty) :
    (addSetter name m ty qs).map (·.name) = (names ++ [name]).eraseDups :=
  map_name_upsert_eq_eraseDups h rfl fun _ => rfl

/-- What an update leaves alone has another name; all else is made from the property of the name,
or from a new one. -/
theorem mem_upsert (hqs : (qs.map (·.name)).Nodup) (h : q ∈ upsert name new change qs) :
    q ∈ qs ∧ q.name ≠ name ∨
      ∃ old, q = change old ∧ (old ∈ qs ∧ old.name = name ∨ name ∉ qs.map (·.name) ∧ old = new) := by
  induction qs with
  | nil => exact .inr ⟨new, List.mem_singleton.mp h, .inr ⟨List.not_mem_nil, rfl⟩⟩
  | cons r qs ih =>
    obtain ⟨hr, hrest⟩ := List.nodup_cons.mp hqs
    unfold upsert at h
    by_cases hname : r.name = name
    · rw [if_pos (by simpa using hname)] at h
      rcases List.mem_cons.mp h with rfl | h
      · exact .inr ⟨r, rfl, .inl ⟨List.mem_cons_self, hname⟩⟩
      · refine .inl ⟨List.mem_cons_of_mem _ h, fun heq => hr ?_⟩
        exact List.mem_map.mpr ⟨q, h, heq.trans hname.symm⟩
    · rw [if_neg (by simpa using hname)] at h
      rcases List.mem_cons.mp h with rfl | h
      · exact .inl ⟨List.mem_cons_self, hname⟩
      · rcases ih hrest h with ⟨hmem, hne⟩ | ⟨old, heq, ⟨hold, hn⟩ | ⟨hnew, rfl⟩⟩
        · exact .inl ⟨List.mem_cons_of_mem _ hmem, hne⟩
        · exact .inr ⟨old, heq, .inl ⟨List.mem_cons_of_mem _ hold, hn⟩⟩
        · refine .inr ⟨old, heq, .inr ⟨?_, rfl⟩⟩
          rw [List.map_cons, List.mem_cons, not_or]
          exact ⟨Ne.symm hname, hnew⟩

end Upsert

/-! ## What has been gathered -/

/-- The methods that belong to the property of the name. -/
def accessors (names : Method × Nat → Option String) (xs : List (Method × Nat)) (name : String) :
    List (Method × Nat) :=
  xs.filter (names · == some name)

section Accessors

variable {names : Method × Nat → Option String} {xs : List (Method × Nat)} {x : Method × Nat}
  {name : String}

theorem mem_accessors_iff : x ∈ accessors names xs name ↔ x ∈ xs ∧ names x = some name := by
  simp [accessors]

theorem accessors_concat (h : names x = some name) :
    accessors names (xs ++ [x]) name = accessors names xs name ++ [x] := by
  simp [accessors, h]

theorem accessors_concat_of_ne (h : names x ≠ some name) :
    accessors names (xs ++ [x]) name = accessors names xs name := by
  simp [accessors, h]

theorem getLast?_accessors_concat (h : names x = some name) :
    (accessors names (xs ++ [x]) name).getLast?.map (·.1) = some x.1 := by
  rw [accessors_concat h, List.getLast?_concat]
  rfl

theorem accessors_eq_nil (h : name ∉ xs.filterMap names) : accessors names xs name = [] := by
  refine List.filter_eq_nil_iff.mpr fun x hx heq => h ?_
  exact List.mem_filterMap.mpr ⟨x, hx, by simpa using heq⟩

end Accessors

section Gathers

variable {gets sets : Method × Nat → Option String} {fs : List Field}
  {xs ys : List (Method × Nat)} {x : Method × Nat} {qs : List Property} {q : Property}

/-- The parts of a property, if `fs` are the fields, `xs` the methods that have been tried as
getters and `ys` those that have been tried as setters. -/
structure MadeOf (gets sets : Method × Nat → Option String) (fs : List Field)
    (xs ys : List (Method × Nat)) (q : Property) : Prop where
  field : q.field = fs.find? (·.name == q.name)
  getter : q.getter = (accessors gets xs q.name).getLast?.map (·.1)
  setter : q.setter = (accessors sets ys q.name).getLast?.map (·.1)

namespace MadeOf

theorem otherGetter (h : q.MadeOf gets sets fs xs ys) (hx : gets x ≠ some q.name) :
    q.MadeOf gets sets fs (xs ++ [x]) ys :=
  { h with getter := by rw [accessors_concat_of_ne hx]; exact h.getter }

theorem otherSetter (h : q.MadeOf gets sets fs xs ys) (hx : sets x ≠ some q.name) :
    q.MadeOf gets sets fs xs (ys ++ [x]) :=
  { h with setter := by rw [accessors_concat_of_ne hx]; exact h.setter }

theorem newGetter (h : q.MadeOf gets sets fs xs ys) (hx : gets x = some q.name) (ty : Ty) :
    { q with ty := ty, getter := some x.1 }.MadeOf gets sets fs (xs ++ [x]) ys :=
  { h with getter := (getLast?_accessors_concat hx).symm }

theorem newSetter (h : q.MadeOf gets sets fs xs ys) (hx : sets x = some q.name) :
    { q with setter := some x.1 }.MadeOf gets sets fs xs (ys ++ [x]) :=
  { h with setter := (getLast?_accessors_concat hx).symm }

end MadeOf

/-- The properties that these members make up, in the order in which their names came up. -/
structure Gathers (gets sets : Method × Nat → Option String) (fs : List Field)
    (xs ys : List (Method × Nat)) (qs : List Property) : Prop where
  names : qs.map (·.name) =
    (fs.map (·.name) ++ xs.filterMap gets ++ ys.filterMap sets).eraseDups
  madeOf : ∀ q ∈ qs, q.MadeOf gets sets fs xs ys
  hasType : ∀ q ∈ qs, q.HasTypeOf ((accessors sets ys q.name).head?.map (·.1))

theorem Gathers.mem_map_name_iff (h : Gathers gets sets fs xs ys qs) {name : String} :
    name ∈ qs.map (·.name) ↔
      name ∈ fs.map (·.name) ∨ name ∈ xs.filterMap gets ∨ name ∈ ys.filterMap sets := by
  rw [h.names, List.mem_eraseDups, List.mem_append, List.mem_append, or_assoc]

theorem Gathers.nodup (h : Gathers gets sets fs xs ys qs) : (qs.map (·.name)).Nodup := by
  rw [h.names]
  exact nodup_eraseDups _

/-- A property that begins has no parts, and there are none of its name. -/
theorem Gathers.madeOf_bare (h : Gathers gets sets fs xs ys qs) {name : String}
    (hn : name ∉ qs.map (·.name)) (ty : Ty) : (bare name ty).MadeOf gets sets fs xs ys := by
  rw [h.mem_map_name_iff, not_or, not_or] at hn
  obtain ⟨hf, hg, hs⟩ := hn
  refine ⟨?_, ?_, ?_⟩
  · show none = fs.find? (·.name == name)
    refine (List.find?_eq_none.mpr fun f hmem heq => hf ?_).symm
    exact List.mem_map.mpr ⟨f, hmem, by simpa using heq⟩
  · show none = (accessors gets xs name).getLast?.map (·.1)
    rw [accessors_eq_nil hg]
    rfl
  · show none = (accessors sets ys name).getLast?.map (·.1)
    rw [accessors_eq_nil hs]
    rfl

/-- What is changed has the parts of its name so far, also if it begins. -/
theorem Gathers.madeOf_old (h : Gathers gets sets fs xs ys qs) {name : String} {ty : Ty}
    {old : Property} (hold : old ∈ qs ∧ old.name = name ∨
      name ∉ qs.map (·.name) ∧ old = bare name ty) :
    old.MadeOf gets sets fs xs ys ∧ old.name = name := by
  rcases hold with ⟨hmem, hname⟩ | ⟨hn, rfl⟩
  · exact ⟨h.madeOf old hmem, hname⟩
  · exact ⟨h.madeOf_bare hn ty, rfl⟩

/-- The properties with the method added if it is a getter. -/
def withGetter (gets : Method × Nat → Option String) (qs : List Property) (x : Method × Nat) :
    List Property :=
  match gets x with
  | some name => addGetter name x.1 qs
  | none => qs

/-- The properties with the method added if it is a setter. -/
def withSetter (sets : Method × Nat → Option String) (qs : List Property) (x : Method × Nat) :
    List Property :=
  match sets x, x.1.params with
  | some name, param :: _ => addSetter name x.1 param.ty qs
  | _, _ => qs

/-- One more method is tried as a getter. -/
theorem Gathers.withGetter (h : Gathers gets sets fs xs [] qs) (x : Method × Nat) :
    Gathers gets sets fs (xs ++ [x]) [] (withGetter gets qs x) := by
  unfold Property.withGetter
  cases hx : gets x with
  | none =>
    refine ⟨?_, fun q hq => (h.madeOf q hq).otherGetter (by simp [hx]), h.hasType⟩
    rw [h.names, List.filterMap_append]
    simp [hx]
  | some name =>
    refine ⟨?_, fun q hq => ?_, fun q hq => ?_⟩
    · refine (map_name_addGetter h.names name x.1).trans ?_
      simp [hx]
    · rcases mem_upsert h.nodup hq with ⟨hmem, hne⟩ | ⟨old, rfl, hold⟩
      · exact (h.madeOf q hmem).otherGetter (by simpa [hx] using hne.symm)
      · obtain ⟨hparts, rfl⟩ := h.madeOf_old hold
        exact hparts.newGetter hx x.1.returnType
    · rcases mem_upsert h.nodup hq with ⟨hmem, -⟩ | ⟨old, rfl, -⟩
      · exact h.hasType q hmem
      · exact rfl

/-- One more method is tried as a setter. -/
theorem Gathers.withSetter (h : Gathers gets sets fs xs ys qs) {x : Method × Nat}
    (hparam : ∀ name, sets x = some name → ∃ param, x.1.params = [param]) :
    Gathers gets sets fs xs (ys ++ [x]) (withSetter sets qs x) := by
  unfold Property.withSetter
  cases hx : sets x with
  | none =>
    refine ⟨?_, fun q hq => (h.madeOf q hq).otherSetter (by simp [hx]), fun q hq => ?_⟩
    · rw [List.filterMap_append, ← List.append_assoc, h.names]
      simp [hx]
    · rw [accessors_concat_of_ne (by simp [hx])]
      exact h.hasType q hq
  | some name =>
    obtain ⟨param, hp⟩ := hparam name hx
    rw [hp]
    refine ⟨?_, fun q hq => ?_, fun q hq => ?_⟩
    · refine (map_name_addSetter h.names name x.1 param.ty).trans ?_
      simp [hx]
    · rcases mem_upsert h.nodup hq with ⟨hmem, hne⟩ | ⟨old, rfl, hold⟩
      · exact (h.madeOf q hmem).otherSetter (by simpa [hx] using hne.symm)
      · obtain ⟨hparts, rfl⟩ := h.madeOf_old hold
        exact hparts.newSetter hx
    · rcases mem_upsert h.nodup hq with ⟨hmem, hne⟩ | ⟨old, rfl, ⟨hmem, hname⟩ | ⟨hn, rfl⟩⟩
      · rw [accessors_concat_of_ne (by simpa [hx] using hne.symm)]
        exact h.hasType q hmem
      · -- the type stays, also where it is that of an earlier setter
        show old.HasTypeOf ((accessors sets (ys ++ [x]) old.name).head?.map (·.1))
        refine (h.hasType old hmem).imp fun m hm => ?_
        rw [hname] at hm ⊢
        obtain ⟨first, hfirst, rfl⟩ := Option.map_eq_some_iff.mp hm
        rw [accessors_concat hx, List.head?_append, hfirst]
        rfl
      · rw [h.mem_map_name_iff, not_or, not_or] at hn
        refine ⟨x.1, param, ?_, hp, rfl⟩
        show (accessors sets (ys ++ [x]) name).head?.map (·.1) = some x.1
        rw [accessors_concat hx, accessors_eq_nil hn.2.2]
        rfl

/-- All methods are tried as getters, and then as setters. -/
theorem Gathers.foldl_withGetter (h : Gathers gets sets fs [] [] qs) (xs : List (Method × Nat)) :
    Gathers gets sets fs xs [] (xs.foldl (Property.withGetter gets) qs) := by
  induction xs using List.reverseRecOn with
  | nil => exact h
  | append_singleton xs x ih =>
    rw [List.foldl_append]
    exact ih.withGetter x

theorem Gathers.foldl_withSetter (h : Gathers gets sets fs xs [] qs)
    (hparam : ∀ x name, sets x = some name → ∃ param, x.1.params = [param])
    (ys : List (Method × Nat)) :
    Gathers gets sets fs xs ys (ys.foldl (Property.withSetter sets) qs) := by
  induction ys using List.reverseRecOn with
  | nil => exact h
  | append_singleton ys y ih =>
    rw [List.foldl_append]
    exact ih.withSetter (hparam y)

end Gathers

/-! ## Fields -/

/-- The property that a field begins. -/
def ofField (f : Field) : Property :=
  { bare f.name f.ty with field := some f }

/-- A field that is not static begins a property, or else its name has occurred before. -/
theorem addFields_eq (qs : List Property) (seen : List String)
    (hseen : ∀ name, name ∈ seen ↔ name ∈ qs.map (·.name)) (fs : List Field) :
    addFields qs fs =
      match firstRepeated? seen ((fs.filter (!·.modifiers.contains .static)).map (·.name)) with
      | some name => .error (.duplicateField name)
      | none => .ok (qs ++ (fs.filter (!·.modifiers.contains .static)).map ofField) := by
  induction fs generalizing qs seen with
  | nil => simp [addFields, firstRepeated?]
  | cons f fs ih =>
    unfold addFields
    by_cases hf : f.modifiers.contains .static
    · rw [if_pos hf, ih qs seen hseen, List.filter_cons_of_neg (by simpa using hf)]
    rw [if_neg hf, List.filter_cons_of_pos (by simpa using hf), List.map_cons, firstRepeated?]
    have hany : qs.any (·.name == f.name) = seen.contains f.name := by
      rw [Bool.eq_iff_iff, List.contains_iff_mem, hseen]
      simp
    rw [hany]
    split
    · rfl
    · rw [ih _ (f.name :: seen)]
      · simp [ofField]
      · intro name
        simp [hseen, bare, or_comm, eq_comm]

theorem addFields_cases (d : Declaration) :
    (∃ name, firstRepeated? [] (d.instanceFields.map (·.name)) = some name ∧
      addFields [] d.fields = .error (.duplicateField name)) ∨
    firstRepeated? [] (d.instanceFields.map (·.name)) = none ∧
      addFields [] d.fields = .ok (d.instanceFields.map ofField) := by
  rw [addFields_eq [] [] fun _ => Iff.rfl]
  unfold Declaration.instanceFields
  split
  · next name h => exact .inl ⟨name, h, rfl⟩
  · next h => exact .inr ⟨h, rfl⟩

theorem gathers_ofFields {gets sets : Method × Nat → Option String} {fs : List Field}
    (h : (fs.map (·.name)).Nodup) : Gathers gets sets fs [] [] (fs.map ofField) := by
  refine ⟨?_, fun q hq => ?_, fun q hq => ?_⟩
  · rw [List.filterMap_nil, List.filterMap_nil, List.append_nil, List.append_nil,
      eraseDups_of_nodup h, List.map_map]
    rfl
  · obtain ⟨f, hf, rfl⟩ := List.mem_map.mp hq
    refine ⟨?_, rfl, rfl⟩
    show some f = fs.find? (·.name == f.name)
    have hsome : (fs.find? (·.name == f.name)).isSome := List.find?_isSome.mpr ⟨f, hf, by simp⟩
    obtain ⟨g, hg⟩ := Option.isSome_iff_exists.mp hsome
    have hname : g.name = f.name := by simpa using List.find?_some hg
    rw [hg, List.inj_on_of_nodup_map h (List.mem_of_find?_eq_some hg) hf hname]
  · obtain ⟨f, -, rfl⟩ := List.mem_map.mp hq
    exact rfl

end Property

end SourceModel
