import SourceModel.Proofs.CanonicalNames
import SourceModel.Proofs.Places

/-!
# Normal form of types

A type may be written in several ways: an array of arrays, an array without dimensions, a name
without segments. What is read from it has one form, at every depth: an array has a dimension and
no array as its component, and a primitive type is never left as a name (`Ty.IsNormal`).

The dimensions of nested arrays add up (`Ty.arrayOf_arrayOf`), so a written type is read as its
innermost named type with the sum of all dimensions around it (`Ty.ofWritten_eq_arrayOf`). What
stands at the end of a path in a type that was read has been read itself (`Spot.Lowered.at?`).
-/

namespace SourceModel

/-- An array has a dimension and a component that is no array; a type that consists of a name alone
is no primitive type. -/
def Ty.IsNormal : Ty → Prop
  | .primitive _ => True
  | .named ty => ty.qualifier = none → ty.args = [] → ∀ p : Primitive, ty.name ≠ p.keyword
  | .array component dimension => dimension ≠ 0 ∧ ∀ inner n, component ≠ .array inner n

namespace WrittenType

/-- The segments of the named type inside all arrays. -/
def innermost : WrittenType → List Segment
  | .named segments => segments
  | .array component _ => component.innermost

/-- The sum of the dimensions of all arrays around the innermost named type. -/
def dimensions : WrittenType → Nat
  | .named _ => 0
  | .array component dimension => component.dimensions + dimension

end WrittenType

/-! ## Dimensions -/

theorem brackets_add (m n : Nat) : brackets (m + n) = brackets m ++ brackets n := by
  unfold brackets
  rw [List.replicate_add, String.join_append]

namespace Ty

theorem arrayOf_zero (ty : Ty) : ty.arrayOf 0 = ty := by
  unfold arrayOf
  rw [if_pos rfl]

theorem arrayOf_of_ne_array {ty : Ty} {dimension : Nat} (h : dimension ≠ 0)
    (hty : ∀ inner n, ty ≠ .array inner n) : ty.arrayOf dimension = .array ty dimension := by
  unfold arrayOf
  rw [if_neg h]
  cases ty with
  | primitive p => rfl
  | named n => rfl
  | array component n => exact absurd rfl (hty component n)

theorem arrayOf_arrayOf (ty : Ty) (m n : Nat) : (ty.arrayOf m).arrayOf n = ty.arrayOf (m + n) := by
  by_cases hm : m = 0
  · rw [hm, arrayOf_zero, Nat.zero_add]
  by_cases hn : n = 0
  · rw [hn, arrayOf_zero, Nat.add_zero]
  cases ty <;> simp [arrayOf, hm, hn, Nat.add_assoc]

theorem name_arrayOf (ty : Ty) (n : Nat) : (ty.arrayOf n).name = ty.name ++ brackets n := by
  by_cases hn : n = 0
  · rw [hn, arrayOf_zero]
    exact String.append_empty.symm
  cases ty <;> simp [arrayOf, hn, name, brackets_add, String.append_assoc]

/-- However the arrays are written, their dimensions go to the innermost named type. -/
theorem ofWritten_eq_arrayOf (c : Container) :
    (w : WrittenType) → ofWritten c w = (ofWritten c (.named w.innermost)).arrayOf w.dimensions
  | .named segments => (arrayOf_zero _).symm
  | .array component dimension => by
    show (ofWritten c component).arrayOf dimension = _
    rw [ofWritten_eq_arrayOf c component, arrayOf_arrayOf]
    rfl

/-- Arrays of arrays may be put together before they are read. -/
theorem ofWritten_arrayOf (c : Container) (w : WrittenType) (n : Nat) :
    ofWritten c (w.arrayOf n) = ofWritten c (.array w n) := by
  cases w with
  | named segments => rfl
  | array component k =>
    rw [WrittenType.arrayOf, ofWritten, ofWritten, ofWritten, arrayOf_arrayOf]

end Ty

/-! ## Segments -/

namespace NamedType

variable {c : Container}

/-- The named type that the segments and a last one make. -/
def ofLast (c : Container) (init : List Segment) (last : Segment) : NamedType :=
  ⟨c, ofSegments c none init, last.name, TyArg.ofWrittenList c last.args⟩

theorem ofSegments_append (c : Container) (qualifier : Option NamedType) (init rest : List Segment) :
    ofSegments c qualifier (init ++ rest) = ofSegments c (ofSegments c qualifier init) rest := by
  induction init generalizing qualifier with
  | nil =>
    rw [List.nil_append]
    congr 1
  | cons s init ih =>
    obtain ⟨name, args⟩ := s
    rw [List.cons_append, ofSegments, ofSegments]
    exact ih _

theorem ofSegments_concat (c : Container) (init : List Segment) (last : Segment) :
    ofSegments c none (init ++ [last]) = some (ofLast c init last) := by
  obtain ⟨name, args⟩ := last
  rw [ofSegments_append, ofSegments, ofSegments]
  rfl

theorem ofSegments_nil (c : Container) : ofSegments c none [] = none := by
  rw [ofSegments]

theorem ofSegments_eq_none_iff {segments : List Segment} :
    ofSegments c none segments = none ↔ segments = [] := by
  constructor
  · intro h
    rcases List.eq_nil_or_concat segments with rfl | ⟨init, last, rfl⟩
    · rfl
    · rw [List.concat_eq_append, ofSegments_concat] at h
      cases h
  · rintro rfl
    exact ofSegments_nil c

theorem dottedName_ofLast (c : Container) (init : List Segment) (last : Segment) :
    (ofLast c init last).dottedName = Name.join ((init ++ [last]).map (·.name)) := by
  induction init using List.reverseRecOn generalizing last with
  | nil =>
    unfold ofLast
    rw [ofSegments_nil]
    rfl
  | append_singleton init s ih =>
    have hne : (init ++ [s]).map (·.name) ≠ [] := by simp
    rw [List.map_append, List.map_singleton, Name.join_concat hne, ← ih s]
    unfold ofLast
    rw [ofSegments_concat]
    rfl

end NamedType

theorem TyArg.ofWrittenList_eq_map (c : Container) (args : List WrittenArg) :
    TyArg.ofWrittenList c args = args.map (TyArg.ofWritten c) := by
  induction args with
  | nil => rw [ofWrittenList, List.map_nil]
  | cons a args ih => rw [ofWrittenList, ih, List.map_cons]

theorem Primitive.keyword_eq_of_ofKeyword? {word : String} {p : Primitive}
    (h : ofKeyword? word = some p) : p.keyword = word := by
  unfold ofKeyword? at h
  simpa using List.find?_some h

theorem Primitive.ne_keyword_of_ofKeyword? {word : String} (h : ofKeyword? word = none)
    (p : Primitive) : word ≠ p.keyword := by
  rintro rfl
  unfold ofKeyword? at h
  simpa using List.find?_eq_none.mp h p (mem_all p)

/-! ## Types that were read -/

namespace Ty

/-- A named type is read as a primitive type or by its last segment. Without segments it is read as
the type of the empty name. -/
theorem ofWritten_named_cases (c : Container) (segments : List Segment) :
    (∃ name p, segments = [⟨name, []⟩] ∧ Primitive.ofKeyword? name = some p ∧
      ofWritten c (.named segments) = .primitive p) ∨
    ∃ init last, Segment.primitive? (init ++ [last]) = none ∧
      Name.join (segments.map (·.name)) = Name.join ((init ++ [last]).map (·.name)) ∧
      ofWritten c (.named segments) = .named (NamedType.ofLast c init last) := by
  rw [ofWritten]
  cases hp : Segment.primitive? segments with
  | some p =>
    unfold Segment.primitive? at hp
    split at hp
    · next name => exact .inl ⟨name, p, rfl, hp, rfl⟩
    · cases hp
  | none =>
    rcases List.eq_nil_or_concat segments with rfl | ⟨init, last, rfl⟩
    · refine .inr ⟨[], ⟨"", []⟩, by decide, rfl, ?_⟩
      unfold NamedType.ofLast
      rw [NamedType.ofSegments_nil, TyArg.ofWrittenList]
      rfl
    · rw [List.concat_eq_append] at hp ⊢
      refine .inr ⟨init, last, hp, rfl, ?_⟩
      rw [NamedType.ofSegments_concat]
      rfl

theorem ofWritten_named_ne_array (c : Container) (segments : List Segment) (inner : Ty) (n : Nat) :
    ofWritten c (.named segments) ≠ .array inner n := by
  intro h
  rcases ofWritten_named_cases c segments with ⟨name, p, -, -, heq⟩ | ⟨init, last, -, -, heq⟩
  · cases heq.symm.trans h
  · cases heq.symm.trans h

/-- A type is read as its innermost named type, or as an array of it if there are dimensions. -/
theorem ofWritten_cases (c : Container) (w : WrittenType) :
    ofWritten c w = ofWritten c (.named w.innermost) ∨
      w.dimensions ≠ 0 ∧ ofWritten c w = .array (ofWritten c (.named w.innermost)) w.dimensions := by
  rw [ofWritten_eq_arrayOf c w]
  by_cases h : w.dimensions = 0
  · rw [h, arrayOf_zero]
    exact .inl rfl
  · exact .inr ⟨h, arrayOf_of_ne_array h (ofWritten_named_ne_array c w.innermost)⟩

theorem name_ofWritten_named (c : Container) (segments : List Segment) :
    (ofWritten c (.named segments)).name = Name.join (segments.map (·.name)) := by
  rcases ofWritten_named_cases c segments with ⟨name, p, rfl, hp, heq⟩ | ⟨init, last, -, hjoin, heq⟩
  · rw [heq]
    exact Primitive.keyword_eq_of_ofKeyword? hp
  · rw [heq, hjoin]
    exact NamedType.dottedName_ofLast c init last

/-- A type has the name of its innermost named type, and a pair of brackets for each dimension. -/
theorem name_ofWritten (c : Container) (w : WrittenType) :
    (ofWritten c w).name = Name.join (w.innermost.map (·.name)) ++ brackets w.dimensions := by
  rw [ofWritten_eq_arrayOf, name_arrayOf, name_ofWritten_named]

theorem name_ofWritten_ofName (c : Container) (name : String) :
    (ofWritten c (.ofName name)).name = name := by
  unfold WrittenType.ofName
  rw [name_ofWritten_named, List.map_map]
  exact (congrArg Name.join (List.map_id _)).trans (Name.join_segments name)

theorem isNormal_ofWritten_named (c : Container) (segments : List Segment) :
    (ofWritten c (.named segments)).IsNormal := by
  rcases ofWritten_named_cases c segments with ⟨name, p, -, -, heq⟩ | ⟨init, last, hp, -, heq⟩
  · rw [heq]
    trivial
  · rw [heq]
    -- without a qualifier and without arguments this is a lone name, and as such no primitive type
    intro hq hargs
    obtain ⟨name, args⟩ := last
    obtain rfl : init = [] := NamedType.ofSegments_eq_none_iff.mp hq
    obtain rfl : args = [] := by
      rw [NamedType.ofLast, TyArg.ofWrittenList_eq_map] at hargs
      exact List.map_eq_nil_iff.mp hargs
    exact Primitive.ne_keyword_of_ofKeyword? hp

theorem isNormal_ofWritten (c : Container) (w : WrittenType) : (ofWritten c w).IsNormal := by
  rcases ofWritten_cases c w with heq | ⟨hd, heq⟩
  · rw [heq]
    exact isNormal_ofWritten_named c w.innermost
  · rw [heq]
    exact ⟨hd, ofWritten_named_ne_array c w.innermost⟩

end Ty

/-! ## Paths -/

/-- What stands in a type that was read in the container: a type that was read itself, or the
qualifier of one. -/
inductive Spot.Lowered (c : Container) : Spot → Prop where
  | type (w : WrittenType) : Lowered c (.type (Ty.ofWritten c w))
  | qualifier (init : List Segment) (last : Segment) :
      Lowered c (.named (NamedType.ofLast c init last))

namespace Spot.Lowered

variable {c : Container} {spot next : Spot}

/-- There is a named type, or an array, or nothing that a step could lead into. -/
theorem cases (h : spot.Lowered c) :
    (∃ init last, spot.named? = some (NamedType.ofLast c init last)) ∨
      (∃ w n, spot = .type (.array (Ty.ofWritten c w) n)) ∨ ∃ p, spot = .type (.primitive p) := by
  cases h with
  | qualifier init last => exact .inl ⟨init, last, rfl⟩
  | type w =>
    rcases Ty.ofWritten_cases c w with heq | ⟨-, heq⟩
    · rw [heq]
      rcases Ty.ofWritten_named_cases c w.innermost with
        ⟨name, p, -, -, hp⟩ | ⟨init, last, -, -, hn⟩
      · exact .inr (.inr ⟨p, congrArg _ hp⟩)
      · exact .inl ⟨init, last, by rw [hn]; rfl⟩
    · exact .inr (.inl ⟨_, _, congrArg _ heq⟩)

/-- Every step leads to what was read in the same container. -/
theorem step (h : spot.Lowered c) {s : Step} (hs : spot.step? s = some next) : next.Lowered c := by
  rcases h.cases with ⟨init, last, hn⟩ | ⟨w, n, rfl⟩ | ⟨p, rfl⟩
  · cases s with
    | arg i =>
      obtain ⟨a, inner, ha, hi, rfl⟩ := exists_of_step?_arg hn hs
      rw [NamedType.ofLast, TyArg.ofWrittenList_eq_map, List.getElem?_map] at ha
      obtain ⟨written, -, rfl⟩ := Option.map_eq_some_iff.mp ha
      cases written with
      | type w =>
        cases hi
        exact .type w
      | wildcard => cases hi
      | bounded kind w =>
        cases hi
        exact .type w
    | qualifier =>
      obtain ⟨q, hq, rfl⟩ := exists_of_step?_qualifier hn hs
      rcases List.eq_nil_or_concat init with rfl | ⟨front, s, rfl⟩
      · cases hq
      · rw [NamedType.ofLast, List.concat_eq_append, NamedType.ofSegments_concat] at hq
        cases hq
        exact .qualifier front s
    | component =>
      rw [step?_component_of_named? hn] at hs
      cases hs
  · cases s with
    | component =>
      cases hs
      exact .type w
    | arg i => cases hs
    | qualifier => cases hs
  · cases s <;> cases hs

/-- So does every path. -/
theorem at? (h : spot.Lowered c) {path : Path} (hp : spot.at? path = some next) :
    next.Lowered c := by
  induction path generalizing spot with
  | nil =>
    cases hp
    exact h
  | cons s path ih =>
    obtain ⟨mid, hs, hp⟩ := Option.bind_eq_some_iff.mp hp
    exact ih (h.step hs) hp

theorem isNormal {ty : Ty} (h : (Spot.type ty).Lowered c) : ty.IsNormal := by
  cases h with
  | type w => exact Ty.isNormal_ofWritten c w

end Spot.Lowered

/-- However a type is written, what is read from it is in normal form at every depth. Its name is
that of the innermost named type with a pair of brackets for each dimension around it, so a dotted
name is read as the type of that name; and it makes no difference whether the dimensions of an array
of arrays are added before. -/
theorem Ty.ofWritten_gives_normal_form (c : Container) (w : WrittenType) :
    (∀ path ty, (Spot.type (Ty.ofWritten c w)).at? path = some (.type ty) → ty.IsNormal) ∧
    (Ty.ofWritten c w).name = ".".intercalate (w.innermost.map (·.name)) ++
      String.join (List.replicate w.dimensions "[]") ∧
    (∀ name, (Ty.ofWritten c (.ofName name)).name = name) ∧
    ∀ n, Ty.ofWritten c (w.arrayOf n) = Ty.ofWritten c (.array w n) := by
  refine ⟨fun _ _ h => ((Spot.Lowered.type w).at? h).isNormal, ?_, Ty.name_ofWritten_ofName c,
    Ty.ofWritten_arrayOf c w⟩
  rw [← Name.join_eq_intercalate]
  exact Ty.name_ofWritten c w

end SourceModel
