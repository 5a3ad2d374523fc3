import SourceModel.Query

/-!
# References stand at their places

A path leads from a type to what the steps name one after the other. The named types listed for a
type are those at the ends of all paths that do not end at a qualifier (`Spot.mem_occurrences_iff`).
-/

namespace SourceModel

/-! ## Numbers -/

/-- The list holds what `f` gives from number `i` on. -/
def NumberedFrom {α : Type} (f : Nat → Option α) (i : Nat) (l : List α) : Prop :=
  ∀ j, f (i + j) = l[j]?

section NumberedFrom

variable {α : Type} {f : Nat → Option α} {i : Nat} {a : α} {l : List α}

theorem numberedFrom_zero (h : ∀ j, f j = l[j]?) : NumberedFrom f 0 l := by
  intro j
  rw [Nat.zero_add]
  exact h j

theorem NumberedFrom.head (h : NumberedFrom f i (a :: l)) : f i = some a := h 0

theorem NumberedFrom.tail (h : NumberedFrom f i (a :: l)) : NumberedFrom f (i + 1) l := by
  intro j
  rw [Nat.add_right_comm]
  exact h (j + 1)

end NumberedFrom

/-! ## Paths -/

namespace Spot

variable {spot : Spot}

theorem at?_append (spot : Spot) (path rest : Path) :
    spot.at? (path ++ rest) = (spot.at? path).bind (·.at? rest) := by
  induction path generalizing spot with
  | nil => rfl
  | cons s path ih =>
    show (spot.step? s).bind (·.at? (path ++ rest)) = ((spot.step? s).bind (·.at? path)).bind _
    rw [Option.bind_assoc]
    congr 1
    funext next
    exact ih next

theorem at?_singleton (spot : Spot) (s : Step) : spot.at? [s] = spot.step? s := by
  show (spot.step? s).bind some = spot.step? s
  exact Option.bind_fun_some _

/-- The named type at the end of a path. -/
def namedAt? (spot : Spot) (path : Path) : Option NamedType :=
  (spot.at? path).bind (·.named?)

theorem namedAt?_cons {s : Step} {next : Spot} (h : spot.step? s = some next) (path : Path) :
    spot.namedAt? (s :: path) = next.namedAt? path := by
  unfold namedAt?
  show ((spot.step? s).bind (·.at? path)).bind _ = _
  rw [h, Option.bind_some]

theorem step?_arg {ty : NamedType} {i : Nat} {arg : TyArg} {inner : Ty}
    (hs : spot.named? = some ty) (ha : ty.args[i]? = some arg) (hi : arg.ty? = some inner) :
    spot.step? (.arg i) = some (.type inner) := by
  simp [step?, hs, ha, hi]

theorem step?_qualifier {ty q : NamedType} (hs : spot.named? = some ty)
    (hq : ty.qualifier = some q) : spot.step? .qualifier = some (.named q) := by
  simp [step?, hs, hq]

theorem exists_of_step?_arg {ty : NamedType} {i : Nat} {next : Spot} (hs : spot.named? = some ty)
    (h : spot.step? (.arg i) = some next) :
    ∃ a inner, ty.args[i]? = some a ∧ a.ty? = some inner ∧ next = .type inner := by
  simp only [step?, hs, Option.bind_eq_bind, Option.bind_some, Option.bind_eq_some_iff] at h
  obtain ⟨a, ha, inner, hi, hnext⟩ := h
  exact ⟨a, inner, ha, hi, (Option.some.inj hnext).symm⟩

theorem exists_of_step?_qualifier {ty : NamedType} {next : Spot} (hs : spot.named? = some ty)
    (h : spot.step? .qualifier = some next) : ∃ q, ty.qualifier = some q ∧ next = .named q := by
  simp only [step?, hs, Option.bind_eq_bind, Option.bind_some, Option.bind_eq_some_iff] at h
  obtain ⟨q, hq, hnext⟩ := h
  exact ⟨q, hq, (Option.some.inj hnext).symm⟩

theorem step?_component_of_named? {ty : NamedType} (hs : spot.named? = some ty) :
    spot.step? .component = none := by
  cases spot with
  | named m => rfl
  | type t =>
    cases t with
    | named m => rfl
    | primitive p => rfl
    | array component dimension => cases hs

end Spot

/-! ## Occurrences -/

theorem Occurrence.under_eq_iff {o : Occurrence} {s t : Step} {path : Path} {ty : NamedType} :
    o.under s = ⟨t :: path, ty⟩ ↔ s = t ∧ o = ⟨path, ty⟩ := by
  obtain ⟨path', ty'⟩ := o
  simp [under, and_assoc]

theorem TyArg.mem_occurrences_iff {a : TyArg} {o : Occurrence} :
    o ∈ a.occurrences ↔ ∃ ty, a.ty? = some ty ∧ o ∈ ty.occurrences := by
  cases a <;> simp [occurrences, ty?]

theorem TyArg.mem_occurrencesFrom_iff {i : Nat} {args : List TyArg} {o : Occurrence} :
    o ∈ occurrencesFrom i args ↔ ∃ (j : Nat) (a : TyArg), args[j]? = some a ∧
      ∃ o' ∈ a.occurrences, o'.under (.arg (i + j)) = o := by
  induction args generalizing i with
  | nil => simp [occurrencesFrom]
  | cons a args ih =>
    rw [occurrencesFrom, List.mem_append, List.mem_map, ih]
    constructor
    · rintro (⟨o', ho', rfl⟩ | ⟨j, b, hb, o', ho', rfl⟩)
      · exact ⟨0, a, rfl, o', ho', rfl⟩
      · exact ⟨j + 1, b, hb, o', ho', by rw [Nat.add_right_comm, Nat.add_assoc]⟩
    · rintro ⟨j, b, hb, o', ho', rfl⟩
      cases j with
      | zero =>
        cases hb
        exact .inl ⟨o', ho', rfl⟩
      | succ j => exact .inr ⟨j, b, hb, o', ho', by rw [Nat.add_right_comm, Nat.add_assoc]⟩

theorem NamedType.mem_inside_iff {n : NamedType} {o : Occurrence} :
    o ∈ n.inside ↔
      (∃ (i : Nat) (a : TyArg), n.args[i]? = some a ∧
        ∃ o' ∈ a.occurrences, o'.under (.arg i) = o) ∨
      ∃ q, n.qualifier = some q ∧ ∃ o' ∈ q.inside, o'.under .qualifier = o := by
  obtain ⟨container, _ | q, name, args⟩ := n
  · simp [inside, TyArg.mem_occurrencesFrom_iff]
  · simp [inside, TyArg.mem_occurrencesFrom_iff]

theorem NamedType.path_ne_nil_of_mem_inside {n : NamedType} {o : Occurrence} (h : o ∈ n.inside) :
    o.path ≠ [] := by
  rcases mem_inside_iff.mp h with ⟨i, a, -, o', -, rfl⟩ | ⟨q, -, o', -, rfl⟩
  · exact List.cons_ne_nil _ _
  · exact List.cons_ne_nil _ _

namespace Spot

variable {spot : Spot} {ty : NamedType} {path : Path}

theorem occurrences_of_named? {n : NamedType} (h : spot.named? = some n) :
    spot.occurrences = ⟨[], n⟩ :: n.inside := by
  cases spot with
  | named m =>
    cases h
    rfl
  | type t =>
    cases t with
    | named m =>
      cases h
      rw [occurrences, Ty.occurrences]
    | primitive p => cases h
    | array component dimension => cases h

theorem mem_occurrences_nil_iff : ⟨[], ty⟩ ∈ spot.occurrences ↔ spot.named? = some ty := by
  cases h : spot.named? with
  | some n =>
    rw [occurrences_of_named? h, List.mem_cons]
    constructor
    · rintro (heq | hmem)
      · cases heq
        rfl
      · exact absurd rfl (NamedType.path_ne_nil_of_mem_inside hmem)
    · rintro ⟨⟩
      exact .inl rfl
  | none =>
    cases spot with
    | named m => cases h
    | type t =>
      cases t with
      | named m => cases h
      | primitive p => simp [occurrences, Ty.occurrences]
      | array component dimension => simp [occurrences, Ty.occurrences, Occurrence.under]

/-- What is listed behind a step is listed for what the step leads to. A qualifier itself is not. -/
theorem mem_occurrences_cons_iff {s : Step} :
    ⟨s :: path, ty⟩ ∈ spot.occurrences ↔
      ∃ next : Spot, spot.step? s = some next ∧ ⟨path, ty⟩ ∈ next.occurrences ∧
        (s = .qualifier → path ≠ []) := by
  cases h : spot.named? with
  | some n =>
    rw [occurrences_of_named? h, List.mem_cons, NamedType.mem_inside_iff]
    simp only [Occurrence.under_eq_iff]
    cases s with
    | arg i =>
      constructor
      · rintro (heq | ⟨j, a, ha, o, ho, hj, rfl⟩ | ⟨q, -, o, -, hstep, -⟩)
        · cases heq
        · cases hj
          obtain ⟨inner, hi, hmem⟩ := TyArg.mem_occurrences_iff.mp ho
          exact ⟨.type inner, step?_arg h ha hi, hmem, nofun⟩
        · cases hstep
      · rintro ⟨next, hnext, hmem, -⟩
        obtain ⟨a, inner, ha, hi, rfl⟩ := exists_of_step?_arg h hnext
        exact .inr (.inl ⟨i, a, ha, _, TyArg.mem_occurrences_iff.mpr ⟨inner, hi, hmem⟩, rfl, rfl⟩)
    | qualifier =>
      constructor
      · rintro (heq | ⟨j, a, -, o, -, hstep, -⟩ | ⟨q, hq, o, ho, -, rfl⟩)
        · cases heq
        · cases hstep
        · have hpath := NamedType.path_ne_nil_of_mem_inside ho
          exact ⟨.named q, step?_qualifier h hq, .tail _ ho, fun _ => hpath⟩
      · rintro ⟨next, hnext, hmem, hpath⟩
        obtain ⟨q, hq, rfl⟩ := exists_of_step?_qualifier h hnext
        rcases List.mem_cons.mp hmem with heq | hmem
        · cases heq
          exact absurd rfl (hpath rfl)
        · exact .inr (.inr ⟨q, hq, _, hmem, rfl, rfl⟩)
    | component =>
      rw [step?_component_of_named? h]
      simp
  | none =>
    cases spot with
    | named m => cases h
    | type t =>
      cases t with
      | named m => cases h
      | primitive p => cases s <;> simp [occurrences, Ty.occurrences, step?, named?, Ty.named?]
      | array component dimension =>
        cases s <;> simp [occurrences, Ty.occurrences, step?, named?, Ty.named?,
          Occurrence.under_eq_iff]

/-- The named types listed for a type are those at the ends of its paths, except that a path may
not end at a qualifier. -/
theorem mem_occurrences_iff {o : Occurrence} :
    o ∈ spot.occurrences ↔
      spot.namedAt? o.path = some o.ty ∧ o.path.getLast? ≠ some .qualifier := by
  obtain ⟨path, ty⟩ := o
  induction path generalizing spot with
  | nil =>
    rw [mem_occurrences_nil_iff]
    simp [namedAt?, at?]
  | cons s path ih =>
    simp only [mem_occurrences_cons_iff, ih]
    cases hs : spot.step? s with
    | none => simp [namedAt?, at?, hs]
    | some next =>
      rw [namedAt?_cons hs]
      cases path with
      | nil => simp
      | cons t path => simp

end Spot

/-! ## References -/

namespace Reference

/-- The reference is what stands at its place in the declaration. -/
def StandsIn (d : Declaration) : Reference → Prop
  | .annotationUse element index use => d.annotationAt? element index = some use
  | .type slot o => (d.spotAt? slot).bind (·.namedAt? o.path) = some o.ty

/-- The reference is a part of the type behind it. -/
def IsQualifier : Reference → Prop
  | .annotationUse .. => False
  | .type _ o => o.path.getLast? = some .qualifier

end Reference

namespace Project

variable {p : Project} {id : DeclId}

theorem annotationAt?_eq_some_iff {element : Element} {i : Nat} {use : AnnotationUse} :
    p.annotationAt? ⟨id, element, i⟩ = some use ↔
      ∃ d, p.decl? id = some d ∧ (Reference.annotationUse element i use).StandsIn d :=
  Option.bind_eq_some_iff

theorem namedTypeAt?_eq_some_iff {slot : Slot} {o : Occurrence} :
    p.namedTypeAt? ⟨id, slot, o.path⟩ = some o.ty ↔
      ∃ d, p.decl? id = some d ∧ (Reference.type slot o).StandsIn d := by
  unfold namedTypeAt? spotAt?
  rw [Option.bind_assoc, Option.bind_eq_some_iff]
  simp only [Declaration.heldAt?, Option.bind_assoc]
  rfl

end Project

end SourceModel
