import SourceModel.Proofs.Places

/-!
# The order of the named types in a type

The named types of a type are listed in the dictionary order of the paths to them
(`Spot.pairwise_occurrences`). A path comes before those that go on behind it, arguments go by
their numbers, and a qualifier comes after all arguments. So no position is listed twice, and a
named type is listed before everything in its own arguments and in those of its qualifiers.
-/

namespace SourceModel

/-! ## Paths in dictionary order -/

/-- Of two steps from one type, the first is taken before the second. -/
inductive Step.Before : Step → Step → Prop where
  | arg {i j : Nat} : i < j → Before (.arg i) (.arg j)
  | qualifier (i : Nat) : Before (.arg i) .qualifier

theorem Step.not_before_self (s : Step) : ¬ s.Before s := by
  intro h
  cases h with
  | arg hlt => omega

namespace Occurrence

def Before (a b : Occurrence) : Prop :=
  List.Lex Step.Before a.path b.path

/-- `b` stands in the type arguments of `a`, or in those of one of its qualifiers. -/
def Holds (a b : Occurrence) : Prop :=
  ∃ (k i : Nat) (rest : Path), b.path = a.path ++ List.replicate k .qualifier ++ .arg i :: rest

theorem Before.path_ne {a b : Occurrence} (h : a.Before b) : a.path ≠ b.path := by
  intro heq
  unfold Before at h
  rw [heq] at h
  exact List.lex_irrefl Step.not_before_self b.path h

/-- What stands further on is not before. -/
theorem not_before_of_holds {a b : Occurrence} (h : a.Holds b) : ¬ b.Before a := by
  obtain ⟨k, i, rest, hpath⟩ := h
  intro hlex
  unfold Before at hlex
  rw [hpath, List.append_assoc] at hlex
  generalize hmore : List.replicate k Step.qualifier ++ .arg i :: rest = more at hlex
  generalize a.path = path at hlex
  -- along the common part no step decides, and behind it only the longer path goes on
  induction path with
  | nil => cases hlex
  | cons s path ih =>
    cases hlex with
    | rel hs => exact Step.not_before_self s hs
    | cons hrest => exact ih hrest

theorem pairwise_map_under {os : List Occurrence} (h : os.Pairwise Before) (s : Step) :
    (os.map (·.under s)).Pairwise Before := by
  rw [List.pairwise_map]
  exact h.imp fun hab => List.Lex.cons hab

end Occurrence

/-! ## The listing is sorted -/

open Occurrence

theorem NamedType.pairwise_cons_inside {n : NamedType} (h : n.inside.Pairwise Before) :
    (⟨[], n⟩ :: n.inside).Pairwise Before := by
  refine List.pairwise_cons.mpr ⟨fun o ho => ?_, h⟩
  have hne := path_ne_nil_of_mem_inside ho
  obtain ⟨s, path, hpath⟩ := List.exists_cons_of_ne_nil hne
  unfold Occurrence.Before
  rw [hpath]
  exact .nil

/-- The arguments come before the qualifier. -/
theorem NamedType.before_of_arg_of_qualifier {args : List TyArg} {os : List Occurrence} :
    ∀ a ∈ TyArg.occurrencesFrom 0 args, ∀ b ∈ os.map (·.under .qualifier), a.Before b := by
  intro a ha b hb
  obtain ⟨j, arg, -, o, -, rfl⟩ := TyArg.mem_occurrencesFrom_iff.mp ha
  obtain ⟨o', -, rfl⟩ := List.mem_map.mp hb
  exact .rel (.qualifier _)

mutual

theorem Ty.pairwise_occurrences (ty : Ty) : ty.occurrences.Pairwise Before := by
  match ty with
  | .primitive p =>
    rw [Ty.occurrences]
    exact .nil
  | .named n =>
    rw [Ty.occurrences]
    exact NamedType.pairwise_cons_inside n.pairwise_inside
  | .array component dimension =>
    rw [Ty.occurrences]
    exact pairwise_map_under component.pairwise_occurrences _

theorem NamedType.pairwise_inside (n : NamedType) : n.inside.Pairwise Before := by
  match n with
  | ⟨container, none, name, args⟩ =>
    rw [NamedType.inside]
    exact TyArg.pairwise_occurrencesFrom 0 args
  | ⟨container, some q, name, args⟩ =>
    rw [NamedType.inside, List.pairwise_append]
    exact ⟨TyArg.pairwise_occurrencesFrom 0 args, pairwise_map_under q.pairwise_inside _,
      NamedType.before_of_arg_of_qualifier⟩

theorem TyArg.pairwise_occurrences (a : TyArg) : a.occurrences.Pairwise Before := by
  match a with
  | .type ty =>
    rw [TyArg.occurrences]
    exact ty.pairwise_occurrences
  | .wildcard =>
    rw [TyArg.occurrences]
    exact .nil
  | .bounded kind bound =>
    rw [TyArg.occurrences]
    exact bound.pairwise_occurrences

theorem TyArg.pairwise_occurrencesFrom (i : Nat) (args : List TyArg) :
    (TyArg.occurrencesFrom i args).Pairwise Before := by
  match args with
  | [] =>
    rw [TyArg.occurrencesFrom]
    exact .nil
  | a :: rest =>
    rw [TyArg.occurrencesFrom, List.pairwise_append]
    refine ⟨pairwise_map_under a.pairwise_occurrences _,
      TyArg.pairwise_occurrencesFrom (i + 1) rest, fun x hx y hy => ?_⟩
    obtain ⟨o, -, rfl⟩ := List.mem_map.mp hx
    obtain ⟨j, b, -, o', -, rfl⟩ := TyArg.mem_occurrencesFrom_iff.mp hy
    exact .rel (.arg (by omega))

end

namespace Spot

theorem pairwise_occurrences (spot : Spot) : spot.occurrences.Pairwise Before := by
  cases spot with
  | type ty => exact ty.pairwise_occurrences
  | named n => exact NamedType.pairwise_cons_inside n.pairwise_inside

/-- The named types listed for a type are those at all its positions, apart from qualifiers. No
position is listed twice, and a named type is listed before all that stand in its own type
arguments or in those of its qualifiers. -/
theorem occurrences_list_positions (spot : Spot) :
    (∀ o : Occurrence, o ∈ spot.occurrences ↔
      spot.namedAt? o.path = some o.ty ∧ o.path.getLast? ≠ some .qualifier) ∧
    (spot.occurrences.map (·.path)).Nodup ∧
    ∀ (m n : Nat) (a b : Occurrence), spot.occurrences[m]? = some a →
      spot.occurrences[n]? = some b → a.Holds b → m < n := by
  have hsorted := spot.pairwise_occurrences
  refine ⟨fun o => mem_occurrences_iff, ?_, fun m n a b ha hb hholds => ?_⟩
  · rw [List.Nodup, List.pairwise_map]
    exact hsorted.imp fun hab => hab.path_ne
  · obtain ⟨hm, rfl⟩ := List.getElem?_eq_some_iff.mp ha
    obtain ⟨hn, rfl⟩ := List.getElem?_eq_some_iff.mp hb
    refine Nat.lt_of_not_le fun hle => ?_
    rcases Nat.lt_or_eq_of_le hle with hlt | rfl
    · exact not_before_of_holds hholds (List.pairwise_iff_getElem.mp hsorted n m hn hm hlt)
    · obtain ⟨k, i, rest, hpath⟩ := hholds
      have hlength := congrArg List.length hpath
      simp only [List.length_append, List.length_cons] at hlength
      omega

/-- In `Outer<? extends B[]>.Inner<C>[]` the inner class is listed before what bounds the argument of
the outer one. -/
theorem occurrences_of_generic_chain :
    ∃ (spot : Spot) (a b : Occurrence), spot = .type (.ofWritten .unit
        (.array (.named [⟨"Outer", [.bounded .extends (.array (.ofName "B") 1)]⟩,
          ⟨"Inner", [.type (.ofName "C")]⟩]) 1)) ∧
      (spot.occurrences.map fun o => (o.path, o.ty.dottedName)) =
        [([.component], "Outer.Inner"), ([.component, .arg 0], "C"),
          ([.component, .qualifier, .arg 0, .component], "B")] ∧
      (spot.occurrences.map (·.path)).Nodup ∧
      spot.occurrences[0]? = some a ∧ spot.occurrences[2]? = some b ∧ a.Holds b ∧
      ∀ m n : Nat, spot.occurrences[m]? = some a → spot.occurrences[n]? = some b → m < n := by
  refine ⟨_, _, _, rfl, by cbv, (occurrences_list_positions _).2.1, rfl, rfl,
    ⟨1, 0, [.component], rfl⟩, fun m n hm hn => ?_⟩
  exact (occurrences_list_positions _).2.2 m n _ _ hm hn ⟨1, 0, [.component], rfl⟩

end Spot

end SourceModel
