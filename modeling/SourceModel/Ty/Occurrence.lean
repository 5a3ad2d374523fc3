import SourceModel.Ty.Basic

/-!
Positions inside a type, and the named types found there.
-/

namespace SourceModel

/-- One step into a type. -/
inductive Step where
  /-- To the type argument of the given number, or the bound of that wildcard. -/
  | arg (index : Nat)
  | qualifier
  /-- To the component of an array. -/
  | component
deriving DecidableEq, Repr

abbrev Path := List Step

/-- What stands at a position of a type: a type, or a named type that is not a type of its own,
such as a qualifier. -/
inductive Spot where
  | type (ty : Ty)
  | named (ty : NamedType)

/-- The type that an argument consists of or is bounded by. -/
def TyArg.ty? : TyArg → Option Ty
  | .type ty => some ty
  | .wildcard => none
  | .bounded _ bound => some bound

def Spot.named? : Spot → Option NamedType
  | .type ty => ty.named?
  | .named ty => some ty

/-- What stands there as a type. -/
def Spot.ty : Spot → Ty
  | .type ty => ty
  | .named ty => .named ty

/-- Equality of what stands at two positions, as types. -/
def Spot.same (a b : Spot) : Bool :=
  a.ty.same b.ty

/-- What one step leads to. -/
def Spot.step? (spot : Spot) : Step → Option Spot
  | .arg i => do
    let ty ← spot.named?
    let arg ← ty.args[i]?
    return .type (← arg.ty?)
  | .qualifier => do
    let ty ← spot.named?
    return .named (← ty.qualifier)
  | .component =>
    match spot with
    | .type (.array component _) => some (.type component)
    | _ => none

/-- What stands at the end of a path. -/
def Spot.at? (spot : Spot) : Path → Option Spot
  | [] => some spot
  | s :: path => (spot.step? s).bind (·.at? path)

/-- A named type inside a type, with the path to it. -/
structure Occurrence where
  path : Path
  ty : NamedType

def Occurrence.under (s : Step) (o : Occurrence) : Occurrence :=
  { o with path := s :: o.path }

mutual

/-- The named types in a type, each before those in its own arguments. Qualifiers are not listed,
their arguments are. -/
def Ty.occurrences : Ty → List Occurrence
  | .primitive _ => []
  | .named ty => ⟨[], ty⟩ :: ty.inside
  | .array component _ => component.occurrences.map (·.under .component)

/-- The named types in the arguments of a named type, then in those of its qualifier. -/
def NamedType.inside : NamedType → List Occurrence
  | ⟨_, none, _, args⟩ => TyArg.occurrencesFrom 0 args
  | ⟨_, some q, _, args⟩ => TyArg.occurrencesFrom 0 args ++ q.inside.map (·.under .qualifier)

def TyArg.occurrences : TyArg → List Occurrence
  | .type ty => ty.occurrences
  | .wildcard => []
  | .bounded _ bound => bound.occurrences

/-- The named types in arguments numbered from `i`. -/
def TyArg.occurrencesFrom (i : Nat) : List TyArg → List Occurrence
  | [] => []
  | a :: as => a.occurrences.map (·.under (.arg i)) ++ TyArg.occurrencesFrom (i + 1) as

end

/-- A named type with all the named types in it. -/
def NamedType.occurrences (ty : NamedType) : List Occurrence :=
  ⟨[], ty⟩ :: ty.inside

def Spot.occurrences : Spot → List Occurrence
  | .type ty => ty.occurrences
  | .named ty => ty.occurrences

end SourceModel
