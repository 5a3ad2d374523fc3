/-!
Modifiers of declarations.
-/

namespace SourceModel

inductive Modifier where
  | publicAccess
  | protectedAccess
  | privateAccess
  | static
  | abstract
  | final
  | native
  | synchronized
  | transient
  | volatile
  | strictfp
  | default
  | sealed
  | nonSealed
deriving DecidableEq, Repr

namespace Modifier

def all : List Modifier :=
  [.publicAccess, .protectedAccess, .privateAccess, .static, .abstract, .final, .native,
    .synchronized, .transient, .volatile, .strictfp, .default, .sealed, .nonSealed]

theorem mem_all (m : Modifier) : m ∈ all := by
  cases m <;> decide

def keyword : Modifier → String
  | .publicAccess => "public"
  | .protectedAccess => "protected"
  | .privateAccess => "private"
  | .static => "static"
  | .abstract => "abstract"
  | .final => "final"
  | .native => "native"
  | .synchronized => "synchronized"
  | .transient => "transient"
  | .volatile => "volatile"
  | .strictfp => "strictfp"
  | .default => "default"
  | .sealed => "sealed"
  | .nonSealed => "non-sealed"

def ofKeyword? (word : String) : Option Modifier :=
  all.find? (·.keyword == word)

end Modifier

end SourceModel
