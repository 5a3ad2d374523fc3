/-!
Primitive types and the classes that box them.
-/

namespace SourceModel

/-- The namespace whose core types need no import. -/
def coreNamespace : String := "java.lang"

inductive Primitive where
  | boolean
  | byte
  | char
  | double
  | float
  | int
  | long
  | short
  | void
deriving DecidableEq, Repr

namespace Primitive

def all : List Primitive :=
  [boolean, byte, char, double, float, int, long, short, void]

theorem mem_all (p : Primitive) : p ∈ all := by
  cases p <;> decide

def keyword : Primitive → String
  | boolean => "boolean"
  | byte => "byte"
  | char => "char"
  | double => "double"
  | float => "float"
  | int => "int"
  | long => "long"
  | short => "short"
  | void => "void"

/-- The qualified name of the class that holds a value of the type. -/
def boxed : Primitive → String
  | boolean => "java.lang.Boolean"
  | byte => "java.lang.Byte"
  | char => "java.lang.Character"
  | double => "java.lang.Double"
  | float => "java.lang.Float"
  | int => "java.lang.Integer"
  | long => "java.lang.Long"
  | short => "java.lang.Short"
  | void => "java.lang.Void"

def isNumeric : Primitive → Bool
  | byte | short | int | long | float | double => true
  | boolean | char | void => false

def ofKeyword? (word : String) : Option Primitive :=
  all.find? (·.keyword == word)

/-- The type that a class of the given qualified name boxes. -/
def ofBoxed? (qualifiedName : String) : Option Primitive :=
  all.find? (·.boxed == qualifiedName)

end Primitive

end SourceModel
