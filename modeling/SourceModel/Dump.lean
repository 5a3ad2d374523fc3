import SourceModel.Document
import SourceModel.SourceUnit

/-!
Units as JSON documents. Ids, containers and resolutions are left out: a dump depends on nothing
but what was written.
-/

namespace SourceModel

/-- Dumped doubles are plain from `0.00001` up to `10 ^ 16`. -/
def dumpFloatStyle : FloatStyle := ⟨-5, 16, true, .even⟩

/-- There is no JSON number for an infinity. -/
def Binary64.dump (x : Binary64) : Document :=
  if x.isFinite then .number (dumpFloatStyle.finiteText x) else .null

def Literal.dump : Literal → Document
  | .string s => .tagged "string" (.string s)
  | .char c => .tagged "char" (.string (String.ofList [c]))
  | .int n => .tagged "int" (.number (toString n.toInt))
  | .float x => .tagged "float" x.dump
  | .bool b => .tagged "bool" (.bool b)
  | .null => .string "null"

/-! ## Types -/

mutual

def Ty.dump : Ty → Document
  | .primitive p => .tagged "Primitive" (.string p.keyword)
  | .named ty => .tagged "Object" ty.dump
  | .array component dimension =>
    .tagged "Array"
      (.object [("component", component.dump), ("dimension", .number (toString dimension))])

def NamedType.dump : NamedType → Document
  | ⟨_, none, name, args⟩ =>
    .object (("name", .string name) :: Document.nonempty "arguments" (TyArg.dumpList args))
  | ⟨_, some q, name, args⟩ =>
    .object (("qualifier", q.dump) :: ("name", .string name) ::
      Document.nonempty "arguments" (TyArg.dumpList args))

def TyArg.dump : TyArg → Document
  | .type ty => .tagged "Type" ty.dump
  | .wildcard => .tagged "Wildcard" (.object [])
  | .bounded kind bound =>
    .tagged "Wildcard"
      (.tagged "bound" (.object [("kind", .string kind.keyword), ("ty", bound.dump)]))

def TyArg.dumpList : List TyArg → List Document
  | [] => []
  | a :: as => a.dump :: TyArg.dumpList as

end

/-! ## Expressions -/

mutual

def Expr.dump : Expr → Document
  | .list items => .tagged "List" (.array (Expr.dumpList items))
  | .annotationUse use => .tagged "Annotation" use.dump
  | .literal l => .tagged "Literal" l.dump
  | .creation target args =>
    .tagged "Constructor"
      (.object [("target", target.dump), ("arguments", .array (Expr.dumpList args))])
  | .name text => .tagged "Name" (.string text)
  | .token text => .tagged "Token" (.string text)
  | .unknown code => .tagged "Unknown" (.string code)

def Expr.dumpList : List Expr → List Document
  | [] => []
  | e :: es => e.dump :: Expr.dumpList es

def AnnotationUse.dump : AnnotationUse → Document
  | ⟨_, name, values⟩ =>
    .object [("name", .string name), ("values", .array (AnnotationValue.dumpList values))]

def AnnotationValue.dump : AnnotationValue → Document
  | ⟨name, value⟩ => .object [("name", .string name), ("value", value.dump)]

def AnnotationValue.dumpList : List AnnotationValue → List Document
  | [] => []
  | v :: vs => v.dump :: AnnotationValue.dumpList vs

end

/-! ## Members -/

def Modifier.dump (m : Modifier) : Document :=
  .string m.keyword

def TypeParam.dump (p : TypeParam) : Document :=
  .object <|
    [("name", .string p.name)] ++
    Document.nonempty "annotations" (p.annotations.map (·.dump)) ++
    [("bounds", .array (p.bounds.map (·.dump)))]

def Parameter.dump (p : Parameter) : Document :=
  .object [("name", .string p.name), ("modifiers", .array (p.modifiers.map (·.dump))),
    ("annotations", .array (p.annotations.map (·.dump))), ("ty", p.ty.dump),
    ("varargs", .bool p.varargs)]

def Method.dump (m : Method) : Document :=
  .object [("name", .string m.name), ("modifiers", .array (m.modifiers.map (·.dump))),
    ("annotations", .array (m.annotations.map (·.dump))), ("return_type", m.returnType.dump),
    ("parameters", .array (m.params.map (·.dump)))]

def Constructor.dump (c : Constructor) : Document :=
  .object [("modifiers", .array (c.modifiers.map (·.dump))),
    ("annotations", .array (c.annotations.map (·.dump))),
    ("parameters", .array (c.params.map (·.dump)))]

def Field.dump (f : Field) : Document :=
  .object <|
    [("name", .string f.name), ("modifiers", .array (f.modifiers.map (·.dump))),
      ("annotations", .array (f.annotations.map (·.dump))), ("ty", f.ty.dump)] ++
    Document.optional "initializer" (f.initializer.map (·.dump))

def EnumConstant.dump (c : EnumConstant) : Document :=
  .object [("name", .string c.name), ("annotations", .array (c.annotations.map (·.dump)))]

/-! ## Declarations and units -/

def Kind.dumpName : Kind → String
  | .classType => "Class"
  | .interfaceType => "Interface"
  | .enumType => "Enum"
  | .recordType => "Record"
  | .annotationType => "Annotation"

/-- The fields of a body, which stand among those of its declaration. -/
def Body.dumpFields (b : Body) : List (String × Document) :=
  let constructors := ("constructors", Document.array (b.constructors.map (·.dump)))
  let fields := ("fields", Document.array (b.fields.map (·.dump)))
  ("kind", .string b.kind.dumpName) ::
    match b with
    | .classBody superclass _ _ =>
      Document.optional "superclass" (superclass.map (·.dump)) ++ [constructors, fields]
    | .enumBody constants _ _ =>
      [("constants", .array (constants.map (·.dump))), constructors, fields]
    | .recordBody _ _ => [constructors, fields]
    | .interfaceBody | .annotationBody => []

def Declaration.dumpFields (d : Declaration) : List (String × Document) :=
  [("name", .string d.name), ("modifiers", .array (d.modifiers.map (·.dump))),
    ("annotations", .array (d.annotations.map (·.dump))),
    ("type_params", .array (d.typeParams.map (·.dump))),
    ("interfaces", .array (d.interfaces.map (·.dump))),
    ("methods", .array (d.methods.map (·.dump)))] ++ d.body.dumpFields

mutual

def DeclTree.dump : DeclTree → Document
  | .node _ decl nested =>
    .object (decl.dumpFields ++ Document.nonempty "types" (DeclTree.dumpList nested))

def DeclTree.dumpList : List DeclTree → List Document
  | [] => []
  | t :: ts => t.dump :: DeclTree.dumpList ts

end

def Import.dump (i : Import) : Document :=
  .object [("name", .string i.name), ("kind", .string i.kind.keyword)]

def SourceUnit.dump (u : SourceUnit) : Document :=
  .object <|
    Document.optional "package" (u.package.map .string) ++
    [("imports", .array (u.imports.map (·.dump))), ("types", .array (DeclTree.dumpList u.forest))]

end SourceModel
