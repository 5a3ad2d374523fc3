import SourceModel.Resolution.Memo

/-!
Properties of a declared type. A field, a getter and a setter belong to one property if the same
name is derived from theirs.
-/

namespace SourceModel

structure Property where
  name : String
  ty : Ty
  field : Option Field
  getter : Option Method
  setter : Option Method

inductive PropertyError where
  | duplicateField (name : String)
  | notAnAccessor (name : String)
deriving DecidableEq, Repr

def PropertyError.message : PropertyError → String
  | .duplicateField name => "duplicate field name: " ++ name
  | .notAnAccessor name => "not an accessor: " ++ name

/-! ## Accessors -/

/-- What follows the verb at the start of a name, if anything does. -/
def afterVerb? (verb name : String) : Option String :=
  let cs := name.toList
  if verb.toList.isPrefixOf cs && verb.toList.length < cs.length then
    some (String.ofList (cs.drop verb.toList.length))
  else none

namespace Project

/-- Whether method number `i` returns a boolean. -/
def returnsBoolean (p : Project) (id : DeclId) (i : Nat) (m : Method) : QueryM Bool :=
  p.isBoolean ⟨id, Slot.methodReturn i, []⟩ m.returnType

/-- Whether method number `i` is a getter: public, not static, without parameters, not void, and
named `get…`, or `is…` if it returns a boolean. -/
def isGetter (p : Project) (id : DeclId) (d : Declaration) (i : Nat) (m : Method) :
    QueryM Bool := do
  if d.isPublicMember m.modifiers && !m.modifiers.contains .static && m.params.isEmpty &&
      !m.returnType.isVoid then
    if (afterVerb? "get" m.name).isSome then return true
    else if (afterVerb? "is" m.name).isSome then p.returnsBoolean id i m
    else return false
  else return false

/-- The name of the property that method number `i` gives access to. -/
def propertyName (p : Project) (id : DeclId) (i : Nat) (m : Method) :
    QueryM (Except PropertyError String) := do
  match afterVerb? "get" m.name <|> afterVerb? "set" m.name with
  | some rest => return .ok (Name.decapitalize rest)
  | none =>
    match afterVerb? "is" m.name with
    | some rest =>
      if ← p.returnsBoolean id i m then return .ok (Name.decapitalize rest)
      else return .error (.notAnAccessor m.name)
    | none => return .error (.notAnAccessor m.name)

/-- The name that a getter of field number `i` has. -/
def getterName (p : Project) (id : DeclId) (i : Nat) (f : Field) : QueryM String := do
  if ← p.isBoolean ⟨id, Slot.field i, []⟩ f.ty then return "is" ++ Name.capitalize f.name
  else return "get" ++ Name.capitalize f.name

end Project

/-- Whether a method is a setter: public, not static, void, with one parameter and a name
`set…`. -/
def Declaration.isSetter (d : Declaration) (m : Method) : Bool :=
  d.isPublicMember m.modifiers && !m.modifiers.contains .static && m.returnType.isVoid &&
    (match m.params with
    | [param] => !param.ty.isVoid
    | _ => false) &&
    (afterVerb? "set" m.name).isSome

def Field.setterName (f : Field) : String :=
  "set" ++ Name.capitalize f.name

/-! ## Properties -/

namespace Property

/-- Changes the property of the given name, which is added at the end if it is new. -/
def upsert (name : String) (new : Property) (change : Property → Property) :
    List Property → List Property
  | [] => [change new]
  | q :: qs => if q.name == name then change q :: qs else q :: upsert name new change qs

def bare (name : String) (ty : Ty) : Property :=
  ⟨name, ty, none, none, none⟩

/-- A getter also decides the type. -/
def addGetter (name : String) (m : Method) : List Property → List Property :=
  upsert name (bare name m.returnType) fun q => { q with ty := m.returnType, getter := some m }

def addSetter (name : String) (m : Method) (ty : Ty) : List Property → List Property :=
  upsert name (bare name ty) fun q => { q with setter := some m }

/-- One property for each field that is not static, after those already there. -/
def addFields : List Property → List Field → Except PropertyError (List Property)
  | qs, [] => .ok qs
  | qs, f :: fs =>
    if f.modifiers.contains .static then addFields qs fs
    else if qs.any (·.name == f.name) then .error (.duplicateField f.name)
    else addFields (qs ++ [{ bare f.name f.ty with field := some f }]) fs

end Property

namespace Project

/-- Adds the getters among methods numbered from `i`. -/
def addGetters (p : Project) (id : DeclId) (d : Declaration) :
    List Property → Nat → List Method → QueryM (Except PropertyError (List Property))
  | qs, _, [] => return .ok qs
  | qs, i, m :: ms => do
    if ← p.isGetter id d i m then
      match ← p.propertyName id i m with
      | .ok name => p.addGetters id d (Property.addGetter name m qs) (i + 1) ms
      | .error e => return .error e
    else p.addGetters id d qs (i + 1) ms

/-- Adds the setters among methods numbered from `i`. -/
def addSetters (p : Project) (id : DeclId) (d : Declaration) :
    List Property → Nat → List Method → QueryM (Except PropertyError (List Property))
  | qs, _, [] => return .ok qs
  | qs, i, m :: ms => do
    if d.isSetter m then
      match ← p.propertyName id i m with
      | .ok name =>
        match m.params with
        | param :: _ => p.addSetters id d (Property.addSetter name m param.ty qs) (i + 1) ms
        | [] => p.addSetters id d qs (i + 1) ms
      | .error e => return .error e
    else p.addSetters id d qs (i + 1) ms

/-- The properties of a declaration: those of its fields, then those that only getters have, then
those that only setters have. -/
def properties (p : Project) (id : DeclId) (d : Declaration) :
    QueryM (Except PropertyError (List Property)) := do
  match Property.addFields [] d.fields with
  | .ok ofFields =>
    match ← p.addGetters id d ofFields 0 d.methods with
    | .ok withGetters => p.addSetters id d withGetters 0 d.methods
    | .error e => return .error e
  | .error e => return .error e

end Project

end SourceModel
