import SourceModel.Draft.Basic

/-!
Feeding events to a draft, and the unit that comes of it.
-/

namespace SourceModel

namespace Draft

/-! ## Types -/

/-- Opens a type. Its annotations are looked up in the type itself. -/
def enterType (d : Draft) (kind : Kind) (name : String) : Except Refusal Draft := do
  d.requireNoMember .typeDeclaration
  let id := d.unit.decls.length
  let annotations ← d.cleared.require (AnnotationUse.ofWrittenList (.type id) d.annotations)
  let decl := { Declaration.empty kind name d.container with modifiers := d.modifiers, annotations }
  return { d.cleared with
    unit := d.unit.addDecl decl, openTypes := id :: d.openTypes, typeParam := none }

def exitType (d : Draft) : Except Refusal Draft := do
  d.requireNoMember .typeEnd
  let _ ← d.currentType .typeEnd
  return { d with openTypes := d.openTypes.tail, typeParam := none }

/-- Adds a type parameter to the innermost open type, or passes over one of a method. Modifiers go
on waiting. -/
def addTypeParam (d : Draft) (name : String) : Except Refusal Draft := do
  let current ← d.currentType .typeParameter
  let rest := { d with annotations := [] }
  let annotations ← rest.require (AnnotationUse.ofWrittenList (.type current) d.annotations)
  if d.member.isSome then return { rest with typeParam := some .ignored }
  else
    let index := ((d.unit.decl? current).map (·.typeParams.length)).getD 0
    let rest := rest.modifyDecl current fun t =>
      { t with typeParams := t.typeParams ++ [⟨name, annotations, []⟩] }
    return { rest with typeParam := some (.ofType index) }

def addTypeParamBound (d : Draft) (ty : WrittenType) : Except Refusal Draft := do
  let current ← d.currentType .typeParameterBound
  match d.typeParam with
  | none => d.refuse .typeParameterBound .withoutTypeParameter
  | some .ignored => return d
  | some (.ofType index) =>
    let bound ← d.requireNamed .typeParameterBound (Ty.ofWritten (.type current) ty)
    if d.hasTypeParam current index then
      return d.modifyDecl current fun t => { t with
        typeParams := t.typeParams.modify index fun p => { p with bounds := p.bounds ++ [bound] } }
    else d.refuse .typeParameterBound .withoutTypeParameter

/-- A supertype, looked up in what surrounds the type: a type is not in scope in its own list of
supertypes. -/
def supertype (d : Draft) (construct : Construct) (current : Nat) (ty : WrittenType) :
    Except Refusal NamedType :=
  let container := ((d.unit.decl? current).map (·.container)).getD .unit
  d.requireNamed construct (Ty.ofWritten container ty)

def setSuperclass (d : Draft) (ty : WrittenType) : Except Refusal Draft := do
  let current ← d.currentType .superclass
  let superclass ← d.supertype .superclass current ty
  match d.bodyOf current with
  | .classBody _ constructors fields =>
    return d.modifyBody current fun _ => .classBody (some superclass) constructors fields
  | _ => d.refuse .superclass .outsideClass

def addInterface (d : Draft) (ty : WrittenType) : Except Refusal Draft := do
  let current ← d.currentType .implementedInterface
  let interface ← d.supertype .implementedInterface current ty
  return d.modifyDecl current fun t => { t with interfaces := t.interfaces ++ [interface] }

/-! ## Members -/

/-- The fields of one declaration; all share its modifiers and annotations. -/
def fieldsOf (container : Container) (modifiers : List Modifier) (annotations : List AnnotationUse)
    (ty : Ty) : List Declarator → Except LiteralError (List Field)
  | [] => .ok []
  | v :: vs => do
    let initializer ← match v.initializer with
      | some leaves => (Expr.ofLeaves container leaves).map some
      | none => .ok none
    let field : Field := ⟨v.name, modifiers, annotations, ty.arrayOf v.dimension, initializer⟩
    return field :: (← fieldsOf container modifiers annotations ty vs)

def addFields (d : Draft) (ty : WrittenType) (declarators : List Declarator) :
    Except Refusal Draft := do
  let current ← d.currentType .fieldDeclaration
  d.requireNoMember .fieldDeclaration
  let container := Container.type current
  let annotations ← d.cleared.require (AnnotationUse.ofWrittenList container d.annotations)
  let fields ← d.cleared.require
    (fieldsOf container d.modifiers annotations (Ty.ofWritten container ty) declarators)
  return d.cleared.modifyBody current (·.addFields fields)

/-- Adds an enum constant, which takes no modifiers: those that wait are dropped. -/
def addConstant (d : Draft) (name : String) : Except Refusal Draft := do
  let current ← d.currentType .enumConstant
  let annotations ← d.cleared.require (AnnotationUse.ofWrittenList (.type current) d.annotations)
  match d.bodyOf current with
  | .enumBody constants constructors fields =>
    return d.cleared.modifyBody current fun _ =>
      .enumBody (constants ++ [⟨name, annotations⟩]) constructors fields
  | _ => d.cleared.refuse .enumConstant .outsideEnum

/-- Adds a record component, which is a private final field whatever modifiers wait. -/
def addComponent (d : Draft) (name : String) (ty : WrittenType) : Except Refusal Draft := do
  let current ← d.currentType .recordComponent
  let container := Container.type current
  let annotations ← d.cleared.require (AnnotationUse.ofWrittenList container d.annotations)
  match d.bodyOf current with
  | .recordBody _ _ =>
    return d.cleared.modifyBody current (·.addFields
      [⟨name, [.privateAccess, .final], annotations, Ty.ofWritten container ty, none⟩])
  | _ => d.cleared.refuse .recordComponent .outsideRecord

def enterMethod (d : Draft) (name : String) (returnType : WrittenType) : Except Refusal Draft := do
  let current ← d.currentType .methodDeclaration
  d.requireNoMember .methodDeclaration
  let container := Container.type current
  let annotations ← d.cleared.require (AnnotationUse.ofWrittenList container d.annotations)
  let method : Method := ⟨name, d.modifiers, annotations, Ty.ofWritten container returnType, []⟩
  let index := ((d.unit.decl? current).map (·.methods.length)).getD 0
  let rest := d.cleared.modifyDecl current fun t => { t with methods := t.methods ++ [method] }
  return { rest with member := some (.method index), typeParam := none }

def enterConstructor (d : Draft) : Except Refusal Draft := do
  let current ← d.currentType .constructorDeclaration
  d.requireNoMember .constructorDeclaration
  let annotations ← d.cleared.require (AnnotationUse.ofWrittenList (.type current) d.annotations)
  if (d.bodyOf current).hasConstructors then
    let index := (d.bodyOf current).constructors.length
    let rest := d.cleared.modifyBody current
      (·.mapConstructors (· ++ [⟨d.modifiers, annotations, []⟩]))
    return { rest with member := some (.constructor index), typeParam := none }
  else d.cleared.refuse .constructorDeclaration .withoutConstructors

/-- Adds a parameter to the open member; one of variable arity has an array type. -/
def addParameter (d : Draft) (name : String) (ty : WrittenType) (varargs : Bool) :
    Except Refusal Draft := do
  let current ← d.currentType .formalParameter
  match d.member with
  | none => d.refuse .formalParameter .outsideParameterList
  | some slot =>
    let container := Container.type current
    let annotations ← d.cleared.require (AnnotationUse.ofWrittenList container d.annotations)
    let ty := (Ty.ofWritten container ty).arrayOf (if varargs then 1 else 0)
    let param : Parameter := ⟨name, d.modifiers, annotations, ty, varargs⟩
    if d.hasMember current slot then
      match slot with
      | .method index =>
        return d.cleared.modifyDecl current fun t => { t with
          methods := t.methods.modify index fun m => { m with params := m.params ++ [param] } }
      | .constructor index =>
        return d.cleared.modifyBody current (·.mapConstructors
          (·.modify index fun c => { c with params := c.params ++ [param] }))
    else d.cleared.refuse .formalParameter .outsideParameterList

def exitMember (d : Draft) : Except Refusal Draft :=
  if d.member.isSome then .ok { d with member := none, typeParam := none }
  else d.refuse .memberEnd .outsideMember

/-! ## The unit itself -/

def setPackage (d : Draft) (name : String) : Except Refusal Draft :=
  if d.openTypes.isEmpty then .ok { d with unit := { d.unit with package := some name } }
  else d.refuse .packageDeclaration .insideType

def addImport (d : Draft) (i : Import) : Draft :=
  { d with unit := { d.unit with imports := d.unit.imports ++ [i] } }

def addModifier (d : Draft) (word : String) : Except Refusal Draft :=
  match Modifier.ofKeyword? word with
  | some m => .ok { d with modifiers := d.modifiers ++ [m] }
  | none => .error ⟨.unknownModifier word, d⟩

/-! ## Events -/

/-- The draft after one event. -/
def feed (d : Draft) : Event → Except Refusal Draft
  | .package name => d.setPackage name
  | .importName name kind => .ok (d.addImport ⟨name, kind⟩)
  | .importStatic _ _ => .ok d
  | .modifier word => d.addModifier word
  | .annotate use => .ok { d with annotations := d.annotations ++ [use] }
  | .enterType kind name => d.enterType kind name
  | .exitType => d.exitType
  | .typeParam name => d.addTypeParam name
  | .typeParamBound ty => d.addTypeParamBound ty
  | .superclass ty => d.setSuperclass ty
  | .implement ty => d.addInterface ty
  | .field ty declarators => d.addFields ty declarators
  | .enumConstant name => d.addConstant name
  | .recordComponent name ty => d.addComponent name ty
  | .enterMethod name returnType => d.enterMethod name returnType
  | .enterConstructor => d.enterConstructor
  | .parameter name ty varargs => d.addParameter name ty varargs
  | .exitMember => d.exitMember

/-- Feeds events until one is refused. -/
def feedAll (d : Draft) : List Event → Except Refusal Draft
  | [] => .ok d
  | e :: es => do (← d.feed e).feedAll es

/-- Feeds all events, going on past those that are refused; tells of each whether it was. -/
def feedOn (d : Draft) : List Event → Draft × List (Option BuildError)
  | [] => (d, [])
  | e :: es =>
    match d.feed e with
    | .ok next =>
      let (last, refusals) := next.feedOn es
      (last, none :: refusals)
    | .error r =>
      let (last, refusals) := r.draft.feedOn es
      (last, some r.error :: refusals)

/-- The unit, if no type is left open. A strict draft leaves nothing waiting either. -/
def finish (strict : Bool) (d : Draft) : Except BuildError SourceUnit :=
  match d.openTypes with
  | id :: _ => .error (.unclosedType (((d.unit.decl? id).map (·.name)).getD ""))
  | [] =>
    if strict && !d.modifiers.isEmpty then .error (.danglingModifiers d.modifiers.length)
    else if strict && !d.annotations.isEmpty then
      .error (.danglingAnnotations (d.annotations.map (·.name)))
    else .ok d.unit

end Draft

/-- The unit that the events report. -/
def SourceUnit.ofEvents (strict : Bool) (events : List Event) : Except BuildError SourceUnit :=
  match Draft.empty.feedAll events with
  | .ok d => d.finish strict
  | .error r => .error r.error

end SourceModel
