import SourceModel.Resolution.Memo

/-!
Rendering types as text. A rendering says what becomes of each shape of type; a shape for which it
gives nothing is an error.
-/

namespace SourceModel

inductive Shape where
  | primitive
  | named
  | array
  | wildcard
deriving DecidableEq, Repr

def Shape.text : Shape → String
  | .primitive => "primitive"
  | .named => "object"
  | .array => "array"
  | .wildcard => "wildcard"

def Ty.shape : Ty → Shape
  | .primitive _ => .primitive
  | .named _ => .named
  | .array _ _ => .array

inductive RenderError where
  | noMapping (name : String) (shape : Shape)
  | lookup (error : LookupError)
deriving DecidableEq, Repr

def RenderError.message : RenderError → String
  | .noMapping name shape => "no mapping for " ++ name ++ " (" ++ shape.text ++ ")"
  | .lookup error => error.message

/-- Questions whose answer may be a failure to render. -/
abbrev RenderM := ExceptT RenderError QueryM

/-- What becomes of each shape. The parts of a type are rendered only if the rendering asks for
them. -/
structure Rendering where
  primitive : Primitive → RenderM (Option String)
  /-- A named type with the path to it and its rendered type arguments. -/
  named : Path → NamedType → RenderM String → RenderM (Option String)
  array : RenderM String → Nat → RenderM (Option String)
  wildcard : Option (BoundKind × RenderM String) → RenderM (Option String)

namespace Rendering

def plainArray (component : RenderM String) (dimension : Nat) : RenderM (Option String) := do
  return some ((← component) ++ brackets dimension)

def plainWildcard : Option (BoundKind × RenderM String) → RenderM (Option String)
  | some (kind, bound) => do return some ("? " ++ kind.keyword ++ " " ++ (← bound))
  | none => return some "?"

/-- Arrays and wildcards as they are written; nothing for other shapes. -/
def bare : Rendering where
  primitive _ := return none
  named _ _ _ := return none
  array := plainArray
  wildcard := plainWildcard

/-- The text of a type. Its name, which may be long, is formed only if there is no text. -/
def require (ty : Ty) (text : RenderM (Option String)) : RenderM String := do
  match ← text with
  | some s => return s
  | none => throw (.noMapping ty.name ty.shape)

def requireWildcard (text : RenderM (Option String)) : RenderM String := do
  match ← text with
  | some s => return s
  | none => throw (.noMapping "?" .wildcard)

mutual

/-- The text of the type at the end of a path. -/
def render (r : Rendering) (path : Path) : Ty → RenderM String
  | .primitive p => require (.primitive p) (r.primitive p)
  | .named ty => r.renderNamed path ty
  | .array component dimension =>
    require (.array component dimension)
      (r.array (r.render (path ++ [.component]) component) dimension)

def renderNamed (r : Rendering) (path : Path) : NamedType → RenderM String
  | ⟨container, qualifier, name, args⟩ =>
    let ty : NamedType := ⟨container, qualifier, name, args⟩
    let args := do return angleBrackets (← r.renderArgs path 0 args)
    require (.named ty) (r.named path ty args)

def renderArg (r : Rendering) (path : Path) : TyArg → RenderM String
  | .type ty => r.render path ty
  | .wildcard => requireWildcard (r.wildcard none)
  | .bounded kind bound => requireWildcard (r.wildcard (some (kind, r.render path bound)))

/-- The texts of type arguments numbered from `i`. -/
def renderArgs (r : Rendering) (path : Path) (i : Nat) : List TyArg → RenderM (List String)
  | [] => return []
  | a :: as => do
    let first ← r.renderArg (path ++ [.arg i]) a
    return first :: (← r.renderArgs path (i + 1) as)

end

/-- Named types by their canonical names, all else as it is written. -/
def qualified (p : Project) (decl : DeclId) (slot : TypeSlot) : Rendering where
  primitive q := return some q.keyword
  named path ty args := do
    match ← p.canonicalName ⟨decl, slot, path⟩ ty with
    | .ok name => return some (name ++ (← args))
    | .error e => throw (.lookup e)
  array := plainArray
  wildcard := plainWildcard

end Rendering

end SourceModel
