import SourceModel.Declaration

/-!
Source units. A unit keeps its declarations in one table in the order in which they begin, so a
declaration comes after the one around it. The tree of declarations is read off the table.
-/

namespace SourceModel

inductive ImportKind where
  | single
  | wildcard
deriving DecidableEq, Repr

def ImportKind.keyword : ImportKind → String
  | .single => "single"
  | .wildcard => "wildcard"

structure Import where
  name : String
  kind : ImportKind
deriving DecidableEq, Repr

def Import.isWildcard (i : Import) : Bool :=
  i.kind == .wildcard

def Import.display (i : Import) : String :=
  match i.kind with
  | .single => i.name
  | .wildcard => i.name ++ ".*"

structure SourceUnit where
  package : Option String
  imports : List Import
  decls : List Declaration
  topLevel : List Nat

/-- A declaration with the declarations nested in it. -/
inductive DeclTree where
  | node (id : Nat) (decl : Declaration) (nested : List DeclTree)

mutual

/-- The declarations of a tree, each before those nested in it. -/
def DeclTree.preorder : DeclTree → List (Nat × Declaration)
  | .node id decl nested => (id, decl) :: DeclTree.preorderList nested

def DeclTree.preorderList : List DeclTree → List (Nat × Declaration)
  | [] => []
  | t :: ts => t.preorder ++ DeclTree.preorderList ts

end

/-- A number above that of every declaration around the container. -/
def Container.bound : Container → Nat
  | .unit => 0
  | .type id => id + 1

namespace SourceUnit

def empty : SourceUnit := ⟨none, [], [], []⟩

instance : Inhabited SourceUnit := ⟨empty⟩

def decl? (u : SourceUnit) (id : Nat) : Option Declaration :=
  u.decls[id]?

def typeCount (u : SourceUnit) : Nat := u.decls.length

/-- The unit with one more declaration at the end of the table, entered in the list of its
container. -/
def addDecl (u : SourceUnit) (d : Declaration) : SourceUnit :=
  let id := u.decls.length
  match d.container with
  | .unit => { u with decls := u.decls ++ [d], topLevel := u.topLevel ++ [id] }
  | .type parent => { u with
      decls := u.decls.modify parent (fun p => { p with nested := p.nested ++ [id] }) ++ [d] }

/-- The unit with one declaration changed. -/
def modifyDecl (u : SourceUnit) (id : Nat) (f : Declaration → Declaration) : SourceUnit :=
  { u with decls := u.decls.modify id f }

/-- Whether there is a declaration with the id and the name. -/
def isNamed (u : SourceUnit) (name : String) (id : Nat) : Bool :=
  (u.decl? id).any (·.name == name)

/-! ## Imports -/

def singleImports (u : SourceUnit) : List Import :=
  u.imports.filter (!·.isWildcard)

def wildcardImports (u : SourceUnit) : List Import :=
  u.imports.filter (·.isWildcard)

/-- The first import of a single type with the given simple name. -/
def findImport? (u : SourceUnit) (simpleName : String) : Option Import :=
  u.singleImports.find? fun i => Name.simple i.name == simpleName

/-! ## Down the tree -/

/-- The tree of a declaration. A nested declaration comes later in the table; an entry that does
not is no child. -/
def tree? (u : SourceUnit) (id : Nat) : Option DeclTree :=
  match h : u.decls[id]? with
  | some d =>
    have := (List.getElem?_eq_some_iff.1 h).1
    let child? (child : Nat) : Option DeclTree := if _ : id < child then u.tree? child else none
    some (.node id d (d.nested.filterMap child?))
  | none => none
termination_by u.decls.length - id
decreasing_by omega

def forest (u : SourceUnit) : List DeclTree :=
  u.topLevel.filterMap u.tree?

/-- All declarations, depth first. -/
def visit (u : SourceUnit) : List (Nat × Declaration) :=
  DeclTree.preorderList u.forest

def findTopLevel? (u : SourceUnit) (simpleName : String) : Option Nat :=
  u.topLevel.find? (u.isNamed simpleName)

/-- The type with the given simple name directly nested in a declaration. -/
def findNested? (u : SourceUnit) (id : Nat) (simpleName : String) : Option Nat :=
  (u.decl? id).bind fun d => d.nested.find? (u.isNamed simpleName)

/-! ## Up the tree -/

/-- The declarations around a position, innermost first. A declaration comes after the one around
it; a container that does not precede its declaration is not followed. -/
def chain (u : SourceUnit) (c : Container) : List (Nat × Declaration) :=
  match c with
  | .unit => []
  | .type id =>
    match u.decls[id]? with
    | some d => (id, d) :: (if _ : d.container.bound ≤ id then u.chain d.container else [])
    | none => []
termination_by c.bound
decreasing_by exact Nat.lt_succ_of_le (by assumption)

/-- The declarations around a declaration, innermost first. -/
def parents (u : SourceUnit) (id : Nat) : List (Nat × Declaration) :=
  (u.chain (.type id)).tail

/-- The package, the names of the declarations around a declaration and its own, with dots. -/
def qualifiedName (u : SourceUnit) (id : Nat) : String :=
  Name.join (u.package.toList ++ ((u.chain (.type id)).map (·.2.name)).reverse)

def containerName (u : SourceUnit) : Container → String
  | .unit =>
    match u.package with
    | some package => "<compilation unit " ++ package ++ ">"
    | none => "<compilation unit>"
  | .type id => u.qualifiedName id

end SourceUnit

end SourceModel
