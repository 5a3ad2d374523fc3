import SourceModel.Proofs.Accepted

/-!
# Literal texts

What is written can be at fault only in the texts of its literals. `Leaf.texts` and its companions
list these texts from left to right, through groups, arguments, elements and annotations, and a
computation `Reads` them if it fails exactly with the error of the first that is no literal. Every
reader of expressions, annotations and field declarations does so (`Leaf.reads_items` and what
follows it), in whatever container it reads. So whether something can be read is told by its texts
alone (`Reads.exists_ok_iff`).
-/

namespace SourceModel

/-- The error of a computation that fails. -/
def fault? {ε α : Type} : Except ε α → Option ε
  | .ok _ => none
  | .error e => some e

theorem fault?_eq_none_iff {ε α : Type} {x : Except ε α} : fault? x = none ↔ ∃ a, x = .ok a := by
  cases x <;> simp [fault?]

theorem fault?_eq_some_iff {ε α : Type} {x : Except ε α} {e : ε} :
    fault? x = some e ↔ x = .error e := by
  cases x <;> simp [fault?]

namespace Literal

/-- The error of the first text that is no literal. -/
def firstFault? (texts : List String) : Option LiteralError :=
  texts.findSome? fun text => fault? (read text)

/-- Whether every text is a literal. -/
def allRead (texts : List String) : Bool :=
  texts.all fun text => (read text).isOk

theorem firstFault?_eq_none_iff {texts : List String} :
    firstFault? texts = none ↔ allRead texts := by
  unfold firstFault? allRead
  rw [List.findSome?_eq_none_iff, List.all_eq_true]
  refine forall₂_congr fun text _ => ?_
  cases read text <;> simp [fault?, Except.isOk, Except.toBool]

theorem firstFault?_append (ss ts : List String) :
    firstFault? (ss ++ ts) = (firstFault? ss).or (firstFault? ts) :=
  List.findSome?_append

end Literal

/-! ## Computations that read texts -/

section Reads

variable {α β : Type} {texts more : List String} {x : Except LiteralError α}

/-- The computation fails with the error of the first text that is no literal, and succeeds if
there is none. -/
def Reads (texts : List String) (x : Except LiteralError α) : Prop :=
  fault? x = Literal.firstFault? texts

theorem reads_ok (a : α) : Reads [] (.ok a : Except LiteralError α) := rfl

theorem reads_read (text : String) : Reads [text] (Literal.read text) := by
  show fault? (Literal.read text) = _
  simp [Literal.firstFault?]

/-- Reading some texts and then others is reading them all. -/
theorem Reads.bind (hx : Reads texts x) {f : α → Except LiteralError β}
    (hf : ∀ a, Reads more (f a)) : Reads (texts ++ more) (x >>= f) := by
  unfold Reads at hx hf ⊢
  rw [Literal.firstFault?_append, ← hx]
  cases x with
  | ok a => exact hf a
  | error e => rfl

/-- What is made of the result does not count. -/
theorem Reads.map (hx : Reads texts x) (g : α → β) : Reads texts (x.map g) := by
  unfold Reads at hx ⊢
  rw [← hx]
  cases x <;> rfl

theorem Reads.bind_ok (hx : Reads texts x) (g : α → β) :
    Reads texts (x >>= fun a => .ok (g a)) := by
  have h := hx.map g
  cases x <;> exact h

theorem Reads.exists_ok_iff (hx : Reads texts x) : (∃ a, x = .ok a) ↔ Literal.allRead texts := by
  rw [← Literal.firstFault?_eq_none_iff, ← hx]
  cases x <;> simp [fault?]

end Reads

/-! ## Expressions and annotations -/

mutual

/-- The texts of the literals in a leaf, from left to right. -/
def Leaf.texts : Leaf → List String
  | .literal text => [text]
  | .name _ | .token _ | .unknown _ => []
  | .creation _ args => Leaf.textsOfSequences args
  | .group leaves => Leaf.textsOfList leaves
  | .array elements => Leaf.textsOfSequences elements
  | .annotationUse a => a.texts

def Leaf.textsOfList : List Leaf → List String
  | [] => []
  | l :: ls => l.texts ++ Leaf.textsOfList ls

def Leaf.textsOfSequences : List (List Leaf) → List String
  | [] => []
  | leaves :: rest => Leaf.textsOfList leaves ++ Leaf.textsOfSequences rest

def WrittenAnnotationUse.texts : WrittenAnnotationUse → List String
  | ⟨_, values⟩ => WrittenValue.textsOfList values

def WrittenValue.textsOfList : List WrittenValue → List String
  | [] => []
  | ⟨_, leaves⟩ :: rest => Leaf.textsOfList leaves ++ WrittenValue.textsOfList rest

end

mutual

theorem Leaf.reads_items (c : Container) (l : Leaf) : Reads l.texts (l.items c) := by
  cases l with
  | literal text => exact (reads_read text).bind_ok _
  | name text => exact reads_ok _
  | token text => exact reads_ok _
  | creation target args => exact (Leaf.reads_values c args).bind_ok _
  | group leaves => exact (Leaf.reads_itemsOfList c leaves).bind_ok _
  | array elements => exact (Leaf.reads_values c elements).bind_ok _
  | annotationUse a => exact (AnnotationUse.reads_ofWritten c a).bind_ok _
  | unknown code => exact reads_ok _

theorem Leaf.reads_itemsOfList (c : Container) (ls : List Leaf) :
    Reads (Leaf.textsOfList ls) (Leaf.itemsOfList c ls) := by
  cases ls with
  | nil => exact reads_ok _
  | cons l ls =>
    exact (Leaf.reads_items c l).bind fun _ => (Leaf.reads_itemsOfList c ls).bind_ok _

theorem Leaf.reads_values (c : Container) (sequences : List (List Leaf)) :
    Reads (Leaf.textsOfSequences sequences) (Leaf.values c sequences) := by
  cases sequences with
  | nil => exact reads_ok _
  | cons leaves rest =>
    exact (Leaf.reads_itemsOfList c leaves).bind fun _ => (Leaf.reads_values c rest).bind_ok _

theorem AnnotationUse.reads_ofWritten (c : Container) (a : WrittenAnnotationUse) :
    Reads a.texts (AnnotationUse.ofWritten c a) := by
  cases a with
  | mk name values => exact (AnnotationValue.reads_ofWrittenList c values).bind_ok _

theorem AnnotationValue.reads_ofWrittenList (c : Container) (values : List WrittenValue) :
    Reads (WrittenValue.textsOfList values) (AnnotationValue.ofWrittenList c values) := by
  cases values with
  | nil => exact reads_ok _
  | cons value rest =>
    cases value with
    | mk name leaves =>
      exact (Leaf.reads_itemsOfList c leaves).bind fun _ =>
        (AnnotationValue.reads_ofWrittenList c rest).bind_ok _

end

theorem Expr.reads_ofLeaves (c : Container) (leaves : List Leaf) :
    Reads (Leaf.textsOfList leaves) (Expr.ofLeaves c leaves) :=
  (Leaf.reads_itemsOfList c leaves).map _

/-- The texts of the literals in several annotations. -/
def WrittenAnnotationUse.textsOfList (annotations : List WrittenAnnotationUse) : List String :=
  annotations.flatMap (·.texts)

theorem AnnotationUse.reads_ofWrittenList (c : Container) (as : List WrittenAnnotationUse) :
    Reads (WrittenAnnotationUse.textsOfList as) (AnnotationUse.ofWrittenList c as) := by
  induction as with
  | nil => exact reads_ok _
  | cons a as ih => exact (AnnotationUse.reads_ofWritten c a).bind fun _ => ih.bind_ok _

/-! ## Field declarations -/

/-- The texts of the literals in the initializer, if there is one. -/
def Declarator.texts (v : Declarator) : List String :=
  (v.initializer.map Leaf.textsOfList).getD []

theorem Draft.reads_fieldsOf (c : Container) (modifiers : List Modifier)
    (annotations : List AnnotationUse) (ty : Ty) (declarators : List Declarator) :
    Reads (declarators.flatMap (·.texts))
      (Draft.fieldsOf c modifiers annotations ty declarators) := by
  induction declarators with
  | nil => exact reads_ok _
  | cons v vs ih =>
    rw [List.flatMap_cons, Draft.fieldsOf, Declarator.texts]
    cases v.initializer with
    | none => exact (reads_ok none).bind fun _ => ih.bind_ok _
    | some leaves => exact ((Expr.reads_ofLeaves c leaves).map some).bind fun _ => ih.bind_ok _

end SourceModel
