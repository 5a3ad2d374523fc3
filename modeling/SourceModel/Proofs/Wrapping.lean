import SourceModel.Expr.Reading
import SourceModel.Proofs.Accepted
import SourceModel.Proofs.ReducedForm

/-!
# Redundant wrapping

A group has the value of what is in it, and so have balanced leaves in parentheses. A group is
reduced before its items take its place, so the parentheses found around it are not those that were
written. But reduction leaves every depth as it was (`Expr.after_parens_reduce`), and so the items
of leaves are balanced if the leaves are, with all groups opened (`Leaf.balanced_items`).
-/

namespace SourceModel

/-! ## Reduction leaves depths as they were -/

namespace Expr

theorem after_parens_inParens {inner : List Expr} (h : Paren.Balanced (parens inner)) (d : Nat) :
    Paren.after d (parens (inParens inner)) = Paren.after d (parens inner) := by
  have hparens : parens (inParens inner) = .opening :: (parens inner ++ [.closing]) :=
    congrArg (Paren.opening :: ·) (parens_append inner _)
  rw [hparens, Paren.after, Paren.after_append, h.after, h.after]
  rfl

theorem Step.after_parens {items next : List Expr} (h : Step items next) (d : Nat) :
    Paren.after d (parens next) = Paren.after d (parens items) := by
  rcases h.cases with ⟨rfl, hb⟩ | ⟨l, rfl, -, rfl⟩ | ⟨l, n, rfl, -, rfl⟩ |
    ⟨target, args, rfl, rfl⟩ | ⟨a, b, rest, rfl, rfl⟩
  · exact (after_parens_inParens hb d).symm
  · rfl
  · rfl
  · rfl
  · rfl

theorem after_parens_reduce (items : List Expr) (d : Nat) :
    Paren.after d (parens (reduce items)) = Paren.after d (parens items) := by
  induction items using reduce.induct with
  | case1 items next h _ ih =>
    rw [reduce_of_some h, ih, (reduceOnce?_eq_some_iff.mp h).after_parens]
  | case2 items h => rw [reduce_of_none h]

theorem balanced_inParens {inner : List Expr} (h : Paren.Balanced (parens inner)) :
    Paren.Balanced (parens (inParens inner)) := by
  rw [Paren.balanced_iff, after_parens_inParens h]
  exact Paren.balanced_iff.mp h

end Expr

/-! ## The parentheses of leaves -/

namespace Leaf

mutual

/-- The parentheses of a leaf, with all groups opened. -/
def parens : Leaf → List Paren
  | .token text => (Paren.ofToken? text).toList
  | .group leaves => parensOfList leaves
  | _ => []

def parensOfList : List Leaf → List Paren
  | [] => []
  | l :: ls => l.parens ++ parensOfList ls

end

mutual

theorem after_parens_items (c : Container) (l : Leaf) {es : List Expr} (h : l.items c = .ok es)
    (d : Nat) : Paren.after d (Expr.parens es) = Paren.after d l.parens := by
  cases l with
  | literal text =>
    obtain ⟨v, -, hv⟩ := bind_eq_ok_iff.mp h
    cases hv
    rfl
  | name text =>
    cases h
    rfl
  | token text =>
    cases h
    rw [Expr.parens, List.filterMap_cons, List.filterMap_nil, Expr.paren?, parens]
    cases Paren.ofToken? text <;> rfl
  | creation target args =>
    obtain ⟨v, -, hv⟩ := bind_eq_ok_iff.mp h
    cases hv
    rfl
  | group leaves =>
    obtain ⟨inner, hinner, hv⟩ := bind_eq_ok_iff.mp h
    cases hv
    rw [Expr.after_parens_reduce, parens]
    exact after_parens_itemsOfList c leaves hinner d
  | array elements =>
    obtain ⟨v, -, hv⟩ := bind_eq_ok_iff.mp h
    cases hv
    rfl
  | annotationUse a =>
    obtain ⟨v, -, hv⟩ := bind_eq_ok_iff.mp h
    cases hv
    rfl
  | unknown code =>
    cases h
    rfl

theorem after_parens_itemsOfList (c : Container) (ls : List Leaf) {es : List Expr}
    (h : itemsOfList c ls = .ok es) (d : Nat) :
    Paren.after d (Expr.parens es) = Paren.after d (parensOfList ls) := by
  cases ls with
  | nil =>
    cases h
    rfl
  | cons l ls =>
    obtain ⟨first, hfirst, h⟩ := bind_eq_ok_iff.mp h
    obtain ⟨rest, hrest, h⟩ := bind_eq_ok_iff.mp h
    cases h
    rw [Expr.parens_append, Paren.after_append, after_parens_items c l hfirst, parensOfList,
      Paren.after_append]
    congr 1
    funext e
    exact after_parens_itemsOfList c ls hrest e

end

theorem balanced_items {c : Container} {ls : List Leaf} {es : List Expr}
    (h : itemsOfList c ls = .ok es) (hb : Paren.Balanced (parensOfList ls)) :
    Paren.Balanced (Expr.parens es) := by
  rw [Paren.balanced_iff, after_parens_itemsOfList c ls h]
  exact Paren.balanced_iff.mp hb

/-! ## Leaves in parentheses -/

/-- The leaves with `k` opening parentheses before them and `k` closing ones after them. -/
def wrap (k : Nat) (leaves : List Leaf) : List Leaf :=
  List.replicate k (.token "(") ++ leaves ++ List.replicate k (.token ")")

theorem wrap_zero (leaves : List Leaf) : wrap 0 leaves = leaves :=
  List.append_nil leaves

theorem wrap_succ (k : Nat) (leaves : List Leaf) :
    wrap (k + 1) leaves = wrap k (.token "(" :: (leaves ++ [.token ")"])) := by
  have hopening : List.replicate (k + 1) (token "(") =
      List.replicate k (token "(") ++ [token "("] := List.replicate_succ'
  unfold wrap
  rw [hopening]
  simp only [List.replicate_succ, List.append_assoc, List.cons_append, List.nil_append]

theorem itemsOfList_append (c : Container) (as bs : List Leaf) :
    itemsOfList c (as ++ bs) = do
      let xs ← itemsOfList c as
      return xs ++ (← itemsOfList c bs) := by
  induction as with
  | nil =>
    show itemsOfList c bs = itemsOfList c bs >>= fun ys => .ok ([] ++ ys)
    cases itemsOfList c bs <;> rfl
  | cons a as ih =>
    rw [List.cons_append, itemsOfList, itemsOfList, ih]
    cases a.items c with
    | error e => rfl
    | ok first =>
      cases itemsOfList c as with
      | error e => rfl
      | ok xs =>
        cases itemsOfList c bs with
        | error e => rfl
        | ok ys => exact congrArg Except.ok (List.append_assoc first xs ys).symm

/-- Parentheses around leaves stand around their items. -/
theorem itemsOfList_inParens (c : Container) (ls : List Leaf) :
    itemsOfList c (.token "(" :: (ls ++ [.token ")"])) = (itemsOfList c ls).map Expr.inParens := by
  show (itemsOfList c (ls ++ [.token ")"]) >>= fun rest => .ok ([.token "("] ++ rest)) = _
  rw [itemsOfList_append]
  cases itemsOfList c ls <;> rfl

theorem map_reduce_inParens {c : Container} {ls : List Leaf}
    (h : ∀ es, itemsOfList c ls = .ok es → Paren.Balanced (Expr.parens es)) :
    (itemsOfList c (.token "(" :: (ls ++ [.token ")"]))).map Expr.reduce =
      (itemsOfList c ls).map Expr.reduce := by
  rw [itemsOfList_inParens]
  cases hitems : itemsOfList c ls with
  | error e => rfl
  | ok es => exact congrArg Except.ok (Expr.reduce_inParens (h es hitems))

/-- Parentheses around balanced items go when the items are reduced. -/
theorem map_reduce_wrap {c : Container} {ls : List Leaf}
    (h : ∀ es, itemsOfList c ls = .ok es → Paren.Balanced (Expr.parens es)) (k : Nat) :
    (itemsOfList c (wrap k ls)).map Expr.reduce = (itemsOfList c ls).map Expr.reduce := by
  induction k generalizing ls with
  | zero => rw [wrap_zero]
  | succ k ih =>
    rw [wrap_succ, ih, map_reduce_inParens h]
    intro es hes
    rw [itemsOfList_inParens] at hes
    obtain ⟨inner, hinner, rfl⟩ := map_eq_ok_iff.mp hes
    exact Expr.balanced_inParens (h inner hinner)

theorem map_reduce_wrap_of_items {c : Container} {ls : List Leaf} {es : List Expr}
    (hitems : itemsOfList c ls = .ok es) (hflat : Expr.parens es = []) (k : Nat) :
    (itemsOfList c (wrap k ls)).map Expr.reduce = .ok (Expr.reduce es) := by
  rw [map_reduce_wrap, hitems]
  · rfl
  · intro es' hes
    rw [hitems] at hes
    cases hes
    rw [hflat]
    exact Paren.balanced_iff.mpr rfl

theorem items_group (c : Container) (ls : List Leaf) :
    (group ls).items c = (itemsOfList c ls).map Expr.reduce := by
  show (itemsOfList c ls >>= fun items => .ok (Expr.reduce items)) = _
  cases itemsOfList c ls <;> rfl

theorem itemsOfList_singleton (c : Container) (l : Leaf) : itemsOfList c [l] = l.items c := by
  show (l.items c >>= fun first => .ok (first ++ [])) = _
  cases l.items c with
  | error e => rfl
  | ok first => exact congrArg Except.ok (List.append_nil first)

end Leaf

/-! ## Values -/

namespace Expr

theorem ofLeaves_eq_map (c : Container) (leaves : List Leaf) :
    ofLeaves c leaves = ((Leaf.itemsOfList c leaves).map reduce).map ofItems := by
  unfold ofLeaves
  cases Leaf.itemsOfList c leaves <;> rfl

theorem ofLeaves_group (c : Container) (leaves : List Leaf) :
    ofLeaves c [.group leaves] = ofLeaves c leaves := by
  rw [ofLeaves_eq_map, ofLeaves_eq_map, Leaf.itemsOfList_singleton, Leaf.items_group]
  cases Leaf.itemsOfList c leaves with
  | error e => rfl
  | ok items => exact congrArg (fun es => Except.ok (ofItems es)) (reduce_reduce items)

theorem ofLeaves_wrap (c : Container) {leaves : List Leaf}
    (h : Paren.Balanced (Leaf.parensOfList leaves)) (k : Nat) :
    ofLeaves c (Leaf.wrap k leaves) = ofLeaves c leaves := by
  rw [ofLeaves_eq_map, Leaf.map_reduce_wrap (fun es hes => Leaf.balanced_items hes h),
    ← ofLeaves_eq_map]

/-- Neither a group around leaves nor parentheses around balanced leaves change what is read, be it
a value or an error. -/
theorem wrapping_does_not_change_value (c : Container) (leaves : List Leaf) :
    ofLeaves c [.group leaves] = ofLeaves c leaves ∧
    (Paren.Balanced (Leaf.parensOfList leaves) → ∀ k,
      ofLeaves c (Leaf.wrap k leaves) = ofLeaves c leaves ∧
      ofLeaves c [.group (Leaf.wrap k leaves)] = ofLeaves c leaves) := by
  refine ⟨ofLeaves_group c leaves, fun h k => ⟨ofLeaves_wrap c h k, ?_⟩⟩
  rw [ofLeaves_group, ofLeaves_wrap c h]

/-- The parenthesis that opens in a group is closed after it. -/
theorem wrapping_does_not_change_name :
    Paren.Balanced (Leaf.parensOfList [.group [.token "(", .name "x"], .token ")"]) ∧
    ofLeaves .unit [.group (Leaf.wrap 2 [.group [.token "(", .name "x"], .token ")"])] =
      .ok (.name "x") := by
  have hbalanced :
      Paren.Balanced (Leaf.parensOfList [.group [.token "(", .name "x"], .token ")"]) := by
    decide
  obtain ⟨-, hwrap⟩ := wrapping_does_not_change_value .unit
    [.group [.token "(", .name "x"], .token ")"]
  refine ⟨hbalanced, (hwrap hbalanced 2).2.trans ?_⟩
  cbv

end Expr

end SourceModel
