import SourceModel.Expr.Reduction

/-!
# Parentheses

For the balance of a sequence only its parentheses count. A word of parentheses is balanced if its
depth is never negative, and zero at the end (`Paren.Balanced`). Reading it from left to right tells
whether it is (`Paren.balanced_iff`), and a balanced word leaves every depth as it was
(`Paren.Balanced.after`). The test that is made before parentheses are dropped asks for this balance
(`Expr.isBalanced_iff`).
-/

namespace SourceModel

inductive Paren where
  | opening
  | closing
deriving DecidableEq

namespace Paren

/-- The parenthesis that a token is. -/
def ofToken? (text : String) : Option Paren :=
  if text = "(" then some opening else if text = ")" then some closing else none

/-- How many more openings than closings there are. -/
def depth (w : List Paren) : Int :=
  w.count opening - w.count closing

/-- The depth is never negative on the way, and zero at the end. -/
structure Balanced (w : List Paren) : Prop where
  nonneg : ∀ v, v <+: w → 0 ≤ depth v
  ends : depth w = 0

/-! ## Reading from left to right -/

/-- The depth at the end of a word that begins at the given depth. There is none if the word falls
below zero. -/
def after : Nat → List Paren → Option Nat
  | d, [] => some d
  | d, opening :: w => after (d + 1) w
  | 0, closing :: _ => none
  | d + 1, closing :: w => after d w

theorem after_append (d : Nat) (v w : List Paren) :
    after d (v ++ w) = (after d v).bind (after · w) := by
  fun_induction after d v with
  | case1 d => rfl
  | case2 d v ih => exact ih
  | case3 v => rfl
  | case4 d v ih => exact ih

/-- What the word does to a depth `d`, told by its depths alone. -/
structure Leads (d : Int) (w : List Paren) (e : Int) : Prop where
  nonneg : ∀ v, v <+: w → 0 ≤ d + depth v
  ends : d + depth w = e

theorem depth_cons (a : Paren) (w : List Paren) : depth (a :: w) = depth [a] + depth w := by
  unfold depth
  rw [List.count_cons, List.count_cons, List.count_singleton, List.count_singleton]
  omega

theorem leads_cons {d e : Int} {a : Paren} {w : List Paren} :
    Leads d (a :: w) e ↔ 0 ≤ d ∧ Leads (d + depth [a]) w e := by
  constructor
  · intro h
    refine ⟨by simpa [depth] using h.nonneg [] List.nil_prefix, fun v hv => ?_, ?_⟩
    · have := h.nonneg (a :: v) (List.cons_prefix_cons.mpr ⟨rfl, hv⟩)
      rw [depth_cons] at this
      omega
    · have := h.ends
      rw [depth_cons] at this
      omega
  · rintro ⟨hd, h⟩
    refine ⟨fun v hv => ?_, ?_⟩
    · rcases List.prefix_cons_iff.mp hv with rfl | ⟨t, rfl, ht⟩
      · simpa [depth] using hd
      · have := h.nonneg t ht
        rw [depth_cons]
        omega
    · have := h.ends
      rw [depth_cons]
      omega

theorem after_eq_some_iff {d e : Nat} {w : List Paren} : after d w = some e ↔ Leads d w e := by
  fun_induction after d w with
  | case1 d =>
    constructor
    · rintro ⟨⟩
      exact ⟨fun v hv => by simp [List.prefix_nil.mp hv, depth], by simp [depth]⟩
    · intro h
      have : (d : Int) = e := by simpa [depth] using h.ends
      exact congrArg some (Int.ofNat.inj this)
  | case2 d w ih =>
    rw [ih, leads_cons]
    exact ⟨fun h => ⟨Int.natCast_nonneg d, h⟩, And.right⟩
  | case3 w =>
    simp only [leads_cons, reduceCtorEq, false_iff]
    rintro ⟨-, h⟩
    exact absurd (h.nonneg [] List.nil_prefix) (by decide)
  | case4 d w ih =>
    have hd : ((d + 1 : Nat) : Int) + depth [closing] = d := by
      have hclosing : depth [closing] = -1 := rfl
      omega
    rw [ih, leads_cons, hd]
    exact ⟨fun h => ⟨Int.natCast_nonneg _, h⟩, And.right⟩

theorem balanced_iff {w : List Paren} : Balanced w ↔ after 0 w = some 0 := by
  rw [after_eq_some_iff]
  constructor
  · intro h
    exact ⟨fun v hv => by simpa using h.nonneg v hv, by simpa using h.ends⟩
  · intro h
    exact ⟨fun v hv => by simpa using h.nonneg v hv, by simpa using h.ends⟩

instance (w : List Paren) : Decidable (Balanced w) :=
  decidable_of_iff _ balanced_iff.symm

theorem Balanced.after {w : List Paren} (h : Balanced w) (d : Nat) : after d w = some d := by
  refine after_eq_some_iff.mpr ⟨fun v hv => ?_, ?_⟩
  · have := h.nonneg v hv
    omega
  · have := h.ends
    omega

end Paren

/-! ## The parentheses of a sequence -/

namespace Expr

def paren? : Expr → Option Paren
  | .token text => Paren.ofToken? text
  | _ => none

def parens (items : List Expr) : List Paren :=
  items.filterMap paren?

@[simp] theorem parens_append (as bs : List Expr) : parens (as ++ bs) = parens as ++ parens bs :=
  List.filterMap_append

@[simp] theorem isToken_iff {text : String} {e : Expr} :
    e.isToken text = true ↔ e = .token text := by
  cases e <;> simp [isToken]

theorem isBalancedFrom_iff {d : Nat} {items : List Expr} :
    isBalancedFrom d items = true ↔ Paren.after d (parens items) = some 0 := by
  induction items generalizing d with
  | nil => simp [isBalancedFrom, parens, Paren.after]
  | cons e es ih =>
    unfold isBalancedFrom
    by_cases hopen : e = .token "("
    · subst hopen
      exact ih
    by_cases hclose : e = .token ")"
    · subst hclose
      cases d with
      | zero => exact ⟨fun h => (by cases h), fun h => (by cases h)⟩
      | succ d => exact ih
    have hparen : e.paren? = none := by
      cases e <;> simp_all [paren?, Paren.ofToken?]
    rw [if_neg (mt isToken_iff.mp hopen), if_neg (mt isToken_iff.mp hclose), ih]
    simp [parens, hparen]

theorem isBalanced_iff {items : List Expr} :
    isBalanced items = true ↔ Paren.Balanced (parens items) :=
  isBalancedFrom_iff.trans Paren.balanced_iff.symm

end Expr

end SourceModel
