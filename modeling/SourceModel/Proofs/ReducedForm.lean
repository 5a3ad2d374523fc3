import Mathlib.Data.Int.ModEq
import Mathlib.Data.List.Pairwise
import Mathlib.Logic.Relation
import SourceModel.Proofs.Parentheses

/-!
# The reduced form of a sequence

A step applies one of the four rules. No two of them apply to the same sequence
(`Expr.pairwise_exclusive_rules`), so the order in which they are tried does not matter, and since
every step shortens the sequence all steps come to one end.

That end can be told without steps (`Expr.ReducedForm`). The parentheses around the sequence go, as
long as what is between them is balanced (`Expr.Unwraps`). What is then left collapses if it is a
number with a sign, a constructor call after `new`, or begins with strings that are joined by plus
signs (`Expr.Collapses`), and otherwise it stays as it is. A minus makes the number with the other
sign: of a word the negative modulo `2 ^ 64`, of a double the same magnitude with the sign bit
flipped (`Literal.Opposite`).
-/

namespace SourceModel

/-! ## Numbers and their opposites -/

/-- The lowest 63 bits stay, and the sign bit above them is flipped. -/
theorem Binary64.toNat_bits_negate (x : Binary64) :
    x.negate.bits.toNat =
      if x.bits.toNat < 2 ^ 63 then x.bits.toNat + 2 ^ 63 else x.bits.toNat - 2 ^ 63 := by
  have hlt := x.bits.toNat_lt
  have hbits : x.negate.bits.toNat = x.bits.toNat ^^^ 2 ^ 63 := UInt64.toNat_xor ..
  have hmod : (x.bits.toNat ^^^ 2 ^ 63) % 2 ^ 63 = x.bits.toNat % 2 ^ 63 := by
    rw [Nat.xor_mod_two_pow, Nat.mod_self, Nat.xor_zero]
  have hdiv : (x.bits.toNat ^^^ 2 ^ 63) / 2 ^ 63 = x.bits.toNat / 2 ^ 63 ^^^ 1 := by
    rw [Nat.xor_div_two_pow, Nat.div_self (Nat.two_pow_pos 63)]
  rw [hbits]
  by_cases hsign : x.bits.toNat < 2 ^ 63
  · rw [Nat.div_eq_of_lt hsign, Nat.zero_xor] at hdiv
    rw [if_pos hsign]
    omega
  · have hone : x.bits.toNat / 2 ^ 63 = 1 := by omega
    rw [hone, Nat.xor_self] at hdiv
    rw [if_neg hsign]
    omega

namespace Literal

variable {l n : Literal}

inductive IsNumber : Literal → Prop
  | int (v : Int64) : IsNumber (.int v)
  | float (x : Binary64) : IsNumber (.float x)

/-- The number with the other sign. -/
inductive Opposite : Literal → Literal → Prop
  | int {v w : Int64} : w.toInt ≡ -v.toInt [ZMOD 2 ^ 64] → Opposite (.int v) (.int w)
  | float {x y : Binary64} : (2 ^ 63 ≤ y.bits.toNat ↔ x.bits.toNat < 2 ^ 63) →
      y.bits.toNat % 2 ^ 63 = x.bits.toNat % 2 ^ 63 → Opposite (.float x) (.float y)

theorem isNumeric_iff : l.isNumeric ↔ l.IsNumber := by
  constructor
  · intro h
    cases l with
    | int v => exact .int v
    | float x => exact .float x
    | _ => cases h
  · rintro (_ | _) <;> rfl

theorem eq_neg_iff_modEq {v w : Int64} : w = -v ↔ w.toInt ≡ -v.toInt [ZMOD 2 ^ 64] := by
  rw [← Int64.toInt_inj, Int64.toInt_neg]
  constructor
  · intro h
    rw [h]
    exact Int.bmod_emod
  · intro h
    have hlower := w.le_toInt
    have hupper := w.toInt_lt
    unfold Int.ModEq at h
    rw [Int.bmod_def]
    split <;> omega

theorem eq_negate_iff {x y : Binary64} :
    y = x.negate ↔ (2 ^ 63 ≤ y.bits.toNat ↔ x.bits.toNat < 2 ^ 63) ∧
      y.bits.toNat % 2 ^ 63 = x.bits.toNat % 2 ^ 63 := by
  have hx := x.bits.toNat_lt
  have hy := y.bits.toNat_lt
  have hbits : y = x.negate ↔ y.bits.toNat = x.negate.bits.toNat := by
    rw [UInt64.toNat_inj, Binary64.mk.injEq]
  rw [hbits, x.toNat_bits_negate]
  split <;> omega

theorem negate?_eq_some_iff : l.negate? = some n ↔ l.Opposite n := by
  constructor
  · intro h
    cases l with
    | int v =>
      cases h
      exact .int (eq_neg_iff_modEq.mp rfl)
    | float x =>
      cases h
      obtain ⟨hsign, hmagnitude⟩ := eq_negate_iff.mp (rfl : x.negate = x.negate)
      exact .float hsign hmagnitude
    | _ => cases h
  · intro h
    cases h with
    | int h => rw [negate?, eq_neg_iff_modEq.mpr h]
    | float hsign hmagnitude => rw [negate?, eq_negate_iff.mpr ⟨hsign, hmagnitude⟩]

end Literal

namespace Expr

open Relation (ReflTransGen)

/-! ## Shapes of sequences -/

def inParens (items : List Expr) : List Expr :=
  .token "(" :: (items ++ [.token ")"])

def string (s : String) : Expr :=
  .literal (.string s)

/-- Strings with a plus before each. -/
def plusStrings (more : List String) : List Expr :=
  more.flatMap fun s => [.token "+", string s]

/-- Strings with a plus between each two. -/
def chain (first : String) (more : List String) : List Expr :=
  string first :: plusStrings more

/-! ## The reduced form -/

/-- What is left when the parentheses around a sequence are dropped as long as what is between them
is balanced. -/
inductive Unwraps : List Expr → List Expr → Prop
  | layer {inner core : List Expr} :
      Paren.Balanced (parens inner) → Unwraps inner core → Unwraps (inParens inner) core
  | bare {items : List Expr} :
      (∀ inner, Paren.Balanced (parens inner) → items ≠ inParens inner) → Unwraps items items

/-- What a sequence without parentheses around it becomes. Of strings that are joined by plus
signs it is the longest chain at the start that becomes one string. -/
inductive Collapses : List Expr → List Expr → Prop
  | plus {l : Literal} : l.IsNumber → Collapses [.token "+", .literal l] [.literal l]
  | minus {l n : Literal} : l.Opposite n → Collapses [.token "-", .literal l] [.literal n]
  | creation (target : Ty) (args : List Expr) :
      Collapses [.token "new", .creation target args] [.creation target args]
  | strings (first : String) (more : List String) (rest : List Expr) :
      (∀ first' more' rest', chain first more ++ rest = chain first' more' ++ rest' →
        more'.length ≤ more.length) →
      Collapses (chain first more ++ rest) (string (String.join (first :: more)) :: rest)

/-- The sequence without the parentheses around it, collapsed if it can be. -/
def ReducedForm (items result : List Expr) : Prop :=
  ∃ core, Unwraps items core ∧
    (Collapses core result ∨ (∀ other, ¬ Collapses core other) ∧ result = core)

/-! ## What each rule does -/

section Rules

variable {items next : List Expr}

theorem dropParens?_eq_some_iff :
    dropParens? items = some next ↔ items = inParens next ∧ Paren.Balanced (parens next) := by
  unfold inParens
  cases items with
  | nil => simp [dropParens?]
  | cons first rest =>
    rcases List.eq_nil_or_concat rest with rfl | ⟨inner, last, rfl⟩
    · simp [dropParens?]
    · simp only [dropParens?, List.concat_eq_append, List.getLast?_concat, List.dropLast_concat,
        Option.ite_none_right_eq_some, Bool.and_eq_true, isToken_iff, isBalanced_iff,
        Option.some.injEq, List.cons.injEq]
      constructor
      · rintro ⟨⟨⟨rfl, rfl⟩, hb⟩, rfl⟩
        exact ⟨⟨rfl, rfl⟩, hb⟩
      · rintro ⟨⟨rfl, happ⟩, hb⟩
        obtain ⟨rfl, hlast⟩ := List.append_inj' happ rfl
        cases hlast
        exact ⟨⟨⟨rfl, rfl⟩, hb⟩, rfl⟩

theorem applySign?_eq_some_iff :
    applySign? items = some next ↔
      (∃ l, items = [.token "+", .literal l] ∧ l.IsNumber ∧ next = [.literal l]) ∨
      ∃ l n, items = [.token "-", .literal l] ∧ l.Opposite n ∧ next = [.literal n] := by
  constructor
  · intro h
    unfold applySign? at h
    split at h
    · next sign l =>
      split at h
      · next hplus =>
        rw [Bool.and_eq_true, isToken_iff] at hplus
        obtain ⟨rfl, hl⟩ := hplus
        cases h
        exact .inl ⟨l, rfl, Literal.isNumeric_iff.mp hl, rfl⟩
      · split at h
        · next hminus =>
          obtain rfl := isToken_iff.mp hminus
          obtain ⟨n, hn, rfl⟩ := Option.map_eq_some_iff.mp h
          exact .inr ⟨l, n, rfl, Literal.negate?_eq_some_iff.mp hn, rfl⟩
        · cases h
    · cases h
  · rintro (⟨l, rfl, hl, rfl⟩ | ⟨l, n, rfl, hn, rfl⟩)
    · simp [applySign?, Literal.isNumeric_iff.mpr hl]
    · simp [applySign?, Literal.negate?_eq_some_iff.mpr hn]

theorem dropNew?_eq_some_iff :
    dropNew? items = some next ↔ ∃ target args,
      items = [.token "new", .creation target args] ∧ next = [.creation target args] := by
  constructor
  · intro h
    unfold dropNew? at h
    split at h
    · next word target args =>
      split at h
      · next hword =>
        obtain rfl := isToken_iff.mp hword
        cases h
        exact ⟨target, args, rfl, rfl⟩
      · cases h
    · cases h
  · rintro ⟨target, args, rfl, rfl⟩
    simp [dropNew?]

theorem joinStrings?_eq_some_iff :
    joinStrings? items = some next ↔ ∃ a b rest,
      items = string a :: .token "+" :: string b :: rest ∧ next = string (a ++ b) :: rest := by
  constructor
  · intro h
    unfold joinStrings? at h
    split at h
    · next a plus b rest =>
      split at h
      · next hplus =>
        obtain rfl := isToken_iff.mp hplus
        cases h
        exact ⟨a, b, rest, rfl, rfl⟩
      · cases h
    · cases h
  · rintro ⟨a, b, rest, rfl, rfl⟩
    simp [joinStrings?, string]

end Rules

/-! ## No two rules apply -/

/-- A rule makes a sequence of another one if it applies. -/
abbrev Rule := List Expr → Option (List Expr)

/-- The rules in the order in which they are tried. -/
def rules : List Rule :=
  [dropParens?, applySign?, dropNew?, joinStrings?]

/-- Some rule makes the one sequence of the other. -/
def Step (items next : List Expr) : Prop :=
  ∃ rule ∈ rules, rule items = some next

/-- One of the two does not apply. -/
def Exclusive (r s : Rule) : Prop :=
  ∀ items, r items = none ∨ s items = none

instance : Std.Symm Exclusive :=
  ⟨fun _ _ h items => (h items).symm⟩

/-- The rule applies only if the first item is of the given kind. -/
def StartsWith (r : Rule) (kind : Expr → Prop) : Prop :=
  ∀ items next, r items = some next → ∃ e, items.head? = some e ∧ kind e

theorem exclusive_of_startsWith {r s : Rule} {kind other : Expr → Prop}
    (hr : StartsWith r kind) (hs : StartsWith s other) (h : ∀ e, kind e → ¬ other e) :
    Exclusive r s := by
  intro items
  cases hnext : r items with
  | none => exact .inl rfl
  | some next =>
    obtain ⟨e, he, hkind⟩ := hr items next hnext
    refine .inr (Option.eq_none_iff_forall_ne_some.mpr fun next' hnext' => ?_)
    obtain ⟨e', he', hother⟩ := hs items next' hnext'
    rw [he] at he'
    cases he'
    exact h e hkind hother

theorem dropParens?_startsWith : StartsWith dropParens? (· = .token "(") := by
  intro items next h
  obtain ⟨rfl, -⟩ := dropParens?_eq_some_iff.mp h
  exact ⟨_, rfl, rfl⟩

theorem applySign?_startsWith :
    StartsWith applySign? fun e => e = .token "+" ∨ e = .token "-" := by
  intro items next h
  rcases applySign?_eq_some_iff.mp h with ⟨l, rfl, -⟩ | ⟨l, n, rfl, -⟩
  · exact ⟨_, rfl, .inl rfl⟩
  · exact ⟨_, rfl, .inr rfl⟩

theorem dropNew?_startsWith : StartsWith dropNew? (· = .token "new") := by
  intro items next h
  obtain ⟨target, args, rfl, -⟩ := dropNew?_eq_some_iff.mp h
  exact ⟨_, rfl, rfl⟩

theorem joinStrings?_startsWith : StartsWith joinStrings? fun e => ∃ s, e = string s := by
  intro items next h
  obtain ⟨a, b, rest, rfl, -⟩ := joinStrings?_eq_some_iff.mp h
  exact ⟨_, rfl, a, rfl⟩

theorem pairwise_exclusive_rules : rules.Pairwise Exclusive := by
  have hparens := dropParens?_startsWith
  have hsign := applySign?_startsWith
  have hnew := dropNew?_startsWith
  have hjoin := joinStrings?_startsWith
  simp only [rules, List.pairwise_cons, List.mem_cons, List.not_mem_nil, or_false, forall_eq_or_imp,
    forall_eq, false_implies, implies_true, List.Pairwise.nil, and_true]
  refine ⟨⟨?_, ?_, ?_⟩, ⟨?_, ?_⟩, ?_⟩
  · exact exclusive_of_startsWith hparens hsign (by simp)
  · exact exclusive_of_startsWith hparens hnew (by simp)
  · exact exclusive_of_startsWith hparens hjoin (by simp [string])
  · exact exclusive_of_startsWith hsign hnew (by simp)
  · exact exclusive_of_startsWith hsign hjoin (by simp [string])
  · exact exclusive_of_startsWith hnew hjoin (by simp [string])

theorem Step.unique {items a b : List Expr} (ha : Step items a) (hb : Step items b) : a = b := by
  obtain ⟨r, hr, hra⟩ := ha
  obtain ⟨s, hs, hsb⟩ := hb
  by_cases heq : r = s
  · rw [heq, hsb] at hra
    exact (Option.some.inj hra).symm
  · rcases pairwise_exclusive_rules.forall hr hs heq items with hnone | hnone
    · rw [hnone] at hra
      cases hra
    · rw [hnone] at hsb
      cases hsb

/-- In whatever order the rules are tried, the first that applies is the only one. -/
theorem findSome?_eq_some_iff_step {order : List Rule}
    (h : order.Perm rules) {items next : List Expr} :
    order.findSome? (· items) = some next ↔ Step items next := by
  constructor
  · intro hnext
    obtain ⟨rule, hmem, hrule⟩ := List.exists_of_findSome?_eq_some hnext
    exact ⟨rule, h.mem_iff.mp hmem, hrule⟩
  · rintro ⟨rule, hmem, hrule⟩
    cases hfound : order.findSome? (· items) with
    | none =>
      have := List.findSome?_eq_none_iff.mp hfound rule (h.mem_iff.mpr hmem)
      rw [hrule] at this
      cases this
    | some other =>
      obtain ⟨rule', hmem', hrule'⟩ := List.exists_of_findSome?_eq_some hfound
      have := Step.unique ⟨rule', h.mem_iff.mp hmem', hrule'⟩ ⟨rule, hmem, hrule⟩
      rw [this]

theorem reduceOnce?_eq_findSome? (items : List Expr) :
    reduceOnce? items = rules.findSome? (· items) := by
  simp only [reduceOnce?, rules, List.findSome?_cons, List.findSome?_nil]
  cases dropParens? items <;> cases applySign? items <;> cases dropNew? items <;>
    cases joinStrings? items <;> rfl

theorem reduceOnce?_eq_some_iff {items next : List Expr} :
    reduceOnce? items = some next ↔ Step items next := by
  rw [reduceOnce?_eq_findSome?]
  exact findSome?_eq_some_iff_step (.refl _)

/-- All that a step can do. -/
theorem Step.cases {items next : List Expr} (h : Step items next) :
    (items = inParens next ∧ Paren.Balanced (parens next)) ∨
    (∃ l, items = [.token "+", .literal l] ∧ l.IsNumber ∧ next = [.literal l]) ∨
    (∃ l n, items = [.token "-", .literal l] ∧ l.Opposite n ∧ next = [.literal n]) ∨
    (∃ target args,
      items = [.token "new", .creation target args] ∧ next = [.creation target args]) ∨
    ∃ a b rest, items = string a :: .token "+" :: string b :: rest ∧
      next = string (a ++ b) :: rest := by
  obtain ⟨rule, hmem, hrule⟩ := h
  simp only [rules, List.mem_cons, List.not_mem_nil, or_false] at hmem
  rcases hmem with rfl | rfl | rfl | rfl
  · exact .inl (dropParens?_eq_some_iff.mp hrule)
  · rcases applySign?_eq_some_iff.mp hrule with h | h
    · exact .inr (.inl h)
    · exact .inr (.inr (.inl h))
  · exact .inr (.inr (.inr (.inl (dropNew?_eq_some_iff.mp hrule))))
  · exact .inr (.inr (.inr (.inr (joinStrings?_eq_some_iff.mp hrule))))

/-! ## All steps come to one end -/

theorem Step.length_lt {items next : List Expr} (h : Step items next) :
    next.length < items.length :=
  length_lt_of_reduceOnce? (reduceOnce?_eq_some_iff.mpr h)

theorem Step.reduce_eq {items next : List Expr} (h : Step items next) :
    reduce items = reduce next :=
  reduce_of_some (reduceOnce?_eq_some_iff.mpr h)

theorem reduce_of_no_step {items : List Expr} (h : ∀ next, ¬ Step items next) :
    reduce items = items := by
  refine reduce_of_none (Option.eq_none_iff_forall_ne_some.mpr fun next hnext => ?_)
  exact h next (reduceOnce?_eq_some_iff.mp hnext)

theorem wellFounded_step : WellFounded fun next items : List Expr => Step items next :=
  Subrelation.wf Step.length_lt (measure List.length).wf

theorem reflTransGen_reduce (items : List Expr) : ReflTransGen Step items (reduce items) := by
  induction items using reduce.induct with
  | case1 items next h _ ih =>
    rw [reduce_of_some h]
    exact .head (reduceOnce?_eq_some_iff.mp h) ih
  | case2 items h =>
    rw [reduce_of_none h]

theorem not_step_reduce (items next : List Expr) : ¬ Step (reduce items) next := by
  induction items using reduce.induct with
  | case1 items _ h _ ih =>
    rw [reduce_of_some h]
    exact ih
  | case2 items h =>
    rw [reduce_of_none h, ← reduceOnce?_eq_some_iff, h]
    exact nofun

theorem reduce_eq_of_reflTransGen {items result : List Expr} (h : ReflTransGen Step items result) :
    reduce items = reduce result := by
  induction h with
  | refl => rfl
  | tail _ hstep ih => exact ih.trans hstep.reduce_eq

theorem reduce_reduce (items : List Expr) : reduce (reduce items) = reduce items :=
  reduce_of_no_step (not_step_reduce items)

/-! ## Chains of strings -/

theorem plusStrings_cons (s : String) (more : List String) :
    plusStrings (s :: more) = .token "+" :: string s :: plusStrings more := rfl

theorem plusStrings_concat (more : List String) (s : String) :
    plusStrings (more ++ [s]) = plusStrings more ++ [.token "+", string s] := by
  simp [plusStrings]

/-- A chain becomes one string. -/
theorem reduce_chain (first : String) (more : List String) (rest : List Expr) :
    reduce (chain first more ++ rest) = reduce (string (String.join (first :: more)) :: rest) := by
  induction more generalizing first with
  | nil => simp [chain, plusStrings]
  | cons s more ih =>
    have hstep : Step (chain first (s :: more) ++ rest) (chain (first ++ s) more ++ rest) :=
      ⟨joinStrings?, by simp [rules], joinStrings?_eq_some_iff.mpr ⟨first, s, _, rfl, rfl⟩⟩
    rw [hstep.reduce_eq, ih]
    simp [String.append_assoc]

/-- The sequence goes on with a plus and a string. -/
def Continues (rest : List Expr) : Prop :=
  ∃ s rest', rest = .token "+" :: string s :: rest'

theorem exists_plusStrings (rest : List Expr) :
    ∃ more rest', rest = plusStrings more ++ rest' ∧ ¬ Continues rest' := by
  induction hn : rest.length using Nat.strongRecOn generalizing rest with
  | _ n ih =>
    by_cases h : Continues rest
    · obtain ⟨s, rest, rfl⟩ := h
      obtain ⟨more, rest', rfl, hend⟩ := ih rest.length (by simp at hn; omega) rest rfl
      exact ⟨s :: more, rest', rfl, hend⟩
    · exact ⟨[], rest, rfl, h⟩

/-- Where the sequence does not go on, the chain is the longest. -/
theorem length_le_of_not_continues {more more' : List String} {rest rest' : List Expr}
    (h : plusStrings more ++ rest = plusStrings more' ++ rest') (hend : ¬ Continues rest) :
    more'.length ≤ more.length := by
  induction more generalizing more' with
  | nil =>
    cases more' with
    | nil => exact Nat.le_refl _
    | cons s more' => exact absurd ⟨s, _, h⟩ hend
  | cons t more ih =>
    cases more' with
    | nil => exact Nat.zero_le _
    | cons s more' =>
      simp only [plusStrings_cons, List.cons_append, List.cons.injEq] at h
      exact Nat.succ_le_succ (ih h.2.2)

/-- The longest chain is one after which the sequence does not go on. -/
theorem not_continues_of_longest {first : String} {more : List String} {rest : List Expr}
    (h : ∀ first' more' rest', chain first more ++ rest = chain first' more' ++ rest' →
      more'.length ≤ more.length) : ¬ Continues rest := by
  rintro ⟨s, rest', rfl⟩
  have hlonger := h first (more ++ [s]) rest' (by simp [chain, plusStrings_concat])
  rw [List.length_append, List.length_singleton] at hlonger
  omega

theorem reduce_string {s : String} {rest : List Expr} (h : ¬ Continues rest) :
    reduce (string s :: rest) = string s :: rest := by
  refine reduce_of_no_step fun next hstep => ?_
  rcases hstep.cases with ⟨hitems, -⟩ | ⟨l, hitems, -⟩ | ⟨l, n, hitems, -⟩ |
    ⟨target, args, hitems, -⟩ | ⟨a, b, rest', hitems, -⟩
  · cases hitems
  · cases hitems
  · cases hitems
  · cases hitems
  · obtain ⟨-, rfl⟩ := List.cons.inj hitems
    exact h ⟨b, rest', rfl⟩

theorem exists_collapses_string (first : String) (rest : List Expr) :
    ∃ result, Collapses (string first :: rest) result := by
  obtain ⟨more, rest', rfl, hend⟩ := exists_plusStrings rest
  refine ⟨_, .strings first more rest' fun first' more' rest'' h => ?_⟩
  exact length_le_of_not_continues (List.cons.inj h).2 hend

/-! ## The reduced form is what reduction gives -/

theorem reduce_inParens {inner : List Expr} (h : Paren.Balanced (parens inner)) :
    reduce (inParens inner) = reduce inner :=
  Step.reduce_eq ⟨dropParens?, by simp [rules], dropParens?_eq_some_iff.mpr ⟨rfl, h⟩⟩

theorem Unwraps.reduce_eq {items core : List Expr} (h : Unwraps items core) :
    reduce items = reduce core := by
  induction h with
  | layer hb _ ih => rw [reduce_inParens hb, ih]
  | bare _ => rfl

theorem exists_unwraps (items : List Expr) : ∃ core, Unwraps items core := by
  induction hn : items.length using Nat.strongRecOn generalizing items with
  | _ n ih =>
    by_cases h : ∃ inner, Paren.Balanced (parens inner) ∧ items = inParens inner
    · obtain ⟨inner, hb, rfl⟩ := h
      obtain ⟨core, hcore⟩ := ih inner.length (by simp [inParens] at hn; omega) inner rfl
      exact ⟨core, .layer hb hcore⟩
    · exact ⟨items, .bare fun inner hb heq => h ⟨inner, hb, heq⟩⟩

theorem Unwraps.bare_core {items core : List Expr} (h : Unwraps items core) :
    ∀ inner, Paren.Balanced (parens inner) → core ≠ inParens inner := by
  induction h with
  | layer _ _ ih => exact ih
  | bare h => exact h

theorem reduce_singleton (e : Expr) : reduce [e] = [e] := by
  refine reduce_of_no_step fun next hstep => ?_
  rcases hstep.cases with ⟨hitems, -⟩ | ⟨l, hitems, -⟩ | ⟨l, n, hitems, -⟩ |
    ⟨target, args, hitems, -⟩ | ⟨a, b, rest, hitems, -⟩
  · simp [inParens] at hitems
  · cases hitems
  · cases hitems
  · cases hitems
  · cases hitems

theorem Collapses.reduce_eq {core result : List Expr} (h : Collapses core result) :
    reduce core = result := by
  cases h with
  | plus hl =>
    have hstep : Step [.token "+", .literal _] [.literal _] :=
      ⟨applySign?, by simp [rules], applySign?_eq_some_iff.mpr (.inl ⟨_, rfl, hl, rfl⟩)⟩
    rw [hstep.reduce_eq, reduce_singleton]
  | minus hn =>
    have hstep : Step [.token "-", .literal _] [.literal _] :=
      ⟨applySign?, by simp [rules], applySign?_eq_some_iff.mpr (.inr ⟨_, _, rfl, hn, rfl⟩)⟩
    rw [hstep.reduce_eq, reduce_singleton]
  | creation target args =>
    have hstep : Step [.token "new", .creation target args] [.creation target args] :=
      ⟨dropNew?, by simp [rules], dropNew?_eq_some_iff.mpr ⟨_, _, rfl, rfl⟩⟩
    rw [hstep.reduce_eq, reduce_singleton]
  | strings first more rest hlongest =>
    rw [reduce_chain, reduce_string (not_continues_of_longest hlongest)]

/-- What neither loses parentheses nor collapses is reduced. -/
theorem reduce_of_not_collapses {core : List Expr}
    (hbare : ∀ inner, Paren.Balanced (parens inner) → core ≠ inParens inner)
    (h : ∀ other, ¬ Collapses core other) : reduce core = core := by
  refine reduce_of_no_step fun next hstep => ?_
  rcases hstep.cases with ⟨rfl, hb⟩ | ⟨l, rfl, hl, -⟩ | ⟨l, n, rfl, hn, -⟩ |
    ⟨target, args, rfl, -⟩ | ⟨a, b, rest, rfl, -⟩
  · exact hbare next hb rfl
  · exact h _ (.plus hl)
  · exact h _ (.minus hn)
  · exact h _ (.creation target args)
  · obtain ⟨result, hresult⟩ := exists_collapses_string a _
    exact h result hresult

theorem reducedForm_iff {items result : List Expr} :
    ReducedForm items result ↔ result = reduce items := by
  constructor
  · rintro ⟨core, hcore, hresult | ⟨hnone, rfl⟩⟩
    · rw [hcore.reduce_eq, hresult.reduce_eq]
    · rw [hcore.reduce_eq, reduce_of_not_collapses hcore.bare_core hnone]
  · rintro rfl
    obtain ⟨core, hcore⟩ := exists_unwraps items
    refine ⟨core, hcore, ?_⟩
    rw [hcore.reduce_eq]
    by_cases h : ∃ result, Collapses core result
    · obtain ⟨result, hresult⟩ := h
      rw [hresult.reduce_eq]
      exact .inl hresult
    · have hnone : ∀ other, ¬ Collapses core other := fun other hother => h ⟨other, hother⟩
      exact .inr ⟨hnone, reduce_of_not_collapses hcore.bare_core hnone⟩

/-- Reduction ends whatever rules are applied, and its end is the reduced form. No two rules apply
to the same sequence, so in every order of the rules the same step is made. -/
theorem reduce_gives_reduced_form :
    (WellFounded fun next items : List Expr => Step items next) ∧
    (∀ items result,
      (ReflTransGen Step items result ∧ ∀ next, ¬ Step result next) ↔ result = reduce items) ∧
    (∀ items result, ReducedForm items result ↔ result = reduce items) ∧
    rules.Pairwise Exclusive ∧
    ∀ order : List Rule, order.Perm rules →
      ∀ items, order.findSome? (· items) = reduceOnce? items := by
  refine ⟨wellFounded_step, fun items result => ⟨?_, ?_⟩, fun _ _ => reducedForm_iff,
    pairwise_exclusive_rules, fun order horder items => ?_⟩
  · rintro ⟨hsteps, hend⟩
    rw [reduce_eq_of_reflTransGen hsteps, reduce_of_no_step hend]
  · rintro rfl
    exact ⟨reflTransGen_reduce items, not_step_reduce items⟩
  · refine Option.ext fun next => ?_
    rw [findSome?_eq_some_iff_step horder, reduceOnce?_eq_some_iff]

/-- The chain of strings in the parentheses ends at the name. A minus before 2.5 makes -2.5 of it,
and one before the least word makes no other word of it. -/
theorem reduced_form_of_strings_in_parens :
    reduce [.token "(", string "a", .token "+", string "b", .token "+", .name "x", .token ")"] =
      [string "ab", .token "+", .name "x"] ∧
    reduce [.token "-", .literal (.float ⟨0x4004000000000000⟩)] =
      [.literal (.float ⟨0xc004000000000000⟩)] ∧
    reduce [.token "-", .literal (.int (-9223372036854775808))] =
      [.literal (.int (-9223372036854775808))] ∧
    rules.reverse.Perm rules ∧
    rules.reverse.findSome? (· [.token "-", .literal (.int 7)]) = some [.literal (.int (-7))] := by
  obtain ⟨-, -, hform, -, horder⟩ := reduce_gives_reduced_form
  have hcore : Unwraps (inParens (chain "a" ["b"] ++ [.token "+", .name "x"]))
      (chain "a" ["b"] ++ [.token "+", .name "x"]) :=
    .layer (by decide) (.bare fun inner _ h => by cases h)
  have hend : ¬ Continues [.token "+", .name "x"] := by
    rintro ⟨s, rest, h⟩
    cases h
  have hstrings : Collapses (chain "a" ["b"] ++ [.token "+", .name "x"])
      [string "ab", .token "+", .name "x"] :=
    .strings "a" ["b"] _ fun _ _ _ h => length_le_of_not_continues (List.cons.inj h).2 hend
  have hminus : ∀ {l n : Literal}, l.Opposite n →
      reduce [.token "-", .literal l] = [.literal n] := by
    intro l n hn
    have hbare : Unwraps [.token "-", .literal l] [.token "-", .literal l] :=
      .bare fun inner _ h => by simp [inParens] at h
    exact ((hform _ _).mp ⟨_, hbare, .inl (.minus hn)⟩).symm
  refine ⟨((hform _ _).mp ⟨_, hcore, .inl hstrings⟩).symm,
    hminus (.float (by decide) (by decide)), hminus (.int (by decide)),
    List.reverse_perm rules, ?_⟩
  rw [horder _ (List.reverse_perm rules)]
  rfl

end Expr

end SourceModel
