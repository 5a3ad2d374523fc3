import Mathlib.Algebra.Ring.Parity
import SourceModel.Proofs.IntegerTexts
import SourceModel.Proofs.Wrapping

/-!
# Signs

A whole number with signs before it, each of them before the number itself or before a group, is
read to the word of the number with these signs (`SignNest.ofLeaves_leaves`). A minus changes the
sign of a word and not of a number. These agree up to multiples of `2 ^ 64`
(`SignNest.apply_modEq`), and so the least word is read from its magnitude with a minus, although
no word has this magnitude.
-/

namespace SourceModel

inductive Sign where
  | plus
  | minus

namespace Sign

def leaf : Sign → Leaf
  | .plus => .token "+"
  | .minus => .token "-"

def minuses : Sign → Nat
  | .plus => 0
  | .minus => 1

/-- The word with the sign. -/
def apply : Sign → Int64 → Int64
  | .plus, v => v
  | .minus, v => -v

theorem apply_modEq (sign : Sign) {v : Int64} {x : Int} (h : v.toInt ≡ x [ZMOD 2 ^ 64]) :
    (sign.apply v).toInt ≡ (-1) ^ sign.minuses * x [ZMOD 2 ^ 64] := by
  cases sign with
  | plus => simpa [apply, minuses] using h
  | minus =>
    have hneg : (-v).toInt ≡ -v.toInt [ZMOD 2 ^ 64] := Literal.eq_neg_iff_modEq.mp rfl
    simpa [apply, minuses] using hneg.trans h.neg

end Sign

/-- The signs around a number: none, or a sign before the number or before a group that holds a
nest, each time with parentheses around. -/
inductive SignNest where
  | bare (layers : Nat)
  | literal (layers : Nat) (sign : Sign)
  | group (layers : Nat) (sign : Sign) (inner : SignNest)

namespace SignNest

/-- The leaves of the nest around the number of the given text. -/
def leaves (text : String) : SignNest → List Leaf
  | .bare layers => Leaf.wrap layers [.literal text]
  | .literal layers sign => Leaf.wrap layers [sign.leaf, .literal text]
  | .group layers sign inner => Leaf.wrap layers [sign.leaf, .group (inner.leaves text)]

def minuses : SignNest → Nat
  | .bare _ => 0
  | .literal _ sign => sign.minuses
  | .group _ sign inner => sign.minuses + inner.minuses

/-- The word with all signs. -/
def apply : SignNest → Int64 → Int64
  | .bare _, v => v
  | .literal _ sign, v => sign.apply v
  | .group _ sign inner, v => sign.apply (inner.apply v)

theorem apply_modEq (nest : SignNest) {v : Int64} {x : Int} (h : v.toInt ≡ x [ZMOD 2 ^ 64]) :
    (nest.apply v).toInt ≡ (-1) ^ nest.minuses * x [ZMOD 2 ^ 64] := by
  induction nest with
  | bare layers => simpa [apply, minuses] using h
  | literal layers sign => exact sign.apply_modEq h
  | group layers sign inner ih =>
    rw [minuses, pow_add, mul_assoc]
    exact sign.apply_modEq ih

end SignNest

/-! ## The value of a nest -/

section Value

variable {c : Container} {text : String} {v : Int64}

theorem Leaf.items_literal {l : Literal} (h : Literal.read text = .ok l) :
    (Leaf.literal text).items c = .ok [.literal l] := by
  show (Literal.read text >>= fun l => .ok [Expr.literal l]) = _
  rw [h]
  rfl

theorem Leaf.itemsOfList_token_cons {operand : Leaf} {es : List Expr}
    (h : operand.items c = .ok es) (sign : String) :
    Leaf.itemsOfList c [.token sign, operand] = .ok (.token sign :: es) := by
  show (Leaf.itemsOfList c [operand] >>= fun rest => .ok (.token sign :: rest)) = _
  rw [Leaf.itemsOfList_singleton, h]
  rfl

/-- A sign before what is read to a word makes the word with the sign of it. -/
theorem Sign.map_reduce_wrap (sign : Sign) {operand : Leaf}
    (h : operand.items c = .ok [.literal (.int v)]) (layers : Nat) :
    (Leaf.itemsOfList c (Leaf.wrap layers [sign.leaf, operand])).map Expr.reduce =
      .ok [.literal (.int (sign.apply v))] := by
  cases sign with
  | plus =>
    rw [Sign.leaf, Leaf.map_reduce_wrap_of_items (Leaf.itemsOfList_token_cons h "+") rfl]
    exact congrArg Except.ok (Expr.Collapses.plus (.int v)).reduce_eq
  | minus =>
    rw [Sign.leaf, Leaf.map_reduce_wrap_of_items (Leaf.itemsOfList_token_cons h "-") rfl]
    exact congrArg Except.ok
      (Expr.Collapses.minus (.int (Literal.eq_neg_iff_modEq.mp rfl))).reduce_eq

theorem SignNest.map_reduce_leaves (nest : SignNest) (h : Literal.read text = .ok (.int v)) :
    (Leaf.itemsOfList c (nest.leaves text)).map Expr.reduce =
      .ok [.literal (.int (nest.apply v))] := by
  induction nest with
  | bare layers =>
    have hitems : Leaf.itemsOfList c [.literal text] = .ok [.literal (.int v)] := by
      rw [Leaf.itemsOfList_singleton, Leaf.items_literal h]
    rw [leaves, Leaf.map_reduce_wrap_of_items hitems rfl, Expr.reduce_singleton]
    rfl
  | literal layers sign => exact sign.map_reduce_wrap (Leaf.items_literal h) layers
  | group layers sign inner ih =>
    exact sign.map_reduce_wrap ((Leaf.items_group c _).trans ih) layers

theorem SignNest.ofLeaves_leaves (nest : SignNest) (h : Literal.read text = .ok (.int v)) :
    Expr.ofLeaves c (nest.leaves text) = .ok (.literal (.int (nest.apply v))) := by
  rw [Expr.ofLeaves_eq_map, nest.map_reduce_leaves h]
  rfl

end Value

/-- The only number in question that is not the number of its word is `2 ^ 63` itself. -/
theorem eq_signed_of_modEq {v : Int64} {m n : Nat} (h : v.toInt ≡ (-1) ^ m * n [ZMOD 2 ^ 64])
    (hn : n ≤ 2 ^ 63) (hexact : n < 2 ^ 63 ∨ Odd m) : v.toInt = (-1) ^ m * n := by
  have hlower := v.le_toInt
  have hupper := v.toInt_lt
  -- the range of words is not symmetric: it has the negative of `2 ^ 63` only
  rcases m.even_or_odd with heven | hodd
  · have hlt : n < 2 ^ 63 := hexact.resolve_right (Nat.not_odd_iff_even.mpr heven)
    rw [heven.neg_one_pow, one_mul] at h ⊢
    unfold Int.ModEq at h
    omega
  · rw [hodd.neg_one_pow, neg_one_mul] at h ⊢
    unfold Int.ModEq at h
    omega

/-- A decimal number that is accepted, with signs around it, is read to the word of the number with
these signs. This is the number itself unless its magnitude is that of the least word and its signs
cancel out. -/
theorem SignNest.value_of_decimal {text : String} {digits : List Char} {l : Literal}
    (htext : Literal.IntegerText (Text.trim text.toList) 10 digits)
    (hread : Literal.read text = .ok l) :
    ∃ n, Literal.Writes 10 (Literal.withoutUnderscores digits) n ∧
      ∀ (c : Container) (nest : SignNest), ∃ v : Int64,
        Expr.ofLeaves c (nest.leaves text) = .ok (.literal (.int v)) ∧
        v.toInt ≡ (-1) ^ nest.minuses * n [ZMOD 2 ^ 64] ∧
        -2 ^ 63 ≤ v.toInt ∧ v.toInt < 2 ^ 63 ∧
        (n < 2 ^ 63 ∨ Odd nest.minuses → v.toInt = (-1) ^ nest.minuses * n) := by
  rw [Literal.read_eq_ok_iff] at hread
  rcases Literal.valueOf_integerText_cases htext with ⟨n, hwrites, hn, hvalue⟩ | ⟨⟨fault, hfault⟩, -⟩
  · refine ⟨n, hwrites, fun c nest => ⟨nest.apply (Literal.word n), ?_⟩⟩
    have hmod := nest.apply_modEq (Literal.word_modEq n)
    have hword := nest.ofLeaves_leaves (c := c) (Literal.read_eq_ok_iff.mpr hvalue)
    exact ⟨hword, hmod, Int64.le_toInt _, Int64.toInt_lt _, eq_signed_of_modEq hmod hn⟩
  · rw [hfault] at hread
    cases hread

/-- The least word is read from its magnitude with a minus, and also with two of them. -/
theorem SignNest.value_of_least_word :
    Literal.IntegerText (Text.trim "9223372036854775808".toList) 10 "9223372036854775808".toList ∧
    Literal.read "9223372036854775808" = .ok (.int (-9223372036854775808)) ∧
    Expr.ofLeaves .unit [.token "(", .token "-", .literal "9223372036854775808", .token ")"] =
      .ok (.literal (.int (-9223372036854775808))) ∧
    Expr.ofLeaves .unit [.token "-", .group [.token "-", .literal "9223372036854775808"]] =
      .ok (.literal (.int (-9223372036854775808))) := by
  have htrim : Text.trim "9223372036854775808".toList =
      '9' :: ("223372036854775808".toList ++ []) := by decide +kernel
  have htext : Literal.IntegerText (Text.trim "9223372036854775808".toList) 10
      "9223372036854775808".toList := by
    rw [htrim]
    exact .decimal (d := 9) (by decide) nofun
      (Literal.all_isDigitOrUnderscore_iff.mp (by decide +kernel)) (.inl rfl)
  have hread : Literal.read "9223372036854775808" = .ok (.int (-9223372036854775808)) :=
    toOption_eq_some_iff.mp (by decide +kernel)
  obtain ⟨n, hwrites, hvalue⟩ := value_of_decimal htext hread
  have hn : n = 2 ^ 63 :=
    hwrites.unique ((Literal.number?_eq_some_iff (by decide +kernel)).mp (by decide +kernel))
  subst hn
  have hleast : (-9223372036854775808 : Int64).toInt = -2 ^ 63 := by decide +kernel
  refine ⟨htext, hread, ?_, ?_⟩
  · obtain ⟨v, hv, -, -, -, hexact⟩ := hvalue .unit (.literal 1 .minus)
    have hmagnitude : v.toInt = (-1) ^ 1 * ((2 ^ 63 : Nat) : Int) := hexact (.inr odd_one)
    obtain rfl := Int64.toInt_inj.mp (hmagnitude.trans hleast.symm)
    exact hv
  · obtain ⟨v, hv, hmod, -, -, -⟩ := hvalue .unit (.group 0 .minus (.literal 0 .minus))
    have hagain : v.toInt ≡ (-9223372036854775808 : Int64).toInt [ZMOD 2 ^ 64] :=
      hmod.trans (by decide +kernel)
    obtain rfl := Literal.eq_of_modEq hagain
    exact hv

end SourceModel
