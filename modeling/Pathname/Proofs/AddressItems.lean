import Pathname.Host.Ipv6
import Pathname.Proofs.SegmentStack

/-!
# The items of an IPv6 address

An IPv6 address is a list of items with colons between them, or two such lists with two colons
between them. Whatever else is between two colons, or before or behind one, makes an empty item, and
an empty item stands for nothing.

- `Text.nil_mem_pieces_iff`: where an empty piece comes from.
- `Ipv6.cut?_eq_none_iff`, `Ipv6.no_colons_before`: the place of the two colons is the first one.
- `Ipv6.items`, `Ipv6.width?_eq_none_of_nil_mem`: the items of a side, of which none is empty.
- `isIpv6_iff_of_no_colons`, `isIpv6_iff_of_two_colons`: addresses, told by the widths of their sides.
-/

namespace Pathname

/-! ## Empty pieces -/

namespace Text

variable {d : Char} {t : Text}

theorem pieces_append_self (d : Char) (before after : Text) :
    pieces (· == d) (before ++ d :: after) = pieces (· == d) before ++ pieces (· == d) after :=
  pieces_append_cut (by simp) before after

/-- A piece is empty in the empty text, at a separating character at the beginning or at the end,
and between two of them. -/
theorem nil_mem_pieces_iff :
    [] ∈ pieces (· == d) t ↔ t = [] ∨ [d] <+: t ∨ [d] <:+ t ∨ [d, d] <:+: t := by
  constructor
  · intro h
    obtain ⟨before, after, hpieces⟩ := List.append_of_mem h
    have hglue : [d].intercalate (before ++ [] :: after) = t := hpieces ▸ intercalate_pieces d t
    have hbehind (hafter : after ≠ []) :
        [d].intercalate ([] :: after) = d :: [d].intercalate after :=
      List.intercalate_cons_of_ne_nil hafter
    by_cases hbefore : before = []
    · rw [hbefore, List.nil_append] at hglue
      by_cases hafter : after = []
      · rw [hafter, List.intercalate_singleton] at hglue
        exact Or.inl hglue.symm
      · exact Or.inr (Or.inl ⟨_, (hbehind hafter).symm.trans hglue⟩)
    · rw [intercalate_append hbefore (List.cons_ne_nil [] after)] at hglue
      by_cases hafter : after = []
      · rw [hafter, List.intercalate_singleton, List.append_nil] at hglue
        exact Or.inr (Or.inr (Or.inl ⟨_, hglue⟩))
      · rw [hbehind hafter] at hglue
        exact Or.inr (Or.inr (Or.inr ⟨_, _, (List.append_assoc ..).trans hglue⟩))
  · rintro (rfl | ⟨rest, rfl⟩ | ⟨rest, rfl⟩ | ⟨before, after, rfl⟩)
    · exact List.mem_singleton_self []
    · rw [List.singleton_append, ← List.nil_append (d :: rest), pieces_append_self]
      exact List.mem_append_left _ (List.mem_singleton_self [])
    · rw [pieces_append_self]
      exact List.mem_append_right _ (List.mem_singleton_self [])
    · have hpieces : pieces (· == d) (d :: after) = [[]] ++ pieces (· == d) after :=
        pieces_append_self d [] after
      rw [List.append_assoc]
      show [] ∈ pieces _ (before ++ d :: d :: after)
      rw [pieces_append_self, hpieces]
      exact List.mem_append_right _ (List.mem_append_left _ (List.mem_singleton_self []))

end Text

namespace Host

namespace Ipv6

variable {t before after : Text}

/-! ## The place of the two colons -/

theorem cut?_eq_none_iff : cut? t = none ↔ ¬ [':', ':'] <:+: t := by
  fun_induction cut? t with
  | case1 => simp
  | case2 c => simp [List.infix_cons_iff]
  | case3 c d rest hcolons =>
    obtain ⟨rfl, rfl⟩ := hcolons
    exact iff_of_false (Option.some_ne_none _) (not_not_intro ⟨[], rest, rfl⟩)
  | case4 c d rest hcolons ih =>
    rw [Option.map_eq_none_iff, ih, @List.infix_cons_iff _ _ c, not_or]
    have hfirst : ¬ [':', ':'] <+: c :: d :: rest := by
      rw [List.cons_prefix_cons, List.cons_prefix_cons]
      exact fun h => hcolons ⟨h.1.symm, h.2.1.symm⟩
    exact (and_iff_right hfirst).symm

/-- The place is the first one: with their first colon, the two end the first pair of colons. -/
theorem no_colons_before (h : cut? t = some (before, after)) :
    ¬ [':', ':'] <:+: before ++ [':'] := by
  fun_induction cut? t generalizing before after with
  | case1 => contradiction
  | case2 => contradiction
  | case3 c d rest hcolons =>
    obtain ⟨rfl, rfl⟩ := Prod.mk.inj (Option.some.inj h)
    simp [List.infix_cons_iff]
  | case4 c d rest hcolons ih =>
    obtain ⟨⟨inner, behind⟩, hinner, hpair⟩ := Option.map_eq_some_iff.mp h
    obtain ⟨rfl, rfl⟩ := Prod.mk.inj hpair
    -- The character right behind `c` is `d`, also where only the first colon is behind it.
    have hrest : d :: rest = (inner ++ [':']) ++ ':' :: behind := by
      rw [List.append_assoc]
      exact eq_append_of_cut? hinner
    have hfirst : ¬ (':' = c ∧ [':'] <+: inner ++ [':']) := by
      rintro ⟨hc, more, hmore⟩
      rw [← hmore] at hrest
      exact hcolons ⟨hc.symm, (List.cons.inj hrest).1⟩
    rw [List.cons_append, List.infix_cons_iff, List.cons_prefix_cons, not_or]
    exact ⟨hfirst, ih hinner⟩

/-! ## Digits -/

/-- The hexadecimal digits. -/
def hexDigits : Text :=
  ['0', '1', '2', '3', '4', '5', '6', '7', '8', '9', 'a', 'b', 'c', 'd', 'e', 'f',
    'A', 'B', 'C', 'D', 'E', 'F']

theorem isHexDigit_iff {c : Char} : isHexDigit c = true ↔ c ∈ hexDigits := by
  -- Both sides are statements about the code point.
  simp only [hexDigits, List.mem_cons, List.not_mem_nil, or_false, ← Char.toNat_inj, isHexDigit,
    Char.isDigit, Bool.or_eq_true, Bool.and_eq_true, decide_eq_true_eq, Char.le_def,
    UInt32.le_iff_toNat_le, ge_iff_le]
  simp only [Char.toNat_val, Char.reduceToNat, UInt32.reduceToNat, Char.reduceVal]
  omega

/-! ## The items of a side -/

/-- The items of a text beside the two colons; the empty text has none. -/
def items (t : Text) : List Text := if t.isEmpty then [] else Text.pieces (· == ':') t

theorem items_eq_pieces (h : t ≠ []) : items t = Text.pieces (· == ':') t :=
  if_neg (mt List.isEmpty_iff.mp h)

theorem sideWidth?_eq (tail : Bool) (t : Text) : sideWidth? tail t = width? tail (items t) := by
  unfold sideWidth? items
  split <;> rfl

theorem nil_mem_items_iff :
    [] ∈ items t ↔ [':'] <+: t ∨ [':'] <:+ t ∨ [':', ':'] <:+: t := by
  by_cases ht : t = []
  · subst ht
    simp [items]
  · rw [items_eq_pieces ht, Text.nil_mem_pieces_iff, or_iff_right ht]

/-! ## Widths -/

section Width

variable {tail : Bool} {item : Text} {list rest : List Text}

theorem width?_cons (hrest : rest ≠ []) :
    width? tail (item :: rest) =
      if isGroup item then (width? tail rest).map (· + 1) else none := by
  cases rest with
  | nil => exact absurd rfl hrest
  | cons next rest => rfl

/-- Where no IPv4 address may end them, all items are treated alike. -/
theorem width?_false_cons (item : Text) (rest : List Text) :
    width? false (item :: rest) =
      if isGroup item then (width? false rest).map (· + 1) else none := by
  cases rest <;> simp [width?]

theorem width?_eq_none_of_nil_mem (h : [] ∈ list) : width? tail list = none := by
  induction list with
  | nil => contradiction
  | cons item rest ih =>
    by_cases hrest : rest = []
    · subst hrest
      obtain rfl := List.mem_singleton.mp h
      cases tail <;> decide
    · rw [width?_cons hrest]
      rcases List.mem_cons.mp h with rfl | hmem
      · exact if_neg Bool.false_ne_true
      · rw [ih hmem]
        exact ite_self none

end Width

end Ipv6

/-! ## Addresses -/

section Address

open Ipv6

variable {t before after : Text}

theorem isIpv6_iff_of_no_colons (hcut : cut? t = none) :
    isIpv6 t = true ↔ width? true (Text.pieces (· == ':') t) = some 8 := by
  simp [isIpv6, hcut]

theorem isIpv6_iff_of_two_colons (hcut : cut? t = some (before, after)) :
    isIpv6 t = true ↔
      ∃ m n, sideWidth? false before = some m ∧ sideWidth? true after = some n ∧ m + n ≤ 7 := by
  cases hm : sideWidth? false before with
  | none => simp [isIpv6, hcut, hm]
  | some m => cases hn : sideWidth? true after <;> simp [isIpv6, hcut, hm, hn]

end Address

end Host

end Pathname
