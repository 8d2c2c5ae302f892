import Pathname.Proofs.AddressCounting
import Pathname.Proofs.ReadBack

/-!
# The grammar of addresses

What an address is, said without reference to how it is recognised.

- `Ipv4.IsLiteral`: four numbers from 0 to 255 as they are written in decimal, with dots between
  them.
- `Ipv6.IsRow`: groups with colons between them, of which the last two may be written as an IPv4
  address.
- `Ipv6.IsAddress`: a row of eight groups, or two sides around the only two colons, with at most
  seven groups.
- `address_grammar`: **the main statement**.
-/

namespace Pathname

namespace Host

/-! ## Decimal numbers -/

namespace Ipv4

/-- The decimal text of four numbers from 0 to 255, with dots between them. -/
def IsLiteral (t : Text) : Prop :=
  ∃ numbers : List Nat, numbers.length = 4 ∧ (∀ n ∈ numbers, n ≤ 255) ∧
    t = ['.'].intercalate (numbers.map (Nat.toDigits 10))

theorem digit_lt_of_isDigit {d : Char} (h : d.isDigit = true) : d.toNat - '0'.toNat < 10 := by
  have hhigh : d.toNat ≤ '0'.toNat + 9 := (Char.isDigit_iff_toNat.mp h).2
  omega

theorem digitChar_of_isDigit {d : Char} (h : d.isDigit = true) :
    Nat.digitChar (d.toNat - '0'.toNat) = d := by
  rw [← Char.toNat_inj, Nat.toNat_digitChar_of_lt_ten (digit_lt_of_isDigit h)]
  exact Nat.add_sub_cancel' (Char.isDigit_iff_toNat.mp h).1

/-- A digit behind a number multiplies it by ten. -/
theorem toDigits_concat {d : Char} (n : Nat) (hn : 0 < n) (h : d.isDigit = true) :
    Nat.toDigits 10 (10 * n + (d.toNat - '0'.toNat)) = Nat.toDigits 10 n ++ [d] := by
  have hlt := digit_lt_of_isDigit h
  rw [← Nat.toDigits_append_toDigits (by decide) hn hlt, Nat.toDigits_of_lt_base hlt,
    digitChar_of_isDigit h]

theorem toDigits_ofDigitChars {n : Nat} {digits : Text} (hn : 0 < n)
    (h : digits.all Char.isDigit = true) :
    Nat.toDigits 10 (Nat.ofDigitChars 10 digits n) = Nat.toDigits 10 n ++ digits := by
  induction digits generalizing n with
  | nil => rw [Nat.ofDigitChars_nil, List.append_nil]
  | cons d rest ih =>
    rw [List.all_cons, Bool.and_eq_true] at h
    rw [Nat.ofDigitChars_cons, ih (by omega) h.2, toDigits_concat n hn h.1, List.append_assoc]
    rfl

/-- Digits that do not begin with zero are the decimal text of their value, and so is one digit. -/
theorem toDigits_value {t : Text} (hne : t ≠ []) (h : t.all Char.isDigit = true)
    (hzero : t.length = 1 ∨ t.head? ≠ some '0') : Nat.toDigits 10 (value t) = t := by
  cases t with
  | nil => exact absurd rfl hne
  | cons d rest =>
    rw [List.all_cons, Bool.and_eq_true] at h
    have hfirst : Nat.toDigits 10 (d.toNat - '0'.toNat) = [d] := by
      rw [Nat.toDigits_of_lt_base (digit_lt_of_isDigit h.1), digitChar_of_isDigit h.1]
    have hvalue : value (d :: rest) = Nat.ofDigitChars 10 rest (d.toNat - '0'.toNat) := by
      show Nat.ofDigitChars 10 (d :: rest) 0 = _
      rw [Nat.ofDigitChars_cons, Nat.mul_zero, Nat.zero_add]
    rw [hvalue]
    by_cases hpos : 0 < d.toNat - '0'.toNat
    · rw [toDigits_ofDigitChars hpos h.2, hfirst]
      rfl
    · -- The first digit is zero, so it is the only one.
      have hd : d = '0' := by
        rw [← digitChar_of_isDigit h.1, Nat.eq_zero_of_not_pos hpos]
        rfl
      have hrest : rest = [] := by
        simpa [hd] using hzero
      rw [hrest, Nat.ofDigitChars_nil, hfirst]

theorem isOctet_toDigits : ∀ n ≤ 255, isOctet (Nat.toDigits 10 n) = true := by decide +kernel

theorem isOctet_iff {t : Text} :
    isOctet t = true ↔ value t ≤ 255 ∧ Nat.toDigits 10 (value t) = t := by
  constructor
  · intro h
    simp only [isOctet, Bool.and_eq_true, decide_eq_true_eq, Bool.or_eq_true, Bool.not_eq_true',
      List.isEmpty_eq_false_iff, beq_iff_eq, bne_iff_ne] at h
    obtain ⟨⟨⟨⟨hne, -⟩, hdigits⟩, hvalue⟩, hzero⟩ := h
    exact ⟨hvalue, toDigits_value hne hdigits hzero⟩
  · rintro ⟨hvalue, hdigits⟩
    rw [← hdigits]
    exact isOctet_toDigits (value t) hvalue

theorem isDigit_of_mem_toDigits {n : Nat} {c : Char} (hc : c ∈ Nat.toDigits 10 n) :
    c.isDigit = true :=
  Nat.isDigit_of_mem_toDigits (by decide) (by decide) hc

end Ipv4

theorem isIpv4_iff {t : Text} : isIpv4 t = true ↔ Ipv4.IsLiteral t := by
  unfold isIpv4
  rw [Bool.and_eq_true, beq_iff_eq, List.all_eq_true]
  constructor
  · rintro ⟨hlength, hoctets⟩
    have hnumbers : ((Text.pieces (· == '.') t).map Ipv4.value).map (Nat.toDigits 10) =
        Text.pieces (· == '.') t := by
      rw [List.map_map]
      refine (List.map_congr_left fun octet hoctet => ?_).trans (List.map_id _)
      exact (Ipv4.isOctet_iff.mp (hoctets octet hoctet)).2
    refine ⟨(Text.pieces (· == '.') t).map Ipv4.value, ?_, ?_, ?_⟩
    · rw [List.length_map, hlength]
    · intro n hn
      obtain ⟨octet, hoctet, rfl⟩ := List.mem_map.mp hn
      exact (Ipv4.isOctet_iff.mp (hoctets octet hoctet)).1
    · rw [hnumbers, Text.intercalate_pieces]
  · rintro ⟨numbers, hlength, hnumbers, rfl⟩
    have hpieces : Text.pieces (· == '.') (['.'].intercalate (numbers.map (Nat.toDigits 10))) =
        numbers.map (Nat.toDigits 10) := by
      refine Text.pieces_intercalate rfl ?_ ?_
      · rintro hnil
        rw [List.map_eq_nil_iff.mp hnil] at hlength
        contradiction
      · intro octet hoctet c hc
        obtain ⟨n, -, rfl⟩ := List.mem_map.mp hoctet
        refine beq_eq_false_iff_ne.mpr fun hdot => ?_
        exact absurd (hdot ▸ Ipv4.isDigit_of_mem_toDigits hc) (by decide)
    rw [hpieces]
    refine ⟨by rw [List.length_map, hlength], fun octet hoctet => ?_⟩
    obtain ⟨n, hn, rfl⟩ := List.mem_map.mp hoctet
    exact Ipv4.isOctet_toDigits n (hnumbers n hn)

theorem no_colon_of_isIpv4 {t : Text} (h : isIpv4 t = true) : ':' ∉ t := by
  intro hc
  obtain ⟨octet, hoctet, hmem⟩ : ∃ octet ∈ Text.pieces (· == '.') t, ':' ∈ octet :=
    Text.exists_mem_pieces_iff.mpr ⟨hc, rfl⟩
  rw [isIpv4, Bool.and_eq_true, List.all_eq_true] at h
  rw [← (Ipv4.isOctet_iff.mp (h.2 octet hoctet)).2] at hmem
  exact absurd (Ipv4.isDigit_of_mem_toDigits hmem) (by decide)

namespace Ipv6

/-! ## Rows of groups -/

/-- One to four hexadecimal digits. -/
def IsGroup (t : Text) : Prop := 1 ≤ t.length ∧ t.length ≤ 4 ∧ ∀ c ∈ t, c ∈ hexDigits

/-- Items that stand for a number of groups: groups, and at the end an IPv4 address if `tail` says
so, which stands for two of them. -/
inductive Items (tail : Bool) : List Text → Nat → Prop where
  /-- One group. -/
  | group {t : Text} : IsGroup t → Items tail [t] 1
  /-- An IPv4 address. -/
  | ipv4 {t : Text} : tail = true → Ipv4.IsLiteral t → Items tail [t] 2
  /-- A group before other items. -/
  | cons {t : Text} {rest : List Text} {n : Nat} :
      IsGroup t → Items tail rest n → Items tail (t :: rest) (n + 1)

/-- Items with colons between them. -/
def IsRow (tail : Bool) (t : Text) (n : Nat) : Prop :=
  ∃ items, Items tail items n ∧ t = [':'].intercalate items

/-- What may be beside the two colons: nothing, or a row. -/
def IsSide (tail : Bool) (t : Text) (n : Nat) : Prop := t = [] ∧ n = 0 ∨ IsRow tail t n

/-- The texts that are IPv6 addresses. -/
inductive IsAddress (t : Text) : Prop where
  /-- Eight groups, and no two colons stand together. -/
  | full : ¬ [':', ':'] <:+: t → IsRow true t 8 → IsAddress t
  /-- Two colons stand together at one place only, with at most seven groups around them. -/
  | short {before after : Text} {m n : Nat} : t = before ++ ':' :: ':' :: after →
      (∀ before' after', t = before' ++ ':' :: ':' :: after' → before' = before) →
      IsSide false before m → IsSide true after n → m + n ≤ 7 → IsAddress t

variable {tail : Bool} {t before after : Text} {list : List Text} {m n : Nat}

theorem isGroup_iff : isGroup t = true ↔ IsGroup t := by
  simp only [isGroup, IsGroup, Bool.and_eq_true, decide_eq_true_eq, List.all_eq_true,
    isHexDigit_iff, and_assoc, Bool.not_eq_true', List.isEmpty_eq_false_iff,
    ← List.length_pos_iff]
  rfl

namespace Items

theorem ne_nil (h : Items tail list n) : list ≠ [] := by
  rintro rfl
  cases h

theorem no_colon (h : Items tail list n) : ∀ item ∈ list, ':' ∉ item := by
  have hgroup : ∀ item, IsGroup item → ':' ∉ item :=
    fun item hitem hc => absurd (hitem.2.2 _ hc) (by decide)
  induction h with
  | group hitem => simpa using hgroup _ hitem
  | ipv4 _ hitem => simpa using no_colon_of_isIpv4 (isIpv4_iff.mpr hitem)
  | cons hitem _ ih => simpa using ⟨hgroup _ hitem, ih⟩

theorem width?_eq (h : Items tail list n) : width? tail list = some n := by
  induction h with
  | group hitem => rw [width?, if_pos (isGroup_iff.mpr hitem)]
  | ipv4 htail hitem =>
    have hdot := dot_mem_of_isIpv4 (isIpv4_iff.mpr hitem)
    rw [width?, if_neg fun hgroup => no_dot_of_isGroup hgroup hdot, htail, isIpv4_iff.mpr hitem]
    rfl
  | cons hitem hrest ih =>
    rw [width?_cons hrest.ne_nil, if_pos (isGroup_iff.mpr hitem), ih]
    rfl

theorem of_width? (hne : list ≠ []) (h : width? tail list = some n) : Items tail list n := by
  induction list generalizing n with
  | nil => exact absurd rfl hne
  | cons item rest ih =>
    by_cases hrest : rest = []
    · subst hrest
      rw [width?] at h
      split at h
      · rename_i hgroup
        obtain rfl := Option.some.inj h
        exact .group (isGroup_iff.mp hgroup)
      · split at h
        · rename_i hipv4
          rw [Bool.and_eq_true] at hipv4
          obtain rfl := Option.some.inj h
          exact .ipv4 hipv4.1 (isIpv4_iff.mp hipv4.2)
        · contradiction
    · rw [width?_cons hrest] at h
      split at h
      · rename_i hgroup
        obtain ⟨m, hm, rfl⟩ := Option.map_eq_some_iff.mp h
        exact .cons (isGroup_iff.mp hgroup) (ih hrest hm)
      · contradiction

end Items

theorem width?_pieces_iff :
    width? tail (Text.pieces (· == ':') t) = some n ↔ IsRow tail t n := by
  constructor
  · intro h
    exact ⟨_, .of_width? (Text.pieces_ne_nil _ t) h, (Text.intercalate_pieces ':' t).symm⟩
  · rintro ⟨list, hlist, rfl⟩
    have hpieces : Text.pieces (· == ':') ([':'].intercalate list) = list :=
      Text.pieces_intercalate rfl hlist.ne_nil fun item hitem c hc =>
        beq_eq_false_iff_ne.mpr fun heq => hlist.no_colon item hitem (heq ▸ hc)
    rw [hpieces]
    exact hlist.width?_eq

theorem sideWidth?_iff : sideWidth? tail t = some n ↔ IsSide tail t n := by
  rw [sideWidth?, IsSide, ← width?_pieces_iff]
  by_cases ht : t = []
  · subst ht
    have hnone : width? tail (Text.pieces (· == ':') []) = none :=
      width?_eq_none_of_nil_mem (List.mem_singleton_self [])
    simp [hnone, eq_comm]
  · rw [if_neg (mt List.isEmpty_iff.mp ht)]
    simp [ht]

/-- Two colons stand together nowhere else if no item beside them is empty. -/
theorem colons_unique {before' after' : Text} (hbefore : [] ∉ items before)
    (hafter : [] ∉ items after)
    (h : before ++ ':' :: ':' :: after = before' ++ ':' :: ':' :: after') : before' = before := by
  rw [nil_mem_items_iff, not_or, not_or] at hbefore hafter
  rcases List.append_eq_append_iff.mp h with ⟨between, hlonger, hbehind⟩ |
    ⟨between, hshorter, hbehind⟩
  · -- The other place is further behind: one character further, or two and more.
    match between with
    | [] => rw [hlonger, List.append_nil]
    | [c] =>
      obtain rfl := (List.cons.inj (List.cons.inj hbehind).2).2
      exact absurd ⟨after', rfl⟩ hafter.1
    | c :: d :: between =>
      obtain rfl := (List.cons.inj (List.cons.inj hbehind).2).2
      exact absurd ⟨between, after', by simp⟩ hafter.2.2
  · -- The other place is further in front.
    match between with
    | [] => rw [hshorter, List.append_nil]
    | [c] =>
      obtain rfl := (List.cons.inj hbehind).1
      exact absurd ⟨before', hshorter.symm⟩ hbefore.2.1
    | c :: d :: between =>
      obtain ⟨rfl, hrest⟩ := List.cons.inj hbehind
      obtain ⟨rfl, -⟩ := List.cons.inj hrest
      exact absurd ⟨before', between, by simp [hshorter]⟩ hbefore.2.2

theorem nil_not_mem_items_of_isSide (h : IsSide tail t n) : [] ∉ items t := by
  intro hnil
  have hnone : sideWidth? tail t = none := by
    rw [sideWidth?_eq, width?_eq_none_of_nil_mem hnil]
  exact absurd (hnone.symm.trans (sideWidth?_iff.mpr h)) (Option.some_ne_none n).symm

end Ipv6

section Ipv6

open Ipv6

variable {t : Text}

theorem isAddress_of_isIpv6 (h : isIpv6 t = true) : IsAddress t := by
  rcases hcut : cut? t with _ | ⟨before, after⟩
  · have hrow := (isIpv6_iff_of_no_colons hcut).mp h
    exact .full (cut?_eq_none_iff.mp hcut) (width?_pieces_iff.mp hrow)
  · have ht : t = before ++ ':' :: ':' :: after := eq_append_of_cut? hcut
    obtain ⟨m, n, hm, hn, hcount⟩ := (isIpv6_iff_of_two_colons hcut).mp h
    have hbefore : IsSide false before m := sideWidth?_iff.mp hm
    have hafter : IsSide true after n := sideWidth?_iff.mp hn
    refine .short ht (fun before' after' ht' => ?_) hbefore hafter hcount
    exact colons_unique (nil_not_mem_items_of_isSide hbefore)
      (nil_not_mem_items_of_isSide hafter) (ht.symm.trans ht')

theorem isIpv6_of_isAddress (h : IsAddress t) : isIpv6 t = true := by
  cases h with
  | full hno hrow =>
    exact (isIpv6_iff_of_no_colons (cut?_eq_none_iff.mpr hno)).mpr (width?_pieces_iff.mpr hrow)
  | @short before after m n ht honce hbefore hafter hcount =>
    rcases hcut : cut? t with _ | ⟨first, rest⟩
    · exact absurd ⟨before, after, by simp [ht]⟩ (cut?_eq_none_iff.mp hcut)
    · -- The two colons are found where the grammar has them, as they are nowhere else.
      have hfound : t = first ++ ':' :: ':' :: rest := eq_append_of_cut? hcut
      obtain rfl := honce first rest hfound
      have hrest : rest = after := by
        have := List.append_cancel_left (hfound.symm.trans ht)
        simpa using this
      rw [isIpv6_iff_of_two_colons hcut, hrest]
      exact ⟨m, n, sideWidth?_iff.mpr hbefore, sideWidth?_iff.mpr hafter, hcount⟩

end Ipv6

/-- **Exactly the addresses are recognised.** -/
theorem address_grammar (t : Text) :
    (isIpv6 t = true ↔ Ipv6.IsAddress t) ∧ isIpv6ByCounting t = isIpv6 t ∧
      (isIpv4 t = true ↔ Ipv4.IsLiteral t) :=
  ⟨⟨isAddress_of_isIpv6, isIpv6_of_isAddress⟩, isIpv6ByCounting_eq t, isIpv4_iff⟩

/-- An IPv4 address stands for two groups behind the two colons, and for none in front of them. -/
example : isIpv6 "1::10.0.0.1".toList = true ∧ isIpv6 "10.0.0.1::1".toList = false := by decide

end Host

end Pathname
