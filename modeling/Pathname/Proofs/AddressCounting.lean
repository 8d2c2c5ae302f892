import Mathlib.Algebra.Group.Nat.Defs
import Pathname.Proofs.AddressItems

/-!
# IPv6 addresses by counting

Another way to recognise IPv6 addresses: the text is cut at every colon, the empty pieces that two
colons make are mended to one, and the pieces are counted from left to right. Whether two colons
stand together at all is asked apart from that, and so is whether a colon stands alone at an end of
the text.

- `Ipv6.regular_of_no_colons`, `Ipv6.regular_of_two_colons`: what is refused at once are exactly the
  texts with an empty item.
- `Ipv6.groups_of_two_colons`: the pieces that are counted around two colons.
- `Ipv6.count?_eq`, `Ipv6.count?_append`: what the count owes to the widths.
- `isIpv6ByCounting_eq`: **the main statement**, both ways accept the same texts.
-/

namespace Pathname

namespace Host

namespace Ipv6

variable {t before after : Text}

/-! ## Counting -/

/-- The value of a hexadecimal digit. -/
def digitValue (c : Char) : Nat :=
  if c.isDigit then c.toNat - '0'.toNat
  else if 'a' ≤ c then c.toNat - 'a'.toNat + 10
  else c.toNat - 'A'.toNat + 10

/-- The value of a text of hexadecimal digits. -/
def value (digits : Text) : Nat := digits.foldl (fun n c => 16 * n + digitValue c) 0

/-- Whether a text is a group: at most four characters, hexadecimal digits and at least one, with
a value of sixteen bits. -/
def isShort (t : Text) : Bool :=
  decide (t.length ≤ 4) && (!t.isEmpty && t.all isHexDigit) && decide (value t ≤ 0xFFFF)

/-- Pieces without the empty ones at the end. -/
def trimmed (pieces : List Text) : List Text := (pieces.reverse.dropWhile List.isEmpty).reverse

/-- The pieces between the colons without the empty ones at the end. For the groups that two colons
leave out an empty piece stands: after colons at the end it is put there again, and of the two that
colons at the beginning make, one is removed. -/
def groups (t : Text) : List Text :=
  let kept := trimmed (Text.pieces (· == ':') t)
  if (cut? t).isSome then
    if [':', ':'].isSuffixOf t then kept ++ [[]]
    else if [':', ':'].isPrefixOf t then kept.drop 1
    else kept
  else kept

/-- Counts groups on top of those counted before, where `run` is the number of empty ones right
before. One that holds a dot counts twice, if it is the last one. -/
def count? (counted run : Nat) : List Text → Option Nat
  | [] => some counted
  | group :: rest =>
    if group.isEmpty then
      if 1 < run + 1 then none else count? (counted + 1) (run + 1) rest
    else if rest.isEmpty && group.contains '.' then
      if isIpv4 group then count? (counted + 2) 0 rest else none
    else if isShort group then count? (counted + 1) 0 rest
    else none

/-- Whether two colons stand together at more than one place. -/
def isCutTwice (t : Text) : Bool :=
  match cut? t with
  | none => false
  | some (_, after) => (cut? (':' :: after)).isSome

/-- Whether a text begins or ends in one colon only. -/
def hasLoneColon (t : Text) : Bool :=
  ([':'].isPrefixOf t && !([':', ':'].isPrefixOf t)) ||
    ([':'].isSuffixOf t && !([':', ':'].isSuffixOf t))

end Ipv6

/-- Whether a text is an IPv6 address, found by counting. -/
def isIpv6ByCounting (t : Text) : Bool :=
  if Ipv6.isCutTwice t || Ipv6.hasLoneColon t || decide (8 < (Ipv6.groups t).length) then false
  else
    match Ipv6.count? 0 0 (Ipv6.groups t) with
    | none => false
    | some n => decide (n ≤ 8) && (n == 8 || (Ipv6.cut? t).isSome)

namespace Ipv6

variable {t before after : Text}

/-! ## Groups -/

theorem digitValue_lt {c : Char} (h : isHexDigit c = true) : digitValue c < 16 := by
  have hall : ∀ d ∈ hexDigits, digitValue d < 16 := by
    simp [hexDigits, digitValue, Char.isDigit]
  exact hall c (isHexDigit_iff.mp h)

theorem foldl_digitValue_lt {n : Nat} (h : t.all isHexDigit = true) :
    t.foldl (fun n c => 16 * n + digitValue c) n < (n + 1) * 16 ^ t.length := by
  induction t generalizing n with
  | nil => simp
  | cons c rest ih =>
    rw [List.all_cons, Bool.and_eq_true] at h
    have hc : digitValue c < 16 := digitValue_lt h.1
    have hrest := ih h.2 (n := 16 * n + digitValue c)
    rw [List.foldl_cons, List.length_cons, Nat.pow_succ']
    calc _ < (16 * n + digitValue c + 1) * 16 ^ rest.length := hrest
      _ ≤ (n + 1) * 16 * 16 ^ rest.length := Nat.mul_le_mul_right _ (by omega)
      _ = _ := Nat.mul_assoc ..

/-- The value of at most four digits needs no look. -/
theorem isShort_eq (t : Text) : isShort t = isGroup t := by
  have hvalue (hlength : t.length ≤ 4) (hdigits : t.all isHexDigit = true) : value t ≤ 0xFFFF := by
    have hlt : value t < (0 + 1) * 16 ^ t.length := foldl_digitValue_lt hdigits
    have hpow : 16 ^ t.length ≤ 16 ^ 4 := Nat.pow_le_pow_right (by decide) hlength
    omega
  rw [Bool.eq_iff_iff, isShort, isGroup]
  simp only [Bool.and_eq_true, decide_eq_true_eq]
  constructor
  · rintro ⟨⟨hlength, hne, hdigits⟩, -⟩
    exact ⟨⟨hne, hlength⟩, hdigits⟩
  · rintro ⟨⟨hne, hlength⟩, hdigits⟩
    exact ⟨⟨hlength, hne, hdigits⟩, hvalue hlength hdigits⟩

theorem no_dot_of_isGroup (h : isGroup t = true) : '.' ∉ t := by
  rw [isGroup, Bool.and_eq_true] at h
  exact fun hdot => absurd (List.all_eq_true.mp h.2 _ hdot) (by decide)

theorem dot_mem_of_isIpv4 (h : isIpv4 t = true) : '.' ∈ t := by
  by_cases hdot : '.' ∈ t
  · exact hdot
  have hpieces : Text.pieces (· == '.') t = [t] :=
    Text.pieces_eq_singleton fun c hc => beq_eq_false_iff_ne.mpr fun heq => hdot (heq ▸ hc)
  simp [isIpv4, hpieces] at h

/-! ## The count -/

section Count

variable {counted run n : Nat} {group : Text} {list rest : List Text}

theorem count?_cons (hgroup : group ≠ []) (hrest : rest ≠ []) :
    count? counted run (group :: rest) =
      if isGroup group then count? (counted + 1) 0 rest else none := by
  rw [count?, if_neg (mt List.isEmpty_iff.mp hgroup), isShort_eq]
  simp [hrest]

theorem count?_singleton (hgroup : group ≠ []) :
    count? counted run [group] = (width? true [group]).map (counted + ·) := by
  rw [count?, if_neg (mt List.isEmpty_iff.mp hgroup), isShort_eq, width?]
  cases hg : isGroup group with
  | true => simp [no_dot_of_isGroup hg, count?]
  | false =>
    cases hv : isIpv4 group with
    | true => simp [dot_mem_of_isIpv4 hv, count?]
    | false => simp

theorem count?_eq (h : [] ∉ list) :
    count? counted run list = (width? true list).map (counted + ·) := by
  induction list generalizing counted run with
  | nil => rfl
  | cons group rest ih =>
    rw [List.mem_cons, not_or] at h
    have hgroup : group ≠ [] := Ne.symm h.1
    by_cases hrest : rest = []
    · rw [hrest, count?_singleton hgroup]
    · rw [count?_cons hgroup hrest, width?_cons hrest, ih h.2]
      split
      · rw [Option.map_map]
        congr 1
        funext n
        exact Nat.add_right_comm ..
      · rfl

/-- Before an empty piece no address of four numbers counts. -/
theorem count?_append (h : [] ∉ list) (hrest : rest ≠ []) :
    count? counted 0 (list ++ rest) =
      (width? false list).bind fun n => count? (counted + n) 0 rest := by
  induction list generalizing counted with
  | nil => rfl
  | cons group more ih =>
    rw [List.mem_cons, not_or] at h
    have hgroup : group ≠ [] := Ne.symm h.1
    rw [List.cons_append, count?_cons hgroup (List.append_ne_nil_of_right_ne_nil more hrest),
      ih h.2, width?_false_cons]
    split
    · rw [Option.bind_map]
      congr 1
      funext n
      exact congrArg (count? · 0 rest) (Nat.add_right_comm ..)
    · rfl

/-- Every group counts at least once. -/
theorem length_le_of_count? (h : count? counted run list = some n) :
    counted + list.length ≤ n := by
  induction list generalizing counted run with
  | nil => exact Nat.le_of_eq (Option.some.inj h)
  | cons group rest ih =>
    rw [List.length_cons]
    unfold count? at h
    split at h
    · split at h
      · contradiction
      · have := ih h
        omega
    · split at h
      · split at h
        · have := ih h
          omega
        · contradiction
      · split at h
        · have := ih h
          omega
        · contradiction

end Count

/-! ## The pieces that are counted -/

section Groups

variable {ps qs : List Text}

theorem trimmed_concat_nil (ps : List Text) : trimmed (ps ++ [[]]) = trimmed ps := by
  simp [trimmed]

theorem trimmed_append (hne : qs ≠ []) (h : [] ∉ qs) : trimmed (ps ++ qs) = ps ++ qs := by
  obtain ⟨before, hqs⟩ := List.getLast?_eq_some_iff.mp (List.getLast?_eq_some_getLast hne)
  have hlast : qs.getLast hne ≠ [] := fun hnil => h (hnil ▸ List.getLast_mem hne)
  generalize qs.getLast hne = last at hqs hlast
  rw [hqs, ← List.append_assoc, trimmed, List.reverse_append]
  simp [hlast]

theorem trimmed_pieces (h : [] ∉ items t) : trimmed (Text.pieces (· == ':') t) = items t := by
  by_cases ht : t = []
  · subst ht
    rfl
  · rw [items_eq_pieces ht] at h ⊢
    rw [← List.nil_append (Text.pieces _ t), trimmed_append (Text.pieces_ne_nil _ t) h]

theorem groups_of_no_colons (hcut : cut? t = none) (h : [] ∉ items t) : groups t = items t := by
  rw [groups, hcut, trimmed_pieces h]
  rfl

theorem prefix_append_iff {c : Char} (hbefore : before ≠ []) :
    [c] <+: before ++ after ↔ [c] <+: before := by
  cases before with
  | nil => exact absurd rfl hbefore
  | cons d rest => simp [List.cons_prefix_cons]

theorem suffix_append_iff {c : Char} (hafter : after ≠ []) :
    [c] <:+ before ++ after ↔ [c] <:+ after := by
  rw [← List.reverse_prefix, ← List.reverse_prefix, List.reverse_append]
  exact prefix_append_iff (mt List.reverse_eq_nil_iff.mp hafter)

theorem eq_nil_of_begins_in_colon (h : [] ∉ items before) (hcolon : [':'] <+: before ++ after) :
    before = [] := by
  by_cases hbefore : before = []
  · exact hbefore
  · exact absurd (nil_mem_items_iff.mpr (Or.inl ((prefix_append_iff hbefore).mp hcolon))) h

theorem eq_nil_of_ends_in_colon (h : [] ∉ items after) (hcolon : [':'] <:+ before ++ after) :
    after = [] := by
  by_cases hafter : after = []
  · exact hafter
  · exact absurd (nil_mem_items_iff.mpr (Or.inr (Or.inl ((suffix_append_iff hafter).mp hcolon)))) h

theorem isSuffixOf_of_two_colons (hcut : cut? t = some (before, after))
    (hafter : [] ∉ items after) : [':', ':'].isSuffixOf t = after.isEmpty := by
  have ht : t = (before ++ [':', ':']) ++ after := by
    rw [eq_append_of_cut? hcut, List.append_assoc]
    rfl
  rw [Bool.eq_iff_iff, List.isSuffixOf_iff_suffix, List.isEmpty_iff, ht]
  constructor
  · exact fun h => eq_nil_of_ends_in_colon hafter ((List.suffix_cons ':' [':']).trans h)
  · rintro rfl
    exact ⟨before, (List.append_nil _).symm⟩

theorem isPrefixOf_of_two_colons (hcut : cut? t = some (before, after))
    (hbefore : [] ∉ items before) : [':', ':'].isPrefixOf t = before.isEmpty := by
  rw [Bool.eq_iff_iff, List.isPrefixOf_iff_prefix, List.isEmpty_iff, eq_append_of_cut? hcut]
  constructor
  · exact fun h => eq_nil_of_begins_in_colon hbefore (.trans ⟨[':'], rfl⟩ h)
  · rintro rfl
    exact ⟨after, rfl⟩

/-- **What is counted around two colons.** One empty piece stands for the groups left out, wherever
the two colons are. -/
theorem groups_of_two_colons (hcut : cut? t = some (before, after)) (hbefore : [] ∉ items before)
    (hafter : [] ∉ items after) : groups t = items before ++ [] :: items after := by
  have hpieces : Text.pieces (· == ':') t =
      Text.pieces (· == ':') before ++ [] :: Text.pieces (· == ':') after := by
    rw [eq_append_of_cut? hcut, Text.pieces_append_self, ← List.nil_append (':' :: after),
      Text.pieces_append_self]
    rfl
  rw [groups, hcut, hpieces]
  show (if [':', ':'].isSuffixOf t then _ else if [':', ':'].isPrefixOf t then _ else _) = _
  rw [isSuffixOf_of_two_colons hcut hafter, isPrefixOf_of_two_colons hcut hbefore]
  by_cases hend : after = []
  · -- Both empty pieces behind the two colons are dropped, and one is put there again.
    rw [hend]
    show trimmed (_ ++ ([[]] ++ [[]])) ++ _ = _
    rw [← List.append_assoc, trimmed_concat_nil, trimmed_concat_nil, trimmed_pieces hbefore]
    rfl
  · have hkept : trimmed (Text.pieces (· == ':') before ++ [] :: Text.pieces (· == ':') after) =
        Text.pieces (· == ':') before ++ [] :: items after := by
      rw [items_eq_pieces hend] at hafter ⊢
      rw [List.append_cons, trimmed_append (Text.pieces_ne_nil _ after) hafter]
    rw [if_neg (mt List.isEmpty_iff.mp hend), hkept]
    by_cases hbegin : before = []
    · -- The colons at the beginning make two empty pieces.
      rw [hbegin]
      rfl
    · rw [if_neg (mt List.isEmpty_iff.mp hbegin), items_eq_pieces hbegin]

end Groups

/-! ## What is refused at once -/

theorem hasLoneColon_eq_false_iff :
    hasLoneColon t = false ↔
      ([':'] <+: t → [':', ':'] <+: t) ∧ ([':'] <:+ t → [':', ':'] <:+ t) := by
  rw [← List.isPrefixOf_iff_prefix, ← List.isPrefixOf_iff_prefix, ← List.isSuffixOf_iff_suffix,
    ← List.isSuffixOf_iff_suffix, hasLoneColon, Bool.or_eq_false_iff]
  simp only [Bool.and_eq_false_imp, Bool.not_eq_false']

theorem regular_of_no_colons (hcut : cut? t = none) :
    (isCutTwice t || hasLoneColon t) = false ↔ [] ∉ items t := by
  have hno : ¬ [':', ':'] <:+: t := cut?_eq_none_iff.mp hcut
  have hprefix : ¬ [':', ':'] <+: t := fun h => hno h.isInfix
  have hsuffix : ¬ [':', ':'] <:+ t := fun h => hno h.isInfix
  have honce : isCutTwice t = false := by
    rw [isCutTwice, hcut]
  rw [honce, Bool.false_or, hasLoneColon_eq_false_iff, nil_mem_items_iff, not_or, not_or]
  exact ⟨fun ⟨h, h'⟩ => ⟨mt h hprefix, mt h' hsuffix, hno⟩,
    fun ⟨h, h', _⟩ => ⟨fun hc => absurd hc h, fun hc => absurd hc h'⟩⟩

theorem isCutTwice_eq_false_iff (hcut : cut? t = some (before, after)) :
    isCutTwice t = false ↔ ¬ [':', ':'] <:+: ':' :: after := by
  rw [isCutTwice, hcut, ← cut?_eq_none_iff]
  exact Option.isSome_eq_false_iff.trans Option.isNone_iff_eq_none

/-- Before the first two colons an empty piece can only be at the beginning. -/
theorem nil_mem_items_before (hno : ¬ [':', ':'] <:+: before ++ [':']) :
    [] ∈ items before ↔ [':'] <+: before := by
  rw [nil_mem_items_iff]
  refine ⟨?_, Or.inl⟩
  rintro (hbegin | ⟨rest, rfl⟩ | hinside)
  · exact hbegin
  · exact absurd ⟨rest, [], by simp⟩ hno
  · exact absurd (hinside.trans (List.prefix_append before [':']).isInfix) hno

/-- Behind the last two colons an empty piece can only be at the end. -/
theorem nil_mem_items_after (hno : ¬ [':', ':'] <:+: ':' :: after) :
    [] ∈ items after ↔ [':'] <:+ after := by
  rw [nil_mem_items_iff]
  refine ⟨?_, fun h => Or.inr (Or.inl h)⟩
  rintro (⟨rest, rfl⟩ | hend | hinside)
  · exact absurd ⟨[], rest, rfl⟩ hno
  · exact hend
  · exact absurd (hinside.trans (List.suffix_cons ':' after).isInfix) hno

/-- Exactly the texts are not refused at once that have items without an empty one on both sides of
the two colons. -/
theorem regular_of_two_colons (hcut : cut? t = some (before, after)) :
    (isCutTwice t || hasLoneColon t) = false ↔ [] ∉ items before ∧ [] ∉ items after := by
  have ht : t = before ++ ':' :: ':' :: after := eq_append_of_cut? hcut
  have hfirst : before ++ [':'] <+: t := ⟨':' :: after, by rw [ht, List.append_assoc]; rfl⟩
  have hsecond : ':' :: after <:+ t := ⟨before ++ [':'], by rw [ht, List.append_assoc]; rfl⟩
  have hno : ¬ [':', ':'] <:+: before ++ [':'] := no_colons_before hcut
  rw [Bool.or_eq_false_iff, isCutTwice_eq_false_iff hcut, hasLoneColon_eq_false_iff]
  constructor
  · rintro ⟨honce, hbegin, hend⟩
    rw [nil_mem_items_before hno, nil_mem_items_after honce]
    constructor
    · -- Two colons at the beginning would already be among those before the place.
      intro h
      have htwo : [':', ':'] <+: before ++ [':'] := by
        refine List.prefix_of_prefix_length_le (hbegin (ht ▸ h.trans ⟨_, rfl⟩)) hfirst ?_
        simpa using h.length_le
      exact hno htwo.isInfix
    · intro h
      have htwo : [':', ':'] <:+ ':' :: after := by
        refine List.suffix_of_suffix_length_le (hend (h.trans ?_)) hsecond ?_
        · exact (List.suffix_cons ':' after).trans hsecond
        · simpa using h.length_le
      exact honce htwo.isInfix
  · rintro ⟨hbefore, hafter⟩
    refine ⟨?_, fun h => ?_, fun h => ?_⟩
    · rw [List.infix_cons_iff, not_or]
      rw [nil_mem_items_iff, not_or, not_or] at hafter
      exact ⟨fun h => hafter.1 (List.cons_prefix_cons.mp h).2, hafter.2.2⟩
    · obtain rfl := eq_nil_of_begins_in_colon hbefore (ht ▸ h)
      exact ⟨after, ht.symm⟩
    · rw [ht, List.append_cons, List.append_cons] at h
      obtain rfl := eq_nil_of_ends_in_colon hafter h
      exact ⟨before, ht.symm⟩

/-! ## Both ways -/

theorem count?_groups_of_two_colons (hcut : cut? t = some (before, after))
    (hbefore : [] ∉ items before) (hafter : [] ∉ items after) :
    count? 0 0 (groups t) =
      (width? false (items before)).bind fun m =>
        (width? true (items after)).map fun n => m + 1 + n := by
  rw [groups_of_two_colons hcut hbefore hafter,
    count?_append hbefore (List.cons_ne_nil [] (items after))]
  congr 1
  funext m
  rw [Nat.zero_add]
  -- One empty piece in a row counts, as one group.
  show count? (m + 1) 1 (items after) = _
  exact count?_eq hafter

end Ipv6

section Both

open Ipv6

variable {t before after : Text}

theorem isIpv6ByCounting_of_irregular (h : ¬ (isCutTwice t || hasLoneColon t) = false) :
    isIpv6ByCounting t = false := by
  rw [isIpv6ByCounting, eq_true_of_ne_false h]
  rfl

/-- Texts of too many groups are refused by their count as well. -/
theorem isIpv6ByCounting_iff_of_regular (h : (isCutTwice t || hasLoneColon t) = false) :
    isIpv6ByCounting t = true ↔
      ∃ n, count? 0 0 (groups t) = some n ∧ n ≤ 8 ∧ (n = 8 ∨ (cut? t).isSome) := by
  rw [isIpv6ByCounting, h, Bool.false_or]
  cases hcount : count? 0 0 (groups t) with
  | none => simp
  | some n =>
    have hlength : 0 + (groups t).length ≤ n := length_le_of_count? hcount
    by_cases hmany : 8 < (groups t).length
    · have hn : ¬ n ≤ 8 := by omega
      simp [hmany, hn]
    · simp [hmany]

theorem isIpv6ByCounting_of_no_colons (hcut : cut? t = none) :
    isIpv6ByCounting t = isIpv6 t := by
  rw [Bool.eq_iff_iff, isIpv6_iff_of_no_colons hcut]
  by_cases hitems : [] ∈ items t
  · have hirregular := mt (regular_of_no_colons hcut).mp (not_not_intro hitems)
    have hne : t ≠ [] := by
      rintro rfl
      contradiction
    rw [isIpv6ByCounting_of_irregular hirregular, ← items_eq_pieces hne,
      width?_eq_none_of_nil_mem hitems]
    simp
  · have hregular := (regular_of_no_colons hcut).mpr hitems
    rw [isIpv6ByCounting_iff_of_regular hregular, groups_of_no_colons hcut hitems,
      count?_eq hitems, hcut]
    by_cases ht : t = []
    · subst ht
      decide
    · rw [items_eq_pieces ht]
      simp

theorem isIpv6ByCounting_of_two_colons (hcut : cut? t = some (before, after)) :
    isIpv6ByCounting t = isIpv6 t := by
  rw [Bool.eq_iff_iff, isIpv6_iff_of_two_colons hcut, sideWidth?_eq, sideWidth?_eq]
  by_cases hbefore : [] ∈ items before
  · have hirregular := mt (regular_of_two_colons hcut).mp fun h => h.1 hbefore
    rw [isIpv6ByCounting_of_irregular hirregular, width?_eq_none_of_nil_mem hbefore]
    simp
  by_cases hafter : [] ∈ items after
  · have hirregular := mt (regular_of_two_colons hcut).mp fun h => h.2 hafter
    rw [isIpv6ByCounting_of_irregular hirregular, width?_eq_none_of_nil_mem hafter]
    simp
  · have hregular := (regular_of_two_colons hcut).mpr ⟨hbefore, hafter⟩
    rw [isIpv6ByCounting_iff_of_regular hregular, count?_groups_of_two_colons hcut hbefore hafter,
      hcut]
    -- The piece that stands for the groups left out is counted as well.
    constructor
    · rintro ⟨counted, hcount, hle, -⟩
      obtain ⟨m, hm, hcount⟩ := Option.bind_eq_some_iff.mp hcount
      obtain ⟨n, hn, rfl⟩ := Option.map_eq_some_iff.mp hcount
      exact ⟨m, n, hm, hn, by omega⟩
    · rintro ⟨m, n, hm, hn, hle⟩
      refine ⟨m + 1 + n, ?_, by omega, Or.inr rfl⟩
      rw [hm, hn]
      rfl

end Both

/-- **Counting accepts the same texts.** -/
theorem isIpv6ByCounting_eq (t : Text) : isIpv6ByCounting t = isIpv6 t := by
  rcases hcut : Ipv6.cut? t with _ | ⟨before, after⟩
  · exact isIpv6ByCounting_of_no_colons hcut
  · exact isIpv6ByCounting_of_two_colons hcut

end Host

end Pathname
