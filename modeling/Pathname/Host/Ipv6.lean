import Pathname.Host.Ipv4

/-!
# IPv6 addresses

Eight groups of hexadecimal digits with colons between them. The last two groups may be written
as an IPv4 address, and one run of groups may be left out, which leaves two colons in its place.

## Contents

- `Ipv6.width?`: how many groups a list of items stands for.
- `Ipv6.cut?`: the texts around the two colons.
- `isIpv6`: the whole address.
-/

namespace Pathname.Host

namespace Ipv6

/-- Whether a character is a hexadecimal digit. -/
def isHexDigit (c : Char) : Bool :=
  c.isDigit || (decide ('a' ≤ c) && decide (c ≤ 'f')) || (decide ('A' ≤ c) && decide (c ≤ 'F'))

/-- Whether a text is a group: one to four hexadecimal digits. -/
def isGroup (t : Text) : Bool :=
  !t.isEmpty && decide (t.length ≤ 4) && t.all isHexDigit

/-- The number of groups for which items stand: one for each group, and two for an IPv4 address,
which only the last item may be, and only if `tail` says so. -/
def width? (tail : Bool) : List Text → Option Nat
  | [] => some 0
  | [item] =>
    if isGroup item then some 1
    else if tail && isIpv4 item then some 2
    else none
  | item :: next :: rest =>
    if isGroup item then (width? tail (next :: rest)).map (· + 1) else none

/-- The texts before and after the first two colons that stand together. -/
def cut? : Text → Option (Text × Text)
  | [] => none
  | [_] => none
  | c :: d :: rest =>
    if c = ':' ∧ d = ':' then some ([], rest)
    else (cut? (d :: rest)).map fun (before, after) => (c :: before, after)

/-- The number of groups of a text beside the two colons, which may be empty. -/
def sideWidth? (tail : Bool) (t : Text) : Option Nat :=
  if t.isEmpty then some 0 else width? tail (Text.pieces (· == ':') t)

end Ipv6

/-- Whether a text is an IPv6 address: eight groups, or at most seven around two colons. -/
def isIpv6 (t : Text) : Bool :=
  match Ipv6.cut? t with
  | none => Ipv6.width? true (Text.pieces (· == ':') t) == some 8
  | some (before, after) =>
    match Ipv6.sideWidth? false before, Ipv6.sideWidth? true after with
    | some m, some n => decide (m + n ≤ 7)
    | _, _ => false

/-! ## The place of the two colons -/

/-- The two colons lie between the texts around them. -/
theorem Ipv6.eq_append_of_cut? {t before after : Text}
    (h : Ipv6.cut? t = some (before, after)) : t = before ++ ':' :: ':' :: after := by
  fun_induction Ipv6.cut? t generalizing before after with
  | case1 => simp at h
  | case2 => simp at h
  | case3 c d rest hcolons =>
    simp only [Option.some.injEq, Prod.mk.injEq] at h
    obtain ⟨rfl, rfl⟩ := h
    simp [hcolons]
  | case4 c d rest hcolons ih =>
    obtain ⟨⟨inner, rest'⟩, hinner, hpair⟩ := Option.map_eq_some_iff.1 h
    simp only [Prod.mk.injEq] at hpair
    obtain ⟨rfl, rfl⟩ := hpair
    rw [ih hinner, List.cons_append]

end Pathname.Host
