import Pathname.Text

/-!
# IPv4 addresses

Four decimal numbers from 0 to 255, with dots between them and without leading zeros.

## Contents

- `Ipv4.isOctet`: one number.
- `isIpv4`: the whole address.
-/

namespace Pathname.Host

namespace Ipv4

/-- The value of a text of decimal digits. -/
def value (digits : Text) : Nat := digits.foldl (fun n d => 10 * n + (d.toNat - '0'.toNat)) 0

/-- Whether a text is a number from 0 to 255 in at most three digits, without leading zeros. -/
def isOctet (t : Text) : Bool :=
  !t.isEmpty && decide (t.length ≤ 3) && t.all Char.isDigit && decide (value t ≤ 255) &&
    (t.length == 1 || t.head? != some '0')

end Ipv4

/-- Whether a text is an IPv4 address. -/
def isIpv4 (t : Text) : Bool :=
  let octets := Text.pieces (· == '.') t
  octets.length == 4 && octets.all Ipv4.isOctet

end Pathname.Host
