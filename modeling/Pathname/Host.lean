import Pathname.Host.Ipv6
import Pathname.Host.RegisteredName

/-!
# Hosts

The host of a server root is an IPv6 address or a registered name. An IPv4 address needs no rule
of its own here, because its numbers are labels of a registered name.

## Contents

- `Host.isValid`: the texts that may name a server.
- `Host.Report`: everything that can be said of a text as a host.
-/

namespace Pathname.Host

/-- Whether a text may name a server. -/
def isValid (t : Text) : Bool := isIpv6 t || isRegisteredName t

/-- What a text is, read as a host. -/
structure Report where
  /-- Whether it is an IPv4 address. -/
  ipv4 : Bool
  /-- Whether it is an IPv6 address. -/
  ipv6 : Bool
  /-- Whether it is a registered name. -/
  registeredName : Bool
  /-- Whether it may name a server. -/
  valid : Bool
  deriving DecidableEq, Repr

/-- The report on a text. -/
def report (t : Text) : Report where
  ipv4 := isIpv4 t
  ipv6 := isIpv6 t
  registeredName := isRegisteredName t
  valid := isValid t

end Pathname.Host
