/-!
A supply of random numbers.
-/

namespace DnsClient

/-- Random numbers to be drawn in order. An empty supply yields zeros. -/
abbrev RandomSupply := List UInt16

def RandomSupply.draw : RandomSupply → UInt16 × RandomSupply
  | [] => (0, [])
  | n :: ns => (n, ns)

end DnsClient
