/-!
Spans of time and points in time, counted in nanoseconds.
-/

namespace DnsClient

/-- A span of time in nanoseconds. -/
abbrev Duration := Nat

/-- A point in time: nanoseconds since a common start. -/
abbrev Instant := Nat

namespace Duration

def ofMillis (n : Nat) : Duration := n * 1000000

def ofSecs (n : Nat) : Duration := n * 1000000000

def toMillis (d : Duration) : Nat := d / 1000000

def toSecs (d : Duration) : Nat := d / 1000000000

def subsecNanos (d : Duration) : Nat := d % 1000000000

end Duration

end DnsClient
