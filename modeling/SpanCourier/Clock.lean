set_option autoImplicit false

/-! # Time

Instants and durations are natural numbers of nanoseconds: an instant counts from the start of
the clock. The clock names instants up to `Instant.last`, so not every instant that a duration leads
to has a name. A duration is written in the largest unit that it fills, with as many decimal places
as it needs.
-/

namespace SpanCourier

/-- Nanoseconds since the clock started. -/
abbrev Instant := Nat

/-- A length of time in nanoseconds. -/
abbrev Duration := Nat

namespace Duration

/-- Nanoseconds in a microsecond. -/
def microsecond : Duration := 1000

/-- Nanoseconds in a millisecond. -/
def millisecond : Duration := 1000000

/-- Nanoseconds in a second. -/
def second : Duration := 1000000000

/-- A whole number of milliseconds. -/
def ofMillis (n : Nat) : Duration := n * millisecond

/-- Seconds and nanoseconds; nanoseconds beyond a second carry over. -/
def ofSeconds (seconds nanos : Nat) : Duration := seconds * second + nanos

/-- The whole milliseconds in a duration. -/
def toMillis (d : Duration) : Nat := d / millisecond

theorem toMillis_ofMillis (n : Nat) : toMillis (ofMillis n) = n :=
  Nat.mul_div_cancel n (by decide)

/-- The digits of `n`, filled with zeros on the left to `width` places. -/
def padded (width n : Nat) : List Char :=
  let digits := Nat.toDigits 10 n
  List.replicate (width - digits.length) '0' ++ digits

/-- The decimal places of a remainder below `10 ^ places`, without trailing zeros. -/
def decimals (places rest : Nat) : List Char :=
  ((padded places rest).reverse.dropWhile (· = '0')).reverse

/-- A number of units with its decimal places, and the name of the unit. -/
def inUnit (d unit places : Nat) (name : String) : String :=
  let whole := String.ofList (Nat.toDigits 10 (d / unit))
  let part := decimals places (d % unit)
  if part.isEmpty then whole ++ name else whole ++ "." ++ String.ofList part ++ name

/-- A duration in the largest unit that it fills. -/
def text (d : Duration) : String :=
  if second ≤ d then inUnit d second 9 "s"
  else if millisecond ≤ d then inUnit d millisecond 6 "ms"
  else if microsecond ≤ d then inUnit d microsecond 3 "µs"
  else inUnit d 1 0 "ns"

example : text 0 = "0ns" := by decide +kernel
example : text (ofMillis 51) = "51ms" := by decide +kernel
example : text (ofMillis 1001) = "1.001s" := by decide +kernel
example : text (ofMillis 1500) = "1.5s" := by decide +kernel
example : text (ofMillis 3600001) = "3600.001s" := by decide +kernel

end Duration

namespace Instant

/-- The last instant that the clock can name: it keeps whole seconds in a signed 64-bit number. -/
def last : Instant := UInt64.size / 2 * Duration.second - 1

/-- The instant so much later, or the last one if that comes before. -/
def later (t : Instant) (d : Duration) : Instant := min (t + d) last

theorem later_le (t : Instant) (d : Duration) : t.later d ≤ last := Nat.min_le_right ..

theorem le_later {t : Instant} (h : t ≤ last) (d : Duration) : t ≤ t.later d :=
  Nat.le_min.2 ⟨Nat.le_add_right t d, h⟩

end Instant

end SpanCourier
