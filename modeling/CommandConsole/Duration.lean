import CommandConsole.Binary64.Basic

/-!
# Lengths of time

A length of time is a whole number of nanoseconds below `2^64` seconds. A number of seconds becomes
the nearest such length, and a length becomes the number nearest to its seconds plus the number
nearest to the rest. A clock of whole milliseconds counts a started millisecond as a whole one, and
lets nobody wait for longer than thirty years. That bound is the runtime's own: it has been measured
there, and no setting and no script says anything of it.
-/

namespace CommandConsole

/-- A length of time in nanoseconds. -/
structure Duration where
  nanoseconds : Nat
  deriving DecidableEq, Repr

namespace Duration

def nanosecondsPerSecond : Nat := 1000000000

def nanosecondsPerMillisecond : Nat := 1000000

/-- The first number of seconds that is too long. -/
def secondsLimit : Nat := Nat.pow 2 64

def ofSeconds (n : Nat) : Duration :=
  ⟨n * nanosecondsPerSecond⟩

def ofMilliseconds (n : Nat) : Duration :=
  ⟨n * nanosecondsPerMillisecond⟩

/-- The whole seconds. -/
def seconds (d : Duration) : Nat :=
  d.nanoseconds / nanosecondsPerSecond

/-- The nanoseconds beyond the whole seconds. -/
def subsecond (d : Duration) : Nat :=
  d.nanoseconds % nanosecondsPerSecond

/-- The milliseconds, a started one counted whole. -/
def milliseconds (d : Duration) : Nat :=
  (d.nanoseconds + (nanosecondsPerMillisecond - 1)) / nanosecondsPerMillisecond

/-- The longest wait in milliseconds, thirty years of 365 days. This is the limit of the runtime's
timers as measured, by when longer waits end; what a script asks for is not bounded by it. -/
def longestWait : Nat := 30 * 365 * 86400000

/-- How long a clock in milliseconds waits for this length. -/
def wait (d : Duration) : Nat :=
  min d.milliseconds longestWait

/--
The length nearest to a number of seconds, from a tie the even one. A number below zero, infinite,
too large or none at all has no length.
-/
def ofBinary64? (x : Binary64) : Option Duration :=
  match x with
  | .nan => none
  | .infinite _ => none
  | .finite _ m =>
    let n := roundDiv (m.units * nanosecondsPerSecond) Magnitude.unitsPerOne
    if x.isBelowZero || secondsLimit * nanosecondsPerSecond ≤ n then none else some ⟨n⟩

/-- The sum of two numbers that are not below zero. -/
def addNonneg : Binary64 → Binary64 → Binary64
  | .finite _ a, .finite _ b => .ofRatio false (a.units + b.units) Magnitude.unitsPerOne
  | .nan, _ => .nan
  | _, .nan => .nan
  | _, _ => .infinite false

/-- The number of seconds, from the whole seconds and the rest each rounded by itself. -/
def toBinary64 (d : Duration) : Binary64 :=
  addNonneg (.ofNat d.seconds) (.ofRatio false d.subsecond nanosecondsPerSecond)

@[simp] theorem nanoseconds_ofMilliseconds (n : Nat) :
    (ofMilliseconds n).nanoseconds = n * nanosecondsPerMillisecond := rfl

/-- Whole milliseconds are counted as they are. -/
@[simp] theorem milliseconds_ofMilliseconds (n : Nat) : (ofMilliseconds n).milliseconds = n := by
  simp only [milliseconds, nanoseconds_ofMilliseconds, nanosecondsPerMillisecond]
  omega

end Duration

end CommandConsole
