import CommandConsole.Proofs.Binary64.Nearest
import CommandConsole.Proofs.Script.Line
import CommandConsole.Settings.Document

/-!
# The default pause

Admissible settings have a number of seconds to wait where a pause directive gives none. That number
is rounded to the nearest nanosecond, from a tie to the even one, and this is the default pause as
long as it is shorter than `2^64` seconds. Longer ones are admissible too, but they have no length:
the default pause is then one second.
-/

namespace CommandConsole

open Script (isPause parsePause stepOf Step)

namespace Duration

/-- The number of nanoseconds nearest to a magnitude in seconds. -/
def nearestNanoseconds (m : Magnitude) : Nat :=
  roundDiv (m.units * nanosecondsPerSecond) Magnitude.unitsPerOne

theorem nearestEven_nearestNanoseconds (m : Magnitude) :
    NearestEven (m.units / Magnitude.unitsPerOne * 10 ^ 9 : ℚ) (nearestNanoseconds m) := by
  have hnearest := nearestEven_roundDiv (m.units * nanosecondsPerSecond) Binary64.unitsPerOne_pos
  have hfactor : (nanosecondsPerSecond : ℚ) = 10 ^ 9 := by norm_num [nanosecondsPerSecond]
  have hscale : ((m.units * nanosecondsPerSecond : Nat) / Magnitude.unitsPerOne : ℚ) =
      m.units / Magnitude.unitsPerOne * 10 ^ 9 := by
    rw [Nat.cast_mul, mul_div_right_comm, hfactor]
  rw [hscale] at hnearest
  exact hnearest

/-- A number of seconds that is not below zero has a length if its nanoseconds are not too many. -/
theorem ofBinary64?_finite {negative : Bool} {m : Magnitude}
    (hnonneg : (Binary64.finite negative m).isBelowZero = false) :
    ofBinary64? (.finite negative m) =
      if 2 ^ 64 * 10 ^ 9 ≤ nearestNanoseconds m then none else some ⟨nearestNanoseconds m⟩ := by
  have hlimit : secondsLimit * nanosecondsPerSecond = 2 ^ 64 * 10 ^ 9 := by decide
  have hexpand : ofBinary64? (.finite negative m) =
      if (Binary64.finite negative m).isBelowZero ||
        decide (secondsLimit * nanosecondsPerSecond ≤ nearestNanoseconds m) then none
      else some ⟨nearestNanoseconds m⟩ := rfl
  rw [hexpand, hnonneg, hlimit, Bool.false_or]
  by_cases hlong : 2 ^ 64 * 10 ^ 9 ≤ nearestNanoseconds m
  · rw [if_pos hlong, if_pos (decide_eq_true hlong)]
  · rw [if_neg hlong, if_neg (by simpa using hlong)]

/-- Of the numbers of the format, those below `2^64` have no more nanoseconds than fit a length. -/
theorem nearestNanoseconds_lt_iff {m : Magnitude} (h : m.IsProper) :
    nearestNanoseconds m < 2 ^ 64 * 10 ^ 9 ↔ m.units < 2 ^ 64 * Magnitude.unitsPerOne := by
  have hpos := Binary64.unitsPerOne_pos
  obtain ⟨hhigh, hlow⟩ := roundDiv_within (m.units * nanosecondsPerSecond) _ hpos
  rw [← nearestNanoseconds] at hhigh hlow
  constructor
  · intro hlt
    by_contra hge
    have hunits : 2 ^ 64 * Magnitude.unitsPerOne ≤ m.units := Nat.le_of_not_lt hge
    have hle : 2 * (2 ^ 64 * 10 ^ 9) * Magnitude.unitsPerOne ≤
        (2 * nearestNanoseconds m + 1) * Magnitude.unitsPerOne := by
      refine le_trans ?_ hhigh
      rw [nanosecondsPerSecond]
      linarith
    have hcount := Nat.le_of_mul_le_mul_right hle hpos
    omega
  · intro hlt
    -- below `2^64` the format ends with `2^64 - 2^11`
    have hpower : 2 ^ 64 * Magnitude.unitsPerOne = 2 * Magnitude.leastNormal * 2 ^ 1085 := by
      decide +kernel
    have hlast : (2 * Magnitude.leastNormal - 1) * 2 ^ 1085 =
        (2 ^ 64 - 2 ^ 11) * Magnitude.unitsPerOne := by
      decide +kernel
    have hunits := h.units_le (hpower ▸ hlt)
    rw [hlast] at hunits
    have hle : 2 * nearestNanoseconds m * Magnitude.unitsPerOne ≤
        (2 * ((2 ^ 64 - 2 ^ 11) * 10 ^ 9) + 1) * Magnitude.unitsPerOne := by
      refine le_trans hlow ?_
      rw [nanosecondsPerSecond]
      linarith
    have hcount := Nat.le_of_mul_le_mul_right hle hpos
    omega

end Duration

/-- The settings ask for a default pause of `v` seconds, to which `n` nanoseconds are nearest. -/
structure DefaultsToPause (settings : ScriptSettings) (v : ℚ) (n : Nat) : Prop where
  value : settings.defaultPauseSeconds.value? = some v
  nonneg : 0 ≤ v
  nearest : NearestEven (v * 10 ^ 9) n
  /-- The default pause takes these nanoseconds, if they are less than `2^64` seconds. -/
  honoured : n < 2 ^ 64 * 10 ^ 9 → settings.defaultPause = ⟨n⟩
  /-- Otherwise it takes one second. -/
  replaced : 2 ^ 64 * 10 ^ 9 ≤ n → settings.defaultPause = .ofSeconds 1
  /-- Among the numbers of the format, just those below `2^64` are honoured. -/
  short : settings.defaultPauseSeconds.IsProper → (n < 2 ^ 64 * 10 ^ 9 ↔ v < 2 ^ 64)
  /-- The step of a pause directive without a length of its own is a pause of the default length. How
  long the wait for it takes is up to the clock, which ends the longest ones early. -/
  taken : ∀ line cause, isPause settings line = true → parsePause (Text.trim line) = .error cause →
    stepOf settings line = .pause
      (.warning ("Error parsing pause time: " ++ cause.reason ++ ". Using default " ++
        settings.defaultPause.toBinary64.display ++ " second delay.")) settings.defaultPause

/-- Admissible settings, and so the settings of every document that is read, have a default pause of
the nearest number of nanoseconds, unless that is too long. -/
theorem exists_defaultsToPause {settings : Settings}
    (h : settings.validate = .ok () ∨ ∃ text, Settings.ofText text = .ok settings) :
    ∃ v n, DefaultsToPause settings.script v n := by
  have hvalid : settings.validate = .ok () := by
    rcases h with hvalid | ⟨text, htext⟩
    · exact hvalid
    · exact Settings.validate_of_ofText htext
  obtain ⟨-, hfinite, hnonneg, -, -⟩ := settings.validate_eq_ok_iff.mp hvalid
  obtain ⟨negative, m, hm, hvalue⟩ := Binary64.exists_magnitude hfinite hnonneg
  have hlength := Duration.ofBinary64?_finite (hm ▸ hnonneg)
  have hpos : (0 : ℚ) < Magnitude.unitsPerOne := by exact_mod_cast Binary64.unitsPerOne_pos
  have hnonneg : (0 : ℚ) ≤ m.units / Magnitude.unitsPerOne :=
    div_nonneg (Nat.cast_nonneg m.units) hpos.le
  refine ⟨_, Duration.nearestNanoseconds m, hvalue, hnonneg,
    Duration.nearestEven_nearestNanoseconds m, fun hlt => ?_, fun hge => ?_, fun hproper => ?_, ?_⟩
  · rw [ScriptSettings.defaultPause, hm, hlength, if_neg (Nat.not_le_of_lt hlt), Option.getD_some]
  · rw [ScriptSettings.defaultPause, hm, hlength, if_pos hge, Option.getD_none]
  · rw [hm] at hproper
    rw [Duration.nearestNanoseconds_lt_iff hproper, div_lt_iff₀ hpos]
    exact_mod_cast Iff.rfl
  · intro line cause hpause herror
    rw [Script.stepOf_of_isPause hpause, Script.pauseMessage, Script.pauseLength, herror]

theorem exists_defaultsToPause_of_text : ∃ settings,
    Settings.ofText "[script]\ndefault_pause_secs = 0.0015\n" = .ok settings ∧
      settings.script.defaultPause = ⟨1500000⟩ ∧ ∃ v n, DefaultsToPause settings.script v n := by
  have hread : (Settings.ofText "[script]\ndefault_pause_secs = 0.0015\n").map
      (fun settings => settings.script.defaultPause) = .ok ⟨1500000⟩ := by
    decide +kernel
  cases hsettings : Settings.ofText "[script]\ndefault_pause_secs = 0.0015\n" with
  | error cause =>
    rw [hsettings] at hread
    cases hread
  | ok settings =>
    rw [hsettings] at hread
    exact ⟨settings, rfl, Except.ok.inj hread, exists_defaultsToPause (Or.inr ⟨_, hsettings⟩)⟩

/-- Settings with a default pause of `2^64` seconds. -/
def lingering : Settings :=
  { Settings.default with
    script := { ScriptSettings.default with
      defaultPauseSeconds := .finite false ⟨Magnitude.leastNormal, 1086⟩ } }

/-- Settings are read and found admissible whose default pause is not the one they ask for. -/
theorem defaultPause_lingering :
    Settings.ofText "[script]\ndefault_pause_secs = 18446744073709551616.0\n" = .ok lingering ∧
    lingering.validate = .ok () ∧
    lingering.script.defaultPauseSeconds.value? = some ((2 ^ 64 : Nat) : ℚ) ∧
    lingering.script.defaultPause = .ofSeconds 1 ∧
    ¬ NearestEven ((2 ^ 64 : Nat) * 10 ^ 9 : ℚ) lingering.script.defaultPause.nanoseconds := by
  have hunits : Magnitude.units ⟨Magnitude.leastNormal, 1086⟩ = 2 ^ 64 * Magnitude.unitsPerOne := by
    decide +kernel
  have hpos : (Magnitude.unitsPerOne : ℚ) ≠ 0 := by exact_mod_cast Binary64.unitsPerOne_pos.ne'
  have hpause : lingering.script.defaultPause = .ofSeconds 1 := by decide +kernel
  refine ⟨by decide +kernel, by decide +kernel, ?_, hpause, fun hnearest => ?_⟩
  · simp only [lingering, Binary64.value?, hunits, Bool.false_eq_true, if_false, one_mul]
    rw [Nat.cast_mul, mul_div_cancel_right₀ _ hpos]
  · have hexact : NearestEven ((2 ^ 64 : Nat) * 10 ^ 9 : ℚ) (2 ^ 64 * 10 ^ 9) := by
      exact_mod_cast nearestEven_natCast (2 ^ 64 * 10 ^ 9)
    have hsame := hnearest.unique hexact
    rw [hpause] at hsame
    simp [Duration.ofSeconds, Duration.nanosecondsPerSecond] at hsame

end CommandConsole
