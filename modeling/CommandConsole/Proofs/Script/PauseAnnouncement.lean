import CommandConsole.Proofs.Binary64.Canonical
import CommandConsole.Proofs.Script.Ending
import CommandConsole.Proofs.Script.PauseLength

/-!
# The announcement of a pause

A pause is announced with the number of its seconds, which is made of its length and not of the text
of the directive: the whole seconds and the rest are rounded each by itself, and so is their sum.
What is announced is always a pause of the same length. It is the text of the directive if that is
written canonically and the two roundings in a row come to the number of the format nearest to it,
as they do below one second and for multiples of a 512th of a second, but not in general.
-/

namespace CommandConsole

open Binary64 (Denotes IsCanonical decimalText decimalValue)

namespace Duration

variable {d : Duration} {f m : Magnitude}

/-- The number of seconds of a length is rounded twice: the rest first, and then the sum. -/
structure RoundedTwice (d : Duration) (f m : Magnitude) : Prop where
  rest : f.IsNearest (d.subsecond / 10 ^ 9)
  sum : m.IsNearest (d.seconds + f.value)
  eq : d.toBinary64 = .finite false m

theorem seconds_add_subsecond (d : Duration) :
    (d.seconds + d.subsecond / 10 ^ 9 : ℚ) = d.nanoseconds / 10 ^ 9 := by
  have hsplit : d.seconds * 10 ^ 9 + d.subsecond = d.nanoseconds := Nat.div_add_mod' _ _
  rw [← hsplit, Script.cast_nanoseconds]

theorem subsecond_le (d : Duration) : (d.subsecond / 10 ^ 9 : ℚ) ≤ 1 - 1 / 10 ^ 9 := by
  have hlt : d.subsecond < 10 ^ 9 := Nat.mod_lt _ (by decide)
  have hcast : (d.subsecond + 1 : ℚ) ≤ 10 ^ 9 := by exact_mod_cast hlt
  rw [le_sub_iff_add_le, ← add_div, div_le_one (by norm_num)]
  exact hcast

/-- A natural below `2 ^ 53` is a number of the format. -/
theorem exists_ofNat_eq {s : Nat} (hs : s < 2 ^ 53) :
    ∃ a : Magnitude, Binary64.ofNat s = .finite false a ∧ a.value = s := by
  have hlt : ((s : Nat) / (1 : Nat) : ℚ) < 2 ^ 53 := by
    rw [Nat.cast_one, div_one]
    exact_mod_cast hs
  obtain ⟨a, ha⟩ := Magnitude.exists_isNearest (b := 53) (by positivity) (by decide) hlt
  refine ⟨a, ?_, ?_⟩
  · rw [Binary64.ofNat]
    exact Binary64.ofRatio_of_isNearest Nat.one_pos ha
  · have hfits : (s / (1 : Nat) : ℚ) = s / 2 ^ 0 := by rw [Nat.cast_one, pow_zero]
    rw [ha.value_eq_of_fits (Nat.zero_le _) hfits hs, Nat.cast_one, div_one]

/-- Adding two numbers rounds their sum. -/
theorem addNonneg_of_isNearest {a b : Magnitude} (hm : m.IsNearest (a.value + b.value)) :
    addNonneg (.finite false a) (.finite false b) = .finite false m := by
  have hsum : m.IsNearest ((a.units + b.units : Nat) / Magnitude.unitsPerOne) := by
    rw [Nat.cast_add, add_div]
    exact hm
  rw [addNonneg]
  exact Binary64.ofRatio_of_isNearest Binary64.unitsPerOne_pos hsum

/-- The rest of a length is rounded to a number below one second. -/
theorem value_rest_lt (hf : f.IsNearest (d.subsecond / 10 ^ 9)) :
    |f.value - d.subsecond / 10 ^ 9| ≤ 1 / 2 ^ 54 ∧ f.value < 1 := by
  have hle := d.subsecond_le
  have hnear := hf.abs_value_sub_le (b := 0) (lt_of_le_of_lt hle (by norm_num))
  rw [pow_zero] at hnear
  refine ⟨hnear, ?_⟩
  have hhigh := (abs_le.mp hnear).2
  norm_num at hhigh hle ⊢
  linarith

section Short

variable (hd : d.nanoseconds < 2 ^ 23 * 10 ^ 9)

include hd

theorem seconds_lt : d.seconds < 2 ^ 23 := by
  rw [seconds, nanosecondsPerSecond]
  omega

theorem sum_lt (hf : f.IsNearest (d.subsecond / 10 ^ 9)) : d.seconds + f.value < 2 ^ 23 := by
  have hseconds : (d.seconds + 1 : ℚ) ≤ 2 ^ 23 := by exact_mod_cast seconds_lt hd
  have hrest := (value_rest_lt hf).2
  linarith

theorem exists_roundedTwice : ∃ f m, RoundedTwice d f m := by
  have hrest : (d.subsecond / 10 ^ 9 : ℚ) < 2 ^ 0 := lt_of_le_of_lt d.subsecond_le (by norm_num)
  obtain ⟨f, hf⟩ := Magnitude.exists_isNearest (by positivity) (by decide) hrest
  have hnonneg : (0 : ℚ) ≤ d.seconds + f.value := add_nonneg (Nat.cast_nonneg _) f.value_nonneg
  obtain ⟨m, hm⟩ := Magnitude.exists_isNearest hnonneg (by decide) (sum_lt hd hf)
  obtain ⟨a, ha, hvalue⟩ := exists_ofNat_eq ((seconds_lt hd).trans (by norm_num))
  have hratio : Binary64.ofRatio false d.subsecond nanosecondsPerSecond = .finite false f := by
    refine Binary64.ofRatio_of_isNearest (by decide) ?_
    rw [show ((nanosecondsPerSecond : Nat) : ℚ) = 10 ^ 9 by norm_num [nanosecondsPerSecond]]
    exact hf
  refine ⟨f, m, hf, hm, ?_⟩
  rw [toBinary64, ha, hratio]
  exact addNonneg_of_isNearest (hvalue ▸ hm)

/-- The two errors together are less than half a nanosecond. -/
theorem RoundedTwice.abs_sub_lt (h : RoundedTwice d f m) :
    |m.value - d.nanoseconds / 10 ^ 9| < 1 / (2 * 10 ^ 9) := by
  have hrest := (value_rest_lt h.rest).1
  have hsum := h.sum.abs_value_sub_le (sum_lt hd h.rest)
  rw [← d.seconds_add_subsecond]
  calc |m.value - (d.seconds + d.subsecond / 10 ^ 9)|
      = |(m.value - (d.seconds + f.value)) + (f.value - d.subsecond / 10 ^ 9)| := by
        congr 1
        ring
    _ ≤ |m.value - (d.seconds + f.value)| + |f.value - d.subsecond / 10 ^ 9| := abs_add_le _ _
    _ ≤ 2 ^ 23 / 2 ^ 54 + 1 / 2 ^ 54 := add_le_add hsum hrest
    _ < 1 / (2 * 10 ^ 9) := by norm_num

theorem RoundedTwice.value_lt (h : RoundedTwice d f m) : m.value < 2 ^ 23 := by
  have hbelow : (d.nanoseconds + 1 : ℚ) / 10 ^ 9 ≤ 2 ^ 23 := by
    rw [div_le_iff₀ (by norm_num)]
    exact_mod_cast hd
  have hhigh := (abs_lt.mp (h.abs_sub_lt hd)).2
  rw [add_div] at hbelow
  norm_num at hhigh hbelow ⊢
  linarith

/-- The number of seconds of a length has that length. -/
theorem ofBinary64?_toBinary64 : ofBinary64? d.toBinary64 = some d := by
  obtain ⟨f, m, h⟩ := exists_roundedTwice hd
  rw [h.eq]
  exact ofBinary64?_of_abs_lt rfl (hd.trans (by norm_num)) (h.abs_sub_lt hd)

end Short

/-- Where the rest is not moved, the sum is rounded only once. -/
theorem RoundedTwice.isNearest_of_exact (h : RoundedTwice d f m)
    (hexact : d.seconds = 0 ∨ 5 ^ 9 ∣ d.subsecond) : m.IsNearest (d.nanoseconds / 10 ^ 9) := by
  rw [← d.seconds_add_subsecond]
  rcases hexact with hzero | ⟨count, hcount⟩
  · have hsum := h.sum
    rw [hzero, Nat.cast_zero, zero_add] at hsum ⊢
    have hself : f.IsNearest f.value := ⟨f.value_nonneg, h.rest.proper, Magnitude.contains_value⟩
    rw [hsum.unique hself]
    exact h.rest
  · -- the rest counts 512ths of a second, which takes nine binary digits
    have hlt : d.subsecond < 10 ^ 9 := Nat.mod_lt _ (by decide)
    have hfits : (d.subsecond / 10 ^ 9 : ℚ) = count / 2 ^ 9 := by
      rw [hcount, show (10 : ℚ) ^ 9 = 5 ^ 9 * 2 ^ 9 by norm_num]
      push_cast
      field_simp
      ring
    have hexact := h.rest.value_eq_of_fits (by decide) hfits (by omega)
    rw [← hexact]
    exact h.sum

end Duration

namespace Script

/-- Comments and pauses are marked as they are by default. -/
structure DefaultMarks (settings : ScriptSettings) : Prop where
  comment : settings.commentPrefix = ScriptSettings.default.commentPrefix
  pause : settings.pauseDirective = ScriptSettings.default.pauseDirective

/-- The line with a pause of a number of seconds. -/
def pauseOf (text : String) : String :=
  "pause(" ++ text ++ ")"

/-- The message about a pause with a number of seconds. -/
def pausingFor (text : String) : Message :=
  .information ("Pausing for " ++ text ++ " seconds...")

/-- A pause with a text is announced with another one, and lasts for a length of time. -/
structure Announces (text shown : String) (length : Duration) : Prop where
  /-- What a script does with the line. -/
  step : ∀ {settings : ScriptSettings}, DefaultMarks settings →
    stepOf settings (pauseOf text) = .pause (pausingFor shown) length
  /-- Wherever the line stands in a script, it adds just the announcement to the log. -/
  line : ∀ {α : Type} {x : Executor α} {s : Session α} (flight : Flight) (rest : List String),
    DefaultMarks s.settings → s.cancelled = false → ∃ t : Session α,
      Session.runLines x none flight (pauseOf text :: rest) s =
        Session.runLines x none flight rest t ∧ t.log = s.log ++ [.shown (pausingFor shown)]
  /-- A script of that line alone shows the announcement and that it is over. -/
  run : ∀ {α : Type} {x : Executor α} {s : Session α}, s.Sound → s.isRunning = false →
    DefaultMarks s.settings → ∃ t : Session α,
      s.run x (.lines [pauseOf text]) = some (.completed 0, t) ∧
        t.log = s.log ++ [.shown (pausingFor shown),
          .shown (.success "Script execution completed")]

section Directive

variable {text : String} {settings : ScriptSettings}

theorem toList_pauseOf (text : String) :
    (pauseOf text).toList = 'p' :: ("ause(".toList ++ text.toList) ++ [')'] := by
  simp [pauseOf]

theorem trim_pauseOf (text : String) : Text.trim (pauseOf text) = pauseOf text := by
  have hfirst : ¬ Text.isBlankChar 'p' = true := by decide
  have hlast : ¬ Text.isBlankChar ')' = true := by decide
  have hchars : Text.trimChars (pauseOf text).toList = (pauseOf text).toList := by
    rw [toList_pauseOf, Text.trimChars_eq_rdropWhile, List.cons_append,
      List.dropWhile_cons_of_neg hfirst, ← List.cons_append, List.rdropWhile_concat_neg _ _ _ hlast]
  rw [Text.trim, hchars, String.ofList_toList]

theorem isPause_pauseOf (h : DefaultMarks settings) (text : String) :
    isPause settings (pauseOf text) = true := by
  have hne : pauseOf text ≠ "" := by
    intro hempty
    have hnil := congrArg String.toList hempty
    rw [toList_pauseOf] at hnil
    cases hnil
  have hpause : startsWithMark "pause(" (pauseOf text) = true :=
    startsWithMark_iff.mpr ⟨by decide, text.toList ++ [')'], by simp [pauseOf]⟩
  have hcomment : startsWithMark "//" (pauseOf text) = false := by
    rw [Bool.eq_false_iff, ne_eq, startsWithMark_iff, toList_pauseOf]
    rintro ⟨-, rest, hrest⟩
    cases hrest
  have hmarks : settings.commentPrefix = "//" ∧ settings.pauseDirective = "pause(" := ⟨h.1, h.2⟩
  simp only [isPause, trim_pauseOf, hmarks.1, hmarks.2, hpause, hcomment]
  simpa using hne

/-- The number of seconds of the line is what it gives between its parentheses. -/
theorem parsePause_pauseOf (htext : ∀ c ∈ text.toList, Binary64.isDecimalChar c = true)
    {x : Binary64} (hx : Binary64.parse? text = some x) {d : Duration}
    (hd : Duration.ofBinary64? x = some d) : parsePause (pauseOf text) = .ok d := by
  have hline : pauseOf text = "pause" ++ "(" ++ ("" ++ text ++ "") ++ ")" ++ "" := by
    rw [← String.toList_inj, toList_pauseOf]
    simp
  rw [hline]
  exact parsePause_of_decimal (by decide) (by decide) (by decide) (by decide) htext "" hx hd

theorem stepOf_pauseOf (h : DefaultMarks settings) {d : Duration}
    (hparse : parsePause (pauseOf text) = .ok d) :
    stepOf settings (pauseOf text) = .pause (pausingFor d.toBinary64.display) d := by
  rw [stepOf_of_isPause (isPause_pauseOf h text), pauseMessage, pauseLength, trim_pauseOf, hparse]
  rfl

section Session

variable {α : Type} {x : Executor α} {s : Session α} {d : Duration}

theorem runLines_pauseOf (flight : Flight) (rest : List String) (hmarks : DefaultMarks s.settings)
    (hfree : s.cancelled = false) (hparse : parsePause (pauseOf text) = .ok d) :
    ∃ t : Session α, Session.runLines x none flight (pauseOf text :: rest) s =
        Session.runLines x none flight rest t ∧
      t.log = s.log ++ [.shown (pausingFor d.toBinary64.display)] := by
  obtain ⟨now, ties, hpass⟩ :=
    Session.runLines_pause_of_not_cancelled rest hfree (stepOf_pauseOf hmarks hparse)
  refine ⟨_, hpass, ?_⟩
  rw [Session.log_clocked, Session.log_note, Session.log_note]
  simp [Happening.events]

theorem run_pauseOf (hsound : s.Sound) (hidle : s.isRunning = false)
    (hmarks : DefaultMarks s.settings) (hparse : parsePause (pauseOf text) = .ok d) :
    ∃ t : Session α, s.run x (.lines [pauseOf text]) = some (.completed 0, t) ∧
      t.log = s.log ++ [.shown (pausingFor d.toBinary64.display),
        .shown (.success "Script execution completed")] := by
  let source : Source := .lines [pauseOf text]
  have hdeparted : (s.departed source).log = s.log :=
    (Session.log_note _ _).trans (List.append_nil _)
  obtain ⟨t, hpass, hlog⟩ := runLines_pauseOf (x := x) (s := s.departed source)
    (s.departure source) [] hmarks rfl hparse
  have hend : Session.runLines x none (s.departure source) [] t =
      some (t.finish (s.departure source) (.completed 0)) := rfl
  refine ⟨_, hsound.run_eq_some hidle rfl (hpass.trans hend), ?_⟩
  have hfinished : (t.finish (s.departure source) (.completed 0)).log =
      t.log ++ [.shown (.success "Script execution completed")] :=
    Session.log_note _ _
  rw [hfinished, hlog, hdeparted, List.append_assoc]
  rfl

end Session

/-- A pause is announced with the number of seconds of its length. -/
theorem announces_of_parsePause {d : Duration} (hparse : parsePause (pauseOf text) = .ok d) :
    Announces text d.toBinary64.display d where
  step hmarks := stepOf_pauseOf hmarks hparse
  line flight rest hmarks hfree := runLines_pauseOf flight rest hmarks hfree hparse
  run hsound hidle hmarks := run_pauseOf hsound hidle hmarks hparse

end Directive

/-- The number of seconds of a length is announced for it. -/
theorem announces_display {d : Duration} (hd : d.nanoseconds < 2 ^ 23 * 10 ^ 9) :
    Announces d.toBinary64.display d.toBinary64.display d := by
  obtain ⟨f, m, htwice⟩ := Duration.exists_roundedTwice hd
  have hlength := Duration.ofBinary64?_toBinary64 hd
  rw [htwice.eq] at hlength
  obtain ⟨decimal, hwrites, -⟩ := Binary64.writes_display false htwice.sum.proper
  have hparse := parsePause_pauseOf (Binary64.isDecimalChar_of_writes hwrites)
    (Binary64.parse?_display htwice.sum.proper) hlength
  rw [← htwice.eq] at hparse
  exact announces_of_parsePause hparse

/-- The number of seconds that is announced for a length is close to it. -/
theorem exists_denotes_display {d : Duration} (hd : d.nanoseconds < 2 ^ 23 * 10 ^ 9) :
    ∃ v, Denotes d.toBinary64.display v ∧ |v - d.nanoseconds / 10 ^ 9| < 1 / 10 ^ 9 := by
  obtain ⟨f, m, htwice⟩ := Duration.exists_roundedTwice hd
  obtain ⟨decimal, hwrites, hnearest⟩ := Binary64.writes_display false htwice.sum.proper
  rw [htwice.eq]
  refine ⟨decimal.value, ⟨false, decimal, hwrites, rfl⟩, ?_⟩
  have hshown := hnearest.abs_value_sub_le_of_value_lt (htwice.value_lt hd)
  have hrounded := htwice.abs_sub_lt hd
  calc |decimal.value - d.nanoseconds / 10 ^ 9|
      = |(m.value - d.nanoseconds / 10 ^ 9) - (m.value - decimal.value)| := by
        congr 1
        ring
    _ ≤ |m.value - d.nanoseconds / 10 ^ 9| + |m.value - decimal.value| := abs_sub _ _
    _ < 1 / (2 * 10 ^ 9) + 2 ^ 23 / 2 ^ 54 := add_lt_add_of_lt_of_le hrounded hshown
    _ < 1 / 10 ^ 9 := by norm_num

/-- How a pause is announced that was written canonically. -/
structure AnnouncedAs (whole fraction : List Char) (shown : String) (length : Duration) : Prop where
  /-- The pause lasts for the number of seconds that was written. -/
  exact : (length.nanoseconds / 10 ^ 9 : ℚ) = decimalValue whole fraction
  announces : Announces (String.ofList (decimalText whole fraction)) shown length
  /-- Written in place of the text, what is shown is announced the same, for the same pause. -/
  again : Announces shown shown length
  /-- What is shown is less than a nanosecond away from what was written. -/
  near : ∃ v, Denotes shown v ∧ |v - decimalValue whole fraction| < 1 / 10 ^ 9
  /-- The text itself is shown if reading it gives the number of seconds of the length. -/
  faithful : shown = String.ofList (decimalText whole fraction) ↔
    Binary64.parse? (String.ofList (decimalText whole fraction)) = some length.toBinary64
  /-- That is so below one second, and for multiples of a 512th of a second. -/
  short : whole = ['0'] ∨ 5 ^ 9 ∣ length.nanoseconds →
    shown = String.ofList (decimalText whole fraction)

/-- Each canonical decimal with at most nine fractional digits, below `2 ^ 23`, is announced as a
number of seconds for the same pause. -/
theorem exists_announcedAs {whole fraction : List Char} (h : IsCanonical whole fraction)
    (hplaces : fraction.length ≤ 9) (hlt : Nat.ofDigitChars 10 whole 0 < 2 ^ 23) :
    ∃ shown length, AnnouncedAs whole fraction shown length := by
  obtain ⟨n, hn, hvalue⟩ := Binary64.exists_eq_decimalValue h hplaces hlt
  obtain ⟨nearest, hnearest⟩ := exists_isNearest_nanoseconds hn
  obtain ⟨f, m, htwice⟩ := Duration.exists_roundedTwice (d := ⟨n⟩) hn
  have hread := Binary64.parse?_decimalText h (hvalue ▸ hnearest)
  have hdisplay := Binary64.display_of_isNearest h hplaces hlt (hvalue ▸ hnearest)
  obtain ⟨decimal, hwrites, -⟩ := Binary64.writes_decimalText h
  have hchars : ∀ c ∈ (String.ofList (decimalText whole fraction)).toList,
      Binary64.isDecimalChar c = true := by
    rw [String.toList_ofList]
    exact Binary64.isDecimalChar_of_writes hwrites
  have hparse := parsePause_pauseOf hchars hread (ofBinary64?_of_isNearest hn rfl hnearest)
  have hfaithful : (Duration.toBinary64 ⟨n⟩).display = String.ofList (decimalText whole fraction) ↔
      Binary64.parse? (String.ofList (decimalText whole fraction)) =
        some (Duration.toBinary64 ⟨n⟩) := by
    constructor
    · intro hshown
      rw [← hshown, htwice.eq]
      exact Binary64.parse?_display htwice.sum.proper
    · intro hsame
      rw [hread] at hsame
      rw [← Option.some_inj.mp hsame, hdisplay]
  have hnear := exists_denotes_display (d := ⟨n⟩) hn
  rw [hvalue] at hnear
  refine ⟨_, _, hvalue, announces_of_parsePause hparse, announces_display hn, hnear, hfaithful, ?_⟩
  intro hshort
  rw [hfaithful, hread, htwice.eq]
  have hexact : (⟨n⟩ : Duration).seconds = 0 ∨ 5 ^ 9 ∣ (⟨n⟩ : Duration).subsecond := by
    rcases hshort with rfl | hdvd
    · have hone := Binary64.decimalValue_lt_one h
      rw [← hvalue, div_lt_one (by norm_num)] at hone
      exact Or.inl (Nat.div_eq_of_lt (by exact_mod_cast hone))
    · exact Or.inr ((Nat.dvd_mod_iff (by decide)).mpr hdvd)
  rw [hnearest.unique (htwice.isNearest_of_exact hexact)]

theorem exists_announcedAs_milliseconds :
    (IsCanonical "1013".toList "125".toList ∧ "125".toList.length ≤ 9 ∧
      Nat.ofDigitChars 10 "1013".toList 0 < 2 ^ 23) ∧
    ∃ shown length, AnnouncedAs "1013".toList "125".toList shown length := by
  have hcanonical : IsCanonical "1013".toList "125".toList :=
    ⟨List.all_eq_true.mp (by decide), by decide, by decide, List.all_eq_true.mp (by decide),
      by decide⟩
  exact ⟨⟨hcanonical, by decide, by decide⟩,
    exists_announcedAs hcanonical (by decide) (by decide)⟩

/-- A pause of 1.0131 seconds is announced with another number than the one that was written. -/
theorem run_pause_announced_longer :
    (IsCanonical "1".toList "0131".toList ∧ "0131".toList.length ≤ 9 ∧
      Nat.ofDigitChars 10 "1".toList 0 < 2 ^ 23 ∧
      decimalText "1".toList "0131".toList = "1.0131".toList) ∧
    DefaultMarks ScriptSettings.default ∧ ∃ t,
      (Session.new () ScriptSettings.default fun _ => none).run Session.restless
        (.lines [pauseOf "1.0131"]) = some (.completed 0, t) ∧
      t.log = [.shown (pausingFor "1.0131000000000001"),
        .shown (.success "Script execution completed")] ∧
      .shown (pausingFor "1.0131") ∉ t.log := by
  have hrun : ((Session.new () ScriptSettings.default fun _ => none).run Session.restless
      (.lines [pauseOf "1.0131"])).map (fun (outcome, t) => (outcome, t.log)) =
        some (.completed 0, [.shown (pausingFor "1.0131000000000001"),
          .shown (.success "Script execution completed")]) := by
    decide +kernel
  obtain ⟨⟨outcome, t⟩, hrun, he⟩ := Option.map_eq_some_iff.mp hrun
  obtain ⟨rfl, hlog⟩ := Prod.mk.inj he
  refine ⟨⟨⟨List.all_eq_true.mp (by decide), by decide, by decide, List.all_eq_true.mp (by decide),
    by decide⟩, by decide, by decide, by decide⟩, ⟨rfl, rfl⟩, t, hrun, hlog, ?_⟩
  rw [hlog]
  decide

end Script

end CommandConsole
