import CommandConsole.Proofs.Binary64.Reading
import CommandConsole.Proofs.Script.Marks
import CommandConsole.Proofs.Settings.Pause

/-!
# The length of a pause

A pause directive gives its seconds as a decimal, which is first rounded to a number of the format
and then to whole nanoseconds. Below `2 ^ 23` seconds the first rounding moves the number by less
than half a nanosecond, so a decimal that is a whole number of nanoseconds comes through both
roundings unchanged.
-/

namespace CommandConsole

open Binary64 (Denotes)

namespace Duration

/-- A number that is less than half a nanosecond away from a length becomes that length. -/
theorem ofBinary64?_of_abs_lt {negative : Bool} {m : Magnitude} {n : Nat}
    (hnonneg : (Binary64.finite negative m).isBelowZero = false) (hn : n < 2 ^ 64 * 10 ^ 9)
    (hnear : |m.value - n / 10 ^ 9| < 1 / (2 * 10 ^ 9)) :
    ofBinary64? (.finite negative m) = some ⟨n⟩ := by
  have hscaled : |m.value * 10 ^ 9 - n| < 1 / 2 := by
    calc |m.value * 10 ^ 9 - n| = |(m.value - n / 10 ^ 9) * 10 ^ 9| := by
          congr 1
          ring
      _ = |m.value - n / 10 ^ 9| * 10 ^ 9 := by
        rw [abs_mul, abs_of_pos (show (0 : ℚ) < 10 ^ 9 by norm_num)]
      _ < 1 / (2 * 10 ^ 9) * 10 ^ 9 := mul_lt_mul_of_pos_right hnear (by positivity)
      _ = 1 / 2 := by norm_num
  have hnanoseconds : nearestNanoseconds m = n :=
    (nearestEven_nearestNanoseconds m).unique (nearestEven_of_abs_lt hscaled)
  rw [ofBinary64?_finite hnonneg, hnanoseconds, if_neg (Nat.not_le_of_lt hn)]

end Duration

/-- Below `2 ^ 23` rounding moves a number by less than half of `10 ^ -9`. -/
theorem Magnitude.IsNearest.abs_sub_lt {m : Magnitude} {q : ℚ} (h : m.IsNearest q)
    (hlt : q < 2 ^ 23) : |m.value - q| < 1 / (2 * 10 ^ 9) :=
  (h.abs_value_sub_le hlt).trans_lt (by norm_num)

namespace Text

/-- White space around a text is dropped, and nothing else of a text that holds none. -/
theorem trimChars_surrounded {left text right : List Char}
    (hleft : left.all isBlankChar = true) (hright : right.all isBlankChar = true)
    (htext : ∀ c ∈ text, isBlankChar c = false) :
    trimChars (left ++ (text ++ right)) = text := by
  cases text with
  | nil =>
    rw [List.nil_append, trimChars_eq_nil_iff, List.all_append, hleft, hright]
    rfl
  | cons c rest =>
    have hfirst := htext c List.mem_cons_self
    have hdrop : (left ++ (c :: rest ++ right)).dropWhile isBlankChar =
        c :: rest ++ right := by
      rw [List.dropWhile_append_of_pos (List.all_eq_true.mp hleft), List.cons_append,
        List.dropWhile_cons_of_neg (by simp [hfirst])]
    rw [trimChars_eq_rdropWhile, hdrop, rdropWhile_append, if_pos hright,
      List.rdropWhile_eq_self_iff]
    intro hne
    simp [htext _ (List.getLast_mem hne)]

end Text

namespace Script

theorem firstIndex?_append {c : Char} {before : List Char} (h : c ∉ before) (after : List Char) :
    firstIndex? c (before ++ c :: after) = some before.length := by
  rw [firstIndex?, List.findIdx?_append, List.findIdx?_eq_none_iff.mpr]
  · simp [List.findIdx?_cons]
  · intro other hother
    have hne : other ≠ c := by
      rintro rfl
      exact h hother
    simp [hne]

/-- What stands between the first parentheses is the number of seconds. -/
theorem parsePause_of_parens {before inside : String} (hopening : '(' ∉ before.toList)
    (hclosing : ')' ∉ before.toList) (hinside : ')' ∉ inside.toList) (after : String)
    {x : Binary64} (hx : Binary64.parse? (Text.trim inside) = some x) {d : Duration}
    (hd : Duration.ofBinary64? x = some d) :
    parsePause (before ++ "(" ++ inside ++ ")" ++ after) = .ok d := by
  have hcs : (before ++ "(" ++ inside ++ ")" ++ after).toList =
      before.toList ++ '(' :: (inside.toList ++ ')' :: after.toList) := by
    simp
  have htrim : String.ofList (Text.trimChars inside.toList) = Text.trim inside := rfl
  generalize before ++ "(" ++ inside ++ ")" ++ after = directive at hcs ⊢
  generalize before.toList = opened at *
  generalize inside.toList = between at *
  have hfirst := firstIndex?_append hopening (between ++ ')' :: after.toList)
  have hlast : firstIndex? ')' (opened ++ '(' :: (between ++ ')' :: after.toList)) =
      some (opened.length + 1 + between.length) := by
    have hnotMem : ')' ∉ opened ++ '(' :: between := by
      simp [hclosing, hinside]
    have hlength : (opened ++ '(' :: between).length = opened.length + 1 + between.length := by
      rw [List.length_append, List.length_cons]
      omega
    have hindex := firstIndex?_append hnotMem after.toList
    rw [List.append_assoc, List.cons_append, hlength] at hindex
    exact hindex
  have hcut : ((opened ++ '(' :: (between ++ ')' :: after.toList)).take
      (opened.length + 1 + between.length)).drop (opened.length + 1) = between := by
    rw [Nat.add_assoc, List.take_length_add_append, Nat.add_comm 1, List.take_succ_cons,
      List.take_left, List.drop_length_add_append, List.drop_succ_cons, List.drop_zero]
  simp only [parsePause, hcs, hfirst, hlast, hcut, htrim, hx, hd]
  rw [if_neg (by omega)]

/-- The characters of a written decimal are neither white space nor the end of a directive. -/
theorem not_isBlankChar_of_isDecimalChar {c : Char} (h : Binary64.isDecimalChar c = true) :
    Text.isBlankChar c = false ∧ c ≠ ')' := by
  rw [Binary64.isDecimalChar, Bool.or_eq_true] at h
  rcases h with hdigit | hmem
  · obtain ⟨hlow, hhigh⟩ := Char.isDigit_iff_toNat.mp hdigit
    have hlow : 48 ≤ c.toNat := hlow
    have hhigh : c.toNat ≤ 57 := hhigh
    constructor
    · simp only [Text.isBlankChar, Bool.or_eq_false_iff, Bool.and_eq_false_iff,
        decide_eq_false_iff_not, beq_eq_false_iff_ne]
      omega
    · rintro rfl
      exact absurd hlow (by decide)
  · simp only [List.mem_cons, List.not_mem_nil, or_false, decide_eq_true_eq] at hmem
    rcases hmem with rfl | rfl | rfl | rfl | rfl <;> decide

/-- A decimal between the first parentheses, with white space around it, is the number of seconds.
-/
theorem parsePause_of_decimal {before left text right : String} (hopening : '(' ∉ before.toList)
    (hclosing : ')' ∉ before.toList) (hleft : Text.isBlank left = true)
    (hright : Text.isBlank right = true)
    (htext : ∀ c ∈ text.toList, Binary64.isDecimalChar c = true) (after : String) {x : Binary64}
    (hx : Binary64.parse? text = some x) {d : Duration} (hd : Duration.ofBinary64? x = some d) :
    parsePause (before ++ "(" ++ (left ++ text ++ right) ++ ")" ++ after) = .ok d := by
  have hchars : (left ++ text ++ right).toList =
      left.toList ++ (text.toList ++ right.toList) := by
    simp
  have htrim : Text.trim (left ++ text ++ right) = text := by
    rw [Text.trim, hchars, Text.trimChars_surrounded hleft hright fun c hc =>
      (not_isBlankChar_of_isDecimalChar (htext c hc)).1, String.ofList_toList]
  have hblank : ∀ {s : String}, Text.isBlank s = true → ')' ∉ s.toList := by
    intro s hs hmem
    exact absurd (List.all_eq_true.mp hs _ hmem) (by decide)
  have hinside : ')' ∉ (left ++ text ++ right).toList := by
    rw [hchars]
    simp only [List.mem_append, not_or]
    exact ⟨hblank hleft, fun hmem => (not_isBlankChar_of_isDecimalChar (htext _ hmem)).2 rfl,
      hblank hright⟩
  exact parsePause_of_parens hopening hclosing hinside after (htrim.symm ▸ hx) hd

section Rounding

variable {n : Nat} (hn : n < 2 ^ 23 * 10 ^ 9)

include hn

theorem nanoseconds_lt : (n / 10 ^ 9 : ℚ) < 2 ^ 23 := by
  rw [div_lt_iff₀ (by norm_num)]
  exact_mod_cast hn

theorem exists_isNearest_nanoseconds : ∃ m, Magnitude.IsNearest m (n / 10 ^ 9) :=
  Magnitude.exists_isNearest (b := 23) (by positivity) (by decide) (nanoseconds_lt hn)

/-- Below `2 ^ 23` seconds the number of the format for a whole number of nanoseconds has just that
length. -/
theorem ofBinary64?_of_isNearest {negative : Bool} {m : Magnitude}
    (hnonneg : (Binary64.finite negative m).isBelowZero = false)
    (hm : m.IsNearest (n / 10 ^ 9)) : Duration.ofBinary64? (.finite negative m) = some ⟨n⟩ :=
  Duration.ofBinary64?_of_abs_lt hnonneg (hn.trans (by norm_num))
    (hm.abs_sub_lt (nanoseconds_lt hn))

end Rounding

theorem cast_nanoseconds (seconds nanoseconds : Nat) :
    ((seconds * 10 ^ 9 + nanoseconds : Nat) / 10 ^ 9 : ℚ) = seconds + nanoseconds / 10 ^ 9 := by
  rw [Nat.cast_add, Nat.cast_mul, Nat.cast_pow, Nat.cast_ofNat, add_div,
    mul_div_cancel_right₀ _ (by norm_num)]

/-- A directive with a decimal that is a whole number of nanoseconds, below `2 ^ 23` seconds, pauses
for exactly these. -/
theorem parsePause_of_denotes {seconds nanoseconds : Nat} (hseconds : seconds < 2 ^ 23)
    (hnanoseconds : nanoseconds < 10 ^ 9) {text : String}
    (htext : Denotes text (seconds + nanoseconds / 10 ^ 9)) {before left right : String}
    (hopening : '(' ∉ before.toList) (hclosing : ')' ∉ before.toList)
    (hleft : Text.isBlank left = true) (hright : Text.isBlank right = true) (after : String) :
    ∃ d, parsePause (before ++ "(" ++ (left ++ text ++ right) ++ ")" ++ after) = .ok d ∧
      d.seconds = seconds ∧ d.subsecond = nanoseconds := by
  have hn : seconds * 10 ^ 9 + nanoseconds < 2 ^ 23 * 10 ^ 9 := by omega
  rw [← cast_nanoseconds] at htext
  generalize hsum : seconds * 10 ^ 9 + nanoseconds = n at *
  obtain ⟨m, hm⟩ := exists_isNearest_nanoseconds hn
  obtain ⟨negative, hparse, hnonneg⟩ := Binary64.parse?_of_denotes htext hm
  obtain ⟨sign, decimal, hwrites, -⟩ := htext
  refine ⟨⟨n⟩, parsePause_of_decimal hopening hclosing hleft hright
    (Binary64.isDecimalChar_of_writes hwrites) after hparse
    (ofBinary64?_of_isNearest hn hnonneg hm), ?_, ?_⟩
  · simp only [Duration.seconds, Duration.nanosecondsPerSecond]
    omega
  · simp only [Duration.subsecond, Duration.nanosecondsPerSecond]
    omega

theorem parsePause_of_denotes_longest :
    (8388607 < 2 ^ 23 ∧ 999999900 < 10 ^ 9 ∧
      Denotes "8388607.99999990" ((8388607 : Nat) + (999999900 : Nat) / 10 ^ 9)) ∧
    ∃ d, parsePause
      ("pause" ++ "(" ++ (" " ++ "8388607.99999990" ++ "\t") ++ ")" ++ " (long)") = .ok d ∧
      d.seconds = 8388607 ∧ d.subsecond = 999999900 := by
  have htext : Denotes "8388607.99999990" ((8388607 : Nat) + (999999900 : Nat) / 10 ^ 9) := by
    have hpoint : Denotes "8388607.99999990" (_ + _ / 10 ^ 8) := Binary64.denotes_point
      (s := "8388607".toList) (t := "99999990".toList) (List.all_eq_true.mp (by decide))
      (List.all_eq_true.mp (by decide)) (by decide)
    have hwhole : Nat.ofDigitChars 10 "8388607".toList 0 = 8388607 := by decide
    have hfraction : Nat.ofDigitChars 10 "99999990".toList 0 = 99999990 := by decide
    rw [hwhole, hfraction] at hpoint
    convert hpoint using 1
    norm_num
  exact ⟨⟨by norm_num, by norm_num, htext⟩, parsePause_of_denotes (by norm_num) (by norm_num) htext
    (by decide) (by decide) (by decide) (by decide) _⟩

end Script

end CommandConsole
