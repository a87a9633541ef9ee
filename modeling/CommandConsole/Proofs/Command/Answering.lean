import CommandConsole.Proofs.Command.Registrations
import CommandConsole.Proofs.Command.Rendering
import CommandConsole.Proofs.Text.Lowercase

/-!
# Definitions that answer to a line

A line names a command by a lowercase text without quotes, and chooses among its definitions by a
token that starts with a dash and holds no quotes, or by none. Every such name and flag can be
written in a line, so these are the definitions that answer to one. Any other definition is accepted
by a registry and never called: one whose name has an uppercase letter or a quote, or whose flag has
no dash in front or has a quote.
-/

namespace CommandConsole

open Token

/-- The flag is empty, or starts with a dash and holds no quotes. -/
def FlagWritable (flag : String) : Prop :=
  flag = "" ∨ isFlag flag = true ∧ '"' ∉ flag.toList

/-- The flags that can be written are those by which tokens without quotes choose. -/
theorem flagWritable_iff {flag : String} :
    FlagWritable flag ↔
      ∃ tokens, (∀ token ∈ tokens, '"' ∉ token.toList) ∧ leadingFlag tokens = flag := by
  constructor
  · rintro (rfl | ⟨hflag, hquote⟩)
    · exact ⟨[], by simp, rfl⟩
    · exact ⟨[flag], by simpa using hquote, by simp [leadingFlag, hflag]⟩
  · rintro ⟨tokens, hunquoted, rfl⟩
    rcases leadingFlag_eq tokens with hnone | ⟨hflag, hmem⟩
    · exact .inl hnone
    · exact .inr ⟨hflag, hunquoted _ hmem⟩

namespace Registry

variable {η : Type} {r : Registry η} {d : Definition η}

/-- Some line is read as an invocation to which the definition answers. -/
def Answers (r : Registry η) (d : Definition η) : Prop :=
  ∃ line i, Invocation.parse line = .ok i ∧ r.findMatch i = .ok d

/-- A line has tokens without quotes, and any such tokens can be written as a line. -/
theorem answers_iff :
    r.Answers d ↔ ∃ name tokens, (∀ token ∈ name :: tokens, '"' ∉ token.toList) ∧
      r.get? (Text.lowercase name) (leadingFlag tokens) = some d := by
  constructor
  · rintro ⟨line, i, hparse, hmatch⟩
    obtain ⟨name, tokens, htokens, rfl⟩ := Invocation.parse_eq_ok_iff.mp hparse
    refine ⟨name, tokens, ?_, findMatch_ofTokens_eq_ok_iff.mp hmatch⟩
    rw [← htokens]
    exact fun token hmem => quote_notMem_of_mem_tokenize hmem
  · rintro ⟨name, tokens, hunquoted, hget⟩
    have htokens := tokenize_line (.quoting _ hunquoted)
    exact ⟨_, _, Invocation.parse_of_tokenize htokens, findMatch_ofTokens_eq_ok_iff.mpr hget⟩

theorem Distinct.answers_iff (h : Distinct r) (hmem : d ∈ r.definitions) :
    r.Answers d ↔
      (∃ s : String, '"' ∉ s.toList ∧ d.name = Text.lowercase s) ∧ FlagWritable d.flag := by
  rw [Registry.answers_iff]
  constructor
  · rintro ⟨name, tokens, hunquoted, hget⟩
    obtain ⟨-, hname, hflag⟩ := h.get?_eq_some_iff.mp hget
    obtain ⟨hquote, htokens⟩ := List.forall_mem_cons.mp hunquoted
    exact ⟨⟨name, hquote, hname⟩, flagWritable_iff.mpr ⟨tokens, htokens, hflag.symm⟩⟩
  · rintro ⟨⟨name, hquote, hname⟩, hflag⟩
    obtain ⟨tokens, htokens, hleading⟩ := flagWritable_iff.mp hflag
    refine ⟨name, tokens, List.forall_mem_cons.mpr ⟨hquote, htokens⟩, ?_⟩
    exact h.get?_eq_some_iff.mpr ⟨hmem, hname, hleading.symm⟩

/-- Of the definitions in a registry, those answer to some line whose name is the lowercase form of
a text without quotes and whose flag is empty or starts with a dash and holds no quotes. The others
are those with a name that is not lowercase, with a quote in the name, with a flag without a dash in
front, or with a quote in the flag. -/
theorem answers_iff_of_mem_ofOperations {operations : List (Operation η)}
    (hmem : d ∈ (ofOperations operations).definitions) :
    ((ofOperations operations).Answers d ↔
      (∃ s : String, '"' ∉ s.toList ∧ d.name = Text.lowercase s) ∧
        (d.flag = "" ∨ isFlag d.flag = true ∧ '"' ∉ d.flag.toList)) ∧
    (¬(ofOperations operations).Answers d ↔
      Text.lowercase d.name ≠ d.name ∨ '"' ∈ d.name.toList ∨
        d.flag ≠ "" ∧ (isFlag d.flag = false ∨ '"' ∈ d.flag.toList)) := by
  have hanswers := (distinct_ofOperations operations).answers_iff hmem
  refine ⟨hanswers, ?_⟩
  rw [hanswers, Text.exists_lowercase_iff, FlagWritable]
  simp only [not_and_or, not_or, not_not, Bool.not_eq_true, ne_eq, or_assoc]

/-- A name with a space and a flag with one can be written in quotes. A name with an uppercase
letter and a flag without a dash answer to no line. -/
theorem answers_spaced_and_shadowed :
    let spaced : Definition Unit := ⟨"list all", "", "-by name", ()⟩
    let shadowed : List (Definition Unit) := [⟨"List", "", "", ()⟩, ⟨"list", "", "all", ()⟩]
    let r := ofOperations (.clear :: (spaced :: shadowed).map .register)
    r.Answers spaced ∧ ∀ d ∈ shadowed, ¬r.Answers d := by
  intro spaced shadowed r
  have hdefinitions : r.definitions = spaced :: shadowed := by cbv
  refine ⟨?_, fun d hd => ?_⟩
  · have hmem : spaced ∈ r.definitions := by simp [hdefinitions]
    refine (answers_iff_of_mem_ofOperations hmem).1.mpr ⟨⟨"LIST All", by decide, ?_⟩, .inr ?_⟩
    · decide +kernel
    · decide
  · have hmem : d ∈ r.definitions := by simp [hdefinitions, hd]
    refine (answers_iff_of_mem_ofOperations hmem).2.mpr ?_
    simp only [shadowed, List.mem_cons, List.not_mem_nil, or_false] at hd
    rcases hd with rfl | rfl
    · exact .inl (by decide +kernel)
    · exact .inr (.inr (by decide))

end Registry

end CommandConsole
