import CommandConsole.Command.Registry
import CommandConsole.Proofs.Command.Grouping

/-!
# Registries as they come about

A registry starts empty, and commands are registered in it and all of them removed in any order. A
definition that is not accepted changes nothing. At any time no two definitions are for the same
name and flag, so the one that is stored for a name and a flag is the one that is found for them.
-/

namespace CommandConsole

theorem Definition.isFor_iff {η : Type} {d : Definition η} {name flag : String} :
    d.isFor name flag = true ↔ d.name = name ∧ d.flag = flag := by
  simp [isFor]

namespace Registry

variable {η : Type} {r s : Registry η} {d : Definition η} {name flag : String}

/-- A change of a registry. -/
inductive Operation (η : Type) where
  | register (d : Definition η)
  | clear

/-- The registry after a change. A definition that is not accepted changes nothing. -/
def Operation.apply (r : Registry η) : Operation η → Registry η
  | .register d => (r.register d).toOption.getD r
  | .clear => .empty

/-- The registry after changes one after the other. -/
def ofOperations (operations : List (Operation η)) : Registry η :=
  operations.foldl Operation.apply .empty

/-- No two definitions are for the same name and flag. -/
def Distinct (r : Registry η) : Prop :=
  r.definitions.Pairwise fun d e => d.isFor e.name e.flag = false

theorem distinct_empty : Distinct (empty : Registry η) :=
  List.Pairwise.nil

/-- A definition that is accepted takes the place of the one for its name and flag. -/
theorem distinct_register (h : Distinct r) (hregister : r.register d = .ok s) : Distinct s := by
  rw [register] at hregister
  split at hregister
  · exact nomatch hregister
  · obtain rfl := Except.ok.inj hregister
    refine List.pairwise_append.mpr ⟨h.filter _, List.pairwise_singleton .., ?_⟩
    intro e he other hother
    obtain rfl := List.mem_singleton.mp hother
    simpa using (List.mem_filter.mp he).2

theorem Distinct.apply (h : Distinct r) (operation : Operation η) :
    Distinct (operation.apply r) := by
  cases operation with
  | clear => exact distinct_empty
  | register d =>
    rw [Operation.apply]
    cases hregister : r.register d with
    | ok s => exact distinct_register h hregister
    | error cause => exact h

/-- However a registry came about, no two of its definitions are for the same name and flag. -/
theorem distinct_ofOperations (operations : List (Operation η)) :
    Distinct (ofOperations operations) := by
  refine List.foldlRecOn operations Operation.apply distinct_empty ?_
  intro r h operation _
  exact h.apply operation

/-- What is found for a name and a flag is what is stored for them. -/
theorem Distinct.get?_eq_some_iff (h : Distinct r) :
    r.get? name flag = some d ↔ d ∈ r.definitions ∧ d.name = name ∧ d.flag = flag := by
  obtain ⟨definitions, names⟩ := r
  simp only [Distinct, get?] at h ⊢
  induction definitions with
  | nil => simp
  | cons e definitions ih =>
    obtain ⟨hfirst, hrest⟩ := List.pairwise_cons.mp h
    rw [List.find?_cons, List.mem_cons]
    split
    · next he =>
      obtain ⟨rfl, rfl⟩ := Definition.isFor_iff.mp he
      constructor
      · intro hfound
        obtain rfl := Option.some.inj hfound
        exact ⟨.inl rfl, rfl, rfl⟩
      · rintro ⟨rfl | hmem, hname, hflag⟩
        · rfl
        · have hsame := Definition.isFor_iff.mpr ⟨hname.symm, hflag.symm⟩
          rw [hfirst d hmem] at hsame
          exact nomatch hsame
    · next he =>
      rw [ih hrest]
      constructor
      · rintro ⟨hmem, hfor⟩
        exact ⟨.inr hmem, hfor⟩
      · rintro ⟨rfl | hmem, hfor⟩
        · rw [Definition.isFor_iff.mpr hfor] at he
          exact nomatch he
        · exact ⟨hmem, hfor⟩

/-- The definition that answers is the one of the name and the first flag. -/
theorem findMatch_ofTokens_eq_ok_iff {name : String} {tokens : List String} :
    r.findMatch (.ofTokens name tokens) = .ok d ↔ r.get? name (leadingFlag tokens) = some d := by
  rw [findMatch, Invocation.primaryFlag?_ofTokens, leadingFlag]
  cases tokens.find? isFlag with
  | none =>
    simp only [Option.getD_none, Invocation.ofTokens]
    cases r.get? name "" <;> simp
  | some flag =>
    simp only [Option.getD_some, Invocation.ofTokens]
    cases r.get? name flag <;> simp

end Registry

end CommandConsole
