import CommandConsole.Proofs.Command.Grouping
import Mathlib.Data.List.Basic
import Mathlib.Data.Set.Function

/-!
# Flags and arguments merged into a line again

Flags and arguments that were split apart stand in order: the flags are numbered from one, and the
places of the arguments go up from zero to the last flag. Merging puts the arguments placed before
every flag first, and then each flag with the arguments placed at it. Splitting is a bijection from
the lists of tokens onto the flags and arguments in order, and merging is its inverse, so the
arguments of an invocation are shared out among its flags, with those before every flag left over.
-/

namespace CommandConsole

/-- The texts of the arguments at a place. -/
def textsAt (arguments : List Placed) (position : Nat) : List String :=
  (arguments.filter (·.position == position)).map (·.text)

/-- Flags and arguments as tokens, behind a number of flags: the arguments placed there, and then
each flag with the arguments placed at it. -/
def mergeAfter (count : Nat) (flags arguments : List Placed) : List String :=
  textsAt arguments count ++ flags.flatMap fun flag => flag.text :: textsAt arguments flag.position

/-- Flags and arguments as tokens. -/
def merge (placing : List Placed × List Placed) : List String :=
  mergeAfter 0 placing.1 placing.2

/-- Flags and arguments stand in order behind a number of flags. -/
structure InOrderAfter (count : Nat) (flags arguments : List Placed) : Prop where
  /-- The flags are numbered on, one by one. -/
  numbered : flags.map (·.position) = List.range' (count + 1) flags.length
  dashed : ∀ flag ∈ flags, ['-'] <+: flag.text.toList
  undashed : ∀ argument ∈ arguments, ¬ ['-'] <+: argument.text.toList
  /-- No argument is placed before the one in front of it. -/
  ordered : arguments.Pairwise (·.position ≤ ·.position)
  above : ∀ argument ∈ arguments, count ≤ argument.position
  /-- No argument is placed behind the last flag. -/
  within : ∀ argument ∈ arguments, argument.position ≤ count + flags.length

/-- Flags and arguments stand in order. -/
def InOrder (placing : List Placed × List Placed) : Prop :=
  InOrderAfter 0 placing.1 placing.2

/-- A token is a flag when it starts with a dash. -/
theorem isFlag_iff {token : String} : isFlag token = true ↔ ['-'] <+: token.toList := by
  rw [isFlag, beq_iff_eq]
  cases token.toList with
  | nil => simp
  | cons c cs => simp [eq_comm]

theorem isFlag_eq_false_iff {token : String} : isFlag token = false ↔ ¬ ['-'] <+: token.toList := by
  rw [← isFlag_iff, Bool.not_eq_true]

section Splitting

variable {count : Nat} {token : String} {tokens : List String} {flag : Placed}
  {flags arguments : List Placed}

theorem splitFlagsAfter_cons_flag (h : isFlag token = true) :
    splitFlagsAfter count (token :: tokens) =
      (⟨count + 1, token⟩ :: (splitFlagsAfter (count + 1) tokens).1,
        (splitFlagsAfter (count + 1) tokens).2) := by
  rw [splitFlagsAfter, if_pos h]

theorem splitFlagsAfter_cons_argument (h : isFlag token = false) :
    splitFlagsAfter count (token :: tokens) =
      ((splitFlagsAfter count tokens).1, ⟨count, token⟩ :: (splitFlagsAfter count tokens).2) := by
  rw [splitFlagsAfter, if_neg (by simp [h])]

/-- A flag in front has the number behind the count. -/
theorem InOrderAfter.cons_flag (h : InOrderAfter (count + 1) flags arguments)
    (hflag : isFlag token = true) : InOrderAfter count (⟨count + 1, token⟩ :: flags) arguments where
  numbered := by rw [List.map_cons, h.numbered, List.length_cons, List.range'_succ]
  dashed := List.forall_mem_cons.mpr ⟨isFlag_iff.mp hflag, h.dashed⟩
  undashed := h.undashed
  ordered := h.ordered
  above argument ha := Nat.le_of_succ_le (h.above argument ha)
  within argument ha := by
    have hle := h.within argument ha
    rw [List.length_cons]
    omega

/-- An argument in front is placed at the count. -/
theorem InOrderAfter.cons_argument (h : InOrderAfter count flags arguments)
    (hargument : isFlag token = false) :
    InOrderAfter count flags (⟨count, token⟩ :: arguments) where
  numbered := h.numbered
  dashed := h.dashed
  undashed := List.forall_mem_cons.mpr ⟨isFlag_eq_false_iff.mp hargument, h.undashed⟩
  ordered := List.pairwise_cons.mpr ⟨h.above, h.ordered⟩
  above := List.forall_mem_cons.mpr ⟨Nat.le_refl count, h.above⟩
  within := List.forall_mem_cons.mpr ⟨Nat.le_add_right count _, h.within⟩

/-- Splitting leaves flags and arguments in order. -/
theorem inOrderAfter_splitFlagsAfter (count : Nat) (tokens : List String) :
    InOrderAfter count (splitFlagsAfter count tokens).1 (splitFlagsAfter count tokens).2 := by
  induction tokens generalizing count with
  | nil => constructor <;> simp [splitFlagsAfter]
  | cons token tokens ih =>
    cases hflag : isFlag token with
    | true =>
      rw [splitFlagsAfter_cons_flag hflag]
      exact (ih (count + 1)).cons_flag hflag
    | false =>
      rw [splitFlagsAfter_cons_argument hflag]
      exact (ih count).cons_argument hflag

/-- The flags with the arguments placed at them are the tokens from the first flag on. -/
theorem flatMap_splitFlagsAfter (count : Nat) (tokens : List String) :
    ((splitFlagsAfter count tokens).1.flatMap fun flag =>
      flag.text :: textsAt (splitFlagsAfter count tokens).2 flag.position) =
        tokens.dropWhile (!isFlag ·) := by
  induction tokens generalizing count with
  | nil => rfl
  | cons token tokens ih =>
    cases hflag : isFlag token with
    | true =>
      rw [splitFlagsAfter_cons_flag hflag, List.flatMap_cons, ih, textsAt, arguments_at_start,
        List.cons_append, List.takeWhile_append_dropWhile]
      simp [hflag]
    | false =>
      rw [splitFlagsAfter_cons_argument hflag, List.dropWhile_cons_of_pos (by simp [hflag]),
        ← ih count]
      refine List.flatMap_congr fun flag hmem => ?_
      -- the argument in front is placed before every flag
      have hlt := lt_position_of_mem_flags hmem
      have hne : (count == flag.position) = false := beq_false_of_ne hlt.ne
      simp [textsAt, hne]

/-- Merging what was split gives the tokens back. -/
theorem mergeAfter_splitFlagsAfter (count : Nat) (tokens : List String) :
    mergeAfter count (splitFlagsAfter count tokens).1 (splitFlagsAfter count tokens).2 =
      tokens := by
  rw [mergeAfter, flatMap_splitFlagsAfter, textsAt, arguments_at_start,
    List.takeWhile_append_dropWhile]

end Splitting

section Merging

variable {count position : Nat} {flag : Placed} {flags arguments : List Placed}

/-- Ordered arguments are those placed at the count, followed by those placed behind it. -/
theorem filter_append_filter_of_ordered (hordered : arguments.Pairwise (·.position ≤ ·.position))
    (habove : ∀ argument ∈ arguments, count ≤ argument.position) :
    arguments.filter (·.position == count) ++ arguments.filter (count < ·.position) =
      arguments := by
  induction arguments with
  | nil => rfl
  | cons argument arguments ih =>
    obtain ⟨hbehind, hordered⟩ := List.pairwise_cons.mp hordered
    obtain ⟨hle, habove⟩ := List.forall_mem_cons.mp habove
    rcases hle.eq_or_lt with heq | hlt
    · simp [← heq, ih hordered habove]
    · have hall : ∀ a ∈ argument :: arguments, count < a.position :=
        List.forall_mem_cons.mpr ⟨hlt, fun a ha => hlt.trans_le (hbehind a ha)⟩
      have hnone : (argument :: arguments).filter (·.position == count) = [] :=
        List.filter_eq_nil_iff.mpr fun a ha => by simpa using (hall a ha).ne'
      rw [hnone, List.nil_append]
      exact List.filter_eq_self.mpr fun a ha => by simpa using hall a ha

/-- The arguments behind a count are the same at each place behind it. -/
theorem textsAt_filter_lt (h : count < position) :
    textsAt (arguments.filter (count < ·.position)) position = textsAt arguments position := by
  rw [textsAt, textsAt, List.filter_filter]
  congr 1
  refine List.filter_congr fun argument _ => ?_
  simp only [Bool.and_eq_left_iff_imp, beq_iff_eq, decide_eq_true_eq]
  omega

/-- The first flag has the number behind the count, and the others are numbered on from there. -/
theorem InOrderAfter.numbered_cons (h : InOrderAfter count (flag :: flags) arguments) :
    flag.position = count + 1 ∧ flags.map (·.position) = List.range' (count + 2) flags.length := by
  have hnumbered := h.numbered
  rw [List.map_cons, List.length_cons, List.range'_succ] at hnumbered
  exact List.cons.inj hnumbered

/-- Behind the first flag, the other flags and the arguments placed there are in order. -/
theorem InOrderAfter.tail (h : InOrderAfter count (flag :: flags) arguments) :
    InOrderAfter (count + 1) flags (arguments.filter (count < ·.position)) where
  numbered := h.numbered_cons.2
  dashed := (List.forall_mem_cons.mp h.dashed).2
  undashed argument ha := h.undashed argument (List.mem_of_mem_filter ha)
  ordered := h.ordered.filter _
  above argument ha := Nat.succ_le_of_lt (by simpa using List.of_mem_filter ha)
  within argument ha := by
    have hle := h.within argument (List.mem_of_mem_filter ha)
    rw [List.length_cons] at hle
    omega

/-- Flags are numbered above the count. -/
theorem InOrderAfter.lt_position (h : InOrderAfter count flags arguments) (hmem : flag ∈ flags) :
    count < flag.position := by
  have hposition : flag.position ∈ List.range' (count + 1) flags.length :=
    h.numbered ▸ List.mem_map_of_mem hmem
  exact (List.mem_range'_1.mp hposition).1

/-- Merging is done flag by flag. -/
theorem InOrderAfter.mergeAfter_cons (h : InOrderAfter count (flag :: flags) arguments) :
    mergeAfter count (flag :: flags) arguments = textsAt arguments count ++
      flag.text :: mergeAfter (count + 1) flags (arguments.filter (count < ·.position)) := by
  have hrest : (flags.flatMap fun flag => flag.text :: textsAt arguments flag.position) =
      flags.flatMap fun flag =>
        flag.text :: textsAt (arguments.filter (count < ·.position)) flag.position := by
    refine List.flatMap_congr fun flag hmem => ?_
    rw [textsAt_filter_lt (Nat.lt_of_succ_lt (h.tail.lt_position hmem))]
  rw [mergeAfter, List.flatMap_cons, h.numbered_cons.1, hrest, mergeAfter,
    textsAt_filter_lt (Nat.lt_succ_self count), List.cons_append]

/-- Arguments placed at the count are split off in front of what follows them. -/
theorem splitFlagsAfter_textsAt
    (hundashed : ∀ argument ∈ arguments, ¬ ['-'] <+: argument.text.toList) (tokens : List String) :
    splitFlagsAfter count (textsAt arguments count ++ tokens) =
      ((splitFlagsAfter count tokens).1,
        arguments.filter (·.position == count) ++ (splitFlagsAfter count tokens).2) := by
  rw [textsAt]
  induction arguments with
  | nil => rfl
  | cons argument arguments ih =>
    obtain ⟨hargument, hundashed⟩ := List.forall_mem_cons.mp hundashed
    have htext : isFlag argument.text = false := isFlag_eq_false_iff.mpr hargument
    rw [List.filter_cons]
    split_ifs with hplace
    · obtain rfl := beq_iff_eq.mp hplace
      rw [List.map_cons, List.cons_append, splitFlagsAfter_cons_argument htext, ih hundashed,
        List.cons_append]
    · exact ih hundashed

/-- Splitting what was merged gives flags and arguments in order back. -/
theorem InOrderAfter.splitFlagsAfter_mergeAfter (h : InOrderAfter count flags arguments) :
    splitFlagsAfter count (mergeAfter count flags arguments) = (flags, arguments) := by
  induction flags generalizing count arguments with
  | nil =>
    -- without flags every argument is placed at the count
    have hall : arguments.filter (·.position == count) = arguments := by
      refine List.filter_eq_self.mpr fun argument ha => beq_iff_eq.mpr ?_
      exact (h.within argument ha).antisymm (h.above argument ha)
    rw [mergeAfter, splitFlagsAfter_textsAt h.undashed, hall]
    simp [splitFlagsAfter]
  | cons flag flags ih =>
    have hflag : isFlag flag.text = true := isFlag_iff.mpr (List.forall_mem_cons.mp h.dashed).1
    rw [h.mergeAfter_cons, splitFlagsAfter_textsAt h.undashed, splitFlagsAfter_cons_flag hflag,
      ih h.tail, filter_append_filter_of_ordered h.ordered h.above, ← h.numbered_cons.1]

/-- The tokens that are no flags are the arguments at the count and those at one flag after the
other. -/
theorem InOrderAfter.filter_mergeAfter (h : InOrderAfter count flags arguments) :
    (mergeAfter count flags arguments).filter (!isFlag ·) =
      textsAt arguments count ++ flags.flatMap fun flag => textsAt arguments flag.position := by
  have htexts (position : Nat) :
      (textsAt arguments position).filter (!isFlag ·) = textsAt arguments position := by
    refine List.filter_eq_self.mpr fun text hmem => ?_
    obtain ⟨argument, ha, rfl⟩ := List.mem_map.mp hmem
    have hundashed := h.undashed argument (List.mem_of_mem_filter ha)
    rw [isFlag_eq_false_iff.mpr hundashed, Bool.not_false]
  rw [mergeAfter, List.filter_append, htexts, List.filter_flatMap]
  congr 1
  refine List.flatMap_congr fun flag hmem => ?_
  have hflag : isFlag flag.text = true := isFlag_iff.mpr (h.dashed flag hmem)
  rw [List.filter_cons_of_neg (by simp [hflag]), htexts]

end Merging

namespace Invocation

variable {i : Invocation}

/-- The arguments of an invocation are shared out among its flags. -/
structure SharesOut (i : Invocation) : Prop where
  /-- Each flag stands before its arguments, behind those that are placed before every flag. -/
  merged : merge (i.flags, i.arguments) = textsAt i.arguments 0 ++
    i.flags.flatMap fun flag => flag.text :: i.argumentsAt flag.position
  /-- All arguments are those placed before every flag and those of one flag after the other. -/
  all : i.argumentsAt 0 =
    textsAt i.arguments 0 ++ (List.range' 1 i.flags.length).flatMap i.argumentsAt
  none_behind : ∀ position, i.flags.length < position → i.argumentsAt position = []

theorem argumentsAt_of_pos {position : Nat} (h : 0 < position) :
    i.argumentsAt position = textsAt i.arguments position :=
  if_neg h.ne'

theorem argumentsAt_flag (h : InOrder (i.flags, i.arguments)) {flag : Placed}
    (hmem : flag ∈ i.flags) : i.argumentsAt flag.position = textsAt i.arguments flag.position :=
  argumentsAt_of_pos (h.lt_position hmem)

/-- Flags and arguments in order share the arguments out. -/
theorem sharesOut_of_inOrder (h : InOrder (i.flags, i.arguments)) : i.SharesOut where
  merged := by
    rw [merge, mergeAfter]
    congr 1
    exact List.flatMap_congr fun flag hmem => by rw [argumentsAt_flag h hmem]
  all := by
    have hmap := map_text_arguments 0 (mergeAfter 0 i.flags i.arguments)
    rw [h.splitFlagsAfter_mergeAfter] at hmap
    calc i.argumentsAt 0
        = i.arguments.map (·.text) := if_pos rfl
      _ = textsAt i.arguments 0 ++ i.flags.flatMap fun flag => textsAt i.arguments flag.position :=
          hmap.trans h.filter_mergeAfter
      _ = textsAt i.arguments 0 ++ i.flags.flatMap fun flag => i.argumentsAt flag.position := by
          congr 1
          exact List.flatMap_congr fun flag hmem => by rw [argumentsAt_flag h hmem]
      _ = textsAt i.arguments 0 ++ (List.range' 1 i.flags.length).flatMap i.argumentsAt := by
          rw [← h.numbered, List.flatMap_map]
  none_behind position hlt := by
    rw [argumentsAt_of_pos (Nat.zero_lt_of_lt hlt), textsAt, List.map_eq_nil_iff,
      List.filter_eq_nil_iff]
    intro argument ha
    have hle : argument.position ≤ 0 + i.flags.length := h.within argument ha
    simp only [beq_iff_eq]
    omega

end Invocation

/-- Splitting is a bijection from the lists of tokens onto the flags and arguments in order, and
merging is its inverse. The arguments of the invocation that tokens make are shared out. -/
theorem splitFlags_bijOn :
    Set.BijOn splitFlags Set.univ {placing | InOrder placing} ∧
      Set.InvOn merge splitFlags Set.univ {placing | InOrder placing} ∧
        ∀ (name : String) (tokens : List String), (Invocation.ofTokens name tokens).SharesOut := by
  have hinOrder (tokens : List String) : InOrder (splitFlags tokens) :=
    inOrderAfter_splitFlagsAfter 0 tokens
  have hinverse : Set.InvOn merge splitFlags Set.univ {placing | InOrder placing} :=
    ⟨fun tokens _ => mergeAfter_splitFlagsAfter 0 tokens,
      fun _ h => h.splitFlagsAfter_mergeAfter⟩
  refine ⟨?_, hinverse, fun name tokens => Invocation.sharesOut_of_inOrder (hinOrder tokens)⟩
  exact hinverse.bijOn (fun tokens _ => hinOrder tokens) (Set.mapsTo_univ _ _)

-- a repeated flag, a bare dash and an empty argument
example : splitFlags ["a", "-i", "", "-", "-i", "b"] =
      ([⟨1, "-i"⟩, ⟨2, "-"⟩, ⟨3, "-i"⟩], [⟨0, "a"⟩, ⟨1, ""⟩, ⟨3, "b"⟩]) ∧
    merge ([⟨1, "-i"⟩, ⟨2, "-"⟩, ⟨3, "-i"⟩], [⟨0, "a"⟩, ⟨1, ""⟩, ⟨3, "b"⟩]) =
      ["a", "-i", "", "-", "-i", "b"] := by
  decide +kernel

end CommandConsole
