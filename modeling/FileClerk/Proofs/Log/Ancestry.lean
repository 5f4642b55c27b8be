import Mathlib.Data.List.Infix
import FileClerk.Log.Logger

/-!
# Loggers above a logger

The loggers above one are found from the end of its name, a point at a time. When no logger is known
at a point, a second point right in front of it is passed over. So the logger of the program may be
missed when a name has a second point right behind that of the program (`not_mem_above_of_doubled`).
Above all other loggers of the program it is the last one (`exists_above`), and as no logger between
them is set up, its setup alone counts (`effectiveRank_lineage`, `reached_lineage`). Both follow
from what a search does with the rest of a name (`above_append`).
-/

set_option autoImplicit false

namespace FileClerk.Log

/-! ## Names -/

/-- The name is `rootLogger` or starts with `rootLogger` and a point. -/
def IsInside (name : String) : Prop :=
  name = rootLogger ∨ (rootLogger ++ ".").toList <+: name.toList

/-- The name starts with `rootLogger ++ ".."`: two points stand right behind the name of the
program. -/
def IsDoubled (name : String) : Prop := (rootLogger ++ "..").toList <+: name.toList

instance (name : String) : Decidable (IsDoubled name) :=
  inferInstanceAs (Decidable (_ <+: _))

/-- The name that `get_logger` gives a logger, `loggerName name`, `IsInside` the program. -/
theorem isInside_loggerName (name : String) : IsInside (loggerName name) := by
  rw [loggerName]
  split
  · rename_i h
    rw [Bool.or_eq_true, beq_iff_eq, List.isPrefixOf_iff_prefix] at h
    exact h
  · refine Or.inr ⟨name.toList, ?_⟩
    rw [String.toList_append, String.toList_append, String.toList_append]

/-- The characters of `rootLogger` from the end. -/
def rootReversed : List Char := rootLogger.toList.reverse

/-- A name that `IsInside` and is not `IsDoubled`, from its end. -/
theorem exists_reversed {name : String} (hinside : IsInside name) (hroot : name ≠ rootLogger)
    (hdoubled : ¬IsDoubled name) :
    ∃ u, name.toList.reverse = u ++ '.' :: rootReversed ∧ u.getLast? ≠ some '.' := by
  obtain ⟨t, ht⟩ := hinside.resolve_left hroot
  rw [String.toList_append] at ht
  refine ⟨t.reverse, ?_, ?_⟩
  · rw [← ht, List.reverse_append, List.reverse_append]
    rfl
  · intro hlast
    rw [List.getLast?_reverse] at hlast
    apply hdoubled
    obtain ⟨more, rfl⟩ : ∃ more, t = '.' :: more := by
      cases t with
      | nil => cases hlast
      | cons c more => exact ⟨more, by rw [Option.some.inj hlast]⟩
    refine ⟨more, ?_⟩
    rw [← ht, String.toList_append, List.append_assoc, List.append_assoc]
    rfl

/-- A name with two points behind that of the program, from its end. -/
theorem exists_reversed_doubled {name : String} (h : IsDoubled name) :
    ∃ u, name.toList.reverse = u ++ '.' :: '.' :: rootReversed := by
  obtain ⟨t, ht⟩ := h
  refine ⟨t.reverse, ?_⟩
  rw [← ht, String.toList_append, List.reverse_append, List.reverse_append]
  rfl

/-! ## The search -/

section Search

variable {known : List String}

theorem notMem_rootReversed : '.' ∉ rootReversed := by decide

/-- Without points there is no logger above. -/
theorem above_eq_nil {s : List Char} (h : '.' ∉ s) : above known s = [] := by
  induction s with
  | nil => rfl
  | cons c s ih =>
      rw [List.mem_cons, not_or] at h
      cases s with
      | nil => rfl
      | cons d s =>
          have hpoint : (c == '.') = false := beq_eq_false_iff_ne.2 (Ne.symm h.1)
          rw [above, hpoint, if_neg Bool.false_ne_true]
          exact ih h.2

/-- A name with a point is not that of the program. -/
theorem ofList_ne_root {s : List Char} (h : '.' ∈ s) : String.ofList s.reverse ≠ rootLogger := by
  intro heq
  have hlist := congrArg (fun name : String => name.toList.reverse) heq
  simp only [String.toList_ofList, List.reverse_reverse] at hlist
  rw [hlist] at h
  exact notMem_rootReversed h

/-- The search `above` comes to the rest of a name that has a point in it, and finds other loggers
than `rootLogger` before. It may pass over the start of the rest, if that is right behind a point
and the rest is not known. The induction is on the length, since a step takes one character or two.
-/
theorem above_append {rest : List Char} (hpoint : '.' ∈ rest) (u : List Char) :
    ∃ between, rootLogger ∉ between ∧
      (above known (u ++ rest) = between ++ above known rest ∨
        u.getLast? = some '.' ∧ String.ofList rest.reverse ∉ known ∧
          above known (u ++ rest) = between ++ above known rest.tail) := by
  induction hlength : u.length using Nat.strong_induction_on generalizing u with
  | _ length ih =>
      subst hlength
      match u with
      | [] => exact ⟨[], List.not_mem_nil, .inl rfl⟩
      | [c] =>
          obtain ⟨d, rest, rfl⟩ := List.exists_cons_of_ne_nil (List.ne_nil_of_mem hpoint)
          rw [List.singleton_append, above]
          split
          · rename_i hc
            rw [eq_of_beq hc]
            split
            · refine ⟨[_], ?_, .inl rfl⟩
              rw [List.mem_singleton]
              exact Ne.symm (ofList_ne_root hpoint)
            · rename_i hunknown
              exact ⟨[], List.not_mem_nil, .inr ⟨rfl, mt List.contains_iff_mem.2 hunknown, rfl⟩⟩
          · exact ⟨[], List.not_mem_nil, .inl rfl⟩
      | c :: d :: u =>
          rw [List.cons_append, List.cons_append, above, List.getLast?_cons_cons]
          split
          · split
            · obtain ⟨between, hnot, hrest⟩ := ih (d :: u).length (Nat.lt_succ_self _) (d :: u) rfl
              have hfirst := ofList_ne_root (List.mem_append_right (d :: u) hpoint)
              refine ⟨String.ofList (d :: u ++ rest).reverse :: between, ?_, ?_⟩
              · rw [List.mem_cons, not_or]
                exact ⟨Ne.symm hfirst, hnot⟩
              · exact hrest.imp (congrArg _) fun ⟨hlast, hunknown, habove⟩ =>
                  ⟨hlast, hunknown, congrArg _ habove⟩
            · -- no logger is known at the point, and the search passes over `d` as well
              have hshorter : u.length < (c :: d :: u).length := Nat.lt_add_of_pos_right Nat.two_pos
              obtain ⟨between, hnot, hrest⟩ := ih u.length hshorter u rfl
              refine ⟨between, hnot, hrest.imp_right fun ⟨hlast, hunknown, habove⟩ => ?_⟩
              refine ⟨?_, hunknown, habove⟩
              rw [List.getLast?_cons, hlast]
              rfl
          · exact ih (d :: u).length (Nat.lt_succ_self _) (d :: u) rfl

/-- The last logger above is `rootLogger`, unless the point behind its name may be passed over. -/
theorem exists_above (hknown : rootLogger ∈ known) {u : List Char} (hu : u.getLast? ≠ some '.') :
    ∃ between, above known (u ++ '.' :: rootReversed) = between ++ [rootLogger] ∧
      rootLogger ∉ between := by
  have hroot : above known ('.' :: rootReversed) = [rootLogger] := by
    have hcontains : known.contains rootLogger = true := List.contains_iff_mem.2 hknown
    have hname : String.ofList (rootReversed).reverse = rootLogger := by decide
    rw [show rootReversed = 's' :: rootReversed.tail from rfl, above,
      if_pos (by rfl), show 's' :: rootReversed.tail = rootReversed from rfl, hname, hcontains,
      if_pos rfl, above_eq_nil notMem_rootReversed]
  obtain ⟨between, hnot, habove | ⟨hlast, -⟩⟩ := above_append List.mem_cons_self u
  · exact ⟨between, hroot ▸ habove, hnot⟩
  · exact absurd hlast hu

/-- A name that `IsDoubled` has no `rootLogger` above it when the name that ends in the first point
is not known, but the one that ends in the second is. -/
theorem not_mem_above_of_doubled (hpoint : rootLogger ++ "." ∉ known)
    (hpoints : rootLogger ++ ".." ∈ known) (u : List Char) :
    rootLogger ∉ above known (u ++ '.' :: '.' :: rootReversed) := by
  have hnone : above known ('.' :: '.' :: rootReversed) = [] := by
    have hcontains : known.contains (rootLogger ++ ".") ≠ true := mt List.contains_iff_mem.1 hpoint
    have hname : String.ofList ('.' :: rootReversed).reverse = rootLogger ++ "." := by decide
    rw [above, if_pos (by rfl), hname, if_neg hcontains, above_eq_nil notMem_rootReversed]
  obtain ⟨between, hnot, habove | ⟨-, hunknown, -⟩⟩ := above_append List.mem_cons_self u
  · rw [habove, hnone, List.append_nil]
    exact hnot
  · have hname : String.ofList ('.' :: '.' :: rootReversed).reverse = rootLogger ++ ".." := by
      decide
    exact absurd (hname ▸ hpoints) hunknown

end Search

/-! ## What counts for a logger -/

section Lineage

variable {loggers : Loggers} {name : String}

/-- The setup of another logger than that of the program. -/
theorem setupOf_of_ne (h : name ≠ rootLogger) : loggers.setupOf name = .initial :=
  if_neg (by rwa [beq_iff_eq])

/-- The setups of other loggers than that of the program. -/
theorem map_setupOf {between : List String} (h : rootLogger ∉ between) :
    between.map loggers.setupOf = List.replicate between.length .initial := by
  refine List.eq_replicate_iff.2 ⟨List.length_map _, fun setup hmem => ?_⟩
  obtain ⟨name, hname, rfl⟩ := List.mem_map.1 hmem
  exact setupOf_of_ne fun heq => h (heq ▸ hname)

/-- Setups of no rank are passed over in the search for one. -/
theorem effectiveRank_replicate (n : Nat) (lineage : List Setup) :
    effectiveRank (List.replicate n .initial ++ lineage) = effectiveRank lineage := by
  induction n with
  | zero => rfl
  | succ n ih => exact ih

/-- Setups without handlers pass an event on. -/
theorem reached_replicate (n : Nat) (lineage : List Setup) :
    reached (List.replicate n .initial ++ lineage) = reached lineage := by
  induction n with
  | zero => rfl
  | succ n ih => exact ih

/-- The setup of `rootLogger` counts for the loggers below it, unless their names are `IsDoubled`.
-/
theorem exists_lineage (hknown : rootLogger ∈ loggers.known) (hinside : IsInside name)
    (hdoubled : ¬IsDoubled name) :
    ∃ n rest, loggers.lineage name = List.replicate n .initial ++ loggers.own :: rest := by
  by_cases hroot : name = rootLogger
  · subst hroot
    exact ⟨0, _, rfl⟩
  · obtain ⟨u, hname, hlast⟩ := exists_reversed hinside hroot hdoubled
    obtain ⟨between, habove, hnot⟩ := exists_above hknown hlast
    refine ⟨(name :: between).length, [loggers.top], ?_⟩
    rw [Loggers.lineage, hname, habove, ← List.cons_append, List.map_append, List.append_assoc,
      map_setupOf (by rw [List.mem_cons, not_or]; exact ⟨Ne.symm hroot, hnot⟩)]
    rfl

/-- The `effectiveRank` of a logger of the program is the rank of its setup. -/
theorem effectiveRank_lineage (hknown : rootLogger ∈ loggers.known) (hinside : IsInside name)
    (hdoubled : ¬IsDoubled name) (hrank : loggers.own.rank ≠ 0) :
    effectiveRank (loggers.lineage name) = loggers.own.rank := by
  obtain ⟨n, rest, hlineage⟩ := exists_lineage hknown hinside hdoubled
  have hset : (loggers.own.rank != 0) = true := bne_iff_ne.2 hrank
  rw [hlineage, effectiveRank_replicate, effectiveRank, List.map_cons, List.find?_cons, hset]
  rfl

/-- The handlers that an event of the program has `reached` are those of its setup. -/
theorem reached_lineage (hknown : rootLogger ∈ loggers.known) (hinside : IsInside name)
    (hdoubled : ¬IsDoubled name) (hkeeps : loggers.own.passesOn = false) :
    reached (loggers.lineage name) = loggers.own.handlers := by
  obtain ⟨n, rest, hlineage⟩ := exists_lineage hknown hinside hdoubled
  rw [hlineage, reached_replicate, reached, hkeeps, if_neg Bool.false_ne_true, List.append_nil]

/-- An event of a logger that `IsDoubled` has `reached` no handler, when the topmost logger has
none. -/
theorem reached_lineage_of_doubled (hdoubled : IsDoubled name)
    (hpoint : rootLogger ++ "." ∉ loggers.known) (hpoints : rootLogger ++ ".." ∈ loggers.known)
    (htop : loggers.top.handlers = []) : reached (loggers.lineage name) = [] := by
  obtain ⟨u, hname⟩ := exists_reversed_doubled hdoubled
  have hroot : name ≠ rootLogger := by
    rintro rfl
    revert hdoubled
    decide
  have hnot := not_mem_above_of_doubled hpoint hpoints u
  rw [← hname] at hnot
  rw [Loggers.lineage,
    map_setupOf (by rw [List.mem_cons, not_or]; exact ⟨Ne.symm hroot, hnot⟩), reached_replicate,
    reached, htop, reached, ite_self]
  rfl

end Lineage

end FileClerk.Log
