import Mathlib.Data.List.Basic
import FileClerk.Proofs.Command.NameTerm
import FileClerk.Suggestion

/-!
# Suggestions while a text grows

A command is offered for a typed text when the text is a proper part of it: it stands in the command
and is not all of it, letter case and blanks at the ends left aside (`mem_suggest`). A part of a
proper part is a proper part again (`ProperPart.of_infix`). So leaving out the command that is typed
in full does not stand in the way: a text that grows is offered fewer and fewer commands, in the
order of the list and as often as they are listed (`suggest_narrows`).
-/

set_option autoImplicit false

namespace FileClerk.Suggestion

open FileClerk.Text

/-- What `suggest` looks for: the text in lower case without blanks at the ends. -/
def typed (part : String) : List Char := lower (trim part.toList)

/-! ## Proper parts -/

/-- The text `part` stands in `whole` and is not all of it. -/
def ProperPart (part whole : List Char) : Prop := part <:+: whole ∧ part ≠ whole

instance (part whole : List Char) : Decidable (ProperPart part whole) :=
  inferInstanceAs (Decidable (_ ∧ _))

/-- A part of a `ProperPart` is one. -/
theorem ProperPart.of_infix {part part' whole : List Char} (h : ProperPart part' whole)
    (hpart : part <:+: part') : ProperPart part whole := by
  refine ⟨hpart.trans h.1, ?_⟩
  rintro rfl
  -- the two texts would be parts of each other
  exact h.2 (h.1.eq_of_length_le hpart.length_le)

/-! ## What is offered -/

/-- The commands that `suggest` offers are those of which `typed part` is a `ProperPart`. -/
theorem suggest_eq_filter {part : String} (h : typed part ≠ []) (commands : List String) :
    suggest part commands =
      commands.filter fun command => decide (ProperPart (typed part) (lower command.toList)) := by
  have hne : ¬ (lower (trim part.toList)).isEmpty = true := by
    rw [List.isEmpty_iff]
    exact h
  simp only [suggest, if_neg hne]
  apply List.filter_congr
  intro command _
  rw [Bool.eq_iff_iff, Bool.and_eq_true, occursIn_iff_infix, bne_iff_ne, decide_eq_true_eq]
  rfl

/-- Nothing is offered for a blank text. -/
theorem suggest_eq_nil {part : String} (h : typed part = []) (commands : List String) :
    suggest part commands = [] := by
  have hempty : (lower (trim part.toList)).isEmpty = true := List.isEmpty_iff.2 h
  simp only [suggest, if_pos hempty]

theorem mem_suggest {part command : String} {commands : List String} :
    command ∈ suggest part commands ↔
      command ∈ commands ∧ typed part ≠ [] ∧
        ProperPart (typed part) (lower command.toList) := by
  by_cases h : typed part = []
  · simp [suggest_eq_nil h, h]
  · rw [suggest_eq_filter h, List.mem_filter, decide_eq_true_eq]
    exact and_congr_right' ⟨fun hpart => ⟨h, hpart⟩, And.right⟩

/-- What `suggest` gives is a sublist of `commands`. -/
theorem suggest_sublist (part : String) (commands : List String) :
    (suggest part commands).Sublist commands := by
  by_cases h : typed part = []
  · rw [suggest_eq_nil h]
    exact List.nil_sublist commands
  · rw [suggest_eq_filter h]
    exact List.filter_sublist

/-! ## Growing texts -/

/-- A text that holds another one is offered fewer commands, also if the shorter one is typed out in
full: the result of `suggest` is a sublist of `commands` and of the result for the shorter text. -/
theorem suggest_narrows (part longer : String) (commands : List String) :
    (suggest part commands).Sublist commands ∧ (suggest longer commands).Sublist commands ∧
      (typed part ≠ [] → typed part <:+: typed longer →
        (suggest longer commands).Sublist (suggest part commands)) := by
  refine ⟨suggest_sublist part commands, suggest_sublist longer commands, fun hne hinfix => ?_⟩
  have hlonger : typed longer ≠ [] := by
    intro hempty
    rw [hempty, List.infix_nil] at hinfix
    exact hne hinfix
  rw [suggest_eq_filter hne, suggest_eq_filter hlonger]
  apply List.monotone_filter_right
  intro command hoffered
  rw [decide_eq_true_eq] at hoffered ⊢
  exact hoffered.of_infix hinfix

/-- The command that the shorter text spells out is listed twice, and neither text offers it. -/
theorem suggest_narrows_sample :
    typed " SORT " ≠ [] ∧ typed " SORT " <:+: typed "sort by" ∧
      (suggest "sort by" ["Sort", "Sort by size", "SORT", "Resort by date"]).Sublist
        (suggest " SORT " ["Sort", "Sort by size", "SORT", "Resort by date"]) ∧
      suggest "sort by" ["Sort", "Sort by size", "SORT", "Resort by date"] =
        ["Sort by size", "Resort by date"] := by
  have hne : typed " SORT " ≠ [] := by decide +kernel
  have hinfix : typed " SORT " <:+: typed "sort by" := by decide +kernel
  exact ⟨hne, hinfix, (suggest_narrows " SORT " "sort by" _).2.2 hne hinfix, by decide +kernel⟩

end FileClerk.Suggestion
