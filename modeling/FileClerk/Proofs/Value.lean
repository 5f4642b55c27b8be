import Mathlib.Data.List.Nodup
import FileClerk.Value.Basic

/-!
# Mappings with text keys

The value under a key of a mapping that is made of fields is that of the first field with this name
(`Value.field?_ofFields`). A value that is set is found under its key, and the other keys keep
theirs (`Value.find?_insert_text`). Entries with different keys that are put into a mapping one
after another are the mapping (`Value.ofPairs_texts`).
-/

set_option autoImplicit false

namespace FileClerk.Value

/-- A lookup by `find?` goes entry by entry. -/
@[simp]
theorem find?_cons_text (key k : String) (v : Value) (rest : List (Value × Value)) :
    find? key ((text k, v) :: rest) = if k == key then some v else find? key rest := rfl

/-- Texts are the same key when they are equal. -/
@[simp]
theorem sameKey_text (s t : String) : sameKey (text s) (text t) = (s == t) := rfl

/-- Only the text is equal to a text. -/
theorem beq_text_iff {k : Value} {key : String} : (k == text key) = true ↔ k = text key := by
  constructor
  · intro h
    cases k with
    | text s => exact congrArg text (eq_of_beq (α := String) h)
    | _ => cases h
  · rintro rfl
    exact beq_self_eq_true key

/-- A key is the same as a text when it is equal to it under `==`. -/
theorem sameKey_text_right (k : Value) (key : String) : sameKey k (text key) = (k == text key) := by
  cases k with
  | float x =>
      unfold sameKey
      simp only [ratio?]
      cases x.ratio? with
      | none => rfl
      | some ratio => rfl
  | _ => rfl

/-- What `find?` gives after `insert`: the new value under its own key, and the old ones elsewhere.
-/
theorem find?_insert_text (key name : String) (value : Value) (entries : List (Value × Value)) :
    find? name (insert (text key) value entries) =
      if key = name then some value else find? name entries := by
  induction entries with
  | nil =>
      rw [insert, find?_cons_text]
      simp [find?]
  | cons entry rest ih =>
      obtain ⟨k, v⟩ := entry
      rw [insert, sameKey_text_right]
      by_cases hk : k = text key
      · subst hk
        rw [if_pos (beq_text_iff.2 rfl), find?_cons_text, find?_cons_text]
        by_cases hname : key = name
        · simp [hname]
        · simp [hname]
      · rw [if_neg (mt beq_text_iff.1 hk), find?, find?, ih]
        by_cases hname : key = name
        · subst hname
          rw [if_neg (mt beq_text_iff.1 hk), if_pos rfl, if_pos rfl]
        · rw [if_neg hname, if_neg hname]

/-- The entries that fields are. -/
def texts (fields : List (String × Value)) : List (Value × Value) :=
  fields.map fun (k, v) => (text k, v)

variable {fields : List (String × Value)} {name : String}

theorem find?_texts (name : String) (fields : List (String × Value)) :
    find? name (texts fields) = fields.lookup name := by
  induction fields with
  | nil => rfl
  | cons field fields ih =>
      obtain ⟨k, v⟩ := field
      rw [texts, List.map_cons, find?_cons_text, List.lookup_cons]
      by_cases hk : k = name
      · subst hk
        simp
      · rw [if_neg (by simpa using hk), beq_eq_false_iff_ne.2 (Ne.symm hk)]
        exact ih

/-- The value of a field. -/
theorem field?_ofFields (name : String) (fields : List (String × Value)) :
    (ofFields fields).field? name = fields.lookup name :=
  find?_texts name fields

/-- A new key comes last in `insert`. -/
theorem insert_texts (h : name ∉ fields.map (·.1)) (value : Value) :
    insert (text name) value (texts fields) = texts (fields ++ [(name, value)]) := by
  induction fields with
  | nil => rfl
  | cons field fields ih =>
      obtain ⟨k, v⟩ := field
      rw [List.map_cons, List.mem_cons, not_or] at h
      have hne : (k == name) = false := beq_eq_false_iff_ne.2 (Ne.symm h.1)
      rw [texts, List.map_cons, insert, sameKey_text, hne, if_neg Bool.false_ne_true]
      exact congrArg _ (ih h.2)

/-- Entries with different names stay as they are in `ofPairs`. -/
theorem ofPairs_texts (h : (fields.map (·.1)).Nodup) : ofPairs (texts fields) = texts fields := by
  -- the entries that are there already are carried along
  suffices hall : ∀ before, ((before ++ fields).map (·.1)).Nodup →
      (texts fields).foldl (fun entries entry => insert entry.1 entry.2 entries) (texts before) =
        texts (before ++ fields) from hall [] h
  clear h
  induction fields with
  | nil =>
      intro before _
      rw [List.append_nil]
      rfl
  | cons field fields ih =>
      intro before hnodup
      have hnew : field.1 ∉ before.map (·.1) := by
        intro hmem
        rw [List.map_append, List.nodup_append] at hnodup
        exact hnodup.2.2 _ hmem _ List.mem_cons_self rfl
      have hrest := ih (before ++ [field]) (by simpa using hnodup)
      rw [List.append_assoc, List.singleton_append] at hrest
      rw [← hrest, ← insert_texts hnew]
      rfl

end FileClerk.Value
