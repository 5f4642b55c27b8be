import FileClerk.Log.Line
import FileClerk.Proofs.Json.RoundTrip
import FileClerk.Proofs.Log.Ancestry
import FileClerk.Proofs.Lookup

/-!
# Rows for programs

A call to a logger is an event whose logger is one of the program. The line for programs of an event
stays one line whatever its message says (`oneLine_programText`), and it is read as a mapping with
what the call has said (`exists_row`): no entry hides another one, as the names of all entries are
different (`nodup_entries`).
-/

set_option autoImplicit false

namespace FileClerk.Log

/-! ## Calls -/

/-- A call to a logger of `get_logger name`: its level, its message, and the further fields that it
gives. -/
structure Call where
  name : String
  level : Level
  message : String
  fields : List (String × Value)
  failure : Option String
  deriving BEq, Repr

namespace Call

/-- The `Event` that a call is. -/
def event (call : Call) : Event :=
  ⟨⟨call.level, loggerName call.name, call.message, call.fields⟩, call.failure⟩

/-- The further fields of the call are `knownFields`, and each of their values `IsWritable`. -/
def IsPlain (call : Call) : Prop :=
  ∀ field ∈ call.fields, field.1 ∈ knownFields ∧ Json.IsWritable field.2

end Call

/-- The names that a line for programs can have. -/
def rowNames : List String :=
  ["timestamp", "level", "logger", "message", "correlation_id", "exception"] ++ knownFields

/-- The mapping `row` says what the call has said, under a logger of the program. Two such rows
differ in their `timestamp` only. -/
structure IsRow (correlation : String) (call : Call) (row : Value) : Prop where
  level : row.field? "level" = some (.text call.level.name)
  logger : row.field? "logger" = some (.text (loggerName call.name))
  inside : IsInside (loggerName call.name)
  message : row.field? "message" = some (.text call.message)
  correlation : row.field? "correlation_id" = some (.text correlation)
  failure : row.field? "exception" = call.failure.map .text
  fields : ∀ name ∈ knownFields, row.field? name = (call.fields.lookup name).map Json.kept
  others : ∀ name, name ∉ rowNames → row.field? name = none

/-! ## Entries -/

section Rows

variable {event : Event} {call : Call}

/-- The names of `entries` are different. -/
theorem nodup_entries (time : Moment) (correlation : String) (event : Event) :
    ((event.entries time correlation).map (·.1)).Nodup := by
  have hfailure : (((event.failure.map fun f => [("exception", Value.text f)]).getD []).map
      (·.1)).Sublist ["exception"] := by
    cases event.failure with
    | none => exact List.nil_sublist _
    | some f => exact List.Sublist.refl _
  have hfields : ((shownFields event.row).map (·.1)).Sublist knownFields := map_fst_filterMap
  have hnames : (["timestamp", "level", "logger", "message", "correlation_id"] ++ ["exception"]
      ++ knownFields).Nodup := by decide
  rw [Event.entries, List.map_append, List.map_append]
  exact hnames.sublist (((List.Sublist.refl _).append hfailure).append hfields)

/-- One of the `entries` has a text under a name that every row may have, or it is a known field
with its value in the row. -/
theorem entries_cases {time : Moment} {correlation : String} {entry : String × Value}
    (h : entry ∈ event.entries time correlation) :
    (entry.1 ∈ ["timestamp", "level", "logger", "message", "correlation_id", "exception"] ∧
        ∃ s, entry.2 = .text s) ∨
      entry.1 ∈ knownFields ∧ (entry.1, entry.2) ∈ event.row.fields := by
  rw [Event.entries, List.mem_append, List.mem_append] at h
  rcases h with (hfixed | hfailure) | hfield
  · left
    simp only [List.mem_cons, List.not_mem_nil, or_false] at hfixed
    rcases hfixed with rfl | rfl | rfl | rfl | rfl <;> exact ⟨by simp, _, rfl⟩
  · left
    cases hevent : event.failure with
    | none =>
        rw [hevent] at hfailure
        exact absurd hfailure List.not_mem_nil
    | some failure =>
        rw [hevent, Option.map_some, Option.getD_some, List.mem_singleton] at hfailure
        subst hfailure
        exact ⟨by simp, failure, rfl⟩
  · right
    obtain ⟨name, hknown, hshown⟩ := List.mem_filterMap.1 hfield
    obtain ⟨value, hvalue, rfl⟩ := Option.map_eq_some_iff.1 hshown
    exact ⟨hknown, mem_of_lookup hvalue⟩

/-- The values of `entries` are `IsWritable` for a plain call. -/
theorem isWritable_entries (h : call.IsPlain) (time : Moment) (correlation : String) :
    ∀ entry ∈ call.event.entries time correlation, Json.IsWritable entry.2 := by
  intro entry hentry
  rcases entries_cases hentry with ⟨-, s, hs⟩ | ⟨-, hfield⟩
  · rw [hs]
    exact .text s
  · exact (h _ hfield).2

theorem isWritable_ofFields {fields : List (String × Value)}
    (h : ∀ field ∈ fields, Json.IsWritable field.2) : Json.IsWritable (.ofFields fields) := by
  refine .map _ ?_ ?_ <;> rw [List.forall_mem_map]
  · exact fun field _ => trivial
  · exact h

/-- The line `programText` of a plain call has no `\n`. -/
theorem oneLine_programText (h : call.IsPlain) (time : Moment) (correlation : String) :
    Json.OneLine (call.event.programText time correlation) :=
  Json.oneLine_compact (isWritable_ofFields (isWritable_entries h time correlation))

/-- A known field is found in `entries` as it is found in the row. -/
theorem lookup_entries {name : String} (hname : name ∈ knownFields) (time : Moment)
    (correlation : String) (event : Event) :
    (event.entries time correlation).lookup name = event.row.fields.lookup name := by
  have hother : ∀ other ∈ ["timestamp", "level", "logger", "message", "correlation_id",
      "exception"], (name == other) = false := by
    revert name
    decide
  simp only [List.forall_mem_cons] at hother
  obtain ⟨htime, hlevel, hlogger, hmessage, hcorrelation, hexception, -⟩ := hother
  have hfailure : ((event.failure.map fun f => [("exception", Value.text f)]).getD []).lookup name =
      none := by
    cases event.failure with
    | none => rfl
    | some f =>
        rw [Option.map_some, Option.getD_some, List.lookup_cons, hexception]
        rfl
  rw [Event.entries, List.lookup_append, List.lookup_append, hfailure, shownFields,
    lookup_filterMap, if_pos hname]
  simp [List.lookup_cons, htime, hlevel, hlogger, hmessage, hcorrelation]

/-- Nothing is found in a line for programs under any other name. -/
theorem lookup_entries_eq_none {name : String} (hname : name ∉ rowNames) (time : Moment)
    (correlation : String) (event : Event) :
    (event.entries time correlation).lookup name = none := by
  rw [List.lookup_eq_none_iff]
  intro entry hentry
  rw [bne_iff_ne]
  rintro rfl
  apply hname
  rw [rowNames, List.mem_append]
  exact (entries_cases hentry).imp And.left And.left

/-- The line `programText` of a plain call parses as a mapping with `IsRow`. -/
theorem exists_row (h : call.IsPlain) (time : Moment) (correlation : String) :
    ∃ row, Json.parse? (call.event.programText time correlation) = some row ∧
      IsRow correlation call row := by
  have hread := Json.parse?_compact (isWritable_ofFields (isWritable_entries h time correlation))
  rw [Json.kept_ofFields (nodup_entries time correlation call.event)] at hread
  -- a field of the mapping that is read back is looked up in the entries
  have hfield : ∀ name, (Value.ofFields ((call.event.entries time correlation).map
      fun entry => (entry.1, Json.kept entry.2))).field? name =
        ((call.event.entries time correlation).lookup name).map Json.kept := fun name => by
    rw [Value.field?_ofFields, lookup_map_snd]
  refine ⟨_, hread, ?_⟩
  exact {
    level := by rw [hfield]; rfl
    logger := by rw [hfield]; rfl
    inside := isInside_loggerName call.name
    message := by rw [hfield]; rfl
    correlation := by rw [hfield]; rfl
    failure := by
      rw [hfield, Event.entries, List.lookup_append, List.lookup_append, shownFields,
        lookup_filterMap, if_neg (by decide)]
      rw [show call.event.failure = call.failure from rfl]
      cases call.failure with
      | none => rfl
      | some failure => rfl
    fields := by
      intro name hname
      rw [hfield, lookup_entries hname]
      rfl
    others := by
      intro name hname
      rw [hfield, lookup_entries_eq_none hname]
      rfl }

end Rows

end FileClerk.Log
