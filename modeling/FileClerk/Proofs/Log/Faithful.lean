import Mathlib.Data.List.Forall2
import FileClerk.Log.Session
import FileClerk.Proofs.Log.Line
import FileClerk.Proofs.Text.Split

/-!
# What a log shows

Settings may ask for lines for programs on the console and in the file. A session of calls then
writes a row for each call from the rank of the setup on to either place, and nothing else, in the
order of the calls (`session_calls`): every logger of the program has this rank and comes to the two
handlers of the setup, whatever other loggers are known, and what was found out about levels before
stays true (`Loggers.HaveSetup.asked`). The one exception are loggers with a second point right
behind the name of the program, whose calls may come to no handler. Without them, and only without
them, all sessions of calls are shown (`jsonLog_faithful_iff`).
-/

set_option autoImplicit false

namespace FileClerk.Log

open FileClerk.Text

/-! ## Lines -/

section Lines

/-- The rows with `\n` behind each of them. -/
def rowsText (rows : List String) : String := String.join (rows.map (· ++ "\n"))

theorem rowsText_cons (row : String) (rows : List String) :
    rowsText (row :: rows) = row ++ "\n" ++ rowsText rows := by
  rw [rowsText, List.map_cons, String.join_cons]
  rfl

/-- Rows that are `OneLine` are the `lines` of `rowsText`, in front of the empty text at the end. -/
theorem lines_rowsText {rows : List String} (h : ∀ row ∈ rows, Json.OneLine row) :
    lines (rowsText rows) = rows ++ [""] := by
  induction rows with
  | nil => rfl
  | cons row rows ih =>
      obtain ⟨hrow, hrows⟩ := List.forall_mem_cons.1 h
      have hlist : (rowsText (row :: rows)).toList =
          row.toList ++ '\n' :: (rowsText rows).toList := by
        rw [rowsText_cons, String.toList_append, String.toList_append, List.append_assoc]
        rfl
      rw [lines, hlist, splitAtChar_append hrow, List.map_cons, String.ofList_toList,
        List.cons_append, ← ih hrows, lines]

end Lines

/-! ## Texts that show calls -/

/-- The text has one line for each call, in their order, that parses as a mapping with `IsRow`. -/
def ShowsCalls (correlation : String) (calls : List Call) (text : String) : Prop :=
  ∃ rows, lines text = rows ++ [""] ∧
    List.Forall₂ (fun call line => ∃ row, Json.parse? line = some row ∧ IsRow correlation call row)
      calls rows

/-- The file shows the calls from a rank on, and so does the console. The rows of one call differ in
their `timestamp` only, since the handlers read the clock one after the other. -/
structure Written.IsFaithful (written : Written) (correlation : String) (least : Nat)
    (calls : List Call) : Prop where
  file : ShowsCalls correlation (calls.filter fun call => least ≤ call.level.rank) written.file
  console : ShowsCalls correlation (calls.filter fun call => least ≤ call.level.rank)
    written.console

/-- The lines that `handler` writes for the calls whose rank is at least `least`, each at its own
reading of the clock. -/
def linesFrom (least : Nat) (handler : Handler) (context : Context) : List Call → List String
  | [] => []
  | call :: calls =>
    if least ≤ call.level.rank then
      call.event.programText (context.time handler) context.correlation
        :: linesFrom least handler context.next calls
    else linesFrom least handler context.next calls

section Shown

variable {calls : List Call} {least : Nat} {handler : Handler}

/-- Plain calls are written on one line each. -/
theorem oneLine_linesFrom (h : ∀ call ∈ calls, call.IsPlain) (context : Context) :
    ∀ line ∈ linesFrom least handler context calls, Json.OneLine line := by
  induction calls generalizing context with
  | nil => exact fun line hline => absurd hline List.not_mem_nil
  | cons call calls ih =>
      obtain ⟨hcall, hcalls⟩ := List.forall_mem_cons.1 h
      rw [linesFrom]
      split
      · exact List.forall_mem_cons.2 ⟨oneLine_programText hcall _ _, ih hcalls context.next⟩
      · exact ih hcalls context.next

/-- The lines for plain calls are rows for the calls from the rank on. -/
theorem forall₂_linesFrom (h : ∀ call ∈ calls, call.IsPlain) (context : Context) :
    List.Forall₂ (fun call line => ∃ row, Json.parse? line = some row ∧
        IsRow context.correlation call row)
      (calls.filter fun call => least ≤ call.level.rank)
      (linesFrom least handler context calls) := by
  induction calls generalizing context with
  | nil => exact .nil
  | cons call calls ih =>
      obtain ⟨hcall, hcalls⟩ := List.forall_mem_cons.1 h
      rw [linesFrom, List.filter_cons]
      by_cases hlevel : least ≤ call.level.rank
      · rw [if_pos (decide_eq_true hlevel), if_pos hlevel]
        exact .cons (exists_row hcall _ _) (ih hcalls context.next)
      · rw [if_neg (by simpa using hlevel), if_neg hlevel]
        exact ih hcalls context.next

/-- The lines for plain calls show the calls from the rank on. -/
theorem showsCalls_rowsText (h : ∀ call ∈ calls, call.IsPlain) (context : Context) :
    ShowsCalls context.correlation (calls.filter fun call => least ≤ call.level.rank)
      (rowsText (linesFrom least handler context calls)) :=
  ⟨_, lines_rowsText (oneLine_linesFrom h context), forall₂_linesFrom h context⟩

end Shown

/-- Nothing shows no call. -/
theorem not_showsCalls_empty (correlation : String) (call : Call) :
    ¬ShowsCalls correlation [call] "" := by
  rintro ⟨rows, hlines, hrows⟩
  have hnil : rows = [] := List.self_eq_append_left.1 hlines
  rw [hnil] at hrows
  cases hrows

/-! ## Setups -/

/-- The setup has the two handlers, `console` and `file`, both in the form for programs, and a rank
other than zero. -/
structure Setup.IsJson (setup : Setup) : Prop where
  rank : setup.rank ≠ 0
  handlers : setup.handlers = [.console true, .file]
  passesOn : setup.passesOn = false

/-- No name has a `rankOf` above that of `critical`. -/
theorem rankOf_le {name : String} {rank : Nat} (h : rankOf name = .ok rank) :
    rank ≤ Level.critical.rank := by
  have hnamed : ∀ entry ∈ levelNames, entry.2 ≤ Level.critical.rank := by decide
  rw [rankOf] at h
  split at h
  · cases h
  · rw [← Except.ok.inj h]
    cases hlookup : levelNames.lookup (String.ofList (upper name.toList)) with
    | none => decide
    | some rank =>
        exact hnamed (_, rank) (mem_of_lookup hlookup)

section Configure

variable {settings : LoggingSettings} {current setup : Setup}

/-- The setup that `configure` gives is made of the settings alone. -/
theorem configure_eq_ok (h : current.configure settings = .ok setup) :
    ∃ rank, rankOf settings.level = .ok rank ∧
      setup = ⟨rank, Setup.handlersOf settings, false⟩ := by
  rw [Setup.configure] at h
  cases hrank : rankOf settings.level with
  | error fault =>
      rw [hrank] at h
      cases h
  | ok rank =>
      rw [hrank] at h
      cases h
      exact ⟨rank, rfl, rfl⟩

/-- The highest level is never below the rank that settings name. -/
theorem rank_le_of_configure (h : current.configure settings = .ok setup) :
    setup.rank ≤ Level.critical.rank := by
  obtain ⟨rank, hnamed, rfl⟩ := configure_eq_ok h
  exact rankOf_le hnamed

/-- Settings with `json_format`, `console_output` and `file_output` lead to a setup that `IsJson`.
-/
theorem isJson_of_configure (hjson : settings.jsonFormat = true)
    (hconsole : settings.consoleOutput = true) (hfile : settings.fileOutput = true)
    (hsetup : current.configure settings = .ok setup) (hrank : setup.rank ≠ 0) :
    setup.IsJson := by
  obtain ⟨rank, -, rfl⟩ := configure_eq_ok hsetup
  refine ⟨hrank, ?_, rfl⟩
  rw [Setup.handlersOf, hconsole, hfile, hjson]
  rfl

end Configure

/-! ## Loggers with a setup -/

section Step

variable {loggers : Loggers} {setup : Setup}

/-- The loggers have the setup for `rootLogger`, and what was found out about the levels of loggers
of the program is true of it. -/
structure Loggers.HaveSetup (loggers : Loggers) (setup : Setup) : Prop where
  own : loggers.own = setup
  known : rootLogger ∈ loggers.known
  verdicts : ∀ name level verdict, IsInside name → ¬IsDoubled name →
    loggers.verdicts.lookup (name, level) = some verdict →
      verdict = decide (setup.rank ≤ level.rank)

/-- A logger of the program `admits` events from the rank of the setup on. -/
theorem Loggers.HaveSetup.admits (h : loggers.HaveSetup setup) (hrank : setup.rank ≠ 0)
    {name : String} (hinside : IsInside name) (hdoubled : ¬IsDoubled name) (level : Level) :
    loggers.admits name level = decide (setup.rank ≤ level.rank) := by
  rw [Loggers.admits]
  cases hverdict : loggers.verdicts.lookup (name, level) with
  | none =>
      rw [effectiveRank_lineage h.known hinside hdoubled (by rwa [h.own]), h.own]
      rfl
  | some verdict => exact h.verdicts name level verdict hinside hdoubled hverdict

/-- A further known logger and what is found out about it change nothing. -/
theorem Loggers.HaveSetup.asked (h : loggers.HaveSetup setup) (hrank : setup.rank ≠ 0)
    (name : String) (level : Level) : (loggers.asked name level).HaveSetup setup := by
  have hknown : ({ loggers with known := name :: loggers.known } : Loggers).HaveSetup setup :=
    ⟨h.own, List.mem_cons_of_mem _ h.known, h.verdicts⟩
  refine ⟨h.own, List.mem_cons_of_mem _ h.known, ?_⟩
  intro other grade verdict hinside hdoubled hlookup
  rw [Loggers.asked, List.lookup_cons] at hlookup
  split at hlookup
  · rename_i heq
    obtain ⟨rfl, rfl⟩ := Prod.mk.inj (eq_of_beq heq)
    rw [← Option.some.inj hlookup]
    exact hknown.admits hrank hinside hdoubled grade
  · exact h.verdicts other grade verdict hinside hdoubled hlookup

/-- A plain call has no field with the name of one that every row has. -/
theorem clash?_eq_none {call : Call} (h : call.IsPlain) : call.event.row.clash? = none := by
  have hfree : ∀ name ∈ knownFields, ¬reservedNames.contains name = true := by decide
  rw [Row.clash?, List.find?_eq_none, List.forall_mem_map]
  exact fun field hfield => hfree field.1 (h field hfield).1

/-- A plain call to a logger that is not `IsDoubled` is written by `take` to both places if its
level is high enough. -/
theorem take_call (hjson : setup.IsJson) (h : loggers.HaveSetup setup) {call : Call}
    (hplain : call.IsPlain) (hdoubled : ¬IsDoubled (loggerName call.name)) (context : Context)
    (written : Written) :
    loggers.take context written call.event = .ok (if setup.rank ≤ call.level.rank then
      (written.onConsole (call.event.programText (context.time (.console true))
          context.correlation)).inFile
        (call.event.programText (context.time .file) context.correlation) else written) := by
  have hinside := isInside_loggerName call.name
  have hhandlers : reached (loggers.lineage call.event.row.logger) = [.console true, .file] := by
    rw [← hjson.handlers, ← h.own]
    exact reached_lineage h.known hinside hdoubled (by rw [h.own, hjson.passesOn])
  have hadmits : loggers.admits call.event.row.logger call.event.row.level =
      decide (setup.rank ≤ call.level.rank) := h.admits hjson.rank hinside hdoubled call.level
  rw [Loggers.take, hadmits, clash?_eq_none hplain]
  by_cases hlevel : setup.rank ≤ call.level.rank
  · rw [if_pos (decide_eq_true hlevel), if_pos hlevel, Loggers.write, hhandlers]
    rfl
  · rw [if_neg (by simpa using hlevel), if_neg hlevel]

end Step

/-! ## Sessions -/

/-- A `session` of plain calls writes the lines `linesFrom` the rank of the setup on. The induction
is on the calls; the context, what was written before and the loggers change from call to call. -/
theorem session_calls {setup : Setup} (hjson : setup.IsJson) {calls : List Call}
    (hcalls : ∀ call ∈ calls, call.IsPlain ∧ ¬IsDoubled (loggerName call.name)) (context : Context)
    {loggers : Loggers} (h : loggers.HaveSetup setup) (written : Written) :
    loggers.session context written (calls.map Call.event) =
      .ok ⟨written.console ++ rowsText (linesFrom setup.rank (.console true) context calls),
        written.file ++ rowsText (linesFrom setup.rank .file context calls)⟩ := by
  induction calls generalizing context loggers written with
  | nil =>
      rw [List.map_nil, Loggers.session]
      exact congrArg Except.ok
        (congrArg₂ Written.mk String.append_empty.symm String.append_empty.symm)
  | cons call calls ih =>
      obtain ⟨⟨hplain, hdoubled⟩, hrest⟩ := List.forall_mem_cons.1 hcalls
      have hasked := h.asked hjson.rank call.event.row.logger call.event.row.level
      rw [List.map_cons, Loggers.session, take_call hjson hasked hplain hdoubled, linesFrom,
        linesFrom]
      refine (ih hrest context.next hasked _).trans ?_
      by_cases hlevel : setup.rank ≤ call.level.rank
      · simp only [if_pos hlevel, rowsText_cons]
        simp only [Written.inFile, Written.onConsole, String.append_assoc]
      · simp only [if_neg hlevel]

/-- An event that comes to no handler leaves the file as it is. -/
theorem file_eq_of_take {loggers : Loggers} {context : Context} {written after : Written}
    {event : Event} (hreached : reached (loggers.lineage event.row.logger) = [])
    (h : loggers.take context written event = .ok after) : after.file = written.file := by
  rw [Loggers.take] at h
  split at h
  · split at h
    · cases h
    · rw [← Except.ok.inj h, Loggers.write, hreached, writeBare]
      simp only [List.isEmpty_nil, if_true]
      split <;> rfl
  · rw [← Except.ok.inj h]

/-- A call to a logger that `IsDoubled` leaves the file as it is when the logger
`rootLogger ++ ".."` is known. -/
theorem file_eq_of_doubled {setup : Setup} {context : Context} {written after : Written}
    (call : Call) (hdoubled : IsDoubled (loggerName call.name))
    (h : (⟨[rootLogger, rootLogger ++ ".."], [], setup, .topmost⟩ : Loggers).session context written
      [call.event] = .ok after) : after.file = written.file := by
  -- the search passes over the first point, since the name that ends in it is not known
  have hpoint : rootLogger ++ "." ∉ [loggerName call.name, rootLogger, rootLogger ++ ".."] := by
    rw [List.mem_cons, not_or]
    refine ⟨fun heq => ?_, by decide⟩
    rw [← heq] at hdoubled
    exact absurd hdoubled (by decide)
  have hpoints : rootLogger ++ ".." ∈ [loggerName call.name, rootLogger, rootLogger ++ ".."] :=
    List.mem_cons_of_mem _ (by decide)
  have hreached : reached ((Loggers.asked ⟨[rootLogger, rootLogger ++ ".."], [], setup, .topmost⟩
      call.event.row.logger call.event.row.level).lineage call.event.row.logger) = [] :=
    @reached_lineage_of_doubled _ (loggerName call.name) hdoubled hpoint hpoints rfl
  rw [Loggers.session] at h
  cases htake : (Loggers.asked ⟨[rootLogger, rootLogger ++ ".."], [], setup, .topmost⟩
      call.event.row.logger call.event.row.level).take context written call.event with
  | error fault =>
      rw [htake] at h
      cases h
  | ok later =>
      rw [htake] at h
      rw [← Except.ok.inj h]
      exact file_eq_of_take hreached htake

/-- A setup with `json_format` shows all sessions of plain calls to loggers with some names, in
whatever tree of loggers, exactly if none of their full names `IsDoubled`. -/
theorem jsonLog_faithful_iff {settings : LoggingSettings} {current setup : Setup}
    (hjson : settings.jsonFormat = true) (hconsole : settings.consoleOutput = true)
    (hfile : settings.fileOutput = true) (hsetup : current.configure settings = .ok setup)
    (hrank : setup.rank ≠ 0) (context : Context) (names : List String) :
    (∀ known top calls, rootLogger ∈ known → (∀ call ∈ calls, call.name ∈ names ∧ call.IsPlain) →
        ∃ written, (⟨known, [], setup, top⟩ : Loggers).session context .empty
            (calls.map Call.event) = .ok written ∧
          written.IsFaithful context.correlation setup.rank calls) ↔
      ∀ name ∈ names, ¬IsDoubled (loggerName name) := by
  have hset := isJson_of_configure hjson hconsole hfile hsetup hrank
  constructor
  · -- one call of the highest level, where `rootLogger ++ ".."` is known as well
    intro h name hname hdoubled
    let call : Call := ⟨name, .critical, "", [], none⟩
    obtain ⟨written, hsession, hfaithful, -⟩ := h [rootLogger, rootLogger ++ ".."] .topmost [call]
      List.mem_cons_self (List.forall_mem_singleton.2 ⟨hname, fun _ hfield => by cases hfield⟩)
    have hlevel : setup.rank ≤ call.level.rank := rank_le_of_configure hsetup
    have hempty := file_eq_of_doubled call hdoubled hsession
    rw [List.filter_singleton, decide_eq_true hlevel, cond_true, hempty] at hfaithful
    exact not_showsCalls_empty context.correlation call hfaithful
  · intro hnames known top calls hknown hcalls
    have hloggers : (⟨known, [], setup, top⟩ : Loggers).HaveSetup setup :=
      ⟨rfl, hknown, fun _ _ _ _ _ hlookup => by cases hlookup⟩
    have hplain : ∀ call ∈ calls, call.IsPlain := fun call hcall => (hcalls call hcall).2
    refine ⟨_, session_calls hset (fun call hcall => ⟨hplain call hcall,
      hnames call.name (hcalls call hcall).1⟩) context hloggers .empty, ?_⟩
    simp only [Written.empty, String.empty_append]
    exact ⟨showsCalls_rowsText hplain context, showsCalls_rowsText hplain context⟩

/-- Settings that ask for lines for programs from a level on. -/
def programSettings (level : String) : LoggingSettings :=
  ⟨level, .ofText "logs", true, true, true, 10485760, 5⟩

/-- A clock that shows one more microsecond for each event, and for the file a second more than for
the console. -/
def steadyClock (n : Nat) (handler : Handler) : Moment :=
  ⟨FileTime.epoch + n + (if handler = .file then Moment.second else 0), none⟩

/-- A call with a message of two lines. -/
def twoLines : Call := ⟨"scanner", .info, "one\ntwo", [("operation", .text "scan")], none⟩

/-- Settings for messages from the level of information on show a call whose message has two
lines. -/
theorem jsonLog_faithful_twoLines :
    ∃ setup, Setup.initial.configure (programSettings "info") = .ok setup ∧
      ∃ written, (Loggers.ofSetup setup).session ⟨steadyClock, "cid"⟩ .empty
          ([twoLines].map Call.event) = .ok written ∧
        written.IsFaithful "cid" setup.rank [twoLines] := by
  have hsetup : Setup.initial.configure (programSettings "info") =
      .ok ⟨20, [.console true, .file], false⟩ := by decide +kernel
  have hplain : twoLines.IsPlain :=
    List.forall_mem_singleton.2 ⟨by decide, .text "scan"⟩
  have hfaithful := (jsonLog_faithful_iff rfl rfl rfl hsetup (by decide) ⟨steadyClock, "cid"⟩
    ["scanner"]).2 (by decide)
  exact ⟨_, hsetup, hfaithful [rootLogger] .topmost [twoLines] List.mem_cons_self
    (List.forall_mem_singleton.2 ⟨List.mem_cons_self, hplain⟩)⟩

/-- A call to a logger whose name starts with a point. -/
def pointed : Call := ⟨".x", .info, "m", [], none⟩

/-- The row of a call to `get_logger ".x"` does not come to the file, even if no other logger is
known. -/
theorem jsonLog_misses_pointed :
    ∃ setup, Setup.initial.configure (programSettings "INFO") = .ok setup ∧
      setup.rank ≤ pointed.level.rank ∧
      setup.checkedSession ⟨steadyClock, "cid"⟩ [pointed.event] = .ok .empty ∧
      ¬Written.empty.IsFaithful "cid" setup.rank [pointed] := by
  refine ⟨⟨20, [.console true, .file], false⟩, by decide +kernel, by decide, by rfl, ?_⟩
  exact fun h => not_showsCalls_empty "cid" pointed h.file

end FileClerk.Log
