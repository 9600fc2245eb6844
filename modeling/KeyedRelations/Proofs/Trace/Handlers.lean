import KeyedRelations.Trace.Setup
import Mathlib.Data.List.Basic

/-!
# The handlers of the trace

The trace can be set up any number of times, for levels that exist and for others, while the environment
changes and others add handlers to its logger. Each time there is one trace handler afterwards, the
handlers of others are as they have been added, and the root logger is as it has been. An unknown level
leaves the level and the propagation as they are.
-/

namespace KeyedRelations.Trace

/-! ## Levels by name -/

/-- The text by which a call asks for a level: its own, or that of the environment where the call has
none or an empty one, or `info` where the environment has none either. -/
inductive Asks (settings : Settings) : Option String → String → Prop
  | itself {text : String} (nonempty : text ≠ "") : Asks settings (some text) text
  | environment {given : Option String} {text : String} (missing : given.getD "" = "")
    (present : settings.level? = some text) : Asks settings given text
  | neither {given : Option String} (missing : given.getD "" = "") (absent : settings.level? = none) :
    Asks settings given "info"

theorem asks_level (settings : Settings) {given : Option String} (h : given.getD "" = "") :
    Asks settings given settings.level := by
  unfold Settings.level
  cases hlevel : settings.level? with
  | none => exact .neither h hlevel
  | some text => exact .environment h hlevel

theorem asks_levelOr (settings : Settings) (given : Option String) :
    Asks settings given (settings.levelOr given) := by
  unfold Settings.levelOr
  split
  · exact asks_level settings rfl
  · exact asks_level settings rfl
  · rename_i text hnonempty
    exact .itself hnonempty

namespace Level

theorem ofName?_eq_some_iff {name : String} {level : Level} :
    ofName? name = some level ↔ (name, level) ∈ names := by
  constructor
  · intro h
    obtain ⟨entry, hentry, rfl⟩ := Option.map_eq_some_iff.1 h
    obtain rfl : entry.1 = name := by simpa using List.find?_some hentry
    exact List.mem_of_find?_eq_some hentry
  · -- No name is in the table twice.
    intro h
    have hall : ∀ entry ∈ names, ofName? entry.1 = some entry.2 := by decide
    exact hall _ h

theorem ofName?_eq_none_iff {name : String} :
    ofName? name = none ↔ ∀ level, (name, level) ∉ names := by
  rw [Option.eq_none_iff_forall_ne_some]
  exact forall_congr' fun level => not_congr ofName?_eq_some_iff

end Level

/-! ## Handlers -/

/-- Further numbers behind those that are there, each of them once and in the order in which they come. -/
def enlist (present further : List Nat) : List Nat := present ++ (further.removeAll present).eraseDups

theorem mem_enlist {present further : List Nat} {number : Nat} :
    number ∈ enlist present further ↔ number ∈ present ∨ number ∈ further := by
  simp only [enlist, List.removeAll, List.mem_append, List.mem_eraseDups, List.mem_filter,
    Bool.not_eq_true', List.elem_eq_mem, decide_eq_false_iff_not]
  tauto

theorem enlist_append (present further others : List Nat) :
    enlist present (further ++ others) = enlist (enlist present further) others := by
  -- Of the others, the same ones are left out together as one after the other.
  have hrest : (others.removeAll present).removeAll (further.removeAll present) =
      others.removeAll (enlist present further) := by
    unfold List.removeAll
    rw [List.filter_filter]
    refine List.filter_congr fun number _ => ?_
    rw [Bool.eq_iff_iff]
    simp only [Bool.and_eq_true, Bool.not_eq_true', List.elem_eq_mem, decide_eq_false_iff_not,
      mem_enlist, List.mem_filter]
    tauto
  have happend : (further ++ others).removeAll present =
      further.removeAll present ++ others.removeAll present := List.filter_append ..
  rw [enlist, happend, List.eraseDups_append, hrest, ← List.append_assoc]
  rfl

namespace Logger

/-- The numbers of the handlers that others have added. -/
def foreign (logger : Logger) : List Nat :=
  logger.handlers.filterMap fun
    | .trace => none
    | .foreign number => some number

theorem map_foreign (logger : Logger) :
    logger.foreign.map .foreign = logger.handlers.filter (· != .trace) := by
  unfold foreign
  induction logger.handlers with
  | nil => rfl
  | cons handler handlers ih => cases handler <;> simpa using ih

theorem mem_foreign {logger : Logger} {number : Nat} :
    number ∈ logger.foreign ↔ .foreign number ∈ logger.handlers := by
  rw [← List.mem_map_of_injective (f := Handler.foreign) fun _ _ => Handler.foreign.inj, map_foreign]
  simp

end Logger

namespace Loggers

variable {loggers : Loggers}

theorem foreign_addForeign (number : Nat) :
    (loggers.addForeign number).own.foreign = enlist loggers.own.foreign [number] := by
  unfold addForeign
  split_ifs with hmem
  · have hnone : [number].removeAll loggers.own.foreign = [] := by
      simp [List.removeAll, Logger.mem_foreign.2 hmem]
    rw [enlist, hnone]
    exact (List.append_nil _).symm
  · have hnew : [number].removeAll loggers.own.foreign = [number] := by
      simp [List.removeAll, mt Logger.mem_foreign.1 hmem]
    rw [enlist, hnew]
    exact List.filterMap_append

/-- Whether a name is that of a logger other than the root and the logger of the trace. -/
def IsOther (name : String) : Prop := isRoot name = false ∧ name ≠ ownName

section Sparing

variable (loggers) (settings : Settings) (levelName : Option String) {silenced : List String}
  (h : ∀ name ∈ silenced, IsOther name)

include h

theorem silence_eq :
    loggers.silence silenced = { loggers with others := (loggers.silence silenced).others } := by
  unfold silence
  induction silenced generalizing loggers with
  | nil => rfl
  | cons name names ih =>
    obtain ⟨⟨hroot, hown⟩, hrest⟩ := List.forall_mem_cons.1 h
    have hset : loggers.setLevel name .warning =
        { loggers with others := (name, .warning) :: loggers.others.filter (·.1 != name) } := by
      simp [setLevel, hroot, hown]
    rw [List.foldl_cons, hset]
    exact ih _ hrest

theorem renewHandler_silence : (loggers.silence silenced).renewHandler =
    ⟨{ loggers.own with handlers := loggers.own.foreign.map .foreign ++ [.trace] }, loggers.root,
      (loggers.silence silenced).others⟩ := by
  rw [Logger.map_foreign]
  conv_lhs => rw [silence_eq loggers h]
  rfl

/-- Setting up the trace has two outcomes, and both leave the same handlers. -/
theorem setup_cases :
    (∃ level, (Text.upper (settings.levelOr levelName), level) ∈ Level.names ∧
      loggers.setup settings levelName silenced =
        (⟨⟨level, false, loggers.own.foreign.map .foreign ++ [.trace]⟩, loggers.root,
          (loggers.silence silenced).others⟩, .ok ())) ∨
    ((∀ level, (Text.upper (settings.levelOr levelName), level) ∉ Level.names) ∧
      loggers.setup settings levelName silenced =
        (⟨{ loggers.own with handlers := loggers.own.foreign.map .foreign ++ [.trace] },
          loggers.root, (loggers.silence silenced).others⟩,
          .error (.unknownLevel (Text.upper (settings.levelOr levelName))))) := by
  unfold setup
  rw [renewHandler_silence loggers h]
  dsimp only
  cases hlevel : Level.ofName? (Text.upper (settings.levelOr levelName)) with
  | none => exact .inr ⟨Level.ofName?_eq_none_iff.1 hlevel, rfl⟩
  | some level => exact .inl ⟨level, Level.ofName?_eq_some_iff.1 hlevel, rfl⟩

/-- Whatever the outcome is, there is one trace handler behind the handlers of others. -/
theorem handlers_setup : (loggers.setup settings levelName silenced).1.own.handlers =
    loggers.own.foreign.map .foreign ++ [.trace] := by
  rcases setup_cases loggers settings levelName h with ⟨_, -, hsetup⟩ | ⟨-, hsetup⟩ <;>
    rw [hsetup]

theorem foreign_setup :
    (loggers.setup settings levelName silenced).1.own.foreign = loggers.own.foreign := by
  rw [Logger.foreign, handlers_setup loggers settings levelName h]
  simp [List.filterMap_map]

theorem root_setup : (loggers.setup settings levelName silenced).1.root = loggers.root := by
  rcases setup_cases loggers settings levelName h with ⟨_, -, hsetup⟩ | ⟨-, hsetup⟩ <;>
    rw [hsetup]

end Sparing

end Loggers

/-! ## Histories -/

/-- What happens to the loggers: somebody adds a handler to that of the trace, or sets up the trace in
the environment of the moment. -/
inductive Event where
  | addition (number : Nat)
  | setup (settings : Settings) (levelName : Option String) (silenced : List String)

namespace Event

def added? : Event → Option Nat
  | .addition number => some number
  | .setup _ _ _ => none

/-- Whether neither the root nor the logger of the trace is silenced. -/
def Sparing : Event → Prop
  | .addition _ => True
  | .setup _ _ silenced => ∀ name ∈ silenced, Loggers.IsOther name

end Event

namespace Loggers

def after (loggers : Loggers) : Event → Loggers
  | .addition number => loggers.addForeign number
  | .setup settings levelName silenced => (loggers.setup settings levelName silenced).1

def afterAll (loggers : Loggers) (events : List Event) : Loggers := events.foldl after loggers

theorem after_keeps (loggers : Loggers) {event : Event} (h : event.Sparing) :
    (loggers.after event).own.foreign = enlist loggers.own.foreign event.added?.toList ∧
      (loggers.after event).root = loggers.root := by
  cases event with
  | addition number =>
    refine ⟨foreign_addForeign number, ?_⟩
    unfold after addForeign
    dsimp only
    split_ifs <;> rfl
  | setup settings levelName silenced =>
    rw [after, foreign_setup loggers settings levelName h, root_setup loggers settings levelName h]
    exact ⟨(List.append_nil _).symm, rfl⟩

/-- Over a history the handlers of others become those that have been added, and the root stays. -/
theorem afterAll_keeps (loggers : Loggers) {events : List Event}
    (h : ∀ event ∈ events, event.Sparing) :
    (loggers.afterAll events).own.foreign =
        enlist loggers.own.foreign (events.filterMap Event.added?) ∧
      (loggers.afterAll events).root = loggers.root := by
  induction events generalizing loggers with
  | nil => exact ⟨(List.append_nil _).symm, rfl⟩
  | cons event events ih =>
    obtain ⟨hevent, hrest⟩ := List.forall_mem_cons.1 h
    obtain ⟨hforeign, hroot⟩ := after_keeps loggers hevent
    obtain ⟨hforeignAll, hrootAll⟩ := ih (loggers.after event) hrest
    have hadded : (event :: events).filterMap Event.added? =
        event.added?.toList ++ events.filterMap Event.added? := by
      cases hnumber : event.added? <;> simp [hnumber]
    rw [hforeign, ← enlist_append, ← hadded] at hforeignAll
    exact ⟨hforeignAll, hrootAll.trans hroot⟩

/-- Whatever has happened before, a set-up leaves one trace handler, the handlers of others in the order
in which they were added, and the root logger. It ends with the level that it is asked for and without
propagation, or reports that no level has this name and leaves both. -/
theorem setup_keeps_one_handler (start : Loggers) {events : List Event}
    (hevents : ∀ event ∈ events, event.Sparing) (settings : Settings) (levelName : Option String)
    {silenced : List String} (hsilenced : ∀ name ∈ silenced, IsOther name) :
    let before := start.afterAll events
    let outcome := before.setup settings levelName silenced
    outcome.1.own.handlers.count .trace = 1 ∧
      outcome.1.own.foreign = enlist start.own.foreign (events.filterMap Event.added?) ∧
      outcome.1.root = start.root ∧
      ∃ text, Asks settings levelName text ∧
        (∀ level, (Text.upper text, level) ∈ Level.names →
          outcome.2 = .ok () ∧ outcome.1.own.level = level ∧ outcome.1.own.propagates = false) ∧
        ((∀ level, (Text.upper text, level) ∉ Level.names) →
          outcome.2 = .error (.unknownLevel (Text.upper text)) ∧
            outcome.1.own.level = before.own.level ∧
            outcome.1.own.propagates = before.own.propagates) := by
  intro before outcome
  have houtcome : outcome = before.setup settings levelName silenced := rfl
  clear_value outcome
  obtain ⟨hforeign, hroot⟩ := afterAll_keeps start hevents
  refine ⟨?handlers, ?foreign, ?root, _, asks_levelOr settings levelName, ?known, ?unknown⟩
  case handlers =>
    rw [houtcome, handlers_setup before settings levelName hsilenced, List.count_append,
      List.count_eq_zero.2 (by simp)]
    rfl
  case foreign => rw [houtcome, foreign_setup before settings levelName hsilenced, hforeign]
  case root => rw [houtcome, root_setup before settings levelName hsilenced, hroot]
  case known =>
    intro level hlevel
    rcases setup_cases before settings levelName hsilenced with ⟨other, hother, hsetup⟩ | ⟨hnone, -⟩
    · -- The table has one level for the name.
      have heq := (Level.ofName?_eq_some_iff.2 hother).symm.trans (Level.ofName?_eq_some_iff.2 hlevel)
      rw [houtcome, hsetup, Option.some.inj heq]
      exact ⟨rfl, rfl, rfl⟩
    · exact absurd hlevel (hnone level)
  case unknown =>
    intro hnone
    rcases setup_cases before settings levelName hsilenced with ⟨level, hlevel, -⟩ | ⟨-, hsetup⟩
    · exact absurd hlevel (hnone level)
    · rw [houtcome, hsetup]
      exact ⟨rfl, rfl, rfl⟩

/-- Two handlers of others stay through a set-up for a level that nobody knows, which the environment
names, and a later one for another level. -/
theorem setup_keeps_one_handler_twice :
    let loud : Settings := ⟨⟨"/", []⟩, none, some "loud", ⟨100, 100, by decide⟩⟩
    let events : List Event :=
      [.addition 7, .setup loud none ["polars"], .addition 3, .addition 7]
    let before := Loggers.initial.afterAll events
    let outcome := before.setup loud (some "debug") ["polars", "relalg.table"]
    (∀ event ∈ events, event.Sparing) ∧ (∀ name ∈ ["polars", "relalg.table"], IsOther name) ∧
      before.own.level = Level.notSet ∧ before.own.propagates = true ∧
      outcome.1.own.handlers.count .trace = 1 ∧ outcome.1.own.foreign = [7, 3] ∧
      outcome.1.root = Loggers.initial.root ∧ outcome.2 = .ok () ∧
      outcome.1.own.level = Level.debug ∧ outcome.1.own.propagates = false := by
  intro loud events before outcome
  have hevents : ∀ event ∈ events, event.Sparing := by
    simp [events, Event.Sparing, IsOther, isRoot, ownName]
  have hsilenced : ∀ name ∈ ["polars", "relalg.table"], IsOther name := by
    simp [IsOther, isRoot, ownName]
  obtain ⟨hcount, hforeign, hroot, text, hasks, hknown, -⟩ :=
    setup_keeps_one_handler Loggers.initial hevents loud (some "debug") hsilenced
  obtain rfl : text = "debug" := by
    cases hasks with
    | itself => rfl
    | environment missing | neither missing => exact absurd missing (by decide)
  have hdebug : (Text.upper "debug", Level.debug) ∈ Level.names := by decide +kernel
  have hbefore : before.own = ⟨Level.notSet, true, [.foreign 7, .trace, .foreign 3]⟩ := by
    decide +kernel
  obtain ⟨hok, hlevel, hpropagates⟩ := hknown Level.debug hdebug
  rw [hbefore]
  dsimp only [outcome, before]
  exact ⟨hevents, hsilenced, rfl, rfl, hcount, hforeign, hroot, hok, hlevel, hpropagates⟩

end Loggers

end KeyedRelations.Trace
