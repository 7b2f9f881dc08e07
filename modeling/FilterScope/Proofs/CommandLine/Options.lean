import FilterScope.CommandLine.Options

/-!
# Which checks a command line can ask for

A check can be asked for with any type, any filter and either choice of the type to report against,
but not with an empty path (`exists_ofArguments_iff`). That no path is empty is kept by every
argument (`Given.Proper`). Conversely each option can be given in one argument with its value behind
an equals sign, and the filter last, behind the end of the options, so that nothing in them is
mistaken for an option (`Options.arguments`).
-/

namespace FilterScope.CommandLine

/-! ## No path is empty -/

namespace Given

/-- The paths that are given are not empty. -/
structure Proper (given : Given) : Prop where
  /-- the path of the type definitions -/
  schema : given.schema ≠ some ""
  /-- the path of the message templates -/
  messages : given.messages ≠ some ""

/-- What is mapped to a result was a result. -/
theorem exists_of_map_eq_ok {α β : Type} {x : Except UsageFault α} {f : α → β} {b : β}
    (h : x.map f = .ok b) : ∃ a, x = .ok a ∧ b = f a := by
  cases x with
  | error fault => cases h
  | ok a =>
    cases h
    exact ⟨a, rfl, rfl⟩

variable {given next : Given} {name : OptionName} {value : String}

/-- A path that is taken from a value is not empty. -/
theorem path_ne_empty {file : Option String} (h : some <$> path name value = .ok file) :
    file ≠ some "" := by
  unfold path at h
  split at h
  · cases h
  · next hvalue =>
    cases h
    simpa using hvalue

/-- Any other value is taken as a path. -/
theorem path_eq_ok (name : OptionName) (h : value ≠ "") : path name value = .ok value := by
  rw [path, if_neg (by simpa using h)]

/-! ### One argument -/

namespace Proper

variable (h : given.Proper)

include h

/-- Giving an option its value makes no path empty. -/
theorem set (hset : given.set name value = .ok next) : next.Proper := by
  unfold Given.set at hset
  split at hset
  · cases hset
  cases name with
  | schema =>
    obtain ⟨file, hfile, rfl⟩ := exists_of_map_eq_ok hset
    exact ⟨path_ne_empty hfile, h.messages⟩
  | typeName =>
    cases hset
    exact ⟨h.schema, h.messages⟩
  | nestedContext =>
    obtain ⟨context, -, rfl⟩ := exists_of_map_eq_ok hset
    exact ⟨h.schema, h.messages⟩
  | messages =>
    obtain ⟨file, hfile, rfl⟩ := exists_of_map_eq_ok hset
    exact ⟨h.schema, path_ne_empty hfile⟩

theorem wait (waiting : Option (OptionName × Option String)) :
    Given.Proper { given with waiting := waiting } :=
  ⟨h.schema, h.messages⟩

/-- Nor does giving the option that waits its value. -/
theorem settle (hsettle : given.settle = .ok next) : next.Proper := by
  unfold Given.settle at hsettle
  split at hsettle
  · cases hsettle
    exact h
  · cases hsettle
  · exact (h.wait .none).set hsettle

/-- Nor does an option. -/
theorem setOption {value : Option String} (hset : given.setOption name value = .ok next) :
    next.Proper := by
  unfold Given.setOption at hset
  split at hset
  · cases hset
  · next settled hsettle =>
    have hsettled := h.settle hsettle
    split at hset
    · cases hset
      exact hsettled.wait _
    · exact hsettled.set hset

/-- Nor does a filter. -/
theorem setFilter (hset : given.setFilter value = .ok next) : next.Proper := by
  unfold Given.setFilter at hset
  split at hset
  · cases hset
  · obtain ⟨settled, hsettle, rfl⟩ := exists_of_map_eq_ok hset
    obtain ⟨hschema, hmessages⟩ := h.settle hsettle
    exact ⟨hschema, hmessages⟩

/-- Nor does an argument that is no option. -/
theorem setPlain (hset : given.setPlain value = .ok next) : next.Proper := by
  unfold Given.setPlain at hset
  split at hset
  · cases hset
    exact h.wait _
  · exact h.setFilter hset

end Proper

end Given

/-- A request is proper if it is not for a check with an empty path. -/
def Request.Proper : Request → Prop
  | .check options => options.schema ≠ "" ∧ options.messages ≠ some ""
  | _ => True

variable {given : Given} {request : Request}

/-- What is asked for in the end is proper. -/
theorem Given.Proper.finish (h : given.Proper) (hfinish : given.finish = .ok request) :
    request.Proper := by
  unfold Given.finish at hfinish
  split at hfinish
  · cases hfinish
  · next settled hsettle =>
    obtain ⟨hschema, hmessages⟩ := h.settle hsettle
    split at hfinish
    · next hfile _ _ =>
      cases hfinish
      exact ⟨fun hempty => hschema (hfile.trans (congrArg some hempty)), hmessages⟩
    · cases hfinish

/-- What is granted at once is proper. -/
theorem proper_of_grant {answer : Request} {usage : String} {value : Option String}
    (h : given.grant answer usage value = .ok request) (hanswer : answer.Proper) :
    request.Proper := by
  cases value with
  | none =>
    obtain ⟨settled, -, rfl⟩ := Given.exists_of_map_eq_ok h
    exact hanswer
  | some value => cases h

/-! ### All arguments -/

/-- Whatever stands behind the end of the options, what is asked for is proper. -/
theorem proper_of_readPlain {arguments : List String} (hgiven : given.Proper)
    (h : readPlain given arguments = .ok request) : request.Proper := by
  induction arguments generalizing given with
  | nil => exact hgiven.finish h
  | cons argument more ih =>
    rw [readPlain] at h
    split at h
    · cases h
    · next hset => exact ih (hgiven.setFilter hset) h

/-- Whatever the arguments are, what is asked for is proper. -/
theorem proper_of_readArguments {arguments : List String} (hgiven : given.Proper)
    (h : readArguments given arguments = .ok request) : request.Proper := by
  induction arguments generalizing given with
  | nil => exact hgiven.finish h
  | cons argument more ih =>
    rw [readArguments] at h
    split at h
    · exact proper_of_readPlain hgiven h
    · exact proper_of_grant h trivial
    · exact proper_of_grant h trivial
    · cases h
    · exact proper_of_grant h trivial
    · exact proper_of_grant h trivial
    · split at h
      · cases h
      · split at h
        · cases h
        · next hset => exact ih (hgiven.setOption hset) h
    · split at h
      · cases h
      · next hset => exact ih (hgiven.setPlain hset) h

/-! ## Asking for a check -/

/-- An option and its value in one argument. -/
def OptionName.argument (name : OptionName) (value : String) : String :=
  "--" ++ name.word ++ "=" ++ value

/-- An option with its value is read as such, even if the value has an equals sign. -/
theorem ofString_argument (name : OptionName) (value : String) :
    Argument.ofString (name.argument value) = .long name.word (some value) := by
  cases name <;> simp [OptionName.argument, OptionName.word, Argument.ofString]

/-- How a choice of the type to report against is written. -/
def contextWord : NestedContext → String
  | .rootType => "root"
  | .nestedType => "nested"

/-- The arguments that ask for a check. -/
def Options.arguments (options : Options) : List String :=
  (options.messages.map (OptionName.argument .messages)).toList ++
    [OptionName.argument .schema options.schema, OptionName.argument .typeName options.typeName,
     OptionName.argument .nestedContext (contextWord options.nestedContext), "--", options.filter]

/-- An option with its value gives the value, and the other arguments are read on. -/
theorem readArguments_argument {next : Given} {name : OptionName} {value : String}
    (hwaiting : given.waiting = .none) (hset : given.set name value = .ok next)
    (more : List String) :
    readArguments given (name.argument value :: more) = readArguments next more := by
  have hoption : given.setOption name (some value) = .ok next := by
    simp only [Given.setOption, Given.settle, hwaiting, hset]
  rw [readArguments, ofString_argument]
  cases name <;> simp [OptionName.word, OptionName.ofWord?, hoption]

/-- Behind the end of the options, the last argument is the filter. -/
theorem readArguments_separator {filter : String} (hwaiting : given.waiting = .none)
    (hfilter : given.filter = .none) :
    readArguments given ["--", filter] = { given with filter := filter }.finish := by
  simp [readArguments, Argument.ofString, readPlain, Given.setFilter, Given.settle, Except.map,
    hwaiting, hfilter]

/-- Behind the messages, if there are any, the other options are given one after the other. -/
theorem readArguments_options {options : Options} (hschema : options.schema ≠ "") :
    readArguments { Given.none with messages := options.messages }
        [OptionName.argument .schema options.schema, OptionName.argument .typeName options.typeName,
         OptionName.argument .nestedContext (contextWord options.nestedContext), "--",
         options.filter] =
      .ok (.check options) := by
  have hfile : (Given.mk .none .none .none options.messages .none .none).set .schema
      options.schema =
        .ok ⟨options.schema, .none, .none, options.messages, .none, .none⟩ := by
    simp only [Given.set, Given.path_eq_ok _ hschema]
    rfl
  have hcontext : (Given.mk options.schema options.typeName .none options.messages .none .none).set
      .nestedContext (contextWord options.nestedContext) =
        .ok ⟨options.schema, options.typeName, options.nestedContext, options.messages, .none,
          .none⟩ := by
    cases options.nestedContext <;> rfl
  rw [Given.none, readArguments_argument rfl hfile, readArguments_argument rfl rfl,
    readArguments_argument rfl hcontext, readArguments_separator rfl rfl]
  rfl

/-- The arguments that are written for a check ask for it. -/
theorem ofArguments_arguments {options : Options} (hschema : options.schema ≠ "")
    (hmessages : options.messages ≠ some "") :
    Request.ofArguments options.arguments = .ok (.check options) := by
  rw [← readArguments_options hschema, Request.ofArguments, Options.arguments]
  cases hgiven : options.messages with
  | none => rfl
  | some file =>
    have hfile : file ≠ "" := fun hempty => hmessages (hgiven.trans (congrArg some hempty))
    have hset : Given.none.set .messages file = .ok { Given.none with messages := file } := by
      simp only [Given.set, Given.path_eq_ok _ hfile]
      rfl
    exact readArguments_argument rfl hset _

/-- **Checks that can be asked for.** They are those without an empty path. -/
theorem exists_ofArguments_iff {options : Options} :
    (∃ arguments, Request.ofArguments arguments = .ok (.check options)) ↔
      options.schema ≠ "" ∧ options.messages ≠ some "" := by
  constructor
  · rintro ⟨arguments, h⟩
    have hnone : Given.none.Proper :=
      ⟨(Option.some_ne_none "").symm, (Option.some_ne_none "").symm⟩
    exact proper_of_readArguments hnone h
  · rintro ⟨hschema, hmessages⟩
    exact ⟨options.arguments, ofArguments_arguments hschema hmessages⟩

end FilterScope.CommandLine
