import StreamPay.Reconciliation

/-! The command line of the reconciliation tool: which arguments are read as options, and
which of them count. -/
namespace StreamPay

/-- What `parseCliArgs` returns. -/
structure CliOptions extends ReconciliationOptions where
  inputPath : String
  checkpointPath : String

inductive CliFlag
  | dryRun | apply | startOver
  deriving DecidableEq, Repr

/-- An option that takes the argument behind it, whatever that is. -/
inductive CliKey
  | confirm | job | batchSize | input | checkpoint | maxBatches
  deriving DecidableEq, Repr

/-- An option as it was given; only at the end of the line a value may be missing. -/
inductive CliOption
  | flag (flag : CliFlag)
  | value (key : CliKey) (value : Option String)
  deriving DecidableEq, Repr

def CliFlag.name : CliFlag → String
  | .dryRun => "--dry-run"
  | .apply => "--apply"
  | .startOver => "--start-over"

def CliKey.name : CliKey → String
  | .confirm => "--confirm"
  | .job => "--job"
  | .batchSize => "--batch-size"
  | .input => "--input"
  | .checkpoint => "--checkpoint"
  | .maxBatches => "--max-batches"

namespace CliOptions

def initial : CliOptions where
  jobId := "default-reconciliation"
  mode := .dryRun
  startOver := some false
  inputPath := "reconciliation-input.json"
  checkpointPath := "reconciliation-checkpoint.json"

def setFlag (options : CliOptions) : CliFlag → CliOptions
  | .dryRun => { options with mode := .dryRun }
  | .apply => { options with mode := .apply }
  | .startOver => { options with startOver := some true }

/-- A value is `none` where it is `undefined`, of which `Number` makes NaN. -/
def setValue (number : String → JsNumber) (options : CliOptions) (value : Option String) :
    CliKey → CliOptions
  | .confirm => { options with confirmation := value }
  | .job => { options with jobId := value.getD "" }
  | .batchSize => { options with batchSize := some (value.elim .nan number) }
  | .input => { options with inputPath := value.getD "" }
  | .checkpoint => { options with checkpointPath := value.getD "" }
  | .maxBatches => { options with maxBatches := some (value.elim .nan number) }

def set (number : String → JsNumber) (options : CliOptions) : CliOption → CliOptions
  | .flag flag => options.setFlag flag
  | .value key value => options.setValue number value key

end CliOptions

def readArg (arg : String) : Option (CliFlag ⊕ CliKey) :=
  if arg = "--dry-run" then some (.inl .dryRun)
  else if arg = "--apply" then some (.inl .apply)
  else if arg = "--start-over" then some (.inl .startOver)
  else if arg = "--confirm" then some (.inr .confirm)
  else if arg = "--job" then some (.inr .job)
  else if arg = "--batch-size" then some (.inr .batchSize)
  else if arg = "--input" then some (.inr .input)
  else if arg = "--checkpoint" then some (.inr .checkpoint)
  else if arg = "--max-batches" then some (.inr .maxBatches)
  else none

/-- The loop over the arguments, from the options so far. -/
def parseArgs (number : String → JsNumber) :
    CliOptions → List String → Except ReconciliationInputError CliOptions
  | options, [] => .ok options
  | options, [arg] =>
    match readArg arg with
    | some (.inl flag) => .ok (options.setFlag flag)
    | some (.inr key) => .ok (options.setValue number none key)
    | none => .error ⟨"unknown argument " ++ arg⟩
  | options, arg :: next :: rest =>
    match readArg arg with
    | some (.inl flag) => parseArgs number (options.setFlag flag) (next :: rest)
    -- `args[++index]`
    | some (.inr key) => parseArgs number (options.setValue number (some next) key) rest
    | none => .error ⟨"unknown argument " ++ arg⟩

def parseCliArgs (number : String → JsNumber) (args : List String) :
    Except ReconciliationInputError CliOptions :=
  parseArgs number .initial args

/-- The arguments are these options, one behind the other. -/
inductive SpellsOptions : List String → List CliOption → Prop
  | nil : SpellsOptions [] []
  | flag (flag : CliFlag) {args : List String} {given : List CliOption} :
      SpellsOptions args given → SpellsOptions (flag.name :: args) (.flag flag :: given)
  | value (key : CliKey) (value : String) {args : List String} {given : List CliOption} :
      SpellsOptions args given →
      SpellsOptions (key.name :: value :: args) (.value key (some value) :: given)
  | missing (key : CliKey) : SpellsOptions [key.name] [.value key none]

theorem readArg_flag (flag : CliFlag) : readArg flag.name = some (.inl flag) := by
  cases flag <;> rfl

theorem readArg_key (key : CliKey) : readArg key.name = some (.inr key) := by
  cases key <;> rfl

/-- An argument is an option by its name. -/
theorem name_of_readArg {arg : String} {option : CliFlag ⊕ CliKey}
    (h : readArg arg = some option) : arg = option.elim CliFlag.name CliKey.name := by
  unfold readArg at h
  split_ifs at h <;> obtain rfl := Option.some.inj h <;> assumption

theorem SpellsOptions.parseArgs_eq {args : List String} {given : List CliOption}
    (h : SpellsOptions args given) (number : String → JsNumber) (options : CliOptions) :
    parseArgs number options args = .ok (given.foldl (CliOptions.set number) options) := by
  induction h generalizing options with
  | nil => rfl
  | @flag flag args given _ ih =>
    rw [List.foldl_cons, ← ih]
    cases args with
    | nil => simp only [parseArgs, readArg_flag, CliOptions.set]
    | cons next rest => simp only [parseArgs, readArg_flag, CliOptions.set]
  | value key value _ ih =>
    rw [List.foldl_cons, ← ih]
    simp only [parseArgs, readArg_key, CliOptions.set]
  | missing key =>
    simp only [parseArgs, readArg_key, CliOptions.set, List.foldl_cons, List.foldl_nil]

/-- The loop comes to the end of the arguments, or to one that is no option. -/
theorem spells_or_unknown (number : String → JsNumber) (options : CliOptions)
    (args : List String) :
    (∃ given, SpellsOptions args given) ∨
    ∃ arg ∈ args, readArg arg = none ∧
      parseArgs number options args = .error ⟨"unknown argument " ++ arg⟩ := by
  induction options, args using parseArgs.induct number with
  | case1 options => exact Or.inl ⟨[], .nil⟩
  | case2 options arg flag hread =>
    obtain rfl := name_of_readArg hread
    exact Or.inl ⟨[.flag flag], .flag flag .nil⟩
  | case3 options arg key hread =>
    obtain rfl := name_of_readArg hread
    exact Or.inl ⟨[.value key none], .missing key⟩
  | case4 options arg hread =>
    exact Or.inr ⟨arg, List.mem_cons_self, hread, by simp only [parseArgs, hread]⟩
  | case5 options arg next rest flag hread ih =>
    obtain rfl := name_of_readArg hread
    refine ih.imp ?_ ?_
    · rintro ⟨given,hgiven⟩
      exact ⟨.flag flag :: given, .flag flag hgiven⟩
    · rintro ⟨unknown,hmem,hnone,herror⟩
      refine ⟨unknown, List.mem_cons_of_mem _ hmem, hnone, ?_⟩
      simp only [parseArgs, hread, herror]
  | case6 options arg next rest key hread ih =>
    obtain rfl := name_of_readArg hread
    refine ih.imp ?_ ?_
    · rintro ⟨given,hgiven⟩
      exact ⟨.value key (some next) :: given, .value key next hgiven⟩
    · rintro ⟨unknown,hmem,hnone,herror⟩
      refine ⟨unknown, List.mem_cons_of_mem _ (List.mem_cons_of_mem _ hmem), hnone, ?_⟩
      simp only [parseArgs, hread, herror]
  | case7 options arg next rest hread =>
    exact Or.inr ⟨arg, List.mem_cons_self, hread, by simp only [parseArgs, hread]⟩

/-- Arguments are accepted if they are options one behind the other, and then these count
in their order. -/
theorem parseCliArgs_ok_iff (number : String → JsNumber) (args : List String)
    (options : CliOptions) :
    parseCliArgs number args = .ok options ↔
      ∃ given, SpellsOptions args given ∧
        options = given.foldl (CliOptions.set number) .initial := by
  constructor
  · intro h
    rcases spells_or_unknown number .initial args with ⟨given,hgiven⟩ | ⟨arg,_,_,herror⟩
    · refine ⟨given, hgiven, ?_⟩
      rw [parseCliArgs, hgiven.parseArgs_eq] at h
      exact (Except.ok.inj h).symm
    · rw [parseCliArgs, herror] at h
      cases h
  · rintro ⟨given,hgiven,rfl⟩
    exact hgiven.parseArgs_eq number .initial

/-- What one kind of options sets is what the last of them sets. -/
theorem last_given {A : Type} (field : CliOptions → A) (given? : CliOption → Option A)
    {number : String → JsNumber}
    (hset : ∀ options option, field (CliOptions.set number options option) =
      (given? option).getD (field options)) (given : List CliOption) (options : CliOptions) :
    field (given.foldl (CliOptions.set number) options) =
      (given.filterMap given?).getLast?.getD (field options) := by
  induction given generalizing options with
  | nil => rfl
  | cons option given ih =>
    rw [List.foldl_cons, ih, hset]
    cases hgiven : given? option with
    | none => rw [List.filterMap_cons_none hgiven, Option.getD_none]
    | some x =>
      rw [List.filterMap_cons_some hgiven, List.getLast?_cons, Option.getD_some,
        Option.getD_some]

def CliOption.mode? : CliOption → Option ReconciliationMode
  | .flag .dryRun => some .dryRun
  | .flag .apply => some .apply
  | _ => none

def CliOption.confirmation? : CliOption → Option (Option String)
  | .value .confirm phrase => some phrase
  | _ => none

theorem set_mode (number : String → JsNumber) (options : CliOptions) (option : CliOption) :
    (CliOptions.set number options option).mode = option.mode?.getD options.mode := by
  cases option with
  | flag flag => cases flag <;> rfl
  | value key value => cases key <;> rfl

theorem set_confirmation (number : String → JsNumber) (options : CliOptions)
    (option : CliOption) :
    (CliOptions.set number options option).confirmation =
      option.confirmation?.getD options.confirmation := by
  cases option with
  | flag flag => cases flag <;> rfl
  | value key value => cases key <;> rfl

/-- No option sets the phrase that is expected. -/
theorem set_expectedConfirmation (number : String → JsNumber) (options : CliOptions)
    (option : CliOption) :
    (CliOptions.set number options option).expectedConfirmation =
      options.expectedConfirmation := by
  cases option with
  | flag flag => cases flag <;> rfl
  | value key value => cases key <;> rfl

theorem expectedConfirmation_foldl (number : String → JsNumber) (given : List CliOption)
    (options : CliOptions) :
    (given.foldl (CliOptions.set number) options).expectedConfirmation =
      options.expectedConfirmation := by
  induction given generalizing options with
  | nil => rfl
  | cons option given ih => rw [List.foldl_cons, ih, set_expectedConfirmation]

theorem confirmation_of_apply {options : ReconciliationOptions} {config : ReconciliationConfig}
    (h : normalizeOptions options = .ok config) (hmode : config.mode = .apply) :
    options.mode = .apply ∧ options.confirmation =
      some (options.expectedConfirmation.getD "APPLY-RECONCILIATION") := by
  unfold normalizeOptions at h
  split_ifs at h
  split at h
  · cases h
  · dsimp only at h
    split_ifs at h with hrefused
    rw [← Except.ok.inj h] at hmode
    rw [not_and_not_right] at hrefused
    exact ⟨hmode, hrefused hmode⟩

/-- Corrections are asked for by the last of `--apply` and `--dry-run`, under the phrase of
the last `--confirm`. -/
theorem asked_to_apply {number : String → JsNumber} {given : List CliOption}
    {config : ReconciliationConfig}
    (hconfig : normalizeOptions
      (given.foldl (CliOptions.set number) .initial).toReconciliationOptions = .ok config)
    (hmode : config.mode = .apply) :
    (given.filterMap CliOption.mode?).getLast? = some .apply ∧
    (given.filterMap CliOption.confirmation?).getLast? = some (some "APPLY-RECONCILIATION") := by
  obtain ⟨happly,hphrase⟩ := confirmation_of_apply hconfig hmode
  rw [expectedConfirmation_foldl] at hphrase
  have hlastMode := last_given (·.mode) CliOption.mode? (set_mode number) given .initial
  have hlastPhrase := last_given (·.confirmation) CliOption.confirmation?
    (set_confirmation number) given .initial
  rw [happly] at hlastMode
  rw [hphrase] at hlastPhrase
  constructor
  · cases hlast : (given.filterMap CliOption.mode?).getLast? with
    | none =>
      rw [hlast] at hlastMode
      cases hlastMode
    | some mode =>
      rw [hlast] at hlastMode
      exact congrArg some hlastMode.symm
  · cases hlast : (given.filterMap CliOption.confirmation?).getLast? with
    | none =>
      rw [hlast] at hlastPhrase
      cases hlastPhrase
    | some phrase =>
      rw [hlast] at hlastPhrase
      exact congrArg some hlastPhrase.symm

end StreamPay
