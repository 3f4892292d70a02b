import PacketClassifier.Proofs.Logging.Enforcement
import PacketClassifier.Proofs.Text.Separation

/-!
# Settings that are read back

A configuration whose targets are proper names is found again in its own settings: what stands
between two commas is one target and its level, because no target contains a mark of the
settings, and none is the key of the default level.  So the settings of a control change
nothing in that control, and they carry its levels over to another one.
-/

namespace PacketClassifier.Logging

variable {target : String} {level : Level}

/-! ## Plain texts -/

/-- A text without blanks and without marks of the settings. -/
def Plain (text : String) : Prop :=
  ∀ character ∈ text.toList, breaksTarget character = false

theorem IsTarget.plain (proper : IsTarget target) : Plain target := by
  intro character member
  simpa using List.all_eq_true.mp proper.2.2 character member

theorem plain_of_all {text : String} (plain : text.toList.all (breaksTarget · = false) = true) :
    Plain text := by
  simpa [Plain] using plain

theorem plain_defaultKey : Plain Config.defaultKey :=
  plain_of_all (by decide)

theorem Level.plain_text (level : Level) : Plain level.text := by
  cases level <;> exact plain_of_all (by decide)

theorem isBlank_of_breaksTarget {character : Char} (kept : breaksTarget character = false) :
    Text.isBlank character = false := by
  unfold breaksTarget at kept
  exact (Bool.or_eq_false_iff.mp kept).2

theorem Plain.not_mem {text : String} (plain : Plain text) {mark : Char}
    (breaks : breaksTarget mark = true) : mark ∉ text.toList := by
  intro member
  cases breaks.symm.trans (plain mark member)

theorem trim_eq_self {characters : List Char}
    (solid : ∀ character ∈ characters, Text.isBlank character = false) :
    Text.trim characters = characters := by
  have kept (list : List Char) (among : ∀ character ∈ list, character ∈ characters) :
      list.dropWhile Text.isBlank = list := by
    cases list with
    | nil => rfl
    | cons first rest =>
        exact List.dropWhile_cons_of_neg (by
          simp [solid first (among first List.mem_cons_self)])
  rw [Text.trim, kept characters (fun _ => id),
    kept characters.reverse (fun _ => List.mem_reverse.mp), List.reverse_reverse]

theorem Plain.trim {text : String} (plain : Plain text) : Text.trim text.toList = text.toList :=
  trim_eq_self (fun character member => isBlank_of_breaksTarget (plain character member))

/-! ## Reading one setting -/

theorem splitFirst?_append {separator : Char} {before : List Char}
    (clear : separator ∉ before) (after : List Char) :
    splitFirst? separator (before ++ separator :: after) = some (before, after) := by
  induction before with
  | nil => simp [splitFirst?]
  | cons first rest ih =>
      rw [List.mem_cons, not_or] at clear
      have different : first ≠ separator := fun same => clear.1 same.symm
      simp [splitFirst?, different, ih clear.2]

theorem Level.ofAnyCase?_text (level : Level) : ofAnyCase? level.text = some level := by
  cases level <;> decide

/-- A target can be named in settings. -/
def Nameable (target : String) : Prop :=
  target = Config.defaultKey ∨ IsTarget target

theorem Nameable.plain (nameable : Nameable target) : Plain target := by
  rcases nameable with rfl | proper
  · exact plain_defaultKey
  · exact proper.plain

theorem toList_settingText (target : String) (level : Level) :
    (Config.settingText target level).toList = target.toList ++ '=' :: level.text.toList := by
  simp [Config.settingText]

/-- A setting is read back as the target and the level that it was written from. -/
theorem readSetting_settingText (nameable : Nameable target) (level : Level) :
    readSetting (Config.settingText target level).toList = .ok (target, level) := by
  have solid : ∀ character ∈ target.toList ++ '=' :: level.text.toList,
      Text.isBlank character = false := by
    intro character member
    rcases List.mem_append.mp member with inTarget | member
    · exact isBlank_of_breaksTarget (nameable.plain character inTarget)
    · rcases List.mem_cons.mp member with rfl | inLevel
      · decide
      · exact isBlank_of_breaksTarget (level.plain_text character inLevel)
  have clear : '=' ∉ target.toList := nameable.plain.not_mem (by decide)
  have parted := splitFirst?_append clear level.text.toList
  simp only [readSetting, toList_settingText, trim_eq_self solid, parted,
    nameable.plain.trim, level.plain_text.trim, String.ofList_toList, Level.ofAnyCase?_text]
  rcases nameable with rfl | proper
  · rw [if_neg (not_not_intro rfl)]
    rfl
  · rw [if_pos proper.2.1, checkTarget_eq_ok_iff.mpr proper]
    rfl

/-! ## Maps of levels -/

theorem splitAll_eq_splitOn (separator : Char) (characters : List Char) :
    splitAll separator characters = characters.splitOn separator := by
  induction characters with
  | nil => rfl
  | cons first rest ih =>
      rw [List.splitOn, List.splitOnP_cons_eq_if_modifyHead, splitAll, ih, List.splitOn]
      by_cases same : first = separator
      · simp [same]
      · simp only [same, if_false, beq_iff_eq]
        cases split : rest.splitOnP (· == separator) with
        | nil => exact absurd split (List.splitOnP_ne_nil _ _)
        | cons item items => rfl

theorem assign_of_not_mem {list : List (String × Level)} (fresh : target ∉ list.map Prod.fst)
    (level : Level) : assign target level list = list ++ [(target, level)] := by
  induction list with
  | nil => rfl
  | cons first rest ih =>
      rw [List.map_cons, List.mem_cons, not_or] at fresh
      have different : first.1 ≠ target := fun same => fresh.1 same.symm
      simp [assign, different, ih fresh.2]

/-- A target that has a level already keeps it, if it is given the same. -/
theorem assign_of_mem {list : List (String × Level)} (distinct : (list.map Prod.fst).Nodup)
    (listed : (target, level) ∈ list) : assign target level list = list := by
  induction list with
  | nil => exact absurd listed List.not_mem_nil
  | cons first rest ih =>
      have parts := List.nodup_cons.mp distinct
      rcases List.mem_cons.mp listed with rfl | later
      · simp [assign]
      · have different : first.1 ≠ target :=
          fun same => parts.1 (same ▸ List.mem_map_of_mem later)
        simp [assign, different, ih parts.2 later]

namespace LevelMap

variable {map : LevelMap} {assignments : List (String × Level)}

@[ext]
theorem ext {left right : LevelMap} (same : left.toList = right.toList) : left = right := by
  cases left
  cases right
  simp_all

/-- New targets are added at the end, in order. -/
theorem toList_insertAll
    (distinct : (map.toList.map Prod.fst ++ assignments.map Prod.fst).Nodup) :
    (map.insertAll assignments).toList = map.toList ++ assignments := by
  induction assignments generalizing map with
  | nil => simp [insertAll]
  | cons first rest ih =>
      have fresh : first.1 ∉ map.toList.map Prod.fst := by
        intro listed
        exact (List.nodup_append.mp distinct).2.2 _ listed _ (by simp) rfl
      have added : (map.insert first.1 first.2).toList = map.toList ++ [first] :=
        assign_of_not_mem fresh first.2
      have further : ((map.insert first.1 first.2).insertAll rest).toList =
          (map.insert first.1 first.2).toList ++ rest := ih (by
        rw [added]
        simpa using distinct)
      rw [added, List.append_assoc] at further
      exact further

/-- Nothing changes if targets are given the levels that they have. -/
theorem insertAll_of_subset (listed : assignments ⊆ map.toList) :
    map.insertAll assignments = map := by
  induction assignments with
  | nil => rfl
  | cons first rest ih =>
      have kept : map.insert first.1 first.2 = map :=
        LevelMap.ext (assign_of_mem map.distinct (listed List.mem_cons_self))
      calc map.insertAll (first :: rest)
          = (map.insert first.1 first.2).insertAll rest := rfl
        _ = map.insertAll rest := by rw [kept]
        _ = map := ih (fun _ member => listed (List.mem_cons_of_mem _ member))

end LevelMap

/-! ## Reading all settings -/

/-- Every target of a configuration is a proper name. -/
def Config.Proper (config : Config) : Prop :=
  ∀ setting ∈ config.targets.toList, checkTarget setting.1 = .ok ()

namespace Config

variable {config : Config}

/-- The settings of a configuration, the default level first. -/
def assignments (config : Config) : List (String × Level) :=
  (defaultKey, config.level) :: config.targets.toList

theorem Proper.nameable (proper : config.Proper) :
    ∀ setting ∈ config.assignments, Nameable setting.1 := by
  intro setting member
  rcases List.mem_cons.mp member with rfl | listed
  · exact Or.inl rfl
  · exact Or.inr (checkTarget_eq_ok_iff.mp (proper setting listed))

theorem Proper.ne_defaultKey (proper : config.Proper) :
    ∀ setting ∈ config.targets.toList, setting.1 ≠ defaultKey :=
  fun setting member => (checkTarget_eq_ok_iff.mp (proper setting member)).2.1

theorem splitAll_settings (proper : config.Proper) :
    splitAll ',' config.settings.toList =
      config.assignments.map (fun setting => (settingText setting.1 setting.2).toList) := by
  have written : config.settings = Text.joined ","
      (config.assignments.map (fun setting => settingText setting.1 setting.2)) := rfl
  rw [splitAll_eq_splitOn, written, Text.splitOn_joined rfl (by simp [assignments]),
    List.map_map]
  · rfl
  · intro text member
    obtain ⟨setting, listed, rfl⟩ := List.mem_map.mp member
    have plain := (proper.nameable setting listed).plain
    rw [toList_settingText, List.mem_append, List.mem_cons, not_or, not_or]
    exact ⟨plain.not_mem (by decide), by decide,
      (Level.plain_text setting.2).not_mem (by decide)⟩

/-- The settings of a configuration are read back as its default level and its targets. -/
theorem Proper.readSettings_settings (proper : config.Proper) :
    ∃ read, readSettings config.settings = .ok read ∧ read.toList = config.assignments := by
  have items : (splitAll ',' config.settings.toList).mapM readSetting =
      .ok config.assignments := by
    rw [mapM_eq_ok_iff, splitAll_settings proper, List.forall₂_map_left_iff, List.forall₂_same]
    intro setting member
    exact readSetting_settingText (proper.nameable setting member) setting.2
  refine ⟨LevelMap.empty.insertAll config.assignments, ?_, ?_⟩
  · simp only [readSettings, items]
    rfl
  · apply LevelMap.toList_insertAll
    refine List.nodup_cons.mpr ⟨?_, config.targets.distinct⟩
    intro listed
    obtain ⟨setting, member, same⟩ := List.mem_map.mp listed
    exact proper.ne_defaultKey setting member same

/-- Proper settings are made, and the default level is set. -/
theorem Proper.setAll_assignments (proper : config.Proper) (other : Config) :
    other.setAll config.assignments =
      { other with
        level := config.level
        targets := other.targets.insertAll config.targets.toList } := by
  have named (settings : List (String × Level))
      (targets : ∀ setting ∈ settings, setting.1 ≠ defaultKey) (start : Config) :
      start.setAll settings = { start with targets := start.targets.insertAll settings } := by
    induction settings generalizing start with
    | nil => rfl
    | cons first rest ih =>
        have further := ih (fun setting member => targets setting (List.mem_cons_of_mem _ member))
          (start.set first.1 first.2)
        rw [setAll, List.foldl_cons]
        refine further.trans ?_
        rw [set, if_neg (targets first List.mem_cons_self)]
        rfl
  have begun : other.setAll config.assignments =
      { other with level := config.level }.setAll config.targets.toList := by
    simp [setAll, assignments, set]
  rw [begun, named _ proper.ne_defaultKey]

end Config

/-! ## Settings of a control -/

namespace Control

variable {accepts : String → Bool} {control other : Control}

/-- A control as it is after some events. -/
def Reached (accepts : String → Bool) (control : Control) : Prop :=
  ∃ config start events, new accepts config = .ok start ∧ control = start.run accepts events

theorem Reached.inForce (reached : control.Reached accepts) : control.InForce accepts := by
  obtain ⟨config, start, events, built, rfl⟩ := reached
  exact (inForce_new built).run events

theorem InForce.filter_eq (enforced : control.InForce accepts) :
    control.filter = ⟨control.config.level, control.config.targets.toList⟩ :=
  (Filter.ofConfig_eq_ok_iff.mp enforced).2

theorem InForce.proper (enforced : control.InForce accepts) : control.config.Proper :=
  fun setting member => checkTarget_eq_ok_iff.mpr (enforced.canHold setting member).1

/-- What the settings of a proper configuration ask a control for. -/
theorem setup_settings {config : Config} (proper : config.Proper) (control : Control) :
    control.setup accepts config.settings =
      control.enforce accepts {
        control.config with
        level := config.level
        targets := control.config.targets.insertAll config.targets.toList } := by
  obtain ⟨read, found, listed⟩ := proper.readSettings_settings
  simp only [setup, found, listed, proper.setAll_assignments]

theorem InForce.setup_own (enforced : control.InForce accepts) :
    control.setup accepts control.config.settings = (.ok (), control) := by
  rw [setup_settings enforced.proper, LevelMap.insertAll_of_subset (fun _ => id)]
  exact if_pos rfl

/-- A control takes over what is in force in another one, if it has no targets yet. -/
theorem InForce.setup_other (enforced : control.InForce accepts)
    (otherEnforced : other.InForce accepts) (alive : other.live = true)
    (bare : other.config.targets.toList = []) :
    other.setup accepts control.config.settings =
      (.ok (), {
        other with
        config := {
          other.config with
          level := control.config.level
          targets := control.config.targets }
        filter := control.filter }) := by
  have carried : other.config.targets.insertAll control.config.targets.toList =
      control.config.targets := by
    apply LevelMap.ext
    rw [LevelMap.toList_insertAll (by simpa [bare] using control.config.targets.distinct), bare,
      List.nil_append]
  rw [setup_settings enforced.proper, carried, enforced.filter_eq]
  generalize goal : ({
    other.config with
    level := control.config.level
    targets := control.config.targets } : Config) = candidate
  have level : candidate.level = control.config.level := goal ▸ rfl
  have targets : candidate.targets = control.config.targets := goal ▸ rfl
  rcases other.enforce_cases accepts candidate with
    ⟨cause, -, unable⟩ | ⟨same, kept⟩ | ⟨filter, built, -, replaced⟩
  · exact absurd (Or.inr ⟨alive, targets ▸ enforced.canHold⟩) unable
  · rw [kept, ← level, ← targets, same, ← otherEnforced.filter_eq]
  · rw [replaced, (Filter.ofConfig_eq_ok_iff.mp built).2, level, targets]

/--
The settings of a configuration with proper targets are read back as its default level and
then its targets with their levels, in order.  The configuration of a control is always such a
one; its settings are accepted by the control itself and change nothing, and in a living
control without targets they put in force the same levels in the same order.
-/
theorem settings_reproduce (accepts : String → Bool) :
    (∀ config : Config, config.Proper →
      (readSettings config.settings).map LevelMap.toList =
        .ok ((Config.defaultKey, config.level) :: config.targets.toList)) ∧
    ∀ control : Control, control.Reached accepts →
      control.config.Proper ∧
      control.setup accepts control.config.settings = (.ok (), control) ∧
      ∀ other : Control, other.Reached accepts → other.live = true →
        other.config.targets.toList = [] →
        other.setup accepts control.config.settings =
          (.ok (), {
            other with
            config := {
              other.config with
              level := control.config.level
              targets := control.config.targets }
            filter := control.filter }) := by
  refine ⟨fun config proper => ?_, fun control reached => ?_⟩
  · obtain ⟨read, found, listed⟩ := proper.readSettings_settings
    rw [found]
    exact congrArg Except.ok listed
  · have enforced := reached.inForce
    exact ⟨enforced.proper, enforced.setup_own, fun other otherReached alive bare =>
      enforced.setup_other otherReached.inForce alive bare⟩

/-- Levels for two targets, and fewer log lines for the others, carried over to another control. -/
theorem sample_settings_reproduce :
    ∃ control other : Control,
      control.config.settings = "default=warn,matching=off,pipeline=trace" ∧
        other.config = { level := .error, threadNames := false } ∧
        control.Reached startsLikeName ∧ other.Reached startsLikeName ∧ other.live = true ∧
        (readSettings control.config.settings).map LevelMap.toList =
          .ok [("default", .warn), ("matching", .off), ("pipeline", .trace)] ∧
        control.setup startsLikeName control.config.settings = (.ok (), control) ∧
        (other.setup startsLikeName control.config.settings).2.config =
          { level := .warn, targets := control.config.targets, threadNames := false } := by
  let start : Control := ⟨sampleConfig, ⟨.info, [("matching", .debug)]⟩, true⟩
  let control := start.run startsLikeName
    [.setTarget "pipeline" .trace, .setup "default=warn, matching=off", .drop]
  let other : Control := ⟨{ level := .error, threadNames := false }, ⟨.error, []⟩, true⟩
  have reached : control.Reached startsLikeName :=
    ⟨sampleConfig, start, _, by decide +kernel, rfl⟩
  have otherReached : other.Reached startsLikeName := ⟨other.config, other, [], rfl, rfl⟩
  obtain ⟨readBack, carriedOver⟩ := settings_reproduce startsLikeName
  obtain ⟨proper, kept, carried⟩ := carriedOver control reached
  refine ⟨control, other, by decide +kernel, rfl, reached, otherReached, rfl,
    (readBack control.config proper).trans (by decide +kernel), kept, ?_⟩
  rw [carried other otherReached rfl rfl]
  have level : control.config.level = .warn := by decide +kernel
  rw [level]

end Control

end PacketClassifier.Logging
