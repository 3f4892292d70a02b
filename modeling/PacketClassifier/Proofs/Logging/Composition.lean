import PacketClassifier.Proofs.Logging.RoundTrip

/-!
# Settings at once and one after the other

Settings are read into a map, in which a target that comes again keeps its first place and
gets its last level, and the map is then merged into a configuration in the same way.  Merging
twice comes to the same as making the settings one after the other, because a target that has
a place keeps it, whatever else is set in between.  So settings that are joined ask for what
they ask for one after the other, and a control grants them all at once exactly if it grants
them in turn.
-/

namespace PacketClassifier.Logging

variable {target other : String} {level otherLevel : Level} {list : List (String × Level)}

/-! ## Levels that are given twice -/

theorem assign_assign (target : String) (level old : Level) (list : List (String × Level)) :
    assign target level (assign target old list) = assign target level list := by
  induction list with
  | nil => simp [assign]
  | cons first rest ih =>
      by_cases here : first.1 = target
      · simp [assign, here]
      · simp [assign, here, ih]

/-- A target that has a place is given its level before another one, or after it. -/
theorem assign_comm (listed : target ∈ list.map Prod.fst) (different : other ≠ target) :
    assign target level (assign other otherLevel list) =
      assign other otherLevel (assign target level list) := by
  induction list with
  | nil => exact absurd listed List.not_mem_nil
  | cons first rest ih =>
      by_cases here : first.1 = target
      · simp [assign, here, different.symm]
      · have later : target ∈ rest.map Prod.fst :=
          (List.mem_cons.mp listed).resolve_left fun same => here same.symm
        by_cases there : first.1 = other
        · simp [assign, there, different]
        · simp [assign, here, there, ih later]

namespace Config

variable {config : Config} {settings : List (String × Level)}

/-- The targets with a level of their own, in order. -/
def names (config : Config) : List String :=
  config.targets.toList.map Prod.fst

/-- A target has a place in a configuration, as the key of the default level always has. -/
def Lists (config : Config) (target : String) : Prop :=
  target = defaultKey ∨ target ∈ config.names

theorem mem_names_set :
    other ∈ (config.set target level).names ↔
      target ≠ defaultKey ∧ other = target ∨ other ∈ config.names := by
  unfold set names
  split
  · rename_i isDefault
    simp [isDefault]
  · rename_i named
    simp only [named, ne_eq, not_false_iff, true_and]
    exact mem_keys_assign

theorem lists_set_self (config : Config) (target : String) (level : Level) :
    (config.set target level).Lists target := by
  by_cases isDefault : target = defaultKey
  · exact Or.inl isDefault
  · exact Or.inr (mem_names_set.mpr (Or.inl ⟨isDefault, rfl⟩))

theorem Lists.set (listed : config.Lists target) (other : String) (level : Level) :
    (config.set other level).Lists target :=
  listed.imp_right fun member => mem_names_set.mpr (Or.inr member)

/-- Only the last of the levels that a target is given counts. -/
theorem set_set (config : Config) (target : String) (level old : Level) :
    (config.set target old).set target level = config.set target level := by
  unfold set
  split
  · rfl
  · congr 1
    exact LevelMap.ext (assign_assign target level old config.targets.toList)

theorem set_comm (listed : config.Lists target) (different : other ≠ target) :
    (config.set other otherLevel).set target level =
      (config.set target level).set other otherLevel := by
  unfold set
  by_cases isDefault : target = defaultKey
  · have otherNamed : other ≠ defaultKey := fun same => different (same.trans isDefault.symm)
    rw [if_pos isDefault, if_pos isDefault, if_neg otherNamed, if_neg otherNamed]
  · rw [if_neg isDefault, if_neg isDefault]
    by_cases otherDefault : other = defaultKey
    · rw [if_pos otherDefault, if_pos otherDefault]
    · rw [if_neg otherDefault, if_neg otherDefault]
      congr 1
      exact LevelMap.ext (assign_comm (listed.resolve_left isDefault) different)

theorem setAll_cons (config : Config) (first : String × Level)
    (rest : List (String × Level)) :
    config.setAll (first :: rest) = (config.set first.1 first.2).setAll rest :=
  rfl

theorem setAll_append (config : Config) (first second : List (String × Level)) :
    config.setAll (first ++ second) = (config.setAll first).setAll second :=
  List.foldl_append

theorem names_subset_setAll (config : Config) (settings : List (String × Level)) :
    config.names ⊆ (config.setAll settings).names := by
  induction settings generalizing config with
  | nil => exact fun _ => id
  | cons first rest ih =>
      exact fun _ member => ih (config.set first.1 first.2) (mem_names_set.mpr (Or.inr member))

/-- A target that has a place is given its level before other settings, or after them. -/
theorem setAll_set_comm (listed : config.Lists target)
    (fresh : target ∉ settings.map Prod.fst) :
    (config.setAll settings).set target level = (config.set target level).setAll settings := by
  induction settings generalizing config with
  | nil => rfl
  | cons first rest ih =>
      rw [List.map_cons, List.mem_cons, not_or] at fresh
      rw [setAll_cons, ih (listed.set first.1 first.2) fresh.2,
        set_comm listed fun same => fresh.1 same.symm, setAll_cons]

/-- Merging a map with one more assignment comes to making the assignment at the end. -/
theorem setAll_assign (distinct : (settings.map Prod.fst).Nodup) :
    config.setAll (assign target level settings) = (config.setAll settings).set target level := by
  induction settings generalizing config with
  | nil => rfl
  | cons first rest ih =>
      have parts := List.nodup_cons.mp distinct
      unfold assign
      split
      · rename_i here
        subst here
        rw [setAll_cons, setAll_cons, setAll_set_comm (lists_set_self _ _ _) parts.1,
          set_set]
      · rw [setAll_cons, ih parts.2, setAll_cons]

theorem setAll_insertAll (config : Config) (map : LevelMap) (settings : List (String × Level)) :
    config.setAll (map.insertAll settings).toList =
      (config.setAll map.toList).setAll settings := by
  induction settings generalizing map with
  | nil => rfl
  | cons first rest ih =>
      have step : config.setAll (map.insert first.1 first.2).toList =
          (config.setAll map.toList).set first.1 first.2 := setAll_assign map.distinct
      calc config.setAll (map.insertAll (first :: rest)).toList
          = (config.setAll (map.insert first.1 first.2).toList).setAll rest := ih _
        _ = (config.setAll map.toList).setAll (first :: rest) := by rw [step, setAll_cons]

end Config

/-! ## Settings that are joined -/

theorem splitAll_append (separator : Char) (first second : List Char) :
    splitAll separator (first ++ separator :: second) =
      splitAll separator first ++ splitAll separator second := by
  simp only [splitAll_eq_splitOn]
  exact List.splitOnP_append_cons first second (beq_self_eq_true separator)

/-- A subscriber accepts a directive or not by its target, whatever the level is. -/
def JudgesTargets (accepts : String → Bool) : Prop :=
  ∀ target level other,
    accepts (Config.settingText target level) = accepts (Config.settingText target other)

variable {accepts : String → Bool} {middle last : Config}

theorem judgesTargets_startsLikeName : JudgesTargets startsLikeName := by
  intro target level other
  unfold startsLikeName
  rw [toList_settingText, toList_settingText]
  cases target.toList with
  | nil => rfl
  | cons first rest => rfl

/-- Of a configuration that can be held, one with no other targets can be held too. -/
theorem JudgesTargets.canHold (judges : JudgesTargets accepts)
    (held : ∀ setting ∈ last.targets.toList, Filter.CanHold accepts setting)
    (fewer : middle.names ⊆ last.names) :
    ∀ setting ∈ middle.targets.toList, Filter.CanHold accepts setting := by
  intro setting member
  obtain ⟨other, listed, same⟩ := List.mem_map.mp (fewer (List.mem_map_of_mem member))
  obtain ⟨proper, accepted⟩ := held other listed
  rw [same] at proper accepted
  exact ⟨proper, judges setting.1 _ _ ▸ accepted⟩

namespace Control

variable {control : Control} {config candidate : Config} {text : String}

/-- The settings of a text are asked for one after the other. -/
theorem Event.goal_setup (config : Config) (text : String) :
    (Event.setup text).goal config =
      ((splitAll ',' text.toList).mapM readSetting).map config.setAll := by
  simp only [goal, readSettings]
  cases (splitAll ',' text.toList).mapM readSetting with
  | error cause => rfl
  | ok settings => exact congrArg Except.ok (Config.setAll_insertAll config .empty settings)

/-- Joined settings ask for what the first and then the second settings ask for. -/
theorem Event.goal_setup_append (config : Config) (first second : String) :
    (Event.setup (first ++ "," ++ second)).goal config =
      (Event.setup first).goal config >>= (Event.setup second).goal := by
  have items : splitAll ',' (first ++ "," ++ second).toList =
      splitAll ',' first.toList ++ splitAll ',' second.toList := by
    rw [← splitAll_append]
    simp
  have further : (Event.setup second).goal = fun middle : Config =>
      ((splitAll ',' second.toList).mapM readSetting).map middle.setAll :=
    funext fun middle => goal_setup middle second
  rw [goal_setup, goal_setup, further, items, List.mapM_append]
  cases (splitAll ',' first.toList).mapM readSetting with
  | error cause => rfl
  | ok settings =>
      cases (splitAll ',' second.toList).mapM readSetting with
      | error cause => rfl
      | ok others => exact congrArg Except.ok (Config.setAll_append config settings others)

/-- Settings take no target out of a configuration. -/
theorem Event.names_subset_goal (aimed : (Event.setup text).goal config = .ok candidate) :
    config.names ⊆ candidate.names := by
  rw [goal_setup] at aimed
  cases read : (splitAll ',' text.toList).mapM readSetting with
  | error cause => cases read ▸ aimed
  | ok settings =>
      rw [read] at aimed
      exact Except.ok.inj aimed ▸ config.names_subset_setAll settings

/-- What is granted is what was asked for. -/
theorem goal_of_setup (granted : (control.setup accepts text).1 = .ok ()) :
    (Event.setup text).goal control.config = .ok (control.setup accepts text).2.config ∧
      control.CanEnforce accepts (control.setup accepts text).2.config := by
  rcases control.respond_cases accepts (.setup text) with
    ⟨cause, refused, -⟩ | ⟨candidate, after, answered, aimed, able, rfl⟩
  · cases (congrArg Prod.fst refused).symm.trans granted
  · have reached : (control.setup accepts text).2 = after := congrArg Prod.snd answered
    exact reached ▸ ⟨aimed, able⟩

/-- While there is a subscriber, a control grants the settings that the subscriber accepts. -/
theorem InForce.setup_eq_ok_iff (enforced : control.InForce accepts)
    (alive : control.live = true) (text : String) :
    (control.setup accepts text).1 = .ok () ↔
      ∃ candidate, (Event.setup text).goal control.config = .ok candidate ∧
        ∀ setting ∈ candidate.targets.toList, Filter.CanHold accepts setting := by
  constructor
  · intro granted
    obtain ⟨aimed, same | ⟨-, held⟩⟩ := goal_of_setup granted
    · exact ⟨_, aimed, same ▸ enforced.canHold⟩
    · exact ⟨_, aimed, held⟩
  · rintro ⟨candidate, aimed, held⟩
    rcases control.respond_cases accepts (.setup text) with
      ⟨cause, -, unable⟩ | ⟨found, after, answered, -⟩
    · exact absurd (Or.inr ⟨alive, held⟩) (unable candidate aimed)
    · exact congrArg Prod.fst answered

theorem InForce.setup (enforced : control.InForce accepts) (text : String) :
    (control.setup accepts text).2.InForce accepts :=
  enforced.after (.setup text)

theorem live_setup (alive : control.live = true) (text : String) :
    (control.setup accepts text).2.live = true :=
  (live_after control (.setup text)).mpr ⟨alive, by simp⟩

/-- Joined settings are granted if the first settings are, and then the second. -/
theorem InForce.setup_append_eq_ok_iff (enforced : control.InForce accepts)
    (alive : control.live = true) (judges : JudgesTargets accepts) (first second : String) :
    (control.setup accepts (first ++ "," ++ second)).1 = .ok () ↔
      (control.setup accepts first).1 = .ok () ∧
        ((control.setup accepts first).2.setup accepts second).1 = .ok () := by
  have further := (enforced.setup first).setup_eq_ok_iff (live_setup alive first) second
  rw [enforced.setup_eq_ok_iff alive, Event.goal_setup_append, further]
  constructor
  · rintro ⟨last, aimed, held⟩
    obtain ⟨middle, firstAimed, secondAimed⟩ := exists_of_bind_eq_ok aimed
    -- the first settings are granted because their targets are among those of both
    have granted := (enforced.setup_eq_ok_iff alive first).mpr
      ⟨middle, firstAimed, judges.canHold held (Event.names_subset_goal secondAimed)⟩
    obtain rfl := Except.ok.inj (firstAimed.symm.trans (goal_of_setup granted).1)
    exact ⟨granted, last, secondAimed, held⟩
  · rintro ⟨granted, last, aimed, held⟩
    refine ⟨last, ?_, held⟩
    rw [(goal_of_setup granted).1]
    exact aimed

/-- Controls in force are alike if their configurations are, and either both are live or none. -/
theorem InForce.eq {other : Control} (enforced : control.InForce accepts)
    (otherEnforced : other.InForce accepts) (alive : control.live = other.live)
    (same : control.config = other.config) : control = other := by
  have filters : control.filter = other.filter := by
    rw [enforced.filter_eq, otherEnforced.filter_eq, same]
  cases control
  cases other
  rw [mk.injEq]
  exact ⟨same, filters, alive⟩

/--
Where a subscriber judges directives by their targets, settings that are joined are granted
exactly if the first are and then the second, and the control is the same after either: the
same targets in the same order with the same levels, and the filter built from them.
-/
theorem setup_joined (judges : JudgesTargets accepts) (reached : control.Reached accepts)
    (alive : control.live = true) (first second : String) :
    let joined := control.setup accepts (first ++ "," ++ second)
    let once := control.setup accepts first
    let twice := once.2.setup accepts second
    (joined.1 = .ok () ↔ once.1 = .ok () ∧ twice.1 = .ok ()) ∧
      (joined.1 = .ok () → joined.2 = twice.2) := by
  intro joined once twice
  have enforced := reached.inForce
  have granted := enforced.setup_append_eq_ok_iff alive judges first second
  refine ⟨granted, fun joinedGranted => ?_⟩
  obtain ⟨firstGranted, secondGranted⟩ := granted.mp joinedGranted
  have aimed := (goal_of_setup joinedGranted).1
  rw [Event.goal_setup_append, (goal_of_setup firstGranted).1] at aimed
  have same : joined.2.config = twice.2.config :=
    Except.ok.inj (aimed.symm.trans (goal_of_setup secondGranted).1)
  have live : joined.2.live = twice.2.live :=
    (live_setup alive _).trans (live_setup (live_setup alive first) second).symm
  exact (enforced.setup _).eq ((enforced.setup first).setup second) live same

def sampleFirst : String := "default=warn, pipeline=info,matching=off"

def sampleSecond : String := "trie=debug,default=error,pipeline=trace"

/-- A target of the first settings comes again in the second ones, as does the default level. -/
theorem sample_setup_joined :
    ∃ control : Control, JudgesTargets startsLikeName ∧ control.Reached startsLikeName ∧
      control.live = true ∧
      let joined := control.setup startsLikeName (sampleFirst ++ "," ++ sampleSecond)
      joined.1 = .ok () ∧
        joined.2 = ((control.setup startsLikeName sampleFirst).2.setup
          startsLikeName sampleSecond).2 ∧
        joined.2.config.settings = "default=error,matching=off,pipeline=trace,trie=debug" := by
  let control : Control := ⟨sampleConfig, ⟨.info, [("matching", .debug)]⟩, true⟩
  have reached : control.Reached startsLikeName :=
    ⟨sampleConfig, control, [], by decide +kernel, rfl⟩
  have granted : (control.setup startsLikeName (sampleFirst ++ "," ++ sampleSecond)).1 =
      .ok () := by decide +kernel
  obtain ⟨-, alike⟩ :=
    setup_joined judgesTargets_startsLikeName reached rfl sampleFirst sampleSecond
  exact ⟨control, judgesTargets_startsLikeName, reached, rfl, granted, alike granted,
    by decide +kernel⟩

end Control

end PacketClassifier.Logging
