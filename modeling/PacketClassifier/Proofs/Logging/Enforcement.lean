import PacketClassifier.Logging.Control
import PacketClassifier.Proofs.Outcome

/-!
# Filters in force

A control is asked for changes, and its subscriber may go away at any time.  Whatever the
request, a configuration is worked out first, and only that configuration as a whole is put in
force or refused.  So along every run the filter in force is the one built from the
configuration, and a request that is refused has changed nothing.
-/

namespace PacketClassifier.Logging

variable {accepts : String → Bool}

theorem checkTarget_eq_ok_iff {target : String} :
    checkTarget target = .ok () ↔ IsTarget target := by
  unfold checkTarget
  split
  · rename_i proper
    exact iff_of_true rfl proper
  · rename_i improper
    exact iff_of_false (by simp) improper

namespace Filter

variable {config : Config} {filter : Filter}

/-- A filter can hold a setting: it is for a proper target, and its directive is accepted. -/
def CanHold (accepts : String → Bool) (setting : String × Level) : Prop :=
  IsTarget setting.1 ∧ accepts (Config.settingText setting.1 setting.2) = true

theorem directive_eq_ok_iff {setting stated : String × Level} :
    directive accepts setting.1 setting.2 = .ok stated ↔
      CanHold accepts setting ∧ setting = stated := by
  unfold directive CanHold
  rw [← checkTarget_eq_ok_iff]
  cases checkTarget setting.1 with
  | error cause => simp [bind, Except.bind]
  | ok _ =>
      cases accepted : accepts (Config.settingText setting.1 setting.2) with
      | false => simp [bind, Except.bind, accepted, throw, throwThe, MonadExceptOf.throw]
      | true => simp [bind, Except.bind, accepted, pure, Except.pure]

/-- A filter is built if it can hold every setting, and it states them all, in order. -/
theorem ofConfig_eq_ok_iff :
    ofConfig accepts config = .ok filter ↔
      (∀ setting ∈ config.targets.toList, CanHold accepts setting) ∧
        filter = { level := config.level, directives := config.targets.toList } := by
  have stated (directives : List (String × Level)) :
      config.targets.toList.mapM (fun setting => directive accepts setting.1 setting.2) =
          .ok directives ↔
        (∀ setting ∈ config.targets.toList, CanHold accepts setting) ∧
          config.targets.toList = directives := by
    simp only [mapM_eq_ok_iff, directive_eq_ok_iff, List.forall₂_and_left,
      List.forall₂_eq_eq_eq]
  constructor
  · intro built
    obtain ⟨directives, listed, built⟩ := exists_of_bind_eq_ok built
    obtain ⟨held, rfl⟩ := (stated directives).mp listed
    exact ⟨held, (Except.ok.inj built).symm⟩
  · rintro ⟨held, rfl⟩
    have listed := (stated config.targets.toList).mpr ⟨held, rfl⟩
    simp only [ofConfig, listed]
    rfl

end Filter

namespace Control

variable {config candidate : Config} {control start : Control}

/-! ## One request -/

/-- What happens to a control. -/
inductive Event where
  | setDefault (level : Level)
  | setTarget (target : String) (level : Level)
  | clearTarget (target : String)
  | setup (text : String)
  /-- The subscriber goes away. -/
  | drop

/-- The configuration that an event asks for, if that can be told. -/
def Event.goal (config : Config) : Event → Except ControlError Config
  | .setDefault level => .ok { config with level }
  | .setTarget target level =>
      (checkTarget target).map
        (fun _ => { config with targets := config.targets.insert target level })
  | .clearTarget target => .ok { config with targets := config.targets.erase target }
  | .setup text => (readSettings text).map (fun settings => config.setAll settings.toList)
  | .drop => .ok config

/-- What an event comes to, and the control after it. -/
def respond (accepts : String → Bool) (control : Control) :
    Event → Except ControlError Unit × Control
  | .setDefault level => control.setDefault accepts level
  | .setTarget target level => control.setTarget accepts target level
  | .clearTarget target =>
      let (result, control) := control.clearTarget accepts target
      (result.map (fun _ => ()), control)
  | .setup text => control.setup accepts text
  | .drop => (.ok (), control.drop)

/-- Every request puts the configuration in force that it asks for. -/
theorem respond_eq (event : Event) (request : event ≠ .drop) :
    control.respond accepts event =
      match event.goal control.config with
      | .error cause => (.error cause, control)
      | .ok candidate => control.enforce accepts candidate := by
  cases event with
  | setDefault level => rfl
  | setTarget target level =>
      simp only [respond, setTarget, Event.goal]
      cases checkTarget target with
      | error cause => rfl
      | ok _ => rfl
  | clearTarget target =>
      simp only [respond, clearTarget, Event.goal]
      rcases control.enforce accepts
        { control.config with targets := control.config.targets.erase target } with
        ⟨result, last⟩
      cases result with
      | error cause => rfl
      | ok _ => rfl
  | setup text =>
      simp only [respond, setup, Event.goal]
      cases readSettings text with
      | error cause => rfl
      | ok settings => rfl
  | drop => exact absurd rfl request

/-- The configuration is the one in force, or it can take its place. -/
def CanEnforce (accepts : String → Bool) (control : Control) (candidate : Config) : Prop :=
  candidate = control.config ∨
    control.live = true ∧ ∀ setting ∈ candidate.targets.toList, Filter.CanHold accepts setting

/-- A configuration is put in force with its filter, or nothing is changed. -/
theorem enforce_cases (accepts : String → Bool) (control : Control) (candidate : Config) :
    (∃ cause, control.enforce accepts candidate = (.error cause, control) ∧
      ¬ control.CanEnforce accepts candidate) ∨
    (candidate = control.config ∧ control.enforce accepts candidate = (.ok (), control)) ∨
    ∃ filter, Filter.ofConfig accepts candidate = .ok filter ∧ control.live = true ∧
      control.enforce accepts candidate =
        (.ok (), { control with config := candidate, filter }) := by
  unfold enforce
  split
  · rename_i same
    exact Or.inr (Or.inl ⟨same, rfl⟩)
  · rename_i different
    cases built : Filter.ofConfig accepts candidate with
    | error cause =>
        refine Or.inl ⟨cause, rfl, ?_⟩
        rintro (same | ⟨-, held⟩)
        · exact different same
        · cases built.symm.trans (Filter.ofConfig_eq_ok_iff.mpr ⟨held, rfl⟩)
    | ok filter =>
        cases alive : control.live with
        | true => exact Or.inr (Or.inr ⟨filter, rfl, rfl, rfl⟩)
        | false =>
            refine Or.inl ⟨.subscriberGone, rfl, ?_⟩
            rintro (same | ⟨there, -⟩)
            · exact different same
            · cases alive.symm.trans there

/--
A request is granted if the configuration that it asks for can be enforced, and then that is
the one in force; else it changes nothing.
-/
theorem respond_cases (accepts : String → Bool) (control : Control) (event : Event) :
    (∃ cause, control.respond accepts event = (.error cause, control) ∧
      ∀ candidate, event.goal control.config = .ok candidate →
        ¬ control.CanEnforce accepts candidate) ∨
    ∃ candidate last, control.respond accepts event = (.ok (), last) ∧
      event.goal control.config = .ok candidate ∧ control.CanEnforce accepts candidate ∧
      last.config = candidate := by
  by_cases request : event = .drop
  · subst request
    exact Or.inr ⟨control.config, control.drop, rfl, rfl, Or.inl rfl, rfl⟩
  · rw [respond_eq event request]
    cases aimed : event.goal control.config with
    | error cause => exact Or.inl ⟨cause, rfl, by simp⟩
    | ok candidate =>
        rcases control.enforce_cases accepts candidate with
          ⟨cause, kept, unable⟩ | ⟨same, kept⟩ | ⟨filter, built, alive, replaced⟩
        · refine Or.inl ⟨cause, kept, ?_⟩
          rintro other equal
          exact Except.ok.inj equal ▸ unable
        · exact Or.inr ⟨candidate, control, kept, rfl, Or.inl same, same.symm⟩
        · have held := (Filter.ofConfig_eq_ok_iff.mp built).1
          exact Or.inr ⟨candidate, _, replaced, rfl, Or.inr ⟨alive, held⟩, rfl⟩

/-! ## Runs -/

/-- The filter in force is the one built from the configuration. -/
def InForce (accepts : String → Bool) (control : Control) : Prop :=
  Filter.ofConfig accepts control.config = .ok control.filter

theorem InForce.canHold (enforced : control.InForce accepts) :
    ∀ setting ∈ control.config.targets.toList, Filter.CanHold accepts setting :=
  (Filter.ofConfig_eq_ok_iff.mp enforced).1

theorem inForce_new (built : new accepts config = .ok start) : start.InForce accepts := by
  obtain ⟨filter, made, built⟩ := exists_of_bind_eq_ok built
  obtain rfl := Except.ok.inj built
  exact made

theorem InForce.enforce (enforced : control.InForce accepts) (candidate : Config) :
    (control.enforce accepts candidate).2.InForce accepts := by
  rcases control.enforce_cases accepts candidate with
    ⟨cause, kept, -⟩ | ⟨-, kept⟩ | ⟨filter, built, -, replaced⟩
  · rw [kept]
    exact enforced
  · rw [kept]
    exact enforced
  · rw [replaced]
    exact built

/-- The control after an event. -/
def after (accepts : String → Bool) (control : Control) (event : Event) : Control :=
  (control.respond accepts event).2

/-- The control after several events, one after the other. -/
def run (accepts : String → Bool) (control : Control) (events : List Event) : Control :=
  events.foldl (after accepts) control

theorem InForce.after (enforced : control.InForce accepts) (event : Event) :
    (control.after accepts event).InForce accepts := by
  by_cases request : event = .drop
  · subst request
    exact enforced
  · unfold Control.after
    rw [respond_eq event request]
    cases event.goal control.config with
    | error cause => exact enforced
    | ok candidate => exact enforced.enforce candidate

theorem InForce.run (enforced : control.InForce accepts) (events : List Event) :
    (control.run accepts events).InForce accepts := by
  induction events generalizing control with
  | nil => exact enforced
  | cons first rest ih => exact ih (enforced.after first)

/-- The subscriber exists until it goes away. -/
theorem live_enforce (control : Control) (candidate : Config) :
    (control.enforce accepts candidate).2.live = control.live := by
  rcases control.enforce_cases accepts candidate with
    ⟨cause, kept, -⟩ | ⟨-, kept⟩ | ⟨filter, -, -, replaced⟩
  · rw [kept]
  · rw [kept]
  · rw [replaced]

theorem live_after (control : Control) (event : Event) :
    (control.after accepts event).live = true ↔ control.live = true ∧ event ≠ .drop := by
  by_cases request : event = .drop
  · subst request
    simp [after, respond, drop]
  · unfold after
    rw [respond_eq event request]
    cases event.goal control.config with
    | error cause => simp [request]
    | ok candidate => simp [request, live_enforce]

theorem live_run (control : Control) (events : List Event) :
    (control.run accepts events).live = true ↔ control.live = true ∧ .drop ∉ events := by
  induction events generalizing control with
  | nil => simp [run]
  | cons first rest ih =>
      have further : (control.run accepts (first :: rest)).live = true ↔
          (control.after accepts first).live = true ∧ .drop ∉ rest := ih _
      rw [further, live_after, List.mem_cons]
      grind

/--
Along every run, also one on which the subscriber goes away, every target is a proper name,
and the filter in force is the one built from the configuration.  A request that is refused
changes nothing.  It is granted exactly if it asks for a configuration that is in force
already, or that the subscriber, while it exists, accepts; that one is then in force.
-/
theorem run_enforced (built : new accepts config = .ok start) (events : List Event) :
    let control := start.run accepts events
    (control.live = true ↔ .drop ∉ events) ∧
      (∀ setting ∈ control.config.targets.toList, checkTarget setting.1 = .ok ()) ∧
      Filter.ofConfig accepts control.config = .ok control.filter ∧
      ∀ event,
        (∀ cause, (control.respond accepts event).1 = .error cause →
          control.after accepts event = control) ∧
        ((control.respond accepts event).1 = .ok () ↔
          ∃ candidate, event.goal control.config = .ok candidate ∧
            control.CanEnforce accepts candidate) ∧
        ((control.respond accepts event).1 = .ok () →
          event.goal control.config = .ok (control.after accepts event).config) := by
  intro control
  have enforced : control.InForce accepts := (inForce_new built).run events
  have begun : start.live = true := by
    obtain ⟨filter, -, made⟩ := exists_of_bind_eq_ok built
    exact Except.ok.inj made ▸ rfl
  refine ⟨?_, ?_, enforced, fun event => ?_⟩
  · rw [live_run, begun]
    simp
  · intro setting member
    exact checkTarget_eq_ok_iff.mpr (enforced.canHold setting member).1
  · unfold after
    rcases control.respond_cases accepts event with
      ⟨cause, refused, unable⟩ | ⟨candidate, last, granted, aimed, able, rfl⟩
    · rw [refused]
      refine ⟨fun _ _ => rfl, ⟨fun none => ?_, ?_⟩, fun none => ?_⟩
      · cases none
      · rintro ⟨candidate, aimed, able⟩
        exact absurd able (unable candidate aimed)
      · cases none
    · rw [granted]
      refine ⟨fun cause none => ?_, ⟨fun _ => ⟨_, aimed, able⟩, fun _ => rfl⟩, fun _ => aimed⟩
      cases none

/-- A control that starts with a level of its own for one target. -/
def sampleConfig : Config :=
  { targets := LevelMap.empty.insert "matching" .debug }

/-- Changes, some of them refused, before the subscriber goes away and after. -/
def sampleEvents : List Event :=
  [.setTarget "pipeline" .trace, .setup "default=warn, matching=off", .setup "matching",
    .clearTarget "pipeline", .setTarget "a b" .info, .drop, .setup "matching=off"]

theorem sample_run_enforced :
    ∃ start, new startsLikeName sampleConfig = .ok start ∧
      let control := start.run startsLikeName sampleEvents
      control.config = { level := .warn, targets := LevelMap.empty.insert "matching" .off } ∧
        control.filter = ⟨.warn, [("matching", .off)]⟩ ∧
        (control.respond startsLikeName (.clearTarget "matching")).1 =
          .error .subscriberGone ∧
        control.after startsLikeName (.clearTarget "matching") = control := by
  let start : Control := ⟨sampleConfig, ⟨.info, [("matching", .debug)]⟩, true⟩
  have built : new startsLikeName sampleConfig = .ok start := by decide +kernel
  have refused : ((start.run startsLikeName sampleEvents).respond startsLikeName
      (.clearTarget "matching")).1 = .error .subscriberGone := by decide +kernel
  obtain ⟨-, -, -, answered⟩ := run_enforced built sampleEvents
  exact ⟨start, built, by decide +kernel, by decide +kernel, refused,
    (answered (.clearTarget "matching")).1 _ refused⟩

end Control

end PacketClassifier.Logging
