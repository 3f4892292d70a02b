import PacketClassifier.Instruction
import PacketClassifier.MatchSet
import PacketClassifier.Tally

/-!
# Flow entries

A flow entry is a rule together with what may change while the entry lives: its
instructions, its tally and the table it was installed in.

Three relations compare entries.  An entry *overlaps* another if some packet
may match both, it is *contained* in a template if it is at least as specific,
and it *equals* a template if priority and conjunction are the same.  Each can
also ask for agreeing cookies and for actions towards a port or a group.
-/

namespace PacketClassifier

/-- The part of an entry that never changes. -/
structure Rule where
  priority : UInt32 := 0
  cookie : UInt64 := 0
  cookieMask : UInt64 := 0
  matchSet : MatchSet := MatchSet.empty
  notifiesRemoval : Bool := false
deriving DecidableEq, Inhabited

/-- The part of an entry that changes while the entry lives. -/
structure EntryState where
  instructions : InstructionSet := InstructionSet.empty
  tally : Tally := {}
  table : Option TableId := none
deriving DecidableEq, Inhabited

structure Entry extends Rule, EntryState
deriving DecidableEq, Inhabited

namespace EntryState

/-- Count one packet of `bytes` bytes. -/
def hit (state : EntryState) (thread : ThreadId) (bytes : UInt64) : EntryState :=
  { state with tally := state.tally.hit thread bytes }

/-- Take over the counters of an entry that gave way to this one. -/
def fold (state : EntryState) (counters : Counters) : EntryState :=
  { state with tally := state.tally.fold counters }

/-- Set the instructions, and the counters back to zero if asked for. -/
def replaceInstructions (state : EntryState) (instructions : InstructionSet)
    (reset : Bool) : EntryState :=
  { state with
    instructions
    tally := if reset then state.tally.reset else state.tally }

/-- Note the table of an entry.  An entry keeps the first table it is given. -/
def attach (state : EntryState) (table : TableId) : EntryState :=
  { state with table := state.table.or (some table) }

end EntryState

namespace Rule

/-- Two cookies agree on the bits of a mask. -/
def CookieMatches (rule : Rule) (cookie mask : UInt64) : Prop :=
  rule.cookie &&& mask = cookie &&& mask

instance (rule : Rule) (cookie mask : UInt64) :
    Decidable (rule.CookieMatches cookie mask) :=
  inferInstanceAs (Decidable (_ = _))

/--
Some packet may match both rules, and neither priority nor cookie tells them
apart.  Cookies are compared under the mask of the candidate.
-/
def Overlaps (rule candidate : Rule) (checkPriority checkCookie : Bool) : Prop :=
  (checkPriority → rule.priority = candidate.priority) ∧
    (checkCookie →
      rule.CookieMatches candidate.cookie candidate.cookieMask) ∧
    rule.matchSet.Intersects candidate.matchSet

instance (rule candidate : Rule) (checkPriority checkCookie : Bool) :
    Decidable (rule.Overlaps candidate checkPriority checkCookie) :=
  inferInstanceAs (Decidable (_ ∧ _ ∧ _))

/--
The rule is at least as specific as the template.  Cookies are compared under
the mask of the template.
-/
def ContainedIn (rule template : Rule) (checkPriority checkCookie : Bool) :
    Prop :=
  (checkPriority → rule.priority = template.priority) ∧
    (checkCookie → rule.CookieMatches template.cookie template.cookieMask) ∧
    rule.matchSet.IsSubmatch template.matchSet

instance (rule template : Rule) (checkPriority checkCookie : Bool) :
    Decidable (rule.ContainedIn template checkPriority checkCookie) :=
  inferInstanceAs (Decidable (_ ∧ _ ∧ _))

/--
The rule has the priority and the conjunction of the template.  Cookies are
compared under the mask of the template.
-/
def SameAs (rule template : Rule) (checkCookie : Bool) : Prop :=
  rule.priority = template.priority ∧ rule.matchSet = template.matchSet ∧
    (checkCookie → rule.CookieMatches template.cookie template.cookieMask)

instance (rule template : Rule) (checkCookie : Bool) :
    Decidable (rule.SameAs template checkCookie) :=
  inferInstanceAs (Decidable (_ ∧ _ ∧ _))

end Rule

namespace Entry

/-- What the entry has counted. -/
def counters (entry : Entry) : Counters :=
  entry.tally.counters

/-- The rules overlap, and one of the two entries passes each part of the filter. -/
def Overlaps (entry candidate : Entry) (checkPriority checkCookie : Bool)
    (filter : OutputFilter) : Prop :=
  entry.toRule.Overlaps candidate.toRule checkPriority checkCookie ∧
    (entry.instructions.PassesPort filter ∨
      candidate.instructions.PassesPort filter) ∧
    (entry.instructions.PassesGroup filter ∨
      candidate.instructions.PassesGroup filter)

instance (entry candidate : Entry) (checkPriority checkCookie : Bool)
    (filter : OutputFilter) :
    Decidable (entry.Overlaps candidate checkPriority checkCookie filter) :=
  inferInstanceAs (Decidable (_ ∧ _ ∧ _))

/-- The rule is contained in the template's, and the entry passes the filter. -/
def ContainedIn (entry template : Entry) (checkPriority checkCookie : Bool)
    (filter : OutputFilter) : Prop :=
  entry.toRule.ContainedIn template.toRule checkPriority checkCookie ∧
    entry.instructions.Passes filter

instance (entry template : Entry) (checkPriority checkCookie : Bool)
    (filter : OutputFilter) :
    Decidable (entry.ContainedIn template checkPriority checkCookie filter) :=
  inferInstanceAs (Decidable (_ ∧ _))

/-- The rule equals the template's, and the entry passes the filter. -/
def SameAs (entry template : Entry) (checkCookie : Bool)
    (filter : OutputFilter) : Prop :=
  entry.toRule.SameAs template.toRule checkCookie ∧
    entry.instructions.Passes filter

instance (entry template : Entry) (checkCookie : Bool) (filter : OutputFilter) :
    Decidable (entry.SameAs template checkCookie filter) :=
  inferInstanceAs (Decidable (_ ∧ _))

end Entry

/-- How the template of a request designates entries. -/
inductive Strictness where
  /-- The entries with the priority and the conjunction of the template. -/
  | strict
  /-- The entries at least as specific as the template. -/
  | nonStrict
deriving DecidableEq, Inhabited

namespace Strictness

/-- A template designates an entry. -/
def Selects (strictness : Strictness) (entry template : Entry)
    (filter : OutputFilter) : Prop :=
  match strictness with
  | .strict => entry.SameAs template true filter
  | .nonStrict => entry.ContainedIn template false true filter

instance (strictness : Strictness) (entry template : Entry)
    (filter : OutputFilter) :
    Decidable (strictness.Selects entry template filter) :=
  match strictness with
  | .strict => inferInstanceAs (Decidable (entry.SameAs template true filter))
  | .nonStrict =>
      inferInstanceAs (Decidable (entry.ContainedIn template false true filter))

def text : Strictness → String
  | .strict => "strict"
  | .nonStrict => "non-strict"

end Strictness

/-- Which entries a request is about. -/
structure Query where
  template : Entry := {}
  strictness : Strictness := .nonStrict
  filter : OutputFilter := {}
deriving DecidableEq, Inhabited

/-- A request is about an entry. -/
def Query.Selects (query : Query) (entry : Entry) : Prop :=
  query.strictness.Selects entry query.template query.filter

instance (query : Query) (entry : Entry) : Decidable (query.Selects entry) :=
  inferInstanceAs (Decidable (query.strictness.Selects _ _ _))

end PacketClassifier
