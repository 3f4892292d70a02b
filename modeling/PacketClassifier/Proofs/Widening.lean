import Mathlib.Data.List.Basic
import PacketClassifier.Matcher
import PacketClassifier.Proofs.PacketSpace

/-!
# Wider requests

A request asks for less if its conjunction is wider, if it compares fewer bits of cookies, or
if it does not name a port or a group any more.  A wider request designates every entry that
the narrower one designates; and of any two requests of which this is true, the second is the
wider one in this sense, since a few entries made from the first request tell.
-/

namespace PacketClassifier

/-! ## Cookies under masks -/

section Cookies

variable {word cookie mask wideMask : UInt64}

/-- Words that agree under a mask agree under a mask within it. -/
theorem and_eq_and_of_within (within : mask &&& wideMask = wideMask)
    (agree : word &&& mask = cookie &&& mask) : word &&& wideMask = cookie &&& wideMask := by
  rw [← within, ← UInt64.and_assoc, agree, UInt64.and_assoc]

/-- The bits outside a mask do not count under the mask. -/
theorem flip_and_mask (cookie mask : UInt64) : (cookie ^^^ ~~~mask) &&& mask = cookie &&& mask := by
  rw [← UInt64.toBitVec_inj]
  apply BitVec.eq_of_getLsbD_eq
  intro i below
  simp only [UInt64.toBitVec_and, UInt64.toBitVec_xor, UInt64.toBitVec_not, BitVec.getLsbD_and,
    BitVec.getLsbD_xor, BitVec.getLsbD_not, below, decide_true, Bool.true_and]
  cases mask.toBitVec.getLsbD i <;> simp

/-- A mask under which the bits outside another one do not count is within that one. -/
theorem within_of_flip
    (unseen : (cookie ^^^ ~~~mask) &&& wideMask = cookie &&& wideMask) :
    mask &&& wideMask = wideMask := by
  rw [← UInt64.toBitVec_inj] at *
  apply BitVec.eq_of_getLsbD_eq
  intro i below
  have bit := congrArg (BitVec.getLsbD · i) unseen
  simp only [UInt64.toBitVec_and, UInt64.toBitVec_xor, UInt64.toBitVec_not, BitVec.getLsbD_and,
    BitVec.getLsbD_xor, BitVec.getLsbD_not, below, decide_true, Bool.true_and] at bit ⊢
  revert bit
  cases mask.toBitVec.getLsbD i <;> cases wideMask.toBitVec.getLsbD i <;>
    cases cookie.toBitVec.getLsbD i <;> simp

end Cookies

/-! ## Templates -/

namespace Rule

variable {rule template wide : Rule}

/-- The second template asks for less: a wider conjunction, and fewer bits of the same cookie. -/
structure Widens (template wide : Rule) : Prop where
  matchSet : template.matchSet.IsSubmatch wide.matchSet
  mask : template.cookieMask &&& wide.cookieMask = wide.cookieMask
  cookie : template.CookieMatches wide.cookie wide.cookieMask

theorem Widens.containedIn (widens : template.Widens wide)
    (contained : rule.ContainedIn template false true) : rule.ContainedIn wide false true := by
  have agree := and_eq_and_of_within widens.mask (contained.2.1 rfl)
  exact ⟨fun compared => absurd compared Bool.false_ne_true,
    fun _ => agree.trans widens.cookie,
    MatchSet.IsSubmatch.trans contained.2.2 widens.matchSet⟩

/-- A template is contained in itself, whatever its cookie is outside the mask. -/
theorem containedIn_of_cookie (template : Rule) {cookie : UInt64}
    (agree : cookie &&& template.cookieMask = template.cookie &&& template.cookieMask) :
    { template with cookie }.ContainedIn template false true :=
  ⟨fun _ => rfl, fun _ => agree, .refl _⟩

/-- Two rules like the template, with opposite cookies outside its mask, tell what is wider. -/
theorem widens_of_containedIn (all : ∀ rule : Rule, rule.ContainedIn template false true →
    rule.ContainedIn wide false true) : template.Widens wide := by
  have own := all template (template.containedIn_of_cookie rfl)
  have flipped := all _ (template.containedIn_of_cookie (flip_and_mask _ _))
  have unseen : (template.cookie ^^^ ~~~template.cookieMask) &&& wide.cookieMask =
      template.cookie &&& wide.cookieMask := (flipped.2.1 rfl).trans (own.2.1 rfl).symm
  exact ⟨own.2.2, within_of_flip unseen, own.2.1 rfl⟩

end Rule

/-! ## Filters -/

namespace OutputFilter

variable {filter wide : OutputFilter} {set : InstructionSet}

/-- The second filter names the same port or none, and the same group or none. -/
structure Widens (filter wide : OutputFilter) : Prop where
  port : wide.port = filter.port ∨ wide.port = PortNo.any
  group : wide.group = filter.group ∨ wide.group = GroupId.any

theorem Widens.passes (widens : filter.Widens wide) (passes : set.Passes filter) :
    set.Passes wide := by
  obtain ⟨port, group⟩ := passes
  constructor
  · rcases widens.port with same | any
    · rwa [InstructionSet.PassesPort, same]
    · exact Or.inl any
  · rcases widens.group with same | any
    · rwa [InstructionSet.PassesGroup, same]
    · exact Or.inl any

/-- Instructions towards the port and the group of a filter, and nowhere else. -/
def user (filter : OutputFilter) : InstructionSet where
  applied := some [.output filter.port, .group filter.group]

theorem actions_user (filter : OutputFilter) :
    filter.user.actions = [.output filter.port, .group filter.group] :=
  rfl

theorem passes_user (filter : OutputFilter) : filter.user.Passes filter := by
  constructor
  · exact Or.inr (by simp [InstructionSet.HasOutput, actions_user])
  · exact Or.inr (by simp [InstructionSet.HasGroup, actions_user])

/-- Instructions that a filter just lets pass tell what is wider. -/
theorem widens_of_passes (passes : filter.user.Passes wide) : filter.Widens wide where
  port := passes.1.symm.imp_left fun output => by
    simpa [InstructionSet.HasOutput, actions_user] using output
  group := passes.2.symm.imp_left fun group => by
    simpa [InstructionSet.HasGroup, actions_user] using group

end OutputFilter

/-! ## Requests -/

namespace Entry

variable {template wide entry : Entry} {filter wideFilter : OutputFilter}

/-- The second request asks for less of the entry, and for less of its instructions. -/
def Widens (template : Entry) (filter : OutputFilter) (wide : Entry)
    (wideFilter : OutputFilter) : Prop :=
  template.toRule.Widens wide.toRule ∧ filter.Widens wideFilter

theorem Widens.selects (widens : template.Widens filter wide wideFilter)
    (selected : Strictness.nonStrict.Selects entry template filter) :
    Strictness.nonStrict.Selects entry wide wideFilter :=
  ⟨widens.1.containedIn selected.1, widens.2.passes selected.2⟩

/-- A request that designates what another one designates is wider. -/
theorem widens_of_selects
    (all : ∀ entry : Entry, Strictness.nonStrict.Selects entry template filter →
      Strictness.nonStrict.Selects entry wide wideFilter) :
    template.Widens filter wide wideFilter := by
  have together {rule : Rule} (contained : rule.ContainedIn template.toRule false true) :
      Strictness.nonStrict.Selects ⟨rule, { instructions := filter.user }⟩ wide wideFilter :=
    all _ ⟨contained, filter.passes_user⟩
  constructor
  · exact Rule.widens_of_containedIn fun rule contained => (together contained).1
  · exact OutputFilter.widens_of_passes
      (together (template.toRule.containedIn_of_cookie rfl)).2

/-- A wider request designates the same entries of a matcher, and perhaps others. -/
theorem Widens.selected_sublist (widens : template.Widens filter wide wideFilter)
    (matcher : Matcher) (ledger : Ledger) :
    (matcher.selected ledger { template, filter }).Sublist
      (matcher.selected ledger { template := wide, filter := wideFilter }) :=
  List.monotone_filter_right _ fun _ selected =>
    decide_eq_true (widens.selects (of_decide_eq_true selected))

/--
A request designates every entry that another one designates exactly if it is wider: by its
conjunction, by the bits of cookies that it compares, and by a port and a group that it names
no more or still names.  So it designates no fewer entries of any matcher.
-/
theorem widens_iff (template wide : Entry) (filter wideFilter : OutputFilter) :
    (template.Widens filter wide wideFilter ↔
      ∀ entry : Entry, Strictness.nonStrict.Selects entry template filter →
        Strictness.nonStrict.Selects entry wide wideFilter) ∧
    (template.Widens filter wide wideFilter → ∀ (matcher : Matcher) (ledger : Ledger),
      (matcher.selected ledger { template, filter }).Sublist
        (matcher.selected ledger { template := wide, filter := wideFilter })) :=
  ⟨⟨fun widens _ => widens.selects, widens_of_selects⟩, fun widens => widens.selected_sublist⟩

/-- Entries for packets from a part of a network, of which four bits of the cookie count. -/
def office : Entry where
  cookie := 5
  cookieMask := 15
  matchSet := ⟨[⟨.ipv4Src, 0xC0A80100, 0xFFFFFF00, by decide, by decide⟩],
    by simp [InFieldOrder], by decide⟩

/-- Entries for packets from the network, of which two bits of the cookie count. -/
def campus : Entry where
  cookie := 1
  cookieMask := 3
  matchSet := ⟨[⟨.ipv4Src, 0xC0A80000, 0xFFFF0000, by decide, by decide⟩],
    by simp [InFieldOrder], by decide⟩

/-- An entry for packets from a host, which go to a port and to a group. -/
def printer : Entry where
  cookie := 21
  matchSet := ⟨[⟨.ipv4Src, 0xC0A80101, 0xFFFFFFFF, by decide, by decide⟩],
    by simp [InFieldOrder], by decide⟩
  instructions := OutputFilter.user ⟨⟨1⟩, ⟨7⟩⟩

/-- A request about the network, and about no port, still designates the host. -/
theorem campus_widens :
    office.Widens ⟨⟨1⟩, ⟨7⟩⟩ campus ⟨PortNo.any, ⟨7⟩⟩ ∧
      Strictness.nonStrict.Selects printer office ⟨⟨1⟩, ⟨7⟩⟩ ∧
      Strictness.nonStrict.Selects printer campus ⟨PortNo.any, ⟨7⟩⟩ ∧
      ∀ (matcher : Matcher) (ledger : Ledger),
        (matcher.selected ledger { template := office, filter := ⟨⟨1⟩, ⟨7⟩⟩ }).Sublist
          (matcher.selected ledger { template := campus, filter := ⟨PortNo.any, ⟨7⟩⟩ }) := by
  have widens : office.Widens ⟨⟨1⟩, ⟨7⟩⟩ campus ⟨PortNo.any, ⟨7⟩⟩ :=
    ⟨⟨by decide, by decide, by decide⟩, ⟨Or.inr rfl, Or.inl rfl⟩⟩
  have selected : Strictness.nonStrict.Selects printer office ⟨⟨1⟩, ⟨7⟩⟩ := by decide
  obtain ⟨selects, sublist⟩ := widens_iff office campus ⟨⟨1⟩, ⟨7⟩⟩ ⟨PortNo.any, ⟨7⟩⟩
  exact ⟨widens, selected, selects.mp widens printer selected, sublist widens⟩

end Entry

end PacketClassifier
