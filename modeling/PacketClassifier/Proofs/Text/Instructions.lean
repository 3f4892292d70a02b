import PacketClassifier.Instruction.Text
import PacketClassifier.Proofs.Text.Matches

/-!
# Instructions that are read back

What is in front of the colon of an action, or of the bracket of an instruction, is a verb that
tells which action or instruction it is, and what is behind determines what it is about.  So
the instructions of an entry, and the actions in them, are found again in order.
-/

namespace PacketClassifier

/-! ## Numbers and names -/

namespace Text

variable {Item : Type} [DecidableEq Item] {reserved : Item} {name : String}
  {text : Item → String}

/-- Items have a text, save a reserved one that has a name. -/
def naming (reserved : Item) (name : String) (text : Item → String) (item : Item) : String :=
  if item = reserved then name else text item

theorem naming_injective (injective : Function.Injective text)
    (fresh : ∀ item, text item ≠ name) : Function.Injective (naming reserved name text) := by
  intro left right same
  unfold naming at same
  split at same <;> split at same
  · rename_i here there
    exact here.trans there.symm
  · exact absurd same.symm (fresh right)
  · exact absurd same (fresh left)
  · exact injective same

theorem naming_ne {other : String} (different : name ≠ other)
    (fresh : ∀ item, text item ≠ other) (item : Item) :
    naming reserved name text item ≠ other := by
  unfold naming
  split
  · exact different
  · exact fresh item

theorem naming_subset {alphabet : List Char} (word : name.toList ⊆ alphabet)
    (among : ∀ item, (text item).toList ⊆ alphabet) (item : Item) :
    (naming reserved name text item).toList ⊆ alphabet := by
  unfold naming
  split
  · exact word
  · exact among item

/-- A decimal number is told from a name by its digits. -/
theorem decimal_ne (named : ¬ name.toList ⊆ hexDigits) (number : Nat) : decimal number ≠ name :=
  fun same => named (same ▸ decimal_subset number)

theorem decimal_subset_ruleCharacters (number : Nat) :
    (decimal number).toList ⊆ ruleCharacters :=
  List.Subset.trans (decimal_subset number) (by decide)

end Text

open Text

theorem TableId.text_injective : Function.Injective TableId.text := by
  refine naming_injective (fun left right same => ?_) (fun table => decimal_ne (by decide) _)
  exact congrArg TableId.mk (UInt8.toNat_inj.mp (decimal_inj.mp same))

theorem TableId.text_subset (table : TableId) : table.text.toList ⊆ ruleCharacters :=
  naming_subset (by decide) (fun _ => decimal_subset_ruleCharacters _) table

theorem PortNo.text_injective : Function.Injective PortNo.text := by
  let number (port : PortNo) : String := decimal port.number.toNat
  have numbers : Function.Injective number := fun left right same =>
    congrArg PortNo.mk (UInt32.toNat_inj.mp (decimal_inj.mp same))
  have fresh {name : String} (named : ¬ name.toList ⊆ hexDigits) (port : PortNo) :
      number port ≠ name := decimal_ne named _
  have withAny : Function.Injective (naming any "any" number) :=
    naming_injective numbers (fresh (by decide))
  have withLocal : Function.Injective (naming localStack "local" (naming any "any" number)) :=
    naming_injective withAny (naming_ne (by decide) (fresh (by decide)))
  exact naming_injective withLocal
    (naming_ne (by decide) (naming_ne (by decide) (fresh (by decide))))

theorem PortNo.text_subset (port : PortNo) : port.text.toList ⊆ ruleCharacters :=
  naming_subset (by decide) (naming_subset (by decide) (naming_subset (by decide)
    fun _ => decimal_subset_ruleCharacters _)) port

theorem GroupId.text_injective : Function.Injective GroupId.text := by
  let number (group : GroupId) : String := decimal group.number.toNat
  have numbers : Function.Injective number := fun left right same =>
    congrArg GroupId.mk (UInt32.toNat_inj.mp (decimal_inj.mp same))
  have fresh {name : String} (named : ¬ name.toList ⊆ hexDigits) (group : GroupId) :
      number group ≠ name := decimal_ne named _
  have withAny : Function.Injective (naming any "any" number) :=
    naming_injective numbers (fresh (by decide))
  exact naming_injective withAny (naming_ne (by decide) (fresh (by decide)))

theorem GroupId.text_subset (group : GroupId) : group.text.toList ⊆ ruleCharacters :=
  naming_subset (by decide) (naming_subset (by decide)
    fun _ => decimal_subset_ruleCharacters _) group

/-! ## Verbs and operands -/

/-- An operand between what opens and what closes it, or nothing. -/
def Text.enclosed (opening closing : String) : Option String → String
  | none => ""
  | some operand => opening ++ (operand ++ closing)

/-- A verb is found again in front of what opens its operand, and the operand behind. -/
theorem Text.eq_of_append_enclosed_eq {mark : Char} {opening closing verb verb' : String}
    {operand operand' : Option String} (marked : opening.toList.head? = some mark)
    (same : verb ++ enclosed opening closing operand =
      verb' ++ enclosed opening closing operand')
    (clear : mark ∉ verb.toList) (clear' : mark ∉ verb'.toList) :
    verb = verb' ∧ operand = operand' := by
  have starts (operand : Option String) : StartsAt mark (enclosed opening closing operand) := by
    cases operand with
    | none => exact startsAt_empty
    | some operand => exact startsAt_append marked _
  have opens (operand : String) : opening ++ (operand ++ closing) ≠ "" := by
    intro empty
    simp [(String.append_eq_empty_iff.mp empty).1] at marked
  obtain ⟨verbs, operands⟩ := eq_of_append_eq same clear clear' (starts _) (starts _)
  refine ⟨verbs, ?_⟩
  cases operand <;> cases operand'
  · rfl
  · exact absurd operands.symm (opens _)
  · exact absurd operands (opens _)
  · have texts := (String.append_right_inj opening).mp operands
    exact congrArg some ((String.append_left_inj closing).mp texts)

theorem Text.enclosed_subset {alphabet : List Char} {opening closing : String}
    {operand? : Option String} (opens : opening.toList ⊆ alphabet)
    (closes : closing.toList ⊆ alphabet)
    (among : ∀ operand ∈ operand?, operand.toList ⊆ alphabet) :
    (enclosed opening closing operand?).toList ⊆ alphabet := by
  cases operand? with
  | none => exact List.nil_subset _
  | some operand =>
      simp only [enclosed, String.toList_append, List.append_subset]
      exact ⟨opens, among operand rfl, closes⟩

/-! ## Actions -/

namespace Action

def verb : Action → String
  | .output _ => "output"
  | .group _ => "group"
  | .setField _ => "set_field"
  | .pushVlan _ => "push_vlan"
  | .popVlan => "pop_vlan"
  | .setQueue _ => "set_queue"
  | .decrementTtl => "dec_nw_ttl"
  | .setTtl _ => "set_nw_ttl"

def operand? : Action → Option String
  | .output port => some port.text
  | .group target => some target.text
  | .setField assignment => some assignment.text
  | .pushVlan etherType => some (hexPadded 4 etherType.toNat)
  | .setQueue queue => some (decimal queue.toNat)
  | .setTtl ttl => some (decimal ttl.toNat)
  | .popVlan | .decrementTtl => none

theorem text_eq_append (action : Action) :
    action.text = action.verb ++ enclosed ":" "" action.operand? := by
  cases action <;> simp [text, verb, operand?, enclosed, ← String.append_assoc]

theorem colon_not_mem_verb (action : Action) : ':' ∉ action.verb.toList := by
  cases action <;> simp only [verb] <;> decide

/-- An action is determined by its verb and its operand. -/
theorem eq_of_operand?_eq {left right : Action} (verbs : left.verb = right.verb)
    (operands : left.operand? = right.operand?) : left = right := by
  cases left <;> cases right <;> simp only [verb, String.reduceEq] at verbs
  all_goals simp only [operand?, Option.some.injEq] at operands
  case output => exact congrArg output (PortNo.text_injective operands)
  case group => exact congrArg group (GroupId.text_injective operands)
  case setField => exact congrArg setField (Match.text_injective operands)
  case popVlan => rfl
  case decrementTtl => rfl
  case pushVlan => exact congrArg pushVlan (UInt16.toNat_inj.mp (hexPadded_inj.mp operands))
  case setQueue => exact congrArg setQueue (UInt32.toNat_inj.mp (decimal_inj.mp operands))
  case setTtl => exact congrArg setTtl (UInt8.toNat_inj.mp (decimal_inj.mp operands))

/-- An action is determined by how it is written. -/
theorem text_injective : Function.Injective Action.text := by
  intro left right same
  rw [text_eq_append, text_eq_append] at same
  obtain ⟨verbs, operands⟩ := eq_of_append_enclosed_eq (by rfl) same
    left.colon_not_mem_verb right.colon_not_mem_verb
  exact eq_of_operand?_eq verbs operands

theorem text_ne_empty (action : Action) : action.text ≠ "" := by
  cases action <;> simp [text]

theorem verb_subset (action : Action) : action.verb.toList ⊆ ruleCharacters := by
  cases action <;> simp only [verb] <;> decide

theorem operand?_subset (action : Action) :
    ∀ operand ∈ action.operand?, operand.toList ⊆ ruleCharacters := by
  intro operand shown
  cases action <;> cases shown
  case output port => exact port.text_subset
  case group target => exact target.text_subset
  case setField assignment => exact assignment.text_subset
  case pushVlan etherType => exact List.Subset.trans (hexPadded_subset 4 _) hexCharacters_subset
  case setQueue queue => exact decimal_subset_ruleCharacters _
  case setTtl ttl => exact decimal_subset_ruleCharacters _

theorem text_subset (action : Action) : action.text.toList ⊆ ruleCharacters := by
  rw [text_eq_append, String.toList_append, List.append_subset]
  exact ⟨action.verb_subset, enclosed_subset (by decide) (by decide) action.operand?_subset⟩

end Action

/-! ## Instructions -/

namespace Instruction

def operand? : Instruction → Option String
  | .applyActions actions | .writeActions actions =>
      some (listed "," "" Action.text actions)
  | .writeMetadata metadata mask => some (hex metadata.toNat ++ "/" ++ hex mask.toNat)
  | .gotoTable table => some table.text
  | .clearActions => none

theorem text_eq_append (instruction : Instruction) :
    instruction.text =
      instruction.kind.name ++ enclosed "(" ")" instruction.operand? := by
  have list (actions : List Action) : Action.listText actions =
      "(" ++ listed "," "" Action.text actions ++ ")" := by
    cases actions with
    | nil => rfl
    | cons first rest => rfl
  unfold text
  cases instruction <;>
    simp [kind, InstructionKind.name, operand?, enclosed, list, ← String.append_assoc]

theorem bracket_not_mem_name (kind : InstructionKind) : '(' ∉ kind.name.toList := by
  cases kind <;> decide

theorem name_injective : Function.Injective InstructionKind.name := by
  intro left right same
  cases left <;> cases right <;> simp only [InstructionKind.name, String.reduceEq] at same
  all_goals rfl

theorem actions_eq_of_listed_eq {left right : List Action}
    (same : listed "," "" Action.text left = listed "," "" Action.text right) : left = right := by
  have clear (action : Action) : ',' ∉ action.text.toList :=
    List.notMem_of_subset action.text_subset (by decide)
  exact listed_injective (by rfl) Action.text_injective clear (by decide)
    Action.text_ne_empty same

theorem metadata_eq_of_text_eq {metadata metadata' mask mask' : UInt64}
    (same : hex metadata.toNat ++ "/" ++ hex mask.toNat =
      hex metadata'.toNat ++ "/" ++ hex mask'.toNat) : metadata = metadata' ∧ mask = mask' := by
  simp only [String.append_assoc] at same
  obtain ⟨front, back⟩ := eq_of_append_append_eq (by rfl) same
    (Match.slash_not_mem_hex _) (Match.slash_not_mem_hex _)
  exact ⟨UInt64.toNat_inj.mp (hex_inj.mp front), UInt64.toNat_inj.mp (hex_inj.mp back)⟩

/-- An instruction is determined by its kind and its operand. -/
theorem eq_of_operand?_eq {left right : Instruction} (kinds : left.kind = right.kind)
    (operands : left.operand? = right.operand?) : left = right := by
  cases left <;> cases right <;> simp only [kind, reduceCtorEq] at kinds
  all_goals simp only [operand?, Option.some.injEq] at operands
  case applyActions => exact congrArg applyActions (actions_eq_of_listed_eq operands)
  case clearActions => rfl
  case writeActions => exact congrArg writeActions (actions_eq_of_listed_eq operands)
  case writeMetadata =>
    obtain ⟨rfl, rfl⟩ := metadata_eq_of_text_eq operands
    rfl
  case gotoTable => exact congrArg gotoTable (TableId.text_injective operands)

/-- An instruction is determined by how it is written. -/
theorem text_injective : Function.Injective Instruction.text := by
  intro left right same
  rw [text_eq_append, text_eq_append] at same
  obtain ⟨names, operands⟩ := eq_of_append_enclosed_eq (by rfl) same
    (bracket_not_mem_name _) (bracket_not_mem_name _)
  exact eq_of_operand?_eq (name_injective names) operands

/-- What is written for an entry without instructions is no instruction. -/
theorem text_ne_drop (instruction : Instruction) : instruction.text ≠ "drop" := by
  intro same
  have bare : "drop" ++ enclosed "(" ")" none =
      instruction.kind.name ++ enclosed "(" ")" instruction.operand? :=
    String.append_empty.trans (same.symm.trans instruction.text_eq_append)
  have names := (eq_of_append_enclosed_eq (by rfl) bare (by decide)
    (bracket_not_mem_name _)).1
  cases kinds : instruction.kind <;> simp [kinds, InstructionKind.name] at names

/-- The characters of instructions. -/
def instructionCharacters : List Char :=
  '(' :: ')' :: ',' :: ruleCharacters

theorem ruleCharacters_subset : ruleCharacters ⊆ instructionCharacters :=
  List.subset_cons_of_subset _ (List.subset_cons_of_subset _ (List.subset_cons_self _ _))

theorem operand?_subset (instruction : Instruction) :
    ∀ operand ∈ instruction.operand?, operand.toList ⊆ instructionCharacters := by
  have list (actions : List Action) :
      (listed "," "" Action.text actions).toList ⊆ instructionCharacters :=
    listed_subset (by decide) (by decide)
      (fun action => List.Subset.trans action.text_subset ruleCharacters_subset) actions
  have number (value : Nat) : (hex value).toList ⊆ instructionCharacters :=
    List.Subset.trans (hex_subset value)
      (List.Subset.trans hexCharacters_subset ruleCharacters_subset)
  intro operand shown
  cases instruction <;> cases shown
  case applyActions actions => exact list actions
  case writeActions actions => exact list actions
  case writeMetadata metadata mask =>
    simp only [String.toList_append, List.append_subset]
    exact ⟨⟨number _, by decide⟩, number _⟩
  case gotoTable table => exact List.Subset.trans table.text_subset ruleCharacters_subset

theorem text_subset (instruction : Instruction) :
    instruction.text.toList ⊆ instructionCharacters := by
  rw [text_eq_append, String.toList_append, List.append_subset]
  have name : instruction.kind.name.toList ⊆ instructionCharacters := by
    cases instruction.kind <;> decide
  exact ⟨name, enclosed_subset (by decide) (by decide) instruction.operand?_subset⟩

end Instruction

/-! ## Instruction sets -/

namespace InstructionSet

theorem ofList_toList (set : InstructionSet) : ofList set.toList = set := by
  obtain ⟨applied, clears, written, metadata, nextTable⟩ := set
  cases applied <;> cases clears <;> cases written <;> cases metadata <;> cases nextTable <;> rfl

theorem text_eq_listed (set : InstructionSet) :
    set.text = listed " " "drop" Instruction.text set.toList := by
  unfold InstructionSet.text
  cases set.toList <;> rfl

/-- An instruction set is determined by how it is written. -/
theorem text_injective : Function.Injective InstructionSet.text := by
  intro left right same
  rw [text_eq_listed, text_eq_listed] at same
  have clear (instruction : Instruction) : ' ' ∉ instruction.text.toList :=
    List.notMem_of_subset instruction.text_subset (by decide)
  have lists := listed_injective (by rfl) Instruction.text_injective clear (by decide)
    Instruction.text_ne_drop same
  rw [← ofList_toList left, lists, ofList_toList]

end InstructionSet

end PacketClassifier
