import Mathlib.Data.List.Basic
import PacketClassifier.Text.Numeral

/-!
# Texts between separators

A text is found again in front of the first mark, and every one of several texts between
separators, if none of them contains the mark.  So a list of items is determined by their texts
between separators, also where the list without items is written as a word of its own.
-/

namespace PacketClassifier.Text

variable {mark : Char} {separator : String} {texts others : List String}

/-- The text starts with the mark, unless it is empty. -/
def StartsAt (mark : Char) (text : String) : Prop :=
  ∀ first ∈ text.toList.head?, first = mark

theorem startsAt_empty : StartsAt mark "" := by
  simp [StartsAt]

theorem startsAt_append (marked : separator.toList.head? = some mark) (text : String) :
    StartsAt mark (separator ++ text) := by
  simp [StartsAt, List.head?_append, marked, eq_comm]

/-- Lists that agree have the same part in front of the first mark, and the same behind it. -/
theorem eq_and_eq_of_append_eq {front front' back back' : List Char}
    (same : front ++ back = front' ++ back') (clear : mark ∉ front) (clear' : mark ∉ front')
    (starts : ∀ first ∈ back.head?, first = mark)
    (starts' : ∀ first ∈ back'.head?, first = mark) :
    front = front' ∧ back = back' := by
  induction front generalizing front' with
  | nil =>
      cases front' with
      | nil => exact ⟨rfl, same⟩
      | cons first rest =>
          have behind : back = first :: (rest ++ back') := same
          obtain rfl := starts first (by rw [behind, List.head?_cons, Option.mem_some])
          exact absurd List.mem_cons_self clear'
  | cons first rest ih =>
      rw [List.mem_cons, not_or] at clear
      cases front' with
      | nil =>
          have behind : back' = first :: (rest ++ back) := same.symm
          obtain rfl := starts' first (by rw [behind, List.head?_cons, Option.mem_some])
          exact absurd rfl clear.1
      | cons first' rest' =>
          rw [List.mem_cons, not_or] at clear'
          obtain ⟨rfl, behind⟩ := List.cons.inj same
          obtain ⟨rfl, rfl⟩ := ih behind clear.2 clear'.2
          exact ⟨rfl, rfl⟩

/-- What stands in front of the first mark, if any, and what follows from there on. -/
theorem eq_of_append_eq {front front' back back' : String}
    (same : front ++ back = front' ++ back') (clear : mark ∉ front.toList)
    (clear' : mark ∉ front'.toList) (starts : StartsAt mark back)
    (starts' : StartsAt mark back') :
    front = front' ∧ back = back' := by
  have lists := congrArg String.toList same
  rw [String.toList_append, String.toList_append] at lists
  obtain ⟨fronts, backs⟩ := eq_and_eq_of_append_eq lists clear clear' starts starts'
  exact ⟨String.toList_inj.mp fronts, String.toList_inj.mp backs⟩

/-- What stands in front of a separator, and what is behind it. -/
theorem eq_of_append_append_eq {front front' back back' : String}
    (marked : separator.toList.head? = some mark)
    (same : front ++ (separator ++ back) = front' ++ (separator ++ back'))
    (clear : mark ∉ front.toList) (clear' : mark ∉ front'.toList) :
    front = front' ∧ back = back' := by
  obtain ⟨fronts, backs⟩ := eq_of_append_eq same clear clear' (startsAt_append marked back)
    (startsAt_append marked back')
  exact ⟨fronts, (String.append_right_inj separator).mp backs⟩

/-- A joined text splits into the texts that it was joined from. -/
theorem splitOn_joined (single : separator.toList = [mark]) (some : texts ≠ [])
    (clear : ∀ text ∈ texts, mark ∉ text.toList) :
    (joined separator texts).toList.splitOn mark = texts.map String.toList := by
  rw [joined, String.toList_intercalate, single]
  refine List.splitOn_intercalate mark ?_ (by simpa using some)
  intro item member
  obtain ⟨text, listed, rfl⟩ := List.mem_map.mp member
  exact clear text listed

/-- Joined texts are told apart by what they were joined from. -/
theorem eq_of_joined_eq (single : separator.toList = [mark])
    (same : joined separator texts = joined separator others) (some : texts ≠ [])
    (some' : others ≠ []) (clear : ∀ text ∈ texts, mark ∉ text.toList)
    (clear' : ∀ text ∈ others, mark ∉ text.toList) :
    texts = others := by
  have split := splitOn_joined single some clear
  rw [same, splitOn_joined single some' clear'] at split
  exact ((List.map_inj_right fun _ _ => String.toList_inj.mp).mp split).symm

/-! ## Lists of items -/

variable {Item : Type} {text : Item → String} {empty : String}

/-- The texts of items between separators, or a word for no items. -/
def listed (separator empty : String) (text : Item → String) : List Item → String
  | [] => empty
  | items => joined separator (items.map text)

/-- Items are determined by their texts if no text is the word for no items. -/
theorem listed_injective (single : separator.toList = [mark])
    (injective : Function.Injective text) (clear : ∀ item, mark ∉ (text item).toList)
    (clearEmpty : mark ∉ empty.toList) (proper : ∀ item, text item ≠ empty) :
    Function.Injective (listed separator empty text) := by
  -- what is written for no items is written for the word alone
  let words (items : List Item) : List String :=
    if items = [] then [empty] else items.map text
  have asWords (items : List Item) : listed separator empty text items =
      joined separator (words items) := by
    cases items with
    | nil => exact String.intercalate_singleton.symm
    | cons first rest => rfl
  have some (items : List Item) : words items ≠ [] := by
    cases items <;> simp [words]
  have clearWords (items : List Item) : ∀ word ∈ words items, mark ∉ word.toList := by
    intro word member
    cases items with
    | nil => exact List.mem_singleton.mp member ▸ clearEmpty
    | cons first rest =>
        obtain ⟨item, -, rfl⟩ := List.mem_map.mp member
        exact clear item
  intro items others same
  rw [asWords, asWords] at same
  have sameWords := eq_of_joined_eq single same (some items) (some others)
    (clearWords items) (clearWords others)
  cases items with
  | nil =>
      cases others with
      | nil => rfl
      | cons first rest =>
          exact absurd (List.cons.inj sameWords).1.symm (proper first)
  | cons first rest =>
      cases others with
      | nil => exact absurd (List.cons.inj sameWords).1 (proper first)
      | cons first' rest' => exact List.map_injective_iff.mpr injective sameWords

/-! ## Alphabets -/

theorem joined_subset {alphabet : List Char} (separators : separator.toList ⊆ alphabet)
    (among : ∀ text ∈ texts, text.toList ⊆ alphabet) :
    (joined separator texts).toList ⊆ alphabet := by
  induction texts with
  | nil => exact List.nil_subset _
  | cons first rest ih =>
      have firstAmong := among first List.mem_cons_self
      have restAmong := ih fun text member => among text (List.mem_cons_of_mem _ member)
      cases rest with
      | nil => simpa [joined] using firstAmong
      | cons second rest =>
          simp only [joined, String.intercalate_cons_cons, String.toList_append,
            List.append_subset] at restAmong ⊢
          exact ⟨⟨firstAmong, separators⟩, restAmong⟩

theorem listed_subset {alphabet : List Char} (separators : separator.toList ⊆ alphabet)
    (word : empty.toList ⊆ alphabet) (among : ∀ item, (text item).toList ⊆ alphabet)
    (items : List Item) : (listed separator empty text items).toList ⊆ alphabet := by
  cases items with
  | nil => exact word
  | cons first rest =>
      refine joined_subset separators fun word member => ?_
      obtain ⟨item, -, rfl⟩ := List.mem_map.mp member
      exact among item

end PacketClassifier.Text
