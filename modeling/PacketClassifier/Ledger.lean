import PacketClassifier.Removal

/-!
# The ledger of entries

Tables share entries with whoever holds on to one: a packet that hit an entry,
a request that names it.  An entry is therefore known by a reference, which
carries its rule, and the ledger keeps what may change, for entries that are
installed and for entries that have gone.  The ledger also records the notices
of removal that were given out, the oldest first.
-/

namespace PacketClassifier

/-- The identity of an entry, with the part of it that never changes. -/
structure EntryRef where
  id : Nat
  rule : Rule
deriving DecidableEq, Inhabited

/-- The state of every entry, and the notices given out. -/
structure Ledger where
  states : Array EntryState := #[]
  /-- Each notice with the entry it is about. -/
  notices : List (EntryRef × RemovalNotice) := []
deriving DecidableEq, Inhabited

namespace Ledger

/-- The state of the entry of a given identity. -/
def state (ledger : Ledger) (id : Nat) : EntryState :=
  ledger.states[id]?.getD {}

/-- An entry as it is now. -/
def entry (ledger : Ledger) (ref : EntryRef) : Entry :=
  ⟨ref.rule, ledger.state ref.id⟩

/-- Give an entry an identity that no other entry has. -/
def register (ledger : Ledger) (entry : Entry) : EntryRef × Ledger :=
  (⟨ledger.states.size, entry.toRule⟩,
    { ledger with states := ledger.states.push entry.toEntryState })

/-- Change the state of an entry. -/
def update (ledger : Ledger) (ref : EntryRef) (change : EntryState → EntryState) :
    Ledger :=
  { ledger with states := ledger.states.modify ref.id change }

/-- Change the state of several entries, one after the other. -/
def updateAll (ledger : Ledger) (refs : List EntryRef)
    (change : EntryState → EntryState) : Ledger :=
  refs.foldl (fun ledger ref => ledger.update ref change) ledger

/-- Record the notice that is due when an entry goes away, if any. -/
def dismiss (ledger : Ledger) (reason : RemovalReason) (ref : EntryRef) : Ledger :=
  { ledger with
    notices := ledger.notices ++
      (((ledger.entry ref).removalNotice? reason).map (ref, ·)).toList }

/-- Record the notices that are due when several entries go away. -/
def dismissAll (ledger : Ledger) (reason : RemovalReason)
    (refs : List EntryRef) : Ledger :=
  refs.foldl (fun ledger ref => ledger.dismiss reason ref) ledger

/-! ## What the operations do to states and notices -/

@[simp]
theorem state_update_self {ledger : Ledger} {ref : EntryRef}
    (known : ref.id < ledger.states.size) (change : EntryState → EntryState) :
    (ledger.update ref change).state ref.id = change (ledger.state ref.id) := by
  simp [state, update, known, Array.getElem_modify]

@[simp]
theorem state_update_of_ne {ref : EntryRef} {id : Nat} (other : id ≠ ref.id)
    (ledger : Ledger) (change : EntryState → EntryState) :
    (ledger.update ref change).state id = ledger.state id := by
  simp [state, update, Array.getElem?_modify, other.symm]

@[simp]
theorem notices_updateAll (ledger : Ledger) (refs : List EntryRef)
    (change : EntryState → EntryState) :
    (ledger.updateAll refs change).notices = ledger.notices := by
  induction refs generalizing ledger with
  | nil => rfl
  | cons first rest ih => exact ih (ledger.update first change)

/-- An entry that is registered reads back as it was. -/
@[simp]
theorem entry_register (ledger : Ledger) (entry : Entry) :
    (ledger.register entry).2.entry (ledger.register entry).1 = entry := by
  simp [register, Ledger.entry, state]

theorem state_register_of_lt {ledger : Ledger} {id : Nat}
    (known : id < ledger.states.size) (entry : Entry) :
    (ledger.register entry).2.state id = ledger.state id := by
  simp [register, state, Array.getElem?_push, Nat.ne_of_lt known]

@[simp]
theorem state_dismiss (ledger : Ledger) (reason : RemovalReason) (ref : EntryRef)
    (id : Nat) : (ledger.dismiss reason ref).state id = ledger.state id :=
  rfl

@[simp]
theorem state_dismissAll (ledger : Ledger) (reason : RemovalReason)
    (refs : List EntryRef) (id : Nat) :
    (ledger.dismissAll reason refs).state id = ledger.state id := by
  induction refs generalizing ledger with
  | nil => rfl
  | cons first rest ih => exact ih (ledger.dismiss reason first)

end Ledger

end PacketClassifier
